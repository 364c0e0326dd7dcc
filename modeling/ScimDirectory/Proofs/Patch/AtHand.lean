import ScimDirectory.Proofs.Directory.Paging
import ScimDirectory.Proofs.Patch.Moves

/-!
# The row at hand

The columns of a row are written to the row at hand first, and storage may still refuse the row.
It refuses a row for one reason only: its name is another row's. The row at hand then keeps the
name that was refused, and is no longer the stored one. After every other end of an operation, a
failure or not, the row at hand is the stored one.
-/

namespace ScimDirectory

namespace Patch

variable {type : ResourceType} {kind : OperationKind} {target : Target} {value : Json}

/-- The error when a name is another row's. -/
def nameConflict (type : ResourceType) (name : String) : DirectoryError :=
  .storage (.constraint type.table ("userName '" ++ name ++ "' already exists"))

/-- How the row at hand stands to the stored row with a key when an operation ends, given what names
it asks for. -/
inductive AtHand (asks : String → Prop) (id : Uuid) :
    Except DirectoryError Unit × World Tables × Row type → Prop where
  /-- It is the stored row. -/
  | stored {answer : Except DirectoryError Unit} {w : World Tables} {row : Row type}
      (hfind : w.store.find? type id = some row) : AtHand asks id (answer, w, row)
  /-- It is the stored row with a name that was refused. -/
  | refused {w : World Tables} {row new : Row type} {name : String} (hasks : asks name)
      (hfind : w.store.find? type id = some row)
      (hassign : row.assign .userName (some (.text name)) = .ok new)
      (htaken : w.store.nameTaken new = true) :
      AtHand asks id (.error (nameConflict type name), w, new)

namespace AtHand

variable {asks more : String → Prop} {id : Uuid}
  {result : Except DirectoryError Unit × World Tables × Row type}

theorem mono (hmore : ∀ name, asks name → more name) (h : AtHand asks id result) :
    AtHand more id result := by
  cases h with
  | stored hfind => exact .stored hfind
  | refused hasks hfind hassign htaken => exact .refused (hmore _ hasks) hfind hassign htaken

/-- A step that succeeds leaves the stored row at hand for the next one. -/
theorem bind {step : Step Tables type Unit} {f : Unit → Step Tables type Unit} {w : World Tables}
    {row : Row type} (h : AtHand asks id (step.run (w, row)))
    (hnext : ∀ {w' : World Tables} {after : Row type}, step.run (w, row) = (.ok (), w', after) →
      w'.store.find? type id = some after → AtHand asks id ((f ()).run (w', after))) :
    AtHand asks id ((step >>= f).run (w, row)) := by
  rcases hrun : step.run (w, row) with ⟨error | _, w', after⟩
  · rw [run_bind_of_error hrun, ← hrun]
    exact h
  · rw [run_bind_of_ok hrun]
    rw [hrun] at h
    cases h with
    | stored hfind => exact hnext hrun hfind

/-- The row at hand is the stored one exactly when its name is not another row's. -/
theorem stored_iff (h : AtHand asks id result) (hwell : result.2.1.store.WellFormed) :
    result.2.1.store.find? type id = some result.2.2 ↔
      result.2.1.store.nameTaken result.2.2 = false := by
  have hfree : ∀ row : Row type, result.2.1.store.find? type id = some row →
      result.2.1.store.nameTaken row = false := by
    intro row hfind
    have hid : row.id = id := Tables.id_of_find? hfind
    exact Tables.checkName_eq_ok_iff.mp (hwell.checkName_eq_ok (hid ▸ hfind) rfl)
  refine ⟨hfree _, fun hname => ?_⟩
  cases h with
  | stored hfind => exact hfind
  | refused _ _ _ htaken => exact absurd htaken (by simpa using hname)

/-- A row at hand that is not the stored one is that one with a name that was asked for. -/
theorem exists_refused (h : AtHand asks id result)
    (hlost : result.2.1.store.find? type id ≠ some result.2.2) :
    ∃ stored name, asks name ∧ result.2.1.store.find? type id = some stored ∧
      stored.assign .userName (some (.text name)) = .ok result.2.2 ∧
      result.1 = .error (nameConflict type name) := by
  cases h with
  | stored hfind => exact absurd hfind hlost
  | @refused w row new name hasks hfind hassign _ => exact ⟨row, name, hasks, hfind, hassign, rfl⟩

end AtHand

section

variable {w : World Tables} {row new : Row type}

/-- A row that is there is refused for its name only. -/
theorem nameTaken_of_update {error : StoreError} (hthere : w.store.has type new.id = true)
    (hwrite : w.store.update new = .error error) :
    w.store.nameTaken new = true ∧
      .storage error = nameConflict type (new.uniqueName?.getD "") := by
  unfold Tables.update Tables.checkName at hwrite
  rw [hthere] at hwrite
  cases htaken : w.store.nameTaken new with
  | false => simp [htaken] at hwrite
  | true =>
    simp only [Bool.not_true, Bool.false_eq_true, ↓reduceIte, htaken, Except.error.injEq] at hwrite
    exact ⟨rfl, by rw [nameConflict, ← hwrite]⟩

/-- A stored row gets the name of another one by its name being written only. -/
theorem column_of_nameTaken (hwell : w.store.WellFormed)
    (hfind : w.store.find? type row.id = some row) {column : Column} {content : Option Scalar}
    (hassign : row.assign column content = .ok new) (htaken : w.store.nameTaken new = true) :
    column = .userName ∧ ∃ name, content = some (.text name) ∧ new.uniqueName? = some name := by
  have hwritten := Row.requiredName_of_assign hassign
  cases type with
  | group => cases htaken
  | user =>
    split at hwritten
    · next hcolumn => exact ⟨hcolumn, _, hwritten.1, rfl⟩
    · -- Any other column leaves the row the name that it is stored with, and that is its own.
      have hid : Row.id new = row.id := (Row.sameSystem_of_assign hassign).id
      have hname : w.store.checkName new = .ok () :=
        hwell.checkName_eq_ok (hid ▸ hfind) (congrArg some hwritten)
      rw [Tables.checkName_eq_ok_iff, htaken] at hname
      cases hname

/-- A column that is written is stored, or the row at hand has a refused name. -/
theorem setField_atHand (hwell : w.store.WellFormed)
    (hfind : w.store.find? type row.id = some row) (field : Field) (content : Option Scalar) :
    AtHand (fun name => field.column = .userName ∧ content = some (.text name)) row.id
      ((setFields [(field, content)]).run (w, row)) := by
  rw [setField_run]
  cases hassign : row.assign field.column content with
  | error error => exact .stored hfind
  | ok new =>
    have hid : new.id = row.id := (Row.sameSystem_of_assign hassign).id
    dsimp only
    cases hwrite : w.store.update new with
    | error error =>
      have hthere : w.store.has type new.id = true := by
        rw [Tables.has, hid, hfind]
        rfl
      obtain ⟨htaken, herror⟩ := nameTaken_of_update hthere hwrite
      obtain ⟨hcolumn, name, rfl, hname⟩ := column_of_nameTaken hwell hfind hassign htaken
      dsimp only
      rw [herror, hname]
      exact .refused ⟨hcolumn, rfl⟩ hfind (hcolumn ▸ hassign) htaken
    | ok written =>
      obtain ⟨-, -, hstored, hafter⟩ := Tables.update_eq_ok hwrite
      refine .stored ?_
      rw [hafter, hstored, Tables.find?_put, if_pos hid]

/-- Columns that a row may lack are stored. -/
theorem setFields_stored (hwell : w.store.WellFormed)
    (hfind : w.store.find? type row.id = some row) {updates : Updates}
    (hfitting : ∀ update ∈ updates, Fitting type update) :
    ∃ new : Row type, ((setFields updates).run (w, row)) =
      (.ok (), { w with store := w.store.put new }, new) ∧ new.id = row.id := by
  obtain ⟨_, -, hrun⟩ := setFields_run updates w row
  obtain ⟨new, hassigned⟩ := exists_assigned hfitting row
  have hid : new.id = row.id := (sameSystem_of_assigned hassigned).id
  have hrequired := Row.requiredName_of_assigned hassigned fun update hmem =>
    (hfitting update hmem).optional
  have hname : new.uniqueName? = row.uniqueName? := by
    cases type with
    | user => exact congrArg some hrequired
    | group => rfl
  refine ⟨new, ?_, hid⟩
  rw [hrun, hassigned]
  dsimp only
  rw [hwell.update_eq (hid ▸ hfind) hname]

/-- How a move leaves the row at hand. -/
theorem Move.atHand {step : Step Tables type Unit} (h : Move kind target value step)
    (hwell : w.store.WellFormed) (hfind : w.store.find? type row.id = some row) :
    AtHand (fun name => kind ≠ .remove ∧ value = .text name ∧
      ∃ field, target = .field field ∧ field.column = .userName) row.id (step.run (w, row)) := by
  cases h with
  | refused error => exact .stored hfind
  | @column field content htarget hcontent =>
    refine (setField_atHand hwell hfind field content).mono fun name hasked => ?_
    rw [hasked.2, fieldContent] at hcontent
    split at hcontent
    · cases hcontent
    · next hkind => exact ⟨hkind, eq_text_of_scalar hcontent, field, htarget, hasked.1⟩
  | columns hfitting =>
    obtain ⟨new, hrun, hid⟩ := setFields_stored hwell hfind hfitting
    rw [hrun]
    refine .stored ?_
    rw [Tables.find?_put, if_pos hid]
  | @items a ha =>
    rw [owner_lift_run]
    exact .stored (((ha row.id w).find?_eq type row.id).trans hfind)

end

end Patch

/-- Whether an instruction asks for the column of user names to hold a name. -/
def Instruction.AsksName (parser : Filter.Parser) (type : ResourceType) (asked : Instruction)
    (name : String) : Prop :=
  asked.kind ≠ .remove ∧ asked.value = .text name ∧
    ∃ field, Target.ofPath parser type asked.path = .ok (.field field) ∧ field.column = .userName

namespace Patch

variable {type : ResourceType} {w : World Tables} {row : Row type}

/-- How an instruction leaves the row at hand. -/
theorem carryOut_atHand (setting : Setting) (hwell : w.store.WellFormed)
    (hfind : w.store.find? type row.id = some row) (asked : Instruction) :
    AtHand (asked.AsksName setting.parser type) row.id
      ((carryOut setting asked).run (w, row)) := by
  unfold carryOut applyAt
  cases htarget : Target.ofPath setting.parser type asked.path with
  | error error => exact .stored hfind
  | ok target =>
    refine ((applyOf_move asked.kind).atHand hwell hfind).mono ?_
    rintro name ⟨hkind, hvalue, field, rfl, hcolumn⟩
    exact ⟨hkind, hvalue, field, htarget, hcolumn⟩

/-- How instructions leave the row at hand: each finds the stored row there. -/
theorem carryOutAll_atHand (setting : Setting) (hwell : w.store.WellFormed)
    (hfind : w.store.find? type row.id = some row) (instructions : List Instruction) :
    AtHand (fun name => ∃ asked ∈ instructions, asked.AsksName setting.parser type name) row.id
      ((carryOutAll setting instructions).run (w, row)) := by
  -- An instruction is followed by another one only if it succeeds, and then it leaves the stored row
  -- at hand.
  induction instructions generalizing w row with
  | nil => exact .stored hfind
  | cons asked others ih =>
    have hfirst := carryOut_atHand setting hwell hfind asked
    refine (hfirst.mono fun _ hasks => ?_).bind fun {w' after} hrun hafter => ?_
    · exact ⟨asked, List.mem_cons_self, hasks⟩
    have hid : after.id = row.id := Tables.id_of_find? hafter
    have hlater : w'.store.WellFormed := by
      have hkept := carryOut_keepsWellFormed setting asked (w, row) hwell
      rwa [hrun] at hkept
    refine hid ▸ (ih hlater (hid ▸ hafter)).mono ?_
    rintro name ⟨other, hmem, hasks⟩
    exact ⟨other, List.mem_cons_of_mem _ hmem, hasks⟩

/-- How an operation leaves the row at hand. -/
theorem apply_atHand (setting : Setting) (hwell : w.store.WellFormed)
    (hfind : w.store.find? type row.id = some row) (operation : Operation) :
    AtHand (fun name => ∃ asked ∈ operation.instructions,
      asked.AsksName setting.parser type name) row.id ((apply setting operation).run (w, row)) := by
  rcases @apply_eq type Tables _ setting operation with heq | ⟨error, heq⟩
  · rw [heq]
    exact carryOutAll_atHand setting hwell hfind _
  · rw [heq]
    exact .stored hfind

/-- What operations leave that are applied one after the other, whether or not they succeed. -/
def carriedOn (setting : Setting) (operations : List Operation) (s : World Tables × Row type) :
    World Tables × Row type :=
  operations.foldl (fun s operation => ((apply setting operation).run s).2) s

theorem carriedOn_keepsWellFormed (setting : Setting) (operations : List Operation)
    (s : World Tables × Row type) : KeepsWellFormed s (carriedOn setting operations s) := by
  induction operations generalizing s with
  | nil => exact id
  | cons operation operations ih =>
    exact fun hwell => ih _ (apply_keepsWellFormed setting operation s hwell)

end Patch

/-- In every directory that can be reached, let operations be applied to a row, whether or not they
succeed. Whenever the row at hand is then the stored one and another operation is applied, it is the
stored one after that exactly when its name is not another row's. Otherwise the operation has asked
for the name and was refused for it, and the row at hand is the stored row with that name. -/
theorem row_at_hand_is_stored_iff (setting : Patch.Setting) {type : ResourceType} (w : World Tables)
    (start : Row type) (earlier : List Operation) (operation : Operation)
    (hreached : w.store.Reached)
    (hstored : (Patch.carriedOn setting earlier (w, start)).1.store.find? type
      (Patch.carriedOn setting earlier (w, start)).2.id =
        some (Patch.carriedOn setting earlier (w, start)).2) :
    let current := Patch.carriedOn setting earlier (w, start)
    let result := (Patch.apply setting operation).run current
    (result.2.1.store.find? type current.2.id = some result.2.2 ↔
      result.2.1.store.nameTaken result.2.2 = false) ∧
    (result.2.1.store.nameTaken result.2.2 = true →
      ∃ stored name, (∃ asked ∈ operation.instructions, asked.AsksName setting.parser type name) ∧
        result.2.1.store.find? type current.2.id = some stored ∧
        stored.assign .userName (some (.text name)) = .ok result.2.2 ∧
        result.1 = .error (Patch.nameConflict type name)) := by
  intro current result
  have hwell : current.1.store.WellFormed :=
    Patch.carriedOn_keepsWellFormed setting earlier (w, start) hreached.wellFormed
  have hafter : result.2.1.store.WellFormed :=
    Patch.apply_keepsWellFormed setting operation current hwell
  have hend := Patch.apply_atHand setting hwell hstored operation
  refine ⟨hend.stored_iff hafter, fun htaken => hend.exists_refused fun hfind => ?_⟩
  have hfree := (hend.stored_iff hafter).mp hfind
  rw [htaken] at hfree
  cases hfree

/-- A user gets a name that is free after an operation that fails: the row at hand is the stored one
before and after. -/
theorem row_at_hand_is_stored_iff_of_free_name :
    let row (key : Nat) (name : String) : Row .user :=
      UserRow.named (.numbered key) name (.ofSeconds 0)
    let w : World Tables := World.fresh (StoreCall.steps
      [@StoreCall.insert .user ⟨row 1 "alice", []⟩, @StoreCall.insert .user ⟨row 2 "bob", []⟩]
      Tables.empty)
    let setting : Patch.Setting := ⟨Filter.parse, Config.standard.root⟩
    let earlier : List Operation := [.replace "title" (.bool true)]
    let current := Patch.carriedOn setting earlier (w, row 2 "bob")
    let result := (Patch.apply setting (.replace "userName" (.text "carol"))).run current
    current.1.store.find? .user current.2.id = some current.2 ∧
      result.2.1.store.find? .user current.2.id = some result.2.2 := by
  intro row w setting earlier
  have hfind : let current := Patch.carriedOn setting earlier (w, row 2 "bob")
      current.1.store.find? .user current.2.id = some current.2 := by decide +kernel
  have hiff := (row_at_hand_is_stored_iff setting w (row 2 "bob") earlier
    (.replace "userName" (.text "carol")) (.calls _) hfind).1
  exact ⟨hfind, hiff.mpr (by decide +kernel)⟩

/-- A user who is refused the name of another one keeps it at hand, and gets it with the next title
once the other one is gone. -/
theorem row_at_hand_keeps_refused_name :
    let row (key : Nat) (name : String) : Row .user :=
      UserRow.named (.numbered key) name (.ofSeconds 0)
    let tables := StoreCall.steps [@StoreCall.insert .user ⟨row 1 "alice", []⟩,
      @StoreCall.insert .user ⟨row 2 "bob", []⟩] Tables.empty
    let setting : Patch.Setting := ⟨Filter.parse, Config.standard.root⟩
    let refused := (Patch.apply setting (.replace "userName" (.text "alice"))).run
      (World.fresh tables, row 2 "bob")
    let later := (Patch.apply setting (.replace "title" (.text "Engineer"))).run
      ({ refused.2.1 with store := (refused.2.1.store.delete .user (.numbered 1)).2 }, refused.2.2)
    tables.find? .user (.numbered 2) = some (row 2 "bob") ∧
      refused.1.isOk = false ∧
      refused.2.1.store.find? .user (.numbered 2) = some (row 2 "bob") ∧
      refused.2.2 = row 2 "alice" ∧
      later.1.isOk = true ∧
      (later.2.1.store.find? .user (.numbered 2)).map UserRow.userName = some "alice" := by
  decide +kernel

end ScimDirectory
