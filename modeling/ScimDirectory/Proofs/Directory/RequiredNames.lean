import ScimDirectory.Proofs.Directory.Instructions
import ScimDirectory.Proofs.Resource.Valid
import ScimDirectory.Proofs.Store.Records

/-!
# Required names

The name that a row must not lack is checked twice: a resource is refused when its name is blank,
and a column when it is empty. The second check lets through what the first one refuses, so an
instruction that puts a text of nothing but blanks in the place of a name leaves a resource with
it. Nothing else does, and no name is ever empty.
-/

namespace ScimDirectory

namespace Row

variable {type : ResourceType}

/-- A text that is taken for a required column is the content that was given, and not empty. -/
theorem text_of_requiredText {table : String} {column : Column} {content : Option Scalar}
    {s : String} (h : requiredText table column content = .ok s) :
    content = some (.text s) ∧ s ≠ "" := by
  unfold requiredText at h
  split at h
  · split at h
    · cases h
    · next hne =>
      cases h
      exact ⟨rfl, hne⟩
  · cases h

/-- The name of a row is what is written to its column, and stays when another one is written. -/
theorem requiredName_of_assign {row new : Row type} {column : Column} {content : Option Scalar}
    (h : row.assign column content = .ok new) :
    if column = nameColumn type then
      content = some (.text new.requiredName) ∧ new.requiredName ≠ ""
    else new.requiredName = row.requiredName := by
  cases type <;> cases column <;>
    simp only [assign_eq, taking, UserRow.taking, UserRow.textSlot?, GroupRow.taking] at h <;>
    first
    | cases h
    | obtain ⟨s, hs, rfl⟩ := except_map_eq_ok.mp h
      first
      | exact text_of_requiredText hs
      | rfl

/-- The name of a row stays when other columns are written. -/
theorem requiredName_of_assigned {row new : Row type} {updates : Patch.Updates}
    (h : Patch.assigned row updates = .ok new)
    (hcolumns : ∀ update ∈ updates, update.1.column ≠ nameColumn type) :
    new.requiredName = row.requiredName := by
  induction updates generalizing row with
  | nil =>
    cases h
    rfl
  | cons update updates ih =>
    obtain ⟨hfirst, hrest⟩ := List.forall_mem_cons.mp hcolumns
    rw [Patch.assigned] at h
    split at h
    · cases h
    · next hassign =>
      have hname := requiredName_of_assign hassign
      rw [if_neg hfirst] at hname
      exact (ih h hrest).trans hname

end Row

namespace Directory

variable {d : Directory} {type : ResourceType}

/-- The row of a valid resource has a name that is not blank. -/
theorem requiredName_recordOf (d : Directory) {resource : Resource type}
    (h : validate resource = .ok ()) (id : Uuid) (created now : Instant) (draw : Nat) :
    Text.allBlank (d.recordOf resource id created now draw).row.requiredName = false := by
  cases type with
  | user => exact (User.validate_eq_ok h).1
  | group => exact (Group.validate_eq_ok h).1

/-- What a patch is concluded with is not the name. -/
theorem requiredName_finished (d : Directory) (now : Instant) (record : Record type) :
    (d.finished now record).requiredName = record.row.requiredName := by
  unfold finished
  cases type <;> dsimp only <;> split <;> rfl

end Directory

/-- Whether a text has a character that is not a blank. -/
theorem Text.allBlank_eq_false {s : String} :
    allBlank s = false ↔ ∃ c ∈ s.toList, isBlank c = false := by
  simp [allBlank]

namespace Tables

/-- Every stored row has a name that satisfies a condition. -/
def NamesSatisfy (N : String → Prop) (tables : Tables) : Prop :=
  ∀ ⦃type : ResourceType⦄, ∀ row ∈ tables.rows type, N (Row.requiredName row)

theorem namesSatisfy_empty (N : String → Prop) : empty.NamesSatisfy N := by
  intro type row hmem
  cases type <;> cases hmem

namespace NamesSatisfy

variable {N : String → Prop} {tables : Tables} (h : tables.NamesSatisfy N)

include h

/-- One row may be written when its name satisfies the condition. -/
theorem put {type : ResourceType} {row : Row type} (hname : N row.requiredName) :
    (tables.put row).NamesSatisfy N :=
  RowsSatisfy.put (P := fun _ row => N (Row.requiredName row)) h hname

theorem dropRow (type : ResourceType) (id : Uuid) : (tables.dropRow type id).NamesSatisfy N :=
  RowsSatisfy.dropRow (P := fun _ row => N (Row.requiredName row)) h type id

/-- Items do not matter. -/
theorem of_rows {after : Tables} (hrows : ∀ type, after.rows type = tables.rows type) :
    after.NamesSatisfy N :=
  RowsSatisfy.of_rows (P := fun _ row => N (Row.requiredName row)) h hrows

end NamesSatisfy

end Tables

/-- Writes of whole resources keep what holds of all names that are not blank. -/
theorem Directory.keptByWholes_namesSatisfy (d : Directory) {N : String → Prop}
    (hN : ∀ s, Text.allBlank s = false → N s) : d.KeptByWholes (Tables.NamesSatisfy N) := by
  intro draws before after hwrite hsound hnames
  cases hwrite with
  | create id resource now hvalid hwrite =>
    obtain ⟨-, -, -, rfl, -⟩ := Tables.insert_eq_ok hwrite
    exact (hnames.put (hN _ (d.requiredName_recordOf hvalid id now now draws))).of_rows
      fun _ => Tables.rows_addItems ..
  | replace id resource created now hvalid hwrite =>
    obtain ⟨-, -, -, rfl, -⟩ := Tables.replace_eq_ok hwrite
    exact (hnames.put (hN _ (d.requiredName_recordOf hvalid id created now draws))).of_rows
      fun _ => by simp
  | delete type id =>
    unfold Tables.delete
    split
    · exact (hnames.dropRow type id).of_rows fun _ => Tables.rows_dropItems ..
    · exact hnames
  | leave user => exact hnames.of_rows fun _ => Tables.rows_without ..
  | finish now hfind hwrite =>
    obtain ⟨-, -, -, rfl⟩ := Tables.update_eq_ok hwrite
    refine hnames.put ?_
    rw [d.requiredName_finished]
    exact hnames _ (Tables.mem_of_find? hfind)

/-- Whether an operation puts a text of nothing but blanks into the name that a row must not
lack. -/
def Target.blanks (type : ResourceType) (target : Target) (value : Json) : Bool :=
  match target, value with
  | .field found, .text s => found.column = Row.nameColumn type && (s != "" && Text.allBlank s)
  | _, _ => false

/-- Whether an instruction puts a text of nothing but blanks into the name that a row must not
lack. -/
def Instruction.blanks (parser : Filter.Parser) : ResourceType → Instruction → Bool :=
  Instruction.puts Target.blanks parser

namespace Patch

variable {d : Directory} {type : ResourceType} {row : Row type} {tables after : Tables}
  {kind : OperationKind} {target : Target} {value : Json} {answer : Except DirectoryError Unit}
  {N : String → Prop}

/-- A text that is read from a value is that value. -/
theorem eq_text_of_scalar {field : Field} {s : String}
    (h : scalar field value = .ok (some (.text s))) : value = .text s := by
  unfold scalar at h
  split at h
  · cases h
  · cases h
  · split at h <;> cases h
  · cases h
    rfl
  · cases h
    rfl
  · cases h

/-- An effect leaves the names of all rows, but that of the resource at hand if it writes to its
column. -/
theorem Effect.namesSatisfy (h : Effect d row tables kind target value answer after)
    (hfind : tables.find? type row.id = some row)
    (hwritten : ∀ field s, kind ≠ .remove → target = .field field →
      field.column = Row.nameColumn type → value = .text s → s ≠ "" → N s)
    (hnames : tables.NamesSatisfy N) : after.NamesSatisfy N := by
  cases h with
  | refused => exact hnames
  | field hcontent hassign hwrite =>
    obtain ⟨-, -, -, rfl⟩ := Tables.update_eq_ok hwrite
    refine hnames.put ?_
    have hname := Row.requiredName_of_assign hassign
    split at hname
    · next hcolumn =>
      obtain ⟨rfl, hne⟩ := hname
      unfold fieldContent at hcontent
      split at hcontent
      · cases hcontent
      · next hkind =>
        exact hwritten _ _ hkind rfl hcolumn (eq_text_of_scalar hcontent) hne
    · rw [hname]
      exact hnames _ (Tables.mem_of_find? hfind)
  | complex hcolumns hassigned hwrite =>
    obtain ⟨-, -, -, rfl⟩ := Tables.update_eq_ok hwrite
    refine hnames.put ?_
    rw [Row.requiredName_of_assigned hassigned hcolumns]
    exact hnames _ (Tables.mem_of_find? hfind)
  | added | reset | removed | revised => exact hnames.of_rows fun _ => by simp

/-- An effect that blanks a name leaves it blank. -/
theorem Effect.exists_blank (h : Effect d row tables kind target value (.ok ()) after)
    (hkind : kind ≠ .remove) (hblanks : target.blanks type value = true) :
    ∃ new : Row type, new ∈ after.rows type ∧ Text.allBlank new.requiredName = true := by
  unfold Target.blanks at hblanks
  split at hblanks
  · next field s =>
    obtain ⟨hcolumn, htext⟩ := Bool.and_eq_true_iff.mp hblanks
    cases h with
    | @field _ _ _ content new stored _ hcontent hassign hwrite =>
      have hname := Row.requiredName_of_assign hassign
      rw [if_pos (of_decide_eq_true hcolumn)] at hname
      obtain ⟨rfl, -⟩ := hname
      rw [fieldContent, if_neg hkind] at hcontent
      obtain ⟨-, -, -, rfl⟩ := Tables.update_eq_ok hwrite
      have hfound : (tables.put new).find? type new.id = some new := by
        rw [Tables.find?_put, if_pos rfl]
      refine ⟨new, Tables.mem_of_find? hfound, ?_⟩
      cases eq_text_of_scalar hcontent
      exact (Bool.and_eq_true_iff.mp htext).2
  · cases hblanks

end Patch

/-- Every stored resource has a name with a character that is not a blank. -/
def Tables.Named : Tables → Prop :=
  NamesSatisfy fun name => ∃ c ∈ name.toList, Text.isBlank c = false

/-- As long as an effect blanks no name, resources stay named. -/
theorem Patch.Effect.named {d : Directory} {type : ResourceType} {row : Row type}
    {tables after : Tables} {kind : OperationKind} {target : Target} {value : Json}
    {answer : Except DirectoryError Unit}
    (h : Effect d row tables kind target value answer after)
    (hfind : tables.find? type row.id = some row)
    (hblanks : kind ≠ .remove → target.blanks type value = false) (hnamed : tables.Named) :
    after.Named := by
  refine h.namesSatisfy hfind (fun field s hkind htarget hcolumn hvalue hne => ?_) hnamed
  have htext := hblanks hkind
  rw [htarget, hvalue] at htext
  refine Text.allBlank_eq_false.mp ?_
  simpa [Target.blanks, hcolumn, hne] using htext

/-- Whether an effect blanks a name is told by what it puts where. -/
theorem Patch.tells_named (d : Directory) : Tells d Target.blanks Tables.Named where
  keeps heffect := heffect.named
  breaks heffect hkind hblanks hnamed := by
    obtain ⟨new, hmem, hblank⟩ := heffect.exists_blank hkind hblanks
    have hname := Text.allBlank_eq_false.mpr (hnamed new hmem)
    rw [hblank] at hname
    cases hname

/-- Names are never empty. -/
theorem Directory.requiredName_ne_empty (d : Directory) (history : List (Instant × Command)) :
    (d.serveAll history (World.fresh Tables.empty)).store.NamesSatisfy (· ≠ "") := by
  have hwholes : d.KeptByWholes (Tables.NamesSatisfy (· ≠ "")) := by
    refine d.keptByWholes_namesSatisfy fun s hs hempty => ?_
    rw [hempty] at hs
    cases hs
  refine serveAll_keeps hwholes (Tables.sound_empty 0) (Tables.namesSatisfy_empty _)
    (fun type asked _ => ?_) fun entry _ => entry.2.asks_nothing
  intro tables after draws row target answer _ hfind _ heffect
  exact heffect.namesSatisfy hfind fun _ _ _ _ _ _ hne => hne

/-- No name is ever empty. Names keep a character that is not a blank as long as no instruction of a
patch blanks one, and an instruction that succeeds breaks this exactly when it blanks the name of
its resource: at every point of every patch that is asked of a directory that can be reached,
resources are named after it unless it has succeeded and has said so. -/
theorem required_names_stay_unless_blanked (d : Directory) (history : List (Instant × Command)) :
    (∀ {type : ResourceType} (row : Row type),
      row ∈ (d.serveAll history (World.fresh Tables.empty)).store.rows type →
        row.requiredName ≠ "") ∧
    ((∀ entry ∈ history, entry.2.asks (Instruction.blanks d.parser) = false) →
      (d.serveAll history (World.fresh Tables.empty)).store.Named) ∧
    ∀ {type : ResourceType} (row : Row type) (earlier : List Operation) (w : World Tables)
      (current : Row type) (asked : Instruction),
      (d.serveAll history (World.fresh Tables.empty)).store.find? type row.id = some row →
      (Patch.applyAll d.setting earlier).run
        (d.serveAll history (World.fresh Tables.empty), row) = (.ok (), w, current) →
      w.store.Named →
      (((Patch.carryOut d.setting asked).run (w, current)).2.1.store.Named ↔
        ¬(((Patch.carryOut d.setting asked).run (w, current)).1 = .ok () ∧
          asked.blanks d.parser type = true)) := by
  refine ⟨fun row hmem => d.requiredName_ne_empty history row hmem, ?_⟩
  exact Directory.kept_unless_put (d.keptByWholes_namesSatisfy fun s => Text.allBlank_eq_false.mp)
    (Patch.tells_named d) (Tables.namesSatisfy_empty _) history

/-- A user is renamed and has a name. Then the name is replaced by blanks, and the user has none. -/
theorem required_names_stay_unless_blanked_of_renamed_user :
    let d : Directory := ⟨.standard, [], Filter.parse⟩
    let request : PatchRequest := .ofOperations [.replace "userName" (.text "bob")]
    let history : List (Instant × Command) :=
      [(.ofSeconds 0, @Command.create .user none (User.named "alice")),
        (.ofSeconds 1, .patch .user (Uuid.numbered 1).toText request)]
    let w := d.serveAll history (World.fresh Tables.empty)
    (∀ entry ∈ history, entry.2.asks (Instruction.blanks d.parser) = false) ∧ w.store.Named ∧
      ∃ row : Row .user, w.store.find? .user (Uuid.numbered 1) = some row ∧
        row.requiredName ≠ "" ∧
        ¬((Patch.carryOut d.setting ⟨.replace, "userName", .text " "⟩).run
          (w, row)).2.1.store.Named := by
  intro d request history w
  have hasks : ∀ entry ∈ history, entry.2.asks (Instruction.blanks d.parser) = false := by
    decide +kernel
  have hblanked : (w.store.find? .user (Uuid.numbered 1)).any (fun row =>
      ((@Patch.carryOut .user Tables _ d.setting ⟨.replace, "userName", .text " "⟩).run
        (w, row)).1.isOk) = true := by
    decide +kernel
  have hsays : Instruction.blanks d.parser .user ⟨.replace, "userName", .text " "⟩ = true := by
    decide +kernel
  obtain ⟨hnonempty, hkept, hiff⟩ := required_names_stay_unless_blanked d history
  have hnamed := hkept hasks
  obtain ⟨row, hfind, hok⟩ := (Option.any_eq_true _ _).mp hblanked
  obtain ⟨_, hcarried⟩ := except_isOk_iff.mp hok
  have hid : Row.id row = Uuid.numbered 1 := Tables.id_of_find? hfind
  refine ⟨hasks, hnamed, row, hfind, hnonempty row (Tables.mem_of_find? hfind), fun hafter => ?_⟩
  exact (hiff row [] w row _ (hid ▸ hfind) rfl hnamed).mp hafter ⟨hcarried, hsays⟩

/-- The name of a user is replaced by blanks, which no user may be created with. -/
theorem required_name_is_blanked_of_patched_user :
    let d : Directory := ⟨.standard, [], Filter.parse⟩
    let request : PatchRequest := .ofOperations [.replace "userName" (.text "   ")]
    let history : List (Instant × Command) :=
      [(.ofSeconds 0, @Command.create .user none (User.named "alice")),
        (.ofSeconds 1, .patch .user (Uuid.numbered 1).toText request)]
    (∃ row : UserRow, row ∈ (d.serveAll history (World.fresh Tables.empty)).store.users ∧
      ∀ c ∈ row.userName.toList, Text.isBlank c = true) ∧
      (User.named "   ").validate = .error (.missingRequired "userName") := by
  intro d request history
  have hblank : (d.serveAll history (World.fresh Tables.empty)).store.users.any
      (fun row => Text.allBlank row.userName) = true := by
    decide +kernel
  obtain ⟨row, hmem, hname⟩ := List.any_eq_true.mp hblank
  exact ⟨⟨row, hmem, List.all_eq_true.mp hname⟩, rfl⟩

end ScimDirectory
