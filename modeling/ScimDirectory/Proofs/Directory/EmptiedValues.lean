import ScimDirectory.Proofs.Directory.ValidItems
import ScimDirectory.Proofs.Directory.WholeWrites

/-!
# Emptied values

A user is refused when an item of one of its collections of plain values has no value, and so is an
item that is added. The update of an item is not: an instruction that sets the value of the items
that a filter picks to `null` or to the empty text leaves them without one. Nothing else does, and
as long as no instruction does, a user that is read back can be sent in a replacement.
-/

namespace ScimDirectory

namespace Patch

/-- The last content that updates write to a column, if they write to it at all. -/
def lastContent? (column : Column) : Updates → Option (Option Scalar)
  | [] => none
  | (field, content) :: updates =>
    (lastContent? column updates).or (if field.column = column then some content else none)

/-- A column of an item holds what updates have written to it last. -/
theorem cell_of_assignItemFields {item new : ItemRow} {updates : Updates}
    (h : assignItemFields item updates = .ok new) (column : Column) :
    new.cell column = (lastContent? column updates).or (item.cell column) := by
  induction updates generalizing item with
  | nil =>
    cases h
    rfl
  | cons update updates ih =>
    rw [assignItemFields] at h
    split at h
    · cases h
    · next hassign =>
      rw [ih h, ItemRow.cell_of_assign (except_mapError_eq_ok.mp hassign), lastContent?,
        Option.or_assoc]
      congr 1
      simp only [eq_comm (a := column)]
      split <;> rfl

/-- Whether a content is no value: nothing, or the empty text. -/
def isNoValue : Option Scalar → Bool
  | none => true
  | some (.text s) => s == ""
  | some (.bool _) => false

/-- Updates leave an item without a value when the last that they write to it is none. -/
theorem hasValue_of_assignItemFields {item new : ItemRow} {updates : Updates}
    (h : assignItemFields item updates = .ok new) :
    new.toValue.hasValue =
      ((lastContent? .value updates).map fun content => !isNoValue content).getD
        item.toValue.hasValue := by
  have hread : ∀ item : ItemRow, item.toValue.hasValue =
      ((item.cell .value).map fun content => !isNoValue content).getD false := by
    intro item
    rcases hvalue : item.value with _ | s
    · simp [ItemRow.toValue, MultiValue.hasValue, ItemRow.cell, textCell, isNoValue, hvalue]
    · simp [ItemRow.toValue, MultiValue.hasValue, ItemRow.cell, textCell, isNoValue, hvalue, bne]
  rw [hread new, cell_of_assignItemFields h, hread item]
  cases lastContent? .value updates <;> rfl

end Patch

/-- Whether an operation on items says that those it picks shall have no value. -/
def Target.empties (target : Target) (value : Json) : Bool :=
  match target with
  | .items (.values c) (some _) sub =>
    match Patch.itemChanges (.values c) sub value with
    | .ok updates => (Patch.lastContent? .value updates).any Patch.isNoValue
    | .error _ => false
  | _ => false

/-- Whether an instruction says that the items it picks shall have no value. -/
def Instruction.empties (parser : Filter.Parser) : ResourceType → Instruction → Bool :=
  Instruction.puts (fun _ => Target.empties) parser

namespace Patch

variable {d : Directory} {type : ResourceType} {row : Row type} {tables after : Tables}
  {kind : OperationKind} {target : Target} {value : Json} {answer : Except DirectoryError Unit}

/-- An effect keeps plain values there unless it empties them. -/
theorem Effect.validIn_values {c : Collection}
    (h : Effect d row tables kind target value answer after)
    (hempties : kind ≠ .remove → target.empties value = false)
    (hvalid : tables.ValidIn (.values c)) : after.ValidIn (.values c) := by
  refine h.validIn hvalid ?_
  intro filter sub updates changed hkind htarget hupdates hchanged item hmem hitem
  have hlast := hempties hkind
  rw [htarget, Target.empties, hupdates] at hlast
  dsimp only at hlast
  have hvalue := hasValue_of_assignItemFields (assignItemFields_updated hchanged hmem).1
  show (updated updates item).toValue.hasValue = true
  rw [hvalue]
  cases hcontent : lastContent? .value updates with
  | none => exact hitem
  | some content =>
    rw [hcontent] at hlast
    simpa using hlast

/-- An effect that empties picked items leaves one of them without a value. -/
theorem Effect.not_validIn_of_empties (h : Effect d row tables kind target value (.ok ()) after)
    (hkind : kind ≠ .remove) (hempties : target.empties value = true) :
    ∃ c, ¬after.ValidIn (.values c) := by
  cases h with
  | @revised _ relation filter sub _ updates changed _ hupdates hpicked hchanged =>
    cases relation with
    | values c =>
      rw [Target.empties, hupdates] at hempties
      dsimp only at hempties
      obtain ⟨content, hlast, hnone⟩ := (Option.any_eq_true _ _).mp hempties
      obtain ⟨item, hitem⟩ := List.exists_mem_of_ne_nil _ hpicked
      refine ⟨c, fun hvalid => ?_⟩
      obtain ⟨howned, htest⟩ := List.mem_filter.mp hitem
      obtain ⟨hstored, howner⟩ := Tables.mem_ownedItems.mp howned
      have hupdated := hasValue_of_assignItemFields (assignItemFields_updated hchanged hitem).1
      have hrevised : Patch.revised row.id filter.picks updates item = updated updates item :=
        if_pos ⟨howner, htest⟩
      have hthere : (updated updates item).IsValid (.values c) :=
        hvalid _ (List.mem_map.mpr ⟨_, hstored, by simp only [if_true, hrevised]⟩)
      have hnovalue : (updated updates item).toValue.hasValue = false := by
        rw [hupdated, hlast]
        simp [hnone]
      rw [ItemRow.IsValid, hnovalue] at hthere
      cases hthere
    | addresses => cases hempties
    | members => cases hempties
  | field => cases hempties
  | complex => cases hempties
  | added => simp [Target.empties] at hempties
  | reset => simp [Target.empties] at hempties
  | removed => exact absurd rfl hkind

end Patch

/-- Every stored plain value of a user has a value that is not empty. -/
def Tables.Valued (tables : Tables) : Prop :=
  ∀ c item, (Relation.values c, item) ∈ tables.items → ∃ v, item.value = some v ∧ v ≠ ""

/-- Plain values are there when they pass their check. -/
theorem Tables.valued_iff {tables : Tables} :
    tables.Valued ↔ ∀ c, tables.ValidIn (.values c) := by
  refine forall_congr' fun c => forall₂_congr fun item _ => ?_
  rw [ItemRow.IsValid, ItemRow.toValue, MultiValue.hasValue, Option.any_eq_true]
  exact exists_congr fun v => and_congr Iff.rfl (by rw [bne_iff_ne])

/-- Whether an effect empties plain values is told by what it puts where. -/
theorem Patch.tells_valued (d : Directory) : Tells d (fun _ => Target.empties) Tables.Valued where
  keeps heffect _ hempties hvalued :=
    Tables.valued_iff.mpr fun c => heffect.validIn_values hempties (Tables.valued_iff.mp hvalued c)
  breaks heffect hkind hempties hvalued := by
    obtain ⟨c, hbroken⟩ := heffect.not_validIn_of_empties hkind hempties
    exact hbroken (Tables.valued_iff.mp hvalued c)

/-- Writes of whole resources leave plain values there. -/
theorem Directory.keptByWholes_valued (d : Directory) : d.KeptByWholes Tables.Valued :=
  fun _ _ _ hwrite hsound hvalued => Tables.valued_iff.mpr fun c =>
    d.keptByWholes_validIn (.values c) hwrite hsound (Tables.valued_iff.mp hvalued c)

namespace Directory

variable {d : Directory}

/-- What follows a write finds no violation. -/
theorem answered_ne_violation {type : ResourceType} (record : Record type) (w : World Tables)
    (violation : Violation) : (d.answered record w).1 ≠ .error (.violation violation) := by
  obtain ⟨shown, hshown⟩ := d.exists_shown w.store record
  rw [answered, hshown]
  dsimp only
  rw [hooked_eq]
  cases hfailure : Hook.firstFailure? shown d.config.hooks with
  | some error =>
    obtain ⟨detail, rfl⟩ := Hook.hook_of_firstFailure? hfailure
    nofun
  | none => nofun

/-- A violation that a replacement reports is one of the resource that it was given. -/
theorem validate_of_replace_violation {type : ResourceType} {now : Instant} {id : String}
    {resource : Resource type} {ifMatch : Option String} {w : World Tables} {violation : Violation}
    (h : ((d.replace now id resource ifMatch).run w).1 = .error (.violation violation)) :
    validate resource = .error violation := by
  rw [replace_run] at h
  cases hid : idOf type id with
  | error error =>
    rw [hid] at h
    cases error_of_idOf hid
    cases h
  | ok uuid =>
    rw [hid] at h
    dsimp only at h
    cases hvalid : validate resource with
    | error found =>
      rw [hvalid] at h
      cases h
      rfl
    | ok _ =>
      rw [hvalid] at h
      dsimp only at h
      split at h
      · cases h
      · split at h
        · next hcheck =>
          obtain ⟨_, rfl⟩ | ⟨_, rfl⟩ := error_of_checkPrecondition hcheck
          · cases h
          · cases h
        · split at h
          · cases h
          · exact absurd h (answered_ne_violation _ _ violation)

/-- A user that is shown has values where the stored items have them. -/
theorem hasValue_of_get {id : String} {user : User} {w : World Tables} (hvalued : w.store.Valued)
    (h : ((d.get .user id).run w).1 = .ok user) :
    ∀ c, ∀ item ∈ user.values c, item.hasValue = true := by
  rw [get_run] at h
  split at h
  · cases h
  · split at h
    · cases h
    · next record hget =>
      obtain ⟨groups, -, rfl⟩ := except_map_eq_ok.mp h
      obtain ⟨-, hrecord⟩ := Tables.get?_eq_some hget
      intro c
      refine List.forall_mem_map.mpr fun item hmem => ?_
      rw [← hrecord, Tables.record, items_childrenOf] at hmem
      split at hmem
      · exact Tables.valued_iff.mp hvalued c item (Tables.mem_ownedItems.mp hmem).1
      · cases hmem

end Directory

/-- Plain values stay there as long as no instruction of a patch empties them, and then a user that
is read back can be sent in a replacement without being refused for a missing value. An
instruction that succeeds breaks this exactly when it empties the values that it picks: at every
point of every patch that is asked of a directory that can be reached, values are there after it
unless it has succeeded and has said so. -/
theorem stored_values_stay_unless_emptied (d : Directory) (history : List (Instant × Command)) :
    ((∀ entry ∈ history, entry.2.asks (Instruction.empties d.parser) = false) →
      (d.serveAll history (World.fresh Tables.empty)).store.Valued ∧
      ∀ (id : String) (user : User),
        ((d.get .user id).run (d.serveAll history (World.fresh Tables.empty))).1 = .ok user →
        ∀ (now : Instant) (key : String) (ifMatch : Option String) (attr sub : String),
          ((@Directory.replace Tables _ .user d now key user ifMatch).run
            (d.serveAll history (World.fresh Tables.empty))).1 ≠
              .error (.violation (.missingRequiredSub attr sub))) ∧
    ∀ {type : ResourceType} (row : Row type) (earlier : List Operation) (w : World Tables)
      (current : Row type) (asked : Instruction),
      (d.serveAll history (World.fresh Tables.empty)).store.find? type row.id = some row →
      (Patch.applyAll d.setting earlier).run
        (d.serveAll history (World.fresh Tables.empty), row) = (.ok (), w, current) →
      w.store.Valued →
      (((Patch.carryOut d.setting asked).run (w, current)).2.1.store.Valued ↔
        ¬(((Patch.carryOut d.setting asked).run (w, current)).1 = .ok () ∧
          asked.empties d.parser type = true)) := by
  obtain ⟨hkept, hiff⟩ := Directory.kept_unless_put d.keptByWholes_valued (Patch.tells_valued d)
    (fun _ _ hmem => absurd hmem List.not_mem_nil) history
  refine ⟨fun hasks => ⟨hkept hasks, fun id user hget now key ifMatch attr sub hrefused => ?_⟩, hiff⟩
  exact User.validate_ne_missingSub (Directory.hasValue_of_get (hkept hasks) hget) attr sub
    (Directory.validate_of_replace_violation hrefused)

/-- The address of a user is changed: values stay there and the user can be sent back. Then it is
set to `null`, and the user has none. -/
theorem stored_values_stay_unless_emptied_of_mail :
    let d : Directory := ⟨.standard, [], Filter.parse⟩
    let mail : MultiValue := { MultiValue.ofValue "a@example.org" with type := some "work" }
    let user : User := { User.named "alice" with
      values := fun c => if c = .emails then [mail] else [] }
    let path := "emails[type eq \"work\"].value"
    let request : PatchRequest := .ofOperations [.replace path (.text "b@example.org")]
    let history : List (Instant × Command) :=
      [(.ofSeconds 0, @Command.create .user none user),
        (.ofSeconds 1, .patch .user (Uuid.numbered 1).toText request)]
    let w := d.serveAll history (World.fresh Tables.empty)
    (∀ entry ∈ history, entry.2.asks (Instruction.empties d.parser) = false) ∧ w.store.Valued ∧
    (∃ user, ((d.get .user (Uuid.numbered 1).toText).run w).1 = .ok user ∧
      ((@Directory.replace Tables _ .user d (.ofSeconds 2) (Uuid.numbered 1).toText user none).run
        w).1 ≠ .error (.violation (.missingRequiredSub "emails" "value"))) ∧
    ∃ row : Row .user, w.store.find? .user (Uuid.numbered 1) = some row ∧
      ¬((Patch.carryOut d.setting ⟨.replace, path, .null⟩).run (w, row)).2.1.store.Valued := by
  intro d mail user path request history w
  have hw : d.serveAll history (World.fresh Tables.empty) = w := rfl
  have hasks : ∀ entry ∈ history, entry.2.asks (Instruction.empties d.parser) = false := by
    decide +kernel
  have hshown : ((d.get .user (Uuid.numbered 1).toText).run w).1.isOk = true := by
    rw [← hw]
    decide +kernel
  have hemptied : (w.store.find? .user (Uuid.numbered 1)).any (fun row =>
      ((@Patch.carryOut .user Tables _ d.setting ⟨.replace, path, .null⟩).run (w, row)).1.isOk) =
      true := by
    rw [← hw]
    decide +kernel
  have hsays : (⟨.replace, path, .null⟩ : Instruction).empties d.parser .user = true := by
    decide +kernel
  obtain ⟨hkept, hiff⟩ := stored_values_stay_unless_emptied d history
  obtain ⟨hvalued, hback⟩ := hkept hasks
  obtain ⟨shown, hget⟩ := except_isOk_iff.mp hshown
  obtain ⟨row, hfind, hok⟩ := (Option.any_eq_true _ _).mp hemptied
  obtain ⟨_, hcarried⟩ := except_isOk_iff.mp hok
  refine ⟨hasks, hvalued, ⟨shown, hget, hback _ shown hget _ _ _ _ _⟩, row, hfind, fun hafter => ?_⟩
  have hid : Row.id row = Uuid.numbered 1 := Tables.id_of_find? hfind
  exact (hiff row [] w row ⟨.replace, path, .null⟩ (hid ▸ hfind) rfl hvalued).mp hafter
    ⟨hcarried, hsays⟩

/-- An address is set to `null`: its item is stored without a value, and the user that is read back
is refused when it is sent in a replacement. -/
theorem stored_value_is_emptied_of_null_mail :
    let d : Directory := ⟨.standard, [], Filter.parse⟩
    let mail : MultiValue := { MultiValue.ofValue "a@example.org" with type := some "work" }
    let user : User := { User.named "alice" with
      values := fun c => if c = .emails then [mail] else [] }
    let request : PatchRequest :=
      .ofOperations [.replace "emails[type eq \"work\"].value" .null]
    let history : List (Instant × Command) :=
      [(.ofSeconds 0, @Command.create .user none user),
        (.ofSeconds 1, .patch .user (Uuid.numbered 1).toText request)]
    let w := d.serveAll history (World.fresh Tables.empty)
    ¬w.store.Valued ∧ ∃ user, ((d.get .user (Uuid.numbered 1).toText).run w).1 = .ok user ∧
      ((@Directory.replace Tables _ .user d (.ofSeconds 2) (Uuid.numbered 1).toText user none).run
        w).1 = .error (.violation (.missingRequiredSub "emails" "value")) := by
  intro d mail user request history w
  have hw : d.serveAll history (World.fresh Tables.empty) = w := rfl
  have hnone : w.store.items.any (fun stored =>
      stored.1 = .values .emails && stored.2.value = none) = true := by
    rw [← hw]
    decide +kernel
  have hrefused : (((d.get .user (Uuid.numbered 1).toText).run w).1.toOption.any fun user =>
      ((@Directory.replace Tables _ .user d (.ofSeconds 2) (Uuid.numbered 1).toText user none).run
        w).1.map (fun _ => ()) = .error (.violation (.missingRequiredSub "emails" "value"))) =
      true := by
    rw [← hw]
    decide +kernel
  constructor
  · intro hvalued
    obtain ⟨⟨relation, item⟩, hmem, htest⟩ := List.any_eq_true.mp hnone
    obtain ⟨hrelation, hvalue⟩ := Bool.and_eq_true_iff.mp htest
    obtain rfl := of_decide_eq_true hrelation
    obtain ⟨v, hv, -⟩ := hvalued .emails item hmem
    cases hv.symm.trans (of_decide_eq_true hvalue)
  · obtain ⟨shown, hget, hreplace⟩ := (Option.any_eq_true _ _).mp hrefused
    refine ⟨shown, except_toOption_eq_some.mp hget, ?_⟩
    have herror := of_decide_eq_true hreplace
    generalize ((@Directory.replace Tables _ .user d (.ofSeconds 2) (Uuid.numbered 1).toText shown
      none).run w).1 = answer at herror ⊢
    cases answer with
    | error error => exact congrArg _ (Except.error.inj herror)
    | ok _ => cases herror

end ScimDirectory
