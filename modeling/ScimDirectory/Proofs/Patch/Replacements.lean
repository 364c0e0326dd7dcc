import ScimDirectory.Proofs.Attributes
import ScimDirectory.Proofs.Directory.Commands
import ScimDirectory.Proofs.Patch.Alike
import ScimDirectory.Proofs.Patch.Effects

/-!
# Replacing a collection

A collection can be replaced in one operation, or it can be removed and then added to. Both delete
the items that are there and link items that the value is decoded to. But an addition leaves out an
item that counts as the same as one before it, and a replacement links it as well. So the two ways
come to the same for values in which no two items count as the same, and for those only.
-/

namespace ScimDirectory

/-- Whether the next draw of keys is one of new keys. -/
def World.DrawsNewKeys (w : World Tables) : Prop :=
  ∀ relation, ∀ item ∈ w.store.itemsOf relation, ∀ place, item.id ≠ .drawn w.draws place

/-- It is when all keys have been drawn before. -/
theorem World.drawsNewKeys_of_sound {w : World Tables} (h : w.store.Sound w.draws) :
    w.DrawsNewKeys := by
  intro relation item hmem place heq
  obtain ⟨draw, _, hid, hdraw⟩ := h.drawn relation item hmem
  rw [hid] at heq
  exact Nat.ne_of_lt hdraw (ItemId.drawn.inj heq).1

/-- The world in which keys have been drawn and items have taken the place of an owner's. -/
def World.resetItems (w : World Tables) (relation : Relation) (owner : Uuid)
    (items : List ItemRow) : World Tables :=
  { w with
    draws := w.draws + 1
    store := (w.store.without relation (·.owner = owner)).append relation items }

namespace Patch

variable {type : ResourceType} {w : World Tables} {relation : Relation} {owner : Uuid}
  {root : ServiceRoot} {value : Json}

/-- The owner has the items that have taken the place of the old. -/
theorem ownedItems_resetItems {rows : List ItemRow} (h : ∀ row ∈ rows, row.owner = owner) :
    (w.resetItems relation owner rows).store.ownedItems owner relation = rows := by
  rw [World.resetItems, Tables.ownedItems_append_self h, Tables.ownedItems_without_owner,
    List.nil_append]

/-- Items of a value are linked once the items of their owner have left. -/
theorem insertItems_reset (hnew : w.DrawsNewKeys)
    (howner : w.store.has relation.owner owner = true) {rows some : List ItemRow}
    (hrows : items root relation w.draws owner value = .ok rows) (hsub : some.Sublist rows) :
    (insertItems relation some).run
      { w with draws := w.draws + 1, store := w.store.without relation (·.owner = owner) } =
      (.ok (), w.resetItems relation owner some) := by
  obtain ⟨hfresh, howners⟩ := keys_of_items hrows
  refine insertItems_run (fun item hmem => ?_) (hfresh.sublist hsub).nodup
    fun item hmem other hother hid => ?_
  · rw [howners item (hsub.subset hmem)]
    exact (Tables.has_mk_items ..).trans howner
  · have hkept := (Tables.itemsOf_without_sublist w.store relation _ relation).subset hother
    obtain ⟨place, hdrawn⟩ := hfresh.drawn item (hsub.subset hmem)
    exact hnew relation other hkept place (hid.trans hdrawn)

/-- Nothing but a collection of the resource at hand has changed. -/
structure ChangesOnly (relation : Relation) (before after : World Tables × Row type) : Prop where
  /-- The row at hand is as it was. -/
  atHand : after.2 = before.2
  /-- The stored rows are as they were. -/
  rows : ∀ type, after.1.store.rows type = before.1.store.rows type
  /-- Other owners and other relations keep their items. -/
  others : ∀ owner r, ¬(owner = before.2.id ∧ r = relation) →
    after.1.store.ownedItems owner r = before.1.store.ownedItems owner r

theorem changesOnly_resetItems {row : Row type} {rows : List ItemRow}
    (h : ∀ item ∈ rows, item.owner = row.id) :
    ChangesOnly relation (w, row) (w.resetItems relation row.id rows, row) where
  atHand := rfl
  rows _ := (Tables.rows_append ..).trans (Tables.rows_without ..)
  others owner r hne := by
    refine (Tables.ownedItems_append_of_ne h hne).trans ?_
    exact Tables.ownedItems_without_of_ne (fun item htest => of_decide_eq_true htest) hne

/-- What a step comes to that puts planned items in the place of those of a collection. -/
structure Resets (w : World Tables) (row : Row type) (relation : Relation)
    (plan : Except DirectoryError (List ItemRow))
    (result : Except DirectoryError Unit × World Tables × Row type) : Prop where
  /-- It succeeds when there is a plan. -/
  answer : result.1 = plan.map fun _ => ()
  /-- The planned items belong to the resource at hand. -/
  owned : ∀ rows, plan = .ok rows → ∀ item ∈ rows, item.owner = row.id
  /-- With a plan it leaves the planned items, and the row at hand. -/
  reset : ∀ rows, plan = .ok rows → result.2 = (w.resetItems relation row.id rows, row)

namespace Resets

theorem failed {row : Row type} (error : DirectoryError) (after : World Tables × Row type) :
    Resets w row relation (.error error) (.error error, after) where
  answer := rfl
  owned := by rintro _ ⟨⟩
  reset := by rintro _ ⟨⟩

theorem planned {row : Row type} {rows : List ItemRow} (h : ∀ item ∈ rows, item.owner = row.id) :
    Resets w row relation (.ok rows) (.ok (), w.resetItems relation row.id rows, row) where
  answer := rfl
  owned := by
    rintro _ ⟨⟩
    exact h
  reset := by
    rintro _ ⟨⟩
    rfl

variable {row : Row type} {plan : Except DirectoryError (List ItemRow)}
  {result : Except DirectoryError Unit × World Tables × Row type}
  (h : Resets w row relation plan result)

include h

theorem ok_iff : result.1 = .ok () ↔ ∃ rows, plan = .ok rows := by
  rw [h.answer, except_map_eq_ok]
  exact ⟨fun ⟨rows, hplan, _⟩ => ⟨rows, hplan⟩, fun ⟨rows, hplan⟩ => ⟨rows, hplan, rfl⟩⟩

theorem ownedItems {rows : List ItemRow} (hplan : plan = .ok rows) :
    result.2.1.store.ownedItems row.id relation = rows := by
  rw [h.reset rows hplan]
  exact ownedItems_resetItems (h.owned rows hplan)

theorem changesOnly (hok : result.1 = .ok ()) : ChangesOnly relation (w, row) result.2 := by
  obtain ⟨rows, hplan⟩ := h.ok_iff.mp hok
  rw [h.reset rows hplan]
  exact changesOnly_resetItems (h.owned rows hplan)

end Resets

section

variable {row : Row type} (hnew : w.DrawsNewKeys)
  (howner : w.store.has relation.owner row.id = true) (hvalue : value.isNull = false)

include hnew howner hvalue

/-- A replacement puts all items of its value in the place of those that are there. -/
theorem replace_resets {setting : Setting} {path : String}
    (htarget : Target.ofPath setting.parser type path = .ok (.items relation none none)) :
    Resets w row relation (replacements setting.root row.id relation w.draws value)
      ((apply setting (.replace path value)).run (w, row)) := by
  have hreplace : (apply setting (.replace path value) : Step Tables type Unit) =
      (owner >>= fun id => Step.lift (replaceItems setting.root id relation value)) :=
    apply_of_target rfl htarget
  rw [hreplace, owner_lift_run, replaceItems_planned]
  cases hplan : replacements setting.root row.id relation w.draws value with
  | error e => exact .failed e _
  | ok rows =>
    have hrows := (replacements_eq_ok hplan).1
    rw [standIns, hvalue] at hrows
    dsimp only
    rw [insertItems_reset hnew howner hrows (List.Sublist.refl rows)]
    exact .planned (keys_of_items hrows).2

/-- A removal and an addition put those items of the value in the place of the ones that are there
that are not the same as one before them. -/
theorem rebuild_resets {setting : Setting} {path : String}
    (htarget : Target.ofPath setting.parser type path = .ok (.items relation none none)) :
    Resets w row relation (additions setting.root row.id relation w.draws value [])
      ((applyAll setting [.remove path, .add path value]).run (w, row)) := by
  have hremoved : (apply setting (.remove path)).run (w, row) = (.ok (),
      { w with store := w.store.without relation (·.owner = row.id) }, row) := by
    rw [apply_of_target rfl htarget]
    exact deleteAllItems_run relation w row
  have hadd : (apply setting (.add path value) : Step Tables type Unit) =
      (owner >>= fun id => Step.lift (addItems setting.root id relation value)) := by
    rw [apply_of_target rfl htarget]
    simp only [applyOf, Operation.add, addTo, hvalue]
    rfl
  have hlast (s : World Tables × Row type) :
      (applyAll setting [.add path value]).run s = (apply setting (.add path value)).run s := by
    rw [applyAll, applyAll]
    exact congrArg (fun step : Step Tables type Unit => step.run s) bind_pure_unit
  rw [applyAll, run_bind_of_ok hremoved, hlast, hadd, owner_lift_run, addItems_planned]
  dsimp only
  rw [Tables.ownedItems_without_owner]
  cases hplan : additions setting.root row.id relation w.draws value [] with
  | error e => exact .failed e _
  | ok fresh =>
    obtain ⟨rows, hrows, hfresh, -⟩ := additions_eq_ok hplan
    have hsub : fresh.Sublist rows := hfresh ▸ newItems_sublist relation [] rows
    dsimp only
    rw [insertItems_reset hnew howner hrows hsub]
    exact .planned (keys_of_additions hplan).2

end

/-- What a replacement plans is what a rebuilding plans, exactly when no two items of the value
count as the same or the rebuilding has no plan. -/
theorem plans_agree_iff {draw : Nat} (hvalue : value.isNull = false) :
    (((∃ rows, replacements root owner relation draw value = .ok rows) ↔
        ∃ fresh, additions root owner relation draw value [] = .ok fresh) ∧
      ∀ rows fresh, replacements root owner relation draw value = .ok rows →
        additions root owner relation draw value [] = .ok fresh →
          rows.map ItemRow.cell = fresh.map ItemRow.cell) ↔
    ((∃ fresh, additions root owner relation draw value [] = .ok fresh) →
      ∀ rows, items root relation draw owner value = .ok rows → AllDiffer relation rows) := by
  have hstand : standIns root owner relation draw value = items root relation draw owner value := by
    rw [standIns, hvalue]
    rfl
  constructor
  · rintro ⟨hanswers, hsame⟩ ⟨fresh, hfresh⟩ rows hrows
    obtain ⟨_, hreplaced⟩ := hanswers.mpr ⟨fresh, hfresh⟩
    have hcells := hsame _ _ hreplaced hfresh
    obtain ⟨_, hdecoded, rfl, -⟩ := additions_eq_ok hfresh
    cases hrows.symm.trans (hstand.symm.trans (replacements_eq_ok hreplaced).1)
    cases hrows.symm.trans hdecoded
    have hlength := congrArg List.length hcells
    rw [List.length_map, List.length_map] at hlength
    exact newItems_nil_iff.mp ((newItems_sublist relation [] rows).eq_of_length hlength.symm)
  · intro hdiffer
    -- A value that is rebuilt is one whose items are all new, and a value that is replaced is one
    -- that can be rebuilt, for fewer items have no more preferred ones.
    have hreplaced : ∀ rows, replacements root owner relation draw value = .ok rows →
        additions root owner relation draw value [] = .ok (newItems relation [] rows) := by
      intro rows hplan
      obtain ⟨hrows, hprimary⟩ := replacements_eq_ok hplan
      refine additions_eq (hstand ▸ hrows) (checkPrimary_eq_ok.mpr ?_)
      exact (checkPrimary_eq_ok.mp hprimary).sublist (newItems_sublist relation [] rows)
    have hrebuilt : ∀ fresh, additions root owner relation draw value [] = .ok fresh →
        replacements root owner relation draw value = .ok fresh := by
      intro fresh hplan
      obtain ⟨rows, hrows, rfl, hprimary⟩ := additions_eq_ok hplan
      have hall := newItems_nil_iff.mpr (hdiffer ⟨_, hplan⟩ rows hrows)
      rw [hall] at hprimary ⊢
      exact replacements_eq (hstand.trans hrows) hprimary
    refine ⟨⟨fun ⟨rows, hplan⟩ => ⟨_, hreplaced rows hplan⟩,
      fun ⟨fresh, hplan⟩ => ⟨_, hrebuilt fresh hplan⟩⟩, fun rows fresh hplan hfresh => ?_⟩
    cases hplan.symm.trans (hrebuilt fresh hfresh)
    rfl

end Patch

/-- Let a collection of a stored resource be replaced by a value, and let it be removed instead and
the value added then. One of these succeeds exactly when the other one does, and leaves the same
items in the same order when it does, if and only if no two items of the value count as the same or
the second one fails anyway. Each of them changes nothing else when it succeeds. -/
theorem replacing_is_removing_and_adding_iff (setting : Patch.Setting) {type : ResourceType}
    (w : World Tables) (row : Row type) (path : String) (value : Json) (relation : Relation)
    (hnew : w.DrawsNewKeys) (hfind : w.store.find? type row.id = some row)
    (htarget : Target.ofPath setting.parser type path = .ok (.items relation none none))
    (hvalue : value.isNull = false) :
    let replaced := (Patch.apply setting (.replace path value)).run (w, row)
    let rebuilt := (Patch.applyAll setting [.remove path, .add path value]).run (w, row)
    let contents (w' : World Tables) := (w'.store.ownedItems row.id relation).map ItemRow.cell
    (((replaced.1 = .ok () ↔ rebuilt.1 = .ok ()) ∧
        (replaced.1 = .ok () → contents replaced.2.1 = contents rebuilt.2.1)) ↔
      (rebuilt.1 = .ok () → ∀ rows,
        Patch.items setting.root relation w.draws row.id value = .ok rows →
          Patch.AllDiffer relation rows)) ∧
    (replaced.1 = .ok () → Patch.ChangesOnly relation (w, row) replaced.2) ∧
    (rebuilt.1 = .ok () → Patch.ChangesOnly relation (w, row) rebuilt.2) := by
  intro replaced rebuilt contents
  have howner : w.store.has relation.owner row.id = true :=
    Patch.has_of_find? hfind (Target.fits_of_ofPath htarget)
  have hreplaced : Patch.Resets w row relation
      (Patch.replacements setting.root row.id relation w.draws value) replaced :=
    Patch.replace_resets hnew howner hvalue htarget
  have hrebuilt : Patch.Resets w row relation
      (Patch.additions setting.root row.id relation w.draws value []) rebuilt :=
    Patch.rebuild_resets hnew howner hvalue htarget
  refine ⟨?_, hreplaced.changesOnly, hrebuilt.changesOnly⟩
  rw [hreplaced.ok_iff, hrebuilt.ok_iff, ← Patch.plans_agree_iff hvalue]
  refine and_congr_right fun hanswers => ⟨fun hsame rows fresh hrows hfresh => ?_, ?_⟩
  · have hcells := hsame ⟨rows, hrows⟩
    simp only [contents, hreplaced.ownedItems hrows, hrebuilt.ownedItems hfresh] at hcells
    exact hcells
  · rintro hsame ⟨rows, hrows⟩
    obtain ⟨fresh, hfresh⟩ := hanswers.mp ⟨rows, hrows⟩
    simp only [contents, hreplaced.ownedItems hrows, hrebuilt.ownedItems hfresh]
    exact hsame rows fresh hrows hfresh

/-- The mail address of a user is replaced by two others: they are what a removal and an addition
would have left. -/
theorem replacing_is_removing_and_adding_iff_of_two_mails :
    let d : Directory := ⟨.standard, [], Filter.parse⟩
    let user : User := { User.named "alice" with
      values := fun c => if c = .emails then [.ofValue "a@example.org"] else [] }
    let w := d.serveAll [(.ofSeconds 0, @Command.create .user none user)]
      (World.fresh Tables.empty)
    let mail (value : String) : Json := .object [("value", .text value)]
    let value : Json := .array [mail "b@example.org", mail "c@example.org"]
    ∃ row : Row .user, w.store.find? .user (.numbered 1) = some row ∧
      let replaced := (Patch.apply d.setting (.replace "emails" value)).run (w, row)
      let rebuilt := (Patch.applyAll d.setting [.remove "emails", .add "emails" value]).run (w, row)
      replaced.1 = .ok () ∧ rebuilt.1 = .ok () ∧
        (replaced.2.1.store.ownedItems row.id (.values .emails)).map ItemRow.cell =
          (rebuilt.2.1.store.ownedItems row.id (.values .emails)).map ItemRow.cell := by
  intro d user w mail value
  have hw : d.serveAll [(.ofSeconds 0, @Command.create .user none user)]
    (World.fresh Tables.empty) = w := rfl
  have hthere : (w.store.find? .user (.numbered 1)).any (fun row =>
      ((Patch.apply d.setting (.replace "emails" value)).run (w, row)).1.isOk &&
        (Patch.items d.setting.root (.values .emails) w.draws row.id value).toOption.all
          fun rows => decide ((rows.map (Patch.likeness (.values .emails))).Nodup)) = true := by
    rw [← hw]
    decide +kernel
  obtain ⟨row, hfind, hboth⟩ := (Option.any_eq_true _ _).mp hthere
  obtain ⟨hok, hdiffer⟩ := Bool.and_eq_true_iff.mp hboth
  obtain ⟨_, hreplaced⟩ := except_isOk_iff.mp hok
  have hid : Row.id row = .numbered 1 := Tables.id_of_find? hfind
  have hsound : w.store.Sound w.draws := Directory.serveAll_sound (Tables.sound_empty 0) _
  have htarget := Attribute.ofPath_key (Filter.readsNames_parse .user)
    (show Attribute.listed (.values .emails) ∈ Attribute.ofType .user by decide)
  obtain ⟨hanswers, hsame⟩ := (replacing_is_removing_and_adding_iff d.setting w row "emails" value
    (.values .emails) (World.drawsNewKeys_of_sound hsound) (hid ▸ hfind) htarget rfl).1.mpr
    fun _ rows hrows => by
      rw [hrows] at hdiffer
      exact Patch.allDiffer_iff.mpr (of_decide_eq_true hdiffer)
  exact ⟨row, hfind, hreplaced, hanswers.mp hreplaced, hsame hreplaced⟩

/-- The mail addresses of a user are replaced by one address that is given twice. It is stored
twice, and a removal and an addition would have left it once. -/
theorem replacing_keeps_repeated_mail :
    let d : Directory := ⟨.standard, [], Filter.parse⟩
    let w := d.serveAll [(.ofSeconds 0, @Command.create .user none (User.named "alice"))]
      (World.fresh Tables.empty)
    let mail : Json := .object [("value", .text "a@example.org")]
    let value : Json := .array [mail, mail]
    let mails (w' : World Tables) : List (Option String) :=
      (w'.store.ownedItems (.numbered 1) (.values .emails)).map ItemRow.value
    ∃ row : Row .user, w.store.find? .user (.numbered 1) = some row ∧
      let replaced := (Patch.apply d.setting (.replace "emails" value)).run (w, row)
      let rebuilt := (Patch.applyAll d.setting [.remove "emails", .add "emails" value]).run (w, row)
      (replaced.1.isOk = true ∧ mails replaced.2.1 = [some "a@example.org", some "a@example.org"]) ∧
        rebuilt.1.isOk = true ∧ mails rebuilt.2.1 = [some "a@example.org"] := by
  intro d w mail value mails
  have hboth : (w.store.find? .user (.numbered 1)).any (fun row =>
      let replaced := (Patch.apply d.setting (.replace "emails" value)).run (w, row)
      let rebuilt := (Patch.applyAll d.setting [.remove "emails", .add "emails" value]).run (w, row)
      decide ((replaced.1.isOk = true ∧
        mails replaced.2.1 = [some "a@example.org", some "a@example.org"]) ∧
          rebuilt.1.isOk = true ∧ mails rebuilt.2.1 = [some "a@example.org"])) = true := by
    decide +kernel
  obtain ⟨row, hfind, hmails⟩ := (Option.any_eq_true _ _).mp hboth
  exact ⟨row, hfind, of_decide_eq_true hmails⟩

end ScimDirectory
