import ScimDirectory.Proofs.Attributes
import ScimDirectory.Proofs.Directory.Batches
import ScimDirectory.Proofs.Directory.RequiredNames
import ScimDirectory.Proofs.Patch.Alike
import ScimDirectory.Proofs.Store.History

/-!
# Additions that are repeated

An addition to a column, to a complex attribute or to a whole collection that succeeds changes
nothing when it is done again. Columns have the contents already that it writes to them, and each
item that it brings counts as the same as one that is there, which the first addition has found or
linked.
-/

namespace ScimDirectory

namespace Row

variable {type : ResourceType}

/-- Whether a column takes a content does not depend on the row. -/
theorem exists_assign_of_assign {a a' : Row type} {column : Column} {content : Option Scalar}
    (h : a.assign column content = .ok a') (b : Row type) :
    ∃ b' : Row type, b.assign column content = .ok b' := by
  cases type <;> cases column <;>
    simp only [assign_eq, taking, UserRow.taking, UserRow.textSlot?, GroupRow.taking,
      reduceCtorEq] at h ⊢ <;>
    (obtain ⟨x, hx, -⟩ := except_map_eq_ok.mp h
     rw [hx]
     exact ⟨_, rfl⟩)

/-- A column holds what is written to it, and the other columns stay. -/
theorem cell_of_assign {row new : Row type} {column : Column} {content : Option Scalar}
    (h : row.assign column content = .ok new) (other : Column) :
    new.cell other = if other = column then some content else row.cell other := by
  have htext : ∀ {table : String} {column : Column} {x : Option String},
      textOf table column content = .ok x → textCell x = some content := by
    intro table column x hx
    rcases content with _ | _ | _ <;> cases hx <;> rfl
  have hbool : ∀ {table : String} {column : Column} {x : Option Bool},
      boolOf table column content = .ok x → boolCell x = some content := by
    intro table column x hx
    rcases content with _ | _ | _ <;> cases hx <;> rfl
  have hname : ∀ {table : String} {column : Column} {s : String},
      requiredText table column content = .ok s → textCell (some s) = some content := by
    intro table column s hs
    rw [(text_of_requiredText hs).1]
    rfl
  -- Each column holds its content through one of the three, or the table lacks it.
  cases type <;> cases column <;>
    simp only [assign_eq, taking, UserRow.taking, UserRow.textSlot?, GroupRow.taking] at h <;>
    first
    | cases h
    | obtain ⟨x, hx, rfl⟩ := except_map_eq_ok.mp h
      first
      | have hcell := htext hx
        cases other <;> first | exact hcell | rfl
      | have hcell := hbool hx
        cases other <;> first | exact hcell | rfl
      | have hcell := hname hx
        cases other <;> first | exact hcell | rfl

/-- A row is what is in its columns and what the server keeps of it. -/
theorem eq_of_cells {a b : Row type} (hcell : a.cell = b.cell) (hsame : SameSystem a b) :
    a = b := by
  cases type with
  | user =>
    obtain ⟨profile, _, _, _, _, _, _⟩ := a
    obtain ⟨profile', _, _, _, _, _, _⟩ := b
    obtain rfl : profile = profile' := UserRow.toProfile_congr hcell
    exact UserRow.mk.injEq .. ▸ ⟨rfl, hsame.id, UserRow.userName_congr hcell,
      UserRow.name_congr hcell, hsame.etag, hsame.created, hsame.lastModified⟩
  | group =>
    obtain ⟨_, _, _, _, _, _⟩ := a
    obtain ⟨_, _, _, _, _, _⟩ := b
    exact GroupRow.mk.injEq .. ▸ ⟨hsame.id,
      Option.some.inj (textCell_inj (congrFun hcell .displayName)),
      textCell_inj (congrFun hcell .externalId), hsame.etag, hsame.created, hsame.lastModified⟩

end Row

namespace Tables

variable {type : ResourceType}

/-- A name that is free stays free when its row is put. -/
theorem checkName_put {tables : Tables} {row : Row type} (h : tables.checkName row = .ok ()) :
    (tables.put row).checkName row = .ok () := by
  rw [checkName_eq_ok_iff, nameTaken] at h ⊢
  cases hunique : row.uniqueName? with
  | none => rfl
  | some name =>
    rw [hunique] at h
    refine List.any_eq_false.mpr fun other hmem htaken => ?_
    rw [rows_put] at hmem
    rcases mem_or_of_mem_putRow hmem with rfl | hold
    · exact of_decide_eq_true (Bool.and_eq_true_iff.mp htaken).1 rfl
    · exact List.any_eq_false.mp h other hold htaken

/-- A row that has been written can be written again, and nothing changes. -/
theorem update_again {tables after : Tables} {row stored : Row type}
    (h : tables.update row = .ok (stored, after)) : after.update stored = .ok (stored, after) := by
  obtain ⟨-, hname, rfl, rfl⟩ := update_eq_ok h
  have hthere : (tables.put stored).has type stored.id = true := has_put.mpr (.inl ⟨rfl, rfl⟩)
  rw [update, hthere, checkName_put hname, put_put tables rfl]
  rfl

end Tables

/-- Whether a target is a column, a complex attribute or all items of a relation. -/
def Target.isWhole : Target → Bool
  | .items _ filter sub => filter.isNone && sub.isNone
  | _ => true

namespace Patch

variable {type : ResourceType}

/-- Updates are taken by every row if they are by one, and they leave the same in two rows that
agree in the columns that they do not touch. -/
theorem assigned_congr {a a' b : Row type} {updates : Updates} (h : assigned a updates = .ok a')
    (hagree : ∀ column, (∀ update ∈ updates, update.1.column ≠ column) →
      a.cell column = b.cell column) :
    ∃ b', assigned b updates = .ok b' ∧ b'.cell = a'.cell := by
  induction updates generalizing a b with
  | nil =>
    cases h
    exact ⟨b, rfl, funext fun column => (hagree column fun _ hmem => nomatch hmem).symm⟩
  | cons update updates ih =>
    rw [assigned] at h
    split at h
    · cases h
    · next middle hassign =>
      obtain ⟨other, hother⟩ := Row.exists_assign_of_assign hassign b
      rw [assigned, hother]
      refine ih h fun column huntouched => ?_
      rw [Row.cell_of_assign hassign, Row.cell_of_assign hother]
      split
      · rfl
      · next hne =>
        refine hagree column fun other hmem => ?_
        rcases List.mem_cons.mp hmem with rfl | hmem
        · exact Ne.symm hne
        · exact huntouched other hmem

/-- Updates leave the columns that they do not touch. -/
theorem cell_of_assigned {row new : Row type} {updates : Updates}
    (h : assigned row updates = .ok new) {column : Column}
    (huntouched : ∀ update ∈ updates, update.1.column ≠ column) :
    new.cell column = row.cell column := by
  induction updates generalizing row with
  | nil =>
    cases h
    rfl
  | cons update updates ih =>
    obtain ⟨hfirst, hrest⟩ := List.forall_mem_cons.mp huntouched
    rw [assigned] at h
    split at h
    · cases h
    · next hassign => rw [ih h hrest, Row.cell_of_assign hassign, if_neg (Ne.symm hfirst)]

/-- Updates change nothing in a row that has taken them. -/
theorem assigned_again {row new : Row type} {updates : Updates}
    (h : assigned row updates = .ok new) : assigned new updates = .ok new := by
  obtain ⟨again, hagain, hcell⟩ := assigned_congr h fun column huntouched =>
    (cell_of_assigned h huntouched).symm
  rw [hagain, Row.eq_of_cells hcell (sameSystem_of_assigned hagain)]

section

variable {w w' : World Tables} {row after : Row type}

/-- Columns that have been written can be written again, and nothing changes. -/
theorem setFields_again {updates : Updates}
    (h : (setFields updates).run (w, row) = (.ok (), w', after)) :
    (setFields updates).run (w', after) = (.ok (), w', after) := by
  obtain ⟨_, -, hrun⟩ := setFields_run updates w row
  rw [hrun] at h
  cases hassigned : assigned row updates with
  | error e =>
    rw [hassigned] at h
    cases h
  | ok new =>
    rw [hassigned] at h
    cases hwrite : w.store.update new with
    | error e =>
      simp only [hwrite] at h
      cases h
    | ok written =>
      simp only [hwrite] at h
      cases h
      obtain ⟨_, -, hagain⟩ := setFields_run updates { w with store := written.2 } written.1
      obtain ⟨-, -, hstored, -⟩ := Tables.update_eq_ok hwrite
      rw [hagain, hstored, assigned_again hassigned]
      dsimp only
      rw [← hstored, Tables.update_again hwrite]

variable {relation : Relation} {owner : Uuid}

/-- What an addition to a collection has decided and done when it succeeds. -/
theorem addItems_eq_ok {root : ServiceRoot} {value : Json}
    (h : (addItems root owner relation value).run w = (.ok (), w')) :
    ∃ fresh, additions root owner relation w.draws value (w.store.ownedItems owner relation) =
        .ok fresh ∧
      w' = { w with draws := w.draws + 1, store := w.store.append relation fresh } := by
  rw [addItems_planned] at h
  cases hplan : additions root owner relation w.draws value (w.store.ownedItems owner relation) with
  | error e =>
    rw [hplan] at h
    cases h
  | ok fresh =>
    rw [hplan] at h
    exact ⟨fresh, rfl, insertItems_eq_ok h⟩

/-- The items of a value that has been added are there already. -/
theorem additions_again {root : ServiceRoot} {draw : Nat} {value : Json}
    {existing fresh : List ItemRow}
    (h : additions root owner relation draw value existing = .ok fresh) (draw' : Nat) :
    additions root owner relation draw' value (existing ++ fresh) = .ok [] := by
  obtain ⟨rows, hrows, rfl, hprimary⟩ := additions_eq_ok h
  -- The second time the items have other keys, and the same columns otherwise.
  obtain ⟨rows', hrows', hcells⟩ := exists_items root draw' hrows
  have hthere : ∀ item ∈ rows', ∃ kept ∈ existing ++ newItems relation existing rows,
      sameItem relation kept item = true := by
    intro item hmem
    have hcell : item.cell ∈ rows.map ItemRow.cell := hcells ▸ List.mem_map_of_mem hmem
    obtain ⟨row, hrow, hsame⟩ := List.mem_map.mp hcell
    obtain ⟨kept, hkept, hlike⟩ := exists_sameItem_newItems existing rows row hrow
    exact ⟨kept, hkept, sameItem_iff.mpr
      ((sameItem_iff.mp hlike).trans (likeness_congr hsame))⟩
  have hnone := newItems_eq_nil hthere
  rw [additions_eq hrows' (by rwa [hnone, List.append_nil]), hnone]

/-- Items that have been added can be added again, and nothing is stored. -/
theorem addItems_again {root : ServiceRoot} {value : Json}
    (h : (addItems root owner relation value).run w = (.ok (), w')) :
    (addItems root owner relation value).run w' =
      (.ok (), { w' with draws := w'.draws + 1 }) := by
  obtain ⟨fresh, hplan, rfl⟩ := addItems_eq_ok h
  have howned := @Tables.ownedItems_append_self w.store relation owner fresh
    (keys_of_additions hplan).2
  rw [addItems_planned, howned, additions_again hplan]
  rfl

end

/-- Whether a step that has succeeded succeeds again and then does nothing but draw keys. -/
def Repeatable (step : Step Tables type Unit) : Prop :=
  ∀ ⦃w w' : World Tables⦄ ⦃row after : Row type⦄, step.run (w, row) = (.ok (), w', after) →
    ∃ draws, step.run (w', after) = (.ok (), { w' with draws }, after)

namespace Repeatable

theorem throw (error : DirectoryError) : Repeatable (throw error : Step Tables type Unit) :=
  fun _ _ _ _ h => nomatch h

theorem check {ε α : Type} {wrap : ε → DirectoryError} {answer : Except ε α}
    {f : α → Step Tables type Unit} (h : ∀ x, answer = .ok x → Repeatable (f x)) :
    Repeatable (Step.check wrap answer >>= f) := by
  cases answer with
  | error e => exact fun _ _ _ _ hrun => nomatch hrun
  | ok x => exact h x rfl

theorem setFields (updates : Updates) :
    Repeatable (Patch.setFields updates : Step Tables type Unit) :=
  fun _ w' _ _ h => ⟨w'.draws, setFields_again h⟩

theorem addItems (root : ServiceRoot) (relation : Relation) (value : Json) :
    Repeatable (owner >>= fun id => Step.lift (Patch.addItems root id relation value) :
      Step Tables type Unit) := by
  intro w w' row after h
  rw [owner_lift_run] at h
  obtain ⟨hanswer, hrest⟩ := Prod.mk.inj h
  obtain ⟨hworld, rfl⟩ := Prod.mk.inj hrest
  refine ⟨w'.draws + 1, ?_⟩
  rw [owner_lift_run, addItems_again (Prod.ext hanswer hworld)]

/-- An addition at a whole attribute can be repeated. -/
theorem addTo {target : Target} (hwhole : target.isWhole = true) (setting : Setting)
    (value : Json) : Repeatable (Patch.addTo setting target value : Step Tables type Unit) := by
  unfold Patch.addTo
  split
  · exact throw _
  · cases target with
    | field field => exact check fun _ _ => setFields _
    | complex parent => exact check fun _ _ => setFields _
    | items relation filter sub =>
      rcases filter with _ | filter <;> rcases sub with _ | sub
      · exact addItems setting.root relation value
      · cases hwhole
      · cases hwhole
      · cases hwhole

end Repeatable

end Patch

/-- Let an addition to a column, to a complex attribute or to a whole collection succeed. Then it
succeeds when it is done again, and leaves storage and the row at hand as they are. In a collection
it links some of the items that the value is decoded to. None of these counts as the same as an item
that was there or as another one of them, and each decoded item counts as the same as one that is
there now. -/
theorem repeated_addition_changes_nothing (setting : Patch.Setting) {type : ResourceType}
    (w w' : World Tables) (row after : Row type) (path : String) (value : Json) (target : Target)
    (htarget : Target.ofPath setting.parser type path = .ok target)
    (hwhole : target.isWhole = true)
    (hadded : (Patch.apply setting (.add path value)).run (w, row) = (.ok (), w', after)) :
    (∃ draws, (Patch.apply setting (.add path value)).run (w', after) =
      (.ok (), { w' with draws }, after)) ∧
    ∀ relation, target = .items relation none none →
      ∃ rows fresh, Patch.items setting.root relation w.draws row.id value = .ok rows ∧
        fresh.Sublist rows ∧ (∀ item ∈ fresh, item.owner = row.id) ∧
        w'.store = w.store.append relation fresh ∧ after = row ∧
        Patch.AllDiffer relation fresh ∧
        (∀ old ∈ w.store.ownedItems row.id relation, ∀ item ∈ fresh,
          Patch.sameItem relation old item = false) ∧
        ∀ item ∈ rows, ∃ kept ∈ w'.store.ownedItems row.id relation,
          Patch.sameItem relation kept item = true := by
  have happly : (Patch.apply setting (.add path value) : Patch.Step Tables type Unit) =
      Patch.addTo setting target value := Patch.apply_of_target rfl htarget
  rw [happly] at hadded ⊢
  refine ⟨Patch.Repeatable.addTo hwhole setting value hadded, ?_⟩
  rintro relation rfl
  unfold Patch.addTo at hadded
  split at hadded
  · cases hadded
  · dsimp only at hadded
    rw [Patch.owner_lift_run] at hadded
    obtain ⟨hanswer, hrest⟩ := Prod.mk.inj hadded
    obtain ⟨hworld, rfl⟩ := Prod.mk.inj hrest
    obtain ⟨fresh, hplan, hlinked⟩ := Patch.addItems_eq_ok (Prod.ext hanswer hworld)
    have howners := (Patch.keys_of_additions hplan).2
    obtain ⟨rows, hrows, hfresh, -⟩ := Patch.additions_eq_ok hplan
    have hdiffer : Patch.AllDiffer relation fresh ∧
        ∀ old ∈ w.store.ownedItems row.id relation, ∀ item ∈ fresh,
          Patch.sameItem relation old item = false := by
      rw [hfresh]
      exact Patch.allDiffer_newItems _ rows
    refine ⟨rows, fresh, hrows, hfresh ▸ Patch.newItems_sublist .., howners, ?_, rfl, hdiffer.1,
      hdiffer.2, ?_⟩
    · rw [hlinked]
    · rw [hlinked, Tables.ownedItems_append_self howners, hfresh]
      exact Patch.exists_sameItem_newItems _ rows

/-- Of an item that is there and a new one that is given twice, an addition links the new one once,
and nothing when it is repeated. -/
theorem repeated_addition_changes_nothing_of_emails :
    let mail (value : String) : Json := .object [("value", .text value)]
    let stored : ItemRow :=
      { ItemRow.blank (.given (.numbered 9)) (.numbered 1) with value := some "a@example.org" }
    let alice : Row .user := UserRow.named (.numbered 1) "alice" (.ofSeconds 0)
    let w : World Tables := World.fresh (StoreCall.steps
      [@StoreCall.insert .user ⟨alice, [(.values .emails, [stored])]⟩] Tables.empty)
    let setting : Patch.Setting := ⟨Filter.parse, Config.standard.root⟩
    let operation : Operation :=
      .add "emails" (.array [mail "a@example.org", mail "b@example.org", mail "b@example.org"])
    ∃ w' after, (Patch.apply setting operation).run (w, alice) = (.ok (), w', after) ∧
      (∃ draws, (Patch.apply setting operation).run (w', after) =
        (.ok (), { w' with draws }, after)) ∧
      ((w'.store.ownedItems (.numbered 1) (.values .emails)).map ItemRow.value =
        [some "a@example.org", some "b@example.org"]) := by
  intro mail stored alice w setting operation
  have hlinked : ((Patch.apply setting operation).run (w, alice)).1.isOk = true ∧
      ((((Patch.apply setting operation).run (w, alice)).2.1.store.ownedItems (.numbered 1)
        (.values .emails)).map ItemRow.value =
          [some "a@example.org", some "b@example.org"]) := by
    decide +kernel
  rcases hrun : (Patch.apply setting operation).run (w, alice) with ⟨error | _, w', after⟩
  · rw [hrun] at hlinked
    cases hlinked.1
  · rw [hrun] at hlinked
    have htarget := Attribute.ofPath_key (Filter.readsNames_parse .user)
      (show Attribute.listed (.values .emails) ∈ Attribute.ofType .user by decide)
    have hagain := (repeated_addition_changes_nothing setting w w' alice after "emails" _ _ htarget
      rfl hrun).1
    exact ⟨w', after, rfl, hagain, hlinked.2⟩

end ScimDirectory
