import ScimDirectory.Proofs.Directory.Writes
import ScimDirectory.Proofs.Schema.Names

/-!
# Steps of operations

Applied at a path, an operation does one write for the resource at hand, after which the stored
row is at hand, or it fails and storage is as it was. Operations one after the other do one write
after the other, up to the first that fails.
-/

namespace ScimDirectory

/-- A target within the resources of a type. -/
def Target.Fits (type : ResourceType) : Target → Prop
  | .field _ => True
  | .complex _ => True
  | .items relation _ _ => relation.owner = type

/-- Paths of a type point at what its resources have. -/
theorem Target.fits_of_ofPath {parser : Filter.Parser} {type : ResourceType} {path : String}
    {target : Target} (h : ofPath parser type path = .ok target) : target.Fits type := by
  have hparts : ∀ {attr filter sub}, ofParts type attr filter sub = .ok target →
      target.Fits type := by
    intro attr filter sub h
    unfold ofParts at h
    dsimp only at h
    split at h
    · cases h
    · split at h
      · split at h
        · cases h
        · cases h
          exact trivial
      · split at h
        · cases h
        · split at h
          · cases h
          · cases h
            exact trivial
        · next relation hresolve =>
          obtain ⟨_, -, h⟩ := except_bind_eq_ok.mp h
          obtain ⟨_, -, h⟩ := except_bind_eq_ok.mp h
          cases h
          exact AttributeTable.owner_of_mem_entries (AttributeTable.lists_of_resolve hresolve)
        · cases h
  unfold ofPath at h
  split at h
  · cases h
  · exact hparts h
  · exact hparts h
  · cases h

namespace Patch

variable {d : Directory} {type : ResourceType}

/-- What a step that stands for one path has done. -/
inductive Outcome (d : Directory) (w : World Tables) (row : Row type) :
    Except DirectoryError Unit × World Tables × Row type → Prop where
  /-- It has failed, and storage is as it was. -/
  | failed {error : DirectoryError} {w' : World Tables} {after : Row type}
      (hstore : w'.store = w.store) (hdraws : w.draws ≤ w'.draws)
      (hsame : Row.SameSystem after row) : Outcome d w row (.error error, w', after)
  /-- It has done one write, and the stored row is at hand. -/
  | written {w' : World Tables} {after : Row type}
      (hwrite : Directory.Write d type row.id w.stock w'.stock)
      (hfind : w'.store.find? type row.id = some after) (hsame : Row.SameSystem after row) :
    Outcome d w row (.ok (), w', after)

section

variable {w : World Tables} {row : Row type}

/-- A step that fails at once has done nothing. -/
theorem Outcome.refused (error : DirectoryError) :
    Outcome d w row (.error error, w, row) :=
  .failed rfl (Nat.le_refl _) (Row.SameSystem.refl row)

/-- An action with a plan either does what is planned or fails. -/
theorem lift_outcome {β : Type} {a : Action Tables Unit} {middle : World Tables}
    {plan : Except DirectoryError β} {commit : β → Tables}
    (hrun : a.run w = settled middle (plan.map commit)) (hstore : middle.store = w.store)
    (hdraws : w.draws ≤ middle.draws) (hfind : w.store.find? type row.id = some row)
    (hrows : ∀ x, (commit x).rows type = w.store.rows type)
    (hwrite : ∀ x, plan = .ok x → Directory.Write d type row.id w.stock (commit x, middle.draws)) :
    Outcome d w row ((Step.lift a).run (w, row)) := by
  rw [lift_run, hrun]
  cases hplan : plan with
  | error e => exact .failed hstore hdraws (Row.SameSystem.refl row)
  | ok x =>
    refine .written (hwrite x hplan) ?_ (Row.SameSystem.refl row)
    have hsame : (commit x).find? type row.id = w.store.find? type row.id := by
      rw [Tables.find?, hrows x, Tables.find?]
    exact hsame.trans hfind

/-- Columns are written together or not at all. -/
theorem setFields_outcome (updates : Updates) (hfind : w.store.find? type row.id = some row) :
    Outcome d w row ((setFields updates).run (w, row)) := by
  obtain ⟨after, hsame, hrun⟩ := setFields_run updates w row
  rw [hrun]
  cases hassigned : assigned row updates with
  | error e => exact .failed rfl (Nat.le_refl _) hsame
  | ok new =>
    have hnew := sameSystem_of_assigned hassigned
    dsimp only
    cases hwrite : w.store.update new with
    | error e => exact .failed rfl (Nat.le_refl _) hnew
    | ok written =>
      obtain ⟨stored, store⟩ := written
      obtain ⟨-, -, rfl, hafter⟩ := Tables.update_eq_ok hwrite
      refine .written (.assign updates hfind hassigned hwrite) ?_ hnew
      rw [hafter, Tables.find?_put, if_pos hnew.id]

/-- Whether a check that precedes a step is passed decides between failure and the step. -/
theorem check_outcome {ε α : Type} {wrap : ε → DirectoryError} {answer : Except ε α}
    {f : α → Step Tables type Unit}
    (h : ∀ x, answer = .ok x → Outcome d w row ((f x).run (w, row))) :
    Outcome d w row ((Step.check wrap answer >>= f).run (w, row)) := by
  cases answer with
  | error e => exact .refused _
  | ok x => exact h x rfl

/-- The owner is the resource whose row is at hand. -/
theorem owner_outcome {f : Uuid → Step Tables type Unit}
    (h : Outcome d w row ((f row.id).run (w, row))) :
    Outcome d w row ((owner >>= f).run (w, row)) := h

/-- The owner at hand is there for the relations of its type. -/
theorem has_of_find? {relation : Relation} (hfind : w.store.find? type row.id = some row)
    (hrelation : relation.owner = type) : w.store.has relation.owner row.id = true := by
  rw [hrelation, Tables.has, hfind]
  rfl

theorem addItems_outcome (hsound : w.store.Sound w.draws)
    (hfind : w.store.find? type row.id = some row) {relation : Relation}
    (hrelation : relation.owner = type) (value : Json) :
    Outcome d w row ((Step.lift (addItems d.setting.root row.id relation value)).run (w, row)) := by
  have howner := has_of_find? hfind hrelation
  refine lift_outcome (addItems_run hsound howner d.setting.root value) rfl (Nat.le_succ _) hfind
    (fun _ => Tables.rows_append ..) fun fresh hplan => ?_
  exact .add value hrelation (hrelation ▸ howner) hplan

theorem replaceItems_outcome (hsound : w.store.Sound w.draws)
    (hfind : w.store.find? type row.id = some row) {relation : Relation}
    (hrelation : relation.owner = type) (value : Json) :
    Outcome d w row
      ((Step.lift (replaceItems d.setting.root row.id relation value)).run (w, row)) := by
  have howner := has_of_find? hfind hrelation
  refine lift_outcome (replaceItems_run hsound howner d.setting.root value) rfl (Nat.le_succ _)
    hfind (fun _ => (Tables.rows_append ..).trans (Tables.rows_without ..)) fun rows hplan => ?_
  exact .reset value hrelation (hrelation ▸ howner) hplan

/-- All items of a relation that the resource at hand has leave. -/
theorem deleteAllItems_run (relation : Relation) (w : World Tables) (row : Row type) :
    (do
      let _ ← Step.lift (.call (Storage.deleteAllItems relation row.id)) :
        Step Tables type Unit).run (w, row) =
      (.ok (), { w with store := w.store.without relation (·.owner = row.id) }, row) := by
  rw [Tables.call_deleteAllItems]
  rfl

theorem deleteAllItems_outcome (hfind : w.store.find? type row.id = some row)
    {relation : Relation} (hrelation : relation.owner = type) :
    Outcome d w row ((do
      let _ ← Step.lift (.call (Storage.deleteAllItems relation row.id)) :
        Step Tables type Unit).run (w, row)) := by
  have hall : (w.store.without relation fun item => item.owner = row.id) =
      w.store.without relation fun item => item.owner = row.id ∧ true := by
    simp
  rw [deleteAllItems_run, hall]
  refine .written (.remove (fun _ => true) hrelation) ?_ (Row.SameSystem.refl row)
  exact (congrArg _ (Tables.rows_mk_items ..)).trans hfind

theorem removeItems_outcome (hsound : w.store.Sound w.draws)
    (hfind : w.store.find? type row.id = some row) {relation : Relation}
    (hrelation : relation.owner = type) (filter : Predicate) :
    Outcome d w row ((Step.lift (removeItems row.id relation filter)).run (w, row)) :=
  lift_outcome (removeItems_run hsound filter) rfl (Nat.le_refl _) hfind
    (fun _ => Tables.rows_mk_items ..) fun _ _ => .remove filter.picks hrelation

theorem setItemField_outcome (hsound : w.store.Sound w.draws)
    (hfind : w.store.find? type row.id = some row) {relation : Relation}
    (hrelation : relation.owner = type) (filter : Predicate) (field : Field) (value : Json) :
    Outcome d w row ((Step.lift (setItemField row.id relation filter field value)).run (w, row)) :=
  lift_outcome (setItemField_run hsound filter field value) rfl (Nat.le_refl _) hfind
    (fun _ => Tables.rows_mk_items ..) fun _ hplan => .adjust filter field value hrelation hplan

theorem mergeItems_outcome (hsound : w.store.Sound w.draws)
    (hfind : w.store.find? type row.id = some row) {relation : Relation}
    (hrelation : relation.owner = type) (filter : Predicate) (value : Json) :
    Outcome d w row ((Step.lift (mergeItems row.id relation filter value)).run (w, row)) :=
  lift_outcome (mergeItems_run hsound filter value) rfl (Nat.le_refl _) hfind
    (fun _ => Tables.rows_mk_items ..) fun _ hplan => .merge filter value hrelation hplan

end

/-- Applying values at targets of a type is one write or none. -/
def OneWrite (d : Directory) (type : ResourceType)
    (apply : Target → Json → Step Tables type Unit) : Prop :=
  ∀ {w : World Tables} {row : Row type} {target : Target}, w.store.Sound w.draws →
    w.store.find? type row.id = some row → target.Fits type → ∀ value,
      Outcome d w row ((apply target value).run (w, row))

/-- Adding a value at a target is one write or none. -/
theorem addTo_oneWrite : OneWrite d type (addTo d.setting) := by
  intro w row target hsound hfind hfits value
  unfold addTo
  split
  · exact .refused _
  · cases target with
    | field field => exact check_outcome fun content _ => setFields_outcome _ hfind
    | complex parent => exact check_outcome fun updates _ => setFields_outcome _ hfind
    | items relation filter sub =>
      rcases filter with _ | filter <;> rcases sub with _ | sub
      · exact owner_outcome (addItems_outcome hsound hfind hfits value)
      · exact .refused _
      · exact .refused _
      · exact owner_outcome (setItemField_outcome hsound hfind hfits filter sub value)

/-- Removing a target is one write or none. -/
theorem removeAt_oneWrite : OneWrite d type fun target _ => removeAt target := by
  intro w row target hsound hfind hfits _
  unfold removeAt
  cases target with
  | field field => exact setFields_outcome _ hfind
  | complex parent => exact setFields_outcome _ hfind
  | items relation filter sub =>
    rcases filter with _ | filter <;> rcases sub with _ | sub
    · exact owner_outcome (deleteAllItems_outcome hfind hfits)
    · exact .refused _
    · exact owner_outcome (removeItems_outcome hsound hfind hfits filter)
    · exact .refused _

/-- Replacing a target is one write or none. -/
theorem replaceAt_oneWrite : OneWrite d type (replaceAt d.setting) := by
  intro w row target hsound hfind hfits value
  unfold replaceAt
  cases target with
  | field field => exact check_outcome fun content _ => setFields_outcome _ hfind
  | complex parent =>
    by_cases hnull : value.isNull = true
    · simp only [hnull, if_true]
      exact setFields_outcome _ hfind
    · simp only [hnull]
      exact check_outcome fun updates _ => setFields_outcome _ hfind
  | items relation filter sub =>
    rcases filter with _ | filter <;> rcases sub with _ | sub
    · exact owner_outcome (replaceItems_outcome hsound hfind hfits value)
    · exact .refused _
    · exact owner_outcome (mergeItems_outcome hsound hfind hfits filter value)
    · exact owner_outcome (setItemField_outcome hsound hfind hfits filter sub value)

/-- Applying an operation with a path is one write or none. -/
theorem applyAt_outcome {apply : Target → Json → Step Tables type Unit}
    (happly : OneWrite d type apply) {w : World Tables} {row : Row type}
    (hsound : w.store.Sound w.draws) (hfind : w.store.find? type row.id = some row)
    (path : String) (value : Json) :
    Outcome d w row ((applyAt d.setting apply path value).run (w, row)) :=
  check_outcome fun _ htarget => happly hsound hfind (Target.fits_of_ofPath htarget) value

/-- What operations have done: one write after the other, and the stored row is at hand unless
they have failed. -/
structure Trace (d : Directory) (w : World Tables) (row : Row type)
    (result : Except DirectoryError Unit × World Tables × Row type) : Prop where
  /-- The writes. -/
  writes : d.Writes type row.id w.stock result.2.1.stock
  /-- What the server keeps of the row at hand is as it was. -/
  same : Row.SameSystem result.2.2 row
  /-- A row is stored, and what the server keeps of it is as it was. -/
  kept : ∃ stored, result.2.1.store.find? type row.id = some stored ∧ Row.SameSystem stored row
  /-- The row at hand is the stored one. -/
  stored : result.1 = .ok () → result.2.1.store.find? type row.id = some result.2.2

section

variable {w w' : World Tables} {row after : Row type}

/-- One write, or none, is a trace. -/
theorem Outcome.trace {result : Except DirectoryError Unit × World Tables × Row type}
    (hfind : w.store.find? type row.id = some row) (h : Outcome d w row result) :
    Trace d w row result := by
  cases h with
  | failed hstore hdraws hsame =>
    refine ⟨.single ?_, hsame, ⟨row, ?_, Row.SameSystem.refl row⟩, fun hok => nomatch hok⟩
    · rw [World.stock, World.stock, hstore]
      exact .draw hdraws
    · rw [hstore]
      exact hfind
  | written hwrite hfind hsame =>
    exact ⟨.single hwrite, hsame, ⟨_, hfind, hsame⟩, fun _ => hfind⟩

/-- Nothing leaves the trace of nothing. -/
theorem Trace.nothing (hfind : w.store.find? type row.id = some row) :
    Trace d w row (.ok (), w, row) :=
  ⟨.refl, Row.SameSystem.refl row, ⟨row, hfind, Row.SameSystem.refl row⟩, fun _ => hfind⟩

/-- A trace is carried on by that of what comes next. -/
theorem Trace.append {answer : Except DirectoryError Unit}
    {result : Except DirectoryError Unit × World Tables × Row type}
    (h : Trace d w row (answer, w', after)) (hnext : Trace d w' after result) :
    Trace d w row result where
  writes := h.writes.trans (h.same.id ▸ hnext.writes)
  same := hnext.same.trans h.same
  kept := by
    obtain ⟨stored, hfind, hsame⟩ := hnext.kept
    exact ⟨stored, h.same.id ▸ hfind, hsame.trans h.same⟩
  stored hok := h.same.id ▸ hnext.stored hok

/-- Steps that leave traces leave one when they follow one another. -/
theorem Trace.bind {s : Step Tables type Unit} {f : Unit → Step Tables type Unit}
    (hsound : w.store.Sound w.draws) (h : Trace d w row (s.run (w, row)))
    (hnext : ∀ {w' : World Tables} {after : Row type}, w'.store.Sound w'.draws →
      w'.store.find? type after.id = some after → Trace d w' after ((f ()).run (w', after))) :
    Trace d w row ((s >>= f).run (w, row)) := by
  rcases hrun : s.run (w, row) with ⟨e | _, w', after⟩
  · rw [run_bind_of_error hrun, ← hrun]
    exact h
  · rw [run_bind_of_ok hrun]
    rw [hrun] at h
    refine h.append (hnext (Directory.Writes.sound h.writes hsound) ?_)
    rw [h.same.id]
    exact h.stored rfl

variable (hsound : w.store.Sound w.draws) (hfind : w.store.find? type row.id = some row)

include hsound hfind

theorem applyMembers_trace {apply : Target → Json → Step Tables type Unit}
    (happly : OneWrite d type apply) (members : Members) :
    Trace d w row ((applyMembers d.setting apply members).run (w, row)) := by
  induction members generalizing w row with
  | nil => exact Trace.nothing hfind
  | cons member members ih =>
    have hfirst := (applyAt_outcome happly hsound hfind member.1 member.2).trace hfind
    exact Trace.bind hsound hfirst fun hsound hfind => ih hsound hfind

theorem applyValue_trace {apply : Target → Json → Step Tables type Unit}
    (happly : OneWrite d type apply) (operation : Operation) :
    Trace d w row ((applyValue d.setting apply operation).run (w, row)) := by
  unfold applyValue
  split
  · exact (applyAt_outcome happly hsound hfind _ _).trace hfind
  · exact applyMembers_trace hsound hfind happly _
  · exact (Outcome.refused _).trace hfind

/-- An operation does one write after the other. -/
theorem apply_trace (operation : Operation) :
    Trace d w row ((apply d.setting operation).run (w, row)) := by
  unfold apply
  split
  · exact applyValue_trace hsound hfind addTo_oneWrite operation
  · unfold remove
    split
    · exact (applyAt_outcome removeAt_oneWrite hsound hfind _ _).trace hfind
    · exact (Outcome.refused _).trace hfind
  · exact applyValue_trace hsound hfind replaceAt_oneWrite operation

/-- Operations do one write after the other, up to the first that fails. -/
theorem applyAll_trace (operations : List Operation) :
    Trace d w row ((applyAll d.setting operations).run (w, row)) := by
  induction operations generalizing w row with
  | nil => exact Trace.nothing hfind
  | cons operation operations ih =>
    exact Trace.bind hsound (apply_trace hsound hfind operation) fun hsound hfind => ih hsound hfind

/-- Operations that succeed leave sound tables, and the stored row is at hand. -/
theorem sound_applyAll {operations : List Operation}
    (hrun : (applyAll d.setting operations).run (w, row) = (.ok (), w', after)) :
    w'.store.Sound w'.draws ∧ w'.store.find? type after.id = some after := by
  have htrace := applyAll_trace (d := d) hsound hfind operations
  rw [hrun] at htrace
  refine ⟨Directory.Writes.sound htrace.writes hsound, ?_⟩
  rw [htrace.same.id]
  exact htrace.stored rfl

end

end Patch

end ScimDirectory
