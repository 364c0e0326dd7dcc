import ScimDirectory.Proofs.Directory.Runs
import ScimDirectory.Proofs.Store.Cells
import ScimDirectory.Proofs.Store.WellFormed
import ScimDirectory.Proofs.Traversal

/-!
# Writing columns

An operation on columns changes the row at hand column by column and then writes the row in one
call. The key, the version and the times of a row have no column, so no operation reaches them.
-/

namespace ScimDirectory

/-- Two rows of one resource whose key, version and times are the same. -/
structure Row.SameSystem {type : ResourceType} (a b : Row type) : Prop where
  /-- The primary key. -/
  id : a.id = b.id
  /-- The version. -/
  etag : a.etag = b.etag
  /-- When the row was made. -/
  created : a.created = b.created
  /-- When the row was last changed. -/
  lastModified : a.lastModified = b.lastModified

namespace Row

variable {type : ResourceType}

theorem SameSystem.refl (row : Row type) : SameSystem row row := ⟨rfl, rfl, rfl, rfl⟩

theorem SameSystem.trans {a b c : Row type} (h : SameSystem a b) (h' : SameSystem b c) :
    SameSystem a c :=
  ⟨h.id.trans h'.id, h.etag.trans h'.etag, h.created.trans h'.created,
    h.lastModified.trans h'.lastModified⟩

/-- Writing a column changes none of what the server keeps. -/
theorem sameSystem_of_assign {row new : Row type} {column : Column} {content : Option Scalar}
    (h : row.assign column content = .ok new) : SameSystem new row := by
  cases type <;> cases column <;>
    simp only [assign_eq, taking, UserRow.taking, UserRow.textSlot?, GroupRow.taking] at h <;>
    first
    | cases h
    | obtain ⟨_, -, rfl⟩ := except_map_eq_ok.mp h; exact ⟨rfl, rfl, rfl, rfl⟩

end Row

namespace Patch

variable {type : ResourceType}

/-- A row after some updates. -/
def assigned (row : Row type) : Updates → Except DirectoryError (Row type)
  | [] => .ok row
  | (field, content) :: updates =>
    match row.assign field.column content with
    | .error error => .error (.patch (.invalidValue field.name error.message))
    | .ok row => assigned row updates

/-- Updates change none of what the server keeps. -/
theorem sameSystem_of_assigned {row new : Row type} {updates : Updates}
    (h : assigned row updates = .ok new) : Row.SameSystem new row := by
  induction updates generalizing row with
  | nil =>
    cases h
    exact Row.SameSystem.refl _
  | cons update updates ih =>
    rw [assigned] at h
    split at h
    · cases h
    · next middle hassign => exact (ih h).trans (Row.sameSystem_of_assign hassign)

/-- An action leaves the row at hand alone. -/
theorem lift_run {α : Type} (a : Action Tables α) (w : World Tables) (row : Row type) :
    (Step.lift a).run (w, row) = ((a.run w).1, (a.run w).2, row) := rfl

/-- Wrapping what an action answers can be put off until it is lifted. -/
theorem lift_bind_pure {α β : Type} (a : Action Tables α) (f : α → β) :
    (Step.lift a >>= fun x => pure (f x) : Step Tables type β) =
      Step.lift (a >>= fun x => pure (f x)) := by
  funext ⟨w, row⟩
  refine (run_bind_pure (Step.lift a) f (w, row)).trans ?_
  change _ = (((a >>= fun x => pure (f x)).run w).1, ((a >>= fun x => pure (f x)).run w).2, row)
  rw [run_bind_pure, lift_run]

/-- So does an action on what belongs to the resource at hand. -/
theorem owner_lift_run {α : Type} (a : Uuid → Action Tables α) (w : World Tables)
    (row : Row type) :
    (owner >>= fun id => Step.lift (a id)).run (w, row) =
      (((a row.id).run w).1, ((a row.id).run w).2, row) := rfl

/-- Writing one column changes the row at hand only. -/
theorem assignField_run (field : Field) (content : Option Scalar) (w : World Tables)
    (row : Row type) :
    (assignField field content).run (w, row) =
      match row.assign field.column content with
      | .error error => (.error (.patch (.invalidValue field.name error.message)), w, row)
      | .ok new => (.ok (), w, new) := by
  have hwrite := (Row.write_staysOnFailure field.column content).run_eq row
  change (((Row.write field.column content).run row).1.mapError _, w,
    ((Row.write field.column content).run row).2) = _
  rw [hwrite, Row.assign]
  cases (Row.write field.column content).outcome row <;> rfl

/-- Writing columns changes the row at hand only, and makes it the updated row when every update
is taken. -/
theorem assignFields_run (updates : Updates) (w : World Tables) (row : Row type) :
    ∃ after : Row type, Row.SameSystem after row ∧
      (∀ new, assigned row updates = .ok new → after = new) ∧
      (assignFields updates).run (w, row) = ((assigned row updates).map fun _ => (), w, after) := by
  induction updates generalizing row with
  | nil => exact ⟨row, Row.SameSystem.refl row, fun _ h => Except.ok.inj h, rfl⟩
  | cons update updates ih =>
    obtain ⟨field, content⟩ := update
    have hrun := assignField_run field content w row
    rw [assignFields, assigned]
    cases hassign : row.assign field.column content with
    | error e =>
      rw [hassign] at hrun
      exact ⟨row, Row.SameSystem.refl row, fun _ h => (nomatch h), run_bind_of_error hrun _⟩
    | ok middle =>
      rw [hassign] at hrun
      obtain ⟨after, hsame, hnew, hafter⟩ := ih middle
      exact ⟨after, hsame.trans (Row.sameSystem_of_assign hassign), hnew,
        (run_bind_of_ok hrun _).trans hafter⟩

/-- The row at hand is written to storage, and what is stored is at hand. -/
theorem writeRow_run (w : World Tables) (row : Row type) :
    (do
      let row ← Step.row
      let stored ← Step.lift (.call (Storage.update row))
      Step.setRow stored : Step Tables type Unit).run (w, row) =
      match w.store.update row with
      | .error error => (.error (.storage error), w, row)
      | .ok (stored, store) => (.ok (), { w with store }, stored) := by
  have hupdate := Action.run_writing (Tables.call_update row) w
  have hlift := lift_run (Action.call (Storage.update row)) w row
  rw [hupdate] at hlift
  cases hwrite : w.store.update row with
  | error e =>
    rw [hwrite] at hlift
    exact run_bind_of_error hlift _
  | ok written =>
    rw [hwrite] at hlift
    exact run_bind_of_ok hlift _

/-- Columns are written to storage together, once every update is taken. -/
theorem setFields_run (updates : Updates) (w : World Tables) (row : Row type) :
    ∃ after : Row type, Row.SameSystem after row ∧
      (setFields updates).run (w, row) =
        match assigned row updates with
        | .error error => (.error error, w, after)
        | .ok new =>
          match w.store.update new with
          | .error error => (.error (.storage error), w, new)
          | .ok (stored, store) => (.ok (), { w with store }, stored) := by
  obtain ⟨after, hsame, hnew, hrun⟩ := assignFields_run updates w row
  refine ⟨after, hsame, ?_⟩
  cases hassigned : assigned row updates with
  | error e =>
    rw [hassigned] at hrun
    exact run_bind_of_error hrun _
  | ok new =>
    rw [hassigned, hnew new hassigned] at hrun
    exact (run_bind_of_ok hrun _).trans (writeRow_run w new)

end Patch

end ScimDirectory
