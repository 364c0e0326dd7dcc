import ScimDirectory.Proofs.Patch.Atomicity
import ScimDirectory.Proofs.Patch.Effects

/-!
# Operations without a path

An addition or a replacement without a path is an operation with a path for each member of its
object, in order. Each of these is one write or none, but there is no check of all members before
the first write. So an operation without a path that fails leaves what the members before the
failing one have written, and storage is as before exactly when these have changed nothing.
-/

namespace ScimDirectory

/-- The operations of one kind that the members of an object stand for: each name is a path. -/
def Operation.ofMembers (kind : OperationKind) (members : Members) : List Operation :=
  members.map fun member => ⟨kind, some member.1, member.2⟩

namespace Patch

section

variable {σ : Type} [Storage σ] {type : ResourceType}

theorem applyMembers_eq_applyAll (setting : Setting) (kind : OperationKind) (members : Members) :
    (applyMembers setting (applyOf setting kind) members : Step σ type Unit) =
      applyAll setting (Operation.ofMembers kind members) := by
  induction members with
  | nil => rfl
  | cons member members ih =>
    rw [applyMembers, ih, Operation.ofMembers, Operation.ofMembers, List.map_cons, applyAll,
      apply_of_path setting rfl]

/-- An operation without a path is applied as an operation for each member of its value. -/
theorem apply_of_members (setting : Setting) {kind : OperationKind} (hkind : kind ≠ .remove)
    (members : Members) :
    (apply setting ⟨kind, none, .object members⟩ : Step σ type Unit) =
      applyAll setting (Operation.ofMembers kind members) := by
  rw [← applyMembers_eq_applyAll]
  cases kind with
  | remove => exact absurd rfl hkind
  | add | replace => rfl

/-- Operations fail when one of them fails after those before it have succeeded. -/
theorem applyAll_eq_error {setting : Setting} {operations : List Operation}
    {error : DirectoryError} {s s' : World σ × Row type}
    (hrun : (applyAll setting operations).run s = (.error error, s')) :
    ∃ done operation rest middle, operations = done ++ operation :: rest ∧
      (applyAll setting done).run s = (.ok (), middle) ∧
      (apply setting operation).run middle = (.error error, s') := by
  induction operations generalizing s with
  | nil => cases hrun
  | cons operation operations ih =>
    rw [applyAll] at hrun
    rcases hfirst : (apply setting operation).run s with ⟨_ | _, middle⟩
    · rw [run_bind_of_error hfirst] at hrun
      exact ⟨[], operation, operations, s, rfl, rfl, hfirst.trans hrun⟩
    · rw [run_bind_of_ok hfirst] at hrun
      obtain ⟨done, failing, rest, last, rfl, hdone, hfails⟩ := ih hrun
      exact ⟨operation :: done, failing, rest, last, rfl, (run_bind_of_ok hfirst _).trans hdone,
        hfails⟩

end

end Patch

/-- In every directory that can be reached, and at every point of a patch of a stored resource, let
an addition or a replacement of an object without a path fail. Then the members of the object before
one of them succeed as operations with their names as paths, the next one fails with the error of
the whole, and the tables are left as the members before it leave them. So they are as before exactly
when these members change nothing. -/
theorem failed_pathless_operation_leaves_tables_iff (d : Directory)
    (history : List (Instant × Command)) {type : ResourceType} (row : Row type)
    (earlier : List Operation) (kind : OperationKind) (members : Members) (error : DirectoryError)
    (w after : World Tables) (current last : Row type)
    (hfind : (d.serveAll history (World.fresh Tables.empty)).store.find? type row.id = some row)
    (hearlier : (Patch.applyAll d.setting earlier).run
      (d.serveAll history (World.fresh Tables.empty), row) = (.ok (), w, current))
    (hkind : kind ≠ .remove)
    (hfailed : (Patch.apply d.setting ⟨kind, none, .object members⟩).run (w, current) =
      (.error error, after, last)) :
    ∃ done path value rest middle reached, members = done ++ (path, value) :: rest ∧
      (Patch.applyAll d.setting (Operation.ofMembers kind done)).run (w, current) =
        (.ok (), middle, reached) ∧
      (Patch.apply d.setting ⟨kind, some path, value⟩).run (middle, reached) =
        (.error error, after, last) ∧
      after.store = middle.store ∧ (after.store = w.store ↔ middle.store = w.store) := by
  have hsound : (d.serveAll history (World.fresh Tables.empty)).store.Sound
      (d.serveAll history (World.fresh Tables.empty)).draws :=
    Directory.serveAll_sound (Tables.sound_empty 0) history
  obtain ⟨hlater, hstored⟩ := Patch.sound_applyAll hsound hfind hearlier
  rw [Patch.apply_of_members d.setting hkind] at hfailed
  obtain ⟨done, operation, rest, ⟨middle, reached⟩, hsplit, hdone, hfails⟩ :=
    Patch.applyAll_eq_error hfailed
  obtain ⟨first, others, rfl, rfl, hothers⟩ := List.map_eq_append_iff.mp hsplit
  obtain ⟨⟨path, value⟩, unreached, rfl, rfl, -⟩ := List.map_eq_cons_iff.mp hothers
  obtain ⟨hmiddle, hreached⟩ := Patch.sound_applyAll hlater hstored hdone
  have houtcome : Patch.Outcome d middle reached
      ((Patch.apply d.setting ⟨kind, some path, value⟩).run (middle, reached)) :=
    Patch.apply_outcome_of_path hmiddle hreached rfl
  rw [hfails] at houtcome
  have hsame : after.store = middle.store := houtcome.store_eq rfl
  exact ⟨first, path, value, unreached, middle, reached, rfl, hdone, hfails, hsame, by rw [hsame]⟩

/-- A replacement of nothing but the identifier is refused and changes nothing. -/
theorem failed_pathless_operation_leaves_tables_of_identifier :
    let d : Directory := ⟨Config.standard, Stamp.utf8 "salt", Filter.parse⟩
    let history : List (Instant × Command) :=
      [(.ofSeconds 0, @Command.create .group none (Group.named "Team"))]
    let before := d.serveAll history (World.fresh Tables.empty)
    let operation : Operation := ⟨.replace, none, .object [("id", .text "x")]⟩
    ∃ row error after last, before.store.find? .group (.numbered 1) = some row ∧
      (Patch.apply d.setting operation).run (before, row) = (.error error, after, last) ∧
      after.store = before.store := by
  intro d history before operation
  have hfails : (before.store.find? .group (.numbered 1)).any (fun row =>
      !((Patch.apply d.setting operation).run (before, row)).1.isOk) = true := by decide +kernel
  obtain ⟨row, hfind, hfailed⟩ := (Option.any_eq_true _ _).mp hfails
  rcases hrun : (Patch.apply d.setting operation).run (before, row) with ⟨error | _, after, last⟩
  · have hid : row.id = .numbered 1 := Tables.id_of_find? hfind
    obtain ⟨done, path, value, rest, middle, reached, hmembers, hdone, -, -, hiff⟩ :=
      failed_pathless_operation_leaves_tables_iff d history row [] .replace
        [("id", .text "x")] error before after row last (hid ▸ hfind) rfl (by decide) hrun
    obtain rfl : done = [] := by
      cases done with
      | nil => rfl
      | cons => simp at hmembers
    cases hdone
    exact ⟨row, error, after, last, hfind, hrun, hiff.mpr rfl⟩
  · rw [hrun] at hfailed
    cases hfailed

/-- A replacement that renames a group and then names a read-only attribute is refused as a whole,
and the group keeps the new name. -/
theorem failed_pathless_operation_renames_team :
    let d : Directory := ⟨Config.standard, Stamp.utf8 "salt", Filter.parse⟩
    let history : List (Instant × Command) :=
      [(.ofSeconds 0, @Command.create .group none (Group.named "Team"))]
    let before := d.serveAll history (World.fresh Tables.empty)
    let operation : Operation :=
      ⟨.replace, none, .object [("displayName", .text "Crew"), ("id", .text "x")]⟩
    ∃ row error, before.store.find? .group (.numbered 1) = some row ∧
      ((Patch.apply d.setting operation).run (before, row)).1 = .error error ∧
      ((Patch.apply d.setting operation).run (before, row)).2.1.store ≠ before.store := by
  intro d history before operation
  have hrenames : (before.store.find? .group (.numbered 1)).any (fun row =>
      let result := (Patch.apply d.setting operation).run (before, row)
      !result.1.isOk && result.2.1.store.groups ≠ before.store.groups) = true := by decide +kernel
  obtain ⟨row, hfind, hboth⟩ := (Option.any_eq_true _ _).mp hrenames
  obtain ⟨hfailed, hchanged⟩ := Bool.and_eq_true_iff.mp hboth
  cases hanswer : ((Patch.apply d.setting operation).run (before, row)).1 with
  | error error =>
    exact ⟨row, error, hfind, hanswer,
      fun hsame => of_decide_eq_true hchanged (congrArg Tables.groups hsame)⟩
  | ok _ =>
    rw [hanswer] at hfailed
    cases hfailed

end ScimDirectory
