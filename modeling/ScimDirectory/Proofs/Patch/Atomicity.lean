import ScimDirectory.Proofs.Directory.Commands
import ScimDirectory.Proofs.Store.Records

/-!
# Operations with a path

An operation that carries a path stands for one write, however many calls on storage it takes:
everything that can be refused is refused before the first of them. So a failure leaves storage
as the operation has found it, at whatever point of a patch the operation stands.
-/

namespace ScimDirectory

namespace Patch

variable {d : Directory} {type : ResourceType} {w : World Tables} {row : Row type}

/-- Whatever it does, an operation with a path is one write or none. -/
theorem apply_outcome_of_path (hsound : w.store.Sound w.draws)
    (hfind : w.store.find? type row.id = some row) {operation : Operation} {path : String}
    (hpath : operation.path = some path) :
    Outcome d w row ((apply d.setting operation).run (w, row)) := by
  have happlied : ∀ {f : Target → Json → Step Tables type Unit}, OneWrite d type f →
      Outcome d w row ((applyValue d.setting f operation).run (w, row)) := by
    intro f hf
    unfold applyValue
    rw [hpath]
    exact applyAt_outcome hf hsound hfind path operation.value
  unfold apply
  cases operation.kind with
  | add => exact happlied addTo_oneWrite
  | remove =>
    dsimp only [remove]
    rw [hpath]
    exact applyAt_outcome removeAt_oneWrite hsound hfind path operation.value
  | replace => exact happlied replaceAt_oneWrite

/-- What fails in one write has not written. -/
theorem Outcome.store_eq {result : Except DirectoryError Unit × World Tables × Row type}
    (h : Outcome d w row result) {error : DirectoryError} (hfailed : result.1 = .error error) :
    result.2.1.store = w.store := by
  cases h with
  | failed hstore => exact hstore
  | written => cases hfailed

end Patch

/-- In every directory that can be reached, and at every point of a patch of a stored resource, an
operation with a path that fails leaves the tables as they were, whatever its path and its
value. -/
theorem failed_operation_leaves_tables (d : Directory) (history : List (Instant × Command))
    {type : ResourceType} (row : Row type) (earlier : List Operation) (operation : Operation)
    (path : String) (error : DirectoryError) (w : World Tables) (current : Row type)
    (hfind : (d.serveAll history (World.fresh Tables.empty)).store.find? type row.id = some row)
    (hearlier : (Patch.applyAll d.setting earlier).run
      (d.serveAll history (World.fresh Tables.empty), row) = (.ok (), w, current))
    (hpath : operation.path = some path)
    (hfailed : ((Patch.apply d.setting operation).run (w, current)).1 = .error error) :
    ((Patch.apply d.setting operation).run (w, current)).2.1.store = w.store := by
  have hsound : (d.serveAll history (World.fresh Tables.empty)).store.Sound
      (d.serveAll history (World.fresh Tables.empty)).draws :=
    Directory.serveAll_sound (Tables.sound_empty 0) history
  have htrace := Patch.applyAll_trace (d := d) hsound hfind earlier
  rw [hearlier] at htrace
  have hstored : w.store.find? type current.id = some current := by
    have hid : current.id = row.id := htrace.same.id
    rw [hid]
    exact htrace.stored rfl
  exact (Patch.apply_outcome_of_path (Directory.Writes.sound htrace.writes hsound) hstored
    hpath).store_eq hfailed

/-- The second address of a replacement is a preferred one too: the address that is stored is not
deleted, although the replacement of a collection deletes before it links. -/
theorem failed_operation_leaves_tables_of_two_preferred :
    let d : Directory := ⟨Config.standard, Stamp.utf8 "salt", Filter.parse⟩
    let alice : User := { User.named "alice" with
      values := fun c => if c = .emails then [.ofValue "al@example.com"] else [] }
    let history : List (Instant × Command) := [(.ofSeconds 0, @Command.create .user none alice)]
    let before := d.serveAll history (World.fresh Tables.empty)
    let row : Row .user :=
      (@Directory.recordOf d .user alice (.numbered 1) (.ofSeconds 0) (.ofSeconds 0) 0).row
    let mail (value : String) : Json :=
      .object [("primary", .bool true), ("value", .text value)]
    let operation :=
      Operation.replace "emails" (.array [mail "a@example.com", mail "b@example.com"])
    before.store.find? .user row.id = some row ∧
      (Patch.applyAll d.setting []).run (before, row) = (.ok (), before, row) ∧
      operation.path = some "emails" ∧
      ((Patch.apply d.setting operation).run (before, row)).1 =
        .error (.violation (.multiplePrimary "emails")) ∧
      ((Patch.apply d.setting operation).run (before, row)).2.1.store = before.store := by
  intro d alice history before row mail operation
  obtain ⟨stored, after, hwrite⟩ : ∃ stored after, Tables.empty.insert
      (@Directory.recordOf d .user alice (.numbered 1) (.ofSeconds 0) (.ofSeconds 0) 0) =
        .ok (stored, after) :=
    Tables.insert_eq rfl rfl rfl
  have hstock : before.stock = (after, 1) := by
    have hserved := d.serve_world (.ofSeconds 0) (@Command.create .user none alice)
      (World.fresh Tables.empty)
    rw [show before = _ from hserved]
    exact @Directory.stock_create d .user (World.fresh Tables.empty) _ _ _ (by decide) _ _ hwrite
  have hfind : before.store.find? .user row.id = some row := by
    rw [show before.store = after from congrArg Prod.fst hstock]
    exact (Tables.find?_insert hwrite).1
  have hfailed : ((Patch.apply d.setting operation).run (before, row)).1 =
      .error (.violation (.multiplePrimary "emails")) := by decide +kernel
  exact ⟨hfind, rfl, rfl, hfailed,
    failed_operation_leaves_tables d history row [] operation "emails" _ before row hfind rfl rfl
      hfailed⟩

end ScimDirectory
