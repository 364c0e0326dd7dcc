import ScimDirectory.Directory.Command
import ScimDirectory.Proofs.Store.InPlace

/-!
# Runs of actions

What an action leaves behind, step by step, as a call does. Reading and checking change nothing, and
a draw changes nothing that is stored.
-/

namespace ScimDirectory

section

variable {σ α β ε : Type}

/-- A check goes on with what it has checked, or is the end. -/
theorem Action.run_check_bind (wrap : ε → DirectoryError) (answer : Except ε α)
    (f : α → Action σ β) (w : World σ) :
    (Action.check wrap answer >>= f).run w =
      match answer with
      | .ok x => (f x).run w
      | .error e => (.error (wrap e), w) := by
  cases answer <;> rfl

theorem Action.run_ensure_bind (answer : Except DirectoryError α) (f : α → Action σ β)
    (w : World σ) :
    (Action.ensure answer >>= f).run w =
      match answer with
      | .ok x => (f x).run w
      | .error e => (.error e, w) := by
  cases answer <;> rfl

theorem Action.run_draw_bind (f : Nat → Action σ β) (w : World σ) :
    (Action.draw >>= f).run w = (f w.draws).run { w with draws := w.draws + 1 } := rfl

/-- A call that reads goes on with its answer from where it was. -/
theorem Action.run_reading_bind (read : σ → Except StoreError α) (f : α → Action σ β)
    (w : World σ) :
    (Action.call (.reading read) >>= f).run w =
      match read w.store with
      | .ok x => (f x).run w
      | .error e => (.error (.storage e), w) := by
  change (ExceptT.bindCont f ((read w.store).mapError DirectoryError.storage)) w = _
  cases read w.store <;> rfl

theorem Action.run_call (c : Call σ α) (w : World σ) :
    (Action.call c).run w =
      ((c.run w.store).1.mapError .storage, { w with store := (c.run w.store).2 }) := rfl

/-- A call on storage leaves the world as it was if the call leaves storage as it was. -/
theorem StaysOnFailure.call {c : Call σ α} (h : StaysOnFailure c) :
    StaysOnFailure (Action.call c) :=
  h.of_part (.mk World.store fun w store => { w with store }) .storage (Action.run_call c)

/-- A call that writes at once leaves what it has written, or nothing new when it fails. -/
theorem Action.run_writing {c : Call σ α} {write : σ → Except StoreError (α × σ)}
    (hcall : c = .writing write) (w : World σ) :
    (Action.call c).run w =
      match write w.store with
      | .ok (x, store) => (.ok x, { w with store })
      | .error e => (.error (.storage e), w) := by
  rw [run_call, hcall, Call.run_writing]
  cases write w.store <;> rfl

theorem Action.run_writing_bind {c : Call σ α} {write : σ → Except StoreError (α × σ)}
    (hcall : c = .writing write) (f : α → Action σ β) (w : World σ) :
    (Action.call c >>= f).run w =
      match write w.store with
      | .ok (x, store) => (f x).run { w with store }
      | .error e => (.error (.storage e), w) := by
  have hrun := Action.run_writing hcall w
  cases hwrite : write w.store with
  | ok written =>
    rw [hwrite] at hrun
    exact run_bind_of_ok hrun f
  | error e =>
    rw [hwrite] at hrun
    exact run_bind_of_error hrun f

theorem Action.run_always_bind {c : Call σ α} {write : σ → α × σ} (hcall : c = .always write)
    (f : α → Action σ β) (w : World σ) :
    (Action.call c >>= f).run w =
      (f (write w.store).1).run { w with store := (write w.store).2 } := by
  rw [hcall]
  rfl

end

end ScimDirectory
