import ScimDirectory.Proofs.Traversal
import ScimDirectory.Store.Call

/-!
# Runs of calls

What a call leaves behind, step by step. A call that fails at its first part is not carried on, and
what that part has done stays done. So a call stays where it is when it fails only if nothing is
changed before its last check, or what is changed comes to nothing. Calls that write all that they
write at once, or nothing, are what the calls of a storage come to.
-/

namespace ScimDirectory

section

variable {ε S α β : Type} {a : ExceptT ε (StateM S) α} {s s' : S}

theorem run_pure (x : α) (s : S) : (pure x : ExceptT ε (StateM S) α).run s = (.ok x, s) := rfl

/-- A run is carried on from where its first part succeeds. -/
theorem run_bind_of_ok {x : α} (h : a.run s = (.ok x, s')) (f : α → ExceptT ε (StateM S) β) :
    (a >>= f).run s = (f x).run s' := by
  change (ExceptT.bindCont f (a.run s).1) (a.run s).2 = _
  rw [h]
  rfl

/-- A run is not carried on when its first part fails. -/
theorem run_bind_of_error {e : ε} (h : a.run s = (.error e, s')) (f : α → ExceptT ε (StateM S) β) :
    (a >>= f).run s = (.error e, s') := by
  change (ExceptT.bindCont f (a.run s).1) (a.run s).2 = _
  rw [h]
  rfl

/-- A run in two parts that succeeds has succeeded in both. -/
theorem run_bind_eq_ok {f : α → ExceptT ε (StateM S) β} {y : β}
    (h : (a >>= f).run s = (.ok y, s')) :
    ∃ x middle, a.run s = (.ok x, middle) ∧ (f x).run middle = (.ok y, s') := by
  rcases hrun : a.run s with ⟨e | x, middle⟩
  · rw [run_bind_of_error hrun] at h
    cases h
  · exact ⟨x, middle, rfl, (run_bind_of_ok hrun f).symm.trans h⟩

/-- Wrapping what a run answers changes nothing that it leaves. -/
theorem run_bind_pure (a : ExceptT ε (StateM S) α) (f : α → β) (s : S) :
    (a >>= fun x => pure (f x)).run s = ((a.run s).1.map f, (a.run s).2) := by
  rcases h : a.run s with ⟨e | x, s'⟩
  · exact run_bind_of_error h _
  · exact run_bind_of_ok h _

/-- A run that fails ends where it starts. -/
def StaysOnFailure (a : ExceptT ε (StateM S) α) : Prop :=
  ∀ ⦃s error s'⦄, a.run s = (.error error, s') → s' = s

theorem StaysOnFailure.after_eq (h : StaysOnFailure a) (hfail : (a.run s).1.isOk = false) :
    (a.run s).2 = s := by
  rcases hrun : a.run s with ⟨error | x, s'⟩
  · exact h hrun
  · rw [hrun] at hfail
    cases hfail

end

namespace Call

variable {σ α β : Type}

/-- Calls with the same runs are the same. -/
theorem ext_run {c d : Call σ α} (h : ∀ s, c.run s = d.run s) : c = d := funext h

theorem run_reading_bind (read : σ → Except StoreError α) (f : α → Call σ β) (s : σ) :
    (reading read >>= f).run s =
      match read s with
      | .ok x => (f x).run s
      | .error e => (.error e, s) := by
  change (ExceptT.bindCont f (read s)) s = _
  cases read s <;> rfl

theorem run_require_bind (test : σ → Bool) (error : StoreError) (f : Unit → Call σ β) (s : σ) :
    (require test error >>= f).run s = if test s then (f ()).run s else (.error error, s) := by
  change (ExceptT.bindCont f (if test s then .ok () else .error error)) s = _
  split <;> rfl

theorem run_look_bind (view : σ → α) (f : α → Call σ β) (s : σ) :
    (look view >>= f).run s = (f (view s)).run s := rfl

theorem run_change_bind (change' : σ → σ) (f : Unit → Call σ β) (s : σ) :
    (change change' >>= f).run s = (f ()).run (change' s) := rfl

/-- A call that writes unless it fails. -/
def writing (write : σ → Except StoreError (α × σ)) : Call σ α := fun s =>
  match write s with
  | .error error => (.error error, s)
  | .ok (a, s) => (.ok a, s)

/-- A call that always writes. -/
def always (write : σ → α × σ) : Call σ α := fun s =>
  let (a, s) := write s
  (.ok a, s)

theorem run_writing (write : σ → Except StoreError (α × σ)) (s : σ) :
    (writing write).run s =
      match write s with
      | .error error => (.error error, s)
      | .ok (a, s) => (.ok a, s) := rfl

theorem run_always (write : σ → α × σ) (s : σ) :
    (always write).run s = (.ok (write s).1, (write s).2) := rfl

theorem run_writing_eq_ok {write : σ → Except StoreError (α × σ)} {s s' : σ} {a : α} :
    (writing write).run s = (.ok a, s') ↔ write s = .ok (a, s') := by
  rw [run_writing]
  cases write s with
  | error error => exact iff_of_false (fun h => nomatch h) (fun h => nomatch h)
  | ok written =>
    obtain ⟨b, t⟩ := written
    rw [Prod.mk.injEq, Except.ok.injEq, Except.ok.injEq, Prod.mk.injEq]

/-- A call that writes at once leaves what there was when it fails. -/
theorem writing_staysOnFailure (write : σ → Except StoreError (α × σ)) :
    StaysOnFailure (writing write) := by
  intro s error s' h
  rw [run_writing] at h
  cases hwrite : write s with
  | error e =>
    rw [hwrite] at h
    exact (congrArg Prod.snd h).symm
  | ok written =>
    rw [hwrite] at h
    cases h

end Call

namespace StaysOnFailure

variable {ε ε' S κ α : Type}

/-- What is done on a part of a state leaves the whole state when it fails, if it leaves the part,
however its error is told. -/
theorem of_part {a : ExceptT ε (StateM κ) α} (h : StaysOnFailure a) (slot : Slot S κ)
    (wrap : ε → ε') {b : ExceptT ε' (StateM S) α}
    (hrun : ∀ s, b.run s =
      ((a.run (slot.get s)).1.mapError wrap, slot.put s (a.run (slot.get s)).2)) :
    StaysOnFailure b := by
  intro s error s' hfail
  rw [hrun] at hfail
  rcases hpart : a.run (slot.get s) with ⟨e | x, part⟩
  · rw [hpart] at hfail
    cases hfail
    rw [h hpart]
    exact slot.put_get s
  · rw [hpart] at hfail
    cases hfail

/-- A call on a part is one on the whole state. -/
theorem slot {c : Call κ α} (h : StaysOnFailure c) (slot : Slot S κ) :
    StaysOnFailure (slot.call c) := by
  refine h.of_part slot id fun s => ?_
  have hcall : (slot.call c).run s =
      ((c.run (slot.get s)).1, slot.put s (c.run (slot.get s)).2) := rfl
  rw [hcall]
  cases (c.run (slot.get s)).1 <;> rfl

end StaysOnFailure

end ScimDirectory
