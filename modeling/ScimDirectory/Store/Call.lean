import ScimDirectory.Store.Error

/-!
# Calls

A call changes a state in place, step after step, and may fail between two steps. One that fails
leaves all that it has changed until then: nothing is put back.
-/

namespace ScimDirectory

/-- A call that changes a state in place. -/
abbrev Call (σ α : Type) := ExceptT StoreError (StateM σ) α

namespace Call

variable {σ α : Type}

/-- A call that reads. -/
def reading (read : σ → Except StoreError α) : Call σ α := fun s => (read s, s)

/-- Looks at the state. -/
def look (view : σ → α) : Call σ α := fun s => (.ok (view s), s)

/-- Fails unless the state passes a test. -/
def require (test : σ → Bool) (error : StoreError) : Call σ Unit := fun s =>
  (if test s then .ok () else .error error, s)

/-- Changes the state. -/
def change (f : σ → σ) : Call σ Unit := fun s => (.ok (), f s)

end Call

/-- A part of a state that can be looked at and changed by itself. -/
structure Slot (σ κ : Type) where
  /-- The part. -/
  get : σ → κ
  /-- The state with another part. -/
  put : σ → κ → σ
  /-- Putting the part back changes nothing. -/
  put_get : ∀ s, put s (get s) = s := by intro s; rfl

/-- A call on a part of a state, which keeps what the call leaves of the part. -/
def Slot.call {σ κ α : Type} (slot : Slot σ κ) (c : Call κ α) : Call σ α := fun s =>
  let (answer, part) := c.run (slot.get s)
  (answer, slot.put s part)

end ScimDirectory
