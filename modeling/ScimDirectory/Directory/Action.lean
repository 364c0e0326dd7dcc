import ScimDirectory.Directory.Error
import ScimDirectory.Store.Storage

/-!
# Actions

What happens in a use of the directory: calls on storage, draws of keys, and notes of hooks. An
action that fails keeps what it has done so far.
-/

namespace ScimDirectory

/-- All that a use of the directory may change. -/
structure World (σ : Type) where
  /-- The storage. -/
  store : σ
  /-- How many resources have been given a number as their identifier. -/
  issued : Nat
  /-- How often keys of items have been drawn. -/
  draws : Nat
  /-- What hooks have noted, the oldest first. -/
  notes : List String

/-- A storage in which nothing has been done yet. -/
def World.fresh {σ : Type} (store : σ) : World σ := ⟨store, 0, 0, []⟩

/-- A step in a use of the directory. -/
abbrev Action (σ α : Type) := ExceptT DirectoryError (StateM (World σ)) α

namespace Action

variable {σ α : Type}

/-- A call on storage. -/
def call (c : Call σ α) : Action σ α := fun w =>
  let (answer, store) := c.run w.store
  (answer.mapError .storage, { w with store })

/-- A check. -/
def check {ε : Type} (wrap : ε → DirectoryError) (answer : Except ε α) : Action σ α := fun w =>
  (answer.mapError wrap, w)

/-- A check whose error is the directory's own. -/
def ensure (answer : Except DirectoryError α) : Action σ α := fun w => (answer, w)

/-- The number of a new draw of keys. -/
def draw : Action σ Nat := fun w => (.ok w.draws, { w with draws := w.draws + 1 })

/-- Keeps notes. -/
def note (notes : List String) : Action σ Unit := fun w =>
  (.ok (), { w with notes := w.notes ++ notes })

end Action
end ScimDirectory
