import ScimDirectory.Proofs.Store.History

/-!
# Idle calls

Calls change storage in place, step after step, and nothing puts back what a failing one has
changed. Still a call that fails leaves storage as it was, and so does a call that only asks, the
search for a single item among them: what is asked later is answered as if the call had never been
made.
-/

namespace ScimDirectory

namespace StoreCall

/-- The calls of a history, each with its answer. -/
def answers : List StoreCall → Tables → List ((c : StoreCall) × Except StoreError c.Answer)
  | [], _ => []
  | c :: calls, tables => ⟨c, c.answer tables⟩ :: answers calls (c.step tables)

/-- Whether a call only asks. -/
def asks : StoreCall → Bool
  | .get .. | .query .. | .queryItems .. => true
  | _ => false

/-- Every call that fails leaves the tables as they are, whatever its steps have been. -/
theorem call_staysOnFailure (c : StoreCall) : StaysOnFailure (c.call : Call Tables c.Answer) := by
  rw [call_eq_atOnce]
  cases c with
  | insert | replace | update | insertItem | updateItem => exact Call.writing_staysOnFailure _
  | get | query | queryItems => exact fun _ _ _ h => (congrArg Prod.snd h).symm
  | delete | deleteItems | deleteAllItems => exact fun _ _ _ h => nomatch h

/-- A call that only asks or that fails leaves the tables as they are. -/
theorem step_eq_self {tables : Tables} {c : StoreCall}
    (h : c.asks = true ∨ (c.answer tables).isOk = false) : c.step tables = tables := by
  rcases h with hasks | hfails
  · cases c <;> first | rfl | cases hasks
  · exact c.call_staysOnFailure.after_eq hfails

end StoreCall

/-- Looking for the single item of an owner leaves the tables as they are, whatever is found. -/
theorem Storage.run_onlyItem (relation : Relation) (owner : Uuid) (p : Predicate)
    (tables : Tables) : ((Storage.onlyItem relation owner p).run tables).2 = tables := by
  have hquery : (Storage.queryItems relation owner (some p) : Call Tables _).run tables =
      (tables.queryItems relation owner (some p), tables) := rfl
  unfold Storage.onlyItem
  cases hitems : tables.queryItems relation owner (some p) with
  | error error =>
    rw [hitems] at hquery
    rw [run_bind_of_error hquery]
  | ok items =>
    rw [hitems] at hquery
    rw [run_bind_of_ok hquery]
    rcases items with _ | ⟨item, _ | ⟨other, rest⟩⟩ <;> rfl

/-- Whatever is stored, a call that fails and a call that only asks leave no trace, and neither does
the search for a single item: all later calls get the answers that they would get without it, and
storage counts what it would count. -/
theorem idle_calls_leave_no_trace (tables : Tables) (later : List StoreCall) :
    (∀ c : StoreCall, c.asks = true ∨ (c.answer tables).isOk = false →
      StoreCall.answers later (c.step tables) = StoreCall.answers later tables ∧
        (StoreCall.steps later (c.step tables)).sizes = (StoreCall.steps later tables).sizes) ∧
    ∀ relation owner p,
      let after := ((Storage.onlyItem relation owner p).run tables).2
      StoreCall.answers later after = StoreCall.answers later tables ∧
        (StoreCall.steps later after).sizes = (StoreCall.steps later tables).sizes := by
  refine ⟨fun c hidle => ?_, fun relation owner p => ?_⟩
  · rw [StoreCall.step_eq_self hidle]
    exact ⟨rfl, rfl⟩
  · intro after
    have hsame : after = tables := Storage.run_onlyItem relation owner p tables
    rw [hsame]
    exact ⟨rfl, rfl⟩

/-- The replacement of a user by one with the name of another user is refused, and the items that
came with it are not found. -/
theorem idle_calls_leave_no_trace_of_taken_name :
    let row (key : Nat) (name : String) : Row .user :=
      UserRow.named (.numbered key) name (.ofSeconds 0)
    let tables := StoreCall.steps [@StoreCall.insert .user ⟨row 1 "alice", []⟩,
      @StoreCall.insert .user ⟨row 2 "bob", []⟩] Tables.empty
    let mail := ItemRow.blank (.given (.numbered 9)) (.numbered 2)
    let rename := @StoreCall.replace .user ⟨row 2 "Alice", [(.values .emails, [mail])]⟩
    let later := [.queryItems (.values .emails) (.numbered 2) none, .query .user none]
    (rename.answer tables).isOk = false ∧
      StoreCall.answers later (rename.step tables) = StoreCall.answers later tables ∧
      (StoreCall.steps later (rename.step tables)).sizes = [2, 0, 0] := by
  intro row tables mail rename later
  have hrefused : (rename.answer tables).isOk = false := by decide +kernel
  obtain ⟨hanswers, hsizes⟩ := (idle_calls_leave_no_trace tables later).1 rename (.inr hrefused)
  exact ⟨hrefused, hanswers, hsizes.trans (by decide +kernel)⟩

end ScimDirectory
