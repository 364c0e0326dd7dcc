import ScimDirectory.Filter.Compile
import ScimDirectory.Predicate.Evaluate

/-!
# Evaluating joined predicates

Evaluation stops at the first part that decides, so the answers of the parts are taken in turn, and
a part that cannot be evaluated matters only when all parts before it leave the answer open. Taking
answers in turn is associative and has the open answer as its unit. Splicing the parts of a
conjunction into another one and leaving a single part unwrapped therefore keep every answer, and so
they do for disjunctions. A test that succeeds on all elements decides a search among them.
-/

namespace ScimDirectory

/-- A search among elements that can all be tested. -/
theorem anyWhere_eq_ok {α : Type} {test : α → Except StoreError Bool} {f : α → Bool} {xs : List α}
    (h : ∀ x ∈ xs, test x = .ok (f x)) : anyWhere test xs = .ok (xs.any f) := by
  induction xs with
  | nil => rfl
  | cons x xs ih =>
    rw [anyWhere, h x List.mem_cons_self, List.any_cons]
    cases hx : f x with
    | true => rfl
    | false => exact ih fun y hy => h y (List.mem_cons_of_mem x hy)

namespace Connective

/-- The answer that leaves a connective open. -/
def neutral : Connective → Bool
  | and => true
  | or => false

/-- Two answers in turn: the second one counts only when the first leaves the connective open. -/
def inTurn (connective : Connective) :
    Except StoreError Bool → Except StoreError Bool → Except StoreError Bool
  | .ok b, second => if b = connective.neutral then second else .ok b
  | .error e, _ => .error e

variable (connective : Connective)

theorem inTurn_neutral (answer : Except StoreError Bool) :
    connective.inTurn answer (.ok connective.neutral) = answer := by
  cases answer with
  | error e => rfl
  | ok b =>
    rw [inTurn]
    split
    · next h => rw [h]
    · rfl

theorem inTurn_assoc (first second third : Except StoreError Bool) :
    connective.inTurn (connective.inTurn first second) third =
      connective.inTurn first (connective.inTurn second third) := by
  cases first with
  | error e => rfl
  | ok b =>
    by_cases h : b = connective.neutral
    · simp only [inTurn, if_pos h]
    · simp only [inTurn, if_neg h]

end Connective

namespace Predicate

/-- Parts under a connective, as they are. -/
def under : Connective → List Predicate → Predicate
  | .and => .and
  | .or => .or

/-- Parts under a connective; a single one is not wrapped. -/
def ofList : Connective → List Predicate → Predicate
  | .and => allOf
  | .or => anyOf

variable (connective : Connective) (view : RowView)

/-- Without parts the connective stays open. -/
theorem evaluate_under_nil :
    evaluate (under connective []) view = .ok connective.neutral := by
  cases connective <;> simp only [under, evaluate, evaluateAll, evaluateAny, Connective.neutral]

/-- The first part answers before the others. -/
theorem evaluate_under_cons (p : Predicate) (ps : List Predicate) :
    evaluate (under connective (p :: ps)) view =
      connective.inTurn (evaluate p view) (evaluate (under connective ps) view) := by
  cases connective with
  | and =>
    simp only [under, evaluate, evaluateAll]
    rcases evaluate p view with _ | _ | _ <;> rfl
  | or =>
    simp only [under, evaluate, evaluateAny]
    rcases evaluate p view with _ | _ | _ <;> rfl

/-- Parts are evaluated by taking their answers in turn. -/
theorem evaluate_under (ps : List Predicate) :
    evaluate (under connective ps) view =
      (ps.map (evaluate · view)).foldr connective.inTurn (.ok connective.neutral) := by
  induction ps with
  | nil => exact evaluate_under_nil connective view
  | cons p ps ih => rw [evaluate_under_cons, ih, List.map_cons, List.foldr_cons]

/-- The parts of a first list answer before those of a second one. -/
theorem evaluate_under_append (ps qs : List Predicate) :
    evaluate (under connective (ps ++ qs)) view =
      connective.inTurn (evaluate (under connective ps) view)
        (evaluate (under connective qs) view) := by
  induction ps with
  | nil => rw [evaluate_under_nil, Connective.inTurn, if_pos rfl, List.nil_append]
  | cons p ps ih =>
    rw [List.cons_append, evaluate_under_cons, ih, evaluate_under_cons, Connective.inTurn_assoc]

/-- A single part is evaluated under a connective as it is alone. -/
theorem evaluate_under_singleton (p : Predicate) :
    evaluate (under connective [p]) view = evaluate p view := by
  rw [evaluate_under_cons, evaluate_under_nil, Connective.inTurn_neutral]

/-- Leaving a single part unwrapped changes no answer. -/
theorem evaluate_ofList (ps : List Predicate) :
    evaluate (ofList connective ps) view = evaluate (under connective ps) view := by
  rcases ps with _ | ⟨p, _ | ⟨q, ps⟩⟩
  · cases connective <;> rfl
  · rw [evaluate_under_singleton]
    cases connective <;> rfl
  · cases connective <;> rfl

/-- The parts of a predicate are evaluated together as the predicate is. -/
theorem evaluate_under_parts (p : Predicate) :
    evaluate (under connective (Filter.parts connective p)) view = evaluate p view := by
  cases connective <;> cases p <;> first | exact evaluate_under_singleton _ view _ | rfl

/-- A merged predicate answers like its sides in turn. -/
theorem evaluate_merge (p q : Predicate) :
    evaluate (Filter.merge connective p q) view =
      connective.inTurn (evaluate p view) (evaluate q view) := by
  have hmerge : Filter.merge connective p q =
      under connective (Filter.parts connective p ++ Filter.parts connective q) := by
    cases connective <;> rfl
  rw [hmerge, evaluate_under_append, evaluate_under_parts, evaluate_under_parts]

end Predicate

/-- On every row, with whatever is related to it, two predicates of any shape that are merged under
a connective answer as their answers in turn: the second one is asked only when the first leaves the
connective open, and the first error that is reached is the answer. Parts are evaluated by taking
their answers in turn too, and whether a single part is wrapped does not matter. -/
theorem joined_predicates_answer_in_turn (connective : Connective) (view : RowView) :
    (∀ p q : Predicate, (Filter.merge connective p q).evaluate view =
      connective.inTurn (p.evaluate view) (q.evaluate view)) ∧
    ∀ ps : List Predicate,
      (Predicate.ofList connective ps).evaluate view =
        (Predicate.under connective ps).evaluate view ∧
      (Predicate.under connective ps).evaluate view =
        (ps.map (·.evaluate view)).foldr connective.inTurn (.ok connective.neutral) :=
  ⟨Predicate.evaluate_merge connective view, fun ps =>
    ⟨Predicate.evaluate_ofList connective view ps, Predicate.evaluate_under connective view ps⟩⟩

end ScimDirectory
