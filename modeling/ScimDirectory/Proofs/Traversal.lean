import Mathlib.Data.List.Forall2

/-!
# Traversals that may fail

A traversal in `Except` succeeds exactly when each of its steps does, and then its results belong
to its arguments one by one.
-/

namespace ScimDirectory

variable {α β γ ε : Type}

/-- Success of a bind is success of both of its parts. -/
theorem except_bind_eq_ok {x : Except ε α} {f : α → Except ε β} {b : β} :
    x >>= f = .ok b ↔ ∃ a, x = .ok a ∧ f a = .ok b := by
  cases x with
  | error e => simp [bind, Except.bind]
  | ok a => simp [bind, Except.bind]

/-- Failure of a bind is failure of the first part, or of the second after success of the first. -/
theorem except_bind_eq_error {x : Except ε α} {f : α → Except ε β} {e : ε} :
    x >>= f = .error e ↔ x = .error e ∨ ∃ a, x = .ok a ∧ f a = .error e := by
  cases x with
  | error e => simp [bind, Except.bind]
  | ok a => simp [bind, Except.bind]

/-- Success of a map is success of what is mapped. -/
theorem except_map_eq_ok {x : Except ε α} {f : α → β} {b : β} :
    x.map f = .ok b ↔ ∃ a, x = .ok a ∧ f a = b := by
  cases x with
  | error e => simp [Except.map]
  | ok a => simp [Except.map]

/-- A map succeeds when what is mapped does. -/
theorem exists_except_map_eq_ok {x : Except ε α} {f : α → β} :
    (∃ b, x.map f = .ok b) ↔ ∃ a, x = .ok a := by
  cases x with
  | error e => simp [Except.map]
  | ok a => simp [Except.map]

/-- Failure of a map is failure of what is mapped. -/
theorem except_map_eq_error {x : Except ε α} {f : α → β} {e : ε} :
    x.map f = .error e ↔ x = .error e := by
  cases x with
  | error e => simp [Except.map]
  | ok a => simp [Except.map]

theorem except_isOk_iff {x : Except ε α} : x.isOk = true ↔ ∃ a, x = .ok a := by
  cases x with
  | error e => simp [Except.isOk, Except.toBool]
  | ok a => simp [Except.isOk, Except.toBool]

/-- A success that comes with something else is told by its first part. -/
theorem eq_ok_mk_of_isOk {β : Type} {x : Except ε α × β} (h : x.1.isOk = true) :
    ∃ a, x = (.ok a, x.2) := by
  obtain ⟨answer, rest⟩ := x
  obtain ⟨a, rfl⟩ := except_isOk_iff.mp h
  exact ⟨a, rfl⟩

theorem except_toOption_eq_some {x : Except ε α} {a : α} : x.toOption = some a ↔ x = .ok a := by
  cases x with
  | error e => simp [Except.toOption]
  | ok b => simp [Except.toOption]

/-- Wrapping an error changes no success. -/
theorem except_mapError_eq_ok {ε' : Type} {x : Except ε α} {wrap : ε → ε'} {a : α} :
    x.mapError wrap = .ok a ↔ x = .ok a := by
  cases x with
  | error e => simp [Except.mapError]
  | ok a => simp [Except.mapError]

section Told

variable {ε' : Type} {tell : ε → ε'}

/-- Answers that are told alike are the same success, or failures that are told alike. -/
theorem cases_of_mapError_eq {x y : Except ε α} (h : x.mapError tell = y.mapError tell) :
    (∃ a, x = .ok a ∧ y = .ok a) ∨ ∃ e e', x = .error e ∧ y = .error e' ∧ tell e = tell e' := by
  cases x with
  | error e =>
    cases y with
    | error e' => exact .inr ⟨e, e', rfl, rfl, Except.error.inj h⟩
    | ok b => cases h
  | ok a =>
    cases y with
    | error e' => cases h
    | ok b => exact .inl ⟨a, rfl, congrArg Except.ok (Except.ok.inj h).symm⟩

/-- Answers that are told alike are alike under whatever is decided by how they are told. -/
theorem mapError_congr_of_seen {ε'' : Type} {x y : Except ε α} {f g : ε → ε''}
    (hxy : x.mapError tell = y.mapError tell) (hfg : ∀ e e', tell e = tell e' → f e = g e') :
    x.mapError f = y.mapError g := by
  obtain ⟨a, rfl, rfl⟩ | ⟨e, e', rfl, rfl, hseen⟩ := cases_of_mapError_eq hxy
  · rfl
  · exact congrArg Except.error (hfg e e' hseen)

/-- Binds are told alike when their parts are. -/
theorem mapError_bind_congr {x y : Except ε α} {f g : α → Except ε β}
    (hxy : x.mapError tell = y.mapError tell)
    (hfg : ∀ a, (f a).mapError tell = (g a).mapError tell) :
    (x >>= f).mapError tell = (y >>= g).mapError tell := by
  obtain ⟨a, rfl, rfl⟩ | ⟨e, e', rfl, rfl, hseen⟩ := cases_of_mapError_eq hxy
  · exact hfg a
  · exact congrArg Except.error hseen

/-- Maps are told alike when what is mapped is. -/
theorem mapError_map_congr {x y : Except ε α} (hxy : x.mapError tell = y.mapError tell)
    (f : α → β) : (x.map f).mapError tell = (y.map f).mapError tell :=
  mapError_bind_congr hxy fun _ => rfl

/-- Traversals are told alike when each of their steps is. -/
theorem mapError_mapM_congr {f g : α → Except ε β}
    (hfg : ∀ a, (f a).mapError tell = (g a).mapError tell) (xs : List α) :
    (xs.mapM f).mapError tell = (xs.mapM g).mapError tell := by
  induction xs with
  | nil => rfl
  | cons x xs ih =>
    rw [List.mapM_cons, List.mapM_cons]
    exact mapError_bind_congr (hfg x) fun _ => mapError_bind_congr ih fun _ => rfl

/-- What is there or not is gone through alike after a change that each step is told alike under. -/
theorem mapError_mapM_option_map {f : α → Except ε β} {low : α → α}
    (hlow : ∀ a, (f (low a)).mapError tell = (f a).mapError tell) (x : Option α) :
    ((x.map low).mapM f).mapError tell = (x.mapM f).mapError tell := by
  cases x with
  | none => rfl
  | some a => exact mapError_map_congr (hlow a) some

end Told

/-- A check of all elements that succeeds has passed each of them. -/
theorem ok_of_forM {f : α → Except ε Unit} {xs : List α} (h : xs.forM f = .ok ()) :
    ∀ x ∈ xs, f x = .ok () := by
  induction xs with
  | nil => exact fun _ hmem => nomatch hmem
  | cons x xs ih =>
    rw [List.forM_eq_forM, List.forM_cons] at h
    obtain ⟨_, hfirst, hrest⟩ := except_bind_eq_ok.mp h
    exact List.forall_mem_cons.mpr ⟨hfirst, ih hrest⟩

/-- A check of all elements that fails has failed at one of them. -/
theorem error_of_forM {f : α → Except ε Unit} {xs : List α} {e : ε} (h : xs.forM f = .error e) :
    ∃ x ∈ xs, f x = .error e := by
  induction xs with
  | nil => cases h
  | cons x xs ih =>
    rw [List.forM_eq_forM, List.forM_cons] at h
    rcases except_bind_eq_error.mp h with hfirst | ⟨_, -, hrest⟩
    · exact ⟨x, List.mem_cons_self, hfirst⟩
    · obtain ⟨y, hmem, hy⟩ := ih hrest
      exact ⟨y, List.mem_cons_of_mem x hmem, hy⟩

/-- A traversal relates its arguments to its results one by one. -/
theorem mapM_eq_ok_iff {f : α → Except ε β} {xs : List α} {ys : List β} :
    xs.mapM f = .ok ys ↔ List.Forall₂ (fun x y => f x = .ok y) xs ys := by
  induction xs generalizing ys with
  | nil => cases ys <;> simp [pure, Except.pure]
  | cons x xs ih =>
    rw [List.mapM_cons, except_bind_eq_ok]
    constructor
    · rintro ⟨y, hy, h⟩
      obtain ⟨rest, hrest, h⟩ := except_bind_eq_ok.mp h
      cases h
      exact .cons hy (ih.mp hrest)
    · rintro (_ | ⟨hy, hrest⟩)
      exact ⟨_, hy, except_bind_eq_ok.mpr ⟨_, ih.mpr hrest, rfl⟩⟩

/-- A traversal succeeds when each of its steps does. -/
theorem exists_mapM_eq_ok {f : α → Except ε β} {R : α → β → Prop} {xs : List α}
    (h : ∀ x ∈ xs, ∃ y, f x = .ok y ∧ R x y) :
    ∃ ys, xs.mapM f = .ok ys ∧ List.Forall₂ R xs ys := by
  induction xs with
  | nil => exact ⟨[], rfl, .nil⟩
  | cons x xs ih =>
    obtain ⟨y, hy, hR⟩ := h x List.mem_cons_self
    obtain ⟨ys, hys, hall⟩ := ih fun x' hmem => h x' (List.mem_cons_of_mem x hmem)
    refine ⟨y :: ys, ?_, .cons hR hall⟩
    rw [List.mapM_cons, hy, hys]
    rfl

/-- Each of the results is that of an argument. -/
theorem exists_left_of_forall₂ {R : α → β → Prop} {xs : List α} {ys : List β}
    (h : List.Forall₂ R xs ys) {y : β} (hmem : y ∈ ys) : ∃ x ∈ xs, R x y := by
  induction h with
  | nil => cases hmem
  | cons hfirst _ ih =>
    rcases List.mem_cons.mp hmem with rfl | hmem
    · exact ⟨_, List.mem_cons_self, hfirst⟩
    · obtain ⟨x, hx, hR⟩ := ih hmem
      exact ⟨x, List.mem_cons_of_mem _ hx, hR⟩

/-- Each of the arguments has a result. -/
theorem exists_right_of_forall₂ {R : α → β → Prop} {xs : List α} {ys : List β}
    (h : List.Forall₂ R xs ys) {x : α} (hmem : x ∈ xs) : ∃ y ∈ ys, R x y := by
  induction h with
  | nil => cases hmem
  | cons hfirst _ ih =>
    rcases List.mem_cons.mp hmem with rfl | hmem
    · exact ⟨_, List.mem_cons_self, hfirst⟩
    · obtain ⟨y, hy, hR⟩ := ih hmem
      exact ⟨y, List.mem_cons_of_mem _ hy, hR⟩

/-- Results that two lists of places give for the same arguments are combined place by place. -/
theorem forall₂_zipWith {R S T : α → β → Prop} {combine : β → β → β}
    (hcombine : ∀ x p q, R x p → S x q → T x (combine p q)) {xs : List α} {ps qs : List β}
    (hp : List.Forall₂ R xs ps) (hq : List.Forall₂ S xs qs) :
    List.Forall₂ T xs (ps.zipWith combine qs) := by
  induction hp generalizing qs with
  | nil => cases hq; exact .nil
  | cons h _ ih =>
    cases hq with
    | cons hq hqs => exact .cons (hcombine _ _ _ h hq) (ih hqs)

end ScimDirectory
