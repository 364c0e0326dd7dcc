import ScimDirectory.Proofs.Filter.Preservation
import ScimDirectory.Proofs.Text.Folding

/-!
# Matches that ignore case

Equal values stay equal when case is ignored. A text that stands in a value may be lost there: in
lower case the value has, in place of the text, what the text becomes between its neighbours,
and a capital sigma that ends the text may stand inside a word of the value. A match is kept at
every place whose neighbours change no capital sigma of the text, and a match at the start or at
the end, which has one place only, is kept at no other.
-/

namespace ScimDirectory

/-- A run of characters stands in a text between two others, where an occurrence asks for it. -/
def Occurrence.Stands (occurrence : Occurrence) (needle text before after : List Char) : Prop :=
  text = before ++ needle ++ after ∧
    match occurrence with
    | .anywhere => True
    | .atStart => before = []
    | .atEnd => after = []

namespace Occurrence

variable {occurrence : Occurrence}

/-- A run of characters occurs where it stands between two others. -/
theorem places_iff_stands {needle text : List Char} :
    occurrence.Places needle text ↔ ∃ before after, occurrence.Stands needle text before after := by
  cases occurrence with
  | anywhere =>
    constructor
    · rintro ⟨before, after, rfl⟩
      exact ⟨before, after, rfl, trivial⟩
    · rintro ⟨before, after, rfl, -⟩
      exact ⟨before, after, rfl⟩
  | atStart =>
    constructor
    · rintro ⟨after, rfl⟩
      exact ⟨[], after, rfl, rfl⟩
    · rintro ⟨before, after, rfl, rfl⟩
      exact ⟨after, rfl⟩
  | atEnd =>
    constructor
    · rintro ⟨before, rfl⟩
      exact ⟨before, [], (List.append_nil _).symm, rfl⟩
    · rintro ⟨before, after, rfl, rfl⟩
      exact ⟨before, (List.append_nil _).symm⟩

/-- In lower case a text stands at the place it had exactly when its neighbours change none of its
capital sigmas. -/
theorem stands_lowercase_iff {s t : String} {before after : List Char}
    (hstands : occurrence.Stands s.toList t.toList before after) :
    occurrence.Stands (Text.lowercase s).toList (Text.lowercase t).toList
        (Text.lowercaseBetween [] before (s.toList ++ after))
        (Text.lowercaseBetween (s.toList.reverse ++ before.reverse) after []) ↔
      Text.KeepsSigmas before s.toList after := by
  obtain ⟨htext, hplace⟩ := hstands
  rw [← Text.lowercaseBetween_eq_alone_iff]
  unfold Stands
  rw [Text.toList_lowercase_of_append htext, Text.toList_lowercase, List.append_left_inj,
    List.append_right_inj]
  refine and_iff_left ?_
  cases occurrence with
  | anywhere => trivial
  | atStart => subst hplace; rfl
  | atEnd => subst hplace; rfl

/-- A text that occurs at the start or at the end in lower case too stands between neighbours that
change none of its capital sigmas. -/
theorem keepsSigmas_of_places_lowercase {s t : String} {before after : List Char}
    (hfixed : occurrence ≠ .anywhere)
    (hstands : occurrence.Stands s.toList t.toList before after)
    (hplaces : occurrence.Places (Text.lowercase s).toList (Text.lowercase t).toList) :
    Text.KeepsSigmas before s.toList after := by
  obtain ⟨htext, hplace⟩ := hstands
  rw [← Text.lowercaseBetween_eq_alone_iff]
  rw [Text.toList_lowercase_of_append htext, Text.toList_lowercase] at hplaces
  -- What the text becomes between its neighbours and what it becomes alone are equally long, so
  -- at a fixed end of the value they are the same characters.
  have hlength : (Text.lowercaseBetween before.reverse s.toList after).length =
      (Text.lowercaseBetween [] s.toList []).length :=
    Text.length_lowercaseBetween ..
  cases occurrence with
  | anywhere => exact absurd rfl hfixed
  | atStart =>
    subst hplace
    obtain ⟨rest, hrest⟩ := hplaces
    rw [Text.lowercaseBetween, List.nil_append] at hrest
    exact (List.append_inj hrest hlength.symm).1.symm
  | atEnd =>
    subst hplace
    obtain ⟨rest, hrest⟩ := hplaces
    rw [Text.lowercaseBetween, List.append_nil] at hrest
    exact (List.append_inj' hrest hlength.symm).2.symm

end Occurrence

/-- A cell holds with case ignored what it holds as it is. -/
theorem cellEquals_folded {cell : Option Scalar} {value : Scalar}
    (h : cellEquals false cell value = true) : cellEquals true cell value = true := by
  unfold cellEquals at h ⊢
  split at h
  · rename_i s t
    have hst : s = t := by simpa [comparedChars, String.toList_inj] using h
    rw [hst]
    exact beq_self_eq_true _
  · exact h
  · cases h

namespace Predicate

variable {view : RowView} {column : Column}

/-- A value that a column holds is held when case is ignored. -/
theorem equals_folded {value : Scalar}
    (h : (equals column value false).evaluate view = .ok true) :
    (equals column value true).evaluate view = .ok true := by
  simp only [evaluate] at h ⊢
  cases hread : view.read column with
  | error e => rw [hread] at h; cases h
  | ok cell =>
    rw [hread, Except.map, Except.ok.injEq] at h
    rw [Except.map, cellEquals_folded h]

/-- A text occurs in a column that holds a text in which it occurs under the case rule, and in no
other. -/
theorem occurs_eq_true_iff {occurrence : Occurrence} {s : String} {foldCase : Bool} :
    (occurs occurrence column s foldCase).evaluate view = .ok true ↔
      ∃ t, view.cell column = some (some (.text t)) ∧
        occurrence.Places (comparedChars foldCase s) (comparedChars foldCase t) := by
  simp only [evaluate, RowView.read]
  rcases view.cell column with _ | _ | ⟨t | b⟩ <;>
    simp [Except.map, cellHolds, Filter.occurrence_holds_eq]

/-- A match whose neighbours change no capital sigma of the text is kept when case is ignored. -/
theorem occurs_folded_of_keepsSigmas {occurrence : Occurrence} {s t : String}
    {before after : List Char} (hcell : view.cell column = some (some (.text t)))
    (hstands : occurrence.Stands s.toList t.toList before after)
    (hkeeps : Text.KeepsSigmas before s.toList after) :
    (occurs occurrence column s true).evaluate view = .ok true := by
  have hlower := (Occurrence.stands_lowercase_iff hstands).mpr hkeeps
  exact occurs_eq_true_iff.mpr ⟨t, hcell, Occurrence.places_iff_stands.mpr ⟨_, _, hlower⟩⟩

/-- Ignoring case loses no match of a text without a capital sigma. -/
theorem occurs_folded_of_notMem {occurrence : Occurrence} {s : String}
    (hsigma : '\u03A3' ∉ s.toList)
    (h : (occurs occurrence column s false).evaluate view = .ok true) :
    (occurs occurrence column s true).evaluate view = .ok true := by
  obtain ⟨t, hcell, hplaces⟩ := occurs_eq_true_iff.mp h
  obtain ⟨before, after, hstands⟩ := Occurrence.places_iff_stands.mp hplaces
  exact occurs_folded_of_keepsSigmas hcell hstands (Text.keepsSigmas_of_notMem hsigma _ _)

/-- Ignoring case loses no match that no cased letter touches, case-ignorable characters aside. -/
theorem occurs_folded_of_apart {occurrence : Occurrence} {s t : String} {before after : List Char}
    (hcell : view.cell column = some (some (.text t)))
    (hstands : occurrence.Stands s.toList t.toList before after)
    (hbefore : Text.startsCased before.reverse = false) (hafter : Text.startsCased after = false) :
    (occurs occurrence column s true).evaluate view = .ok true :=
  occurs_folded_of_keepsSigmas hcell hstands (Text.keepsSigmas_of_apart _ hbefore hafter)

end Predicate

/-- Ignoring case keeps every value that a column is found equal to. It keeps a text found in a
column if at some place there the neighbours change no capital sigma of the text; at the start
and at the end, where there is one place, it keeps the text in no other case. -/
theorem match_kept_ignoring_case_iff (view : RowView) (column : Column) :
    (∀ value, (Predicate.equals column value false).evaluate view = .ok true →
      (Predicate.equals column value true).evaluate view = .ok true) ∧
    ∀ (occurrence : Occurrence) (s : String),
      (Predicate.occurs occurrence column s false).evaluate view = .ok true →
      ∃ t, view.cell column = some (some (.text t)) ∧
        (∃ before after, occurrence.Stands s.toList t.toList before after) ∧
        ∀ before after, occurrence.Stands s.toList t.toList before after →
          (Text.KeepsSigmas before s.toList after →
            (Predicate.occurs occurrence column s true).evaluate view = .ok true) ∧
          (occurrence ≠ .anywhere →
            (Predicate.occurs occurrence column s true).evaluate view = .ok true →
            Text.KeepsSigmas before s.toList after) := by
  refine ⟨fun value => Predicate.equals_folded, fun occurrence s h => ?_⟩
  obtain ⟨t, hcell, hplaces⟩ := Predicate.occurs_eq_true_iff.mp h
  refine ⟨t, hcell, Occurrence.places_iff_stands.mp hplaces, fun before after hstands => ⟨?_, ?_⟩⟩
  · exact Predicate.occurs_folded_of_keepsSigmas hcell hstands
  · intro hfixed hfolded
    obtain ⟨t', hcell', hlower⟩ := Predicate.occurs_eq_true_iff.mp hfolded
    obtain rfl : t = t' := by simpa [hcell] using hcell'
    exact Occurrence.keepsSigmas_of_places_lowercase hfixed hstands hlower

/-- The ending of a name is found with case ignored: its sigma ends a word there and alone. -/
theorem match_kept_ignoring_case_iff_of_ending :
    let row : Row .user := UserRow.named (.numbered 1) "ΟΔΟΣ" (.ofSeconds 0)
    let view := row.view fun _ => []
    (Predicate.occurs .atEnd .userName "ΔΟΣ" false).evaluate view = .ok true ∧
      (Predicate.occurs .atEnd .userName "ΔΟΣ" true).evaluate view = .ok true := by
  intro row view
  have hexact : (Predicate.occurs .atEnd .userName "ΔΟΣ" false).evaluate view = .ok true := by
    decide +kernel
  obtain ⟨t, hcell, -, hplaces⟩ := (match_kept_ignoring_case_iff view .userName).2 _ _ hexact
  obtain rfl : "ΟΔΟΣ" = t := by
    have hname : view.cell .userName = some (some (.text "ΟΔΟΣ")) := rfl
    simpa [hname] using hcell
  have hkeeps : Text.KeepsSigmas ['Ο'] "ΔΟΣ".toList [] :=
    (Text.lowercaseBetween_eq_alone_iff _ _ _).mp (by decide +kernel)
  exact ⟨hexact, (hplaces ['Ο'] [] ⟨by decide, rfl⟩).1 hkeeps⟩

/-- The start of a name is lost when case is ignored: its sigma ends a word alone, and stands
inside one in the name. -/
theorem match_lost_ignoring_case :
    let row : Row .user := UserRow.named (.numbered 1) "ΑΣΑ" (.ofSeconds 0)
    let view := row.view fun _ => []
    ∀ occurrence ∈ [Occurrence.anywhere, .atStart],
      (Predicate.occurs occurrence .userName "ΑΣ" false).evaluate view = .ok true ∧
        (Predicate.occurs occurrence .userName "ΑΣ" true).evaluate view = .ok false := by
  decide +kernel

end ScimDirectory
