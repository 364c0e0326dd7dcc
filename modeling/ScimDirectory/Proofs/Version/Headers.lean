import Mathlib.Data.List.Basic
import ScimDirectory.Proofs.Filter.Characters
import ScimDirectory.Version.EntityTag

/-!
# Versions in headers

Which headers hold a version, and which one: between any blanks a header is a text between quotes,
with or without a `W/` before it. The text may have blanks and quotes of its own, and is not empty.
-/

namespace ScimDirectory

namespace Text

open ScimDirectory.Filter

variable {s b b' : List Char}

/-- What is left after blanks does not begin with one. -/
theorem not_isBlank_of_head?_skipBlanks {c : Char} (h : (skipBlanks s).head? = some c) :
    isBlank c = false := by
  have hhead := List.head?_dropWhile_not isBlank s
  rw [show (s.dropWhile isBlank).head? = some c from h] at hhead
  exact hhead

/-- Trimming takes blanks from both ends, and none are left there. -/
theorem exists_trim (s : List Char) :
    ∃ b b', Blanks b ∧ Blanks b' ∧ s = b ++ (trim s ++ b') ∧
      (∀ c, (trim s).head? = some c → isBlank c = false) ∧
      ∀ c, (trim s).getLast? = some c → isBlank c = false := by
  obtain ⟨b, hb, hs⟩ := exists_blanks s
  obtain ⟨b', hb', hrest⟩ := exists_blanks (skipBlanks s).reverse
  have hskip : skipBlanks s = trim s ++ b'.reverse := by
    rw [trim, ← List.reverse_append, ← hrest, List.reverse_reverse]
  refine ⟨b, b'.reverse, hb, fun c hc => hb' c (List.mem_reverse.mp hc), ?_, ?_, ?_⟩
  · rw [← hskip]
    exact hs
  · intro c hc
    refine not_isBlank_of_head?_skipBlanks (s := s) ?_
    rw [hskip, List.head?_append, hc]
    rfl
  · intro c hc
    rw [trim, List.getLast?_reverse] at hc
    exact not_isBlank_of_head?_skipBlanks hc

/-- Blanks around a text that neither begins nor ends with one are trimmed. -/
theorem trim_append (hb : Blanks b) (hb' : Blanks b')
    (hfirst : ∀ c, s.head? = some c → isBlank c = false)
    (hlast : ∀ c, s.getLast? = some c → isBlank c = false) : trim (b ++ (s ++ b')) = s := by
  have hskip {s b : List Char} (hb : Blanks b)
      (hfirst : ∀ c, s.head? = some c → isBlank c = false) : skipBlanks (b ++ s) = s := by
    rw [hb.skipBlanks_append]
    cases s with
    | nil => rfl
    | cons c s => exact skipBlanks_cons (hfirst c rfl)
  cases hs : s with
  | nil =>
    rw [List.nil_append, trim, hb.skipBlanks_append, hb'.skipBlanks_eq_nil]
    rfl
  | cons c rest =>
    subst hs
    have hback : Blanks b'.reverse := fun c hc => hb' c (List.mem_reverse.mp hc)
    rw [trim, hskip hb (by simpa using hfirst), List.reverse_append, hskip hback,
      List.reverse_reverse]
    rwa [List.head?_reverse]

/-- What was trimmed is not trimmed again. -/
theorem trimmed_trimmed (s : String) : trimmed (trimmed s) = trimmed s := by
  obtain ⟨_, _, -, -, -, hfirst, hlast⟩ := exists_trim s.toList
  have hagain := trim_append Blanks.nil Blanks.nil hfirst hlast
  rw [List.nil_append, List.append_nil] at hagain
  rw [trimmed, trimmed, String.toList_ofList, hagain]

end Text

namespace EntityTag

/-- The form of a strong version in a header. -/
def strongHeader (tag : EntityTag) : String := "\"" ++ tag.value ++ "\""

/-- What stands between quotes. -/
theorem unquote?_eq_some_iff {s inner : List Char} :
    unquote? s = some inner ↔ s = '"' :: (inner ++ ['"']) := by
  constructor
  · intro h
    unfold unquote? at h
    split at h
    · next rest =>
      split at h
      · next hlast =>
        cases h
        rw [List.dropLast_append_getLast? _ hlast]
      · cases h
    · cases h
  · rintro rfl
    simp [unquote?]

/-- A quote at the start is that of a strong version, or of a weak one. -/
theorem dropWeak_eq_cons_iff {s rest : List Char} :
    dropWeak s = '"' :: rest ↔ s = 'W' :: '/' :: '"' :: rest ∨ s = '"' :: rest := by
  unfold dropWeak
  split
  · simp
  · next hstrong =>
    constructor
    · exact .inr
    · rintro (rfl | rfl)
      · exact absurd rfl (hstrong _)
      · rfl

/-- A header holds a version exactly when it is that version between quotes, weak or strong, and the
version is not empty. -/
theorem ofHeader?_eq_ok_iff {text : String} {tag : EntityTag} :
    ofHeader? text = .ok tag ↔
      tag.value ≠ "" ∧ (Text.trimmed text = tag.header ∨ Text.trimmed text = tag.strongHeader) := by
  have hforms (inner : List Char) :
      unquote? (dropWeak (Text.trim text.toList)) = some inner ↔
        Text.trimmed text = header ⟨String.ofList inner⟩ ∨
          Text.trimmed text = strongHeader ⟨String.ofList inner⟩ := by
    rw [unquote?_eq_some_iff, dropWeak_eq_cons_iff, ← String.toList_inj, ← String.toList_inj]
    simp [Text.trimmed, header, strongHeader, String.toList_append]
  obtain ⟨value⟩ := tag
  have hvalue := hforms value.toList
  rw [String.ofList_toList] at hvalue
  rw [← hvalue, ofHeader?]
  split
  · next c rest hread =>
    rw [hread, Except.ok.injEq, Option.some.injEq, EntityTag.mk.injEq]
    constructor
    · rintro rfl
      exact ⟨by simp [← String.toList_inj], String.toList_ofList.symm⟩
    · rintro ⟨-, heq⟩
      rw [heq, String.ofList_toList]
  · next hnone =>
    refine iff_of_false (fun h => nomatch h) ?_
    rintro ⟨hne, hread⟩
    cases hchars : value.toList with
    | nil => exact hne (String.toList_inj.mp hchars)
    | cons c rest => exact hnone c rest (hchars ▸ hread)

/-- A version in either form is read back from between any blanks. -/
theorem ofHeader?_surrounded {tag : EntityTag} (hvalue : tag.value ≠ "")
    {before after form : String} (hbefore : Text.allBlank before = true)
    (hafter : Text.allBlank after = true) (hform : form = tag.header ∨ form = tag.strongHeader) :
    ofHeader? (before ++ (form ++ after)) = .ok tag := by
  have hends : (∀ c, form.toList.head? = some c → Text.isBlank c = false) ∧
      ∀ c, form.toList.getLast? = some c → Text.isBlank c = false := by
    rcases hform with rfl | rfl
    all_goals
      simp only [header, strongHeader, String.toList_append]
      constructor
      · rintro c ⟨⟩
        rfl
      · intro c hc
        rw [List.getLast?_append] at hc
        cases hc
        rfl
  have htrim : Text.trimmed (before ++ (form ++ after)) = form := by
    rw [Text.trimmed, String.toList_append, String.toList_append,
      Text.trim_append (List.all_eq_true.mp hbefore) (List.all_eq_true.mp hafter) hends.1 hends.2,
      String.ofList_toList]
  rw [ofHeader?_eq_ok_iff, htrim]
  exact ⟨hvalue, hform⟩

/-- Headers are read exactly: one holds a version if and only if it is that version in one of the two
forms, with any blanks around it, and a version is read back from either form. -/
theorem headers_are_exact :
    (∀ (text : String) (tag : EntityTag), ofHeader? text = .ok tag ↔
      tag.value ≠ "" ∧
        (Text.trimmed text = tag.header ∨ Text.trimmed text = tag.strongHeader)) ∧
    ∀ (tag : EntityTag) (before after : String), tag.value ≠ "" → Text.allBlank before = true →
      Text.allBlank after = true →
      ofHeader? (before ++ (tag.header ++ after)) = .ok tag ∧
        ofHeader? (before ++ (tag.strongHeader ++ after)) = .ok tag :=
  ⟨fun _ _ => ofHeader?_eq_ok_iff, fun _ _ _ hvalue hbefore hafter =>
    ⟨ofHeader?_surrounded hvalue hbefore hafter (.inl rfl),
      ofHeader?_surrounded hvalue hbefore hafter (.inr rfl)⟩⟩

/-- A version in either form is read back. -/
theorem ofHeader?_form {tag : EntityTag} (hvalue : tag.value ≠ "") {form : String}
    (hform : form = tag.header ∨ form = tag.strongHeader) : ofHeader? form = .ok tag := by
  have hread : ofHeader? ("" ++ (form ++ "")) = .ok tag := ofHeader?_surrounded hvalue rfl rfl hform
  rwa [String.empty_append, String.append_empty] at hread

/-- A header that holds no version is told as it is. -/
theorem error_of_ofHeader? {text : String} {error : VersionError}
    (h : ofHeader? text = .error error) : error = .invalidHeader text := by
  unfold ofHeader? at h
  split at h <;> cases h
  rfl

/-- Blanks around a header do not matter. -/
theorem ofHeader?_trimmed {text : String} {tag : EntityTag} :
    ofHeader? (Text.trimmed text) = .ok tag ↔ ofHeader? text = .ok tag := by
  rw [ofHeader?_eq_ok_iff, ofHeader?_eq_ok_iff, Text.trimmed_trimmed]

end EntityTag
end ScimDirectory
