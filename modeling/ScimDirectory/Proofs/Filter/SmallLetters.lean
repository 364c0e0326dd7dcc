import ScimDirectory.Proofs.Number.LetterCase

/-!
# Texts in small letters

The small form of a text has all its letters outside of quotes made small. Blanks, words, names and
numbers are taken off its front where they are taken off the text, since no quote is among them, and
what follows them is the small form of what follows them in the text.
-/

namespace ScimDirectory

namespace Filter

/-- Characters with the letters outside of quotes made small, given whether they begin inside of
quotes. A backslash inside of quotes keeps the next character from closing them. -/
def smallFrom : Bool → List Char → List Char
  | _, [] => []
  | false, '"' :: rest => '"' :: smallFrom true rest
  | false, c :: rest => c.toLower :: smallFrom false rest
  | true, '"' :: rest => '"' :: smallFrom false rest
  | true, '\\' :: c :: rest => '\\' :: c :: smallFrom true rest
  | true, c :: rest => c :: smallFrom true rest

/-- Characters that begin outside of quotes, with the letters outside of quotes made small. -/
abbrev small : List Char → List Char := smallFrom false

variable {c : Char} {s t rest : List Char}

theorem small_cons (h : c ≠ '"') : small (c :: s) = c.toLower :: small s := by
  unfold small
  rw [smallFrom]
  exact fun hquote => absurd hquote h

/-- The small form has the same letters. -/
theorem lowerAscii_smallFrom (quoted : Bool) (s : List Char) :
    Text.lowerAscii (smallFrom quoted s) = Text.lowerAscii s := by
  fun_induction smallFrom quoted s <;>
    simp_all [Text.lowerAscii, toLower_toLower]

theorem length_small (s : List Char) : (small s).length = s.length := by
  have hlength := congrArg List.length (lowerAscii_smallFrom false s)
  simpa [Text.lowerAscii] using hlength

theorem byteLength_smallFrom (quoted : Bool) (s : List Char) :
    byteLength (smallFrom quoted s) = byteLength s := by
  fun_induction smallFrom quoted s <;>
    simp_all [byteLength, utf8Size_toLower]

/-- Text without a quote is made small as it is. -/
theorem small_append (h : '"' ∉ t) (s : List Char) :
    small (t ++ s) = Text.lowerAscii t ++ small s := by
  induction t with
  | nil => rfl
  | cons c t ih =>
    obtain ⟨hc, ht⟩ := not_or.mp (mt List.mem_cons.mpr h)
    rw [List.cons_append, small_cons (Ne.symm hc), ih ht]
    rfl

theorem head?_small (s : List Char) : (small s).head? = s.head?.map Char.toLower := by
  cases s with
  | nil => rfl
  | cons c s =>
    by_cases hc : c = '"'
    · subst hc
      rfl
    · rw [small_cons hc]
      rfl

/-- A small form that begins with a character other than a letter is that of a text that does. -/
theorem exists_of_small_eq_cons (hc : Text.isAsciiLetter c = false) (h : small s = c :: rest) :
    ∃ more, s = c :: more := by
  have hhead := head?_small s
  rw [h, List.head?_cons] at hhead
  obtain ⟨d, hd, hlower⟩ := Option.map_eq_some_iff.mp hhead.symm
  obtain rfl := (toLower_eq_iff hc).mp hlower
  exact List.head?_eq_some_iff.mp hd

/-- A text begins with such a character when its small form does. -/
theorem head_cases (hc : Text.isAsciiLetter c = false) (s : List Char) :
    (∃ rest, s = c :: rest) ∨ (∀ rest, s ≠ c :: rest) ∧ ∀ rest, small s ≠ c :: rest := by
  by_cases hhead : ∃ rest, s = c :: rest
  · exact .inl hhead
  · exact .inr ⟨fun rest h => hhead ⟨rest, h⟩,
      fun rest h => hhead (exists_of_small_eq_cons hc h)⟩

/-- A class of characters that ignores letter case has the first character of a small form when it
has that of the text. -/
theorem any_head?_small {p : Char → Bool} (hp : ∀ c, p c.toLower = p c) (s : List Char) :
    (small s).head?.any p = s.head?.any p := by
  rw [head?_small]
  cases s.head? with
  | none => rfl
  | some c => exact hp c

section Classes

variable {p : Char → Bool} (hp : ∀ c, p c.toLower = p c) (hquote : p '"' = false)

include hp hquote

/-- Characters of such a class are taken from a small form as from the text. -/
theorem takeWhile_small (s : List Char) :
    (small s).takeWhile p = Text.lowerAscii (s.takeWhile p) := by
  induction s with
  | nil => rfl
  | cons c s ih =>
    by_cases hc : c = '"'
    · subst hc
      simp [small, smallFrom, hquote, Text.lowerAscii]
    · rw [small_cons hc, List.takeWhile_cons, List.takeWhile_cons, hp]
      split
      · rw [ih]
        rfl
      · rfl

theorem dropWhile_small (s : List Char) : (small s).dropWhile p = small (s.dropWhile p) := by
  induction s with
  | nil => rfl
  | cons c s ih =>
    by_cases hc : c = '"'
    · subst hc
      simp [small, smallFrom, hquote]
    · rw [small_cons hc, List.dropWhile_cons, List.dropWhile_cons, hp]
      split
      · exact ih
      · exact (small_cons hc).symm

end Classes

theorem skipBlanks_small (s : List Char) :
    Text.skipBlanks (small s) = small (Text.skipBlanks s) :=
  dropWhile_small isBlank_toLower (by decide) s

/-- A keyword is found in a small form where it is found in the text. -/
theorem keyword?_small {word : String} (hword : '"' ∉ word.toList) (s : List Char) :
    keyword? word (small s) = (keyword? word s).map small := by
  unfold keyword?
  rw [skipBlanks_small]
  generalize Text.skipBlanks s = s
  dsimp only
  rw [Text.lowerAscii_take_congr (lowerAscii_smallFrom false s)]
  by_cases hsame : Text.lowerAscii (s.take word.toList.length) = word.toList
  · have hplain : '"' ∉ s.take word.toList.length := fun hmem =>
      hword (hsame ▸ List.mem_map_of_mem (f := Char.toLower) hmem)
    have hdrop : (small s).drop word.toList.length = small (s.drop word.toList.length) := by
      have hsplit : small s = word.toList ++ small (s.drop word.toList.length) := by
        rw [← hsame, ← small_append hplain, hsame, List.take_append_drop]
      rw [hsplit, List.drop_left]
    rw [hdrop, any_head?_small continuesWord_toLower]
    split <;> rfl
  · simp only [hsame, false_and, if_false, Option.map_none]

/-- Characters are dropped alike in small letters, and no quote is among them. -/
def Drops (f : List Char → List Char) : Prop :=
  ∀ s, f (small s) = small (f s) ∧ ∃ t, '"' ∉ t ∧ s = t ++ f s

namespace Drops

variable {f g : List Char → List Char}

theorem comp (hg : Drops g) (hf : Drops f) : Drops (g ∘ f) := by
  intro s
  obtain ⟨hfsmall, t, ht, hs⟩ := hf s
  obtain ⟨hgsmall, t', ht', hs'⟩ := hg (f s)
  refine ⟨?_, t ++ t', ?_, ?_⟩
  · rw [Function.comp_apply, hfsmall, hgsmall]
    rfl
  · simp [ht, ht']
  · rw [List.append_assoc, Function.comp_apply, ← hs']
    exact hs

theorem id : Drops id := fun _ => ⟨rfl, [], List.not_mem_nil, rfl⟩

/-- Characters of a class that ignores letter case and does not have the quote are dropped alike. -/
theorem dropWhile {p : Char → Bool} (hp : ∀ c, p c.toLower = p c) (hquote : p '"' = false) :
    Drops (List.dropWhile p) := by
  intro s
  refine ⟨dropWhile_small hp hquote s, s.takeWhile p, fun hmem => ?_,
    List.takeWhile_append_dropWhile.symm⟩
  have htrue := List.all_eq_true.mp List.all_takeWhile _ hmem
  rw [hquote] at htrue
  cases htrue

/-- So is a first character of such a class, with what may then be dropped. -/
theorem head {p : Char → Bool} (hp : ∀ c, p c.toLower = p c) (hquote : p '"' = false)
    (hg : Drops g) (hnil : f [] = [])
    (hcons : ∀ c rest, f (c :: rest) = if p c then g rest else c :: rest) : Drops f := by
  intro s
  cases s with
  | nil => exact ⟨(congrArg f rfl).trans (hnil.trans (congrArg small hnil.symm)), [],
      List.not_mem_nil, hnil.symm⟩
  | cons c rest =>
    by_cases hc : c = '"'
    · subst hc
      have hkept (rest : List Char) : f ('"' :: rest) = '"' :: rest := by
        rw [hcons, hquote]
        rfl
      exact ⟨(hkept _).trans (congrArg small (hkept rest).symm), [], List.not_mem_nil,
        (hkept rest).symm⟩
    · rw [small_cons hc, hcons, hcons, hp]
      obtain ⟨hsmall, t, ht, hrest⟩ := hg rest
      split
      · refine ⟨hsmall, c :: t, ?_, congrArg (c :: ·) hrest⟩
        simp [ht, Ne.symm hc]
      · exact ⟨(small_cons hc).symm, [], List.not_mem_nil, rfl⟩

end Drops

/-- What follows an optional point and digits. -/
def afterPoint : List Char → List Char
  | '.' :: rest => rest.dropWhile Char.isDigit
  | s => s

/-- What follows an optional exponent. -/
def afterExponent : List Char → List Char
  | 'e' :: rest | 'E' :: rest => (afterSign rest).dropWhile Char.isDigit
  | s => s

theorem afterNumber_eq : afterNumber =
    afterExponent ∘ afterPoint ∘ List.dropWhile Char.isDigit ∘ afterSign := rfl

theorem drops_afterSign : Drops afterSign := by
  refine Drops.head (p := fun c => c == '-' || c == '+') (fun c => ?_) rfl Drops.id rfl
    fun c rest => ?_
  · rw [toLower_beq (by decide), toLower_beq (by decide)]
  · unfold afterSign
    split <;> simp_all

theorem drops_afterPoint : Drops afterPoint := by
  refine Drops.head (p := fun c => c == '.') (fun c => ?_) rfl
    (Drops.dropWhile isDigit_toLower rfl) rfl fun c rest => ?_
  · rw [toLower_beq (by decide)]
  · unfold afterPoint
    split <;> simp_all

theorem drops_afterExponent : Drops afterExponent := by
  refine Drops.head (p := fun c => c.toLower == 'e') (fun c => ?_) rfl
    ((Drops.dropWhile isDigit_toLower rfl).comp drops_afterSign) rfl fun c rest => ?_
  · rw [toLower_toLower]
  · simp only [beq_iff_eq, Binary64.toLower_eq_e_iff]
    unfold afterExponent
    split <;> simp_all

theorem drops_afterNumber : Drops afterNumber := by
  rw [afterNumber_eq]
  exact drops_afterExponent.comp (drops_afterPoint.comp
    ((Drops.dropWhile isDigit_toLower rfl).comp drops_afterSign))

end Filter
end ScimDirectory
