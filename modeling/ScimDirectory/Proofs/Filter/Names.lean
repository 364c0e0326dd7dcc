import ScimDirectory.Proofs.Filter.Written

/-!
# Reading names and keywords

A name is read as far as its characters go, and a keyword only where nothing goes on it. Both ways
are told: what is written is read, and what is read was written. A name that was read keeps the
rule for names unless a schema prefix was taken from it, since the rule is checked before that.
-/

namespace ScimDirectory

theorem ResourceType.mem_all (type : ResourceType) : type ∈ all := by
  cases type <;> decide

namespace Filter

variable {c : Char} {b s t w rest name : List Char} {word : String}

/-- No dot is misplaced when none comes last and no two stand side by side. -/
theorem misplacedDot_eq_false_iff (name : List Char) :
    misplacedDot name = false ↔ name.getLast? ≠ some '.' ∧ ¬['.', '.'] <:+: name := by
  fun_induction misplacedDot name with
  | case1 => simp
  | case2 => simp
  | case3 rest =>
    have hpair : ['.', '.'] <:+: '.' :: '.' :: rest := ⟨[], rest, rfl⟩
    simp [hpair]
  | case4 c rest hlast htwice ih =>
    have hpair : ['.', '.'] <:+: c :: rest ↔ ['.', '.'] <:+: rest := by
      rw [List.infix_cons_iff]
      constructor
      · rintro (hfirst | hlater)
        · obtain ⟨t, ht⟩ := hfirst
          cases ht
          exact (htwice t rfl rfl).elim
        · exact hlater
      · exact .inr
    have hend : (c :: rest).getLast? = some '.' ↔ rest.getLast? = some '.' := by
      cases rest with
      | nil =>
        constructor
        · intro h
          exact (hlast (Option.some.inj h) rfl).elim
        · intro h
          cases h
      | cons d rest => rw [List.getLast?_cons_cons]
    rw [ih, Ne, Ne, hend, hpair]

/-- A prefix is dropped in any case of its letters, and only from a longer name. -/
theorem dropSchema?_eq_some_iff {schema : List Char} :
    dropSchema? schema name = some rest ↔
      ∃ p, name = p ++ rest ∧ Text.lowerAscii p = Text.lowerAscii schema ∧ rest ≠ [] := by
  unfold dropSchema?
  constructor
  · intro h
    split at h
    · next hprefix =>
      obtain ⟨hlength, hsame⟩ := hprefix
      obtain rfl := Option.some.inj h
      refine ⟨name.take schema.length, (List.take_append_drop _ _).symm, hsame, ?_⟩
      intro hnil
      rw [List.drop_eq_nil_iff] at hnil
      omega
    · cases h
  · rintro ⟨p, rfl, hsame, hne⟩
    have hlength : p.length = schema.length := by
      have h := congrArg List.length hsame
      rw [Text.lowerAscii, Text.lowerAscii, List.length_map, List.length_map] at h
      exact h
    have hrest : 0 < rest.length := List.length_pos_iff.mpr hne
    have htake : (p ++ rest).take schema.length = p := by rw [← hlength, List.take_left]
    have hdrop : (p ++ rest).drop schema.length = rest := by rw [← hlength, List.drop_left]
    rw [htake, hdrop, if_pos]
    refine ⟨?_, hsame⟩
    rw [List.length_append]
    omega

/-- What stays of a name ends it. -/
theorem exists_dropSchemas (name : List Char) : ∃ p, name = p ++ dropSchemas name := by
  unfold dropSchemas
  cases h : (ResourceType.all.map schemaPrefix).findSome? (dropSchema? · name) with
  | none => exact ⟨[], rfl⟩
  | some rest =>
    obtain ⟨schema, _, hdrop⟩ := List.exists_of_findSome?_eq_some h
    obtain ⟨p, hp, _⟩ := dropSchema?_eq_some_iff.mp hdrop
    exact ⟨p, hp⟩

/-- A name stays whole when it has no schema prefix, unless it is nothing else. -/
theorem dropSchemas_eq_self_iff : dropSchemas name = name ↔ ∀ type p rest, name = p ++ rest →
    Text.lowerAscii p = Text.lowerAscii (schemaPrefix type) → rest = [] := by
  unfold dropSchemas
  constructor
  · intro h type p rest hname hsame
    apply Decidable.byContradiction
    intro hne
    have hdrop : dropSchema? (schemaPrefix type) name = some rest :=
      dropSchema?_eq_some_iff.mpr ⟨p, hname, hsame, hne⟩
    cases hfound : (ResourceType.all.map schemaPrefix).findSome? (dropSchema? · name) with
    | none =>
      rw [List.findSome?_eq_none_iff] at hfound
      have hkept := hfound _ (List.mem_map_of_mem type.mem_all)
      rw [hdrop] at hkept
      cases hkept
    | some kept =>
      -- A prefix has characters, so dropping one never leaves the name whole.
      rw [hfound, Option.getD_some] at h
      subst h
      obtain ⟨schema, hschema, hdropped⟩ := List.exists_of_findSome?_eq_some hfound
      obtain ⟨type', _, rfl⟩ := List.mem_map.mp hschema
      obtain ⟨p', hwhole, hprefix, _⟩ := dropSchema?_eq_some_iff.mp hdropped
      rw [List.self_eq_append_left] at hwhole
      subst hwhole
      simp [schemaPrefix, Text.lowerAscii] at hprefix
  · intro h
    have hnone : (ResourceType.all.map schemaPrefix).findSome? (dropSchema? · name) = none := by
      rw [List.findSome?_eq_none_iff]
      intro schema hschema
      obtain ⟨type, _, rfl⟩ := List.mem_map.mp hschema
      cases hdrop : dropSchema? (schemaPrefix type) name with
      | none => rfl
      | some rest =>
        obtain ⟨p, hname, hsame, hne⟩ := dropSchema?_eq_some_iff.mp hdrop
        exact absurd (h type p rest hname hsame) hne
    rw [hnone, Option.getD_none]

/-- The rule for names, as it is checked. -/
theorem isName_iff : IsName name ↔ name.head?.any startsName = true ∧
    name.all isNameChar = true ∧ misplacedDot name = false ∧ dropSchemas name = name := by
  constructor
  · rintro ⟨⟨c, rest, rfl, hstart⟩, hchars, hlast, htwice, hbare⟩
    exact ⟨hstart, List.all_eq_true.mpr hchars, (misplacedDot_eq_false_iff _).mpr ⟨hlast, htwice⟩,
      dropSchemas_eq_self_iff.mpr hbare⟩
  · rintro ⟨hstart, hchars, hdots, hschemas⟩
    obtain ⟨hlast, htwice⟩ := (misplacedDot_eq_false_iff _).mp hdots
    refine ⟨?_, List.all_eq_true.mp hchars, hlast, htwice, dropSchemas_eq_self_iff.mp hschemas⟩
    cases name with
    | nil => cases hstart
    | cons c rest => exact ⟨c, rest, rfl, hstart⟩

instance : DecidablePred IsName := fun _ => decidable_of_iff _ isName_iff.symm

theorem isBlank_of_startsName (h : startsName c = true) : Text.isBlank c = false :=
  not_isBlank_of_isNameChar (isNameChar_of_startsName h)

/-- What goes on a name is taken by it, and nothing else. -/
theorem span_isNameChar (hchars : ∀ c ∈ name, isNameChar c = true) (hrest : Ends rest) :
    (name ++ rest).takeWhile isNameChar = name ∧ (name ++ rest).dropWhile isNameChar = rest := by
  rw [List.takeWhile_append_of_pos hchars, List.dropWhile_append_of_pos hchars]
  cases rest with
  | nil => exact ⟨List.append_nil name, rfl⟩
  | cons c rest =>
    rw [ends_cons] at hrest
    rw [List.takeWhile_cons, List.dropWhile_cons, hrest]
    exact ⟨List.append_nil name, rfl⟩

theorem ends_dropWhile (s : List Char) : Ends (s.dropWhile isNameChar) := by
  have hstop := List.head?_dropWhile_not isNameChar s
  unfold Ends
  cases hhead : (s.dropWhile isNameChar).head? with
  | none => rfl
  | some c =>
    rw [hhead] at hstop
    exact hstop

/-- A name that keeps the rule is read, after blanks, as what it is. -/
theorem name_append {attr : String} (hname : IsName attr.toList) (hb : Blanks b)
    (hrest : Ends rest) : Filter.name (b ++ (attr.toList ++ rest)) = .ok (attr, rest) := by
  obtain ⟨hstart, hchars, hdots, hschemas⟩ := isName_iff.mp hname
  obtain ⟨htake, hdrop⟩ := span_isNameChar (List.all_eq_true.mp hchars) hrest
  have hskip : Text.skipBlanks (b ++ (attr.toList ++ rest)) = attr.toList ++ rest := by
    obtain ⟨c, chars, hchars, hstart⟩ := hname.starts
    rw [hb.skipBlanks_append, hchars, List.cons_append,
      skipBlanks_cons (isBlank_of_startsName hstart)]
  have hhead : (attr.toList ++ rest).head?.any startsName = true := by
    obtain ⟨c, chars, hchars, hstart⟩ := hname.starts
    rw [hchars]
    exact hstart
  unfold Filter.name
  simp only [hskip, hhead, htake, hdrop, hdots, hschemas, String.ofList_toList, if_true,
    Bool.false_eq_true, if_false]

/-- What was read as a name stands there after blanks, with what was taken from it, and ends
there. If nothing was taken, then it keeps the rule. -/
theorem name_eq_ok {attr : String} (h : Filter.name s = .ok (attr, rest)) :
    ∃ b p, Blanks b ∧ s = b ++ (p ++ (attr.toList ++ rest)) ∧ (∀ c ∈ p, isNameChar c = true) ∧
      (p = [] → IsName attr.toList) ∧ Ends rest := by
  obtain ⟨b, hb, hs⟩ := exists_blanks s
  unfold Filter.name at h
  simp only at h
  generalize Text.skipBlanks s = t at h hs
  split at h
  · next hstart =>
    split at h
    · cases h
    · next hdots =>
      cases h
      obtain ⟨p, hword⟩ := exists_dropSchemas (t.takeWhile isNameChar)
      have hchars : ∀ c ∈ t.takeWhile isNameChar, isNameChar c = true :=
        List.all_eq_true.mp List.all_takeWhile
      rw [String.toList_ofList]
      refine ⟨b, p, hb, ?_, ?_, ?_, ?_⟩
      · rw [← List.append_assoc p, ← hword, List.takeWhile_append_dropWhile]
        exact hs
      · intro c hc
        apply hchars
        rw [hword]
        exact List.mem_append_left _ hc
      · rintro rfl
        rw [List.nil_append] at hword
        rw [← hword, isName_iff]
        refine ⟨?_, List.all_takeWhile, Bool.eq_false_iff.mpr hdots, hword.symm⟩
        cases t with
        | nil => cases hstart
        | cons c t =>
          rw [List.takeWhile_cons_of_pos (isNameChar_of_startsName hstart)]
          exact hstart
      · exact ends_dropWhile t
  · cases h

/-- A word of letters. -/
structure IsWord (word : String) : Prop where
  /-- It has letters. -/
  nonempty : word.toList ≠ []
  /-- It has nothing else. -/
  letters : ∀ c ∈ word.toList, Text.isAsciiLetter c = true

instance (word : String) : Decidable (IsWord word) :=
  decidable_of_iff (word.toList ≠ [] ∧ word.toList.all Text.isAsciiLetter = true)
    ⟨fun ⟨hne, hletters⟩ => ⟨hne, List.all_eq_true.mp hletters⟩,
      fun h => ⟨h.nonempty, List.all_eq_true.mpr h.letters⟩⟩

/-- A word has its letters in any case. -/
theorem InAnyCase.letters (hword : IsWord word) (hw : InAnyCase word w) :
    ∀ c ∈ w, Text.isAsciiLetter c = true := by
  intro c hc
  rw [← isAsciiLetter_toLower]
  apply hword.letters
  rw [← hw]
  exact List.mem_map_of_mem hc

/-- A word in any case starts with a letter, and that letter is the first of the word. -/
theorem InAnyCase.exists_cons (hword : IsWord word) (hw : InAnyCase word w) :
    ∃ c chars, w = c :: chars ∧ Text.isAsciiLetter c = true ∧ word.toList.head? = some c.toLower := by
  cases w with
  | nil => exact absurd hw.symm hword.nonempty
  | cons c chars =>
    refine ⟨c, chars, rfl, hw.letters hword c List.mem_cons_self, ?_⟩
    rw [← hw]
    rfl

theorem InAnyCase.skipBlanks_append (hword : IsWord word) (hw : InAnyCase word w)
    (rest : List Char) : Text.skipBlanks (w ++ rest) = w ++ rest := by
  obtain ⟨c, chars, rfl, hletter, _⟩ := hw.exists_cons hword
  exact skipBlanks_cons (not_isBlank_of_letter hletter)

theorem Ends.not_continuesWord (h : Ends s) : s.head?.any continuesWord = false := by
  cases s with
  | nil => rfl
  | cons c s =>
    rw [ends_cons, Bool.eq_false_iff] at h
    rw [List.head?_cons, Option.any_some, Bool.eq_false_iff]
    intro hcontinues
    exact h (isNameChar_of_continuesWord hcontinues)

theorem keyword?_blanks (hb : Blanks b) (s : List Char) :
    keyword? word (b ++ s) = keyword? word s := by
  unfold keyword?
  rw [hb.skipBlanks_append]

/-- A keyword in any case is read after blanks when nothing goes on it. -/
theorem keyword?_append (hword : IsWord word) (hb : Blanks b) (hw : InAnyCase word w)
    (hrest : rest.head?.any continuesWord = false) :
    keyword? word (b ++ (w ++ rest)) = some rest := by
  have hskip : Text.skipBlanks (b ++ (w ++ rest)) = w ++ rest := by
    rw [hb.skipBlanks_append, hw.skipBlanks_append hword]
  have htake : (w ++ rest).take word.toList.length = w := by rw [← hw.length_eq, List.take_left]
  have hdrop : (w ++ rest).drop word.toList.length = rest := by
    rw [← hw.length_eq, List.drop_left]
  unfold keyword?
  simp only [hskip, htake, hdrop]
  rw [if_pos]
  refine ⟨hw, ?_⟩
  rw [hrest]
  rfl

/-- What was read as a keyword stands there after blanks, and nothing goes on it. -/
theorem keyword?_eq_some (h : keyword? word s = some rest) :
    ∃ b w, Blanks b ∧ s = b ++ (w ++ rest) ∧ InAnyCase word w ∧
      rest.head?.any continuesWord = false := by
  obtain ⟨b, hb, hs⟩ := exists_blanks s
  unfold keyword? at h
  simp only at h
  generalize Text.skipBlanks s = t at h hs
  split at h
  · next hread =>
    obtain ⟨hsame, hend⟩ := hread
    cases h
    refine ⟨b, t.take word.toList.length, hb, ?_, hsame, ?_⟩
    · rw [List.take_append_drop]
      exact hs
    · rw [Bool.not_eq_eq_eq_not, Bool.not_true] at hend
      exact hend
  · cases h

/-- No keyword is read where something else than its first letter stands. -/
theorem keyword?_eq_none (hword : IsWord word)
    (h : ∀ c, (Text.skipBlanks s).head? = some c → word.toList.head? ≠ some c.toLower) :
    keyword? word s = none := by
  cases hread : keyword? word s with
  | none => rfl
  | some rest =>
    obtain ⟨b, w, hb, rfl, hw, _⟩ := keyword?_eq_some hread
    obtain ⟨c, chars, rfl, hletter, hfirst⟩ := hw.exists_cons hword
    rw [hb.skipBlanks_append, hw.skipBlanks_append hword] at h
    exact absurd hfirst (h c rfl)

/-- A word is not read as one that starts with another letter. -/
theorem keyword?_of_other {other : String} (hword : IsWord word) (hother : IsWord other)
    (hne : word.toList.head? ≠ other.toList.head?) (hb : Blanks b) (hw : InAnyCase other w)
    (rest : List Char) : keyword? word (b ++ (w ++ rest)) = none := by
  apply keyword?_eq_none hword
  intro c hc
  rw [hb.skipBlanks_append, hw.skipBlanks_append hother] at hc
  obtain ⟨d, chars, rfl, _, hfirst⟩ := hw.exists_cons hother
  obtain rfl := Option.some.inj hc
  rw [← hfirst]
  exact hne

/-- What ends a scope: nothing, or a closing sign, after blanks. -/
def Closes (s : List Char) : Prop :=
  ∀ c, (Text.skipBlanks s).head? = some c → c = ')' ∨ c = ']'

theorem Blanks.closes (hb : Blanks b) : Closes b := by
  intro c hc
  rw [hb.skipBlanks_eq_nil] at hc
  cases hc

theorem Blanks.closes_append (hb : Blanks b) (hc : c = ')' ∨ c = ']') (s : List Char) :
    Closes (b ++ c :: s) := by
  have hskip : Text.skipBlanks (c :: s) = c :: s := by
    apply skipBlanks_cons
    rcases hc with rfl | rfl <;> decide
  intro d hd
  rw [hb.skipBlanks_append, hskip] at hd
  obtain rfl := Option.some.inj hd
  exact hc

theorem Closes.ends (h : Closes s) : Ends s := by
  cases s with
  | nil => exact .nil
  | cons c s =>
    rw [ends_cons, Bool.eq_false_iff]
    intro hname
    rw [Closes, skipBlanks_cons (not_isBlank_of_isNameChar hname)] at h
    rcases h c rfl with rfl | rfl <;> cases hname

/-- No keyword is read where a scope ends. -/
theorem Closes.keyword?_eq_none (hword : IsWord word) (h : Closes s) :
    keyword? word s = none := by
  apply Filter.keyword?_eq_none hword
  intro c hc hfirst
  have hletter : Text.isAsciiLetter c = true := by
    rw [← isAsciiLetter_toLower]
    exact hword.letters _ (List.mem_of_mem_head? hfirst)
  rcases h c hc with rfl | rfl <;> cases hletter

theorem isWord_not : IsWord "not" := by decide

/-- A name that opens a negation is taken for its keyword. -/
theorem OpensNegation.keyword?_ne_none (h : OpensNegation name) (hrest : Ends rest) :
    keyword? "not" (name ++ rest) ≠ none := by
  obtain ⟨p, tail, rfl, hp, htail⟩ := h
  have hend : (tail ++ rest).head?.any continuesWord = false := by
    cases tail with
    | nil => exact hrest.not_continuesWord
    | cons c tail => rcases htail c rfl with rfl | rfl <;> rfl
  have hread := keyword?_append isWord_not .nil hp hend
  rw [List.nil_append, ← List.append_assoc] at hread
  rw [hread]
  exact Option.some_ne_none _

/-- Only a name that opens a negation is taken for its keyword. -/
theorem opensNegation_of_keyword?_eq_some {after : List Char} (hname : IsName name)
    (hrest : Ends rest) (h : keyword? "not" (name ++ rest) = some after) : OpensNegation name := by
  obtain ⟨b, w, hb, hsplit, hw, hend⟩ := keyword?_eq_some h
  have hnil : b = [] := by
    obtain ⟨c, chars, hchars, hstart⟩ := hname.starts
    cases b with
    | nil => rfl
    | cons d b =>
      rw [hchars, List.cons_append, List.cons_append] at hsplit
      obtain ⟨rfl, _⟩ := List.cons.inj hsplit
      have hblank := hb c List.mem_cons_self
      rw [isBlank_of_startsName hstart] at hblank
      cases hblank
  subst hnil
  rw [List.nil_append, List.append_eq_append_iff] at hsplit
  rcases hsplit with ⟨more, rfl, hmore⟩ | ⟨tail, rfl, htail⟩
  · -- The word cannot go beyond the name, whose characters go as far as a letter does.
    cases more with
    | nil =>
      rw [List.append_nil] at hw
      exact ⟨name, [], (List.append_nil name).symm, hw, fun _ hc => nomatch hc⟩
    | cons c more =>
      have hletter := hw.letters isWord_not c (List.mem_append_right _ List.mem_cons_self)
      rw [hmore, List.cons_append, ends_cons, isNameChar_of_letter hletter] at hrest
      cases hrest
  · refine ⟨w, tail, rfl, hw, ?_⟩
    intro c hc
    cases tail with
    | nil => cases hc
    | cons d tail =>
      obtain rfl := Option.some.inj hc
      apply eq_of_isNameChar_of_not_continuesWord
      · exact hname.chars d (List.mem_append_right _ List.mem_cons_self)
      · rw [htail] at hend
        exact hend

/-- A name is taken for the keyword of a negation exactly when it opens one. -/
theorem keyword?_not_eq_none_iff (hname : IsName name) (hrest : Ends rest) :
    keyword? "not" (name ++ rest) = none ↔ ¬OpensNegation name := by
  constructor
  · intro hread hopens
    exact hopens.keyword?_ne_none hrest hread
  · intro hopens
    cases hread : keyword? "not" (name ++ rest) with
    | none => rfl
    | some after => exact absurd (opensNegation_of_keyword?_eq_some hname hrest hread) hopens

instance : DecidablePred IsOperandName := fun name =>
  decidable_of_iff (IsName name ∧ keyword? "not" (name ++ []) = none)
    (and_congr_right fun hname => keyword?_not_eq_none_iff hname .nil)

end Filter

namespace Expr

open ScimDirectory.Filter

instance decidableFilterNamed : DecidablePred FilterNamed
  | compare attr .. => inferInstanceAs (Decidable (IsOperandName attr.toList))
  | search attr .. => inferInstanceAs (Decidable (IsOperandName attr.toList))
  | present attr => inferInstanceAs (Decidable (IsOperandName attr.toList))
  | path attr _ => inferInstanceAs (Decidable (IsOperandName attr.toList))
  | join _ lhs rhs =>
    have := decidableFilterNamed lhs
    have := decidableFilterNamed rhs
    inferInstanceAs (Decidable (_ ∧ _))
  | group _ inner => decidableFilterNamed inner
  | valuePath _ filter _ =>
    have := decidableFilterNamed filter
    inferInstanceAs (Decidable (_ ∧ _))

instance : (mode : Mode) → DecidablePred (Named mode)
  | .filter, expr => decidableFilterNamed expr
  | .path, path attr _ => inferInstanceAs (Decidable (IsName attr.toList))
  | .path, valuePath _ filter _ =>
    have := decidableFilterNamed filter
    inferInstanceAs (Decidable (_ ∧ _ ∧ _))
  | .path, compare .. => decidableFilterNamed _
  | .path, search .. => decidableFilterNamed _
  | .path, present _ => decidableFilterNamed _
  | .path, join .. => decidableFilterNamed _
  | .path, group .. => decidableFilterNamed _

instance (mode : Mode) : DecidablePred (Canonical mode) := fun expr =>
  decidable_of_iff (expr.Shaped mode ∧ expr.Named mode)
    ⟨fun ⟨hshaped, hnamed⟩ => ⟨hshaped, hnamed⟩, fun h => ⟨h.shaped, h.named⟩⟩

end Expr
end ScimDirectory
