import ScimDirectory.Proofs.Filter.Characters

/-!
# Cutting texts at offsets

A text is kept in bytes, and a place in it is an offset. Cutting the text there fails when the
offset lies inside a character or behind the end: a text can be cut exactly at the boundaries of its
characters, which are the positions that are valid in it.
-/

namespace ScimDirectory.Filter

variable {s front rest text word : List Char} {n p : Nat}

theorem byteLength_cons (c : Char) (s : List Char) :
    byteLength (c :: s) = c.utf8Size + byteLength s := rfl

theorem byteLength_append (s t : List Char) :
    byteLength (s ++ t) = byteLength s + byteLength t := by
  induction s with
  | nil => exact (Nat.zero_add _).symm
  | cons c s ih => rw [List.cons_append, byteLength_cons, byteLength_cons, ih, Nat.add_assoc]

/-- A character of a name takes one byte. -/
theorem utf8Size_of_isNameChar {c : Char} (h : isNameChar c = true) : c.utf8Size = 1 := by
  simp only [isNameChar, Bool.or_eq_true, beq_iff_eq, isAsciiAlphanumeric_iff] at h
  rcases h with (((((hletter | hdigit) | rfl) | rfl) | rfl) | rfl) | rfl
  · exact utf8Size_of_letter hletter
  · rw [isDigit_iff] at hdigit
    rw [Char.utf8Size_eq_one_iff]
    show c.toNat ≤ 127
    omega
  all_goals decide

theorem byteLength_eq_length (h : ∀ c ∈ s, c.utf8Size = 1) : byteLength s = s.length := by
  induction s with
  | nil => rfl
  | cons c s ih =>
    have hrest : byteLength s = s.length := ih fun d hd => h d (List.mem_cons_of_mem c hd)
    rw [byteLength_cons, h c List.mem_cons_self, hrest, List.length_cons, Nat.add_comm]

/-- A text has as many bytes in any letter case. -/
theorem byteLength_lowerAscii (s : List Char) : byteLength (Text.lowerAscii s) = byteLength s := by
  induction s with
  | nil => rfl
  | cons c s ih =>
    have hlower : Text.lowerAscii (c :: s) = c.toLower :: Text.lowerAscii s := rfl
    rw [hlower, byteLength_cons, byteLength_cons, utf8Size_toLower, ih]

theorem InAnyCase.byteLength_eq {word : String} (h : InAnyCase word s) :
    byteLength s = byteLength word.toList := by
  rw [← h, byteLength_lowerAscii]

/-- Every character takes a byte. -/
theorem length_le_byteLength (s : List Char) : s.length ≤ byteLength s := by
  induction s with
  | nil => exact Nat.le_refl 0
  | cons c s ih =>
    have hbytes := c.utf8Size_pos
    rw [List.length_cons, byteLength_cons]
    omega

theorem byteLength_toList (text : String) : byteLength text.toList = text.utf8ByteSize := by
  have hlist (s : List Char) : byteLength s = (String.ofList s).utf8ByteSize := by
    induction s with
    | nil => rfl
    | cons c s ih =>
      rw [byteLength_cons, ih, ← List.singleton_append, String.ofList_append,
        String.utf8ByteSize_append, ← String.singleton_eq_ofList, String.utf8ByteSize_singleton]
  rw [hlist, String.ofList_toList]

/-- Cuts a text in two after a number of bytes, unless that lies inside a character or behind the
end. -/
def splitBytes? : Nat → List Char → Option (List Char × List Char)
  | 0, s => some ([], s)
  | _ + 1, [] => none
  | n + 1, c :: s =>
    if c.utf8Size ≤ n + 1 then
      (splitBytes? (n + 1 - c.utf8Size) s).map fun (front, rest) => (c :: front, rest)
    else none

/-- The part of a text between two offsets. -/
def slice? (text : List Char) (start stop : Nat) : Option (List Char) :=
  if start ≤ stop then
    (splitBytes? start text).bind fun (_, s) => (splitBytes? (stop - start) s).map Prod.fst
  else none

/-- The offset at which a text begins that ends another one. -/
def offset (text s : List Char) : Nat := byteLength text - byteLength s

/-- An offset lies between two characters of a text, or at an end of it. -/
def IsBoundary (text : List Char) (p : Nat) : Prop :=
  ∃ front rest, text = front ++ rest ∧ byteLength front = p

/-- A text is cut between its characters and nowhere else. -/
theorem splitBytes?_eq_some_iff :
    splitBytes? n s = some (front, rest) ↔ s = front ++ rest ∧ byteLength front = n := by
  fun_induction splitBytes? n s generalizing front with
  | case1 s =>
    constructor
    · intro h
      cases h
      exact ⟨rfl, rfl⟩
    · rintro ⟨rfl, hbytes⟩
      have hnil : front = [] := List.eq_nil_of_length_eq_zero
        (Nat.le_zero.mp (hbytes ▸ length_le_byteLength front))
      rw [hnil]
      rfl
  | case2 n =>
    refine iff_of_false (fun h => nomatch h) ?_
    rintro ⟨hsplit, hbytes⟩
    obtain ⟨rfl, -⟩ := List.append_eq_nil_iff.mp hsplit.symm
    cases hbytes
  | case3 n c s hfits ih =>
    rw [Option.map_eq_some_iff]
    constructor
    · rintro ⟨⟨front, last⟩, hcut, hread⟩
      cases hread
      obtain ⟨rfl, hbytes⟩ := ih.mp hcut
      refine ⟨rfl, ?_⟩
      rw [byteLength_cons]
      omega
    · rintro ⟨hsplit, hbytes⟩
      cases front with
      | nil => cases hbytes
      | cons d front =>
        obtain ⟨rfl, hrest⟩ := List.cons.inj hsplit
        rw [byteLength_cons] at hbytes
        exact ⟨(front, rest), ih.mpr ⟨hrest, by omega⟩, rfl⟩
  | case4 n c s hfits =>
    refine iff_of_false (fun h => nomatch h) ?_
    rintro ⟨hsplit, hbytes⟩
    cases front with
    | nil => cases hbytes
    | cons d front =>
      obtain ⟨rfl, -⟩ := List.cons.inj hsplit
      rw [byteLength_cons] at hbytes
      omega

example : splitBytes? 1 ['ß', 'a'] = none := rfl

theorem splitBytes?_append (front rest : List Char) :
    splitBytes? (byteLength front) (front ++ rest) = some (front, rest) :=
  splitBytes?_eq_some_iff.mpr ⟨rfl, rfl⟩

/-- A text of characters of one byte can be cut anywhere. -/
theorem splitBytes?_of_length_le (h : ∀ c ∈ s, c.utf8Size = 1) (hle : n ≤ s.length) :
    splitBytes? n s = some (s.take n, s.drop n) := by
  refine splitBytes?_eq_some_iff.mpr ⟨(List.take_append_drop n s).symm, ?_⟩
  rw [byteLength_eq_length fun c hc => h c (List.mem_of_mem_take hc), List.length_take,
    Nat.min_eq_left hle]

/-- The boundaries are the valid positions. -/
theorem isBoundary_iff_isValid {text : String} :
    IsBoundary text.toList p ↔ String.Pos.Raw.IsValid text ⟨p⟩ := by
  rw [String.Pos.Raw.isValid_iff_exists_append]
  constructor
  · rintro ⟨front, rest, hsplit, rfl⟩
    refine ⟨String.ofList front, String.ofList rest, ?_, ?_⟩
    · rw [← String.ofList_append, ← hsplit, String.ofList_toList]
    · rw [String.rawEndPos, ← byteLength_toList, String.toList_ofList]
  · rintro ⟨front, rest, rfl, hend⟩
    refine ⟨front.toList, rest.toList, String.toList_append, ?_⟩
    rw [byteLength_toList]
    exact (congrArg String.Pos.Raw.byteIdx hend).symm

theorem offset_append (front rest : List Char) :
    offset (front ++ rest) rest = byteLength front := by
  rw [offset, byteLength_append, Nat.add_sub_cancel]

/-- Only the empty text begins where a text ends. -/
theorem offset_lt_iff (h : s <:+ text) : offset text s < byteLength text ↔ s ≠ [] := by
  obtain ⟨front, rfl⟩ := h
  rw [offset_append, byteLength_append, Nat.lt_add_right_iff_pos]
  constructor
  · rintro hpos rfl
    exact Nat.lt_irrefl 0 hpos
  · intro hne
    exact Nat.lt_of_lt_of_le (List.length_pos_iff.mpr hne) (length_le_byteLength s)

/-- The offset of what ends a text is a boundary. -/
theorem isBoundary_offset (h : s <:+ text) : IsBoundary text (offset text s) := by
  obtain ⟨front, rfl⟩ := h
  exact ⟨front, s, rfl, (offset_append front s).symm⟩

/-- A text can be cut at the offset of what ends it. -/
theorem exists_splitBytes?_offset (h : s <:+ text) :
    ∃ front, splitBytes? (offset text s) text = some (front, s) := by
  obtain ⟨front, rfl⟩ := h
  exact ⟨front, by rw [offset_append, splitBytes?_append]⟩

/-- Going on over characters adds their bytes to the offset. -/
theorem offset_of_append (h : front ++ rest <:+ text) :
    offset text rest = offset text (front ++ rest) + byteLength front := by
  obtain ⟨before, rfl⟩ := h
  rw [offset_append, ← List.append_assoc, offset_append, byteLength_append]

/-- What stands between the offsets of two ends of a text is what the longer one begins with. -/
theorem slice?_offset (h : word ++ rest <:+ text) :
    slice? text (offset text (word ++ rest)) (offset text rest) = some word := by
  obtain ⟨front, hcut⟩ := exists_splitBytes?_offset h
  have hword : splitBytes? (offset text rest - offset text (word ++ rest)) (word ++ rest) =
      some (word, rest) := by
    rw [offset_of_append h, Nat.add_sub_cancel_left, splitBytes?_append]
  have hle : offset text (word ++ rest) ≤ offset text rest := by
    rw [offset_of_append h]
    exact Nat.le_add_right _ _
  rw [slice?, if_pos hle, hcut]
  exact congrArg (Option.map Prod.fst) hword

end ScimDirectory.Filter
