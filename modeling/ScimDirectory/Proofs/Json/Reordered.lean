import ScimDirectory.Json.Members
import Mathlib.Data.List.Forall2
import Mathlib.Data.List.Nodup

/-!
# Objects in another order

The order of an object's members means nothing: whoever passes an object on may put its members
in another order, at every depth. While keys are distinct, a field that was written is read back
from any such order.
-/

namespace ScimDirectory

/-- The same value, up to the order of the members of its objects. -/
inductive Json.Reordered : Json → Json → Prop where
  /-- A value is itself. -/
  | refl (value : Json) : Reordered value value
  /-- The elements of an array stay in their places. -/
  | array {values others : List Json} (h : List.Forall₂ Reordered values others) :
    Reordered (.array values) (.array others)
  /-- The members of an object keep their keys and are put in any order. -/
  | object {members inPlace others : List (String × Json)}
      (hkeys : members.map Prod.fst = inPlace.map Prod.fst)
      (hvalues : List.Forall₂ Reordered (members.map Prod.snd) (inPlace.map Prod.snd))
      (horder : inPlace.Perm others) : Reordered (.object members) (.object others)

/-- What is written of one thing is read back however its objects are ordered, and is not `null`. -/
def Json.ReadsBack {α : Type} (write : α → Json) (read : Json → Option α) (a : α) : Prop :=
  ∀ value, (write a).Reordered value → value ≠ .null ∧ read value = some a

/-- A value that was written is read back however its objects are ordered, and it is not `null`. -/
def Json.ReadBack {α : Type} (write : α → Json) (read : Json → Option α) : Prop :=
  ∀ a value, (write a).Reordered value → value ≠ .null ∧ read value = some a

namespace Json

theorem readBack_text : ReadBack .text text? := by
  intro s value h
  cases h
  exact ⟨nofun, rfl⟩

theorem readBack_bool : ReadBack .bool bool? := by
  intro b value h
  cases h
  exact ⟨nofun, rfl⟩

/-- An array is read element by element, however their objects are ordered. -/
theorem exists_list? {α : Type} {write : α → Json} {read : Json → Option α} {R : α → α → Prop}
    {xs : List α}
    (hread : ∀ a ∈ xs, ∀ value, (write a).Reordered value → ∃ b, read value = some b ∧ R a b)
    {value : Json} (h : (Json.array (xs.map write)).Reordered value) :
    value ≠ .null ∧ ∃ ys, value.list? read = some ys ∧ List.Forall₂ R xs ys := by
  have helements : ∀ {values : List Json}, List.Forall₂ Reordered (xs.map write) values →
      ∃ ys, values.mapM read = some ys ∧ List.Forall₂ R xs ys := by
    clear h
    induction xs with
    | nil =>
      intro values h
      cases h
      exact ⟨[], rfl, .nil⟩
    | cons a xs ih =>
      intro values h
      obtain ⟨hfirst, hrest⟩ := List.forall_mem_cons.mp hread
      cases h with
      | cons hvalue hvalues =>
        obtain ⟨b, hb, hsame⟩ := hfirst _ hvalue
        obtain ⟨ys, hys, hall⟩ := ih hrest hvalues
        refine ⟨b :: ys, ?_, .cons hsame hall⟩
        simp only [List.mapM_cons, hb, hys]
        rfl
  cases h with
  | refl => exact ⟨nofun, helements (List.forall₂_same.mpr fun value _ => .refl value)⟩
  | array hvalues => exact ⟨nofun, helements hvalues⟩

/-- A list is read back when its elements are. -/
theorem readsBack_list {α : Type} {write : α → Json} {read : Json → Option α} {xs : List α}
    (hread : ∀ a ∈ xs, ReadsBack write read a) :
    ReadsBack (fun xs : List α => .array (xs.map write)) (list? read) xs := by
  intro value h
  obtain ⟨hnull, ys, hys, hsame⟩ :=
    exists_list? (R := Eq) (fun a hmem value hvalue => ⟨a, (hread a hmem value hvalue).2, rfl⟩) h
  rw [List.forall₂_eq_eq_eq] at hsame
  exact ⟨hnull, hsame ▸ hys⟩

theorem readBack_texts : ReadBack texts (list? text?) :=
  fun _ => readsBack_list fun s _ => readBack_text s

end Json

namespace Members

/-- Members in another order: the keys are the same, and each has the same value. -/
structure Rearranged (members others : Members) : Prop where
  /-- The keys. -/
  keys : (members.map Prod.fst).Perm (others.map Prod.fst)
  /-- The values. -/
  values : ∀ key value, (key, value) ∈ others →
    ∃ written, (key, written) ∈ members ∧ Json.Reordered written value

theorem Rearranged.refl (members : Members) : members.Rearranged members :=
  ⟨.refl _, fun _ value hmem => ⟨value, hmem, .refl value⟩⟩

/-- Members that stand in the places of others belong to them one by one. -/
theorem exists_of_mem_inPlace {members inPlace : Members} {key : String} {value : Json}
    (hkeys : members.map Prod.fst = inPlace.map Prod.fst)
    (hvalues : List.Forall₂ Json.Reordered (members.map Prod.snd) (inPlace.map Prod.snd))
    (hmem : (key, value) ∈ inPlace) :
    ∃ written, (key, written) ∈ members ∧ written.Reordered value := by
  rw [List.forall₂_map_left_iff, List.forall₂_map_right_iff] at hvalues
  induction hvalues with
  | nil => cases hmem
  | @cons first _ _ _ hfirst _ ih =>
    obtain ⟨key', written⟩ := first
    obtain ⟨hkey, hkeys⟩ := List.cons.inj hkeys
    rcases List.mem_cons.mp hmem with rfl | hmem
    · obtain rfl : key' = key := hkey
      exact ⟨written, List.mem_cons_self, hfirst⟩
    · obtain ⟨written, hwritten, hvalue⟩ := ih hkeys hmem
      exact ⟨written, List.mem_cons_of_mem _ hwritten, hvalue⟩

/-- A reordered object is an object with rearranged members. -/
theorem rearranged_of_reordered {members : Members} {value : Json}
    (h : (Json.object members).Reordered value) :
    ∃ others : Members, value = .object others ∧ members.Rearranged others := by
  cases h with
  | refl => exact ⟨members, rfl, .refl members⟩
  | object hkeys hvalues horder =>
    refine ⟨_, rfl, hkeys ▸ horder.map _, fun key value hmem => ?_⟩
    exact exists_of_mem_inPlace hkeys hvalues (horder.mem_iff.mpr hmem)

/-- Among distinct keys, each finds its own value. -/
theorem lookup_eq_some_iff {members : Members} (h : (members.map Prod.fst).Nodup) {key : String}
    {value : Json} : members.lookup key = some value ↔ (key, value) ∈ members := by
  induction members with
  | nil => simp
  | cons first members ih =>
    obtain ⟨other, found⟩ := first
    obtain ⟨hfirst, hrest⟩ := List.nodup_cons.mp h
    by_cases hkey : key = other
    · subst hkey
      have hother : (key, value) ∉ members := fun hmem =>
        hfirst (List.mem_map.mpr ⟨(key, value), hmem, rfl⟩)
      simp [hother, eq_comm]
    · simp [List.lookup_cons, ih hrest, hkey, beq_eq_false_iff_ne.mpr hkey]

/-- The members of those parts that are there. -/
def present (parts : List (String × Option Json)) : Members :=
  parts.filterMap fun (key, value) => value.map (key, ·)

theorem mem_present {parts : List (String × Option Json)} {key : String} {value : Json} :
    (key, value) ∈ present parts ↔ (key, some value) ∈ parts := by
  simp only [present, List.mem_filterMap, Option.map_eq_some_iff, Prod.mk.injEq]
  constructor
  · rintro ⟨⟨_, _⟩, hmem, _, rfl, rfl, rfl⟩
    exact hmem
  · exact fun hmem => ⟨(key, some value), hmem, value, rfl, rfl, rfl⟩

/-- The keys of what is there are some of the keys. -/
theorem keys_present_sublist (parts : List (String × Option Json)) :
    ((present parts).map Prod.fst).Sublist (parts.map Prod.fst) := by
  induction parts with
  | nil => exact List.Sublist.refl _
  | cons part parts ih =>
    obtain ⟨key, _ | value⟩ := part
    · exact ih.cons key
    · exact ih.cons_cons key

theorem ofOption_eq_present {α : Type} (key : String) (write : α → Json) (x : Option α) :
    ofOption key write x = present [(key, x.map write)] := by
  cases x <;> rfl

theorem ofList_eq_present {α : Type} (key : String) (write : α → Json) (values : List α) :
    ofList key write values =
      present [(key, if values.isEmpty then none else some (.array (values.map write)))] := by
  cases values <;> rfl

theorem cons_present (key : String) (value : Json) (parts : List (String × Option Json)) :
    (key, value) :: present parts = present ((key, some value) :: parts) := rfl

theorem filter_present (test : String → Bool) (parts : List (String × Option Json)) :
    (present parts).filter (fun member => test member.1) =
      present (parts.filter fun part => test part.1) := by
  induction parts with
  | nil => rfl
  | cons part parts ih =>
    obtain ⟨key, _ | value⟩ := part <;> by_cases h : test key = true <;>
      simp_all [present]

theorem present_append (parts more : List (String × Option Json)) :
    present (parts ++ more) = present parts ++ present more :=
  List.filterMap_append

/-- Among distinct keys, each finds what is there for it. -/
theorem lookup_present {parts : List (String × Option Json)} (hnodup : (parts.map Prod.fst).Nodup)
    {key : String} {part : Option Json} (hpart : (key, part) ∈ parts) :
    (present parts).lookup key = part := by
  have hkeys := hnodup.sublist (keys_present_sublist parts)
  refine Option.ext fun value => ?_
  rw [lookup_eq_some_iff hkeys, mem_present]
  constructor
  · exact fun hmem => congrArg Prod.snd (List.inj_on_of_nodup_map hnodup hpart hmem rfl)
  · rintro rfl
    exact hpart

section

variable {parts : List (String × Option Json)} {others : Members}
  (h : (present parts).Rearranged others) (hnodup : (parts.map Prod.fst).Nodup)

include h hnodup

/-- Rearranged members find for a key what was written for it. -/
theorem Rearranged.lookup {key : String} {part : Option Json} (hpart : (key, part) ∈ parts) :
    Option.Rel Json.Reordered part (others.lookup key) := by
  have hone : ∀ {written : Json}, (key, written) ∈ present parts → part = some written :=
    fun hmem => congrArg Prod.snd (List.inj_on_of_nodup_map hnodup hpart (mem_present.mp hmem) rfl)
  have hothers : (others.map Prod.fst).Nodup :=
    h.keys.nodup_iff.mp (hnodup.sublist (keys_present_sublist parts))
  cases hfound : others.lookup key with
  | some value =>
    obtain ⟨written, hwritten, hvalue⟩ :=
      h.values key value ((lookup_eq_some_iff hothers).mp hfound)
    rw [hone hwritten]
    exact .some hvalue
  | none =>
    cases part with
    | none => exact .none
    | some written =>
      have hkey : key ∈ others.map Prod.fst :=
        h.keys.mem_iff.mp (List.mem_map_of_mem (mem_present.mpr hpart))
      obtain ⟨⟨_, value⟩, hmem, rfl⟩ := List.mem_map.mp hkey
      rw [(lookup_eq_some_iff hothers).mpr hmem] at hfound
      cases hfound

variable {α : Type} {write : α → Json} {read : Json → Option α} {key : String}

/-- An optional field that was written is read back, if its value is. -/
theorem Rearranged.optional_eq_of {x : Option α} (hread : ∀ a ∈ x, Json.ReadsBack write read a)
    (hpart : (key, x.map write) ∈ parts) : others.optional key read = some x := by
  have hlookup := h.lookup hnodup hpart
  unfold optional
  generalize others.lookup key = found at hlookup
  cases x with
  | none =>
    cases hlookup
    rfl
  | some a =>
    cases hlookup with
    | @some _ value hvalue =>
      obtain ⟨hnull, hread⟩ := hread a rfl value hvalue
      cases value with
      | null => exact absurd rfl hnull
      | _ => exact congrArg (Option.map some) hread

/-- A field that must be there is read back, if its value is. -/
theorem Rearranged.required_eq_of {a : α} (hread : Json.ReadsBack write read a)
    (hpart : (key, some (write a)) ∈ parts) : others.required key read = some a := by
  have hlookup := h.lookup hnodup hpart
  unfold required
  generalize others.lookup key = found at hlookup
  cases hlookup with
  | @some _ value hvalue => exact (hread value hvalue).2

/-- A field with a default that was written is read back, if its value is. -/
theorem Rearranged.withDefault_eq_of {a : α} (hread : Json.ReadsBack write read a)
    (hpart : (key, some (write a)) ∈ parts) (default : α) :
    others.withDefault key default read = some a := by
  have hlookup := h.lookup hnodup hpart
  unfold withDefault
  generalize others.lookup key = found at hlookup
  cases hlookup with
  | @some _ value hvalue => exact (hread value hvalue).2

/-- A list that is left out when it is empty is read back, if its elements are. -/
theorem Rearranged.list_eq_of {xs : List α} (hread : ∀ a ∈ xs, Json.ReadsBack write read a)
    (hpart : (key, if xs.isEmpty then none else some (.array (xs.map write))) ∈ parts) :
    others.withDefault key [] (Json.list? read) = some xs := by
  cases xs with
  | nil =>
    have hlookup := h.lookup hnodup hpart
    unfold withDefault
    generalize others.lookup key = found at hlookup
    cases hlookup
    rfl
  | cons a xs => exact h.withDefault_eq_of hnodup (Json.readsBack_list hread) hpart []

variable (hread : Json.ReadBack write read)

include hread

/-- An optional field that was written is read back. -/
theorem Rearranged.optional_eq {x : Option α} (hpart : (key, x.map write) ∈ parts) :
    others.optional key read = some x :=
  h.optional_eq_of hnodup (fun a _ => hread a) hpart

/-- A field with a default that was written is read back. -/
theorem Rearranged.withDefault_eq {a : α} (hpart : (key, some (write a)) ∈ parts) (default : α) :
    others.withDefault key default read = some a :=
  h.withDefault_eq_of hnodup (hread a) hpart default

end

end Members

end ScimDirectory
