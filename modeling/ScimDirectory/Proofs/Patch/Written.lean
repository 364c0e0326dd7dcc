import ScimDirectory.Proofs.Directory.Preferred
import ScimDirectory.Proofs.Resource.RoundTrip
import ScimDirectory.Proofs.Resource.Valid
import ScimDirectory.Proofs.Resource.Written
import ScimDirectory.Proofs.Store.Cells

/-!
# Values as they were written

The key of an attribute is a path that points at the attribute, and the value that is written for
it is decoded to the columns and to the items of the resource it was written for.
-/

namespace ScimDirectory

/-- Truth values are kept in one column only. -/
theorem Row.isBool_of_cell {type : ResourceType} {row : Row type} {column : Column} {s : Scalar}
    (h : row.cell column = some (some s)) : (∃ b, s = .bool b) ↔ column = .active := by
  cases type <;> cases column <;>
    simp only [Row.cell, UserRow.cell, GroupRow.cell, textCell, boolCell, Option.some.injEq,
      Option.map_eq_some_iff, reduceCtorEq] at h <;>
    obtain ⟨_, _, rfl⟩ := h <;> simp

/-- A valid resource has a name. -/
theorem Resource.requiredName_ne_empty {type : ResourceType} {resource : Resource type}
    (h : Directory.validate resource = .ok ()) : (content resource).requiredName ≠ "" := by
  intro hempty
  have hblank : Text.allBlank "" = true := rfl
  cases type with
  | user =>
    have hname : User.userName resource = "" := hempty
    rw [← hname, (User.validate_eq_ok h).1] at hblank
    cases hblank
  | group =>
    have hname : Group.displayName resource = "" := hempty
    rw [← hname, (Group.validate_eq_ok h).1] at hblank
    cases hblank

namespace Patch

variable {type : ResourceType}

/-- The value that is written for a column is decoded to what the column holds. -/
theorem scalar_eq {row : Row type} {a : Attribute} (ha : a ∈ Attribute.ofType type) {field : Field}
    (hfield : field ∈ a.fields) {s : Scalar} (hcell : row.cell field.column = some (some s)) :
    scalar field s.toJson = .ok (some s) := by
  have hkind : ∀ a ∈ Attribute.ofType type, ∀ field ∈ a.fields,
      field.matching = .boolean ↔ field.column = .active := by
    cases type <;> decide
  have hbool := (Row.isBool_of_cell hcell).trans (hkind a ha field hfield).symm
  unfold scalar
  cases s with
  | bool b =>
    rw [hbool.mp ⟨b, rfl⟩]
    rfl
  | text s =>
    cases hmatching : field.matching with
    | boolean =>
      obtain ⟨b, hb⟩ := hbool.mpr hmatching
      cases hb
    | _ => rfl

/-- What is left of updates when others overwrite them: an update of the others, or one that none of
the others touches. -/
theorem mem_overwrite {updates changes : Updates} {update : Field × Option Scalar}
    (h : update ∈ overwrite updates changes) :
    update ∈ changes ∨ (update ∈ updates ∧ ∀ change ∈ changes, change.1 ≠ update.1) := by
  induction changes generalizing updates with
  | nil => exact .inr ⟨h, fun _ hmem => nomatch hmem⟩
  | cons change changes ih =>
    obtain ⟨field, content⟩ := change
    rcases ih h with hmem | ⟨hmem, hothers⟩
    · exact .inl (List.mem_cons_of_mem _ hmem)
    · obtain ⟨⟨other, old⟩, hold, rfl⟩ := List.mem_map.mp hmem
      dsimp only at hothers ⊢
      split at hothers
      · next heq =>
        rw [if_pos heq, heq]
        exact .inl List.mem_cons_self
      · next hne =>
        rw [if_neg hne]
        refine .inr ⟨hold, fun change hchange => ?_⟩
        rcases List.mem_cons.mp hchange with rfl | hchange
        · exact fun heq => hne heq.symm
        · exact hothers change hchange

/-- The value that is written for a name is decoded to its components. -/
theorem complexUpdates_name {row : UserRow} {value : Json} (h : row.name.toJson.Reordered value) :
    ∃ changes, complexUpdates .user "name" value = .ok changes ∧ value.isNull = false ∧
      (∀ change ∈ changes, row.cell change.1.column = some change.2) ∧
      ∀ field ∈ Attribute.name.fields, (∀ change ∈ changes, change.1 ≠ field) →
        row.cell field.column = some none := by
  rw [PersonName.toJson_eq] at h
  obtain ⟨members, rfl, hmembers⟩ := Members.rearranged_of_reordered h
  have hkeys : (Attribute.components.map Prod.fst).Nodup := by decide
  have hstep : ∀ member ∈ members, ∃ change,
      memberUpdate ((AttributeTable.ofType .user).field? ("name" ++ "." ++ member.1)) "name"
        member.1 member.2 = .ok change ∧
      (member.1, change.1) ∈ Attribute.components ∧ row.cell change.1.column = some change.2 := by
    rintro ⟨key, value⟩ hmem
    obtain ⟨written, hwritten, hvalue⟩ := hmembers.values key value hmem
    obtain ⟨field, hfield, s, hcell, rfl⟩ :=
      Attribute.mem_nameParts.mp (Members.mem_present.mp hwritten)
    obtain rfl := Scalar.eq_of_reordered hvalue
    have hscalar : scalar field s.toJson = .ok (some s) :=
      @scalar_eq .user row .name (by decide) field (List.mem_map_of_mem hfield) s hcell
    refine ⟨(field, some s), ?_, hfield, hcell⟩
    rw [Attribute.field?_component hfield, memberUpdate, hscalar]
    rfl
  obtain ⟨changes, hchanges, hall⟩ := exists_mapM_eq_ok hstep
  refine ⟨changes, hchanges, rfl, fun change hmem => ?_, fun field hfield huntouched => ?_⟩
  · obtain ⟨_, -, -, hcell⟩ := exists_left_of_forall₂ hall hmem
    exact hcell
  · obtain ⟨content, hcell⟩ := @Attribute.exists_cell .user row .name (by decide) field.column
      (List.mem_map_of_mem hfield)
    obtain ⟨⟨key, field⟩, hcomponent, rfl⟩ := List.mem_map.mp hfield
    cases content with
    | none => exact hcell
    | some s =>
      -- What the column holds was written, so one of the changes is for it.
      have hpart : (key, some s.toJson) ∈ Attribute.nameParts row :=
        Attribute.mem_nameParts.mpr ⟨field, hcomponent, s, hcell, rfl⟩
      have hkey := hmembers.keys.mem_iff.mp (List.mem_map_of_mem (Members.mem_present.mpr hpart))
      obtain ⟨member, hmember, hsame⟩ := List.mem_map.mp hkey
      obtain ⟨change, hchange, hlisted, -⟩ := exists_left_of_forall₂ hall.flip hmember
      have hone := List.inj_on_of_nodup_map hkeys hlisted hcomponent hsame
      exact absurd (congrArg Prod.snd hone) (huntouched change hchange)

/-- Items that are each decoded to a row of their own are decoded to the rows of a list. -/
theorem itemsFrom_eq {α : Type} {root : ServiceRoot} {relation : Relation} {owner : Uuid}
    {write : α → Json} {toRow : α → ItemId → Uuid → ItemRow} {xs : List α} {values : List Json}
    (hitem : ∀ x ∈ xs, ∀ id value, (write x).Reordered value →
      item root relation id owner value = .ok (toRow x id owner))
    (hvalues : List.Forall₂ Json.Reordered (xs.map write) values) (draw place : Nat) :
    itemsFrom root relation draw place owner values =
      .ok (xs.mapIdx fun i x => toRow x (.drawn draw (place + i)) owner) := by
  rw [List.forall₂_map_left_iff] at hvalues
  induction hvalues generalizing place with
  | nil => rfl
  | @cons x value xs values hfirst _ ih =>
    have hrest := ih (fun x' hmem => hitem x' (List.mem_cons_of_mem x hmem)) (place + 1)
    have hplaces : (xs.mapIdx fun i x => toRow x (.drawn draw (place + 1 + i)) owner) =
        xs.mapIdx fun i x => toRow x (.drawn draw (place + (i + 1))) owner := by
      simp only [Nat.add_assoc, Nat.add_comm 1]
    rw [itemsFrom, hitem x List.mem_cons_self _ value hfirst, hrest, List.mapIdx_cons, hplaces]
    rfl

/-- The value that is written for a list is decoded to the rows of the list. -/
theorem standIns_writtenList {α : Type} {root : ServiceRoot} {relation : Relation} {owner : Uuid}
    {write : α → Json} {toRow : α → ItemId → Uuid → ItemRow} {xs : List α} {json value : Json}
    (hitem : ∀ x ∈ xs, ∀ id value, (write x).Reordered value →
      item root relation id owner value = .ok (toRow x id owner))
    (hwritten : Attribute.writtenList write xs = some json) (h : json.Reordered value)
    (draw : Nat) : standIns root owner relation draw value = .ok (rowsOf toRow draw owner xs) := by
  have hall : ∃ values, value = .array values ∧
      List.Forall₂ Json.Reordered (xs.map write) values := by
    unfold Attribute.writtenList at hwritten
    split at hwritten
    · cases hwritten
    · cases hwritten
      cases h with
      | refl => exact ⟨_, rfl, List.forall₂_same.mpr fun value _ => .refl value⟩
      | array h => exact ⟨_, rfl, h⟩
  obtain ⟨values, rfl, hvalues⟩ := hall
  have hfrom := itemsFrom_eq hitem hvalues draw 0
  simp only [Nat.zero_add] at hfrom
  exact hfrom

end Patch

open Patch (item)

/-- A plain value is decoded to its row. -/
theorem MultiValue.item_eq {root : ServiceRoot} {c : Collection} {id : ItemId} {owner : Uuid}
    {v : MultiValue} (hvalue : v.hasValue = true) {json : Json} (h : v.toJson.Reordered json) :
    item root (.values c) id owner json = .ok (v.toRow id owner) := by
  simp only [item, (MultiValue.readBack v json h).2, checkValues, List.all_cons, hvalue,
    List.all_nil]
  rfl

theorem Address.item_eq {root : ServiceRoot} {id : ItemId} {owner : Uuid} {address : Address}
    {json : Json} (h : address.toJson.Reordered json) :
    item root .addresses id owner json = .ok (address.toRow id owner) := by
  simp only [item, (Address.readBack address json h).2]

theorem Member.item_eq {root : ServiceRoot} {id : ItemId} {owner : Uuid} {member : Member}
    (hvalid : member.validate = .ok ()) {json : Json} (h : member.toJson.Reordered json) :
    item root .members id owner json = .ok (member.toRow root id owner) := by
  simp only [item, (Member.readBack member json h).2, hvalid]
  rfl

/-- The value that is written for the items of a relation is decoded to the item rows of the
resource. -/
theorem Directory.replacements_written (d : Directory) {type : ResourceType}
    {resource : Resource type} (hvalid : validate resource = .ok ()) {relation : Relation}
    {json value : Json}
    (hwritten : (Attribute.listed relation).written resource = some json)
    (h : json.Reordered value) (draw : Nat) (owner : Uuid) :
    Patch.replacements d.config.root owner relation draw value =
      .ok (d.itemRows resource draw owner relation) := by
  have hprimary : Patch.checkPrimary relation (d.itemRows resource draw owner relation) = .ok () :=
    Patch.checkPrimary_eq_ok.mpr (d.onePreferred_of_validate hvalid draw owner relation)
  have hrows : Patch.standIns d.config.root owner relation draw value =
      .ok (d.itemRows resource draw owner relation) := by
    cases type with
    | user =>
      obtain ⟨-, hcollections, -⟩ := User.validate_eq_ok hvalid
      cases relation with
      | values c =>
        have hvalues := MultiValue.hasValue_of_checkValues
          (User.checkCollection_eq_ok (hcollections c)).1
        exact Patch.standIns_writtenList (fun v hmem _ _ => MultiValue.item_eq (hvalues v hmem))
          hwritten h draw
      | addresses =>
        exact Patch.standIns_writtenList (fun _ _ _ _ => Address.item_eq) hwritten h draw
      | members => cases hwritten
    | group =>
      obtain ⟨-, hmembers⟩ := Group.validate_eq_ok hvalid
      cases relation with
      | members =>
        exact Patch.standIns_writtenList
          (fun member hmem _ _ => Member.item_eq (hmembers member hmem)) hwritten h draw
      | _ => cases hwritten
  exact Patch.replacements_eq hrows hprimary

end ScimDirectory
