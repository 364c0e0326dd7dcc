import ScimDirectory.Proofs.Directory.Membership
import ScimDirectory.Proofs.Patch.Columns
import Mathlib.Logic.Relation

/-!
# Writes

Everything that a command can do to storage is one of a few writes on behalf of a resource, each
with the checks that it has passed, or the leaving of a user from all groups. What holds of empty
tables and is kept by each of these changes holds of every directory that can be reached, whatever
is asked of it and in whatever order.
-/

open Relation (ReflTransGen)

namespace ScimDirectory

/-- The rows of listed items have fresh keys and one owner. -/
theorem keys_of_rowsOf {α : Type} {toRow : α → ItemId → Uuid → ItemRow}
    (h : ∀ a id owner, (toRow a id owner).id = id ∧ (toRow a id owner).owner = owner) (draw : Nat)
    (owner : Uuid) (items : List α) :
    FreshKeys draw (rowsOf toRow draw owner items) ∧
      ∀ item ∈ rowsOf toRow draw owner items, item.owner = owner := by
  constructor
  · refine @FreshKeys.of_map_id draw _ 0 (List.ext_getElem (by simp) fun place hleft hright => ?_)
    simp [rowsOf, h]
  · intro item hmem
    obtain ⟨place, hlt, rfl⟩ := List.mem_mapIdx.mp hmem
    exact (h _ _ _).2

/-- What is read off the rows of listed items is what it is of the items. -/
theorem map_rowsOf {α β : Type} {toRow : α → ItemId → Uuid → ItemRow} {read : ItemRow → β}
    {f : α → β} (h : ∀ a id owner, read (toRow a id owner) = f a) (draw : Nat) (owner : Uuid)
    (items : List α) : (rowsOf toRow draw owner items).map read = items.map f :=
  List.ext_getElem (by simp [rowsOf]) fun place hleft hright => by simp [rowsOf, h]

/-- The item rows of a resource's relation. -/
def Directory.itemRows (d : Directory) : {type : ResourceType} → Resource type → Nat → Uuid →
    Relation → List ItemRow
  | .user, user, draw, owner => User.itemRows user draw owner
  | .group, group, draw, owner => Group.itemRows d.config.root group draw owner

/-- The item rows of a resource have fresh keys and one owner. -/
theorem Directory.keys_of_itemRows (d : Directory) {type : ResourceType} (resource : Resource type)
    (draw : Nat) (owner : Uuid) (relation : Relation) :
    FreshKeys draw (d.itemRows resource draw owner relation) ∧
      ∀ item ∈ d.itemRows resource draw owner relation, item.owner = owner := by
  have hnone : FreshKeys draw [] ∧ ∀ item ∈ ([] : List ItemRow), item.owner = owner :=
    ⟨FreshKeys.nil, fun _ hmem => nomatch hmem⟩
  cases type with
  | user =>
    cases relation with
    | values c => exact keys_of_rowsOf (fun _ _ _ => ⟨rfl, rfl⟩) draw owner _
    | addresses => exact keys_of_rowsOf (fun _ _ _ => ⟨rfl, rfl⟩) draw owner _
    | members => exact hnone
  | group =>
    cases relation with
    | values c => exact hnone
    | addresses => exact hnone
    | members => exact keys_of_rowsOf (fun _ _ _ => ⟨rfl, rfl⟩) draw owner _

/-- What is stored, and how often keys have been drawn. -/
abbrev Stock := Tables × Nat

/-- The stock of a world. -/
abbrev World.stock (w : World Tables) : Stock := (w.store, w.draws)

namespace Directory

variable {d : Directory} {type : ResourceType} {id : Uuid}

/-- The row of a record that is made for a key has that key. -/
theorem id_recordOf (d : Directory) (resource : Resource type) (id : Uuid)
    (created now : Instant) (draw : Nat) :
    (d.recordOf resource id created now draw).row.id = id := by
  cases type <;> rfl

/-- The record of a resource has the resource's item rows. -/
theorem items_recordOf (d : Directory) (resource : Resource type) (id : Uuid)
    (created now : Instant) (draw : Nat) (relation : Relation) :
    (d.recordOf resource id created now draw).items relation =
      if relation.owner = type then d.itemRows resource draw id relation else [] := by
  cases type <;> exact items_childrenOf _ _ relation

/-- The record of a resource is drawn. -/
theorem drawn_recordOf (d : Directory) (resource : Resource type) (id : Uuid)
    (created now : Instant) (draw : Nat) :
    (d.recordOf resource id created now draw).Drawn draw := by
  have hkeys := d.keys_of_itemRows resource draw id
  cases type <;>
    exact drawn_childrenOf (fun relation => (hkeys relation).1) fun relation => (hkeys relation).2

/-- A write on behalf of a resource, with the checks that it has passed. -/
inductive Write (d : Directory) (type : ResourceType) (id : Uuid) : Stock → Stock → Prop where
  /-- Keys are drawn that come to nothing. -/
  | draw {tables : Tables} {draws more : Nat} (hmore : draws ≤ more) :
    Write d type id (tables, draws) (tables, more)
  /-- A valid resource is stored as a new one. -/
  | create {tables after : Tables} {draws : Nat} (resource : Resource type) (now : Instant)
      {stored : Record type} (hvalid : validate resource = .ok ())
      (hwrite : tables.insert (d.recordOf resource id now now draws) = .ok (stored, after)) :
    Write d type id (tables, draws) (after, draws + 1)
  /-- A valid resource takes the place of a stored one. -/
  | replace {tables after : Tables} {draws : Nat} (resource : Resource type) (now : Instant)
      {row : Row type} {stored : Record type} (hfind : tables.find? type id = some row)
      (hvalid : validate resource = .ok ())
      (hwrite : tables.replace (d.recordOf resource id row.created now draws) =
        .ok (stored, after)) :
    Write d type id (tables, draws) (after, draws + 1)
  /-- A row and its items are deleted. -/
  | delete {tables : Tables} {draws : Nat} :
    Write d type id (tables, draws) ((tables.delete type id).2, draws)
  /-- Columns of a row are written. -/
  | assign {tables after : Tables} {draws : Nat} {row new stored : Row type} (updates : Patch.Updates)
      (hfind : tables.find? type id = some row)
      (hassigned : Patch.assigned row updates = .ok new)
      (hwrite : tables.update new = .ok (stored, after)) :
    Write d type id (tables, draws) (after, draws)
  /-- Items are added to a relation. -/
  | add {tables : Tables} {draws : Nat} {relation : Relation} {fresh : List ItemRow}
      (value : Json) (hrelation : relation.owner = type) (hthere : tables.has type id = true)
      (hplan : Patch.additions d.config.root id relation draws value
        (tables.ownedItems id relation) = .ok fresh) :
    Write d type id (tables, draws) (tables.append relation fresh, draws + 1)
  /-- All items of a relation are replaced. -/
  | reset {tables : Tables} {draws : Nat} {relation : Relation} {rows : List ItemRow}
      (value : Json) (hrelation : relation.owner = type) (hthere : tables.has type id = true)
      (hplan : Patch.replacements d.config.root id relation draws value = .ok rows) :
    Write d type id (tables, draws)
      ((tables.without relation (·.owner = id)).append relation rows, draws + 1)
  /-- Items of a relation are removed. -/
  | remove {tables : Tables} {draws : Nat} {relation : Relation} (test : ItemRow → Bool)
      (hrelation : relation.owner = type) :
    Write d type id (tables, draws)
      (tables.without relation fun item => item.owner = id ∧ test item, draws)
  /-- A sub-attribute of one item is set. -/
  | adjust {tables : Tables} {draws : Nat} {relation : Relation} {item : ItemRow}
      (filter : Predicate) (field : Field) (value : Json) (hrelation : relation.owner = type)
      (hplan : Patch.adjusted relation filter field value (tables.ownedItems id relation) =
        .ok item) :
    Write d type id (tables, draws) (tables.rewrite relation (overlay [item]), draws)
  /-- Sub-attributes of all items that a filter picks are set. -/
  | merge {tables : Tables} {draws : Nat} {relation : Relation} {changed : List ItemRow}
      (filter : Predicate) (value : Json) (hrelation : relation.owner = type)
      (hplan : Patch.merged relation filter value (tables.ownedItems id relation) =
        .ok changed) :
    Write d type id (tables, draws) (tables.rewrite relation (overlay changed), draws)
  /-- A row gets its time of change, and its version if the settings ask for one. -/
  | finish {tables after : Tables} {draws : Nat} {row stored : Row type} (now : Instant)
      (hfind : tables.find? type id = some row)
      (hwrite : tables.update (d.finished now (tables.record row)) = .ok (stored, after)) :
    Write d type id (tables, draws) (after, draws)

/-- Writes on behalf of a resource, one after the other. -/
abbrev Writes (d : Directory) (type : ResourceType) (id : Uuid) : Stock → Stock → Prop :=
  ReflTransGen (Write d type id)

/-- Every write keeps tables sound. -/
theorem Write.sound {before after : Stock} (h : Write d type id before after)
    (hsound : before.1.Sound before.2) : after.1.Sound after.2 := by
  cases h with
  | draw hmore => exact hsound.mono hmore
  | create resource now hvalid hwrite =>
    exact hsound.insert (d.drawn_recordOf resource id now now _) hwrite
  | replace resource now hfind hvalid hwrite =>
    exact hsound.replace (d.drawn_recordOf resource id _ now _) hwrite
  | delete => exact hsound.delete type id
  | assign updates hfind hassigned hwrite => exact hsound.update hwrite
  | add value hrelation hthere hplan =>
    obtain ⟨hfresh, howners⟩ := Patch.keys_of_additions hplan
    refine hsound.append hfresh fun item hmem => ?_
    rw [howners item hmem, hrelation]
    exact hthere
  | reset value hrelation hthere hplan =>
    obtain ⟨hrows, -⟩ := Patch.replacements_eq_ok hplan
    obtain ⟨hfresh, howners⟩ := Patch.keys_of_standIns hrows
    refine (hsound.without _ _).append hfresh fun item hmem => ?_
    rw [howners item hmem, hrelation, Tables.without, Tables.has_mk_items]
    exact hthere
  | remove test hrelation => exact hsound.without _ fun item => item.owner = id ∧ test item
  | adjust filter field value hrelation hplan =>
    obtain ⟨updates, heq⟩ := Patch.rewrite_adjusted (hsound.unique _) hplan
    rw [heq]
    exact hsound.rewrite (fun item => (Patch.keys_of_revised _ _ _ item).1)
      fun item => (Patch.keys_of_revised _ _ _ item).2
  | merge filter value hrelation hplan =>
    obtain ⟨updates, heq⟩ := Patch.rewrite_merged (hsound.unique _) hplan
    rw [heq]
    exact hsound.rewrite (fun item => (Patch.keys_of_revised _ _ _ item).1)
      fun item => (Patch.keys_of_revised _ _ _ item).2
  | finish now hfind hwrite => exact hsound.update hwrite

/-- Writes keep tables sound. -/
theorem Writes.sound {before after : Stock} (h : d.Writes type id before after)
    (hsound : before.1.Sound before.2) : after.1.Sound after.2 := by
  induction h with
  | refl => exact hsound
  | tail _ hwrite ih => exact hwrite.sound ih

/-- A change of the stock: a write on behalf of a resource, or a user leaves all groups. -/
inductive Change (d : Directory) : Stock → Stock → Prop where
  /-- A write on behalf of a resource. -/
  | write {type : ResourceType} {id : Uuid} {before after : Stock}
      (h : d.Write type id before after) : Change d before after
  /-- A user leaves all groups. -/
  | leave {tables : Tables} {draws : Nat} (user : Uuid) :
    Change d (tables, draws) (tables.withoutMember user, draws)

/-- Changes, one after the other. -/
abbrev Changes (d : Directory) : Stock → Stock → Prop := ReflTransGen (Change d)

/-- Writes on behalf of one resource are changes. -/
theorem Writes.changes {before after : Stock} (h : d.Writes type id before after) :
    d.Changes before after :=
  ReflTransGen.mono (fun _ _ => .write) before after h

/-- Every change keeps tables sound. -/
theorem Change.sound {before after : Stock} (h : d.Change before after)
    (hsound : before.1.Sound before.2) : after.1.Sound after.2 := by
  cases h with
  | write h => exact h.sound hsound
  | leave user => exact hsound.without .members (memberIs [user]).picks

end Directory

end ScimDirectory
