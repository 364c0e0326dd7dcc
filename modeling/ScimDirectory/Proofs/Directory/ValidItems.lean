import ScimDirectory.Proofs.Directory.Instructions
import ScimDirectory.Proofs.Resource.Valid

/-!
# Valid items

Items are checked when a resource is stored and when they are added, each time in another shape: as
parts of a resource and as decoded values. What an update makes of an item is checked if it is a
member. So the items that whole resources and additions bring are valid in every relation, and
members stay valid whatever is asked of a directory.
-/

namespace ScimDirectory

/-- What the check of a resource asks of an item of a relation. -/
def ItemRow.IsValid (relation : Relation) (item : ItemRow) : Prop :=
  match relation with
  | .values _ => item.toValue.hasValue = true
  | .addresses => True
  | .members => item.toMember.validate = .ok ()

/-- The items of a valid resource are valid. -/
theorem Directory.isValid_of_validate (d : Directory) {type : ResourceType}
    {resource : Resource type} (h : validate resource = .ok ()) (draw : Nat) (owner : Uuid)
    (relation : Relation) :
    ∀ item ∈ d.itemRows resource draw owner relation, item.IsValid relation := by
  have hrows : ∀ {α β : Type} {toRow : α → ItemId → Uuid → ItemRow} {read : ItemRow → β}
      {f : α → β} {b : β} {items : List α}, (∀ a id owner, read (toRow a id owner) = f a) →
      (∀ a ∈ items, f a = b) → ∀ item ∈ rowsOf toRow draw owner items, read item = b := by
    intro α β toRow read f b items hread hitems item hmem
    have hlisted := List.mem_map_of_mem (f := read) hmem
    rw [map_rowsOf hread] at hlisted
    obtain ⟨a, ha, heq⟩ := List.mem_map.mp hlisted
    exact heq.symm.trans (hitems a ha)
  cases type with
  | user =>
    obtain ⟨-, hcollections, -⟩ := User.validate_eq_ok h
    cases relation with
    | values c =>
      have hvalues := MultiValue.hasValue_of_checkValues (User.checkCollection_eq_ok
        (hcollections c)).1
      exact @hrows _ _ MultiValue.toRow (fun item => item.toValue.hasValue) _ _ _
        (fun _ _ _ => rfl) hvalues
    | addresses => exact fun _ _ => trivial
    | members => exact fun _ hmem => nomatch hmem
  | group =>
    cases relation with
    | values c => exact fun _ hmem => nomatch hmem
    | addresses => exact fun _ _ => trivial
    | members =>
      obtain ⟨-, hmembers⟩ := Group.validate_eq_ok h
      exact @hrows _ _ (Member.toRow d.config.root) (fun item => item.toMember.validate) _ _ _
        (fun _ _ _ => rfl) hmembers

/-- The items of the record of a valid resource are valid. -/
theorem Directory.isValid_recordOf (d : Directory) {type : ResourceType}
    {resource : Resource type} (h : validate resource = .ok ()) (id : Uuid)
    (created now : Instant) (draw : Nat) (relation : Relation) :
    ∀ item ∈ (d.recordOf resource id created now draw).items relation, item.IsValid relation := by
  rw [items_recordOf]
  split
  · exact d.isValid_of_validate h draw id relation
  · exact fun _ hmem => nomatch hmem

namespace Patch

variable {root : ServiceRoot} {relation : Relation} {owner : Uuid}

/-- An item that is decoded is valid. -/
theorem isValid_of_item {id : ItemId} {value : Json} {row : ItemRow}
    (h : item root relation id owner value = .ok row) : row.IsValid relation := by
  cases relation with
  | values c =>
    dsimp only [item] at h
    split at h
    · cases h
    · next decoded _ =>
      obtain ⟨_, hcheck, rfl⟩ := except_map_eq_ok.mp h
      exact MultiValue.hasValue_of_checkValues (except_mapError_eq_ok.mp hcheck) decoded
        List.mem_cons_self
  | addresses => trivial
  | members =>
    dsimp only [item] at h
    split at h
    · cases h
    · obtain ⟨_, hcheck, rfl⟩ := except_map_eq_ok.mp h
      exact except_mapError_eq_ok.mp hcheck

/-- Items that are decoded are valid. -/
theorem isValid_of_itemsFrom {draw place : Nat} {values : List Json} {rows : List ItemRow}
    (h : itemsFrom root relation draw place owner values = .ok rows) :
    ∀ row ∈ rows, row.IsValid relation := by
  induction values generalizing place rows with
  | nil =>
    cases h
    exact fun _ hmem => nomatch hmem
  | cons value values ih =>
    rw [itemsFrom] at h
    split at h
    · cases h
    · next hrow =>
      obtain ⟨rest, hrest, rfl⟩ := except_map_eq_ok.mp h
      exact List.forall_mem_cons.mpr ⟨isValid_of_item hrow, ih hrest⟩

/-- The items of a value are valid. -/
theorem isValid_of_items {draw : Nat} {value : Json} {rows : List ItemRow}
    (h : items root relation draw owner value = .ok rows) : ∀ row ∈ rows, row.IsValid relation := by
  unfold items at h
  split at h <;> exact isValid_of_itemsFrom h

/-- The items that take the place of others are valid. -/
theorem isValid_of_standIns {draw : Nat} {value : Json} {rows : List ItemRow}
    (h : standIns root owner relation draw value = .ok rows) :
    ∀ row ∈ rows, row.IsValid relation := by
  unfold standIns at h
  split at h
  · cases h
    exact fun _ hmem => nomatch hmem
  · exact isValid_of_items h

end Patch

namespace Tables

/-- Every stored item of a relation is valid. -/
def ValidIn (tables : Tables) (relation : Relation) : Prop :=
  ∀ item, (relation, item) ∈ tables.items → item.IsValid relation

variable {tables after : Tables} {relation : Relation}

/-- Items are valid when those of each owner are. -/
theorem validIn_iff :
    tables.ValidIn relation ↔
      ∀ owner, ∀ item ∈ tables.ownedItems owner relation, item.IsValid relation := by
  constructor
  · exact fun h owner item hmem => h item (mem_ownedItems.mp hmem).1
  · exact fun h item hmem => h item.owner item (mem_ownedItems.mpr ⟨hmem, rfl⟩)

namespace ValidIn

variable (h : tables.ValidIn relation)

include h

theorem of_items_eq (hitems : after.items = tables.items) : after.ValidIn relation := by
  intro item hmem
  rw [hitems] at hmem
  exact h item hmem

/-- One owner may get the valid items of a record in the place of those that were there. -/
theorem of_record {type : ResourceType} {record : Record type}
    (hrecord : ∀ item ∈ record.items relation, item.IsValid relation)
    (hafter : ∀ owner r, after.ownedItems owner r =
      if r.owner = type ∧ owner = record.row.id then record.items r
      else tables.ownedItems owner r) : after.ValidIn relation := by
  refine validIn_iff.mpr fun owner => ?_
  rw [hafter]
  split
  · exact hrecord
  · exact validIn_iff.mp h owner

theorem without (r : Relation) (test : ItemRow → Bool) :
    (tables.without r test).ValidIn relation :=
  fun item hmem => h item (List.mem_filter.mp hmem).1

theorem append {r : Relation} {fresh : List ItemRow}
    (hfresh : ∀ item ∈ fresh, item.IsValid r) : (tables.append r fresh).ValidIn relation := by
  obtain ⟨lists, heq⟩ := tables.append_eq r fresh
  intro item hmem
  rw [heq] at hmem
  rcases List.mem_append.mp hmem with hold | hnew
  · exact h item hold
  · obtain ⟨new, hlisted, heq⟩ := List.mem_map.mp hnew
    obtain ⟨rfl, rfl⟩ := Prod.mk.inj heq
    exact hfresh _ hlisted

/-- Revised items stay valid when what the updates make of those that are picked is valid. -/
theorem revised {r : Relation} {owner : Uuid} {test : ItemRow → Bool} {updates : Patch.Updates}
    (hchanged : r = relation → ∀ item ∈ (tables.ownedItems owner r).filter test,
      item.IsValid r → (Patch.updated updates item).IsValid r) :
    (tables.rewrite r (Patch.revised owner test updates)).ValidIn relation := by
  intro item hmem
  obtain ⟨⟨s, old⟩, hold, heq⟩ := List.mem_map.mp hmem
  obtain ⟨rfl, rfl⟩ := Prod.mk.inj heq
  have hvalid := h old hold
  split
  · next hs =>
    subst hs
    unfold Patch.revised
    split
    · next hpicked =>
      refine hchanged rfl old (List.mem_filter.mpr ⟨?_, hpicked.2⟩) hvalid
      exact mem_ownedItems.mpr ⟨hold, hpicked.1⟩
    · exact hvalid
  · exact hvalid

end ValidIn

end Tables

/-- No write of a whole resource leaves an item that is not valid. -/
theorem Directory.keptByWholes_validIn (d : Directory) (relation : Relation) :
    d.KeptByWholes (·.ValidIn relation) := by
  intro draws before after hwrite hsound hvalid
  cases hwrite with
  | create id resource now hresource hwrite =>
    exact hvalid.of_record (d.isValid_recordOf hresource id now now draws relation)
      (Tables.ownedItems_insert hsound.toWellFormed (d.drawn_recordOf resource id now now _) hwrite)
  | replace id resource created now hresource hwrite =>
    exact hvalid.of_record (d.isValid_recordOf hresource id created now draws relation)
      (Tables.ownedItems_replace (d.drawn_recordOf resource id created now _) hwrite)
  | delete type id =>
    refine Tables.validIn_iff.mpr fun owner item hmem => ?_
    rw [Tables.ownedItems_delete] at hmem
    split at hmem
    · cases hmem
    · exact Tables.validIn_iff.mp hvalid owner item hmem
  | leave user => exact hvalid.without .members _
  | finish now hfind hwrite =>
    obtain ⟨-, -, -, rfl⟩ := Tables.update_eq_ok hwrite
    exact hvalid.of_items_eq (Tables.items_put _ _)

namespace Patch

variable {d : Directory} {type : ResourceType} {row : Row type} {tables after : Tables}
  {kind : OperationKind} {target : Target} {value : Json} {answer : Except DirectoryError Unit}
  {relation : Relation}

/-- An effect keeps the items of a relation valid when what it makes of those that a filter picks
is valid. -/
theorem Effect.validIn (h : Effect d row tables kind target value answer after)
    (hvalid : tables.ValidIn relation)
    (hrevised : ∀ {filter sub updates changed}, kind ≠ .remove →
      target = .items relation (some filter) sub → itemChanges relation sub value = .ok updates →
      changedItems relation updates ((tables.ownedItems row.id relation).filter filter.picks) =
        .ok changed → ∀ item ∈ (tables.ownedItems row.id relation).filter filter.picks,
      item.IsValid relation → (updated updates item).IsValid relation) :
    after.ValidIn relation := by
  cases h with
  | refused => exact hvalid
  | field hcontent hassign hwrite =>
    obtain ⟨-, -, -, rfl⟩ := Tables.update_eq_ok hwrite
    exact hvalid.of_items_eq (Tables.items_put _ _)
  | complex hcolumns hassigned hwrite =>
    obtain ⟨-, -, -, rfl⟩ := Tables.update_eq_ok hwrite
    exact hvalid.of_items_eq (Tables.items_put _ _)
  | added hplan =>
    obtain ⟨rows, hrows, rfl, -⟩ := additions_eq_ok hplan
    exact hvalid.append fun item hmem =>
      isValid_of_items hrows item ((newItems_sublist _ _ _).subset hmem)
  | reset hplan =>
    obtain ⟨hrows, -⟩ := replacements_eq_ok hplan
    exact (hvalid.without _ _).append (isValid_of_standIns hrows)
  | removed => exact hvalid.without _ _
  | revised hkind hupdates hpicked hchanged =>
    refine hvalid.revised fun heq => ?_
    subst heq
    exact hrevised hkind rfl hupdates hchanged

/-- Every instruction keeps members valid: they are checked after each update. -/
theorem spares_members (d : Directory) (type : ResourceType) (asked : Instruction) :
    Spares d (·.ValidIn .members) type asked := by
  intro tables after draws row target answer _ _ _ heffect hvalid
  refine heffect.validIn hvalid fun _ _ _ hchanged item hmem _ => ?_
  exact (assignItemFields_updated hchanged hmem).2

end Patch

/-- Members stay valid in every history. -/
theorem Directory.validIn_members_serveAll (d : Directory) (history : List (Instant × Command)) :
    (d.serveAll history (World.fresh Tables.empty)).store.ValidIn .members :=
  serveAll_keeps (d.keptByWholes_validIn .members) (Tables.sound_empty 0)
    (fun _ hmem => absurd hmem List.not_mem_nil)
    (fun type asked _ => Patch.spares_members d type asked) fun entry _ => entry.2.asks_nothing

/-- A valid member has a value, and no other type than those of resources. -/
theorem Member.validate_eq_ok {member : Member} (h : member.validate = .ok ()) :
    member.value ≠ "" ∧
      (member.type = none ∨ member.type = some "User" ∨ member.type = some "Group") := by
  unfold validate at h
  split at h
  · cases h
  · next hvalue =>
    refine ⟨hvalue, ?_⟩
    split at h
    · next htype => exact .inl htype
    · next type htype =>
      split at h
      · next hlisted =>
        rw [htype]
        simpa [types, ResourceType.all, ResourceType.name] using hlisted
      · cases h

/-- Whatever has been asked of an empty directory, and whether or not it was granted, every stored
member has a value that is not empty and the type of a user, that of a group, or none. -/
theorem stored_members_are_valid (d : Directory) (history : List (Instant × Command))
    (item : ItemRow)
    (hmem : (Relation.members, item) ∈
      (d.serveAll history (World.fresh Tables.empty)).store.items) :
    (∃ v, item.value = some v ∧ v ≠ "") ∧
      (item.type = none ∨ item.type = some "User" ∨ item.type = some "Group") := by
  obtain ⟨hvalue, htype⟩ :=
    Member.validate_eq_ok (d.validIn_members_serveAll history item hmem)
  refine ⟨?_, htype⟩
  cases hitem : item.value with
  | none =>
    rw [ItemRow.toMember, hitem] at hvalue
    exact absurd rfl hvalue
  | some v =>
    rw [ItemRow.toMember, hitem] at hvalue
    exact ⟨v, rfl, hvalue⟩

/-- A member that a patch makes a group is valid, and another patch that would make it a device is
refused. -/
theorem stored_members_are_valid_of_nested_group :
    let d : Directory := ⟨.standard, [], Filter.parse⟩
    let group : Group := { Group.named "Team" with members := [.ofType .user "m1"] }
    let retyped (type : String) : PatchRequest :=
      .ofOperations [.replace "members[value eq \"m1\"].type" (.text type)]
    let history : List (Instant × Command) :=
      [(.ofSeconds 0, @Command.create .group none group),
        (.ofSeconds 1, .patch .group (Uuid.numbered 1).toText (retyped "Group")),
        (.ofSeconds 2, .patch .group (Uuid.numbered 1).toText (retyped "Device"))]
    ∃ item, (Relation.members, item) ∈
        (d.serveAll history (World.fresh Tables.empty)).store.items ∧
      item.type = some "Group" ∧ ∃ v, item.value = some v ∧ v ≠ "" := by
  intro d group retyped history
  have hthere : (d.serveAll history (World.fresh Tables.empty)).store.items.any
      (fun stored => stored.1 = .members && stored.2.type = some "Group") = true := by
    decide +kernel
  obtain ⟨⟨relation, item⟩, hmem, htest⟩ := List.any_eq_true.mp hthere
  obtain ⟨hrelation, htype⟩ := Bool.and_eq_true_iff.mp htest
  obtain rfl := of_decide_eq_true hrelation
  exact ⟨item, hmem, of_decide_eq_true htype, (stored_members_are_valid d history item hmem).1⟩

end ScimDirectory
