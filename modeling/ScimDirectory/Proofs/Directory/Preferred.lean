import ScimDirectory.Proofs.Directory.Commands
import ScimDirectory.Proofs.Resource.Valid

/-!
# One preferred item

No stored resource has two preferred items in one of its collections, whatever has been asked of
the directory. Each way of writing items checks the items that will be there after it, and each
of them puts these items together differently.
-/

namespace ScimDirectory

/-- At most one of the items is marked as the preferred one. -/
def OnePreferred (items : List ItemRow) : Prop := items.countP ItemRow.isPrimary ≤ 1

theorem Patch.checkPrimary_eq_ok {relation : Relation} {items : List ItemRow} :
    checkPrimary relation items = .ok () ↔ OnePreferred items := by
  have hcount : (items.map ItemRow.isPrimary).count true = items.countP ItemRow.isPrimary := by
    rw [List.count, List.countP_map]
    exact List.countP_congr fun item _ => by simp
  rw [checkPrimary, checkSinglePrimary_eq_ok, hcount, OnePreferred]

/-- Fewer items have no more preferred ones. -/
theorem OnePreferred.sublist {items some : List ItemRow} (h : OnePreferred items)
    (hsub : some.Sublist items) : OnePreferred some :=
  Nat.le_trans hsub.countP_le h

/-- The order of items does not matter. -/
theorem OnePreferred.perm {items other : List ItemRow} (h : OnePreferred items)
    (hperm : other.Perm items) : OnePreferred other :=
  Nat.le_trans (Nat.le_of_eq (hperm.countP_eq _)) h

/-- One more item that is not preferred does not matter. -/
theorem OnePreferred.append_other {items : List ItemRow} (h : OnePreferred items) {item : ItemRow}
    (hother : ¬item.isPrimary = true) : OnePreferred (items ++ [item]) := by
  rw [OnePreferred, List.countP_append, List.countP_singleton, if_neg hother]
  exact h

/-- The rows of listed items are preferred as the items are. -/
theorem onePreferred_rowsOf {α : Type} {toRow : α → ItemId → Uuid → ItemRow}
    {preferred : α → Bool} (h : ∀ a id owner, (toRow a id owner).isPrimary = preferred a)
    {items : List α} (hone : (items.map preferred).count true ≤ 1) (draw : Nat) (owner : Uuid) :
    OnePreferred (rowsOf toRow draw owner items) := by
  rw [← map_rowsOf h draw owner, List.count, List.countP_map] at hone
  exact Nat.le_trans (Nat.le_of_eq (List.countP_congr fun item _ => by simp)) hone

/-- A valid resource has at most one preferred item in each collection. -/
theorem Directory.onePreferred_of_validate (d : Directory) {type : ResourceType}
    {resource : Resource type} (h : validate resource = .ok ()) (draw : Nat) (owner : Uuid)
    (relation : Relation) : OnePreferred (d.itemRows resource draw owner relation) := by
  have hnone : OnePreferred [] := Nat.zero_le 1
  cases type with
  | user =>
    obtain ⟨-, hcollections, haddresses⟩ := User.validate_eq_ok h
    cases relation with
    | values c =>
      have hone := (User.checkCollection_eq_ok (hcollections c)).2
      exact @onePreferred_rowsOf _ MultiValue.toRow _ (fun _ _ _ => rfl) _ hone draw owner
    | addresses =>
      exact @onePreferred_rowsOf _ Address.toRow _ (fun _ _ _ => rfl) _ haddresses draw owner
    | members => exact hnone
  | group =>
    cases relation with
    | values c => exact hnone
    | addresses => exact hnone
    | members =>
      have hone : ((Group.members resource).map fun _ => false).count true ≤ 1 := by
        simp [List.count_replicate]
      exact @onePreferred_rowsOf _ (Member.toRow d.config.root) _ (fun _ _ _ => rfl) _ hone draw
        owner

/-- The record of a valid resource has at most one preferred item in each relation. -/
theorem Directory.onePreferred_recordOf (d : Directory) {type : ResourceType}
    {resource : Resource type} (h : validate resource = .ok ()) (id : Uuid)
    (created now : Instant) (draw : Nat) (relation : Relation) :
    OnePreferred ((d.recordOf resource id created now draw).items relation) := by
  rw [items_recordOf]
  split
  · exact d.onePreferred_of_validate h draw id relation
  · exact Nat.zero_le 1

namespace Tables

/-- No owner has two preferred items in a relation. -/
def SinglePrimary (tables : Tables) : Prop :=
  ∀ owner relation, OnePreferred (tables.ownedItems owner relation)

theorem singlePrimary_empty : empty.SinglePrimary := fun _ _ => Nat.zero_le 1

namespace SinglePrimary

variable {tables after : Tables} {relation : Relation} {owner : Uuid}

/-- Only the items of one owner's relation have to be looked at when the others stay. -/
theorem of_ownedItems (h : tables.SinglePrimary)
    (hothers : ∀ other r, ¬(other = owner ∧ r = relation) →
      after.ownedItems other r = tables.ownedItems other r)
    (howned : OnePreferred (after.ownedItems owner relation)) : after.SinglePrimary := by
  intro other r
  by_cases hsame : other = owner ∧ r = relation
  · obtain ⟨rfl, rfl⟩ := hsame
    exact howned
  · rw [hothers other r hsame]
    exact h other r

/-- One owner may get the items of a record in the place of those that were there. -/
theorem of_record (h : tables.SinglePrimary) {type : ResourceType} {record : Record type}
    (hrecord : ∀ relation, OnePreferred (record.items relation))
    (hafter : ∀ other relation, after.ownedItems other relation =
      if relation.owner = type ∧ other = record.row.id then record.items relation
      else tables.ownedItems other relation) : after.SinglePrimary := by
  intro other relation
  rw [hafter]
  split
  · exact hrecord relation
  · exact h other relation

theorem of_items_eq (h : tables.SinglePrimary) (hitems : after.items = tables.items) :
    after.SinglePrimary := by
  intro owner relation
  rw [ownedItems_congr hitems]
  exact h owner relation

theorem without (h : tables.SinglePrimary) (relation : Relation) (test : ItemRow → Bool) :
    (tables.without relation test).SinglePrimary := by
  intro owner r
  rw [ownedItems_without]
  split
  · exact (h owner relation).sublist List.filter_sublist
  · exact h owner r

theorem append (h : tables.SinglePrimary) {fresh : List ItemRow}
    (howners : ∀ item ∈ fresh, item.owner = owner)
    (hone : OnePreferred (tables.ownedItems owner relation ++ fresh)) :
    (tables.append relation fresh).SinglePrimary := by
  refine h.of_ownedItems (fun other r hne => ownedItems_append_of_ne howners hne) ?_
  rw [ownedItems_append_self howners]
  exact hone

/-- Revised items are checked in another order than they are stored in. -/
theorem rewrite (h : tables.SinglePrimary) {test : ItemRow → Bool} {updates : Patch.Updates}
    {changed : List ItemRow}
    (hchanged : Patch.changedItems relation updates ((tables.ownedItems owner relation).filter test) =
      .ok changed)
    (hone : OnePreferred ((tables.ownedItems owner relation).filter (fun item => !test item) ++
      changed)) :
    (tables.rewrite relation (Patch.revised owner test updates)).SinglePrimary := by
  refine h.of_ownedItems (fun other r hne => Patch.ownedItems_revised_of_ne test updates hne) ?_
  rw [ownedItems_rewrite fun item => (Patch.keys_of_revised owner test updates item).2, if_pos rfl]
  have howned : ∀ item ∈ tables.ownedItems owner relation, item.owner = owner :=
    fun item hmem => (mem_ownedItems.mp hmem).2
  exact hone.perm (Patch.revised_perm howned hchanged)

end SinglePrimary

end Tables

/-- No write leaves two preferred items. -/
theorem Directory.Write.singlePrimary {d : Directory} {type : ResourceType} {id : Uuid}
    {before after : Stock} (h : d.Write type id before after) (hsound : before.1.Sound before.2)
    (hone : before.1.SinglePrimary) : after.1.SinglePrimary := by
  cases h with
  | draw hmore => exact hone
  | create resource now hvalid hwrite =>
    exact hone.of_record (d.onePreferred_recordOf hvalid id now now _)
      (Tables.ownedItems_insert hsound.toWellFormed (d.drawn_recordOf resource id now now _) hwrite)
  | replace resource now hfind hvalid hwrite =>
    exact hone.of_record (d.onePreferred_recordOf hvalid id _ now _)
      (Tables.ownedItems_replace (d.drawn_recordOf resource id _ now _) hwrite)
  | delete =>
    intro owner relation
    rw [Tables.ownedItems_delete]
    split
    · exact Nat.zero_le 1
    · exact hone owner relation
  | assign updates hfind hassigned hwrite =>
    obtain ⟨-, -, -, rfl⟩ := Tables.update_eq_ok hwrite
    exact hone.of_items_eq (Tables.items_put _ _)
  | add value hrelation hthere hplan =>
    obtain ⟨_, -, -, hcheck⟩ := Patch.additions_eq_ok hplan
    exact hone.append (Patch.keys_of_additions hplan).2 (Patch.checkPrimary_eq_ok.mp hcheck)
  | reset value hrelation hthere hplan =>
    obtain ⟨hrows, hcheck⟩ := Patch.replacements_eq_ok hplan
    refine (hone.without _ _).append (Patch.keys_of_standIns hrows).2 ?_
    rw [Tables.ownedItems_without_owner, List.nil_append]
    exact Patch.checkPrimary_eq_ok.mp hcheck
  | remove test hrelation => exact hone.without _ _
  | @adjust tables draws relation item filter field value hrelation hplan =>
    obtain ⟨chosen, content, hpicked, -, hchanged, hcheck⟩ := Patch.adjusted_eq_ok hplan
    rw [← hpicked] at hchanged
    rw [Patch.rewrite_changedItems (hsound.unique _) hchanged]
    refine hone.rewrite hchanged ?_
    by_cases hprimary : item.isPrimary = true
    · have hone' := Patch.checkPrimary_eq_ok.mp (hcheck hprimary)
      rw [← Patch.filter_unchanged (hsound.unique_owned _ _) hchanged]
      simpa [eq_comm] using hone'
    · exact ((hone id _).sublist List.filter_sublist).append_other hprimary
  | merge filter value hrelation hplan =>
    obtain ⟨_, updates, -, -, -, hchanged, hcheck⟩ := Patch.merged_eq_ok hplan
    rw [Patch.rewrite_changedItems (hsound.unique _) hchanged]
    refine hone.rewrite hchanged ?_
    rw [← Patch.filter_unchanged (hsound.unique_owned _ _) hchanged]
    exact Patch.checkPrimary_eq_ok.mp hcheck
  | finish now hfind hwrite =>
    obtain ⟨-, -, -, rfl⟩ := Tables.update_eq_ok hwrite
    exact hone.of_items_eq (Tables.items_put _ _)

/-- No change leaves two preferred items. -/
theorem Directory.Change.singlePrimary {d : Directory} {before after : Stock}
    (h : d.Change before after) (hsound : before.1.Sound before.2)
    (hone : before.1.SinglePrimary) : after.1.SinglePrimary := by
  cases h with
  | write h => exact h.singlePrimary hsound hone
  | leave user => exact hone.without .members _

/-- Whatever has been asked of an empty directory, and whether or not it was granted, no stored
resource has two preferred items in a collection. -/
theorem stored_resource_has_one_preferred (d : Directory) (history : List (Instant × Command))
    {type : ResourceType} {id : Uuid} {record : Record type}
    (hget : (d.serveAll history (World.fresh Tables.empty)).store.get? type id = some record)
    (relation : Relation) : (record.items relation).countP ItemRow.isPrimary ≤ 1 := by
  have hone : (d.serveAll history (World.fresh Tables.empty)).store.SinglePrimary :=
    (Directory.serveAll_invariant (fun h hsound hone => h.singlePrimary hsound hone)
      (Tables.sound_empty 0) Tables.singlePrimary_empty history).2
  obtain ⟨row, -, rfl⟩ := Option.map_eq_some_iff.mp hget
  rw [Tables.record, items_childrenOf]
  split
  · exact hone row.id relation
  · exact Nat.zero_le 1

/-- A user with two mail addresses, one of which is preferred, still has one preferred address after
a patch that would add a third one, preferred too. -/
theorem stored_resource_has_one_preferred_of_two_mails :
    let d : Directory := ⟨.standard, [], Filter.parse⟩
    let mail (value : String) (primary : Bool) : MultiValue :=
      { MultiValue.ofValue value with primary := some primary }
    let user : User := { User.named "alice" with
      values := fun
        | .emails => [mail "a@example.org" true, mail "b@example.org" false]
        | _ => [] }
    let request : PatchRequest := .ofOperations
      [.add "emails" (.object [("value", .text "c@example.org"), ("primary", .bool true)])]
    let history : List (Instant × Command) :=
      [(.ofSeconds 0, @Command.create .user none user),
        (.ofSeconds 1, .patch .user (Uuid.numbered 1).toText request)]
    ∃ record, (d.serveAll history (World.fresh Tables.empty)).store.get? .user (Uuid.numbered 1) =
        some record ∧
      (record.items (.values .emails)).countP ItemRow.isPrimary ≤ 1 := by
  intro d mail user request history
  have hthere : ((d.serveAll history (World.fresh Tables.empty)).store.get? .user
      (Uuid.numbered 1)).isSome = true := by
    decide +kernel
  obtain ⟨record, hget⟩ := Option.isSome_iff_exists.mp hthere
  exact ⟨record, hget, stored_resource_has_one_preferred d history hget (.values .emails)⟩

end ScimDirectory
