import ScimDirectory.Proofs.Store.WellFormed
import Mathlib.Algebra.Ring.Nat

/-!
# Histories of storage

Any calls in any order, with any arguments, each of which may fail. Tables that start empty are
well formed after all of them, so that rows are found under their own keys, names of users are
distinct, items have owners, and the items that are counted are those of the records.
-/

namespace ScimDirectory

/-- A call on storage, with its arguments. -/
inductive StoreCall where
  /-- Store a new record. -/
  | insert {type : ResourceType} (record : Record type)
  /-- Replace a record. -/
  | replace {type : ResourceType} (record : Record type)
  /-- Find the record with a key. -/
  | get (type : ResourceType) (id : Uuid)
  /-- Find the records that satisfy a predicate. -/
  | query (type : ResourceType) (predicate : Option Predicate)
  /-- Write the columns of a row. -/
  | update {type : ResourceType} (row : Row type)
  /-- Delete a row with its items. -/
  | delete (type : ResourceType) (id : Uuid)
  /-- Find the items of an owner that satisfy a predicate. -/
  | queryItems (relation : Relation) (owner : Uuid) (predicate : Option Predicate)
  /-- Link a new item to its owner. -/
  | insertItem (relation : Relation) (item : ItemRow)
  /-- Write an item. -/
  | updateItem (relation : Relation) (item : ItemRow)
  /-- Delete the items with the given keys. -/
  | deleteItems (relation : Relation) (ids : List ItemId)
  /-- Delete the items of an owner. -/
  | deleteAllItems (relation : Relation) (owner : Uuid)

namespace StoreCall

/-- What a call answers when it succeeds. -/
def Answer : StoreCall → Type
  | @insert type _ | @replace type _ => Record type
  | .get type _ => Option (Record type)
  | .query type _ => List (Record type)
  | @update type _ => Row type
  | .delete _ _ => Bool
  | .queryItems _ _ _ => List ItemRow
  | .insertItem _ _ | .updateItem _ _ => ItemRow
  | .deleteItems _ _ | .deleteAllItems _ _ => Nat

section

variable {σ : Type} [Storage σ]

/-- The call itself. -/
def call : (c : StoreCall) → Call σ c.Answer
  | .insert record => Storage.insert record
  | .replace record => Storage.replace record
  | .get type id => Storage.get type id
  | .query type predicate => Storage.query type predicate
  | .update row => Storage.update row
  | .delete type id => Storage.delete type id
  | .queryItems relation owner predicate => Storage.queryItems relation owner predicate
  | .insertItem relation item => Storage.insertItem relation item
  | .updateItem relation item => Storage.updateItem relation item
  | .deleteItems relation ids => Storage.deleteItems relation ids
  | .deleteAllItems relation owner => Storage.deleteAllItems relation owner

/-- The answer to a call, or why it fails. -/
def answer (c : StoreCall) (s : σ) : Except StoreError c.Answer :=
  ((c.call : Call σ c.Answer).run s).1

/-- The storage after a call, whether or not it succeeds. -/
def step (c : StoreCall) (s : σ) : σ := ((c.call : Call σ c.Answer).run s).2

/-- The storage after calls in order. -/
def steps (calls : List StoreCall) (s : σ) : σ := calls.foldl (fun s c => c.step s) s

end

/-- The call on tables with all that it writes written at once. -/
def atOnce : (c : StoreCall) → Call Tables c.Answer
  | .insert record => .writing (Tables.insert record)
  | .replace record => .writing (Tables.replace record)
  | .get type id => .look (Tables.get? type id)
  | .query type predicate => .reading (Tables.query type predicate)
  | .update row => .writing (Tables.update row)
  | .delete type id => .always (Tables.delete type id)
  | .queryItems relation owner predicate => .reading (Tables.queryItems relation owner predicate)
  | .insertItem relation item => .writing (Tables.insertItem relation item)
  | .updateItem relation item => .writing (Tables.updateItem relation item)
  | .deleteItems relation ids => .always (Tables.deleteItems relation ids)
  | .deleteAllItems relation owner => .always (Tables.deleteAllItems relation owner)

/-- Step after step, a call comes to what it comes to at once. -/
theorem call_eq_atOnce (c : StoreCall) : (c.call : Call Tables c.Answer) = c.atOnce := by
  cases c with
  | insert record => exact Tables.call_insert record
  | replace record => exact Tables.call_replace record
  | get | query | queryItems => rfl
  | update row => exact Tables.call_update row
  | delete type id => exact Tables.call_delete type id
  | insertItem relation item => exact Tables.call_insertItem relation item
  | updateItem relation item => exact Tables.call_updateItem relation item
  | deleteItems relation ids => exact Tables.call_deleteItems relation ids
  | deleteAllItems relation owner => exact Tables.call_deleteAllItems relation owner

theorem answer_eq (c : StoreCall) (tables : Tables) : c.answer tables = (c.atOnce.run tables).1 := by
  rw [answer, call_eq_atOnce]

theorem step_eq (c : StoreCall) (tables : Tables) : c.step tables = (c.atOnce.run tables).2 := by
  rw [step, call_eq_atOnce]

end StoreCall

/-- A writing call leaves what it writes, or nothing new when it fails. -/
theorem Call.writing_preserves {σ α : Type} {write : σ → Except StoreError (α × σ)} {P : σ → Prop}
    {s : σ} (hs : P s) (hwrite : ∀ a after, write s = .ok (a, after) → P after) :
    P ((Call.writing write).run s).2 := by
  unfold Call.writing ExceptT.run
  dsimp only
  split
  · exact hs
  · next a after hok => exact hwrite a after hok

/-- A writing call answers what it writes. -/
theorem Call.answer_writing {σ α : Type} (write : σ → Except StoreError (α × σ)) (s : σ) :
    ((Call.writing write).run s).1 = (write s).map Prod.fst := by
  unfold Call.writing ExceptT.run
  dsimp only
  split
  · next hfail => rw [hfail]; rfl
  · next hok => rw [hok]; rfl

namespace Tables

/-- Every call keeps tables well formed, whether or not it succeeds. -/
theorem WellFormed.step {tables : Tables} (h : tables.WellFormed) (c : StoreCall) :
    (c.step tables).WellFormed := by
  rw [StoreCall.step_eq]
  cases c with
  | insert record => exact Call.writing_preserves h fun _ _ hwrite => h.insert hwrite
  | replace record => exact Call.writing_preserves h fun _ _ hwrite => h.replace hwrite
  | get type id => exact h
  | query type predicate => exact h
  | update row => exact Call.writing_preserves h fun _ _ hwrite => h.update hwrite
  | delete type id => exact h.delete type id
  | queryItems relation owner predicate => exact h
  | insertItem relation item => exact Call.writing_preserves h fun _ _ hwrite => h.insertItem hwrite
  | updateItem relation item => exact Call.writing_preserves h fun _ _ hwrite => h.updateItem hwrite
  | deleteItems relation ids => exact h.deleteWhere relation fun item => ids.contains item.id
  | deleteAllItems relation owner => exact h.deleteWhere relation fun item => item.owner = owner

/-- Calls keep tables well formed. -/
theorem WellFormed.steps {tables : Tables} (h : tables.WellFormed) (calls : List StoreCall) :
    (StoreCall.steps calls tables).WellFormed := by
  induction calls generalizing tables with
  | nil => exact h
  | cons c calls ih => exact ih (h.step c)

/-- Every row is found under its key. -/
theorem WellFormed.get?_row {tables : Tables} (h : tables.WellFormed) {type : ResourceType}
    {row : Row type} (hmem : row ∈ tables.rows type) :
    tables.get? type row.id = some (tables.record row) :=
  get?_of_find? ((find?_eq_some_iff (h.keys type)).mpr ⟨hmem, rfl⟩)

end Tables

/-- How many items a record has. -/
def Record.itemCount {type : ResourceType} (record : Record type) : Nat :=
  (record.children.map fun child => child.2.length).sum

/-- Elements are counted key by key when each has one of some distinct keys. -/
theorem length_eq_sum_length_filter {α κ : Type} [DecidableEq κ] {keys : List κ}
    (hnodup : keys.Nodup) (key : α → κ) (l : List α) (hkeys : ∀ a ∈ l, key a ∈ keys) :
    l.length = (keys.map fun k => (l.filter (key · = k)).length).sum := by
  induction keys generalizing l with
  | nil => simp [List.eq_nil_iff_forall_not_mem.mpr fun a hmem => List.not_mem_nil (hkeys a hmem)]
  | cons first keys ih =>
    obtain ⟨hfirst, hnodup⟩ := List.nodup_cons.mp hnodup
    have hrest := ih hnodup (l.filter fun a => !decide (key a = first)) fun a hmem => by
      obtain ⟨hmem, hne⟩ := List.mem_filter.mp hmem
      exact (List.mem_cons.mp (hkeys a hmem)).resolve_left (by simpa using hne)
    have hsame : ∀ k ∈ keys, ((l.filter fun a => !decide (key a = first)).filter (key · = k)) =
        l.filter (key · = k) := by
      intro k hk
      rw [List.filter_filter]
      refine List.filter_congr fun a _ => ?_
      by_cases ha : key a = k
      · have hne : k ≠ first := fun heq => hfirst (heq ▸ hk)
        simp [ha, hne]
      · simp [ha]
    rw [List.length_eq_length_filter_add (key · = first), hrest, List.map_cons, List.sum_cons]
    congr 2
    exact List.map_congr_left fun k hk => congrArg List.length (hsame k hk)

/-- A record that is read back counts the items of its relations. -/
theorem sum_length_childrenOf (relations : List Relation) (items : Relation → List ItemRow) :
    ((childrenOf relations items).map fun child => child.2.length).sum =
      (relations.map fun relation => (items relation).length).sum := by
  induction relations with
  | nil => rfl
  | cons first relations ih =>
    rw [childrenOf_cons, List.map_append, List.sum_append, ih, List.map_cons, List.sum_cons]
    by_cases h : (items first).isEmpty
    · have hnil := List.isEmpty_iff.mp h
      simp [hnil]
    · simp [h]

namespace Tables

/-- The items of an owner are counted relation by relation. -/
theorem itemCount_record {tables : Tables} {type : ResourceType} (row : Row type) :
    (tables.record row).itemCount = (tables.items.filter fun entry =>
      (entry.1.owner, entry.2.owner) = (type, row.id)).length := by
  have hrelations : ∀ entry ∈ tables.items.filter fun entry =>
      (entry.1.owner, entry.2.owner) = (type, row.id), entry.1 ∈ Relation.ofType type := by
    intro entry hmem
    have howner := of_decide_eq_true (List.mem_filter.mp hmem).2
    exact Relation.mem_ofType.mpr (Prod.mk.inj howner).1
  rw [length_eq_sum_length_filter (Relation.nodup_ofType type) Prod.fst _ hrelations,
    Record.itemCount, record, sum_length_childrenOf]
  congr 1
  refine List.map_congr_left fun relation hmem => ?_
  have howner := Relation.mem_ofType.mp hmem
  rw [ownedItems, itemsOf, List.filter_filterMap, List.filter_filter,
    List.length_filterMap_eq_countP, List.countP_eq_length_filter]
  refine congrArg List.length (List.filter_congr fun entry _ => ?_)
  by_cases hr : entry.1 = relation <;> by_cases ho : entry.2.owner = row.id <;>
    simp [hr, ho, howner]

/-- The keys that items may name as their owner's, each with the owner's type. -/
def ownerKeys (tables : Tables) : List (ResourceType × Uuid) :=
  ((tables.rows .user).map fun row => (.user, row.id)) ++
    (tables.rows .group).map fun row => (.group, row.id)

theorem mem_ownerKeys {tables : Tables} {type : ResourceType} {id : Uuid} :
    (type, id) ∈ tables.ownerKeys ↔ tables.has type id = true := by
  cases type <;> simp [ownerKeys, has_iff]

/-- No owner is listed twice. -/
theorem WellFormed.nodup_ownerKeys {tables : Tables} (h : tables.WellFormed) :
    tables.ownerKeys.Nodup := by
  have hkeys : ∀ type, ((tables.rows type).map fun row => (type, row.id)).Nodup := by
    intro type
    have hmap : ((tables.rows type).map fun row => (type, row.id)) =
        ((tables.rows type).map Row.id).map (Prod.mk type) := by
      rw [List.map_map]
      rfl
    rw [hmap]
    exact (h.keys type).map fun _ _ heq => (Prod.mk.inj heq).2
  refine List.nodup_append'.mpr ⟨hkeys .user, hkeys .group, fun key huser hgroup => ?_⟩
  obtain ⟨_, _, rfl⟩ := List.mem_map.mp huser
  obtain ⟨_, _, heq⟩ := List.mem_map.mp hgroup
  cases (Prod.mk.inj heq).1

/-- The items that are counted are those of the records. -/
theorem WellFormed.length_items {tables : Tables} (h : tables.WellFormed) :
    tables.items.length =
      ((tables.rows .user).map fun row => (tables.record row).itemCount).sum +
        ((tables.rows .group).map fun row => (tables.record row).itemCount).sum := by
  have howned : ∀ entry ∈ tables.items,
      (entry.1.owner, entry.2.owner) ∈ tables.ownerKeys :=
    fun entry hmem => mem_ownerKeys.mpr (h.owners entry.1 entry.2 hmem)
  rw [length_eq_sum_length_filter h.nodup_ownerKeys
      (fun entry => (entry.1.owner, entry.2.owner)) _ howned,
    ownerKeys, List.map_append, List.sum_append, List.map_map, List.map_map]
  simp only [itemCount_record]
  rfl

end Tables

/-- After any calls on empty storage, whether each succeeds or fails, rows are found under their
own keys and nothing else is, names of users differ in more than the case of letters, items have
an owner of the type that owns their relation, and the items that storage counts are those of all
records. That what a key finds is a stored row with this key is given by the representation, which
keeps each row under its own `id`; that every row is found needs distinct keys. -/
theorem storage_stays_sound (calls : List StoreCall) :
    let tables := StoreCall.steps calls Tables.empty
    (∀ type, ∀ row ∈ tables.rows type, tables.get? type row.id = some (tables.record row)) ∧
      (∀ type id record, tables.get? type id = some record →
        record.row ∈ tables.rows type ∧ record.row.id = id) ∧
      (tables.users.Pairwise fun a b =>
        Text.lowercase a.userName ≠ Text.lowercase b.userName) ∧
      (∀ relation item, (relation, item) ∈ tables.items →
        ∃ row ∈ tables.rows relation.owner, row.id = item.owner) ∧
      tables.sizes = [(tables.rows .user).length, (tables.rows .group).length,
        ((tables.rows .user).map fun row => (tables.record row).itemCount).sum +
          ((tables.rows .group).map fun row => (tables.record row).itemCount).sum] := by
  intro tables
  have hwell : tables.WellFormed := Tables.wellFormed_empty.steps calls
  refine ⟨fun type row hmem => hwell.get?_row hmem, fun type id record hget => ?_, hwell.names,
    fun relation item hmem => ?_, ?_⟩
  · obtain ⟨row, hfind, rfl⟩ := Option.map_eq_some_iff.mp hget
    exact ⟨Tables.mem_of_find? hfind, Tables.id_of_find? hfind⟩
  · exact List.mem_map.mp (Tables.has_iff.mp (hwell.owners relation item hmem))
  · rw [← hwell.length_items]
    rfl

end ScimDirectory
