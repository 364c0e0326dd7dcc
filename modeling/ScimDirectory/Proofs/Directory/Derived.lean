import ScimDirectory.Proofs.Directory.Membership
import ScimDirectory.Proofs.Directory.Uses
import ScimDirectory.Proofs.Store.Order

/-!
# Derived groups

The groups of users are looked up in two steps: groups are found by the texts of the users' keys,
and the members of what is found are read as keys, in any of their forms. For one user or for
many, the lookup succeeds and answers in the order of groups.
-/

namespace ScimDirectory

namespace Record

/-- Whether a group has a member item whose value is the text of a user's key. -/
def spells (group : Record .group) (user : Uuid) : Bool :=
  (group.items .members).any fun item => item.value = some user.toText

/-- Whether a group has a member item that makes a user a member. -/
def admits (group : Record .group) (user : Uuid) : Bool :=
  (group.items .members).any (Directory.namesUser user)

end Record

namespace Tables

/-- All records of a type, in the order of answers. -/
def recordsInOrder (tables : Tables) (type : ResourceType) : List (Record type) :=
  ((tables.rows type).mergeSort inOrder).map tables.record

theorem mem_recordsInOrder {tables : Tables} {type : ResourceType} {record : Record type} :
    record ∈ tables.recordsInOrder type ↔ ∃ row ∈ tables.rows type, tables.record row = record := by
  simp only [recordsInOrder, List.mem_map, List.mem_mergeSort]

/-- Records are in order exactly when they are found by their keys. -/
theorem mem_recordsInOrder_iff {tables : Tables} {type : ResourceType}
    (hnodup : ((tables.rows type).map Row.id).Nodup) {record : Record type} :
    record ∈ tables.recordsInOrder type ↔ tables.get? type record.row.id = some record := by
  rw [mem_recordsInOrder]
  constructor
  · rintro ⟨row, hmem, rfl⟩
    exact get?_of_find? ((find?_eq_some_iff hnodup).mpr ⟨hmem, rfl⟩)
  · intro hget
    obtain ⟨row, hfind, hrecord⟩ := Option.map_eq_some_iff.mp hget
    exact ⟨row, mem_of_find? hfind, hrecord⟩

/-- Rows that stand in the order of answers are answered as they stand. -/
theorem recordsInOrder_of_pairwise {tables : Tables} {type : ResourceType}
    (h : (tables.rows type).Pairwise fun a b => inOrder a b = true) :
    tables.recordsInOrder type = (tables.rows type).map tables.record := by
  rw [recordsInOrder, List.mergeSort_of_pairwise h]

/-- A query that can test every row answers with the records that pass, in order. -/
theorem query_eq_filter {tables : Tables} {type : ResourceType}
    (hnodup : ((tables.rows type).map Row.id).Nodup) {predicate : Predicate}
    {test : Record type → Bool}
    (htest : ∀ row ∈ tables.rows type,
      predicate.evaluate (tables.view row) = .ok (test (tables.record row))) :
    tables.query type (some predicate) = .ok ((tables.recordsInOrder type).filter test) := by
  have hselect : selectWhere (some predicate) tables.view (tables.rows type) =
      .ok ((tables.rows type).filter (test ∘ tables.record)) := selectBy_eq_filter htest
  rw [query, hselect, recordsInOrder, List.filter_map, filter_mergeSort hnodup]
  rfl

end Tables

namespace Directory

/-- A member item can be tested for some users: its value is the text of one of their keys, or it
is not. -/
theorem evaluate_memberIs_any (users : List Uuid) (item : ItemRow) :
    (memberIs users).evaluate item.view =
      .ok (users.any fun user => item.value = some user.toText) := by
  have hany : Predicate.evaluateAny
      (users.map fun user => .equals .value (.text user.toText) false) item.view =
        .ok (users.any fun user => item.value = some user.toText) := by
    induction users with
    | nil => rfl
    | cons user users ih =>
      have hone := evaluate_memberIs user item
      rw [memberIs, List.map_singleton, Predicate.anyOf] at hone
      rw [List.map_cons, Predicate.evaluateAny, hone, List.any_cons]
      cases decide (item.value = some user.toText) with
      | true => rfl
      | false => exact ih
  rw [← hany]
  exact Predicate.evaluate_ofList .or item.view _

/-- The groups in which the text of some user's key stands, in order. -/
def spelling (tables : Tables) (users : List Uuid) : List (Record .group) :=
  (tables.recordsInOrder .group).filter fun group => users.any group.spells

theorem query_memberIs {tables : Tables} (hnodup : ((tables.rows .group).map Row.id).Nodup)
    (users : List Uuid) :
    tables.query .group (some (hasMember (memberIs users))) = .ok (spelling tables users) := by
  refine Tables.query_eq_filter hnodup fun row _ => ?_
  have hitems : (tables.record row).items .members = tables.ownedItems row.id .members :=
    @items_childrenOf .group ..
  have hswap : (users.any (tables.record row).spells) =
      (tables.ownedItems row.id .members).any fun item =>
        users.any fun user => item.value = some user.toText := by
    rw [Bool.eq_iff_iff]
    simp only [Record.spells, hitems, List.any_eq_true]
    exact ⟨fun ⟨user, huser, item, hitem, h⟩ => ⟨item, hitem, user, huser, h⟩,
      fun ⟨item, hitem, user, huser, h⟩ => ⟨user, huser, item, hitem, h⟩⟩
  rw [hasMember, Predicate.evaluate, hswap]
  exact anyWhere_eq_ok fun item _ => evaluate_memberIs_any users item

section

variable {w : World Tables} (d : Directory)

/-- Looking for the groups of users succeeds and reads only. Without users there are none. -/
theorem groupsOf_eq (hnodup : ((w.store.rows .group).map Row.id).Nodup) (users : List Uuid) :
    (d.groupsOf users).run w = (.ok (groupRefs d.config.root (spelling w.store users)), w) := by
  cases users with
  | nil =>
    have hnone : spelling w.store [] = [] :=
      List.filter_eq_nil_iff.mpr fun _ _ => Bool.false_ne_true
    rw [hnone]
    rfl
  | cons user users =>
    refine (Action.run_reading_bind
      (Tables.query .group (some (hasMember (memberIs (user :: users))))) _ w).trans ?_
    rw [query_memberIs hnodup]
    rfl

/-- The groups of one user are those in which the text of its key stands. -/
theorem memberships_eq {tables : Tables} (hnodup : ((tables.rows .group).map Row.id).Nodup)
    (user : Uuid) :
    d.memberships tables user = .ok (groupRefs d.config.root (spelling tables [user])) := by
  rw [memberships, query_memberIs hnodup]
  rfl

/-- A record as it is shown over some tables. -/
def shownOver (tables : Tables) : {type : ResourceType} → Record type → Resource type
  | .user, record =>
    let id := UserRow.id record.row
    userView d.config.root (groupRefs d.config.root (spelling tables [id]) id) record
  | .group, record => groupView d.config.root record

/-- A record is shown without failure. -/
theorem shown_eq {tables : Tables} (hnodup : ((tables.rows .group).map Row.id).Nodup)
    {type : ResourceType} (record : Record type) :
    d.shown tables record = .ok (d.shownOver tables record) := by
  cases type with
  | user =>
    rw [shown, memberships_eq d hnodup]
    rfl
  | group => rfl

end

/-- Whatever is stored, a record is shown without failure. -/
theorem exists_shown (d : Directory) (tables : Tables) {type : ResourceType}
    (record : Record type) : ∃ resource, d.shown tables record = .ok resource := by
  cases type with
  | user =>
    rw [shown, memberships, query_hasMember]
    exact ⟨_, rfl⟩
  | group => exact ⟨_, rfl⟩

end Directory
end ScimDirectory
