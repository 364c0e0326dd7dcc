import ScimDirectory.Proofs.Directory.Listing
import ScimDirectory.Proofs.Filter.Barred

/-!
# Passwords

A password is kept in a column that filters may not name and views do not copy. So what is read of a
directory, whole or in part, is what would be read if no user had a password, and two directories in
which nothing but passwords differs cannot be told apart by reading.
-/

namespace ScimDirectory

variable {type : ResourceType}

/-- The row without its password. Groups have none. -/
def Row.withoutPassword : {type : ResourceType} → Row type → Row type
  | .user, row => { (row : UserRow) with password := none }
  | .group, row => row

/-- The record without its password. -/
def Record.withoutPassword (record : Record type) : Record type :=
  record.withRow record.row.withoutPassword

/-- The tables without the passwords of users. -/
def Tables.withoutPasswords (tables : Tables) : Tables :=
  { tables with users := tables.users.map (Row.withoutPassword : Row .user → Row .user) }

namespace Row

@[simp] theorem id_withoutPassword (row : Row type) : row.withoutPassword.id = row.id := by
  cases type <;> rfl

@[simp] theorem created_withoutPassword (row : Row type) :
    row.withoutPassword.created = row.created := by
  cases type <;> rfl

theorem cell_withoutPassword (row : Row type) {column : Column} (hne : column ≠ .password) :
    row.withoutPassword.cell column = row.cell column := by
  cases type with
  | user => cases column <;> first | rfl | exact absurd rfl hne
  | group => rfl

end Row

namespace Tables

theorem rows_withoutPasswords (tables : Tables) (type : ResourceType) :
    tables.withoutPasswords.rows type = (tables.rows type).map Row.withoutPassword := by
  cases type with
  | user => rfl
  | group => exact (List.map_id tables.groups).symm

theorem ownedItems_withoutPasswords (tables : Tables) :
    tables.withoutPasswords.ownedItems = tables.ownedItems := rfl

/-- A record is made of a row without its password as the record is without it. -/
theorem record_comp_withoutPassword (tables : Tables) :
    tables.withoutPasswords.record ∘ (Row.withoutPassword : Row type → Row type) =
      Record.withoutPassword ∘ tables.record := by
  funext row
  unfold record
  rw [Function.comp_apply, Row.id_withoutPassword, ownedItems_withoutPasswords]
  rfl

theorem get?_withoutPasswords (tables : Tables) (type : ResourceType) (id : Uuid) :
    tables.withoutPasswords.get? type id = (tables.get? type id).map Record.withoutPassword := by
  have hsame : (fun row : Row type => decide (row.id = id)) ∘ Row.withoutPassword =
      fun row => decide (row.id = id) := by
    funext row
    rw [Function.comp_apply, Row.id_withoutPassword]
  rw [get?, get?, find?, find?, rows_withoutPasswords, List.find?_map, hsame, Option.map_map,
    Option.map_map, record_comp_withoutPassword]

/-- The view of a row without its password is alike but for the password. -/
theorem view_alikeBut_password (tables : Tables) (row : Row type) :
    (tables.withoutPasswords.view row.withoutPassword).AlikeBut .password (tables.view row) where
  table := rfl
  cell _ hne := row.cell_withoutPassword hne
  items := by
    unfold view
    rw [Row.id_withoutPassword, ownedItems_withoutPasswords]
    rfl

theorem inOrder_withoutPassword (a b : Row type) :
    inOrder a.withoutPassword b.withoutPassword = inOrder a b := by
  simp only [inOrder, Row.created_withoutPassword, Row.id_withoutPassword]

end Tables

/-- Elements that are tested alike after a change are selected before or after it. -/
theorem selectBy_map {α β : Type} {p : Predicate} {view : α → RowView} {view' : β → RowView}
    {f : α → β} (h : ∀ x, p.evaluate (view' (f x)) = p.evaluate (view x)) (xs : List α) :
    selectBy p view' (xs.map f) = (selectBy p view xs).map (List.map f) := by
  induction xs with
  | nil => rfl
  | cons x xs ih =>
    rw [List.map_cons, selectBy, selectBy, h, ih]
    cases p.evaluate (view x) with
    | error error => rfl
    | ok keep =>
      cases selectBy p view xs with
      | error error => rfl
      | ok kept => cases keep <;> rfl

/-- A query whose predicate does not read the password finds the same without passwords. -/
theorem Tables.query_withoutPasswords (tables : Tables) (type : ResourceType)
    {predicate : Option Predicate} (hignores : ∀ p ∈ predicate, p.Ignores .password) :
    tables.withoutPasswords.query type predicate =
      (tables.query type predicate).map (List.map Record.withoutPassword) := by
  have hselect : selectWhere predicate tables.withoutPasswords.view
      ((tables.rows type).map Row.withoutPassword) =
        (selectWhere predicate tables.view (tables.rows type)).map
          (List.map Row.withoutPassword) := by
    cases predicate with
    | none => rfl
    | some p =>
      exact selectBy_map (fun row => hignores p rfl (tables.view_alikeBut_password row)) _
  have hsort : ∀ rows : List (Row type), (rows.map Row.withoutPassword).mergeSort inOrder =
      (rows.mergeSort inOrder).map Row.withoutPassword := fun rows =>
    (List.map_mergeSort fun a _ b _ => (inOrder_withoutPassword a b).symm).symm
  rw [query, query, rows_withoutPasswords, hselect]
  cases selectWhere predicate tables.view (tables.rows type) with
  | error error => rfl
  | ok rows =>
    refine congrArg Except.ok ?_
    dsimp only
    rw [hsort, List.map_map, List.map_map, record_comp_withoutPassword]

namespace Directory

variable {d : Directory} {w : World Tables} {scope : Scope}

/-- A record is shown without its password as it is. -/
theorem shown_withoutPassword (d : Directory) (tables : Tables) (record : Record type) :
    d.shown tables.withoutPasswords record.withoutPassword = d.shown tables record := by
  cases type <;> rfl

/-- A resource is shown as it would be without passwords. -/
theorem get_withoutPasswords (d : Directory) (type : ResourceType) (id : String)
    (w : World Tables) :
    ((d.get type id).run { w with store := w.store.withoutPasswords }).1 =
      ((d.get type id).run w).1 := by
  rw [get_run, get_run]
  cases idOf type id with
  | error error => rfl
  | ok uuid =>
    dsimp only
    rw [Tables.get?_withoutPasswords]
    cases w.store.get? type uuid with
    | none => rfl
    | some record => exact d.shown_withoutPassword w.store record

/-- A found resource without its password. -/
def Found.withoutPassword : Found → Found
  | .inl record => .inl record.withoutPassword
  | .inr record => .inr record.withoutPassword

/-- What is wanted of a type can be told without reading passwords. -/
theorem wanted_ignores {filter : Option String} {compiled : Filter.Compiled}
    (h : d.wanted filter scope = .ok (some compiled)) (type : ResourceType) :
    ∀ p ∈ compiled.ofType type, p.Ignores .password := by
  obtain ⟨-, hnone⟩ | ⟨expr, _, -, hcompile, hsome⟩ := wanted_eq_ok.mp h
  · cases hnone
  · cases hsome
    exact Filter.compile_ignores hcompile (AttributeTable.bars_password type)

theorem matching_withoutPasswords {filter : Option String} {wanted : Wanted}
    (h : d.wanted filter scope = .ok wanted) (type : ResourceType) :
    ((matching type scope wanted).run { w with store := w.store.withoutPasswords }).1 =
      ((matching type scope wanted).run w).1.map (List.map Record.withoutPassword) := by
  have hquery : ∀ predicate : Option Predicate, (∀ p ∈ predicate, p.Ignores .password) →
      (w.store.withoutPasswords.query type predicate).mapError DirectoryError.storage =
        ((w.store.query type predicate).mapError DirectoryError.storage).map
          (List.map Record.withoutPassword) := by
    intro predicate hignores
    rw [Tables.query_withoutPasswords _ _ hignores]
    cases w.store.query type predicate <;> rfl
  unfold matching
  cases scope.wants type with
  | false => rfl
  | true =>
    cases wanted with
    | none => exact hquery none Predicate.ignores_of_mem_none
    | some compiled =>
      dsimp only
      have hignores := wanted_ignores h type
      cases hplace : compiled.ofType type with
      | none => rfl
      | some predicate => exact hquery (some predicate) (hplace ▸ hignores)

/-- A search finds what it would find without passwords. -/
theorem foundIn_withoutPasswords (d : Directory) (filter : Option String) (scope : Scope)
    (w : World Tables) :
    d.foundIn { w with store := w.store.withoutPasswords } filter scope =
      (d.foundIn w filter scope).map (List.map Found.withoutPassword) := by
  unfold foundIn
  cases hwanted : d.wanted filter scope with
  | error error => rfl
  | ok wanted =>
    dsimp only [bind, Except.bind]
    rw [matching_withoutPasswords hwanted, matching_withoutPasswords hwanted]
    cases ((matching .user scope wanted).run w).1 with
    | error error => rfl
    | ok users =>
      cases ((matching .group scope wanted).run w).1 with
      | error error => rfl
      | ok groups =>
        refine congrArg Except.ok ?_
        simp only [List.map_append, List.map_map]
        rfl

theorem pageOf_withoutPasswords (d : Directory) (request : SearchRequest) (found : List Found) :
    d.pageOf request (found.map Found.withoutPassword) =
      (d.pageOf request found).map Found.withoutPassword := by
  rw [pageOf, pageOf, List.map_take, List.map_drop]

theorem userIds_withoutPasswords (page : List Found) :
    userIds (page.map Found.withoutPassword) = userIds page := by
  rw [userIds, userIds, List.filterMap_map]
  congr 1
  funext found
  cases found <;> rfl

/-- A resource is answered as it would be without its password. -/
theorem hit_withoutPassword (d : Directory) (groups : Uuid → List GroupRef) (found : Found) :
    d.hit groups found.withoutPassword = d.hit groups found := by
  cases found <;> rfl

/-- Looking for groups reads nothing of users. -/
theorem groupsOf_withoutPasswords (d : Directory) (users : List Uuid) (w : World Tables) :
    ((d.groupsOf users).run { w with store := w.store.withoutPasswords }).1 =
      ((d.groupsOf users).run w).1 := by
  cases users with
  | nil => rfl
  | cons user users =>
    let query := Tables.query .group (some (hasMember (memberIs (user :: users))))
    have hquery : query w.store.withoutPasswords = query w.store := rfl
    have hreads : Reads (Action.call (.reading query)) := fun _ => rfl
    have hanswer : ((Action.call (.reading query)).run
        { w with store := w.store.withoutPasswords }).1 =
          ((Action.call (.reading query)).run w).1 :=
      congrArg (Except.mapError DirectoryError.storage) hquery
    refine (hreads.answer_bind _ _).trans (Eq.trans ?_ (hreads.answer_bind _ w).symm)
    rw [hanswer]
    rfl

/-- A search is answered as it would be without passwords. -/
theorem search_withoutPasswords (d : Directory) (request : SearchRequest) (scope : Scope)
    (w : World Tables) :
    ((d.search request scope).run { w with store := w.store.withoutPasswords }).1 =
      ((d.search request scope).run w).1 := by
  rw [search_run, search_run]
  refine congrArg (request.validate >>= ·) (funext fun _ => ?_)
  rw [foundIn_withoutPasswords]
  cases d.foundIn w request.filter scope with
  | error error => rfl
  | ok found =>
    change d.answerWith request _ (found.map Found.withoutPassword) = d.answerWith request w found
    rw [answerWith, answerWith, pageOf_withoutPasswords, userIds_withoutPasswords,
      groupsOf_withoutPasswords, List.length_map]
    refine congrArg (Except.map · _) (funext fun groups => ?_)
    have hhit : d.hit groups ∘ Found.withoutPassword = d.hit groups :=
      funext (d.hit_withoutPassword groups)
    rw [List.map_map, hhit]

end Directory

/-- Passwords do not leak. Two directories in which nothing but the passwords of users differs
answer alike, whatever is asked for by identifier or by search: with the same resources or with the
same error. -/
theorem passwords_do_not_leak (d : Directory) (w : World Tables) (other : Tables)
    (h : w.store.withoutPasswords = other.withoutPasswords) :
    (∀ type id,
      ((d.get type id).run w).1 = ((d.get type id).run { w with store := other }).1) ∧
    ∀ request scope,
      ((d.search request scope).run w).1 =
        ((d.search request scope).run { w with store := other }).1 := by
  constructor
  · intro type id
    rw [← d.get_withoutPasswords type id w, h]
    exact d.get_withoutPasswords type id { w with store := other }
  · intro request scope
    rw [← d.search_withoutPasswords request scope w, h]
    exact d.search_withoutPasswords request scope { w with store := other }

/-- A user is shown alike with either of two passwords, and a search whose filter asks for one of them
is answered alike. -/
theorem passwords_do_not_leak_of_alice :
    let d : Directory := ⟨Config.standard, Stamp.utf8 "salt", Filter.parse⟩
    let alice (password : String) : Tables :=
      ⟨[{ UserRow.named (.numbered 1) "alice" (.ofSeconds 0) with password := some password }], [],
        [], []⟩
    let w := World.fresh (alice "secret")
    let asking : SearchRequest := .filtered "userName eq \"Alice\" and password eq \"secret\""
    alice "secret" ≠ alice "other" ∧
    (alice "secret").withoutPasswords = (alice "other").withoutPasswords ∧
    ((d.get .user (Uuid.numbered 1).toText).run w).1 =
      ((d.get .user (Uuid.numbered 1).toText).run { w with store := alice "other" }).1 ∧
    ((d.search asking .users).run w).1 =
      ((d.search asking .users).run { w with store := alice "other" }).1 := by
  intro d alice w asking
  have hsame : w.store.withoutPasswords = (alice "other").withoutPasswords := rfl
  obtain ⟨hget, hsearch⟩ := passwords_do_not_leak d w (alice "other") hsame
  exact ⟨by decide, hsame, hget .user _, hsearch asking .users⟩

end ScimDirectory
