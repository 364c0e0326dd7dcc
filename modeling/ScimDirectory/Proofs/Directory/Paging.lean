import ScimDirectory.Proofs.Directory.Commands
import ScimDirectory.Proofs.Directory.Listing
import ScimDirectory.Proofs.Store.RowOrder
import ScimDirectory.Proofs.Uuid

/-!
# Paging

In tables that can be reached, a search finds the stored records in scope that satisfy the predicate
of their type, users before groups, each in the strict order of answers. A page is cut from these by
places, so pages that follow each other list each of them once. The order in which rows stand in the
tables does not matter, because rows have keys of their own.
-/

namespace ScimDirectory

namespace Tables

variable {tables other : Tables} {type : ResourceType}

/-- Tables that can be reached from empty ones: by calls on storage, or by commands to a
directory. -/
inductive Reached : Tables → Prop where
  /-- By any calls, whether or not they succeed. -/
  | calls (calls : List StoreCall) : Reached (StoreCall.steps calls empty)
  /-- By any commands, whether or not they succeed. -/
  | commands (d : Directory) (history : List (Instant × Command)) :
    Reached (d.serveAll history (World.fresh empty)).store

theorem Reached.wellFormed (h : tables.Reached) : tables.WellFormed := by
  cases h with
  | calls calls => exact wellFormed_empty.steps calls
  | commands d history => exact (Directory.serveAll_sound (sound_empty 0) history).toWellFormed

/-- The order of answers does not depend on the order of rows. -/
theorem SameRows.recordsInOrder (h : tables.SameRows other)
    (hkeys : ((tables.rows type).map Row.id).Nodup) :
    tables.recordsInOrder type = other.recordsInOrder type := by
  rw [Tables.recordsInOrder, Tables.recordsInOrder, mergeSort_congr hkeys (h.rows type)]
  exact List.map_congr_left fun row _ => h.record row

/-- Records are answered in strict order. -/
theorem pairwise_recordsInOrder (hkeys : ((tables.rows type).map Row.id).Nodup) :
    (tables.recordsInOrder type).Pairwise fun a b => a.row.orderKey < b.row.orderKey :=
  List.pairwise_map.mpr (pairwise_orderKey_mergeSort hkeys)

end Tables

namespace Directory

variable {d : Directory} {w : World Tables} {type : ResourceType} {filter : Option String}
  {request : SearchRequest} {scope : Scope} {wanted : Wanted}

/-- Whether a search is about a record: its type is in scope, and if there is a filter, then the
type has a predicate and the record satisfies it. -/
def asksFor (scope : Scope) (wanted : Wanted) (tables : Tables) (record : Record type) : Bool :=
  scope.wants type && wanted.all fun compiled => (compiled.ofType type).any fun p =>
    (p.evaluate (tables.view record.row)).toOption = some true

/-- The predicate of a type in scope can be evaluated on every row. -/
theorem evaluate_wanted {compiled : Filter.Compiled} (h : d.wanted filter scope = .ok (some compiled))
    (hscope : scope.wants type = true) {p : Predicate} (hplace : compiled.ofType type = some p)
    (tables : Tables) (row : Row type) :
    p.evaluate (tables.view row) = .ok (asksFor scope (some compiled) tables (tables.record row)) := by
  obtain ⟨-, hnone⟩ | ⟨expr, _, -, hcompile, hsome⟩ := wanted_eq_ok.mp h
  · cases hnone
  · cases hsome
    have hwanted : type.wanted (scope.wants .user) (scope.wants .group) = true := by
      cases type <;> exact hscope
    have hanswer := Filter.compile_expresses hcompile hwanted _ _
      (row.view_shows (tables.ownedItems row.id))
    rw [hplace] at hanswer
    have hmeans : p.evaluate (tables.view row) = _ := hanswer
    have hasks : asksFor scope (some compiled) tables (tables.record row) =
        decide ((p.evaluate (tables.view row)).toOption = some true) := by
      rw [asksFor, hscope, Option.all_some, hplace]
      rfl
    rw [hasks, hmeans]
    refine congrArg Except.ok ?_
    simp [Except.toOption]

/-- What is looked for among the records of a type is found, in the order of answers. -/
theorem matching_run (hkeys : ((w.store.rows type).map Row.id).Nodup)
    (h : d.wanted filter scope = .ok wanted) :
    ((matching type scope wanted).run w).1 =
      .ok ((w.store.recordsInOrder type).filter (asksFor scope wanted w.store)) := by
  have hnone : (∀ record ∈ w.store.recordsInOrder type,
      asksFor scope wanted w.store record = false) →
        (.ok [] : Except DirectoryError (List (Record type))) =
          .ok ((w.store.recordsInOrder type).filter (asksFor scope wanted w.store)) := by
    intro hno
    rw [List.filter_eq_nil_iff.mpr fun record hmem => by rw [hno record hmem]; exact Bool.false_ne_true]
  unfold matching
  cases hscope : scope.wants type with
  | false =>
    refine hnone fun record _ => ?_
    rw [asksFor, hscope, Bool.false_and]
  | true =>
    cases wanted with
    | none =>
      have hall : (w.store.recordsInOrder type).filter (asksFor scope none w.store) =
          w.store.recordsInOrder type := by
        refine List.filter_eq_self.mpr fun record _ => ?_
        rw [asksFor, hscope]
        rfl
      rw [hall]
      rfl
    | some compiled =>
      dsimp only
      cases hplace : compiled.ofType type with
      | none =>
        refine hnone fun record _ => ?_
        rw [asksFor, hscope, Option.all_some, hplace]
        rfl
      | some p =>
        have hquery := Tables.query_eq_filter hkeys fun row _ =>
          evaluate_wanted h hscope hplace w.store row
        exact congrArg (Except.mapError DirectoryError.storage) hquery

/-- What a search finds in some tables: users before groups, each in the order of answers. -/
def foundOver (scope : Scope) (wanted : Wanted) (tables : Tables) : List Found :=
  ((tables.recordsInOrder .user).filter (asksFor scope wanted tables)).map .inl ++
    ((tables.recordsInOrder .group).filter (asksFor scope wanted tables)).map .inr

theorem foundIn_eq (hkeys : ∀ type, ((w.store.rows type).map Row.id).Nodup)
    (h : d.wanted filter scope = .ok wanted) :
    d.foundIn w filter scope = .ok (foundOver scope wanted w.store) := by
  refine except_bind_eq_ok.mpr ⟨wanted, h, ?_⟩
  refine except_bind_eq_ok.mpr ⟨_, matching_run (hkeys .user) h, ?_⟩
  exact except_bind_eq_ok.mpr ⟨_, matching_run (hkeys .group) h, rfl⟩

/-- A record is found exactly when it is stored and the search is about it. -/
theorem mem_asksFor (hkeys : ((w.store.rows type).map Row.id).Nodup) {record : Record type} :
    record ∈ (w.store.recordsInOrder type).filter (asksFor scope wanted w.store) ↔
      w.store.get? type record.row.id = some record ∧
        asksFor scope wanted w.store record = true := by
  rw [List.mem_filter, Tables.mem_recordsInOrder_iff hkeys]

/-- A search finds no resource twice. -/
theorem nodup_key_foundOver (hkeys : ∀ type, ((w.store.rows type).map Row.id).Nodup) :
    ((foundOver scope wanted w.store).map Found.key).Nodup := by
  have hleg : ∀ type, (((w.store.recordsInOrder type).filter
      (asksFor scope wanted w.store)).map fun record => (type, some record.row.id.toText)).Nodup := by
    intro type
    have hinjective : Function.Injective fun id : Uuid => (type, some id.toText) := by
      intro u v huv
      exact Uuid.toText_injective (Option.some.inj (Prod.mk.inj huv).2)
    have hids : ((w.store.recordsInOrder type).map fun record => record.row.id).Nodup := by
      rw [Tables.recordsInOrder, List.map_map]
      exact ((List.mergeSort_perm _ _).map Row.id).nodup_iff.mpr (hkeys type)
    have hkept := (hids.sublist ((List.filter_sublist
      (p := asksFor scope wanted w.store)).map _)).map hinjective
    rwa [List.map_map] at hkept
  rw [foundOver, List.map_append, List.map_map, List.map_map]
  refine List.Nodup.append (hleg .user) (hleg .group) fun key huser hgroup => ?_
  obtain ⟨_, -, rfl⟩ := List.mem_map.mp huser
  obtain ⟨_, -, hkey⟩ := List.mem_map.mp hgroup
  cases hkey

/-- A page with a place and a size within bounds. -/
theorem search_page (hvalid : request.validate = .ok ()) {found : List Found}
    (hfound : d.foundIn w request.filter scope = .ok found) {count : Nat}
    (hcount : count ≤ d.config.maxResults) (skipped : Nat) :
    ∃ response, (d.search (request.paged (1 + skipped) count) scope).run w = (.ok response, w) ∧
      response.totalResults = found.length ∧ response.startIndex = 1 + skipped ∧
      response.resources.length = min count (found.length - skipped) ∧
      response.resources.map Hit.key = ((found.map Found.key).drop skipped).take count := by
  obtain ⟨groups, hsearch⟩ := @search_of_found d w (request.paged (1 + skipped) count) scope hvalid
    found hfound
  have hfirst : firstIndex (request.paged (1 + skipped) count) = 1 + skipped :=
    Nat.max_eq_left (Nat.le_add_right 1 skipped)
  have hsize : d.pageSize (request.paged (1 + skipped) count) = count := Nat.min_eq_left hcount
  rw [hfirst, hsize, Nat.add_sub_cancel_left] at hsearch
  refine ⟨_, hsearch, rfl, rfl, ?_, ?_⟩
  · rw [List.length_map, List.length_take, List.length_drop]
  · rw [List.map_map, ← List.map_drop, ← List.map_take]
    exact List.map_congr_left fun found _ => key_hit groups found

theorem foundOver_sameRows {tables other : Tables}
    (hkeys : ∀ type, ((tables.rows type).map Row.id).Nodup) (hsame : tables.SameRows other)
    (scope : Scope) (wanted : Wanted) :
    foundOver scope wanted other = foundOver scope wanted tables := by
  have hasks : ∀ type, (asksFor scope wanted other : Record type → Bool) =
      asksFor scope wanted tables := by
    intro type
    funext record
    rw [asksFor, asksFor, hsame.view]
  rw [foundOver, foundOver, hasks, hasks, hsame.recordsInOrder (hkeys .user),
    hsame.recordsInOrder (hkeys .group)]

/-- The answer to a search does not depend on the order in which rows stand. -/
theorem search_sameRows (hkeys : ∀ type, ((w.store.rows type).map Row.id).Nodup) {other : Tables}
    (hsame : w.store.SameRows other) (request : SearchRequest) (scope : Scope) :
    ((d.search request scope).run { w with store := other }).1 =
      ((d.search request scope).run w).1 := by
  have hkeys' : ∀ type, ((other.rows type).map Row.id).Nodup := fun type => hsame.keys (hkeys type)
  have hfound : d.foundIn { w with store := other } request.filter scope =
      d.foundIn w request.filter scope := by
    cases hwanted : d.wanted request.filter scope with
    | error error =>
      rw [foundIn, foundIn, hwanted]
      rfl
    | ok wanted =>
      rw [foundIn_eq hkeys hwanted, @foundIn_eq d { w with store := other } _ _ _ hkeys' hwanted,
        foundOver_sameRows hkeys hsame]
  have hanswer : ∀ found, d.answerWith request { w with store := other } found =
      d.answerWith request w found := by
    intro found
    have hgroups := d.groupsOf_eq (hkeys .group) (userIds (d.pageOf request found))
    have hgroups' := @d.groupsOf_eq { w with store := other } (hkeys' .group)
      (userIds (d.pageOf request found))
    rw [answerWith, answerWith, hgroups, hgroups']
    dsimp only
    rw [spelling, spelling, hsame.recordsInOrder (hkeys .group)]
  rw [search_run, search_run, hfound]
  refine congrArg (request.validate >>= ·) (funext fun _ => ?_)
  exact congrArg (d.foundIn w request.filter scope >>= ·) (funext hanswer)

/-- A search from place zero is one from the first place. -/
theorem search_startIndex_zero (d : Directory) (request : SearchRequest) (scope : Scope) :
    (d.search { request with startIndex := some 0 } scope : Action Tables ListResponse) =
      d.search { request with startIndex := some 1 } scope := rfl

/-- A search for more resources than the settings allow is one for as many as they allow. -/
theorem search_count_of_le (d : Directory) (request : SearchRequest) (scope : Scope) {count : Nat}
    (h : d.config.maxResults ≤ count) :
    (d.search { request with count := some count } scope : Action Tables ListResponse) =
      d.search { request with count := some d.config.maxResults } scope := by
  have hsize : d.pageSize { request with count := some count } =
      d.pageSize { request with count := some d.config.maxResults } :=
    (Nat.min_eq_right h).trans (Nat.min_self _).symm
  unfold search
  rw [hsize]
  rfl

end Directory

/-- Paging loses and repeats nothing. For every directory and reachable tables, a search whose filter
is accepted, or that has none, is about certain users and groups: those stored ones in scope that
satisfy the predicate of their type, in the strict order of times of creation and then of keys. Pages
of any size within bounds, one after the other, list the types and identifiers of these users and
then of these groups, each once, and each page tells how many there are and has as many as fit or
remain. A place of zero counts as the first, a size above the bound as the bound, and the order in
which the rows of the tables stand makes no difference to any answer. -/
theorem paging_loses_and_repeats_nothing (d : Directory) (w : World Tables)
    (request : SearchRequest) (scope : Scope) (wanted : Directory.Wanted)
    (hreached : w.store.Reached) (hvalid : request.validate = .ok ())
    (hwanted : d.wanted request.filter scope = .ok wanted) :
    (∃ (users : List (Record .user)) (groups : List (Record .group)),
      users.Pairwise (fun a b => a.row.orderKey < b.row.orderKey) ∧
      groups.Pairwise (fun a b => a.row.orderKey < b.row.orderKey) ∧
      (∀ record, record ∈ users ↔ w.store.get? .user record.row.id = some record ∧
        Directory.asksFor scope wanted w.store record = true) ∧
      (∀ record, record ∈ groups ↔ w.store.get? .group record.row.id = some record ∧
        Directory.asksFor scope wanted w.store record = true) ∧
      let keys : List (ResourceType × Option String) :=
        users.map (fun record => (.user, some record.row.id.toText)) ++
          groups.map fun record => (.group, some record.row.id.toText)
      keys.Nodup ∧
      ∀ count, 1 ≤ count → count ≤ d.config.maxResults →
        (∀ page, ∃ response,
          (d.search (request.paged (1 + page * count) count) scope).run w = (.ok response, w) ∧
          response.totalResults = keys.length ∧ response.startIndex = 1 + page * count ∧
          response.resources.length = min count (keys.length - page * count) ∧
          response.resources.map Hit.key = (keys.drop (page * count)).take count) ∧
        ∀ pages, keys.length ≤ pages * count → ∃ hits,
          (d.pages { request with count := some count } scope 0 pages).run w = (.ok hits, w) ∧
          hits.map Hit.key = keys) ∧
    (d.search { request with startIndex := some 0 } scope : Action Tables ListResponse) =
      d.search { request with startIndex := some 1 } scope ∧
    (∀ count, d.config.maxResults ≤ count →
      (d.search { request with count := some count } scope : Action Tables ListResponse) =
        d.search { request with count := some d.config.maxResults } scope) ∧
    ∀ other, w.store.SameRows other →
      ((d.search request scope).run { w with store := other }).1 =
        ((d.search request scope).run w).1 := by
  have hkeys := hreached.wellFormed.keys
  have hfound := Directory.foundIn_eq hkeys hwanted
  have hordered : ∀ type, ((w.store.recordsInOrder type).filter
      (Directory.asksFor scope wanted w.store)).Pairwise
        fun a b => a.row.orderKey < b.row.orderKey :=
    fun type => (Tables.pairwise_recordsInOrder (hkeys type)).filter _
  refine ⟨⟨_, _, hordered .user, hordered .group, fun record => Directory.mem_asksFor (hkeys .user),
    fun record => Directory.mem_asksFor (hkeys .group), ?_⟩,
    d.search_startIndex_zero request scope, fun count h => d.search_count_of_le request scope h,
    fun other hsame => Directory.search_sameRows hkeys hsame request scope⟩
  intro keys
  have hall : (Directory.foundOver scope wanted w.store).map Directory.Found.key = keys := by
    rw [Directory.foundOver, List.map_append, List.map_map, List.map_map]
    rfl
  have hlength : (Directory.foundOver scope wanted w.store).length = keys.length := by
    rw [← hall, List.length_map]
  refine ⟨hall ▸ Directory.nodup_key_foundOver hkeys, fun count hpos hcount => ⟨fun page => ?_,
    fun pages hpages => ?_⟩⟩
  · rw [← hlength, ← hall]
    exact Directory.search_page hvalid hfound hcount (page * count)
  · obtain ⟨hits, hrun, hkeys⟩ := @Directory.pages_run d w { request with count := some count } scope
      hvalid _ hfound 0 pages
    have hsize : d.pageSize { request with count := some count } = count := Nat.min_eq_left hcount
    refine ⟨hits, hrun, hkeys.trans ?_⟩
    rw [hsize, List.drop_zero, List.take_of_length_le (hlength ▸ hpages), hall]

/-- Two pages of one resource each list a user and a group. -/
theorem paging_loses_and_repeats_nothing_of_two_resources :
    let d : Directory := ⟨.standard, [], Filter.parse⟩
    let history : List (Instant × Command) :=
      [(.ofSeconds 0, @Command.create .user none (User.named "alice")),
        (.ofSeconds 1, @Command.create .group none (Group.named "Team"))]
    let w := d.serveAll history (World.fresh Tables.empty)
    d.wanted SearchRequest.everything.filter .all = .ok none ∧
    ∃ hits,
      (d.pages { SearchRequest.everything with count := some 1 } .all 0 2).run w = (.ok hits, w) ∧
        hits.length = 2 ∧ (hits.map Hit.key).Nodup := by
  intro d history w
  have hwanted : d.wanted SearchRequest.everything.filter .all = .ok none := rfl
  obtain ⟨⟨users, groups, -, -, -, -, hnodup, hpaged⟩, -⟩ := paging_loses_and_repeats_nothing d w
    .everything .all none (.commands d history) rfl hwanted
  obtain ⟨hpage, hpages⟩ := hpaged 1 (Nat.le_refl 1) (by decide)
  have htwo : ((d.search (SearchRequest.everything.paged 1 1) .all).run w).1.toOption.any
      (fun response => response.totalResults = 2) = true := by
    decide +kernel
  obtain ⟨response, hsearch, htotal, -⟩ := hpage 0
  have hanswer : ((d.search (SearchRequest.everything.paged 1 1) .all).run w).1 = .ok response :=
    congrArg Prod.fst hsearch
  rw [hanswer] at htwo
  have hlength := htotal.symm.trans (of_decide_eq_true htwo)
  obtain ⟨hits, hrun, hkeys⟩ := hpages 2 hlength.le
  refine ⟨hwanted, hits, hrun, ?_, hkeys ▸ hnodup⟩
  rw [← List.length_map Hit.key, hkeys, hlength]

end ScimDirectory
