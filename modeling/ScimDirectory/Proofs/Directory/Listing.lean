import ScimDirectory.Proofs.Directory.Derived
import ScimDirectory.Proofs.Filter.Scopes

/-!
# Listings

A search answers with one page of what it finds, and a listing puts all pages together. What is
found among users and groups is what is found among users, followed by what is found among groups,
although a filter is compiled otherwise for both than for either, and is refused for other reasons.
Nothing is asked of the tables here: this holds in every state of storage.
-/

namespace ScimDirectory

/-- What tells a resource of an answer from all others: its type and its identifier. -/
def Hit.key : Hit → ResourceType × Option String
  | .user found => (.user, found.id)
  | .group found => (.group, found.id)

namespace Directory

section

variable {σ : Type} [Storage σ]

/-- The resources of so many pages of an answer, the first of which skips so many resources. -/
def pages (d : Directory) (request : SearchRequest) (scope : Scope) (skipped : Nat) :
    Nat → Action σ (List Hit)
  | 0 => pure []
  | count + 1 => do
    let response ← d.search { request with startIndex := some (skipped + 1) } scope
    let others ← d.pages request scope (skipped + d.pageSize request) count
    return response.resources ++ others

/-- All pages of an answer. The first one tells how many resources there are. -/
def listing (d : Directory) (request : SearchRequest) (scope : Scope) : Action σ (List Hit) := do
  let first ← d.search { request with startIndex := some 1 } scope
  d.pages request scope 0 (first.totalResults / d.pageSize request + 1)

end

/-- All resources that a search finds, before a page is cut from them. -/
def foundIn (d : Directory) (w : World Tables) (filter : Option String) (scope : Scope) :
    Except DirectoryError (List Found) := do
  let wanted ← d.wanted filter scope
  let users ← ((matching .user scope wanted).run w).1
  let groups ← ((matching .group scope wanted).run w).1
  return users.map .inl ++ groups.map .inr

/-- The key of a found resource. -/
def Found.key : Found → ResourceType × Option String
  | .inl record => (.user, some record.row.id.toText)
  | .inr record => (.group, some record.row.id.toText)

/-- The expression of a filter. A filter of nothing but blanks is none. -/
def expressionOf (d : Directory) (filter : Option String) :
    Except DirectoryError (Option Expr) :=
  match filter.map Text.trimmed with
  | none | some "" => .ok none
  | some text => ((d.parser .filter text).mapError .filterText).map some

variable {d : Directory} {w : World Tables} {filter : Option String} {request : SearchRequest}
  {scope : Scope}

/-- The groups of users can be looked up whatever is stored. -/
theorem groupsOf_succeeds (d : Directory) (users : List Uuid) (w : World Tables) :
    ∃ groups, (d.groupsOf users).run w = (.ok groups, w) := by
  have hquery : ∃ records,
      w.store.query .group (some (hasMember (memberIs users))) = .ok records := by
    have htest : ∀ row ∈ w.store.rows .group,
        (hasMember (memberIs users)).evaluate (w.store.view row) =
          .ok ((w.store.ownedItems (Row.id row) .members).any fun item =>
            users.any fun user => item.value = some user.toText) :=
      fun row _ => anyWhere_eq_ok fun item _ => evaluate_memberIs_any users item
    exact ⟨_, except_map_eq_ok.mpr ⟨_, selectBy_eq_filter htest, rfl⟩⟩
  obtain ⟨records, hrecords⟩ := hquery
  unfold groupsOf
  split
  · exact ⟨_, rfl⟩
  · refine ⟨groupRefs d.config.root records, ?_⟩
    refine (Action.run_reading_bind _ _ w).trans ?_
    rw [hrecords]
    rfl

/-- A filter that no type can match finds nothing of any type. -/
theorem matching_of_unsatisfiable {wanted : Wanted}
    (h : wanted.any Filter.Compiled.isUnsatisfiable = true) (type : ResourceType) :
    (matching type scope wanted : Action Tables (List (Record type))) = pure [] := by
  obtain ⟨compiled, rfl, hnone⟩ := (Option.any_eq_true _ _).mp h
  obtain ⟨husers, hgroups⟩ := Bool.and_eq_true_iff.mp hnone
  have hplace : compiled.ofType type = none := by
    cases type
    · exact Option.isNone_iff_eq_none.mp husers
    · exact Option.isNone_iff_eq_none.mp hgroups
  unfold matching
  cases scope.wants type with
  | false => rfl
  | true => simp only [hplace]

/-- The page that a request asks for of what is found. -/
def pageOf (d : Directory) (request : SearchRequest) (found : List Found) : List Found :=
  (found.drop (firstIndex request - 1)).take (d.pageSize request)

/-- The answer to a request for which resources are found: their number, and a page of them with the
groups of its users. -/
def answerWith (d : Directory) (request : SearchRequest) (w : World Tables) (found : List Found) :
    Except DirectoryError ListResponse :=
  ((d.groupsOf (userIds (d.pageOf request found))).run w).1.map fun groups =>
    ⟨found.length, firstIndex request, (d.pageOf request found).map (d.hit groups)⟩

theorem answerWith_nil (d : Directory) (request : SearchRequest) (w : World Tables) :
    d.answerWith request w [] = .ok ⟨0, firstIndex request, []⟩ := by
  have hpage : d.pageOf request [] = [] := by rw [pageOf, List.drop_nil, List.take_nil]
  rw [answerWith, hpage]
  rfl

/-- A search checks the request, finds resources, and answers with a page of them. -/
theorem search_run (d : Directory) (request : SearchRequest) (scope : Scope) (w : World Tables) :
    (d.search request scope).run w = (do
      request.validate
      d.answerWith request w (← d.foundIn w request.filter scope), w) := by
  refine Prod.ext ?_ (d.reads_search request scope w)
  have hensure : ∀ {α : Type} (answer : Except DirectoryError α),
      Reads (Action.ensure answer : Action Tables α) := fun _ _ => rfl
  unfold search foundIn
  rw [(hensure _).answer_bind]
  refine congrArg (request.validate >>= ·) (funext fun _ => ?_)
  rw [(hensure _).answer_bind, bind_assoc]
  refine congrArg (d.wanted request.filter scope >>= ·) (funext fun wanted => ?_)
  split
  · next hnone =>
    rw [matching_of_unsatisfiable hnone, matching_of_unsatisfiable hnone]
    exact (d.answerWith_nil request w).symm
  · rw [(reads_matching _ _ _).answer_bind, bind_assoc]
    refine congrArg (((matching .user scope wanted).run w).1 >>= ·) (funext fun users => ?_)
    rw [(reads_matching _ _ _).answer_bind, bind_assoc]
    refine congrArg (((matching .group scope wanted).run w).1 >>= ·) (funext fun groups => ?_)
    rw [(d.reads_groupsOf _).answer_bind]
    unfold answerWith
    cases ((d.groupsOf (userIds (d.pageOf request (users.map .inl ++ groups.map .inr)))).run w).1 <;>
      rfl

/-- A search that finds resources answers with their number and with a page of them. -/
theorem search_of_found (hvalid : request.validate = .ok ()) {found : List Found}
    (hfound : d.foundIn w request.filter scope = .ok found) :
    ∃ groups, (d.search request scope).run w = (.ok ⟨found.length, firstIndex request,
      ((found.drop (firstIndex request - 1)).take (d.pageSize request)).map (d.hit groups)⟩, w) := by
  obtain ⟨groups, hgroups⟩ := d.groupsOf_succeeds (userIds (d.pageOf request found)) w
  refine ⟨groups, ?_⟩
  rw [search_run, hvalid, hfound]
  refine congrArg (·, w) ?_
  change d.answerWith request w found = _
  rw [answerWith, hgroups]
  rfl

/-- A search that succeeds has found as many resources as it says. -/
theorem found_of_search {response : ListResponse}
    (h : ((d.search request scope).run w).1 = .ok response) :
    request.validate = .ok () ∧ ∃ found, d.foundIn w request.filter scope = .ok found ∧
      response.totalResults = found.length := by
  rw [search_run] at h
  obtain ⟨_, hvalid, h⟩ := except_bind_eq_ok.mp h
  obtain ⟨found, hfound, h⟩ := except_bind_eq_ok.mp h
  obtain ⟨groups, -, rfl⟩ := except_map_eq_ok.mp h
  exact ⟨hvalid, found, hfound, rfl⟩

/-- A filter is read before it is compiled, and read without regard to the scope. -/
theorem wanted_eq_ok {wanted : Wanted} :
    d.wanted filter scope = .ok wanted ↔
      (d.expressionOf filter = .ok none ∧ wanted = none) ∨
        ∃ expr compiled, d.expressionOf filter = .ok (some expr) ∧
          Filter.compile expr (scope.wants .user) (scope.wants .group) = .ok compiled ∧
          wanted = some compiled := by
  unfold Directory.wanted expressionOf
  rcases filter.map Text.trimmed with _ | text
  · simp [eq_comm]
  · by_cases hblank : text = ""
    · subst hblank
      simp [eq_comm]
    · cases hparse : d.parser .filter text with
      | error error => simp [hparse, Except.map, Except.mapError]
      | ok expr =>
        cases hcompile : Filter.compile expr (scope.wants .user) (scope.wants .group) <;>
          simp [hparse, hcompile, Except.map, Except.mapError, eq_comm]

/-- What a filter asks of both types is what it asks of users alone and of groups alone. -/
theorem wanted_of_all {both : Wanted} (h : d.wanted filter .all = .ok both) :
    ∃ left right, d.wanted filter .users = .ok left ∧ d.wanted filter .groups = .ok right ∧
      both.map (·.ofType .user) = left.map (·.ofType .user) ∧
      both.map (·.ofType .group) = right.map (·.ofType .group) := by
  obtain ⟨hnone, rfl⟩ | ⟨expr, compiled, hexpr, hall, rfl⟩ := wanted_eq_ok.mp h
  · exact ⟨none, none, wanted_eq_ok.mpr (.inl ⟨hnone, rfl⟩), wanted_eq_ok.mpr (.inl ⟨hnone, rfl⟩),
      rfl, rfl⟩
  · obtain ⟨u, g, hu, hg, rfl⟩ := Filter.compile_all_eq_ok.mp hall
    exact ⟨some u, some g, wanted_eq_ok.mpr (.inr ⟨expr, u, hexpr, hu, rfl⟩),
      wanted_eq_ok.mpr (.inr ⟨expr, g, hexpr, hg, rfl⟩), rfl, rfl⟩

/-- Records of a type are looked for by the predicate of that type alone. -/
theorem matching_congr {type : ResourceType} {scope scope' : Scope} {wanted wanted' : Wanted}
    (hscope : scope.wants type = scope'.wants type)
    (hwanted : wanted.map (·.ofType type) = wanted'.map (·.ofType type)) :
    (matching type scope wanted : Action Tables (List (Record type))) =
      matching type scope' wanted' := by
  unfold matching
  rw [hscope]
  cases scope'.wants type with
  | false => rfl
  | true =>
    cases wanted <;> cases wanted' <;> simp_all

/-- What a search finds among users and groups is what it finds among users, followed by what it
finds among groups. -/
theorem foundIn_of_all {found : List Found} (h : d.foundIn w filter .all = .ok found) :
    ∃ users groups, d.foundIn w filter .users = .ok users ∧
      d.foundIn w filter .groups = .ok groups ∧ found = users ++ groups := by
  obtain ⟨both, hboth, h⟩ := except_bind_eq_ok.mp h
  obtain ⟨users, husers, h⟩ := except_bind_eq_ok.mp h
  obtain ⟨groups, hgroups, h⟩ := except_bind_eq_ok.mp h
  cases h
  obtain ⟨left, right, hleft, hright, heq, heq'⟩ := wanted_of_all hboth
  have hleft' : ((matching .user .users left).run w).1 = .ok users :=
    matching_congr (by rfl) heq ▸ husers
  have hright' : ((matching .group .groups right).run w).1 = .ok groups :=
    matching_congr (by rfl) heq' ▸ hgroups
  refine ⟨users.map .inl, groups.map .inr, ?_, ?_, rfl⟩
  · exact except_bind_eq_ok.mpr ⟨left, hleft, except_bind_eq_ok.mpr ⟨users, hleft',
      except_bind_eq_ok.mpr ⟨[], rfl, congrArg Except.ok (List.append_nil _)⟩⟩⟩
  · exact except_bind_eq_ok.mpr ⟨right, hright, except_bind_eq_ok.mpr ⟨[], rfl,
      except_bind_eq_ok.mpr ⟨groups, hright', rfl⟩⟩⟩

/-- A resource is answered under its key. -/
theorem key_hit (groups : Uuid → List GroupRef) (found : Found) :
    (d.hit groups found).key = found.key := by
  cases found <;> rfl

/-- Pages that follow each other have the keys of what is found, from where the first one starts to
where the last one ends. -/
theorem pages_run (hvalid : request.validate = .ok ()) {found : List Found}
    (hfound : d.foundIn w request.filter scope = .ok found) (skipped count : Nat) :
    ∃ hits, (d.pages request scope skipped count).run w = (.ok hits, w) ∧
      hits.map Hit.key =
        ((found.drop skipped).take (count * d.pageSize request)).map Found.key := by
  induction count generalizing skipped with
  | zero => exact ⟨[], rfl, by simp⟩
  | succ count ih =>
    obtain ⟨others, hothers, hkeys⟩ := ih (skipped + d.pageSize request)
    obtain ⟨groups, hsearch⟩ := @search_of_found d w
      { request with startIndex := some (skipped + 1) } scope hvalid found hfound
    refine ⟨_, (run_bind_of_ok hsearch _).trans (run_bind_of_ok hothers _), ?_⟩
    have hpage : ∀ page : List Found,
        (page.map (d.hit groups)).map Hit.key = page.map Found.key := fun page => by
      rw [List.map_map]
      exact List.map_congr_left fun found _ => key_hit groups found
    have hfirst : firstIndex { request with startIndex := some (skipped + 1) } - 1 = skipped := by
      simp [firstIndex]
    have hcount : (count + 1) * d.pageSize request =
        d.pageSize request + count * d.pageSize request := by
      rw [Nat.succ_mul, Nat.add_comm]
    rw [List.map_append, hkeys, hpage, hfirst, ← List.map_append, ← List.drop_drop, hcount,
      List.take_add]
    rfl

/-- A listing has the keys of all that is found, unless its pages are empty. -/
theorem listing_run (hvalid : request.validate = .ok ()) {found : List Found}
    (hfound : d.foundIn w request.filter scope = .ok found) :
    ∃ hits, (d.listing request scope).run w = (.ok hits, w) ∧
      hits.map Hit.key = if d.pageSize request = 0 then [] else found.map Found.key := by
  obtain ⟨_, hsearch⟩ := @search_of_found d w { request with startIndex := some 1 } scope hvalid
    found hfound
  obtain ⟨hits, hpages, hkeys⟩ := pages_run hvalid hfound 0
    (found.length / d.pageSize request + 1)
  refine ⟨hits, (run_bind_of_ok hsearch _).trans hpages, hkeys.trans ?_⟩
  split
  · next hempty => simp [hempty]
  · next hsize =>
    have hall : found.length ≤ (found.length / d.pageSize request + 1) * d.pageSize request :=
      (Nat.lt_mul_of_div_lt (Nat.lt_succ_self _) (Nat.pos_of_ne_zero hsize)).le
    rw [List.drop_zero, List.take_of_length_le hall]

/-- Searches among users and among groups answer together with as many resources as a search among
both with the same filter, whichever pages they ask for. -/
theorem totals_of_all {response : ListResponse}
    (h : ((d.search request .all).run w).1 = .ok response) {other : SearchRequest}
    (hvalid : other.validate = .ok ()) (hfilter : other.filter = request.filter) :
    ∃ users groups, ((d.search other .users).run w).1 = .ok users ∧
      ((d.search other .groups).run w).1 = .ok groups ∧
      users.totalResults + groups.totalResults = response.totalResults := by
  obtain ⟨-, found, hfound, htotal⟩ := found_of_search h
  obtain ⟨users, groups, husers, hgroups, rfl⟩ := foundIn_of_all hfound
  obtain ⟨_, hsearch⟩ := search_of_found hvalid (hfilter ▸ husers)
  obtain ⟨_, hsearch'⟩ := search_of_found hvalid (hfilter ▸ hgroups)
  exact ⟨_, _, congrArg Prod.fst hsearch, congrArg Prod.fst hsearch',
    List.length_append.symm.trans htotal.symm⟩

/-- The listing of users and groups has the keys of the listing of users, followed by those of the
listing of groups. -/
theorem listing_of_all {response : ListResponse}
    (h : ((d.search request .all).run w).1 = .ok response) :
    ∃ all users groups, (d.listing request .all).run w = (.ok all, w) ∧
      (d.listing request .users).run w = (.ok users, w) ∧
      (d.listing request .groups).run w = (.ok groups, w) ∧
      all.map Hit.key = users.map Hit.key ++ groups.map Hit.key ∧
      (0 < d.pageSize request → all.length = response.totalResults) := by
  obtain ⟨hvalid, found, hfound, htotal⟩ := found_of_search h
  obtain ⟨users, groups, husers, hgroups, rfl⟩ := foundIn_of_all hfound
  obtain ⟨all, hall, hkeys⟩ := listing_run hvalid hfound
  obtain ⟨us, hus, hkeys'⟩ := listing_run hvalid husers
  obtain ⟨gs, hgs, hkeys''⟩ := listing_run hvalid hgroups
  refine ⟨all, us, gs, hall, hus, hgs, ?_, fun hsize => ?_⟩
  · rw [hkeys, hkeys', hkeys'']
    split
    · rfl
    · exact List.map_append
  · rw [if_neg hsize.ne'] at hkeys
    rw [htotal, ← List.length_map Hit.key, hkeys, List.length_map]

end Directory

/-- A search among users and groups is the union of a search among users and one among groups. Its
filter compiles for both types when it compiles for each of them, to the predicates it has there.
When it answers, so do the two others, which find as many resources together, and the pages of all
three list the same types and identifiers, those of users before those of groups. -/
theorem search_of_all_is_union_of_scopes (d : Directory) :
    (∀ (expr : Expr) (compiled : Filter.Compiled),
      Filter.compile expr true true = .ok compiled ↔
        ∃ users groups, Filter.compile expr true false = .ok users ∧
          Filter.compile expr false true = .ok groups ∧
          compiled = ⟨users.users, groups.groups⟩) ∧
    ∀ (w : World Tables) (request : SearchRequest) (response : ListResponse),
      ((d.search request .all).run w).1 = .ok response →
        (∀ other : SearchRequest, other.schemas = request.schemas →
          other.filter = request.filter →
          ∃ users groups, ((d.search other .users).run w).1 = .ok users ∧
            ((d.search other .groups).run w).1 = .ok groups ∧
            users.totalResults + groups.totalResults = response.totalResults) ∧
        ∃ all users groups, (d.listing request .all).run w = (.ok all, w) ∧
          (d.listing request .users).run w = (.ok users, w) ∧
          (d.listing request .groups).run w = (.ok groups, w) ∧
          all.map Hit.key = users.map Hit.key ++ groups.map Hit.key ∧
          (0 < d.pageSize request → all.length = response.totalResults) := by
  refine ⟨fun _ _ => Filter.compile_all_eq_ok, fun w request response h => ?_⟩
  refine ⟨fun other hschemas hfilter => ?_, Directory.listing_of_all h⟩
  have hvalid : other.validate = request.validate := by
    unfold SearchRequest.validate
    rw [hschemas]
  exact Directory.totals_of_all h (hvalid.trans (Directory.found_of_search h).1) hfilter

/-- A filter by a name that users alone have and by one that both types have finds a user and one
of two groups, on two pages. -/
theorem search_of_all_is_union_of_scopes_of_two_names :
    let d : Directory := ⟨.standard, [], Filter.parse⟩
    let request := (SearchRequest.filtered "userName pr or displayName sw \"T\"").paged 1 1
    let history : List (Instant × Command) :=
      [(.ofSeconds 0, @Command.create .user none (User.named "alice")),
        (.ofSeconds 1, @Command.create .group none (Group.named "Team")),
        (.ofSeconds 2, @Command.create .group none (Group.named "Others"))]
    let w := d.serveAll history (World.fresh Tables.empty)
    ∃ response all users groups, ((d.search request .all).run w).1 = .ok response ∧
      response.totalResults = 2 ∧ (d.listing request .all).run w = (.ok all, w) ∧
      (d.listing request .users).run w = (.ok users, w) ∧
      (d.listing request .groups).run w = (.ok groups, w) ∧
      all.map Hit.key = users.map Hit.key ++ groups.map Hit.key ∧ all.length = 2 := by
  intro d request history w
  have hsearch : ((d.search request .all).run w).1.toOption.any
      (fun response => response.totalResults = 2) = true := by
    decide +kernel
  obtain ⟨response, hfound, htwo⟩ := (Option.any_eq_true _ _).mp hsearch
  have hanswer := except_toOption_eq_some.mp hfound
  have htwo := of_decide_eq_true htwo
  obtain ⟨all, users, groups, hall, husers, hgroups, hkeys, hlength⟩ :=
    ((search_of_all_is_union_of_scopes d).2 w request response hanswer).2
  exact ⟨response, all, users, groups, hanswer, htwo, hall, husers, hgroups, hkeys,
    (hlength (by decide)).trans htwo⟩

end ScimDirectory
