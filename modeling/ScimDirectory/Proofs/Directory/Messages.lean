import ScimDirectory.Directory.SearchRequest
import ScimDirectory.Patch.Request
import ScimDirectory.Proofs.Resource.ReadBack
import ScimDirectory.Proofs.Traversal

/-!
# Messages that are read back

What is written of a user without a password, of a group, and of a request to search or to patch is
read as what it was, whatever the order in which members of objects are passed on. Whatever is
accepted can therefore be written and read again without a change, but for the password of a user.
-/

namespace ScimDirectory

open Members (present rearranged_of_reordered)

namespace SearchRequest

/-- Whether the indices are words of 64 bits. -/
structure FitsWords (request : SearchRequest) : Prop where
  /-- The place of the first resource. -/
  startIndex : ∀ n ∈ request.startIndex, n < Nat.pow 2 64
  /-- The greatest number of resources. -/
  count : ∀ n ∈ request.count, n < Nat.pow 2 64

/-- The fields of a search request. -/
def parts (request : SearchRequest) : List (String × Option Json) :=
  [("schemas", some (Json.texts request.schemas)), ("filter", request.filter.map .text),
    ("startIndex", request.startIndex.map indexJson), ("count", request.count.map indexJson)]

theorem toJson_eq (request : SearchRequest) : request.toJson = .object (present request.parts) := by
  simp only [toJson, parts, Members.ofOption_eq_present, Members.cons_present,
    ← Members.present_append, List.cons_append, List.nil_append]

/-- An index that fits a word is read back. -/
theorem readsBack_index {n : Nat} (h : n < Nat.pow 2 64) :
    Json.ReadsBack indexJson Json.index? n := by
  intro value hvalue
  cases hvalue
  exact ⟨nofun, if_pos h⟩

/-- An index that is read fits a word. -/
theorem lt_of_index? {json : Json} {n : Nat} (h : json.index? = some n) : n < Nat.pow 2 64 := by
  unfold Json.index? at h
  split at h
  · split at h
    · next hlt =>
      cases h
      exact hlt
    · cases h
  · cases h

/-- A search request is read back when its indices fit words. -/
theorem readsBack {request : SearchRequest} (hfits : request.FitsWords) :
    Json.ReadsBack toJson ofJson? request := by
  intro value h
  rw [toJson_eq] at h
  obtain ⟨ms, rfl, hms⟩ := rearranged_of_reordered h
  have hnodup : (request.parts.map Prod.fst).Nodup := (by decide : keys.Nodup)
  have hschemas : ms.withDefault "schemas" [schema] (Json.list? Json.text?) =
      some request.schemas := hms.withDefault_eq hnodup Json.readBack_texts (by simp [parts]) _
  have hfilter : ms.optional "filter" Json.text? = some request.filter :=
    hms.optional_eq hnodup Json.readBack_text (by simp [parts])
  have hstart : ms.optional "startIndex" Json.index? = some request.startIndex :=
    hms.optional_eq_of hnodup (fun n hn => readsBack_index (hfits.startIndex n hn))
      (by simp [parts])
  have hcount : ms.optional "count" Json.index? = some request.count :=
    hms.optional_eq_of hnodup (fun n hn => readsBack_index (hfits.count n hn)) (by simp [parts])
  refine ⟨nofun, ?_⟩
  simp only [ofJson?, Json.members?, Option.bind_eq_bind, Option.bind_some, hschemas, hfilter,
    hstart, hcount]
  rfl

/-- An optional index that is read fits a word. -/
theorem lt_of_optional {ms : Members} {key : String} {index : Option Nat}
    (h : ms.optional key Json.index? = some index) : ∀ n ∈ index, n < Nat.pow 2 64 := by
  rintro n rfl
  unfold Members.optional at h
  split at h
  · cases h
  · cases h
  · obtain ⟨_, hread, heq⟩ := Option.map_eq_some_iff.mp h
    cases heq
    exact lt_of_index? hread

/-- The indices of a search request that is read fit words. -/
theorem fitsWords_of_ofJson? {json : Json} {request : SearchRequest}
    (h : ofJson? json = some request) : request.FitsWords := by
  simp only [ofJson?, Option.bind_eq_bind, Option.bind_eq_some_iff, Option.pure_def,
    Option.some.injEq] at h
  obtain ⟨ms, -, schemas, -, filter, -, startIndex, hstart, count, hcount, rfl⟩ := h
  exact ⟨lt_of_optional hstart, lt_of_optional hcount⟩

end SearchRequest

theorem Json.eq_null_of_isNull {json : Json} (h : json.isNull = true) : json = .null := by
  cases json <;> first | rfl | cases h

namespace Operation

/-- Two operations that do the same at the same place, with the same value up to the order of the
members of its objects. -/
structure Alike (operation other : Operation) : Prop where
  /-- What they do. -/
  kind : operation.kind = other.kind
  /-- What they are applied to. -/
  path : operation.path = other.path
  /-- The values they are applied with. -/
  value : operation.value.Reordered other.value

/-- The value that is written of an operation; `null` is left out. -/
def valuePart (operation : Operation) : Option Json :=
  if operation.value.isNull then none else some operation.value

/-- The fields of an operation. -/
def parts (operation : Operation) : List (String × Option Json) :=
  [("op", some (.text operation.kind.keyword)), ("path", operation.path.map .text),
    ("value", operation.valuePart)]

theorem toJson_eq (operation : Operation) :
    operation.toJson = .object (present operation.parts) := by
  have hvalue : (if operation.value.isNull then [] else [("value", operation.value)]) =
      present [("value", operation.valuePart)] := by
    rw [valuePart]
    split <;> rfl
  simp only [toJson, parts, hvalue, Members.ofOption_eq_present, Members.cons_present,
    ← Members.present_append, List.cons_append, List.nil_append]

theorem readsBack_kind (kind : OperationKind) :
    Json.ReadsBack (fun kind : OperationKind => .text kind.keyword) kind? kind := by
  intro value h
  cases h
  exact ⟨nofun, by cases kind <;> decide⟩

section

variable {operation : Operation}

theorem nodup_keys_parts : (operation.parts.map Prod.fst).Nodup := (by decide : keys.Nodup)

/-- An operation is read back with the value that is read. -/
theorem ofJson?_eq {ms : Members} (hms : (present operation.parts).Rearranged ms) {value : Json}
    (hvalue : ms.withDefault "value" .null some = some value) :
    ofJson? (.object ms) = some { operation with value } := by
  have hkind : ms.required "op" kind? = some operation.kind :=
    hms.required_eq_of nodup_keys_parts (readsBack_kind operation.kind) (by simp [parts])
  have hpath : ms.optional "path" Json.text? = some operation.path :=
    hms.optional_eq nodup_keys_parts Json.readBack_text (by simp [parts])
  simp only [ofJson?, Json.members?, Option.bind_eq_bind, Option.bind_some, hkind, hpath, hvalue]
  rfl

/-- An operation is read back, but for the order of the members of its value. -/
theorem exists_ofJson? {value : Json} (h : operation.toJson.Reordered value) :
    ∃ other, ofJson? value = some other ∧ operation.Alike other := by
  rw [toJson_eq] at h
  obtain ⟨ms, rfl, hms⟩ := rearranged_of_reordered h
  have hpart : ("value", operation.valuePart) ∈ operation.parts := by simp [parts]
  have hlookup := hms.lookup nodup_keys_parts hpart
  obtain ⟨value, hvalue, hsame⟩ : ∃ value,
      ms.withDefault "value" .null some = some value ∧ operation.value.Reordered value := by
    unfold Members.withDefault
    generalize ms.lookup "value" = found at hlookup
    unfold valuePart at hlookup
    split at hlookup
    · next hnull =>
      cases hlookup
      exact ⟨.null, rfl, Json.eq_null_of_isNull hnull ▸ .refl _⟩
    · cases hlookup with
      | some hsame => exact ⟨_, rfl, hsame⟩
  exact ⟨_, ofJson?_eq hms hvalue, rfl, rfl, hsame⟩

/-- An operation that is passed on as it is is read back as it is. -/
theorem ofJson?_toJson (operation : Operation) : ofJson? operation.toJson = some operation := by
  have hpart : ("value", operation.valuePart) ∈ operation.parts := by simp [parts]
  rw [toJson_eq]
  refine ofJson?_eq (.refl _) ?_
  rw [Members.withDefault, Members.lookup_present nodup_keys_parts hpart, valuePart]
  by_cases hnull : operation.value.isNull = true
  · rw [if_pos hnull, Json.eq_null_of_isNull hnull]
  · rw [if_neg hnull]

theorem mapM_ofJson?_toJson (operations : List Operation) :
    (operations.map toJson).mapM ofJson? = some operations := by
  induction operations with
  | nil => rfl
  | cons operation operations ih =>
    simp only [List.map_cons, List.mapM_cons, ofJson?_toJson, ih]
    rfl

end

end Operation

namespace PatchRequest

/-- Two requests that declare the same schemas, with operations alike in the same order. -/
structure Alike (request other : PatchRequest) : Prop where
  /-- The schemas. -/
  schemas : request.schemas = other.schemas
  /-- The operations. -/
  operations : List.Forall₂ Operation.Alike request.operations other.operations

/-- The fields of a patch request. -/
def parts (request : PatchRequest) : List (String × Option Json) :=
  [("schemas", some (Json.texts request.schemas)),
    ("Operations", some (.array (request.operations.map Operation.toJson)))]

theorem toJson_eq (request : PatchRequest) : request.toJson = .object (present request.parts) := rfl

section

variable {request : PatchRequest}

theorem nodup_keys_parts : (request.parts.map Prod.fst).Nodup := (by decide : keys.Nodup)

/-- A patch request is read back with the operations that are read. -/
theorem ofJson?_eq {ms : Members} (hms : (present request.parts).Rearranged ms)
    {operations : List Operation}
    (hoperations : ms.required "Operations" (Json.list? Operation.ofJson?) = some operations) :
    ofJson? (.object ms) = some { request with operations } := by
  have hschemas : ms.required "schemas" (Json.list? Json.text?) = some request.schemas :=
    hms.required_eq_of nodup_keys_parts (Json.readBack_texts _) (by simp [parts])
  simp only [ofJson?, Json.members?, Option.bind_eq_bind, Option.bind_some, hschemas, hoperations]
  rfl

/-- A patch request is read back, but for the order of the members of its values. -/
theorem exists_ofJson? {value : Json} (h : request.toJson.Reordered value) :
    ∃ other, ofJson? value = some other ∧ request.Alike other := by
  rw [toJson_eq] at h
  obtain ⟨ms, rfl, hms⟩ := rearranged_of_reordered h
  have hpart : ("Operations", some (.array (request.operations.map Operation.toJson))) ∈
      request.parts := by simp [parts]
  have hlookup := hms.lookup nodup_keys_parts hpart
  obtain ⟨operations, hoperations, hsame⟩ : ∃ operations,
      ms.required "Operations" (Json.list? Operation.ofJson?) = some operations ∧
        List.Forall₂ Operation.Alike request.operations operations := by
    unfold Members.required
    generalize ms.lookup "Operations" = found at hlookup
    cases hlookup with
    | some hvalue =>
      exact (Json.exists_list? (fun _ _ _ => Operation.exists_ofJson?) hvalue).2
  exact ⟨_, ofJson?_eq hms hoperations, rfl, hsame⟩

/-- A patch request that is passed on as it is is read back as it is. -/
theorem ofJson?_toJson (request : PatchRequest) : ofJson? request.toJson = some request := by
  have hpart : ("Operations", some (.array (request.operations.map Operation.toJson))) ∈
      request.parts := by simp [parts]
  refine ofJson?_eq (.refl _) ?_
  rw [Members.required, Members.lookup_present nodup_keys_parts hpart]
  exact Operation.mapM_ofJson?_toJson request.operations

end

end PatchRequest

/-- A user without a password, a group, a search request and a patch request that are written and
passed on, with the members of objects in any order, are read as what they were, and the values of
operations up to this order. So whatever is accepted is read once more as it was when it is written,
but for the password of a user. Times are taken to be read back from their texts, and the indices of
a search request to be words of 64 bits, as they are when they are read. -/
theorem written_messages_are_read_back :
    ((∀ user : User, user.password = none → (∀ m ∈ user.metadata, m.TimesReadBack) →
        ∀ json, user.toJson.Reordered json → User.ofJson? json = some user) ∧
      (∀ group : Group, (∀ m ∈ group.metadata, m.TimesReadBack) →
        ∀ json, group.toJson.Reordered json → Group.ofJson? json = some group) ∧
      (∀ request : SearchRequest, request.FitsWords →
        ∀ json, request.toJson.Reordered json → SearchRequest.ofJson? json = some request) ∧
      ∀ request : PatchRequest, PatchRequest.ofJson? request.toJson = some request ∧
        ∀ json, request.toJson.Reordered json →
          ∃ other, PatchRequest.ofJson? json = some other ∧ request.Alike other) ∧
    ∀ json : Json,
      (∀ user, User.ofJson? json = some user → (∀ m ∈ user.metadata, m.TimesReadBack) →
        User.ofJson? user.toJson = some { user with password := none }) ∧
      (∀ group, Group.ofJson? json = some group → (∀ m ∈ group.metadata, m.TimesReadBack) →
        Group.ofJson? group.toJson = some group) ∧
      (∀ request, SearchRequest.ofJson? json = some request →
        SearchRequest.ofJson? request.toJson = some request) ∧
      ∀ request, PatchRequest.ofJson? json = some request →
        PatchRequest.ofJson? request.toJson = some request := by
  refine ⟨⟨fun user hpassword htimes json h => (User.readsBack hpassword htimes json h).2,
    fun group htimes json h => (Group.readsBack htimes json h).2,
    fun request hfits json h => (SearchRequest.readsBack hfits json h).2,
    fun request => ⟨request.ofJson?_toJson, fun json => PatchRequest.exists_ofJson?⟩⟩,
    fun json => ⟨fun user _ htimes => ?_, fun group _ htimes => ?_, fun request hread => ?_,
      fun request _ => request.ofJson?_toJson⟩⟩
  · -- The password is not written, so the user is written as one without it.
    have hbare : Json.ReadsBack User.toJson User.ofJson? { user with password := none } :=
      User.readsBack rfl htimes
    exact (hbare _ (.refl _)).2
  · exact (Group.readsBack htimes _ (.refl _)).2
  · exact (SearchRequest.readsBack (SearchRequest.fitsWords_of_ofJson? hread) _ (.refl _)).2

/-- A user who is sent with a password, with a nickname of `null`, with no addresses of mail, and
with a time in another zone. -/
theorem written_messages_are_read_back_of_alice :
    let times : Json := .object [("resourceType", .text "User"),
      ("created", .text "1970-01-01T01:00:00+01:00"),
      ("lastModified", .text "2024-02-29T23:59:59Z")]
    let json : Json := .object [("password", .text "secret"), ("userName", .text "alice"),
      ("nickName", .null), ("active", .bool false), ("emails", .array []), ("meta", times),
      ("name", .object [("givenName", .text "Alice")])]
    ∃ user, User.ofJson? json = some user ∧ user.password = some "secret" ∧
      user.active = some false ∧ user.metadata.map Meta.created = some (.ofSeconds 0) ∧
      User.ofJson? user.toJson = some { user with password := none } := by
  intro times json
  let m : Meta := ⟨"User", .ofSeconds 0, .ofSeconds 1709251199, none, none⟩
  have hparts : (User.ofJson? json).map (fun user => (user.password, user.active, user.metadata)) =
      some (some "secret", some false, some m) := by decide +kernel
  obtain ⟨user, hread, hvalues⟩ := Option.map_eq_some_iff.mp hparts
  obtain ⟨hpassword, hrest⟩ := Prod.mk.inj hvalues
  obtain ⟨hactive, hmeta⟩ := Prod.mk.inj hrest
  have htimes : ∀ m ∈ user.metadata, m.TimesReadBack := by
    rw [hmeta]
    rintro _ ⟨⟩
    exact ⟨by decide +kernel, by decide +kernel⟩
  refine ⟨user, hread, hpassword, hactive, by rw [hmeta]; rfl, ?_⟩
  exact (written_messages_are_read_back.2 json).1 user hread htimes

end ScimDirectory
