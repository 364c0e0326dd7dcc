import ScimDirectory.Proofs.Resource.RoundTrip
import ScimDirectory.Resource.Group
import ScimDirectory.Resource.User

/-!
# Resources that are read back

A resource that is written and sent back is read as the resource that it was, whatever the order in
which its attributes are sent, but for the password of a user, which is never written. What is left
out is read as what it was: an attribute without a value, and a list without elements. The times in
the metadata are taken to be read back from their texts.
-/

namespace ScimDirectory

open Members (present rearranged_of_reordered)

namespace Meta

/-- Whether the times are read back from their texts. -/
structure TimesReadBack (m : Meta) : Prop where
  /-- When the resource was made. -/
  created : Instant.ofText? m.created.toText = some m.created
  /-- When the resource was last changed. -/
  lastModified : Instant.ofText? m.lastModified.toText = some m.lastModified

/-- The sub-attributes of the metadata. -/
def parts (m : Meta) : List (String × Option Json) :=
  [("resourceType", some (.text m.resourceType)), ("created", some (.text m.created.toText)),
    ("lastModified", some (.text m.lastModified.toText)), ("location", m.location.map .text),
    ("version", m.version.map .text)]

theorem toJson_eq (m : Meta) : m.toJson = .object (present m.parts) := by
  simp only [toJson, parts, Members.ofOption_eq_present, Members.cons_present,
    ← Members.present_append, List.cons_append, List.nil_append]

/-- A time is read back when its text is. -/
theorem readsBack_instant {t : Instant} (h : Instant.ofText? t.toText = some t) :
    Json.ReadsBack (fun t : Instant => .text t.toText) instant? t := by
  intro value hvalue
  cases hvalue
  exact ⟨nofun, h⟩

/-- Metadata are read back when their times are. -/
theorem readsBack {m : Meta} (htimes : m.TimesReadBack) : Json.ReadsBack toJson ofJson? m := by
  intro value h
  rw [toJson_eq] at h
  obtain ⟨ms, rfl, hms⟩ := rearranged_of_reordered h
  have hnodup : (m.parts.map Prod.fst).Nodup := (by decide : keys.Nodup)
  have htype : ms.required "resourceType" Json.text? = some m.resourceType :=
    hms.required_eq_of hnodup (Json.readBack_text _) (by simp [parts])
  have hcreated : ms.required "created" instant? = some m.created :=
    hms.required_eq_of hnodup (readsBack_instant htimes.created) (by simp [parts])
  have hmodified : ms.required "lastModified" instant? = some m.lastModified :=
    hms.required_eq_of hnodup (readsBack_instant htimes.lastModified) (by simp [parts])
  have hlocation : ms.optional "location" Json.text? = some m.location :=
    hms.optional_eq hnodup Json.readBack_text (by simp [parts])
  have hversion : ms.optional "version" Json.text? = some m.version :=
    hms.optional_eq hnodup Json.readBack_text (by simp [parts])
  refine ⟨nofun, ?_⟩
  simp only [ofJson?, Json.members?, Option.bind_eq_bind, Option.bind_some, htype, hcreated,
    hmodified, hlocation, hversion]
  rfl

end Meta

/-- The member of a list that is left out when it is empty. -/
def listPart {α : Type} (write : α → Json) (xs : List α) : Option Json :=
  if xs.isEmpty then none else some (.array (xs.map write))

namespace Group

/-- The attributes of a group. -/
def parts (group : Group) : List (String × Option Json) :=
  [("schemas", some (Json.texts group.schemas)), ("id", group.id.map .text),
    ("externalId", group.externalId.map .text), ("displayName", some (.text group.displayName)),
    ("members", listPart Member.toJson group.members), ("meta", group.metadata.map Meta.toJson)]

theorem toJson_eq (group : Group) : group.toJson = .object (present group.parts) := by
  simp only [toJson, parts, listPart, Members.ofOption_eq_present, Members.ofList_eq_present,
    Members.cons_present, ← Members.present_append, List.cons_append, List.nil_append]

/-- A group is read back when its times are. -/
theorem readsBack {group : Group} (htimes : ∀ m ∈ group.metadata, m.TimesReadBack) :
    Json.ReadsBack toJson ofJson? group := by
  intro value h
  rw [toJson_eq] at h
  obtain ⟨ms, rfl, hms⟩ := rearranged_of_reordered h
  have hnodup : (group.parts.map Prod.fst).Nodup := (by decide : keys.Nodup)
  have text {key : String} {x : Option String} (hpart : (key, x.map Json.text) ∈ group.parts) :
      ms.optional key Json.text? = some x := hms.optional_eq hnodup Json.readBack_text hpart
  have hschemas : ms.withDefault "schemas" [ResourceType.group.schema] (Json.list? Json.text?) =
      some group.schemas := hms.withDefault_eq hnodup Json.readBack_texts (by simp [parts]) _
  have hid : ms.optional "id" Json.text? = some group.id := text (by simp [parts])
  have hexternal : ms.optional "externalId" Json.text? = some group.externalId :=
    text (by simp [parts])
  have hname : ms.withDefault "displayName" "" Json.text? = some group.displayName :=
    hms.withDefault_eq hnodup Json.readBack_text (by simp [parts]) _
  have hmembers : ms.withDefault "members" [] (Json.list? Member.ofJson?) = some group.members :=
    hms.list_eq_of hnodup (fun member _ => Member.readBack member) (by simp [parts, listPart])
  have hmeta : ms.optional "meta" Meta.ofJson? = some group.metadata :=
    hms.optional_eq_of hnodup (fun m hm => Meta.readsBack (htimes m hm)) (by simp [parts])
  refine ⟨nofun, ?_⟩
  simp only [ofJson?, Json.members?, Option.bind_eq_bind, Option.bind_some, hschemas, hid,
    hexternal, hname, hmembers, hmeta]
  rfl

end Group

namespace User

/-- The attributes of a user. The password is never there. -/
def parts (user : User) : List (String × Option Json) :=
  [("schemas", some (Json.texts user.schemas)), ("id", user.id.map .text),
    ("externalId", user.externalId.map .text), ("userName", some (.text user.userName)),
    ("name", user.name.map PersonName.toJson), ("displayName", user.displayName.map .text),
    ("nickName", user.nickName.map .text), ("profileUrl", user.profileUrl.map .text),
    ("title", user.title.map .text), ("userType", user.userType.map .text),
    ("preferredLanguage", user.preferredLanguage.map .text), ("locale", user.locale.map .text),
    ("timezone", user.timezone.map .text), ("active", user.active.map .bool), ("password", none)] ++
    Collection.all.map (fun c => (c.attributeName, listPart MultiValue.toJson (user.values c))) ++
    [("addresses", listPart Address.toJson user.addresses),
      ("groups", listPart GroupRef.toJson user.groups), ("meta", user.metadata.map Meta.toJson)]

theorem toJson_eq (user : User) : user.toJson = .object (present user.parts) := by
  simp only [toJson, parts, listPart, Collection.all, List.flatMap_cons, List.flatMap_nil,
    List.map_cons, List.map_nil, Members.ofOption_eq_present, Members.ofList_eq_present,
    Members.cons_present, ← Members.present_append, List.cons_append, List.nil_append,
    List.append_nil]
  rfl

theorem nodup_keys_parts (user : User) : (user.parts.map Prod.fst).Nodup :=
  (by decide : (["schemas", "id", "externalId", "userName", "name", "displayName", "nickName",
    "profileUrl", "title", "userType", "preferredLanguage", "locale", "timezone", "active",
    "password"] ++ Collection.all.map Collection.attributeName ++
    ["addresses", "groups", "meta"]).Nodup)

section

variable {user : User} {ms : Members} (hms : (present user.parts).Rearranged ms)

include hms

/-- The optional singular attributes are read back. -/
theorem profile?_eq (hpassword : user.password = none) : profile? ms = some user.toProfile := by
  have text {key : String} {x : Option String} (hpart : (key, x.map Json.text) ∈ user.parts) :
      ms.optional key Json.text? = some x :=
    hms.optional_eq user.nodup_keys_parts Json.readBack_text hpart
  have hexternal : ms.optional "externalId" Json.text? = some user.externalId :=
    text (by simp [parts])
  have hdisplay : ms.optional "displayName" Json.text? = some user.displayName :=
    text (by simp [parts])
  have hnick : ms.optional "nickName" Json.text? = some user.nickName := text (by simp [parts])
  have hprofile : ms.optional "profileUrl" Json.text? = some user.profileUrl :=
    text (by simp [parts])
  have htitle : ms.optional "title" Json.text? = some user.title := text (by simp [parts])
  have htype : ms.optional "userType" Json.text? = some user.userType := text (by simp [parts])
  have hlanguage : ms.optional "preferredLanguage" Json.text? = some user.preferredLanguage :=
    text (by simp [parts])
  have hlocale : ms.optional "locale" Json.text? = some user.locale := text (by simp [parts])
  have htimezone : ms.optional "timezone" Json.text? = some user.timezone :=
    text (by simp [parts])
  have hactive : ms.optional "active" Json.bool? = some user.active :=
    hms.optional_eq user.nodup_keys_parts Json.readBack_bool (by simp [parts])
  have hnone : ms.optional "password" Json.text? = some none := text (by simp [parts])
  simp only [profile?, Option.bind_eq_bind, Option.bind_some, hexternal, hdisplay, hnick, hprofile,
    htitle, htype, hlanguage, hlocale, htimezone, hactive, hnone]
  rw [← hpassword]
  rfl

/-- A collection of plain values is read back. -/
theorem collection?_eq (c : Collection) : collection? ms c = some (user.values c) := by
  refine hms.list_eq_of user.nodup_keys_parts (fun item _ => MultiValue.readBack item) ?_
  have hlisted : c ∈ Collection.all := by cases c <;> decide
  exact List.mem_append_left _ (List.mem_append_right _ (List.mem_map_of_mem hlisted))

/-- The collections of plain values are read back. -/
theorem values?_eq : values? ms = some user.values := by
  simp only [values?, collection?_eq hms, Option.bind_eq_bind, Option.bind_some]
  refine congrArg some (funext fun c => ?_)
  cases c <;> rfl

end

/-- A user without a password is read back when the times are. -/
theorem readsBack {user : User} (hpassword : user.password = none)
    (htimes : ∀ m ∈ user.metadata, m.TimesReadBack) : Json.ReadsBack toJson ofJson? user := by
  intro value h
  rw [toJson_eq] at h
  obtain ⟨ms, rfl, hms⟩ := rearranged_of_reordered h
  have hnodup := user.nodup_keys_parts
  have hprofile := profile?_eq hms hpassword
  have hvalues := values?_eq hms
  have hschemas : ms.withDefault "schemas" [ResourceType.user.schema] (Json.list? Json.text?) =
      some user.schemas := hms.withDefault_eq hnodup Json.readBack_texts (by simp [parts]) _
  have hid : ms.optional "id" Json.text? = some user.id :=
    hms.optional_eq hnodup Json.readBack_text (by simp [parts])
  have huserName : ms.withDefault "userName" "" Json.text? = some user.userName :=
    hms.withDefault_eq hnodup Json.readBack_text (by simp [parts]) _
  have hname : ms.optional "name" PersonName.ofJson? = some user.name :=
    hms.optional_eq hnodup PersonName.readBack (by simp [parts])
  have haddresses : ms.withDefault "addresses" [] (Json.list? Address.ofJson?) =
      some user.addresses :=
    hms.list_eq_of hnodup (fun address _ => Address.readBack address) (by simp [parts, listPart])
  have hgroups : ms.withDefault "groups" [] (Json.list? GroupRef.ofJson?) = some user.groups :=
    hms.list_eq_of hnodup (fun group _ => GroupRef.readBack group) (by simp [parts, listPart])
  have hmeta : ms.optional "meta" Meta.ofJson? = some user.metadata :=
    hms.optional_eq_of hnodup (fun m hm => Meta.readsBack (htimes m hm)) (by simp [parts])
  refine ⟨nofun, ?_⟩
  simp only [ofJson?, Json.members?, Option.bind_eq_bind, Option.bind_some, hprofile, hschemas, hid,
    huserName, hname, hvalues, haddresses, hgroups, hmeta]
  rfl

end User

end ScimDirectory
