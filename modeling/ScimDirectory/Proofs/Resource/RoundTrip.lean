import ScimDirectory.Proofs.Json.Reordered
import ScimDirectory.Resource.Item

/-!
# Items that are read back

An item that a client sends as it was shown is read as the item that it was, whatever the order in
which its sub-attributes are sent; so is the name of a user.
-/

namespace ScimDirectory

open Members (present rearranged_of_reordered)

/-- The sub-attributes of a plain value. -/
def MultiValue.parts (item : MultiValue) : List (String × Option Json) :=
  [("value", item.value.map .text), ("display", item.display.map .text),
    ("type", item.type.map .text), ("primary", item.primary.map .bool)]

/-- The sub-attributes of an address. -/
def Address.parts (address : Address) : List (String × Option Json) :=
  [("formatted", address.formatted.map .text), ("streetAddress", address.streetAddress.map .text),
    ("locality", address.locality.map .text), ("region", address.region.map .text),
    ("postalCode", address.postalCode.map .text), ("country", address.country.map .text),
    ("type", address.type.map .text), ("primary", address.primary.map .bool)]

/-- The sub-attributes of a member. -/
def Member.parts (member : Member) : List (String × Option Json) :=
  [("value", some (.text member.value)), ("$ref", member.ref.map .text),
    ("type", member.type.map .text), ("display", member.display.map .text)]

/-- The sub-attributes of a reference to a group. -/
def GroupRef.parts (group : GroupRef) : List (String × Option Json) :=
  [("value", some (.text group.value)), ("$ref", group.ref.map .text),
    ("display", group.display.map .text), ("type", group.type.map .text)]

/-- The components of a name. -/
def PersonName.parts (name : PersonName) : List (String × Option Json) :=
  [("formatted", name.formatted.map .text), ("familyName", name.familyName.map .text),
    ("givenName", name.givenName.map .text), ("middleName", name.middleName.map .text),
    ("honorificPrefix", name.honorificPrefix.map .text),
    ("honorificSuffix", name.honorificSuffix.map .text)]

theorem MultiValue.toJson_eq (item : MultiValue) : item.toJson = .object (present item.parts) := by
  simp only [toJson, parts, Members.ofOption_eq_present, ← Members.present_append, List.cons_append,
    List.nil_append]

theorem Address.toJson_eq (address : Address) :
    address.toJson = .object (present address.parts) := by
  simp only [toJson, parts, Members.ofOption_eq_present, ← Members.present_append, List.cons_append,
    List.nil_append]

theorem Member.toJson_eq (member : Member) : member.toJson = .object (present member.parts) := by
  have hvalue : [("value", Json.text member.value)] =
      present [("value", some (.text member.value))] := rfl
  simp only [toJson, parts, Members.ofOption_eq_present]
  rw [← List.singleton_append, hvalue]
  simp only [← Members.present_append, List.cons_append, List.nil_append]

theorem GroupRef.toJson_eq (group : GroupRef) : group.toJson = .object (present group.parts) := by
  simp only [toJson, parts, Members.ofOption_eq_present, Members.cons_present,
    ← Members.present_append, List.cons_append, List.nil_append]

theorem PersonName.toJson_eq_present (name : PersonName) :
    name.toJson = .object (present name.parts) := by
  simp only [toJson, parts, Members.ofOption_eq_present, ← Members.present_append, List.cons_append,
    List.nil_append]

/-- A plain value is read back. -/
theorem MultiValue.readBack : Json.ReadBack toJson ofJson? := by
  intro item value h
  rw [toJson_eq] at h
  obtain ⟨ms, rfl, hms⟩ := rearranged_of_reordered h
  have hnodup : (item.parts.map Prod.fst).Nodup := (by decide : keys.Nodup)
  have text {key : String} {x : Option String} (hpart : (key, x.map Json.text) ∈ item.parts) :
      ms.optional key Json.text? = some x := hms.optional_eq hnodup Json.readBack_text hpart
  have hvalue : ms.optional "value" Json.text? = some item.value := text (by simp [parts])
  have hdisplay : ms.optional "display" Json.text? = some item.display := text (by simp [parts])
  have htype : ms.optional "type" Json.text? = some item.type := text (by simp [parts])
  have hprimary : ms.optional "primary" Json.bool? = some item.primary :=
    hms.optional_eq hnodup Json.readBack_bool (by simp [parts])
  refine ⟨nofun, ?_⟩
  simp only [ofJson?, Json.members?, Option.bind_eq_bind, Option.bind_some, hvalue, hdisplay,
    htype, hprimary]
  rfl

/-- An address is read back. -/
theorem Address.readBack : Json.ReadBack toJson ofJson? := by
  intro address value h
  rw [toJson_eq] at h
  obtain ⟨ms, rfl, hms⟩ := rearranged_of_reordered h
  have hnodup : (address.parts.map Prod.fst).Nodup := (by decide : keys.Nodup)
  have text {key : String} {x : Option String} (hpart : (key, x.map Json.text) ∈ address.parts) :
      ms.optional key Json.text? = some x := hms.optional_eq hnodup Json.readBack_text hpart
  have hformatted : ms.optional "formatted" Json.text? = some address.formatted :=
    text (by simp [parts])
  have hstreet : ms.optional "streetAddress" Json.text? = some address.streetAddress :=
    text (by simp [parts])
  have hlocality : ms.optional "locality" Json.text? = some address.locality :=
    text (by simp [parts])
  have hregion : ms.optional "region" Json.text? = some address.region := text (by simp [parts])
  have hpostal : ms.optional "postalCode" Json.text? = some address.postalCode :=
    text (by simp [parts])
  have hcountry : ms.optional "country" Json.text? = some address.country :=
    text (by simp [parts])
  have htype : ms.optional "type" Json.text? = some address.type := text (by simp [parts])
  have hprimary : ms.optional "primary" Json.bool? = some address.primary :=
    hms.optional_eq hnodup Json.readBack_bool (by simp [parts])
  refine ⟨nofun, ?_⟩
  simp only [ofJson?, Json.members?, Option.bind_eq_bind, Option.bind_some, hformatted, hstreet,
    hlocality, hregion, hpostal, hcountry, htype, hprimary]
  rfl

/-- A member is read back. -/
theorem Member.readBack : Json.ReadBack toJson ofJson? := by
  intro member value h
  rw [toJson_eq] at h
  obtain ⟨ms, rfl, hms⟩ := rearranged_of_reordered h
  have hnodup : (member.parts.map Prod.fst).Nodup := (by decide : keys.Nodup)
  have text {key : String} {x : Option String} (hpart : (key, x.map Json.text) ∈ member.parts) :
      ms.optional key Json.text? = some x := hms.optional_eq hnodup Json.readBack_text hpart
  have hvalue : ms.withDefault "value" "" Json.text? = some member.value :=
    hms.withDefault_eq hnodup Json.readBack_text (by simp [parts]) ""
  have href : ms.optional "$ref" Json.text? = some member.ref := text (by simp [parts])
  have htype : ms.optional "type" Json.text? = some member.type := text (by simp [parts])
  have hdisplay : ms.optional "display" Json.text? = some member.display := text (by simp [parts])
  refine ⟨nofun, ?_⟩
  simp only [ofJson?, Json.members?, Option.bind_eq_bind, Option.bind_some, hvalue, href, htype,
    hdisplay]
  rfl

/-- A reference to a group is read back. -/
theorem GroupRef.readBack : Json.ReadBack toJson ofJson? := by
  intro group value h
  rw [toJson_eq] at h
  obtain ⟨ms, rfl, hms⟩ := rearranged_of_reordered h
  have hnodup : (group.parts.map Prod.fst).Nodup := (by decide : keys.Nodup)
  have text {key : String} {x : Option String} (hpart : (key, x.map Json.text) ∈ group.parts) :
      ms.optional key Json.text? = some x := hms.optional_eq hnodup Json.readBack_text hpart
  have hvalue : ms.required "value" Json.text? = some group.value :=
    hms.required_eq_of hnodup (Json.readBack_text _) (by simp [parts])
  have href : ms.optional "$ref" Json.text? = some group.ref := text (by simp [parts])
  have hdisplay : ms.optional "display" Json.text? = some group.display := text (by simp [parts])
  have htype : ms.optional "type" Json.text? = some group.type := text (by simp [parts])
  refine ⟨nofun, ?_⟩
  simp only [ofJson?, Json.members?, Option.bind_eq_bind, Option.bind_some, hvalue, href, hdisplay,
    htype]
  rfl

/-- A name is read back. -/
theorem PersonName.readBack : Json.ReadBack toJson ofJson? := by
  intro name value h
  rw [toJson_eq_present] at h
  obtain ⟨ms, rfl, hms⟩ := rearranged_of_reordered h
  have hnodup : (name.parts.map Prod.fst).Nodup := (by decide : keys.Nodup)
  have text {key : String} {x : Option String} (hpart : (key, x.map Json.text) ∈ name.parts) :
      ms.optional key Json.text? = some x := hms.optional_eq hnodup Json.readBack_text hpart
  have hformatted : ms.optional "formatted" Json.text? = some name.formatted :=
    text (by simp [parts])
  have hfamily : ms.optional "familyName" Json.text? = some name.familyName :=
    text (by simp [parts])
  have hgiven : ms.optional "givenName" Json.text? = some name.givenName := text (by simp [parts])
  have hmiddle : ms.optional "middleName" Json.text? = some name.middleName :=
    text (by simp [parts])
  have hprefix : ms.optional "honorificPrefix" Json.text? = some name.honorificPrefix :=
    text (by simp [parts])
  have hsuffix : ms.optional "honorificSuffix" Json.text? = some name.honorificSuffix :=
    text (by simp [parts])
  refine ⟨nofun, ?_⟩
  simp only [ofJson?, Json.members?, Option.bind_eq_bind, Option.bind_some, hformatted, hfamily,
    hgiven, hmiddle, hprefix, hsuffix]
  rfl

end ScimDirectory
