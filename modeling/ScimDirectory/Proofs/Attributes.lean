import Mathlib.Data.List.Nodup
import ScimDirectory.Patch.Apply

/-!
# Attributes

The attributes of a resource that a client sets, each with its key and with the columns or the
relation in which it is kept. A key is a path, and it points at what the attribute is kept in.
-/

namespace ScimDirectory

/-- An attribute that is written in one piece. -/
inductive Attribute where
  /-- An attribute that is kept in one column. -/
  | single (field : Field)
  /-- The name of a user, of which each component is kept in a column. -/
  | name
  /-- A multi-valued attribute. -/
  | listed (relation : Relation)
  deriving DecidableEq

namespace Attribute

/-- The key under which the attribute is written. -/
def key : Attribute → String
  | single field => field.name
  | name => "name"
  | listed relation => relation.attributeName

/-- The components of a name under their keys. -/
def components : List (String × Field) :=
  [("formatted", .text "name.formatted" .nameFormatted),
    ("familyName", .text "name.familyName" .nameFamilyName),
    ("givenName", .text "name.givenName" .nameGivenName),
    ("middleName", .text "name.middleName" .nameMiddleName),
    ("honorificPrefix", .text "name.honorificPrefix" .nameHonorificPrefix),
    ("honorificSuffix", .text "name.honorificSuffix" .nameHonorificSuffix)]

/-- The singular attributes that the attribute is made of. -/
def fields : Attribute → List Field
  | single field => [field]
  | name => components.map Prod.snd
  | listed _ => []

/-- The columns in which the attribute is kept. -/
def columns (a : Attribute) : List Column := a.fields.map Field.column

/-- The attributes of a type that a client sets, in the order in which they are written. -/
def ofType : ResourceType → List Attribute
  | .user =>
    [.single (.exact "externalId" .externalId), .single (.text "userName" .userName), .name,
      .single (.text "displayName" .displayName), .single (.text "nickName" .nickName),
      .single (.exact "profileUrl" .profileUrl), .single (.text "title" .title),
      .single (.text "userType" .userType), .single (.text "preferredLanguage" .preferredLanguage),
      .single (.text "locale" .locale), .single (.text "timezone" .timezone),
      .single (.boolean "active" .active)] ++
      Collection.all.map (fun c => .listed (.values c)) ++
      [.listed .addresses, .single (Field.exact "password" .password).hidden]
  | .group =>
    [.single (.exact "externalId" .externalId), .single (.text "displayName" .displayName),
      .listed .members]

/-- What the key of an attribute points at. -/
def target : Attribute → Target
  | single field => .field field
  | name => .complex "name"
  | listed relation => .items relation none none

/-- The entry of an attribute in the table of its type, if it has one. -/
def entry? : Attribute → Option Entry
  | single field => some (.field field)
  | name => none
  | listed relation => some (.relation relation)

/-- No two attributes of a type have the same key. -/
theorem nodup_keys (type : ResourceType) : ((ofType type).map key).Nodup := by
  cases type <;> decide

variable {type : ResourceType}

/-- The relations of a type are those among its attributes. -/
theorem listed_mem_ofType {relation : Relation} :
    .listed relation ∈ ofType type ↔ relation.owner = type := by
  cases type <;> rcases relation with c | _ | _ <;> try cases c
  all_goals decide

end Attribute

/-- The parser reads the keys of a type's attributes as paths. -/
def Filter.Parser.ReadsNames (parser : Filter.Parser) (type : ResourceType) : Prop :=
  ∀ a ∈ Attribute.ofType type, parser .path a.key = .ok (.path a.key none)

/-- The parser of the grammar does. -/
theorem Filter.readsNames_parse (type : ResourceType) : Parser.ReadsNames parse type := by
  unfold Parser.ReadsNames
  cases type <;> decide +kernel

namespace Attribute

variable {type : ResourceType}

/-- What the table of a type says of a key, which is not that of an attribute of the server. -/
theorem entry?_key {a : Attribute} (ha : a ∈ ofType type) :
    AttributeTable.entry? (.ofType type) a.key = a.entry? ∧
      (AttributeTable.ofType type).isComplex a.key = decide (a = .name) ∧
      Target.readOnly.any (Text.sameLetters · (Target.root a.key)) = false := by
  revert a
  cases type <;> decide +kernel

/-- The key of an attribute points at it. -/
theorem ofPath_key {parser : Filter.Parser} (hparser : parser.ReadsNames type) {a : Attribute}
    (ha : a ∈ ofType type) : Target.ofPath parser type a.key = .ok a.target := by
  obtain ⟨hentry, hcomplex, hwritable⟩ := entry?_key ha
  unfold Target.ofPath
  rw [hparser a ha]
  dsimp only
  unfold Target.ofParts
  dsimp only
  rw [hwritable, AttributeTable.field?, hentry, hcomplex, AttributeTable.resolve, hentry]
  cases a <;> rfl

/-- The components of a name are found under its key, a dot and their own keys. -/
theorem field?_component {component : String × Field} (h : component ∈ components) :
    (AttributeTable.ofType .user).field? ("name" ++ "." ++ component.1) = some component.2 := by
  revert component
  decide +kernel

/-- They are all that is below the name. -/
theorem complexFields_name : Patch.complexFields .user "name" = name.fields := by
  decide +kernel

end Attribute

end ScimDirectory
