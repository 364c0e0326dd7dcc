import ScimDirectory.Proofs.Store.Items
import ScimDirectory.Schema.Lookup

/-!
# What names stand for

A name that is resolved stands for an entry of its table, or for an entry of the table of a
relation's items. So what a table does not list cannot be named, and the relations that can be
named in a type are those that it owns.
-/

namespace ScimDirectory

namespace AttributeTable

/-- An entry that a name stands for is in the table. -/
theorem mem_entries_of_named {table : AttributeTable} {name : String} {entry : Entry}
    (h : table.entry? name = some entry) : entry ∈ table.entries :=
  List.mem_of_find?_eq_some h

/-- A singular attribute that a name stands for is in the table. -/
theorem mem_entries_of_field {table : AttributeTable} {name : String} {field : Field}
    (h : table.field? name = some field) : .field field ∈ table.entries := by
  unfold field? at h
  split at h
  · next found hfound =>
    cases h
    exact mem_entries_of_named hfound
  · cases h

theorem mem_fields_of_mem_entries {table : AttributeTable} {field : Field}
    (h : .field field ∈ table.entries) : field ∈ table.fields :=
  List.mem_filterMap.mpr ⟨_, h, rfl⟩

/-- An entry has the letters of the names that stand for it. -/
theorem sameLetters_of_entry {table : AttributeTable} {name : String} {entry : Entry}
    (h : table.entry? name = some entry) : Text.sameLetters entry.name name = true :=
  @List.find?_some _ (fun entry : Entry => Text.sameLetters entry.name name) _ _ h

/-- A singular attribute has the letters of the names that stand for it. -/
theorem sameLetters_of_field {table : AttributeTable} {name : String} {field : Field}
    (h : table.field? name = some field) : Text.sameLetters field.name name = true := by
  unfold field? at h
  split at h
  · next found hfound =>
    cases h
    exact sameLetters_of_entry hfound
  · cases h

/-- Only a whole name stands for a whole relation. -/
theorem entry_of_resolve_relation {table : AttributeTable} {attr : String} {relation : Relation}
    (h : table.resolve attr = .ok (.relation relation)) :
    table.entry? attr = some (.relation relation) := by
  unfold resolve at h
  split at h
  · cases h
  · next hentry => cases h; exact hentry
  · split at h
    · cases h
    · split at h
      · split at h <;> cases h
      · cases h
      · split at h <;> cases h

/-- A resolved name stands for something that the table, or the table of the items, lists. -/
def Lists (table : AttributeTable) : Resolved → Prop
  | .field field => .field field ∈ table.entries
  | .relation relation => .relation relation ∈ table.entries
  | .itemField relation field =>
    .relation relation ∈ table.entries ∧ .field field ∈ (ofItems relation).entries

/-- Names stand for nothing but what is listed. -/
theorem lists_of_resolve {table : AttributeTable} {attr : String} {resolved : Resolved}
    (h : table.resolve attr = .ok resolved) : table.Lists resolved := by
  unfold resolve at h
  split at h
  · next field hentry => cases h; exact mem_entries_of_named hentry
  · next relation hentry => cases h; exact mem_entries_of_named hentry
  · split at h
    · cases h
    · split at h
      · next relation hentry =>
        split at h
        · next field hfield =>
          cases h
          exact ⟨mem_entries_of_named hentry, mem_entries_of_field hfield⟩
        · cases h
      · cases h
      · split at h <;> cases h

/-- A type lists the relations that it owns. -/
theorem owner_of_mem_entries {type : ResourceType} {relation : Relation}
    (h : .relation relation ∈ (ofType type).entries) : relation.owner = type := by
  cases type with
  | user =>
    have hmem : relation ∈ Relation.ofType .user := by simpa [ofType, user] using h
    exact Relation.mem_ofType.mp hmem
  | group =>
    have hmem : relation ∈ Relation.ofType .group := by simpa [ofType, group] using h
    exact Relation.mem_ofType.mp hmem

end AttributeTable

end ScimDirectory
