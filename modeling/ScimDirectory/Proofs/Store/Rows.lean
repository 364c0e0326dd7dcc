import ScimDirectory.Store.Tables
import Mathlib.Data.List.Nodup

/-!
# Rows and their keys

How the tables of rows answer after one row is put or dropped: the row that was put is found under
its key, every other key finds what it found before, and keys stay distinct. Items are not touched
by either.
-/

namespace ScimDirectory.Tables

variable {type : ResourceType}

@[simp] theorem rows_withRows (tables : Tables) (rows : List (Row type)) :
    (tables.withRows type rows).rows type = rows := by
  cases type <;> rfl

/-- The rows of the other type stay. -/
theorem rows_withRows_of_ne (tables : Tables) {other : ResourceType} (h : other ≠ type)
    (rows : List (Row type)) : (tables.withRows type rows).rows other = tables.rows other := by
  cases type <;> cases other <;> first | rfl | exact absurd rfl h

@[simp] theorem items_withRows (tables : Tables) (rows : List (Row type)) :
    (tables.withRows type rows).items = tables.items := by
  cases type <;> rfl

@[simp] theorem items_put (tables : Tables) (row : Row type) :
    (tables.put row).items = tables.items := by
  simp only [put, items_withRows]

@[simp] theorem items_dropRow (tables : Tables) (id : Uuid) :
    (tables.dropRow type id).items = tables.items := by
  simp only [dropRow, items_withRows]

@[simp] theorem rows_put (tables : Tables) (row : Row type) :
    (tables.put row).rows type = putRow row (tables.rows type) := by
  simp only [put, rows_withRows]

@[simp] theorem rows_dropRow (tables : Tables) (id : Uuid) :
    (tables.dropRow type id).rows type = (tables.rows type).filter (·.id ≠ id) := by
  simp only [dropRow, rows_withRows]

theorem rows_put_of_ne (tables : Tables) {other : ResourceType} (h : other ≠ type)
    (row : Row type) : (tables.put row).rows other = tables.rows other :=
  tables.rows_withRows_of_ne h _

theorem rows_dropRow_of_ne (tables : Tables) {other : ResourceType} (h : other ≠ type)
    (id : Uuid) : (tables.dropRow type id).rows other = tables.rows other :=
  tables.rows_withRows_of_ne h _

/-- A row is found under its key. -/
theorem id_of_find? {tables : Tables} {id : Uuid} {row : Row type}
    (h : tables.find? type id = some row) : row.id = id := by
  have hkey := List.find?_some h
  exact of_decide_eq_true hkey

/-- A row that is found is in its table. -/
theorem mem_of_find? {tables : Tables} {id : Uuid} {row : Row type}
    (h : tables.find? type id = some row) : row ∈ tables.rows type :=
  List.mem_of_find?_eq_some h

/-- A key is there when it is the key of some row. -/
theorem has_iff {tables : Tables} {id : Uuid} :
    tables.has type id = true ↔ id ∈ (tables.rows type).map Row.id := by
  simp only [has, find?, List.find?_isSome, decide_eq_true_eq, List.mem_map]

/-- Among distinct keys every row is the one that its key finds. -/
theorem find?_eq_some_iff {tables : Tables} (h : ((tables.rows type).map Row.id).Nodup)
    {id : Uuid} {row : Row type} :
    tables.find? type id = some row ↔ row ∈ tables.rows type ∧ row.id = id := by
  constructor
  · exact fun hfind => ⟨mem_of_find? hfind, id_of_find? hfind⟩
  · rintro ⟨hmem, hid⟩
    have hhas : tables.has type id = true := has_iff.mpr (List.mem_map.mpr ⟨row, hmem, hid⟩)
    obtain ⟨found, hfound⟩ := Option.isSome_iff_exists.mp hhas
    have hsame : found.id = row.id := (id_of_find? hfound).trans hid.symm
    rw [hfound, List.inj_on_of_nodup_map h (mem_of_find? hfound) hmem hsame]

/-- What a list of rows finds after a row is put into it. -/
theorem find?_putRow (row : Row type) (rows : List (Row type)) (id : Uuid) :
    (putRow row rows).find? (·.id = id) =
      if row.id = id then some row else rows.find? (·.id = id) := by
  induction rows with
  | nil => by_cases h : row.id = id <;> simp [putRow, h]
  | cons other rows ih =>
    rw [putRow]
    by_cases hsame : other.id = row.id
    · by_cases h : row.id = id
      · simp [hsame, h]
      · simp [hsame, h]
    · by_cases h : other.id = id
      · have hrow : row.id ≠ id := fun hrow => hsame (h.trans hrow.symm)
        have hother : id ≠ row.id := hrow.symm
        simp [h, hrow, hother]
      · simp [hsame, h, ih]

/-- Putting a row in the place of another one leaves the keys as they are. -/
theorem map_id_putRow_of_mem {row : Row type} {rows : List (Row type)}
    (h : row.id ∈ rows.map Row.id) : (putRow row rows).map Row.id = rows.map Row.id := by
  induction rows with
  | nil => cases h
  | cons other rows ih =>
    rw [putRow]
    by_cases hsame : other.id = row.id
    · simp [hsame]
    · have hrest : row.id ∈ rows.map Row.id :=
        (List.mem_cons.mp h).resolve_left fun heq => hsame heq.symm
      simp [hsame, ih hrest]

/-- A row with a new key comes last. -/
theorem putRow_of_not_mem {row : Row type} {rows : List (Row type)}
    (h : row.id ∉ rows.map Row.id) : putRow row rows = rows ++ [row] := by
  induction rows with
  | nil => rfl
  | cons other rows ih =>
    simp only [List.map_cons, List.mem_cons, not_or] at h
    simp [putRow, Ne.symm h.1, ih h.2]

/-- Keys stay distinct when a row is put. -/
theorem nodup_putRow (row : Row type) {rows : List (Row type)} (h : (rows.map Row.id).Nodup) :
    ((putRow row rows).map Row.id).Nodup := by
  by_cases hmem : row.id ∈ rows.map Row.id
  · rwa [map_id_putRow_of_mem hmem]
  · rw [putRow_of_not_mem hmem, List.map_append, List.map_singleton]
    exact List.nodup_append_comm.mp (List.nodup_cons.mpr ⟨hmem, h⟩)

/-- The rows after a put are the row itself and rows with other keys. -/
theorem mem_putRow {row other : Row type} {rows : List (Row type)}
    (hnodup : (rows.map Row.id).Nodup) (h : other ∈ putRow row rows) :
    other = row ∨ (other ∈ rows ∧ other.id ≠ row.id) := by
  induction rows with
  | nil => exact .inl (List.mem_singleton.mp h)
  | cons first rows ih =>
    obtain ⟨hfirst, hrest⟩ := List.nodup_cons.mp hnodup
    rw [putRow] at h
    split at h
    · next hsame =>
      rcases List.mem_cons.mp h with heq | hmem
      · exact .inl heq
      · refine .inr ⟨List.mem_cons_of_mem _ hmem, fun heq => hfirst ?_⟩
        exact hsame ▸ heq ▸ List.mem_map_of_mem hmem
    · next hother =>
      rcases List.mem_cons.mp h with heq | hmem
      · exact .inr ⟨heq ▸ List.mem_cons_self, heq ▸ hother⟩
      · exact (ih hrest hmem).imp_right fun hin => ⟨List.mem_cons_of_mem _ hin.1, hin.2⟩

/-- The rows after a put are the row itself and rows that were there. -/
theorem mem_or_of_mem_putRow {row other : Row type} {rows : List (Row type)}
    (h : other ∈ putRow row rows) : other = row ∨ other ∈ rows := by
  induction rows with
  | nil => exact .inl (List.mem_singleton.mp h)
  | cons first rows ih =>
    rw [putRow] at h
    split at h
    · exact (List.mem_cons.mp h).imp_right (List.mem_cons_of_mem first)
    · rcases List.mem_cons.mp h with heq | hmem
      · exact .inr (heq ▸ List.mem_cons_self)
      · exact (ih hmem).imp_right (List.mem_cons_of_mem first)

/-- A relation between rows outlasts a put when the new row has it with all rows of other keys. -/
theorem pairwise_putRow {R : Row type → Row type → Prop} (hsymm : ∀ {a b}, R a b → R b a)
    {row : Row type} {rows : List (Row type)} (hnodup : (rows.map Row.id).Nodup)
    (hrows : rows.Pairwise R) (hrow : ∀ other ∈ rows, other.id ≠ row.id → R other row) :
    (putRow row rows).Pairwise R := by
  induction rows with
  | nil => exact List.pairwise_singleton R row
  | cons first rows ih =>
    obtain ⟨hfirst, hnodup⟩ := List.nodup_cons.mp hnodup
    obtain ⟨hall, hrows⟩ := List.pairwise_cons.mp hrows
    rw [putRow]
    split
    · next hsame =>
      refine List.pairwise_cons.mpr ⟨fun other hmem => ?_, hrows⟩
      refine hsymm (hrow other (List.mem_cons_of_mem _ hmem) fun heq => hfirst ?_)
      exact hsame ▸ heq ▸ List.mem_map_of_mem hmem
    · next hother =>
      refine List.pairwise_cons.mpr ⟨fun other hmem => ?_, ?_⟩
      · rcases mem_putRow hnodup hmem with heq | ⟨hin, -⟩
        · exact heq ▸ hrow first List.mem_cons_self hother
        · exact hall other hin
      · exact ih hnodup hrows fun other hmem => hrow other (List.mem_cons_of_mem _ hmem)

/-- After a put, a key finds the row that was put or what it found before. -/
theorem find?_put (tables : Tables) (row : Row type) (id : Uuid) :
    (tables.put row).find? type id = if row.id = id then some row else tables.find? type id := by
  simp only [find?, rows_put]
  exact find?_putRow row (tables.rows type) id

theorem find?_put_of_ne (tables : Tables) {other : ResourceType} (h : other ≠ type)
    (row : Row type) (id : Uuid) : (tables.put row).find? other id = tables.find? other id := by
  simp only [find?, rows_put_of_ne tables h]

/-- A put matters to the key of its row only. -/
theorem find?_put_of_not {tables : Tables} {row : Row type} {other : ResourceType} {id : Uuid}
    (h : ¬(other = type ∧ id = row.id)) :
    (tables.put row).find? other id = tables.find? other id := by
  by_cases htype : other = type
  · subst htype
    rw [find?_put, if_neg fun hid => h ⟨rfl, hid.symm⟩]
  · exact find?_put_of_ne tables htype row id

/-- After a drop, the key finds nothing and every other key what it found before. -/
theorem find?_dropRow (tables : Tables) (dropped id : Uuid) :
    (tables.dropRow type dropped).find? type id =
      if id = dropped then none else tables.find? type id := by
  simp only [find?, rows_dropRow, List.find?_filter]
  split
  · next h =>
    subst h
    exact List.find?_eq_none.mpr fun row _ => by simp
  · next h =>
    refine congrArg (fun test => List.find? test (tables.rows type)) (funext fun row => ?_)
    by_cases hrow : row.id = id
    · simp [hrow, h]
    · simp [hrow]

theorem find?_dropRow_of_ne (tables : Tables) {other : ResourceType} (h : other ≠ type)
    (dropped id : Uuid) :
    (tables.dropRow type dropped).find? other id = tables.find? other id := by
  simp only [find?, rows_dropRow_of_ne tables h]

/-- A drop matters to the key that is dropped only. -/
theorem find?_dropRow_of_not {tables : Tables} {dropped id : Uuid} {other : ResourceType}
    (h : ¬(other = type ∧ id = dropped)) :
    (tables.dropRow type dropped).find? other id = tables.find? other id := by
  by_cases htype : other = type
  · subst htype
    rw [find?_dropRow, if_neg fun hid => h ⟨rfl, hid⟩]
  · exact find?_dropRow_of_ne tables htype dropped id

/-- The keys after a put are those before and that of the row. -/
theorem has_put {tables : Tables} {row : Row type} {other : ResourceType} {id : Uuid} :
    (tables.put row).has other id = true ↔
      (other = type ∧ id = row.id) ∨ tables.has other id = true := by
  by_cases htype : other = type
  · subst htype
    by_cases hid : row.id = id
    · simp [has, find?_put, hid]
    · simp [has, find?_put, hid, Ne.symm hid]
  · simp [has, find?_put_of_ne tables htype, htype]

/-- The keys after a drop are those before without the one that was dropped. -/
theorem has_dropRow {tables : Tables} {dropped : Uuid} {other : ResourceType} {id : Uuid} :
    (tables.dropRow type dropped).has other id = true ↔
      tables.has other id = true ∧ ¬(other = type ∧ id = dropped) := by
  by_cases htype : other = type
  · subst htype
    by_cases hid : id = dropped
    · simp [has, find?_dropRow, hid]
    · simp [has, find?_dropRow, hid]
  · simp [has, find?_dropRow_of_ne tables htype, htype]

end ScimDirectory.Tables
