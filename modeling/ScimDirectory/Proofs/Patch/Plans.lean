import ScimDirectory.Proofs.Directory.Runs
import ScimDirectory.Proofs.Patch.Items

/-!
# Plans of operations on items

An operation on the items of a resource decides by the items that are there what it will write,
and only then writes. On sound tables none of its writes can fail, although each is a call of its
own: so it does all of its plan, or fails and leaves storage as it was.
-/

namespace ScimDirectory

namespace Patch

/-- The end of an operation whose plan is known: the planned tables, or no change at all. -/
def settled (w : World Tables) : Except DirectoryError Tables →
    Except DirectoryError Unit × World Tables
  | .ok store => (.ok (), { w with store })
  | .error error => (.error error, w)

section

variable {w : World Tables} {relation : Relation} {owner : Uuid}

/-- New items with new keys are linked one after the other. -/
theorem insertItems_run {items : List ItemRow}
    (howners : ∀ item ∈ items, w.store.has relation.owner item.owner = true)
    (hnodup : (items.map ItemRow.id).Nodup)
    (hnew : ∀ item ∈ items, ∀ other ∈ w.store.itemsOf relation, other.id ≠ item.id) :
    (insertItems relation items).run w =
      (.ok (), { w with store := w.store.append relation items }) := by
  induction items generalizing w with
  | nil => rfl
  | cons item items ih =>
    rw [List.map_cons, List.nodup_cons] at hnodup
    have hlink := Tables.insertItem_eq (howners item List.mem_cons_self)
      (hnew item List.mem_cons_self)
    have hrun := Action.run_writing_bind (Tables.call_insertItem relation item)
      (fun _ => insertItems relation items) w
    rw [hlink] at hrun
    refine hrun.trans (ih (fun other hmem => ?_) hnodup.2 fun other hmem stored hstored => ?_)
    · rw [Tables.has_append]
      exact howners other (List.mem_cons_of_mem _ hmem)
    · rw [Tables.itemsOf_append, if_pos rfl, List.mem_append, List.mem_singleton] at hstored
      rcases hstored with hstored | rfl
      · exact hnew other (List.mem_cons_of_mem _ hmem) stored hstored
      · exact fun heq => hnodup.1 (heq ▸ List.mem_map_of_mem hmem)

/-- Items that have been linked come after those that were there. -/
theorem insertItems_eq_ok {w' : World Tables} {items : List ItemRow}
    (h : (insertItems relation items).run w = (.ok (), w')) :
    w' = { w with store := w.store.append relation items } := by
  induction items generalizing w with
  | nil =>
    cases h
    rfl
  | cons item items ih =>
    obtain ⟨_, middle, hfirst, hrest⟩ := run_bind_eq_ok h
    have hlink := hfirst.symm.trans (Action.run_writing (Tables.call_insertItem relation item) w)
    cases hwrite : w.store.insertItem relation item with
    | error e =>
      rw [hwrite] at hlink
      cases hlink
    | ok written =>
      rw [hwrite] at hlink
      cases hlink
      obtain ⟨-, -, -, hafter⟩ := Tables.insertItem_eq_ok hwrite
      rw [ih hrest, hafter, Tables.append]

/-- Items are written one after the other in the places of those with their keys. -/
theorem updateItems_run {changed : List ItemRow}
    (hunique : ((w.store.itemsOf relation).map ItemRow.id).Nodup)
    (hstored : ∀ item ∈ changed, ∃ stored ∈ w.store.itemsOf relation,
      stored.id = item.id ∧ stored.owner = item.owner) :
    (updateItems relation changed).run w =
      (.ok (), { w with store := w.store.rewrite relation (overlay changed) }) := by
  induction changed generalizing w with
  | nil =>
    have hsame : w.store.rewrite relation (overlay []) = w.store :=
      Tables.rewrite_id w.store relation
    rw [hsame]
    rfl
  | cons item changed ih =>
    obtain ⟨stored, hmem, hid, howner⟩ := hstored item List.mem_cons_self
    have hwrite := Tables.updateItem_eq hunique hmem hid howner
    have hrun := Action.run_writing_bind (Tables.call_updateItem relation item)
      (fun _ => updateItems relation changed) w
    rw [hwrite] at hrun
    refine hrun.trans ((ih ?_ fun other hother => ?_).trans ?_)
    · rw [Tables.itemsOf_rewrite, if_pos rfl, List.map_map]
      exact (List.map_congr_left fun stored _ => (id_overlay [item] stored).symm) ▸ hunique
    · obtain ⟨there, hthere, hkey, hsame⟩ := hstored other (List.mem_cons_of_mem _ hother)
      refine ⟨overlay [item] there, ?_, (id_overlay [item] there).trans hkey, ?_⟩
      · rw [Tables.itemsOf_rewrite, if_pos rfl]
        exact List.mem_map_of_mem hthere
      · rw [overlay_singleton]
        split
        · next heq =>
          have hone := List.inj_on_of_nodup_map hunique hmem hthere (hid.trans heq.symm)
          rw [← howner, hone, hsame]
        · exact hsame
    · rw [Tables.rewrite_rewrite]
      rfl

end

section

variable {w : World Tables} {α β : Type} {commit : β → Tables}

/-- An answer at the front of an operation that changes nothing is one at the front of its plan. -/
theorem run_bind_settled {a : Action Tables α} {answer : Except DirectoryError α}
    (ha : a.run w = (answer, w)) {f : α → Action Tables Unit}
    {plan : α → Except DirectoryError β}
    (h : ∀ x, answer = .ok x → (f x).run w = settled w ((plan x).map commit)) :
    (a >>= f).run w = settled w ((answer >>= plan).map commit) := by
  cases answer with
  | error e => exact run_bind_of_error ha f
  | ok x => exact (run_bind_of_ok ha f).trans (h x rfl)

end

/-- What an addition links: the items of a value that are not there already. -/
def additions (root : ServiceRoot) (owner : Uuid) (relation : Relation) (draw : Nat)
    (value : Json) (existing : List ItemRow) : Except DirectoryError (List ItemRow) := do
  let items ← items root relation draw owner value
  (checkPrimary relation (existing ++ newItems relation existing items)).mapError .violation
  return newItems relation existing items

/-- The items that a value stands for when it replaces others: `null` stands for none. -/
def standIns (root : ServiceRoot) (owner : Uuid) (relation : Relation) (draw : Nat)
    (value : Json) : Except DirectoryError (List ItemRow) :=
  if value.isNull then .ok [] else items root relation draw owner value

/-- What takes the place of all items of a relation: the items of a value. -/
def replacements (root : ServiceRoot) (owner : Uuid) (relation : Relation) (draw : Nat)
    (value : Json) : Except DirectoryError (List ItemRow) := do
  let items ← standIns root owner relation draw value
  (checkPrimary relation items).mapError .violation
  return items

/-- The one item that a filter picks. -/
def only (filter : Predicate) (existing : List ItemRow) : Except DirectoryError ItemRow :=
  match selectBy filter ItemRow.view existing with
  | .ok [item] => .ok item
  | .ok _ => .error (.patch .notSingular)
  | .error error => .error (notOne (.storage error))

/-- The one item that a filter picks is the only one that it picks. -/
theorem only_eq_ok {filter : Predicate} {existing : List ItemRow} {item : ItemRow}
    (h : only filter existing = .ok item) : existing.filter filter.picks = [item] := by
  unfold only at h
  split at h
  · next hselected =>
    cases h
    exact (selectBy_eq_ok hselected).symm
  · cases h
  · cases h

/-- What becomes of the one item that a filter picks when a sub-attribute of it is set. -/
def adjusted (relation : Relation) (filter : Predicate) (field : Field) (value : Json)
    (existing : List ItemRow) : Except DirectoryError ItemRow := do
  let item ← only filter existing
  let content ← (scalar field value).mapError .patch
  let item ← (assignItem item field content).mapError .patch
  (checkMember relation item).mapError .violation
  if item.isPrimary then
    (checkPrimary relation (existing.filter (·.id ≠ item.id) ++ [item])).mapError .violation
  return item

/-- What an object makes of the items that it is merged into. -/
def merged (relation : Relation) (filter : Predicate) (value : Json) (existing : List ItemRow) :
    Except DirectoryError (List ItemRow) :=
  match value with
  | .object members => do
    let selected ← (selectBy filter ItemRow.view existing).mapError .storage
    if selected.isEmpty then
      throw (.patch (.noTarget
        ("no " ++ relation.attributeName ++ " item matches " ++ filter.toText)))
    let updates ← (itemUpdates relation members).mapError .patch
    let changed ← changedItems relation updates selected
    let others := existing.filter fun item => !changed.any (·.id = item.id)
    (checkPrimary relation (others ++ changed)).mapError .violation
    return changed
  | _ => throw (.patch (.invalidValue relation.attributeName "expected an object"))

section

variable {w : World Tables} {relation : Relation} {owner : Uuid}

/-- A merge that succeeds names sub-attributes, picks items, and leaves one preferred item. -/
theorem merged_eq_ok {filter : Predicate} {value : Json} {existing changed : List ItemRow}
    (h : merged relation filter value existing = .ok changed) :
    ∃ members updates, value = .object members ∧ itemUpdates relation members = .ok updates ∧
      existing.filter filter.picks ≠ [] ∧
      changedItems relation updates (existing.filter filter.picks) = .ok changed ∧
      checkPrimary relation
        (existing.filter (fun item => !changed.any (·.id = item.id)) ++ changed) = .ok () := by
  unfold merged at h
  split at h
  · next members =>
    obtain ⟨selected, hselected, h⟩ := except_bind_eq_ok.mp h
    have hpicked := selectBy_eq_ok (except_mapError_eq_ok.mp hselected)
    cases selected with
    | nil => cases h
    | cons first rest =>
      obtain ⟨updates, hupdates, h⟩ := except_bind_eq_ok.mp h
      obtain ⟨_, hchanged, h⟩ := except_bind_eq_ok.mp h
      obtain ⟨_, hprimary, h⟩ := except_bind_eq_ok.mp h
      cases h
      refine ⟨members, updates, rfl, except_mapError_eq_ok.mp hupdates, ?_, hpicked ▸ hchanged,
        except_mapError_eq_ok.mp hprimary⟩
      exact hpicked ▸ List.cons_ne_nil first rest
  · cases h

/-- Setting a sub-attribute that succeeds changes the one item that the filter picks. -/
theorem adjusted_eq_ok {filter : Predicate} {field : Field} {value : Json}
    {existing : List ItemRow} {item : ItemRow}
    (h : adjusted relation filter field value existing = .ok item) :
    ∃ chosen content, existing.filter filter.picks = [chosen] ∧ scalar field value = .ok content ∧
      changedItems relation [(field, content)] [chosen] = .ok [item] ∧
      (item.isPrimary = true →
        checkPrimary relation (existing.filter (·.id ≠ item.id) ++ [item]) = .ok ()) := by
  obtain ⟨chosen, hchosen, h⟩ := except_bind_eq_ok.mp h
  obtain ⟨content, hcontent, h⟩ := except_bind_eq_ok.mp h
  obtain ⟨changed, hassign, h⟩ := except_bind_eq_ok.mp h
  obtain ⟨_, hmember, h⟩ := except_bind_eq_ok.mp h
  have hchanged : changedItems relation [(field, content)] [chosen] = .ok [changed] := by
    refine changedItems_eq_ok_iff.mpr (.cons ⟨?_, except_mapError_eq_ok.mp hmember⟩ .nil)
    rw [assignItemFields, except_mapError_eq_ok.mp hassign]
    rfl
  refine ⟨chosen, content, only_eq_ok hchosen, except_mapError_eq_ok.mp hcontent, ?_⟩
  by_cases hprimary : changed.isPrimary = true
  · simp only [hprimary, if_true] at h
    obtain ⟨_, hcheck, h⟩ := except_bind_eq_ok.mp h
    cases h
    exact ⟨hchanged, fun _ => except_mapError_eq_ok.mp hcheck⟩
  · simp only [hprimary] at h
    cases h
    exact ⟨hchanged, fun htrue => absurd htrue hprimary⟩

/-- A merge updates the items that the filter picks, in their places. -/
theorem rewrite_merged {tables : Tables}
    (hunique : ((tables.itemsOf relation).map ItemRow.id).Nodup) {filter : Predicate}
    {value : Json} {changed : List ItemRow}
    (h : merged relation filter value (tables.ownedItems owner relation) = .ok changed) :
    ∃ updates, tables.rewrite relation (overlay changed) =
      tables.rewrite relation (revised owner filter.picks updates) := by
  obtain ⟨_, updates, -, -, -, hchanged, -⟩ := merged_eq_ok h
  exact ⟨updates, rewrite_changedItems hunique hchanged⟩

/-- Setting a sub-attribute updates the items that the filter picks, in their places. -/
theorem rewrite_adjusted {tables : Tables}
    (hunique : ((tables.itemsOf relation).map ItemRow.id).Nodup) {filter : Predicate}
    {field : Field} {value : Json} {item : ItemRow}
    (h : adjusted relation filter field value (tables.ownedItems owner relation) = .ok item) :
    ∃ updates, tables.rewrite relation (overlay [item]) =
      tables.rewrite relation (revised owner filter.picks updates) := by
  obtain ⟨_, content, hpicked, -, hchanged, -⟩ := adjusted_eq_ok h
  exact ⟨[(field, content)], rewrite_changedItems hunique (hpicked ▸ hchanged)⟩

/-- An addition that succeeds leaves one preferred item. -/
theorem additions_eq_ok {root : ServiceRoot} {draw : Nat} {value : Json}
    {existing fresh : List ItemRow}
    (h : additions root owner relation draw value existing = .ok fresh) :
    ∃ rows, items root relation draw owner value = .ok rows ∧
      fresh = newItems relation existing rows ∧
      checkPrimary relation (existing ++ fresh) = .ok () := by
  obtain ⟨rows, hrows, h⟩ := except_bind_eq_ok.mp h
  obtain ⟨_, hprimary, h⟩ := except_bind_eq_ok.mp h
  cases h
  exact ⟨rows, hrows, rfl, except_mapError_eq_ok.mp hprimary⟩

/-- An addition whose value is decoded and leaves one preferred item is planned. -/
theorem additions_eq {root : ServiceRoot} {draw : Nat} {value : Json}
    {existing rows : List ItemRow} (hrows : items root relation draw owner value = .ok rows)
    (hprimary : checkPrimary relation (existing ++ newItems relation existing rows) = .ok ()) :
    additions root owner relation draw value existing = .ok (newItems relation existing rows) := by
  rw [additions, hrows]
  exact except_bind_eq_ok.mpr ⟨rows, rfl, except_bind_eq_ok.mpr
    ⟨(), except_mapError_eq_ok.mpr hprimary, rfl⟩⟩

/-- Added items have fresh keys and one owner. -/
theorem keys_of_additions {root : ServiceRoot} {draw : Nat} {value : Json}
    {existing fresh : List ItemRow}
    (h : additions root owner relation draw value existing = .ok fresh) :
    FreshKeys draw fresh ∧ ∀ item ∈ fresh, item.owner = owner := by
  obtain ⟨rows, hrows, rfl, -⟩ := additions_eq_ok h
  obtain ⟨hfresh, howners⟩ := keys_of_items hrows
  have hsub := newItems_sublist relation existing rows
  exact ⟨hfresh.sublist hsub, fun item hmem => howners item (hsub.subset hmem)⟩

/-- A replacement that succeeds leaves one preferred item. -/
theorem replacements_eq_ok {root : ServiceRoot} {draw : Nat} {value : Json}
    {rows : List ItemRow} (h : replacements root owner relation draw value = .ok rows) :
    standIns root owner relation draw value = .ok rows ∧
      checkPrimary relation rows = .ok () := by
  obtain ⟨rows, hrows, h⟩ := except_bind_eq_ok.mp h
  obtain ⟨_, hprimary, h⟩ := except_bind_eq_ok.mp h
  cases h
  exact ⟨hrows, except_mapError_eq_ok.mp hprimary⟩

/-- A replacement whose value is decoded and leaves one preferred item is planned. -/
theorem replacements_eq {root : ServiceRoot} {draw : Nat} {value : Json} {rows : List ItemRow}
    (hrows : standIns root owner relation draw value = .ok rows)
    (hprimary : checkPrimary relation rows = .ok ()) :
    replacements root owner relation draw value = .ok rows := by
  rw [replacements, hrows]
  exact except_bind_eq_ok.mpr ⟨rows, rfl, except_bind_eq_ok.mpr
    ⟨(), except_mapError_eq_ok.mpr hprimary, rfl⟩⟩

theorem mergeItems_run (h : w.store.Sound w.draws) (filter : Predicate) (value : Json) :
    (mergeItems owner relation filter value).run w =
      settled w ((merged relation filter value (w.store.ownedItems owner relation)).map fun changed =>
        w.store.rewrite relation (overlay changed)) := by
  cases value with
  | object members =>
    refine (Action.run_reading_bind _ _ w).trans ?_
    refine run_bind_settled rfl fun selected hselected => ?_
    cases selected with
    | nil => rfl
    | cons first rest =>
      refine run_bind_settled rfl fun updates _ => ?_
      refine run_bind_settled rfl fun changed hchanged => ?_
      refine run_bind_settled rfl fun _ _ => ?_
      refine updateItems_run (h.unique relation) fun item hmem => ?_
      obtain ⟨stored, hstored, hkeys⟩ := exists_of_mem_changedItems hchanged hmem
      rw [selectBy_eq_ok (except_mapError_eq_ok.mp hselected)] at hstored
      have howned := (List.mem_filter.mp hstored).1
      exact ⟨stored, (List.mem_filter.mp howned).1, hkeys⟩
  | _ => rfl

/-- What an addition decides before it writes. -/
theorem addItems_planned (root : ServiceRoot) (value : Json) :
    (addItems root owner relation value).run w =
      match additions root owner relation w.draws value (w.store.ownedItems owner relation) with
      | .ok fresh => (insertItems relation fresh).run { w with draws := w.draws + 1 }
      | .error error => (.error error, { w with draws := w.draws + 1 }) := by
  refine (Action.run_reading_bind _ _ w).trans ((Action.run_draw_bind _ w).trans ?_)
  refine (Action.run_ensure_bind _ _ _).trans ?_
  unfold additions
  cases items root relation w.draws owner value with
  | error e => rfl
  | ok rows =>
    refine (Action.run_check_bind _ _ _ _).trans ?_
    cases hprimary : checkPrimary relation (w.store.ownedItems owner relation ++
      newItems relation (w.store.ownedItems owner relation) rows) <;>
    · simp only [bind, Except.bind, hprimary]
      rfl

theorem addItems_run (h : w.store.Sound w.draws)
    (howner : w.store.has relation.owner owner = true) (root : ServiceRoot) (value : Json) :
    (addItems root owner relation value).run w =
      settled { w with draws := w.draws + 1 }
        ((additions root owner relation w.draws value (w.store.ownedItems owner relation)).map
          (w.store.append relation)) := by
  rw [addItems_planned]
  cases hplan : additions root owner relation w.draws value (w.store.ownedItems owner relation) with
  | error e => rfl
  | ok fresh =>
    obtain ⟨hfresh, howners⟩ := keys_of_additions hplan
    refine insertItems_run (fun item hmem => ?_) hfresh.nodup fun item hmem other hother => ?_
    · rw [howners item hmem]
      exact howner
    · exact h.ne_of_fresh hfresh hother hmem

/-- The items that a value stands for have fresh keys and one owner. -/
theorem keys_of_standIns {root : ServiceRoot} {draw : Nat} {value : Json}
    {rows : List ItemRow} (h : standIns root owner relation draw value = .ok rows) :
    FreshKeys draw rows ∧ ∀ row ∈ rows, row.owner = owner := by
  unfold standIns at h
  split at h
  · cases h
    exact ⟨FreshKeys.nil, fun _ hmem => nomatch hmem⟩
  · exact keys_of_items h

/-- What a replacement decides before it writes. -/
theorem replaceItems_planned (root : ServiceRoot) (value : Json) :
    (replaceItems root owner relation value).run w =
      match replacements root owner relation w.draws value with
      | .ok rows => (insertItems relation rows).run
          { w with
            draws := w.draws + 1, store := w.store.without relation (·.owner = owner) }
      | .error error => (.error error, { w with draws := w.draws + 1 }) := by
  have hstandIns : (replaceItems root owner relation value).run w =
      (do
        let items ← Action.ensure (standIns root owner relation w.draws value)
        Action.check .violation (checkPrimary relation items)
        let _ ← Action.call (Storage.deleteAllItems relation owner)
        insertItems relation items : Action Tables Unit).run { w with draws := w.draws + 1 } := by
    refine (Action.run_draw_bind _ w).trans ?_
    unfold standIns
    by_cases hnull : value.isNull
    · simp only [hnull, if_true]
      rfl
    · simp only [hnull]
      rfl
  refine hstandIns.trans ((Action.run_ensure_bind _ _ _).trans ?_)
  unfold replacements
  cases standIns root owner relation w.draws value with
  | error e => rfl
  | ok rows =>
    refine (Action.run_check_bind _ _ _ _).trans ?_
    cases hprimary : checkPrimary relation rows with
    | error violation =>
      simp only [bind, Except.bind, hprimary]
      rfl
    | ok _ =>
      refine (Action.run_always_bind (Tables.call_deleteAllItems relation owner) _ _).trans ?_
      simp only [bind, Except.bind, hprimary]
      rfl

theorem replaceItems_run (h : w.store.Sound w.draws)
    (howner : w.store.has relation.owner owner = true) (root : ServiceRoot) (value : Json) :
    (replaceItems root owner relation value).run w =
      settled { w with draws := w.draws + 1 }
        ((replacements root owner relation w.draws value).map fun items =>
          (w.store.without relation (·.owner = owner)).append relation items) := by
  rw [replaceItems_planned]
  cases hplan : replacements root owner relation w.draws value with
  | error e => rfl
  | ok rows =>
    obtain ⟨hfresh, howners⟩ := keys_of_standIns (replacements_eq_ok hplan).1
    refine insertItems_run (fun item hmem => ?_) hfresh.nodup fun item hmem other hother => ?_
    · rw [howners item hmem]
      exact (Tables.has_mk_items ..).trans howner
    · have hkept := (Tables.itemsOf_without_sublist w.store relation _ relation).subset hother
      exact h.ne_of_fresh hfresh hkept hmem

/-- Deleting the items that were found deletes those that the filter picks. -/
theorem deleteItems_selected (hunique : ((w.store.itemsOf relation).map ItemRow.id).Nodup)
    (filter : Predicate) :
    (w.store.deleteItems relation
      (((w.store.ownedItems owner relation).filter filter.picks).map ItemRow.id)).2 =
      w.store.without relation fun item => item.owner = owner ∧ filter.picks item := by
  simp only [Tables.deleteItems, Tables.deleteWhere, Tables.without]
  congr 1
  refine List.filter_congr fun entry hmem => ?_
  by_cases hr : entry.1 = relation
  · have hitem : entry.2 ∈ w.store.itemsOf relation := Tables.mem_itemsOf.mpr (hr ▸ hmem)
    have hpicked : entry.2.id ∈
        ((w.store.ownedItems owner relation).filter filter.picks).map ItemRow.id ↔
          entry.2.owner = owner ∧ filter.picks entry.2 = true := by
      constructor
      · intro hid
        obtain ⟨item, hselected, hsame⟩ := List.mem_map.mp hid
        obtain ⟨howned, hpicks⟩ := List.mem_filter.mp hselected
        obtain ⟨hstored, howner⟩ := List.mem_filter.mp howned
        rw [← List.inj_on_of_nodup_map hunique hstored hitem hsame]
        exact ⟨of_decide_eq_true howner, hpicks⟩
      · rintro ⟨howner, hpicks⟩
        have howned : entry.2 ∈ w.store.ownedItems owner relation :=
          List.mem_filter.mpr ⟨hitem, decide_eq_true howner⟩
        exact List.mem_map_of_mem (List.mem_filter.mpr ⟨howned, hpicks⟩)
    simp [hr, hpicked]
  · simp [hr]

theorem removeItems_run (h : w.store.Sound w.draws) (filter : Predicate) :
    (removeItems owner relation filter).run w =
      settled w (((selectBy filter ItemRow.view (w.store.ownedItems owner relation)).mapError
        .storage).map fun _ =>
          w.store.without relation fun item => item.owner = owner ∧ filter.picks item) := by
  refine (Action.run_reading_bind _ _ w).trans ?_
  dsimp only [Tables.queryItems, selectWhere]
  cases hselected : selectBy filter ItemRow.view (w.store.ownedItems owner relation) with
  | error e => rfl
  | ok selected =>
    refine (Action.run_always_bind (Tables.call_deleteItems relation _) _ w).trans ?_
    rw [selectBy_eq_ok hselected, deleteItems_selected (h.unique relation) filter]
    rfl

/-- Asking for the one item that a filter picks reads only. -/
theorem run_onlyItem (filter : Predicate) :
    ((Action.call (Storage.onlyItem relation owner filter)).adapt notOne).run w =
      (only filter (w.store.ownedItems owner relation), w) := by
  have hrun : ∀ answer, (Storage.onlyItem relation owner filter).run w.store = (answer, w.store) →
      ((Action.call (Storage.onlyItem relation owner filter)).adapt notOne).run w =
        ((answer.mapError .storage).mapError notOne, w) := by
    intro answer hanswer
    change (let (answer, store) := (Storage.onlyItem relation owner filter).run w.store
      ((answer.mapError DirectoryError.storage).mapError notOne, { w with store })) = _
    rw [hanswer]
  have hquery : (Storage.queryItems relation owner (some filter) : Call Tables _).run w.store =
      (selectBy filter ItemRow.view (w.store.ownedItems owner relation), w.store) := rfl
  unfold only
  cases hselected : selectBy filter ItemRow.view (w.store.ownedItems owner relation) with
  | error e =>
    rw [hselected] at hquery
    exact hrun _ (run_bind_of_error hquery _)
  | ok selected =>
    rw [hselected] at hquery
    rcases selected with _ | ⟨item, _ | ⟨other, rest⟩⟩
    · exact hrun _ (run_bind_of_ok hquery _)
    · exact hrun _ (run_bind_of_ok hquery _)
    · exact hrun _ (run_bind_of_ok hquery _)

theorem setItemField_run (h : w.store.Sound w.draws) (filter : Predicate) (field : Field)
    (value : Json) :
    (setItemField owner relation filter field value).run w =
      settled w ((adjusted relation filter field value (w.store.ownedItems owner relation)).map
        fun item => w.store.rewrite relation (overlay [item])) := by
  refine run_bind_settled (run_onlyItem filter) fun chosen hchosen => ?_
  refine run_bind_settled rfl fun content hcontent => ?_
  refine run_bind_settled rfl fun item hassign => ?_
  refine run_bind_settled rfl fun _ _ => ?_
  have hwrite : (updateItems relation [item]).run w =
      settled w (.ok (w.store.rewrite relation (overlay [item]))) := by
    refine updateItems_run (h.unique relation) fun new hnew => ?_
    cases List.mem_singleton.mp hnew
    have hmem : chosen ∈ (w.store.ownedItems owner relation).filter filter.picks :=
      only_eq_ok hchosen ▸ List.mem_singleton_self chosen
    have howned := (List.mem_filter.mp hmem).1
    have hkeys := ItemRow.keys_of_assign (except_mapError_eq_ok.mp
      (except_mapError_eq_ok.mp hassign))
    exact ⟨chosen, (List.mem_filter.mp howned).1, hkeys.1.symm, hkeys.2.symm⟩
  by_cases hprimary : item.isPrimary = true
  · simp only [hprimary, if_true]
    refine (Action.run_reading_bind _ _ w).trans ?_
    exact run_bind_settled rfl fun _ _ => hwrite
  · simp only [hprimary]
    exact hwrite

end

end Patch

end ScimDirectory
