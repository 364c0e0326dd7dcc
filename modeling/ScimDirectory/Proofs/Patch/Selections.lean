import Mathlib.Data.List.TakeWhile
import ScimDirectory.Proofs.Filter.Preservation
import ScimDirectory.Proofs.Patch.Replacements

/-!
# Selected items

A path with a filter points at those items of a collection of which the filter holds: its predicate
can be tested on every item, and answers with the meaning of the filter. When they are removed, the
other items of the collection stay as they are and where they are, and so does everything else,
although items are deleted by their keys alone from a table that all resources share.
-/

namespace ScimDirectory

namespace Filter

variable {relation : Relation} {expr : Expr} {p : Predicate}

/-- The predicate of a filter for items answers on every item, and as the filter means. -/
theorem evaluate_compileItems (h : compileItems relation expr = .ok p) (item : ItemRow) :
    p.evaluate item.view = .ok (decide (expr.Holds (.ofItems relation) item.subject)) := by
  obtain ⟨places, hplaces, h⟩ := except_bind_eq_ok.mp h
  obtain ⟨place, hexpress, rfl⟩ : ∃ place, Expresses (.ofItems relation) expr place ∧
      places = [place] := by
    cases predicates_express hplaces with
    | cons hplace hrest =>
      cases hrest
      exact ⟨_, hplace, rfl⟩
  cases place with
  | none => cases h
  | some q =>
    cases h
    exact hexpress item.view item.subject (item.view_shows relation)

/-- It picks the items of which the filter holds. -/
theorem picks_compileItems (h : compileItems relation expr = .ok p) :
    p.picks = fun item => decide (expr.Holds (.ofItems relation) item.subject) := by
  funext item
  rw [Predicate.picks, evaluate_compileItems h]

end Filter

namespace Target

variable {type : ResourceType} {attr : String} {relation : Relation}

/-- A name without a dot is its own first part. -/
theorem root_eq_self (h : '.' ∉ attr.toList) : root attr = attr := by
  have hnone : attr.toList.dropWhile (· != '.') = [] :=
    List.dropWhile_eq_nil_iff.mpr fun c hc => bne_iff_ne.mpr fun heq => h (heq ▸ hc)
  rw [root, splitAtDot, hnone]
  rfl

/-- A name that stands for a whole relation points at its items: the server does not own it, and no
dotted names are below it. -/
theorem ofParts_of_relation
    (hattr : (AttributeTable.ofType type).resolve attr = .ok (.relation relation))
    (filter : Option Expr) (sub : Option String) :
    ofParts type attr filter sub = ofItems relation filter sub := by
  have hentry := AttributeTable.entry_of_resolve_relation hattr
  have hlisted : Attribute.listed relation ∈ Attribute.ofType type :=
    Attribute.listed_mem_ofType.mpr (AttributeTable.owner_of_mem_entries
      (AttributeTable.mem_entries_of_named hentry))
  obtain ⟨-, hcomplex, hwritable⟩ := Attribute.entry?_key hlisted
  -- The name has the letters of the relation's own name, and so is as free as that one.
  have hletters : Text.lowerAscii relation.attributeName.toList = Text.lowerAscii attr.toList :=
    eq_of_beq (AttributeTable.sameLetters_of_entry hentry)
  have hsame (other : String) :
      Text.sameLetters other attr = Text.sameLetters other relation.attributeName := by
    rw [Text.sameLetters, Text.sameLetters, hletters]
  have hplain : ∀ relation : Relation, '.' ∉ Text.lowerAscii relation.attributeName.toList := by
    rintro (c | _ | _)
    · cases c <;> decide
    all_goals decide
  have hroot {name : String}
      (hname : Text.lowerAscii relation.attributeName.toList = Text.lowerAscii name.toList) :
      root name = name :=
    root_eq_self fun hmem =>
      hplain relation (hname ▸ List.mem_map_of_mem (f := Char.toLower) hmem)
  have hunder : AttributeTable.isUnder attr = AttributeTable.isUnder relation.attributeName := by
    funext name
    unfold AttributeTable.isUnder
    simp only [hsame]
  have howned : readOnly.any (Text.sameLetters · (root attr)) = false := by
    rw [hroot hletters]
    simp only [hsame]
    rwa [Attribute.key, hroot rfl] at hwritable
  have hbelow : (AttributeTable.ofType type).isComplex attr = false := by
    rw [AttributeTable.isComplex, hunder]
    exact hcomplex
  unfold ofParts
  simp only [howned, hbelow, hattr, Bool.and_false, Bool.false_eq_true, if_false]

/-- A path that is read as a relation with a filter points at the items of the relation. -/
theorem ofPath_of_relation {parser : Filter.Parser} {path : String} {expr : Expr}
    {sub : Option String} (hpath : parser .path path = .ok (.valuePath attr expr sub))
    (hattr : (AttributeTable.ofType type).resolve attr = .ok (.relation relation)) :
    ofPath parser type path = ofItems relation (some expr) sub := by
  rw [ofPath, hpath]
  exact ofParts_of_relation hattr (some expr) sub

/-- Without a sub-attribute it points at whole items. -/
theorem ofPath_of_filter {parser : Filter.Parser} {path : String} {expr : Expr} {p : Predicate}
    (hpath : parser .path path = .ok (.valuePath attr expr none))
    (hattr : (AttributeTable.ofType type).resolve attr = .ok (.relation relation))
    (hfilter : Filter.compileItems relation expr = .ok p) :
    ofPath parser type path = .ok (.items relation (some p) none) := by
  rw [ofPath_of_relation hpath hattr, ofItems, Option.mapM_some, hfilter]
  rfl

end Target

/-- The world in which those items of an owner that a test picks have left. -/
def World.dropItems (w : World Tables) (relation : Relation) (owner : Uuid)
    (test : ItemRow → Bool) : World Tables :=
  { w with store := w.store.without relation fun item => item.owner = owner ∧ test item }

namespace Patch

variable {type : ResourceType} {w : World Tables} {row : Row type} {relation : Relation}

/-- The owner keeps the items that the test does not pick. -/
theorem ownedItems_dropItems (w : World Tables) (relation : Relation) (owner : Uuid)
    (test : ItemRow → Bool) :
    (w.dropItems relation owner test).store.ownedItems owner relation =
      (w.store.ownedItems owner relation).filter fun item => !test item := by
  rw [World.dropItems, Tables.ownedItems_without, if_pos rfl]
  refine List.filter_congr fun item hmem => ?_
  simp [(Tables.mem_ownedItems.mp hmem).2]

theorem changesOnly_dropItems (test : ItemRow → Bool) :
    ChangesOnly relation (w, row) (w.dropItems relation row.id test, row) where
  atHand := rfl
  rows _ := Tables.rows_mk_items ..
  others _ _ hne :=
    Tables.ownedItems_without_of_ne (fun _ htest => (of_decide_eq_true htest).1) hne

/-- A removal at a relation with a filter succeeds, and the items of which the filter holds leave. -/
theorem remove_selected {setting : Setting} {path : String} {expr : Expr} {p : Predicate}
    (hsound : w.store.Sound w.draws) (hfilter : Filter.compileItems relation expr = .ok p)
    (htarget : Target.ofPath setting.parser type path = .ok (.items relation (some p) none)) :
    (apply setting (.remove path)).run (w, row) =
      (.ok (), w.dropItems relation row.id fun item =>
        expr.Holds (.ofItems relation) item.subject, row) := by
  have hremove : (apply setting (.remove path) : Step Tables type Unit) =
      (owner >>= fun id => Step.lift (removeItems id relation p)) := apply_of_target rfl htarget
  rw [hremove, owner_lift_run, removeItems_run hsound,
    selectBy_eq_filter fun item _ => Filter.evaluate_compileItems hfilter item,
    Filter.picks_compileItems hfilter]
  rfl

end Patch

/-- At every point of every patch that is asked of a directory that can be reached, a removal at a
relation with a filter succeeds. The resource at hand keeps exactly those items of the relation of
which the filter does not hold, as they were and in their order, so that the filter finds none; and
nothing else changes, whether or not there was anything to remove. -/
theorem filtered_removal_is_exact (d : Directory) (history : List (Instant × Command))
    {type : ResourceType} (row : Row type) (earlier : List Operation) (w : World Tables)
    (current : Row type) (path attr : String) (expr : Expr) (relation : Relation) (p : Predicate)
    (hfind : (d.serveAll history (World.fresh Tables.empty)).store.find? type row.id = some row)
    (hearlier : (Patch.applyAll d.setting earlier).run
      (d.serveAll history (World.fresh Tables.empty), row) = (.ok (), w, current))
    (hpath : d.parser .path path = .ok (.valuePath attr expr none))
    (hattr : (AttributeTable.ofType type).resolve attr = .ok (.relation relation))
    (hfilter : Filter.compileItems relation expr = .ok p) :
    let result := (Patch.apply d.setting (.remove path)).run (w, current)
    result.1 = .ok () ∧
      result.2.1.store.ownedItems current.id relation =
        (w.store.ownedItems current.id relation).filter
          (fun item => ¬expr.Holds (.ofItems relation) item.subject) ∧
      result.2.1.store.queryItems relation current.id (some p) = .ok [] ∧
      Patch.ChangesOnly relation (w, current) result.2 := by
  intro result
  obtain ⟨hsound, -⟩ := Patch.sound_applyAll
    (Directory.serveAll_sound (Tables.sound_empty 0) history) hfind hearlier
  let test : ItemRow → Bool := fun item => expr.Holds (.ofItems relation) item.subject
  have hresult : result = (.ok (), w.dropItems relation current.id test, current) :=
    Patch.remove_selected hsound hfilter (Target.ofPath_of_filter hpath hattr hfilter)
  have hkept := Patch.ownedItems_dropItems w relation current.id test
  have htested (item : ItemRow) : p.evaluate item.view = .ok (test item) :=
    Filter.evaluate_compileItems hfilter item
  rw [hresult]
  refine ⟨rfl, ?_, ?_, Patch.changesOnly_dropItems test⟩
  · simpa only [test, decide_not] using hkept
  · dsimp only [Tables.queryItems, selectWhere]
    rw [selectBy_eq_filter fun item _ => htested item, hkept, List.filter_filter]
    simp

/-- Of three mail addresses the two for work are removed, however the type is written. -/
theorem filtered_removal_is_exact_of_work_mails :
    let d : Directory := ⟨.standard, [], Filter.parse⟩
    let mail (value type : String) : MultiValue :=
      { MultiValue.ofValue value with type := some type }
    let user : User := { User.named "alice" with
      values := fun c => if c = .emails then
        [mail "a@example.org" "work", mail "b@example.org" "home", mail "c@example.org" "Work"]
        else [] }
    let w := d.serveAll [(.ofSeconds 0, @Command.create .user none user)]
      (World.fresh Tables.empty)
    let path := "EMAILS[type eq \"WORK\"]"
    let expr : Expr := .compare "type" .eq (.text "WORK")
    d.parser .path path = .ok (.valuePath "EMAILS" expr none) ∧
      (∃ p, Filter.compileItems (.values .emails) expr = .ok p) ∧
      ∃ row : Row .user, w.store.find? .user (.numbered 1) = some row ∧
        let result := (Patch.apply d.setting (.remove path)).run (w, row)
        result.1 = .ok () ∧ Patch.ChangesOnly (.values .emails) (w, row) result.2 ∧
          (result.2.1.store.ownedItems row.id (.values .emails)).map ItemRow.value =
            [some "b@example.org"] := by
  intro d mail user w path expr
  have hw : d.serveAll [(.ofSeconds 0, @Command.create .user none user)]
    (World.fresh Tables.empty) = w := rfl
  have hpath : d.parser .path path = .ok (.valuePath "EMAILS" expr none) := by decide +kernel
  have hattr : (AttributeTable.ofType .user).resolve "EMAILS" = .ok (.relation (.values .emails)) := by
    decide +kernel
  have hfilter : Filter.compileItems (.values .emails) expr =
      .ok (.equals .type (.text "WORK") true) := rfl
  have hsome : (w.store.find? .user (.numbered 1)).isSome = true := by
    rw [← hw]
    decide +kernel
  obtain ⟨row, hfind⟩ := Option.isSome_iff_exists.mp hsome
  have hid : row.id = Uuid.numbered 1 := Tables.id_of_find? hfind
  have hmails : ((w.store.ownedItems (.numbered 1) (.values .emails)).filter
      fun item => ¬expr.Holds (.ofItems (.values .emails)) item.subject).map ItemRow.value =
        [some "b@example.org"] := by
    rw [← hw]
    decide +kernel
  refine ⟨hpath, ⟨_, hfilter⟩, row, hfind, ?_⟩
  obtain ⟨hok, hkept, -, honly⟩ := filtered_removal_is_exact d _ row [] w row path "EMAILS" expr
    (.values .emails) _ (hid ▸ hfind) rfl hpath hattr hfilter
  exact ⟨hok, honly, hkept ▸ hid ▸ hmails⟩

end ScimDirectory
