import ScimDirectory.Patch.Apply
import ScimDirectory.Proofs.Directory.Runs
import ScimDirectory.Proofs.Filter.Echoes

/-!
# Paths in any letter case

Attribute names mean the same in any letter case. Expressions that differ in the letter case of
names have the same predicates, paths that do have the same target, and an operation does the same
through either path, whatever the storage. What is refused is refused for the same reason, and the
errors differ in the letter case of the texts that they quote at most.
-/

namespace ScimDirectory

/-- The target with the name of a complex attribute in small letters. -/
def Target.lowered : Target → Target
  | .complex parent => .complex (Text.lowered parent)
  | target => target

/-- The error with the texts that it quotes from a path in small letters. -/
def PatchError.lowered : PatchError → PatchError
  | .invalidPath path error => .invalidPath (Text.lowered path) error.lowered
  | .lookup error => .lookup error.lowered
  | .filter error => .filter error.lowered
  | .readOnly attr => .readOnly (Text.lowered attr)
  | .invalidValue attr detail => .invalidValue (Text.lowered attr) detail
  | .missingFilter attr => .missingFilter (Text.lowered attr)
  | error => error

/-- The error with the texts that it quotes from a path in small letters. -/
def DirectoryError.lowered : DirectoryError → DirectoryError
  | .patch error => .patch error.lowered
  | error => error

namespace Target

/-- What is told of an attempt to find a target. -/
def told (answer : Except PatchError Target) : Except PatchError Target :=
  (answer.map lowered).mapError PatchError.lowered

variable {type : ResourceType} {relation : Relation}

theorem root_lowered (attr : String) : root (Text.lowered attr) = Text.lowered (root attr) := by
  rw [root, root, splitAtDot_lowered]
  cases splitAtDot attr <;> rfl

theorem readOnly_lowered (attr : String) :
    readOnly.any (Text.sameLetters · (root (Text.lowered attr))) =
      readOnly.any (Text.sameLetters · (root attr)) := by
  simp only [root_lowered, Text.sameLetters_lowered_right]

/-- An attribute that the server owns is refused, whatever is asked of it. -/
theorem ofParts_of_readOnly {attr : String}
    (h : readOnly.any (Text.sameLetters · (root attr)) = true) (filter : Option Expr)
    (sub : Option String) : ofParts type attr filter sub = .error (.readOnly attr) := by
  unfold ofParts
  exact if_pos h

theorem subField_lowered (sub : String) :
    (subField relation (Text.lowered sub)).mapError PatchError.lowered =
      (subField relation sub).mapError PatchError.lowered := by
  rw [subField, subField, AttributeTable.field?_lowered]
  cases (AttributeTable.ofItems relation).field? sub with
  | some found => rfl
  | none => simp [Except.mapError, PatchError.lowered, LookupError.lowered]

/-- Items are selected alike by a filter and a sub-attribute in small letters. -/
theorem ofItems_lowered (filter : Option Expr) (sub : Option String) :
    (ofItems relation (filter.map Expr.lowered) (sub.map Text.lowered)).mapError
        PatchError.lowered =
      (ofItems relation filter sub).mapError PatchError.lowered := by
  have hfilter (expr : Expr) :
      ((Filter.compileItems relation expr.lowered).mapError PatchError.filter).mapError
          PatchError.lowered =
        ((Filter.compileItems relation expr).mapError PatchError.filter).mapError
          PatchError.lowered := by
    obtain ⟨p, hsmall, hexpr⟩ | ⟨e, e', hsmall, hexpr, hsame⟩ :=
      cases_of_mapError_eq (Filter.compileItems_lowered relation expr)
    · rw [hsmall, hexpr]
    · rw [hsmall, hexpr]
      exact congrArg (fun error => Except.error (PatchError.filter error)) hsame
  exact mapError_bind_congr (mapError_mapM_option_map hfilter filter) fun _ =>
    mapError_bind_congr (mapError_mapM_option_map subField_lowered sub) fun _ => rfl

/-- Names in small letters point at what the names point at. -/
theorem ofParts_lowered (attr : String) (filter : Option Expr) (sub : Option String) :
    told (ofParts type (Text.lowered attr) (filter.map Expr.lowered) (sub.map Text.lowered)) =
      told (ofParts type attr filter sub) := by
  have hsome : (filter.map Expr.lowered).isSome = filter.isSome := Option.isSome_map
  unfold ofParts
  dsimp only
  rw [readOnly_lowered, AttributeTable.field?_lowered, AttributeTable.isComplex_lowered, hsome]
  split
  · simp [told, Except.map, Except.mapError, PatchError.lowered]
  · split
    · split <;>
        simp [told, Except.map, Except.mapError, PatchError.lowered, LookupError.lowered, lowered]
    · obtain ⟨resolved, hsmall, hname⟩ | ⟨e, e', hsmall, hname, hsame⟩ :=
        cases_of_mapError_eq ((AttributeTable.ofType type).resolve_lowered attr)
      · rw [hsmall, hname]
        cases resolved with
        | field found => rfl
        | relation relation => exact mapError_map_congr (ofItems_lowered filter sub) lowered
        | itemField relation found =>
          simp [told, Except.map, Except.mapError, PatchError.lowered]
      · rw [hsmall, hname]
        exact congrArg (fun error => Except.error (PatchError.lookup error)) hsame

/-- What an expression that a path is read as points at. -/
def ofExpr (type : ResourceType) (path : String) : Expr → Except PatchError Target
  | .path attr sub => ofParts type attr none sub
  | .valuePath attr filter sub => ofParts type attr (some filter) sub
  | _ => .error (.invalidPath path (.fault .notAPath 0))

theorem ofPath_of_ok {parser : Filter.Parser} {path : String} {expr : Expr}
    (hread : parser .path path = .ok expr) : ofPath parser type path = ofExpr type path expr := by
  unfold ofPath
  rw [hread]
  cases expr <;> rfl

theorem ofPath_of_error {parser : Filter.Parser} {path : String} {error : SyntaxError}
    (hread : parser .path path = .error error) :
    ofPath parser type path = .error (.invalidPath path error) := by
  unfold ofPath
  rw [hread]

theorem ofExpr_lowered (path : String) (expr : Expr) :
    told (ofExpr type (Text.lowered path) expr.lowered) = told (ofExpr type path expr) := by
  cases expr with
  | path attr sub =>
    rw [Expr.lowered, ofExpr, ofExpr]
    exact ofParts_lowered attr none sub
  | valuePath attr filter sub =>
    rw [Expr.lowered, ofExpr, ofExpr]
    exact ofParts_lowered attr (some filter) sub
  | _ => simp [ofExpr, Expr.lowered, told, Except.map, Except.mapError, PatchError.lowered]

/-- Paths that differ in letter case, and are read as expressions that do, have the same target. -/
theorem told_congr {parser : Filter.Parser} {path path' : String}
    (hletters : Text.lowered path = Text.lowered path')
    (hread : ((parser .path path).map Expr.lowered).mapError SyntaxError.lowered =
      ((parser .path path').map Expr.lowered).mapError SyntaxError.lowered) :
    told (ofPath parser type path) = told (ofPath parser type path') := by
  obtain ⟨small, hpath, hpath'⟩ | ⟨error, error', hpath, hpath', hsame⟩ :=
    cases_of_mapError_eq hread
  · obtain ⟨expr, hexpr, rfl⟩ := except_map_eq_ok.mp hpath
    obtain ⟨expr', hexpr', hsame⟩ := except_map_eq_ok.mp hpath'
    rw [ofPath_of_ok hexpr, ofPath_of_ok hexpr', ← ofExpr_lowered, ← ofExpr_lowered path', hletters,
      hsame]
  · rw [ofPath_of_error (except_map_eq_error.mp hpath),
      ofPath_of_error (except_map_eq_error.mp hpath')]
    simp only [told, Except.map, Except.mapError, PatchError.lowered, hletters, hsame]

/-- Targets that are the same in small letters are the same, or complex attributes whose names are
the same in small letters. -/
theorem cases_of_lowered_eq {target target' : Target} (h : target.lowered = target'.lowered) :
    target = target' ∨ ∃ parent parent', target = .complex parent ∧ target' = .complex parent' ∧
      Text.lowered parent = Text.lowered parent' := by
  cases target <;> cases target' <;> simp_all [lowered]

/-- Of paths that are told alike, one is refused as read-only when the other is. -/
theorem exists_readOnly {answer answer' : Except PatchError Target} {attr : String}
    (htold : told answer = told answer') (h : answer = .error (.readOnly attr)) :
    ∃ attr', Text.lowered attr' = Text.lowered attr ∧ answer' = .error (.readOnly attr') := by
  subst h
  obtain ⟨_, herror, -⟩ | ⟨_, error', herror, hanswer', hsame⟩ := cases_of_mapError_eq htold
  · cases herror
  · cases herror
    cases error' <;> simp_all [PatchError.lowered, except_map_eq_error]

end Target

namespace Patch

variable {σ α β : Type} {type : ResourceType}

/-- Steps that leave the same and answer the same, up to the letter case of what errors quote. -/
def Step.Agree (x y : Step σ type α) : Prop :=
  ∀ s, (x.run s).2 = (y.run s).2 ∧
    (x.run s).1.mapError DirectoryError.lowered = (y.run s).1.mapError DirectoryError.lowered

namespace Step

theorem Agree.refl (x : Step σ type α) : Agree x x := fun _ => ⟨rfl, rfl⟩

/-- A step may start with either of two checks that tell alike. -/
theorem agree_check {answer answer' : Except PatchError α}
    (h : answer.mapError PatchError.lowered = answer'.mapError PatchError.lowered)
    {f g : α → Step σ type β} (hfg : ∀ a, Agree (f a) (g a)) :
    Agree (check .patch answer >>= f) (check .patch answer' >>= g) := by
  obtain ⟨a, rfl, rfl⟩ | ⟨error, error', rfl, rfl, hsame⟩ := cases_of_mapError_eq h
  · exact hfg a
  · exact fun s => ⟨rfl, congrArg (fun error => Except.error (DirectoryError.patch error)) hsame⟩

end Step

variable {parent parent' : String}

/-- The columns of a complex attribute do not depend on how a path names it. -/
theorem complexFields_congr (h : Text.lowered parent = Text.lowered parent') :
    complexFields type parent = complexFields type parent' := by
  have hlowered (parent : String) :
      complexFields type (Text.lowered parent) = complexFields type parent := by
    simp only [complexFields, Text.sameLetters_lowered_right]
  rw [← hlowered, h, hlowered]

/-- Nor do the updates of these columns. -/
theorem complexUpdates_congr (h : Text.lowered parent = Text.lowered parent') (value : Json) :
    (complexUpdates type parent value).mapError PatchError.lowered =
      (complexUpdates type parent' value).mapError PatchError.lowered := by
  have hfield (name : String) : (AttributeTable.ofType type).field? (parent ++ "." ++ name) =
      (AttributeTable.ofType type).field? (parent' ++ "." ++ name) := by
    rw [← AttributeTable.field?_lowered, ← AttributeTable.field?_lowered _ (parent' ++ _ ++ _),
      Text.lowered_append, Text.lowered_append, h, Text.lowered_append, Text.lowered_append]
  cases value with
  | object members =>
    refine mapError_mapM_congr (fun (name, value) => ?_) members
    dsimp only
    rw [hfield]
    cases (AttributeTable.ofType type).field? (parent' ++ "." ++ name) with
    | some field => rfl
    | none =>
      simp only [memberUpdate, Except.mapError, PatchError.lowered, LookupError.lowered, h]
  | _ => simp only [complexUpdates, Except.mapError, PatchError.lowered, h]

variable {setting : Setting} {path path' : String}

/-- Applying values at targets does not depend on how a path names a complex attribute. -/
def IgnoresNames (apply : Target → Json → Step σ type Unit) : Prop :=
  ∀ {target target' : Target}, target.lowered = target'.lowered →
    ∀ value, Step.Agree (apply target value) (apply target' value)

/-- A value is applied alike at paths that have the same target. -/
theorem applyAt_agree {apply : Target → Json → Step σ type Unit} (happly : IgnoresNames apply)
    (h : Target.told (Target.ofPath setting.parser type path) =
      Target.told (Target.ofPath setting.parser type path')) (value : Json) :
    Step.Agree (applyAt setting apply path value) (applyAt setting apply path' value) := by
  unfold applyAt
  obtain ⟨small, hpath, hpath'⟩ | ⟨error, error', hpath, hpath', hsame⟩ := cases_of_mapError_eq h
  · obtain ⟨target, htarget, rfl⟩ := except_map_eq_ok.mp hpath
    obtain ⟨target', htarget', hsame⟩ := except_map_eq_ok.mp hpath'
    rw [htarget, htarget']
    exact happly hsame.symm value
  · rw [except_map_eq_error.mp hpath, except_map_eq_error.mp hpath']
    exact fun s => ⟨rfl, congrArg (fun error => Except.error (DirectoryError.patch error)) hsame⟩

variable [Storage σ]

theorem addTo_ignoresNames :
    IgnoresNames (addTo setting : Target → Json → Step σ type Unit) := by
  intro target target' h value
  obtain rfl | ⟨parent, parent', rfl, rfl, hparent⟩ := Target.cases_of_lowered_eq h
  · exact .refl _
  · unfold addTo
    split
    · exact .refl _
    · exact Step.agree_check (complexUpdates_congr hparent value) fun _ => .refl _

theorem removeAt_ignoresNames :
    IgnoresNames fun target _ => (removeAt target : Step σ type Unit) := by
  intro target target' h value
  obtain rfl | ⟨parent, parent', rfl, rfl, hparent⟩ := Target.cases_of_lowered_eq h
  · exact .refl _
  · dsimp only [removeAt]
    rw [complexFields_congr hparent]
    exact .refl _

theorem replaceAt_ignoresNames :
    IgnoresNames (replaceAt setting : Target → Json → Step σ type Unit) := by
  intro target target' h value
  obtain rfl | ⟨parent, parent', rfl, rfl, hparent⟩ := Target.cases_of_lowered_eq h
  · exact .refl _
  · dsimp only [replaceAt]
    rw [complexFields_congr hparent]
    split
    · exact .refl _
    · exact Step.agree_check (complexUpdates_congr hparent value) fun _ => .refl _

/-- An operation does the same through paths that have the same target. -/
theorem apply_agree (kind : OperationKind) (value : Json)
    (h : Target.told (Target.ofPath setting.parser type path) =
      Target.told (Target.ofPath setting.parser type path')) :
    Step.Agree (apply setting ⟨kind, some path, value⟩ : Step σ type Unit)
      (apply setting ⟨kind, some path', value⟩) := by
  cases kind with
  | add => exact applyAt_agree addTo_ignoresNames h value
  | replace => exact applyAt_agree replaceAt_ignoresNames h value
  | remove => exact applyAt_agree removeAt_ignoresNames h value

/-- A path that is refused does nothing. -/
theorem apply_run_of_refused {error : PatchError}
    (h : Target.ofPath setting.parser type path = .error error) (kind : OperationKind)
    (value : Json) (w : World σ) (row : Row type) :
    (apply setting ⟨kind, some path, value⟩).run (w, row) = (.error (.patch error), w, row) := by
  cases kind <;>
    · dsimp only [apply, add, remove, replace, applyValue, applyAt]
      rw [h]
      rfl

end Patch

/-- Attribute names mean the same in any letter case. Expressions that differ in the letter case of
names compile, for every scope and every relation, to the same predicates, or are refused for the
same reason. Paths that differ in the letter case of names and of the schemas before them have the
same target, or are refused for the same reason. An operation through either of them leaves the
same world and the same row at hand, whatever the storage, and answers the same. Where one of the
paths is refused as read-only so is the other, and nothing is done. -/
theorem attribute_names_ignore_letter_case :
    (∀ expr expr' : Expr, expr.lowered = expr'.lowered →
      (∀ wantUsers wantGroups,
        (Filter.compile expr wantUsers wantGroups).mapError FilterError.lowered =
          (Filter.compile expr' wantUsers wantGroups).mapError FilterError.lowered) ∧
      ∀ relation, (Filter.compileItems relation expr).mapError FilterError.lowered =
        (Filter.compileItems relation expr').mapError FilterError.lowered) ∧
    ∀ (limits : Filter.Limits) (type : ResourceType) (path path' : String),
      Filter.Respelled path path' →
      Target.told (Target.ofPath (Filter.parseWithin limits) type path) =
        Target.told (Target.ofPath (Filter.parseWithin limits) type path') ∧
      (∀ (σ : Type) [Storage σ] (root : ServiceRoot) (kind : OperationKind) (value : Json),
        Patch.Step.Agree
          (Patch.apply ⟨Filter.parseWithin limits, root⟩ ⟨kind, some path, value⟩ :
            Patch.Step σ type Unit)
          (Patch.apply ⟨Filter.parseWithin limits, root⟩ ⟨kind, some path', value⟩)) ∧
      ∀ attr, Target.ofPath (Filter.parseWithin limits) type path = .error (.readOnly attr) →
        ∃ attr', Text.lowered attr' = Text.lowered attr ∧
          Target.ofPath (Filter.parseWithin limits) type path' = .error (.readOnly attr') ∧
          ∀ (σ : Type) [Storage σ] (root : ServiceRoot) (kind : OperationKind) (value : Json)
            (w : World σ) (row : Row type),
            (Patch.apply ⟨Filter.parseWithin limits, root⟩ ⟨kind, some path', value⟩).run (w, row) =
              (.error (.patch (.readOnly attr')), w, row) := by
  refine ⟨fun expr expr' hsame => ⟨fun wantUsers wantGroups => ?_, fun relation => ?_⟩,
    fun limits type path path' hrespelled => ?_⟩
  · rw [← Filter.compile_lowered, hsame, Filter.compile_lowered]
  · rw [← Filter.compileItems_lowered, hsame, Filter.compileItems_lowered]
  · have htold : Target.told (Target.ofPath (Filter.parseWithin limits) type path) =
        Target.told (Target.ofPath (Filter.parseWithin limits) type path') :=
      Target.told_congr hrespelled.lowered_eq (hrespelled.parseWithin_told limits .path)
    refine ⟨htold, fun σ _ root kind value => Patch.apply_agree kind value htold,
      fun attr hpath => ?_⟩
    obtain ⟨attr', hsame, hpath'⟩ := Target.exists_readOnly htold hpath
    exact ⟨attr', hsame, hpath', fun σ _ root kind value =>
      Patch.apply_run_of_refused hpath' kind value⟩

/-- Two filters for the kind of an e-mail address, two paths to its value, and two paths to a time
that only the server may set. -/
theorem attribute_names_ignore_letter_case_of_emails :
    (Filter.compile (.compare "EMAILS.Type" .eq (.text "Work")) true false).mapError
        FilterError.lowered =
      (Filter.compile (.compare "emails.type" .eq (.text "Work")) true false).mapError
        FilterError.lowered ∧
    Target.told (Target.ofPath (Filter.parseWithin .standard) .user
        "EMAILS[Type eq \"Work\"].VALUE") =
      Target.told (Target.ofPath (Filter.parseWithin .standard) .user
        "emails[type eq \"Work\"].value") ∧
    Target.ofPath (Filter.parseWithin .standard) .user "meta.created" =
      .error (.readOnly "meta.created") ∧
    ∃ attr, Text.lowered attr = Text.lowered "meta.created" ∧
      Target.ofPath (Filter.parseWithin .standard) .user "META.Created" =
        .error (.readOnly attr) := by
  obtain ⟨hexpr, hpath⟩ := attribute_names_ignore_letter_case
  have hsame : (Expr.compare "EMAILS.Type" .eq (.text "Work")).lowered =
      (Expr.compare "emails.type" .eq (.text "Work")).lowered := by decide
  have hemails := hpath .standard .user "EMAILS[Type eq \"Work\"].VALUE"
    "emails[type eq \"Work\"].value" (by decide)
  have hmeta := hpath .standard .user "meta.created" "META.Created" (by decide)
  have hread : Filter.parseWithin .standard .path "meta.created" =
      .ok (.path "meta.created" none) := by
    rw [← except_toOption_eq_some]
    decide +kernel
  have hrefused : Target.ofPath (Filter.parseWithin .standard) .user "meta.created" =
      .error (.readOnly "meta.created") := by
    rw [Target.ofPath_of_ok hread, Target.ofExpr]
    exact Target.ofParts_of_readOnly (by decide) none none
  obtain ⟨attr, hattr, hother, -⟩ := hmeta.2.2 "meta.created" hrefused
  exact ⟨(hexpr _ _ hsame).1 true false, hemails.1, hrefused, attr, hattr, hother⟩

end ScimDirectory
