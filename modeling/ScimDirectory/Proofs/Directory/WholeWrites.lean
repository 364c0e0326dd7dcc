import ScimDirectory.Proofs.Directory.Derived

/-!
# Writes of whole resources

A creation or a replacement makes all its checks before its one write, and nothing that follows the
write can fail but a hook. So it is refused with everything as it was, or it leaves what it leaves
in a directory without hooks. Then the hooks run in order, up to the first that fails.
-/

namespace ScimDirectory

namespace Hook

variable {type : ResourceType} {resource : Resource type} {hooks : List Hook}

/-- Whether a hook fails on a resource. -/
def fails (resource : Resource type) (hook : Hook) : Bool := (hook.after resource).failure.isSome

/-- The hooks that get to see a resource: all up to the first that fails, and this one. -/
def invoked (resource : Resource type) (hooks : List Hook) : List Hook :=
  hooks.take (hooks.findIdx (fails resource) + 1)

/-- The first failure, as it is reported. -/
def firstFailure? (resource : Resource type) (hooks : List Hook) : Option DirectoryError :=
  hooks.findSome? fun hook => (hook.after resource).failure.map hook.report

/-- A run leaves the notes of the hooks that it invokes, and answers with the first failure. -/
theorem run_eq (resource : Resource type) (hooks : List Hook) :
    run resource hooks =
      ((invoked resource hooks).filterMap fun hook => (hook.after resource).note,
        match firstFailure? resource hooks with
        | some error => .error error
        | none => .ok ()) := by
  induction hooks with
  | nil => rfl
  | cons hook hooks ih =>
    have hnotes : ∀ hooks : List Hook,
        (hook :: hooks).filterMap (fun hook => (hook.after resource).note) =
          (hook.after resource).note.toList ++
            hooks.filterMap fun hook => (hook.after resource).note := by
      intro hooks
      rw [List.filterMap_cons]
      cases (hook.after resource).note <;> rfl
    rw [run]
    cases hfailure : (hook.after resource).failure with
    | some error =>
      have hfails : fails resource hook = true := by rw [fails, hfailure]; rfl
      simp [invoked, firstFailure?, List.findIdx_cons, hfails, hfailure, hnotes]
    | none =>
      have hpasses : fails resource hook = false := by rw [fails, hfailure]; rfl
      simp [ih, invoked, firstFailure?, List.findIdx_cons, hpasses, hfailure, hnotes]

/-- A failure is reported as that of a hook. -/
theorem exists_report_eq (hook : Hook) (error : DirectoryError) :
    ∃ detail, hook.report error = .hook detail := by
  unfold report
  split
  · exact ⟨_, rfl⟩
  · exact ⟨_, rfl⟩

/-- What a run of hooks reports is the failure of a hook. -/
theorem hook_of_firstFailure? {error : DirectoryError}
    (h : firstFailure? resource hooks = some error) : ∃ detail, error = .hook detail := by
  obtain ⟨hook, -, hreport⟩ := List.exists_of_findSome?_eq_some h
  obtain ⟨failure, -, rfl⟩ := Option.map_eq_some_iff.mp hreport
  exact hook.exists_report_eq failure

end Hook

/-- Whether a command writes a whole resource. -/
def Command.WritesWhole : Command → Prop
  | .create .. | .replace .. => True
  | _ => False

namespace Directory

/-- The same directory without hooks. -/
def withoutHooks (d : Directory) : Directory := { d with config := { d.config with hooks := [] } }

variable {d : Directory} {type : ResourceType} {w : World Tables}

/-- How a use that writes a whole resource ends, told by how it ends without hooks. -/
inductive Ends (d : Directory) (w : World Tables)
    (bare : Except DirectoryError (Resource type) × World Tables) :
    Except DirectoryError (Resource type) × World Tables → Prop where
  /-- It is refused, and nothing is stored. -/
  | refused {error : DirectoryError} {draws : Nat} (hkind : ∀ detail, error ≠ .hook detail) :
      Ends d w bare (.error error, { w with draws })
  /-- The resource is stored, and the hooks run on it. -/
  | stored {shown : Resource type} {done : World Tables} (hnotes : done.notes = w.notes)
      (hbare : bare = (.ok shown, done)) : Ends d w bare (d.hooked shown done)

/-- Without hooks a resource that is stored is the answer. -/
theorem hooked_withoutHooks (d : Directory) (resource : Resource type) (w : World Tables) :
    d.withoutHooks.hooked resource w = (.ok resource, w) := by
  show ((.ok resource : Except DirectoryError (Resource type)), { w with notes := w.notes ++ [] }) =
    (.ok resource, w)
  rw [List.append_nil]

/-- A resource that is stored is shown, and then the hooks run. -/
theorem answered_ends (d : Directory) (record : Record type) {done : World Tables}
    (hnotes : done.notes = w.notes) :
    Ends d w (d.withoutHooks.answered record done) (d.answered record done) := by
  obtain ⟨shown, hshown⟩ := d.exists_shown done.store record
  have hbare : d.withoutHooks.shown done.store record = .ok shown := by
    cases type <;> exact hshown
  unfold answered
  rw [hshown, hbare]
  exact .stored hnotes (d.hooked_withoutHooks shown done)

theorem create_ends (d : Directory) (now : Instant) (given : Option Uuid) (resource : Resource type)
    (w : World Tables) :
    Ends d w ((d.withoutHooks.create now given resource).run w)
      ((d.create now given resource).run w) := by
  have hrecord : d.withoutHooks.recordOf resource (keyFor given w) now now w.draws =
      d.recordOf resource (keyFor given w) now now w.draws := by
    cases type <;> rfl
  have hview : ∀ record : Record type, d.withoutHooks.newView record = d.newView record := by
    cases type <;> exact fun _ => rfl
  rw [create_run, create_run, hrecord]
  split
  · exact .refused nofun
  · split
    · exact .refused nofun
    · rw [hview]
      exact .stored rfl (d.hooked_withoutHooks _ _)

theorem replace_ends (d : Directory) (now : Instant) (id : String) (resource : Resource type)
    (ifMatch : Option String) (w : World Tables) :
    Ends d w ((d.withoutHooks.replace now id resource ifMatch).run w)
      ((d.replace now id resource ifMatch).run w) := by
  have hrecord : ∀ uuid created, d.withoutHooks.recordOf resource uuid created now w.draws =
      d.recordOf resource uuid created now w.draws := by
    cases type <;> exact fun _ _ => rfl
  rw [replace_run, replace_run]
  simp only [hrecord]
  split
  · next hid =>
    cases error_of_idOf hid
    exact .refused nofun
  · split
    · exact .refused nofun
    · split
      · exact .refused nofun
      · split
        · next hcheck =>
          obtain ⟨_, rfl⟩ | ⟨_, rfl⟩ := error_of_checkPrecondition hcheck
          · exact .refused nofun
          · exact .refused nofun
        · split
          · exact .refused nofun
          · exact d.answered_ends _ rfl

/-- What was stored answers with the first failure of its hooks, or else with the resource. -/
theorem hooked_eq (d : Directory) (shown : Resource type) (done : World Tables) :
    d.hooked shown done =
      (match Hook.firstFailure? shown d.config.hooks with
        | some error => .error error
        | none => .ok shown,
        { done with notes := done.notes ++
            (Hook.invoked shown d.config.hooks).filterMap fun hook => (hook.after shown).note }) := by
  rw [hooked, Hook.run_eq]
  cases Hook.firstFailure? shown d.config.hooks <;> rfl

/-- A command that writes a whole resource is the creation or the replacement that it asks for. -/
theorem serve_ends (d : Directory) (now : Instant) {command : Command}
    (hwhole : command.WritesWhole) (w : World Tables) :
    ∃ (type : ResourceType) (bare run : Except DirectoryError (Resource type) × World Tables),
      d.withoutHooks.serve now command w = (bare.1.map .resource, bare.2) ∧
      d.serve now command w = (run.1.map .resource, run.2) ∧ Ends d w bare run := by
  cases command with
  | create given resource =>
    exact ⟨_, _, _, run_bind_pure _ Reply.resource w, run_bind_pure _ Reply.resource w,
      d.create_ends now given resource w⟩
  | replace id resource ifMatch =>
    exact ⟨_, _, _, run_bind_pure _ Reply.resource w, run_bind_pure _ Reply.resource w,
      d.replace_ends now id resource ifMatch w⟩
  | get | delete | patch | search => exact hwhole.elim

end Directory

/-- A creation or a replacement, in any state, is refused with everything as it was and no hook
invoked, or it leaves stored what it would leave without hooks. Then the hooks are invoked in order,
up to the first that fails: their notes are added, and the answer is the resource or this failure. -/
theorem whole_writes_are_all_or_nothing (d : Directory) (now : Instant) {command : Command}
    (hwhole : command.WritesWhole) {w after : World Tables} {answer : Except DirectoryError Reply}
    (h : d.serve now command w = (answer, after)) :
    (∀ error, answer = .error error → (∀ detail, error ≠ .hook detail) →
      after.store = w.store ∧ after.notes = w.notes) ∧
    (∀ detail, answer = .error (.hook detail) →
      after.store = (d.withoutHooks.serve now command w).2.store) ∧
    ((∀ error, answer = .error error → ∃ detail, error = .hook detail) →
      ∃ (type : ResourceType) (shown : Resource type),
        (d.withoutHooks.serve now command w).1 = .ok (.resource shown) ∧
        after.store = (d.withoutHooks.serve now command w).2.store ∧
        after.notes = w.notes ++
          (Hook.invoked shown d.config.hooks).filterMap (fun hook => (hook.after shown).note) ∧
        answer = match Hook.firstFailure? shown d.config.hooks with
          | some error => .error error
          | none => .ok (.resource shown)) := by
  obtain ⟨type, bare, run, hbare, hrun, hends⟩ := d.serve_ends now hwhole w
  rw [hbare]
  cases hrun.symm.trans h
  cases hends with
  | refused hkind =>
    refine ⟨fun _ _ _ => ⟨rfl, rfl⟩, fun detail hhook => ?_, fun hhook => ?_⟩
    · exact absurd (Except.error.inj hhook) (hkind detail)
    · obtain ⟨detail, hdetail⟩ := hhook _ rfl
      exact absurd hdetail (hkind detail)
  | @stored shown done hnotes hstored =>
    subst hstored
    rw [Directory.hooked_eq]
    refine ⟨fun error herror hkind => ?_, fun _ _ => rfl, fun _ => ⟨type, shown, rfl, rfl, ?_, ?_⟩⟩
    · cases hfailure : Hook.firstFailure? shown d.config.hooks with
      | none =>
        rw [hfailure] at herror
        cases herror
      | some failure =>
        rw [hfailure] at herror
        cases herror
        obtain ⟨detail, rfl⟩ := Hook.hook_of_firstFailure? hfailure
        exact absurd rfl (hkind detail)
    · exact congrArg (· ++ _) hnotes
    · cases Hook.firstFailure? shown d.config.hooks <;> rfl

/-- Of three hooks the second fails on a new user: the user is stored, and the third hook does not
see it. A user whose name is taken is refused, and no hook sees it. -/
theorem whole_writes_are_all_or_nothing_of_failing_hook :
    let hook (name part : String) : Hook :=
      Hook.watching name part fun _ => some (.internal "no space")
    let d : Directory :=
      ⟨{ Config.standard with hooks := [hook "log" "carol", hook "photos" "bob", hook "mail" "bob"] },
        [], Filter.parse⟩
    let create (name : String) : Command := @Command.create .user none (User.named name)
    ∃ w taken failed, d.serveAll [(.ofSeconds 0, create "alice")] (World.fresh Tables.empty) = w ∧
      d.serve (.ofSeconds 1) (create "alice") w = (.error (.storage
        (.constraint "users" "userName 'alice' already exists")), taken) ∧
      taken.store = w.store ∧ taken.notes = w.notes ∧
      d.serve (.ofSeconds 1) (create "bob") w =
        (.error (.hook "photos: Internal server error: no space"), failed) ∧
      failed.store = (d.withoutHooks.serve (.ofSeconds 1) (create "bob") w).2.store ∧
      failed.store ≠ w.store ∧
      failed.notes = w.notes ++ ["log:user:bob", "photos:user:bob"] := by
  intro hook d create
  obtain ⟨w, hw⟩ : ∃ w, d.serveAll [(.ofSeconds 0, create "alice")] (World.fresh Tables.empty) = w :=
    ⟨_, rfl⟩
  have htaken : (d.serve (.ofSeconds 1) (create "alice") w).1.map (fun _ => ()) =
      .error (.storage (.constraint "users" "userName 'alice' already exists")) := by
    rw [← hw]
    decide +kernel
  have hfailed : (d.serve (.ofSeconds 1) (create "bob") w).1.map (fun _ => ()) =
      .error (.hook "photos: Internal server error: no space") := by
    rw [← hw]
    decide +kernel
  have hgrown : ((d.serve (.ofSeconds 1) (create "bob") w).2.store.rows .user).length ≠
      (w.store.rows .user).length := by
    rw [← hw]
    decide +kernel
  have hnoted : (d.serve (.ofSeconds 1) (create "bob") w).2.notes =
      w.notes ++ ["log:user:bob", "photos:user:bob"] := by
    rw [← hw]
    decide +kernel
  have halice := Prod.fst_eq_iff.mp (except_map_eq_error.mp htaken)
  have hbob := Prod.fst_eq_iff.mp (except_map_eq_error.mp hfailed)
  have hwhole : ∀ name, (create name).WritesWhole := fun _ => trivial
  obtain ⟨hrefused, -, -⟩ := whole_writes_are_all_or_nothing d _ (hwhole "alice") halice
  obtain ⟨-, hkept, -⟩ := whole_writes_are_all_or_nothing d _ (hwhole "bob") hbob
  obtain ⟨hstore, hnotes⟩ := hrefused _ rfl nofun
  exact ⟨w, _, _, hw, halice, hstore, hnotes, hbob, hkept _ rfl,
    fun hsame => hgrown (by rw [hsame]), hnoted⟩

end ScimDirectory
