import ScimDirectory.Proofs.Directory.Runs

/-!
# Uses in one piece

Each use of a directory as one decision after the other: what is checked, in which order, which
call changes storage, and what is left when the use ends there. Searching and showing change
nothing.
-/

namespace ScimDirectory.Directory

variable {type : ResourceType}

theorem idOf_eq_ok {id : String} {uuid : Uuid} :
    idOf type id = .ok uuid ↔ Uuid.ofText? id = some uuid := by
  unfold idOf
  cases Uuid.ofText? id <;> simp

/-- An identifier that is no key is refused. -/
theorem idOf_eq_error {id : String} (h : Uuid.ofText? id = none) :
    idOf type id = .error (.notFound type.name id) := by
  unfold idOf
  rw [h]

/-- An identifier that is refused is not found. -/
theorem error_of_idOf {id : String} {error : DirectoryError} (h : idOf type id = .error error) :
    error = .notFound type.name id := by
  unfold idOf at h
  split at h
  · cases h
  · cases h
    rfl

/-- A precondition is refused when it cannot be read or when it fails. -/
theorem error_of_checkPrecondition {ifMatch : Option String} {current : String}
    {error : DirectoryError} (h : checkPrecondition ifMatch current = .error error) :
    (∃ unread, error = .version unread) ∨
      ∃ expected, error = .preconditionFailed expected current := by
  unfold checkPrecondition at h
  split at h
  · cases h
  · split at h
    · cases h
    · split at h
      · cases h
        exact .inl ⟨_, rfl⟩
      · split at h
        · split at h <;> cases h
          exact .inr ⟨_, rfl⟩
        · cases h
          exact .inr ⟨_, rfl⟩

/-- The groups of a user over some tables. -/
def memberships (d : Directory) (tables : Tables) (user : Uuid) :
    Except DirectoryError (Uuid → List GroupRef) :=
  ((tables.query .group (some (hasMember (memberIs [user])))).mapError .storage).map
    (groupRefs d.config.root)

/-- Looking for the groups of a user reads only. -/
theorem groupsOf_run (d : Directory) (user : Uuid) (w : World Tables) :
    (d.groupsOf [user]).run w = (d.memberships w.store user, w) := by
  refine (Action.run_reading_bind _ _ w).trans ?_
  unfold memberships
  cases w.store.query .group (some (hasMember (memberIs [user]))) <;> rfl

/-- A resource as it is shown over some tables. -/
def shown (d : Directory) (tables : Tables) : {type : ResourceType} → Record type →
    Except DirectoryError (Resource type)
  | .user, record => (d.memberships tables (UserRow.id record.row)).map fun groups =>
    userView d.config.root (groups (UserRow.id record.row)) record
  | .group, record => .ok (groupView d.config.root record)

/-- Showing a resource reads only. -/
theorem view_run (d : Directory) (record : Record type) (w : World Tables) :
    (d.view record).run w = (d.shown w.store record, w) := by
  cases type with
  | user =>
    have hgroups := d.groupsOf_run (UserRow.id record.row) w
    unfold shown
    dsimp only
    cases hfound : d.memberships w.store (UserRow.id record.row) with
    | error e =>
      rw [hfound] at hgroups
      exact run_bind_of_error hgroups _
    | ok groups =>
      rw [hfound] at hgroups
      exact run_bind_of_ok hgroups _
  | group => rfl

/-- The end of a use that has written a resource: the hooks run, and the first that fails is the
answer. -/
def hooked (d : Directory) (resource : Resource type) (w : World Tables) :
    Except DirectoryError (Resource type) × World Tables :=
  ((Hook.run resource d.config.hooks).2.map fun _ => resource,
    { w with notes := w.notes ++ (Hook.run resource d.config.hooks).1 })

theorem runHooks_run (d : Directory) (resource : Resource type) (w : World Tables) :
    (do d.runHooks resource; return resource : Action Tables (Resource type)).run w =
      d.hooked resource w := by
  have hrun : (d.runHooks resource : Action Tables Unit).run w =
      ((Hook.run resource d.config.hooks).2,
        { w with notes := w.notes ++ (Hook.run resource d.config.hooks).1 }) := rfl
  unfold hooked
  cases hanswer : (Hook.run resource d.config.hooks).2 with
  | error e =>
    rw [hanswer] at hrun
    exact run_bind_of_error hrun _
  | ok _ =>
    rw [hanswer] at hrun
    exact run_bind_of_ok hrun _

/-- Looking a record up reads only. -/
theorem find_run (uuid : Uuid) (id : String) (w : World Tables) :
    (find type uuid id).run w =
      match w.store.get? type uuid with
      | some record => (.ok record, w)
      | none => (.error (.notFound type.name id), w) := by
  have hget := Action.run_reading_bind (fun tables => .ok (Tables.get? type uuid tables))
    (fun
      | some record => pure record
      | none => throw (.notFound type.name id)) w
  cases hfound : w.store.get? type uuid with
  | none =>
    rw [hfound] at hget
    exact hget
  | some record =>
    rw [hfound] at hget
    exact hget

/-- The key of a resource that is created. -/
def keyFor (given : Option Uuid) (w : World Tables) : Uuid :=
  given.getD (Uuid.numbered (w.issued + 1))

/-- A creation checks the resource, stores it and runs the hooks. -/
theorem create_run (d : Directory) (now : Instant) (given : Option Uuid) (resource : Resource type)
    (w : World Tables) :
    (d.create now given resource).run w =
      match validate resource with
      | .error violation => (.error (.violation violation), w)
      | .ok () =>
        match w.store.insert (d.recordOf resource (keyFor given w) now now w.draws) with
        | .error error => (.error (.storage error), { w with draws := w.draws + 1 })
        | .ok (stored, store) =>
          d.hooked (d.newView stored) { w with
            store, draws := w.draws + 1
            issued := if given.isSome then w.issued else w.issued + 1 } := by
  unfold create
  refine (Action.run_check_bind _ _ _ w).trans ?_
  cases validate resource with
  | error violation => rfl
  | ok _ =>
    refine (Action.run_writing_bind (Tables.call_insert _) _ { w with draws := w.draws + 1 }).trans ?_
    dsimp only
    unfold keyFor
    cases w.store.insert
        (d.recordOf resource (given.getD (Uuid.numbered (w.issued + 1))) now now w.draws) with
    | error e => rfl
    | ok written =>
      cases given with
      | none => exact d.runHooks_run _ _
      | some id => exact d.runHooks_run _ _

/-- What a use ends with once the resource it has written is to be shown. -/
def answered (d : Directory) (record : Record type) (w : World Tables) :
    Except DirectoryError (Resource type) × World Tables :=
  match d.shown w.store record with
  | .error error => (.error error, w)
  | .ok resource => d.hooked resource w

theorem answer_run (d : Directory) (record : Record type) (w : World Tables) :
    (do
      let resource ← d.view record
      d.runHooks resource
      return resource : Action Tables (Resource type)).run w = d.answered record w := by
  have hview := d.view_run record w
  unfold answered
  cases hshown : d.shown w.store record with
  | error e =>
    rw [hshown] at hview
    exact run_bind_of_error hview _
  | ok resource =>
    rw [hshown] at hview
    exact (run_bind_of_ok hview _).trans (d.runHooks_run resource w)

/-- A replacement checks the key, the resource, that it is there and its version, stores it and
runs the hooks. -/
theorem replace_run (d : Directory) (now : Instant) (id : String) (resource : Resource type)
    (ifMatch : Option String) (w : World Tables) :
    (d.replace now id resource ifMatch).run w =
      match idOf type id with
      | .error error => (.error error, w)
      | .ok uuid =>
        match validate resource with
        | .error violation => (.error (.violation violation), w)
        | .ok () =>
          match w.store.get? type uuid with
          | none => (.error (.notFound type.name id), w)
          | some current =>
            match checkPrecondition ifMatch current.row.etag with
            | .error error => (.error error, w)
            | .ok () =>
              match w.store.replace (d.recordOf resource uuid current.row.created now w.draws) with
              | .error error => (.error (.storage error), { w with draws := w.draws + 1 })
              | .ok (stored, store) =>
                d.answered stored { w with store, draws := w.draws + 1 } := by
  unfold replace
  refine (Action.run_ensure_bind _ _ w).trans ?_
  cases idOf type id with
  | error e => rfl
  | ok uuid =>
    refine (Action.run_check_bind _ _ _ w).trans ?_
    cases validate resource with
    | error violation => rfl
    | ok _ =>
      have hfind := @find_run type uuid id w
      dsimp only
      cases hget : w.store.get? type uuid with
      | none =>
        rw [hget] at hfind
        exact run_bind_of_error hfind _
      | some current =>
        rw [hget] at hfind
        refine (run_bind_of_ok hfind _).trans ?_
        refine (Action.run_ensure_bind _ _ w).trans ?_
        dsimp only
        cases checkPrecondition ifMatch current.row.etag with
        | error e => rfl
        | ok _ =>
          refine (Action.run_writing_bind (Tables.call_replace _) _
            { w with draws := w.draws + 1 }).trans ?_
          dsimp only
          cases w.store.replace (d.recordOf resource uuid current.row.created now w.draws) with
          | error e => rfl
          | ok written => exact d.answer_run _ _

/-- What a patch ends with once its operations are applied: the row gets its time and its
version, and the hooks run. -/
def concluded (d : Directory) (now : Instant) (type : ResourceType) (uuid : Uuid) (id : String)
    (w : World Tables) : Except DirectoryError (Resource type) × World Tables :=
  match w.store.get? type uuid with
  | none => (.error (.notFound type.name id), w)
  | some record =>
    match w.store.update (d.finished now record) with
    | .error error => (.error (.storage error), w)
    | .ok (row, store) => d.answered (record.withRow row) { w with store }

/-- A patch checks the request, the key and that the resource is there, applies the operations,
and concludes when none of them fails. -/
theorem patch_run (d : Directory) (now : Instant) (type : ResourceType) (id : String)
    (request : PatchRequest) (w : World Tables) :
    (d.patch now type id request).run w =
      match request.validate with
      | .error error => (.error (.patch error), w)
      | .ok () =>
        match idOf type id with
        | .error error => (.error error, w)
        | .ok uuid =>
          match w.store.get? type uuid with
          | none => (.error (.notFound type.name id), w)
          | some current =>
            match (d.patched current.row request.operations).run w with
            | (.error error, w) => (.error error, w)
            | (.ok (), w) => d.concluded now type uuid id w := by
  unfold patch
  refine (Action.run_check_bind _ _ _ w).trans ?_
  cases request.validate with
  | error e => rfl
  | ok _ =>
    refine (Action.run_ensure_bind _ _ w).trans ?_
    cases idOf type id with
    | error e => rfl
    | ok uuid =>
      have hfind := @find_run type uuid id w
      dsimp only
      cases hget : w.store.get? type uuid with
      | none =>
        rw [hget] at hfind
        exact run_bind_of_error hfind _
      | some current =>
        rw [hget] at hfind
        refine (run_bind_of_ok hfind _).trans ?_
        dsimp only
        rcases hpatched : (d.patched current.row request.operations).run w with ⟨e | _, w'⟩
        · exact run_bind_of_error hpatched _
        · refine (run_bind_of_ok hpatched _).trans ?_
          have hfind' := @find_run type uuid id w'
          dsimp only [concluded]
          cases hget' : w'.store.get? type uuid with
          | none =>
            rw [hget'] at hfind'
            exact run_bind_of_error hfind' _
          | some record =>
            rw [hget'] at hfind'
            refine (run_bind_of_ok hfind' _).trans ?_
            refine (Action.run_writing_bind (Tables.call_update _) _ w').trans ?_
            dsimp only
            cases w'.store.update (d.finished now record) with
            | error e => rfl
            | ok written => exact d.answer_run _ _

/-- A deletion checks the key and that the resource is there, and lets a user leave all groups. -/
theorem delete_run (type : ResourceType) (id : String) (w : World Tables) :
    (delete type id).run w =
      match idOf type id with
      | .error error => (.error error, w)
      | .ok uuid =>
        match w.store.delete type uuid with
        | (false, store) => (.error (.notFound type.name id), { w with store })
        | (true, store) =>
          match type with
          | .user => (leaveGroups uuid).run { w with store }
          | .group => (.ok (), { w with store }) := by
  unfold delete
  refine (Action.run_ensure_bind _ _ w).trans ?_
  cases idOf type id with
  | error e => rfl
  | ok uuid =>
    refine (Action.run_always_bind (Tables.call_delete type uuid) _ w).trans ?_
    dsimp only
    rcases w.store.delete type uuid with ⟨existed, store⟩
    cases existed <;> cases type <;> rfl

/-- Showing a stored resource reads only. -/
theorem get_run (d : Directory) (type : ResourceType) (id : String) (w : World Tables) :
    (d.get type id).run w =
      match idOf type id with
      | .error error => (.error error, w)
      | .ok uuid =>
        match w.store.get? type uuid with
        | none => (.error (.notFound type.name id), w)
        | some record => (d.shown w.store record, w) := by
  unfold get
  refine (Action.run_ensure_bind _ _ w).trans ?_
  cases idOf type id with
  | error e => rfl
  | ok uuid =>
    have hfind := @find_run type uuid id w
    dsimp only
    cases hget : w.store.get? type uuid with
    | none =>
      rw [hget] at hfind
      exact run_bind_of_error hfind _
    | some record =>
      rw [hget] at hfind
      exact (run_bind_of_ok hfind _).trans (d.view_run record w)

/-- An action that leaves every world as it was. -/
def Reads {α : Type} (a : Action Tables α) : Prop := ∀ w : World Tables, (a.run w).2 = w

/-- Reading after reading is reading. -/
theorem Reads.bind {α β : Type} {a : Action Tables α} {f : α → Action Tables β} (h : Reads a)
    (hf : ∀ x, Reads (f x)) : Reads (a >>= f) := by
  intro w
  rcases hrun : a.run w with ⟨e | x, w'⟩
  · have hw : w' = w := by rw [← h w, hrun]
    rw [run_bind_of_error hrun, hw]
  · have hw : w' = w := by rw [← h w, hrun]
    rw [run_bind_of_ok hrun, hw]
    exact hf x w

/-- What reads first answers from where it was. -/
theorem Reads.answer_bind {α β : Type} {a : Action Tables α} (h : Reads a)
    (f : α → Action Tables β) (w : World Tables) :
    ((a >>= f).run w).1 = (a.run w).1 >>= fun x => ((f x).run w).1 := by
  rcases hrun : a.run w with ⟨e | x, w'⟩
  · rw [run_bind_of_error hrun]
    rfl
  · have hw : w' = w := by rw [← h w, hrun]
    rw [run_bind_of_ok hrun, hw]
    rfl

theorem reads_groupsOf (d : Directory) (users : List Uuid) :
    Reads (d.groupsOf users : Action Tables _) := by
  unfold groupsOf
  split
  · exact fun _ => rfl
  · exact Reads.bind (fun _ => rfl) fun _ _ => rfl

theorem reads_matching (type : ResourceType) (scope : Scope) (wanted : Wanted) :
    Reads (matching type scope wanted : Action Tables _) := by
  unfold matching
  split
  · exact fun _ => rfl
  · exact fun _ => rfl
  · split
    · exact fun _ => rfl
    · exact fun _ => rfl

/-- Searching reads only. -/
theorem reads_search (d : Directory) (request : SearchRequest) (scope : Scope) :
    Reads (d.search request scope : Action Tables _) := by
  unfold search
  refine Reads.bind (fun _ => rfl) fun _ => Reads.bind (fun _ => rfl) fun wanted => ?_
  split
  · exact fun _ => rfl
  · exact Reads.bind (reads_matching _ _ _) fun _ => Reads.bind (reads_matching _ _ _) fun _ =>
      Reads.bind (d.reads_groupsOf _) fun _ _ => rfl

/-- What a command leaves. Showing and searching leave everything as it was. -/
theorem serve_world (d : Directory) (now : Instant) (command : Command) (w : World Tables) :
    (d.serve now command w).2 =
      match command with
      | .create given resource => ((d.create now given resource).run w).2
      | .replace id resource ifMatch => ((d.replace now id resource ifMatch).run w).2
      | .get _ _ => w
      | .delete type id => ((delete type id).run w).2
      | .patch type id request => ((d.patch now type id request).run w).2
      | .search _ _ => w := by
  cases command with
  | create given resource => exact congrArg Prod.snd (run_bind_pure _ Reply.resource w)
  | replace id resource ifMatch => exact congrArg Prod.snd (run_bind_pure _ Reply.resource w)
  | get type id =>
    refine (congrArg Prod.snd (run_bind_pure (d.get type id) Reply.resource w)).trans ?_
    rw [get_run]
    split
    · rfl
    · split <;> rfl
  | delete type id => exact congrArg Prod.snd (run_bind_pure _ (fun _ => Reply.deleted) w)
  | patch type id request => exact congrArg Prod.snd (run_bind_pure _ Reply.resource w)
  | search request scope =>
    refine (congrArg Prod.snd (run_bind_pure (d.search request scope) Reply.found w)).trans ?_
    exact d.reads_search request scope w

end ScimDirectory.Directory
