import ScimDirectory.Proofs.Directory.Uses
import ScimDirectory.Proofs.Patch.Steps

/-!
# Commands as changes

Every command, whether it succeeds or fails, leaves what some writes on behalf of one resource
leave, and a user that is deleted leaves all groups as well. So tables stay sound in every
history, and what each change keeps holds in every directory that can be reached.
-/

namespace ScimDirectory.Directory

variable {d : Directory} {type : ResourceType} {w : World Tables}

/-- What runs hooks and shows a resource leaves the stock as it is. -/
theorem stock_answered (d : Directory) (record : Record type) (w : World Tables) :
    (d.answered record w).2.stock = w.stock := by
  unfold answered
  split <;> rfl

theorem store_answered (d : Directory) (record : Record type) (w : World Tables) :
    (d.answered record w).2.store = w.store :=
  congrArg Prod.fst (stock_answered d record w)

theorem create_writes (d : Directory) (now : Instant) (given : Option Uuid)
    (resource : Resource type) (w : World Tables) :
    d.Writes type (keyFor given w) w.stock ((d.create now given resource).run w).2.stock := by
  rw [create_run]
  split
  · exact .refl
  · next hvalid =>
    split
    · exact .single (.draw (Nat.le_succ _))
    · next hwrite => exact .single (.create resource now hvalid hwrite)

/-- A creation of a valid resource whose record can be inserted leaves what the insertion leaves. -/
theorem stock_create {now : Instant} {given : Option Uuid} {resource : Resource type}
    (hvalid : validate resource = .ok ()) {stored : Record type} {after : Tables}
    (hwrite : w.store.insert (d.recordOf resource (keyFor given w) now now w.draws) =
      .ok (stored, after)) :
    ((d.create now given resource).run w).2.stock = (after, w.draws + 1) := by
  rw [create_run, hvalid]
  dsimp only
  rw [hwrite]
  rfl

theorem replace_writes (d : Directory) (now : Instant) {id : String} {uuid : Uuid}
    (hid : idOf type id = .ok uuid) (resource : Resource type) (ifMatch : Option String)
    (w : World Tables) :
    d.Writes type uuid w.stock ((d.replace now id resource ifMatch).run w).2.stock := by
  rw [replace_run, hid]
  dsimp only
  split
  · exact .refl
  · next hvalid =>
    split
    · exact .refl
    · next current hget =>
      split
      · exact .refl
      · split
        · exact .single (.draw (Nat.le_succ _))
        · next hwrite =>
          obtain ⟨row, hfind, rfl⟩ := Option.map_eq_some_iff.mp hget
          rw [stock_answered]
          exact .single (.replace resource now hfind hvalid hwrite)

/-- What a deletion leaves: a deleted resource is gone with its items, and a deleted user has left
all groups. -/
def deleted (type : ResourceType) (uuid : Uuid) (tables : Tables) : Tables :=
  match type with
  | .user =>
    if tables.has .user uuid then (tables.delete .user uuid).2.withoutMember uuid else tables
  | .group => (tables.delete .group uuid).2

theorem store_delete (hsound : w.store.Sound w.draws) {id : String} {uuid : Uuid}
    (hid : idOf type id = .ok uuid) :
    ((delete type id).run w).2 = { w with store := deleted type uuid w.store } := by
  rw [delete_run, hid]
  dsimp only
  cases type with
  | group =>
    unfold deleted
    rcases w.store.delete .group uuid with ⟨_ | _, store⟩ <;> rfl
  | user =>
    have hkept := hsound.delete .user uuid
    unfold deleted Tables.delete at *
    by_cases hthere : w.store.has .user uuid
    · rw [if_pos hthere] at hkept
      simp only [hthere, if_true]
      have hleave := @leaveGroups_run { w with
        store := (w.store.dropRow .user uuid).dropItems .user uuid } hkept uuid
      rw [hleave]
    · simp only [hthere]
      rfl

theorem delete_changes (hsound : w.store.Sound w.draws) {id : String} {uuid : Uuid}
    (hid : idOf type id = .ok uuid) :
    d.Changes w.stock ((delete type id).run w).2.stock := by
  rw [store_delete hsound hid]
  have hdelete : d.Change w.stock ((w.store.delete type uuid).2, w.draws) := .write .delete
  cases type with
  | group => exact .single hdelete
  | user =>
    unfold deleted
    dsimp only
    split
    · exact .tail (.single hdelete) (.leave uuid)
    · exact .refl

theorem concluded_writes (d : Directory) (now : Instant) (type : ResourceType) (uuid : Uuid)
    (id : String) (w : World Tables) :
    d.Writes type uuid w.stock (d.concluded now type uuid id w).2.stock := by
  unfold concluded
  split
  · exact .refl
  · next record hget =>
    split
    · exact .refl
    · next hwrite =>
      obtain ⟨row, hfind, rfl⟩ := Option.map_eq_some_iff.mp hget
      rw [stock_answered]
      exact .single (.finish now hfind hwrite)

/-- The operations of a patch leave a trace of the stored row. -/
theorem patched_trace (hsound : w.store.Sound w.draws) {uuid : Uuid} {current : Record type}
    (hget : w.store.get? type uuid = some current) {operations : List Operation}
    {answer : Except DirectoryError Unit} {w' : World Tables}
    (hrun : (d.patched current.row operations).run w = (answer, w')) :
    current.row.id = uuid ∧ ∃ after, Patch.Trace d w current.row (answer, w', after) := by
  obtain ⟨hfind, -⟩ := Tables.get?_eq_some hget
  have hid : current.row.id = uuid := Tables.id_of_find? hfind
  subst hid
  have htrace : Patch.Trace d w current.row
      ((Patch.applyAll d.setting operations).run (w, current.row)) :=
    Patch.applyAll_trace hsound hfind operations
  have hpatched : (d.patched current.row operations).run w =
      (((Patch.applyAll d.setting operations).run (w, current.row)).1,
        ((Patch.applyAll d.setting operations).run (w, current.row)).2.1) := rfl
  obtain ⟨rfl, rfl⟩ := Prod.mk.inj (hpatched.symm.trans hrun)
  exact ⟨rfl, _, htrace⟩

theorem patch_writes (hsound : w.store.Sound w.draws) (now : Instant) {id : String} {uuid : Uuid}
    (hid : idOf type id = .ok uuid) (request : PatchRequest) :
    d.Writes type uuid w.stock ((d.patch now type id request).run w).2.stock := by
  rw [patch_run, hid]
  dsimp only
  split
  · exact .refl
  · split
    · exact .refl
    · next current hget =>
      split
      · next hrun =>
        obtain ⟨rfl, _, htrace⟩ := patched_trace hsound hget hrun
        exact htrace.writes
      · next w' hrun =>
        obtain ⟨rfl, _, htrace⟩ := patched_trace hsound hget hrun
        exact .trans htrace.writes (concluded_writes d now type _ id w')

/-- Every command, whether it succeeds or fails, leaves what some changes leave. -/
theorem serve_changes (hsound : w.store.Sound w.draws) (now : Instant) (command : Command) :
    d.Changes w.stock (d.serve now command w).2.stock := by
  rw [serve_world]
  cases command with
  | create given resource => exact (create_writes d now given resource w).changes
  | @replace type id resource ifMatch =>
    cases hid : idOf type id with
    | error e =>
      dsimp only
      rw [replace_run, hid]
    | ok uuid => exact (replace_writes d now hid resource ifMatch w).changes
  | get type id => exact .refl
  | delete type id =>
    cases hid : idOf type id with
    | error e =>
      dsimp only
      rw [delete_run, hid]
    | ok uuid => exact delete_changes hsound hid
  | patch type id request =>
    cases hid : idOf type id with
    | error e =>
      dsimp only
      rw [patch_run, hid]
      split <;> exact .refl
    | ok uuid => exact (patch_writes hsound now hid request).changes
  | search request scope => exact .refl

/-- What every change of sound tables keeps is kept by every history. -/
theorem serveAll_invariant {P : Tables → Prop}
    (hchange : ∀ {before after}, d.Change before after → before.1.Sound before.2 →
      P before.1 → P after.1) (hsound : w.store.Sound w.draws) (hw : P w.store)
    (history : List (Instant × Command)) :
    (d.serveAll history w).store.Sound (d.serveAll history w).draws ∧
      P (d.serveAll history w).store := by
  have hchanges : ∀ {before after}, d.Changes before after →
      before.1.Sound before.2 → P before.1 → after.1.Sound after.2 ∧ P after.1 := by
    intro before after h hsound hbefore
    induction h with
    | refl => exact ⟨hsound, hbefore⟩
    | tail _ hstep ih => exact ⟨hstep.sound ih.1, hchange hstep ih.1 ih.2⟩
  induction history generalizing w with
  | nil => exact ⟨hsound, hw⟩
  | cons entry history ih =>
    obtain ⟨hsound, hw⟩ := hchanges (@serve_changes d w hsound entry.1 entry.2) hsound hw
    exact ih hsound hw

theorem serveAll_sound (hsound : w.store.Sound w.draws) (history : List (Instant × Command)) :
    (d.serveAll history w).store.Sound (d.serveAll history w).draws :=
  (@serveAll_invariant d w (fun _ => True) (fun _ _ _ => trivial) hsound trivial history).1

/-- A history ends with its last command. -/
theorem serveAll_concat (d : Directory) (history : List (Instant × Command)) (now : Instant)
    (command : Command) (w : World Tables) :
    d.serveAll (history ++ [(now, command)]) w =
      (d.serve now command (d.serveAll history w)).2 :=
  List.foldl_append

end ScimDirectory.Directory
