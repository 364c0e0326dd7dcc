import ScimDirectory.Proofs.Directory.Commands
import ScimDirectory.Proofs.Patch.Effects

/-!
# Instructions

What a patch asks for, one path after the other: an operation with a path is one instruction, and
one without a path is an instruction for each member of its value. Whatever the writes of whole
resources keep is kept by a history as long as each instruction of its patches keeps it, so a
property that some instructions break can be pinned on them.
-/

namespace ScimDirectory

/-- One thing that a patch asks for: what to do with a value at a path. -/
structure Instruction where
  /-- What is done. -/
  kind : OperationKind
  /-- The path. -/
  path : String
  /-- The value. -/
  value : Json

/-- The instructions of an operation. An operation that needs a path or an object and has neither
has none. -/
def Operation.instructions (operation : Operation) : List Instruction :=
  match operation.kind, operation.path, operation.value with
  | kind, some path, value => [⟨kind, path, value⟩]
  | .remove, none, _ => []
  | kind, none, .object members => members.map fun (path, value) => ⟨kind, path, value⟩
  | _, none, _ => []

/-- Whether a command asks for something that passes a test: it is a patch, and one of its
instructions passes. -/
def Command.asks (test : ResourceType → Instruction → Bool) : Command → Bool
  | .patch type _ request =>
    request.operations.any fun operation => operation.instructions.any (test type)
  | _ => false

/-- No command asks for something that passes a test which nothing passes. -/
theorem Command.asks_nothing (command : Command) : command.asks (fun _ _ => false) = false := by
  cases command <;> simp [asks]

/-- Whether an instruction puts a value at a target so that a test passes. A removal puts none. -/
def Instruction.puts (test : ResourceType → Target → Json → Bool) (parser : Filter.Parser)
    (type : ResourceType) (asked : Instruction) : Bool :=
  asked.kind ≠ .remove &&
    match Target.ofPath parser type asked.path with
    | .ok target => test type target asked.value
    | .error _ => false

namespace Patch

variable {type : ResourceType}

/-- Does what an instruction asks for. -/
def carryOut {σ : Type} [Storage σ] (setting : Setting) (asked : Instruction) :
    Step σ type Unit :=
  applyAt setting (applyOf setting asked.kind) asked.path asked.value

/-- Does what instructions ask for, one after the other. -/
def carryOutAll {σ : Type} [Storage σ] (setting : Setting) : List Instruction → Step σ type Unit
  | [] => pure ()
  | asked :: others => do
    carryOut setting asked
    carryOutAll setting others

/-- The members of an object are instructions of their own. -/
theorem applyMembers_eq {σ : Type} [Storage σ] (setting : Setting) (kind : OperationKind)
    (members : Members) :
    (applyMembers setting (applyOf setting kind) members : Step σ type Unit) =
      carryOutAll setting (members.map fun (path, value) => ⟨kind, path, value⟩) := by
  induction members with
  | nil => rfl
  | cons member members ih =>
    rw [applyMembers, List.map_cons, carryOutAll, ih]
    rfl

/-- An operation carries out its instructions, unless it is refused at once. -/
theorem apply_eq {σ : Type} [Storage σ] (setting : Setting) (operation : Operation) :
    (apply setting operation : Step σ type Unit) =
        carryOutAll setting operation.instructions ∨
      ∃ error, (apply setting operation : Step σ type Unit) = throw error := by
  obtain ⟨kind, path | path, value⟩ := operation
  · have hvalue (kind : OperationKind) (hkind : kind ≠ .remove) :
        (applyValue setting (applyOf setting kind) ⟨kind, none, value⟩ : Step σ type Unit) =
            carryOutAll setting (Operation.instructions ⟨kind, none, value⟩) ∨
          ∃ error, (applyValue setting (applyOf setting kind) ⟨kind, none, value⟩ :
            Step σ type Unit) = throw error := by
      cases value with
      | object members =>
        refine .inl ((applyMembers_eq setting kind members).trans ?_)
        cases kind <;> first | rfl | exact absurd rfl hkind
      | _ => exact .inr ⟨_, rfl⟩
    cases kind with
    | add => exact hvalue .add (by decide)
    | remove => exact .inr ⟨_, rfl⟩
    | replace => exact hvalue .replace (by decide)
  · left
    have hone : (⟨kind, some path, value⟩ : Operation).instructions = [⟨kind, path, value⟩] := by
      cases kind <;> rfl
    rw [hone, apply_of_path setting rfl]
    exact (bind_pure_unit).symm

variable {d : Directory} {P : Tables → Prop}

/-- A step on a stored resource that keeps a property of sound tables, along with its trace. -/
def Keeps (d : Directory) (P : Tables → Prop) (s : Step Tables type Unit) : Prop :=
  ∀ ⦃w : World Tables⦄ ⦃row : Row type⦄, w.store.Sound w.draws →
    w.store.find? type row.id = some row → P w.store →
      Trace d w row (s.run (w, row)) ∧ P (s.run (w, row)).2.1.store

/-- A step that is nothing keeps everything. -/
theorem keeps_pure : Keeps d P (pure () : Step Tables type Unit) :=
  fun _ _ _ hfind hw => ⟨Trace.nothing hfind, hw⟩

/-- A step that is refused keeps everything. -/
theorem keeps_throw (error : DirectoryError) : Keeps d P (throw error : Step Tables type Unit) :=
  fun _ _ _ hfind hw => ⟨(Outcome.refused error).trace hfind, hw⟩

/-- What two steps keep is kept when one follows the other. -/
theorem Keeps.bind {s : Step Tables type Unit} {f : Unit → Step Tables type Unit}
    (h : Keeps d P s) (hnext : Keeps d P (f ())) : Keeps d P (s >>= f) := by
  intro w row hsound hfind hw
  obtain ⟨htrace, hkept⟩ := h hsound hfind hw
  rcases hrun : s.run (w, row) with ⟨e | _, w', after⟩
  · rw [run_bind_of_error hrun, ← hrun]
    exact ⟨htrace, hkept⟩
  · rw [run_bind_of_ok hrun]
    rw [hrun] at htrace hkept
    have hstored : w'.store.find? type after.id = some after := by
      rw [htrace.same.id]
      exact htrace.stored rfl
    obtain ⟨hlater, hafter⟩ :=
      hnext (Directory.Writes.sound htrace.writes hsound) hstored hkept
    exact ⟨htrace.append hlater, hafter⟩

/-- An operation at a target is one write or none. -/
theorem applyOf_oneWrite (kind : OperationKind) : OneWrite d type (applyOf d.setting kind) := by
  cases kind with
  | add => exact addTo_oneWrite
  | remove => exact removeAt_oneWrite
  | replace => exact replaceAt_oneWrite

/-- A property that the effects of an instruction keep. -/
def Spares (d : Directory) (P : Tables → Prop) (type : ResourceType) (asked : Instruction) : Prop :=
  ∀ ⦃tables after : Tables⦄ ⦃draws : Nat⦄ ⦃row : Row type⦄ ⦃target : Target⦄
    ⦃answer : Except DirectoryError Unit⦄, tables.Sound draws →
      tables.find? type row.id = some row → Target.ofPath d.parser type asked.path = .ok target →
        Effect d row tables asked.kind target asked.value answer after → P tables → P after

/-- A test tells whether an effect breaks a property: what puts no value that passes keeps it, and
what succeeds in putting one breaks it. -/
structure Tells (d : Directory) (test : ResourceType → Target → Json → Bool) (P : Tables → Prop) :
    Prop where
  /-- What puts no value that passes keeps the property. -/
  keeps : ∀ {type : ResourceType} {row : Row type} {tables after : Tables} {kind : OperationKind}
    {target : Target} {value : Json} {answer : Except DirectoryError Unit},
    Effect d row tables kind target value answer after → tables.find? type row.id = some row →
      (kind ≠ .remove → test type target value = false) → P tables → P after
  /-- What succeeds in putting a value that passes breaks the property. -/
  breaks : ∀ {type : ResourceType} {row : Row type} {tables after : Tables} {kind : OperationKind}
    {target : Target} {value : Json}, Effect d row tables kind target value (.ok ()) after →
      kind ≠ .remove → test type target value = true → ¬P after

/-- An instruction that puts no value that passes keeps what the test tells. -/
theorem Tells.spares {test : ResourceType → Target → Json → Bool} (h : Tells d test P)
    {asked : Instruction} (hputs : asked.puts test d.parser type = false) :
    Spares d P type asked := by
  intro tables after draws row target answer _ hfind htarget heffect
  refine h.keeps heffect hfind fun hkind => ?_
  simpa [Instruction.puts, hkind, htarget] using hputs

/-- An instruction is refused for its path, or has an effect at what the path points at. -/
theorem carryOut_effect {w : World Tables} {row : Row type} (hsound : w.store.Sound w.draws)
    (hfind : w.store.find? type row.id = some row) (asked : Instruction) :
    (∃ error, Target.ofPath d.parser type asked.path = .error error ∧
      (carryOut d.setting asked).run (w, row) = (.error (.patch error), w, row)) ∨
    ∃ target, Target.ofPath d.parser type asked.path = .ok target ∧
      HasEffect d w row asked.kind target asked.value
        ((carryOut d.setting asked).run (w, row)) := by
  unfold carryOut applyAt
  cases htarget : Target.ofPath d.parser type asked.path with
  | error error =>
    rw [show Target.ofPath d.setting.parser type asked.path = _ from htarget]
    exact .inl ⟨error, rfl, rfl⟩
  | ok target =>
    rw [show Target.ofPath d.setting.parser type asked.path = _ from htarget]
    exact .inr ⟨target, rfl, applyOf_effect hsound hfind (Target.fits_of_ofPath htarget)⟩

/-- What the effects of an instruction keep is kept when it is carried out. -/
theorem keeps_carryOut {asked : Instruction} (h : Spares d P type asked) :
    Keeps d P (carryOut d.setting asked : Step Tables type Unit) := by
  intro w row hsound hfind hw
  refine ⟨(applyAt_outcome (applyOf_oneWrite asked.kind) hsound hfind asked.path
    asked.value).trace hfind, ?_⟩
  rcases carryOut_effect hsound hfind asked with ⟨_, -, hrun⟩ | ⟨target, htarget, heffect⟩
  · rw [hrun]
    exact hw
  · exact h hsound hfind htarget heffect hw

/-- An instruction breaks what a test tells exactly when it succeeds in putting a value that
passes. -/
theorem Tells.carryOut_iff {test : ResourceType → Target → Json → Bool} (h : Tells d test P)
    {w : World Tables} {row : Row type} (hsound : w.store.Sound w.draws)
    (hfind : w.store.find? type row.id = some row) (hw : P w.store) (asked : Instruction) :
    P ((carryOut d.setting asked).run (w, row)).2.1.store ↔
      ¬(((carryOut d.setting asked).run (w, row)).1 = .ok () ∧
        asked.puts test d.parser type = true) := by
  constructor
  · rintro hafter ⟨hok, hputs⟩
    rcases carryOut_effect hsound hfind asked with ⟨_, -, hrun⟩ | ⟨target, htarget, heffect⟩
    · rw [hrun] at hok
      cases hok
    · unfold HasEffect at heffect
      rw [hok] at heffect
      obtain ⟨hkind, htest⟩ := Bool.and_eq_true_iff.mp hputs
      rw [htarget] at htest
      exact h.breaks heffect (of_decide_eq_true hkind) htest hafter
  · intro hspared
    rcases carryOut_effect hsound hfind asked with ⟨_, -, hrun⟩ | ⟨target, htarget, heffect⟩
    · rw [hrun]
      exact hw
    · cases hputs : asked.puts test d.parser type with
      | false => exact h.spares hputs hsound hfind htarget heffect hw
      | true =>
        cases hanswer : ((carryOut d.setting asked).run (w, row)).1 with
        | error error =>
          unfold HasEffect at heffect
          rw [hanswer] at heffect
          exact heffect.tables_eq ▸ hw
        | ok _ => exact absurd ⟨hanswer, hputs⟩ hspared

/-- What each instruction keeps is kept by all of them. -/
theorem keeps_carryOutAll {instructions : List Instruction}
    (h : ∀ asked ∈ instructions, Spares d P type asked) :
    Keeps d P (carryOutAll d.setting instructions : Step Tables type Unit) := by
  induction instructions with
  | nil => exact keeps_pure
  | cons asked others ih =>
    obtain ⟨hfirst, hrest⟩ := List.forall_mem_cons.mp h
    exact (keeps_carryOut hfirst).bind (ih hrest)

/-- What the instructions of operations keep is kept by the operations. -/
theorem keeps_applyAll {operations : List Operation}
    (h : ∀ operation ∈ operations, ∀ asked ∈ operation.instructions, Spares d P type asked) :
    Keeps d P (applyAll d.setting operations : Step Tables type Unit) := by
  induction operations with
  | nil => exact keeps_pure
  | cons operation operations ih =>
    obtain ⟨hfirst, hrest⟩ := List.forall_mem_cons.mp h
    refine Keeps.bind ?_ (ih hrest)
    rcases @apply_eq type Tables _ d.setting operation with heq | ⟨error, heq⟩
    · rw [heq]
      exact keeps_carryOutAll hfirst
    · rw [heq]
      exact keeps_throw error

end Patch

namespace Directory

variable {d : Directory} {type : ResourceType} {w : World Tables} {P : Tables → Prop}

/-- A change of tables that no instruction asks for: a whole resource is written or deleted, a user
leaves all groups, or a patch is concluded. -/
inductive WholeWrite (d : Directory) (draws : Nat) : Tables → Tables → Prop where
  /-- A valid resource is stored as a new one. -/
  | create {tables after : Tables} {type : ResourceType} (id : Uuid) (resource : Resource type)
      (now : Instant) {stored : Record type} (hvalid : validate resource = .ok ())
      (hwrite : tables.insert (d.recordOf resource id now now draws) = .ok (stored, after)) :
    WholeWrite d draws tables after
  /-- A valid resource takes the place of a stored one. -/
  | replace {tables after : Tables} {type : ResourceType} (id : Uuid) (resource : Resource type)
      (created now : Instant) {stored : Record type} (hvalid : validate resource = .ok ())
      (hwrite : tables.replace (d.recordOf resource id created now draws) = .ok (stored, after)) :
    WholeWrite d draws tables after
  /-- A row and its items are deleted. -/
  | delete {tables : Tables} (type : ResourceType) (id : Uuid) :
    WholeWrite d draws tables (tables.delete type id).2
  /-- A user leaves all groups. -/
  | leave {tables : Tables} (user : Uuid) : WholeWrite d draws tables (tables.withoutMember user)
  /-- A row gets its time of change, and its version if the settings ask for one. -/
  | finish {tables after : Tables} {type : ResourceType} {id : Uuid} {row stored : Row type}
      (now : Instant) (hfind : tables.find? type id = some row)
      (hwrite : tables.update (d.finished now (tables.record row)) = .ok (stored, after)) :
    WholeWrite d draws tables after

/-- A property that no write of a whole resource breaks. -/
def KeptByWholes (d : Directory) (P : Tables → Prop) : Prop :=
  ∀ ⦃draws : Nat⦄ ⦃before after : Tables⦄, d.WholeWrite draws before after →
    before.Sound draws → P before → P after

section

variable (h : d.KeptByWholes P) (hsound : w.store.Sound w.draws) (hw : P w.store)

include h hsound hw

theorem create_keeps (now : Instant) (given : Option Uuid) (resource : Resource type) :
    P ((d.create now given resource).run w).2.store := by
  rw [create_run]
  split
  · exact hw
  · next hvalid =>
    split
    · exact hw
    · next hwrite => exact h (.create _ resource now hvalid hwrite) hsound hw

theorem replace_keeps (now : Instant) (id : String) (resource : Resource type)
    (ifMatch : Option String) : P ((d.replace now id resource ifMatch).run w).2.store := by
  rw [replace_run]
  split
  · exact hw
  · split
    · exact hw
    · next hvalid =>
      split
      · exact hw
      · split
        · exact hw
        · split
          · exact hw
          · next hwrite =>
            rw [store_answered]
            exact h (.replace _ resource _ now hvalid hwrite) hsound hw

theorem delete_keeps (id : String) : P ((delete type id).run w).2.store := by
  cases hid : idOf type id with
  | error e =>
    rw [delete_run, hid]
    exact hw
  | ok uuid =>
    rw [store_delete hsound hid]
    have hdeleted := h (.delete type uuid) hsound hw
    cases type with
    | group => exact hdeleted
    | user =>
      unfold deleted
      dsimp only
      split
      · exact h (.leave uuid) (hsound.delete .user uuid) hdeleted
      · exact hw

theorem concluded_keeps (now : Instant) (type : ResourceType) (uuid : Uuid) (id : String) :
    P (d.concluded now type uuid id w).2.store := by
  unfold concluded
  split
  · exact hw
  · next record hget =>
    split
    · exact hw
    · next hwrite =>
      obtain ⟨row, hfind, rfl⟩ := Option.map_eq_some_iff.mp hget
      rw [store_answered]
      exact h (.finish now hfind hwrite) hsound hw

theorem patch_keeps (now : Instant) (id : String) {request : PatchRequest}
    (hasked : ∀ operation ∈ request.operations, ∀ asked ∈ operation.instructions,
      Patch.Spares d P type asked) :
    P ((d.patch now type id request).run w).2.store := by
  rw [patch_run]
  split
  · exact hw
  · split
    · exact hw
    · next uuid _ =>
      split
      · exact hw
      · next current hget =>
        obtain ⟨hfind, -⟩ := Tables.get?_eq_some hget
        have hid : current.row.id = uuid := Tables.id_of_find? hfind
        obtain ⟨htrace, hkept⟩ := Patch.keeps_applyAll hasked hsound (hid ▸ hfind) hw
        have hpatched : (d.patched current.row request.operations).run w =
            (((Patch.applyAll d.setting request.operations).run (w, current.row)).1,
              ((Patch.applyAll d.setting request.operations).run (w, current.row)).2.1) := rfl
        rw [hpatched]
        have hlater := Writes.sound htrace.writes hsound
        split
        · next hrun => exact (Prod.mk.inj hrun).2 ▸ hkept
        · next hrun =>
          obtain ⟨-, rfl⟩ := Prod.mk.inj hrun
          exact concluded_keeps h hlater hkept now type uuid id

/-- What whole writes and the instructions of a command keep is kept by the command. -/
theorem serve_keeps {test : ResourceType → Instruction → Bool}
    (hspared : ∀ type asked, test type asked = false → Patch.Spares d P type asked)
    (now : Instant) {command : Command} (hasks : command.asks test = false) :
    P (d.serve now command w).2.store := by
  rw [serve_world]
  cases command with
  | create given resource => exact create_keeps h hsound hw now given resource
  | replace id resource ifMatch => exact replace_keeps h hsound hw now id resource ifMatch
  | get type id => exact hw
  | delete type id => exact delete_keeps h hsound hw id
  | patch type id request =>
    refine patch_keeps h hsound hw now id fun operation hoperation asked hasked => ?_
    have hnone := eq_false_of_ne_true (List.any_eq_false.mp hasks operation hoperation)
    exact hspared type asked (eq_false_of_ne_true (List.any_eq_false.mp hnone asked hasked))
  | search request scope => exact hw

/-- What whole writes and the instructions of a history keep is kept by the history. -/
theorem serveAll_keeps {test : ResourceType → Instruction → Bool}
    (hspared : ∀ type asked, test type asked = false → Patch.Spares d P type asked)
    {history : List (Instant × Command)}
    (hasks : ∀ entry ∈ history, entry.2.asks test = false) :
    P (d.serveAll history w).store := by
  induction history generalizing w with
  | nil => exact hw
  | cons entry history ih =>
    obtain ⟨hfirst, hrest⟩ := List.forall_mem_cons.mp hasks
    have hserved := serve_keeps h hsound hw hspared entry.1 hfirst
    exact ih (serveAll_sound hsound [entry]) hserved hrest

end

/-- What whole writes keep and a test tells is kept by every history that asks for nothing that
passes the test; and at every point of every patch that is asked of a directory that can be reached,
an instruction breaks it exactly when it succeeds in putting a value that passes. -/
theorem kept_unless_put {test : ResourceType → Target → Json → Bool} (hwholes : d.KeptByWholes P)
    (htells : Patch.Tells d test P) (hempty : P Tables.empty)
    (history : List (Instant × Command)) :
    ((∀ entry ∈ history, entry.2.asks (Instruction.puts test d.parser) = false) →
      P (d.serveAll history (World.fresh Tables.empty)).store) ∧
    ∀ {type : ResourceType} (row : Row type) (earlier : List Operation) (w : World Tables)
      (current : Row type) (asked : Instruction),
      (d.serveAll history (World.fresh Tables.empty)).store.find? type row.id = some row →
      (Patch.applyAll d.setting earlier).run
        (d.serveAll history (World.fresh Tables.empty), row) = (.ok (), w, current) →
      P w.store →
      (P ((Patch.carryOut d.setting asked).run (w, current)).2.1.store ↔
        ¬(((Patch.carryOut d.setting asked).run (w, current)).1 = .ok () ∧
          asked.puts test d.parser type = true)) := by
  constructor
  · exact serveAll_keeps hwholes (Tables.sound_empty 0) hempty fun _ _ => htells.spares
  · intro type row earlier w current asked hfind hearlier hw
    obtain ⟨hlater, hstored⟩ := Patch.sound_applyAll
      (serveAll_sound (Tables.sound_empty 0) history) hfind hearlier
    exact htells.carryOut_iff hlater hstored hw asked

end Directory

end ScimDirectory
