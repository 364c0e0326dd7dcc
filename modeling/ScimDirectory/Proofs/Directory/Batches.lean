import ScimDirectory.Proofs.Directory.Patches
import ScimDirectory.Proofs.Patch.Bookkeeping

/-!
# Batches of operations

A patch carries the row at hand from operation to operation, while two patches look the row up
again, after the first has given it a time and perhaps a version. Operations see neither of the
two, and the second patch writes both anew. So it makes no difference whether operations come in
one request or in two, but for the time that the last of them leaves.
-/

namespace ScimDirectory

/-- A request for two lists of operations is taken when a request for each of them is. -/
theorem PatchRequest.validate_append {schemas : List String} {first second : List Operation}
    (hfirst : first ≠ []) (hsecond : second ≠ []) :
    validate ⟨schemas, first ++ second⟩ = .ok () ↔
      validate ⟨schemas, first⟩ = .ok () ∧ validate ⟨schemas, second⟩ = .ok () := by
  simp only [validate_eq_ok, List.any_append, Bool.or_eq_false_iff, List.isEmpty_eq_false_iff,
    ne_eq, List.append_eq_nil_iff, hfirst, hsecond]
  tauto

namespace Tables

variable {type : ResourceType}

/-- A row that is put in the place of one that was put is all that is put. -/
theorem put_put (tables : Tables) {row new : Row type} (hid : new.id = row.id) :
    (tables.put row).put new = tables.put new := by
  have hrows : ∀ rows : List (Row type), putRow new (putRow row rows) = putRow new rows := by
    intro rows
    induction rows with
    | nil => simp [putRow, hid]
    | cons other rows ih =>
      by_cases hother : other.id = row.id
      · simp [putRow, hother, hid]
      · simp [putRow, hother, hid, ih]
  rw [put, rows_put, hrows, put, put]
  cases type <;> rfl

end Tables

namespace Patch

variable {σ : Type} [Storage σ] {type : ResourceType}

/-- Operations are applied in two parts as they are in one. -/
theorem applyAll_append (setting : Setting) (first second : List Operation) :
    (applyAll setting (first ++ second) : Step σ type Unit) =
      (do applyAll setting first; applyAll setting second) := by
  induction first with
  | nil => rfl
  | cons operation first ih =>
    rw [List.cons_append, applyAll, ih, applyAll, bind_assoc]

end Patch

namespace Directory

variable {d : Directory} {type : ResourceType} {w w' : World Tables}

/-- A row that had got a time and a version before gets the same as one that had not. -/
theorem withLastModified_finished_filed (d : Directory) (tables : Tables) (row : Row type)
    (earlier later now : Instant) (etag : String)
    (hkept : d.config.restampOnPatch = false → etag = row.etag) :
    (d.finished later ((tables.mapRows (Row.filed row.id earlier etag : Row type → Row type)).record
      (row.filed row.id earlier etag))).withLastModified now =
        d.finished now (tables.record row) := by
  have hid : ((row.withLastModified earlier).withEtag etag).id = row.id := by cases type <;> rfl
  have hrecord : (tables.mapRows (Row.filed row.id earlier etag : Row type → Row type)).record
      (row.filed row.id earlier etag) =
        (tables.record row).withRow ((row.withLastModified earlier).withEtag etag) := by
    rw [Row.filed_self, Tables.record, hid, Tables.ownedItems_congr (tables.items_mapRows _)]
    rfl
  rw [hrecord]
  unfold finished
  cases hrestamp : d.config.restampOnPatch with
  | true =>
    have hstamp : d.stamp (((tables.record row).withRow
        ((row.withLastModified earlier).withEtag etag)).withRow
          (((row.withLastModified earlier).withEtag etag).withLastModified later)) =
        d.stamp ((tables.record row).withRow (row.withLastModified now)) := by
      cases type <;> rfl
    have hnew : (tables.record row).row = row := rfl
    have hold : ((tables.record row).withRow
        ((row.withLastModified earlier).withEtag etag)).row =
          (row.withLastModified earlier).withEtag etag := rfl
    simp only [if_true, hnew, hold, hstamp]
    cases type <;> rfl
  | false =>
    obtain rfl := hkept hrestamp
    cases type <;> rfl

/-- A run that succeeds has something to show. -/
theorem isOk_iff {answer : Except DirectoryError (Resource type) × World Tables} :
    answer.1.isOk = true ↔ ∃ shown, answer = (.ok shown, answer.2) := by
  obtain ⟨_ | shown, after⟩ := answer
  · simp [Except.isOk, Except.toBool]
  · simp [Except.isOk, Except.toBool]

section

variable {row after : Row type} {middle : World Tables} {first second : List Operation}
  (hsound : w.store.Sound w.draws) (hfind : w.store.find? type row.id = some row)
  (hfirst : (Patch.applyAll d.setting first).run (w, row) = (.ok (), middle, after))

include hsound hfind hfirst

/-- Where a first patch ends, tables and row are those that its operations leave, but for the time
and the version of the row. -/
theorem put_finished_eq (now : Instant) :
    let new := d.finished now (middle.store.record after)
    new = after.filed row.id now new.etag ∧
      middle.store.put new =
        middle.store.mapRows (Row.filed row.id now new.etag : Row type → Row type) := by
  intro new
  have htrace := Patch.applyAll_trace (d := d) hsound hfind first
  rw [hfirst] at htrace
  have hid : after.id = row.id := htrace.same.id
  have hmiddle : middle.store.Sound middle.draws := Writes.sound htrace.writes hsound
  have hnew : new = (after.withLastModified now).withEtag new.etag :=
    d.finished_eq now (middle.store.record after)
  constructor
  · rw [← hid, Row.filed_self]
    exact hnew
  · refine Eq.trans ?_ (Tables.put_eq_mapRows (hmiddle.keys type) (htrace.stored rfl) now new.etag)
    rw [← hnew]

/-- From where a first patch ends, operations do what they do from where its operations end. -/
theorem applyAll_finished (now : Instant) (second : List Operation) :
    let new := d.finished now (middle.store.record after)
    let filed : Row type → Row type := Row.filed row.id now new.etag
    let next := (Patch.applyAll d.setting second).run (middle, after)
    (Patch.applyAll d.setting second).run ({ middle with store := middle.store.put new }, new) =
      (next.1, next.2.1.mapStore (Tables.mapRows filed), filed next.2.2) := by
  intro new filed next
  obtain ⟨hnew, hput⟩ := put_finished_eq hsound hfind hfirst now
  have hstart : (({ middle with store := middle.store.put new }, new) : World Tables × Row type) =
      (middle.mapStore (Tables.mapRows filed), filed after) :=
    Prod.ext (congrArg (fun store => { middle with store }) hput) hnew
  rw [hstart]
  exact Patch.unaffected_applyAll (Row.clerical_filed ..) d.setting second (middle, after)

/-- What a second patch ends with is what one patch ends with, but for the time. -/
theorem put_finished_finished {last : Row type} {final : World Tables}
    (hsecond : (Patch.applyAll d.setting second).run (middle, after) = (.ok (), final, last))
    (earlier later now : Instant) :
    let new := d.finished earlier (middle.store.record after)
    let filed : Row type → Row type := Row.filed row.id earlier new.etag
    let newest := d.finished later ((final.store.mapRows filed).record (filed last))
    newest.id = row.id ∧
      ((final.store.mapRows filed).put newest).put (newest.withLastModified now) =
        final.store.put (d.finished now (final.store.record last)) := by
  intro new filed newest
  have hbefore := Patch.applyAll_trace (d := d) hsound hfind first
  rw [hfirst] at hbefore
  have hmiddle : middle.store.Sound middle.draws := Writes.sound hbefore.writes hsound
  have hafter : middle.store.find? type after.id = some after := by
    rw [hbefore.same.id]
    exact hbefore.stored rfl
  have htrace := Patch.applyAll_trace (d := d) hmiddle hafter second
  rw [hsecond] at htrace
  have hid : last.id = row.id := htrace.same.id.trans hbefore.same.id
  have hfinal : final.store.Sound final.draws := Writes.sound htrace.writes hmiddle
  have hlast : final.store.find? type row.id = some last := by
    rw [← hbefore.same.id]
    exact htrace.stored rfl
  have hkey : newest.id = row.id :=
    (id_finished d later _).trans (((Row.clerical_filed ..).id last).trans hid)
  have hkept : d.config.restampOnPatch = false → new.etag = last.etag := fun hkeep =>
    (etag_finished_of_not hkeep earlier _).trans htrace.same.etag.symm
  have hfiled := withLastModified_finished_filed d final.store last earlier later now new.etag hkept
  rw [hid] at hfiled
  have hput : final.store.mapRows filed =
      final.store.put ((last.withLastModified earlier).withEtag new.etag) :=
    (Tables.put_eq_mapRows (hfinal.keys type) hlast earlier new.etag).symm
  have hsame : ∀ (row : Row type) etag, ((row.withLastModified earlier).withEtag etag).id = row.id ∧
      (row.withLastModified now).id = row.id := by
    cases type <;> exact fun _ _ => ⟨rfl, rfl⟩
  refine ⟨hkey, ?_⟩
  rw [Tables.put_put _ (hsame newest "").2, hput, Tables.put_put]
  · exact congrArg _ hfiled
  · exact (hsame newest "").2.trans (hkey.trans (hid.symm.trans (hsame last new.etag).1.symm))

/-- A second patch succeeds exactly when it is taken and its operations go on from where those of
the first have ended. -/
theorem patch_after_patch_iff (hhooks : d.config.hooks = []) {id : String}
    (hkey : Uuid.ofText? id = some row.id) (earlier later : Instant) (schemas : List String) :
    let new := d.finished earlier (middle.store.record after)
    let filed : Row type → Row type := Row.filed row.id earlier new.etag
    let newest (last : Row type) (final : World Tables) : Row type :=
      d.finished later ((final.store.mapRows filed).record (filed last))
    (∃ shown, (d.patch later type id ⟨schemas, second⟩).run
        { middle with store := middle.store.put new } = (.ok shown, w')) ↔
      PatchRequest.validate ⟨schemas, second⟩ = .ok () ∧ ∃ (last : Row type) (final : World Tables),
        (Patch.applyAll d.setting second).run (middle, after) = (.ok (), final, last) ∧
        w' = { final with store := (final.store.mapRows filed).put (newest last final) } := by
  intro new filed newest
  have htrace := Patch.applyAll_trace (d := d) hsound hfind first
  rw [hfirst] at htrace
  have hmiddle : middle.store.Sound middle.draws := Writes.sound htrace.writes hsound
  have hid : new.id = row.id := (id_finished d earlier _).trans htrace.same.id
  have hstored : (middle.store.put new).Sound middle.draws :=
    hmiddle.update (update_finished (d := d) hmiddle earlier (htrace.stored rfl))
  have hnew : (middle.store.put new).find? type row.id = some new := by
    rw [Tables.find?_put, if_pos hid]
  have hrun := applyAll_finished hsound hfind hfirst earlier second
  dsimp only at hrun
  rw [patch_eq_ok_iff hhooks hstored]
  refine and_congr_right fun _ => ⟨?_, ?_⟩
  · rintro ⟨other, last', final', hkey', hfind', happlied, rfl⟩
    obtain rfl : other = new := by
      rw [hkey] at hkey'
      rw [← Option.some.inj hkey', hnew] at hfind'
      exact (Option.some.inj hfind').symm
    rcases hnext : (Patch.applyAll d.setting second).run (middle, after) with ⟨answer, final, last⟩
    rw [hnext] at hrun
    cases hrun.symm.trans happlied
    exact ⟨last, final, rfl, rfl⟩
  · rintro ⟨last, final, hsecond, rfl⟩
    rw [hsecond] at hrun
    exact ⟨new, _, _, hid ▸ hkey, hid ▸ hnew, hrun, rfl⟩

end

section

variable {first second : List Operation} {id : String} {schemas : List String}
  {w₁ w₂ : World Tables}
  (hhooks : d.config.hooks = []) (hsound : w.store.Sound w.draws) (hfirst : first ≠ [])
  (hsecond : second ≠ [])

/-- Operations are applied in two parts exactly when they are applied in one. -/
theorem applyAll_append_eq_ok_iff {row last : Row type} {final : World Tables} :
    (Patch.applyAll d.setting (first ++ second)).run (w, row) = (.ok (), final, last) ↔
      ∃ middle after, (Patch.applyAll d.setting first).run (w, row) = (.ok (), middle, after) ∧
        (Patch.applyAll d.setting second).run (middle, after) = (.ok (), final, last) := by
  rw [Patch.applyAll_append]
  constructor
  · intro h
    obtain ⟨_, middle, hone, htwo⟩ := run_bind_eq_ok h
    exact ⟨middle.1, middle.2, hone, htwo⟩
  · rintro ⟨middle, after, hone, htwo⟩
    exact (run_bind_of_ok hone _).trans htwo

include hhooks hsound hfirst hsecond

/-- Operations that succeed in one request succeed in two, and leave the same but for the time. -/
theorem patch_parts_of_patch {now : Instant}
    (hbatch : ∃ shown, (d.patch now type id ⟨schemas, first ++ second⟩).run w = (.ok shown, w'))
    (earlier later : Instant) :
    ∃ w₁ w₂, (∃ shown, (d.patch earlier type id ⟨schemas, first⟩).run w = (.ok shown, w₁)) ∧
      (∃ shown, (d.patch later type id ⟨schemas, second⟩).run w₁ = (.ok shown, w₂)) ∧
      ∃ (key : Uuid) (row : Row type), Uuid.ofText? id = some key ∧
        w₂.store.find? type key = some row ∧
        w'.store = w₂.store.put (row.withLastModified now) := by
  obtain ⟨hvalid, row, last, final, hkey, hfind, happlied, rfl⟩ :=
    (patch_eq_ok_iff hhooks hsound).mp hbatch
  have hparts := (PatchRequest.validate_append hfirst hsecond).mp hvalid
  obtain ⟨middle, after, hone, htwo⟩ := applyAll_append_eq_ok_iff.mp happlied
  obtain ⟨hid, hput⟩ := put_finished_finished hsound hfind hone htwo earlier later now
  refine ⟨_, _, (patch_eq_ok_iff hhooks hsound).mpr
      ⟨hparts.1, row, after, middle, hkey, hfind, hone, rfl⟩,
    (patch_after_patch_iff hsound hfind hone hhooks hkey earlier later schemas).mpr
      ⟨hparts.2, last, final, htwo, rfl⟩, row.id, _, hkey, ?_, hput.symm⟩
  exact (Tables.find?_put ..).trans (if_pos hid)

/-- Operations that succeed in two requests succeed in one. -/
theorem patch_of_patch_parts {earlier later : Instant}
    (hpart : ∃ shown, (d.patch earlier type id ⟨schemas, first⟩).run w = (.ok shown, w₁))
    (hrest : ∃ shown, (d.patch later type id ⟨schemas, second⟩).run w₁ = (.ok shown, w₂))
    (now : Instant) :
    ∃ w' shown, (d.patch now type id ⟨schemas, first ++ second⟩).run w = (.ok shown, w') := by
  obtain ⟨hvalid, row, after, middle, hkey, hfind, hone, rfl⟩ :=
    (patch_eq_ok_iff hhooks hsound).mp hpart
  obtain ⟨hvalid', last, final, htwo, -⟩ :=
    (patch_after_patch_iff hsound hfind hone hhooks hkey earlier later schemas).mp hrest
  have hwhole := (PatchRequest.validate_append hfirst hsecond).mpr ⟨hvalid, hvalid'⟩
  exact ⟨_, (patch_eq_ok_iff hhooks hsound).mpr ⟨hwhole, row, last, final, hkey, hfind,
    applyAll_append_eq_ok_iff.mpr ⟨middle, after, hone, htwo⟩, rfl⟩⟩

end

end Directory

/-- In every directory that can be reached, with no hooks, and for every resource, operations that
are split over two requests succeed exactly when they succeed in one, and they leave the same: all
rows and items, in their order, and the version. Only the time of the last change of the resource
is that of the request. -/
theorem batch_leaves_what_its_parts_leave (d : Directory) (hhooks : d.config.hooks = [])
    (history : List (Instant × Command)) (type : ResourceType) (id : String)
    (schemas : List String) (first second : List Operation) (hfirst : first ≠ [])
    (hsecond : second ≠ []) (now earlier later : Instant) :
    let w := d.serveAll history (World.fresh Tables.empty)
    let batch := (d.patch now type id ⟨schemas, first ++ second⟩).run w
    let part := (d.patch earlier type id ⟨schemas, first⟩).run w
    let rest := (d.patch later type id ⟨schemas, second⟩).run part.2
    (batch.1.isOk ↔ part.1.isOk ∧ rest.1.isOk) ∧
      (batch.1.isOk → ∃ (key : Uuid) (row : Row type), Uuid.ofText? id = some key ∧
        rest.2.store.find? type key = some row ∧
        batch.2.store = rest.2.store.put (row.withLastModified now)) := by
  intro w batch part rest
  have hsound : w.store.Sound w.draws :=
    Directory.serveAll_sound (Tables.sound_empty 0) history
  have hforward : batch.1.isOk → part.1.isOk ∧ rest.1.isOk ∧ ∃ (key : Uuid) (row : Row type),
      Uuid.ofText? id = some key ∧ rest.2.store.find? type key = some row ∧
        batch.2.store = rest.2.store.put (row.withLastModified now) := by
    intro hbatch
    obtain ⟨w₁, w₂, ⟨shown, hone⟩, ⟨shown', htwo⟩, hleft⟩ :=
      Directory.patch_parts_of_patch hhooks hsound hfirst hsecond (Directory.isOk_iff.mp hbatch)
        earlier later
    have hpart : part = (.ok shown, w₁) := hone
    have hrest : rest = (.ok shown', w₂) := by
      rw [← htwo]
      exact congrArg (fun w => (d.patch later type id ⟨schemas, second⟩).run w)
        (congrArg Prod.snd hpart)
    rw [hpart, hrest]
    exact ⟨rfl, rfl, hleft⟩
  have hbackward : part.1.isOk → rest.1.isOk → batch.1.isOk := by
    intro hpart hrest
    obtain ⟨w', shown, hbatch⟩ := Directory.patch_of_patch_parts hhooks hsound hfirst hsecond
      (Directory.isOk_iff.mp hpart) (Directory.isOk_iff.mp hrest) now
    have hanswer : batch.1 = .ok shown := congrArg Prod.fst hbatch
    exact Directory.isOk_iff.mpr ⟨shown, Prod.ext hanswer rfl⟩
  exact ⟨⟨fun h => ⟨(hforward h).1, (hforward h).2.1⟩, fun h => hbackward h.1 h.2⟩,
    fun h => (hforward h).2.2⟩

/-- A column and then an item, of which the first request gives the user a version of its own. -/
theorem batch_leaves_what_its_parts_leave_of_mail :
    let d : Directory :=
      ⟨{ Config.standard with restampOnPatch := true }, Stamp.utf8 "salt", Filter.parse⟩
    let history : List (Instant × Command) :=
      [(.ofSeconds 0, @Command.create .user none (User.named "alice"))]
    let id := (Uuid.numbered 1).toText
    let schemas := [PatchRequest.schema]
    let first := [Operation.replace "displayName" (.text "Alice")]
    let second := [Operation.add "emails" (.object [("value", .text "al@example.com")])]
    let w := d.serveAll history (World.fresh Tables.empty)
    let batch := (d.patch (.ofSeconds 1) .user id ⟨schemas, first ++ second⟩).run w
    let part := (d.patch (.ofSeconds 1) .user id ⟨schemas, first⟩).run w
    let rest := (d.patch (.ofSeconds 2) .user id ⟨schemas, second⟩).run part.2
    d.config.hooks = [] ∧ first ≠ [] ∧ second ≠ [] ∧ batch.1.isOk ∧ part.1.isOk ∧ rest.1.isOk ∧
      ∃ (key : Uuid) (row : Row .user), rest.2.store.find? .user key = some row ∧
        batch.2.store = rest.2.store.put (row.withLastModified (.ofSeconds 1)) := by
  intro d history id schemas first second
  have hbatch : ((d.patch (.ofSeconds 1) .user id ⟨schemas, first ++ second⟩).run
      (d.serveAll history (World.fresh Tables.empty))).1.isOk = true := by decide +kernel
  have hsame := batch_leaves_what_its_parts_leave d rfl history .user id schemas first second
    (List.cons_ne_nil _ _) (List.cons_ne_nil _ _) (.ofSeconds 1) (.ofSeconds 1) (.ofSeconds 2)
  obtain ⟨hpart, hrest⟩ := hsame.1.mp hbatch
  obtain ⟨key, row, -, hfind, hput⟩ := hsame.2 hbatch
  exact ⟨rfl, List.cons_ne_nil _ _, List.cons_ne_nil _ _, hbatch, hpart, hrest, key, row, hfind,
    hput⟩

end ScimDirectory
