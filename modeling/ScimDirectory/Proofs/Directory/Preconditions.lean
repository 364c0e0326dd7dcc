import ScimDirectory.Proofs.Directory.Confinement
import ScimDirectory.Proofs.Directory.WholeWrites
import ScimDirectory.Proofs.Uuid
import ScimDirectory.Proofs.Version.Headers

/-!
# Preconditions of replacements

A client that replaces a resource may name the version that it expects. The resource always has a
version that a header can hold. A replacement whose header is a star or holds that version goes on
as one without a header, and any other is refused before anything is stored.
-/

namespace ScimDirectory

/-- The version of content is never empty. -/
theorem Stamp.tag_value_ne_empty (salt content : Stamp.Bytes) : (tag salt content).value ≠ "" := by
  intro h
  have hchars := congrArg String.toList h
  rw [tag, Digest.base64, String.toList_ofList] at hchars
  -- A digest has more than two bytes, so its encoding begins with a whole group.
  exact List.cons_ne_nil _ _ hchars

/-- A row has a version that a header can hold, and has it in the weak form. -/
def Row.IsTagged {type : ResourceType} (row : Row type) : Prop :=
  ∃ tag : EntityTag, tag.value ≠ "" ∧ row.etag = tag.header

namespace EntityTag

/-- A header lets a resource with a version pass: it is a star, or it holds that version. -/
def Admits (header : String) (stored : EntityTag) : Prop :=
  Text.trimmed header = "*" ∨ ofHeader? header = .ok stored

/-- How a header is refused: it cannot be read, or it holds another version than the current one. -/
def refusal (header current : String) : DirectoryError :=
  match ofHeader? header with
  | .error _ => .version (.invalidHeader (Text.trimmed header))
  | .ok _ => .preconditionFailed (Text.trimmed header) current

end EntityTag

/-- An error tells of a version: one that cannot be read, or one that is not met. -/
def DirectoryError.IsOfVersion (error : DirectoryError) : Prop :=
  (∃ unread, error = .version unread) ∨
    ∃ expected current, error = .preconditionFailed expected current

namespace Directory

variable {d : Directory} {type : ResourceType} {w : World Tables} {header current : String}
  {stored : EntityTag}

/-- The stamp of a record is the weak form of a version. -/
theorem exists_tag_stamp (d : Directory) (record : Record type) :
    ∃ tag : EntityTag, tag.value ≠ "" ∧ d.stamp record = tag.header := by
  cases type <;> exact ⟨Stamp.tag _ _, Stamp.tag_value_ne_empty _ _, rfl⟩

theorem isTagged_recordOf (d : Directory) (resource : Resource type) (id : Uuid)
    (created now : Instant) (draw : Nat) :
    (d.recordOf resource id created now draw).row.IsTagged := by
  rw [Row.IsTagged, etag_recordOf]
  exact d.exists_tag_stamp _

theorem isTagged_finished (now : Instant) {record : Record type} (h : record.row.IsTagged) :
    (d.finished now record).IsTagged := by
  rw [Row.IsTagged]
  cases hrestamp : d.config.restampOnPatch with
  | true =>
    rw [etag_finished d hrestamp]
    exact d.exists_tag_stamp _
  | false =>
    rw [etag_finished_of_not hrestamp]
    exact h

/-- Every change leaves rows tagged. -/
theorem Change.rows_tagged {before after : Stock} (h : d.Change before after)
    (htagged : before.1.RowsSatisfy fun _ row => row.IsTagged) :
    after.1.RowsSatisfy fun _ row => row.IsTagged := by
  cases h with
  | leave user => exact htagged.of_rows fun _ => Tables.rows_without ..
  | write h =>
    cases h with
    | draw hmore => exact htagged
    | create resource now hvalid hwrite =>
      obtain ⟨-, -, -, rfl, -⟩ := Tables.insert_eq_ok hwrite
      exact (htagged.put (d.isTagged_recordOf ..)).of_rows fun _ => Tables.rows_addItems ..
    | replace resource now hfind hvalid hwrite =>
      obtain ⟨-, -, -, rfl, -⟩ := Tables.replace_eq_ok hwrite
      exact (htagged.put (d.isTagged_recordOf ..)).of_rows fun _ =>
        (Tables.rows_addItems ..).trans (Tables.rows_dropItems ..)
    | delete =>
      unfold Tables.delete
      split
      · exact (htagged.dropRow _ _).of_rows fun _ => Tables.rows_dropItems ..
      · exact htagged
    | assign updates hfind hassigned hwrite =>
      obtain ⟨-, -, -, rfl⟩ := Tables.update_eq_ok hwrite
      refine htagged.put ?_
      rw [Row.IsTagged, (Patch.sameSystem_of_assigned hassigned).etag]
      exact htagged _ (Tables.mem_of_find? hfind)
    | add | reset | remove | adjust | merge => exact htagged.of_rows fun _ => by simp
    | finish now hfind hwrite =>
      obtain ⟨-, -, -, rfl⟩ := Tables.update_eq_ok hwrite
      exact htagged.put (isTagged_finished now (htagged _ (Tables.mem_of_find? hfind)))

/-- Every stored row is tagged. -/
theorem isTagged_of_get? (d : Directory) (history : List (Instant × Command)) {id : Uuid}
    {record : Record type}
    (hget : (d.serveAll history (World.fresh Tables.empty)).store.get? type id = some record) :
    record.row.IsTagged := by
  have hempty : Tables.empty.RowsSatisfy fun _ row => row.IsTagged := by
    intro type row hmem
    cases type <;> cases hmem
  have htagged := (@serveAll_invariant d (World.fresh Tables.empty) _
    (fun hchange _ => hchange.rows_tagged) (Tables.sound_empty 0) hempty history).2
  exact htagged _ (Tables.mem_of_find? (Tables.get?_eq_some hget).1)

/-- A header that lets the current version pass is no obstacle. -/
theorem checkPrecondition_of_admits (hcurrent : EntityTag.ofHeader? current = .ok stored)
    (h : EntityTag.Admits header stored) : checkPrecondition (some header) current = .ok () := by
  unfold checkPrecondition
  rcases h with hstar | hread
  · simp only [Option.map_some, hstar, if_true]
  · simp only [Option.map_some, EntityTag.ofHeader?_trimmed.mpr hread, hcurrent, if_true, ite_self]

/-- Any other header is refused. -/
theorem checkPrecondition_of_not_admits (hcurrent : EntityTag.ofHeader? current = .ok stored)
    (h : ¬EntityTag.Admits header stored) :
    checkPrecondition (some header) current = .error (EntityTag.refusal header current) := by
  obtain ⟨hstar, hother⟩ := not_or.mp h
  unfold checkPrecondition EntityTag.refusal
  simp only [Option.map_some, hstar, if_false]
  cases hread : EntityTag.ofHeader? header with
  | ok wanted =>
    rw [EntityTag.ofHeader?_trimmed.mpr hread, hcurrent]
    have hne : stored ≠ wanted := fun heq => hother (heq ▸ hread)
    simp only [hne, if_false]
  | error error =>
    cases htrimmed : EntityTag.ofHeader? (Text.trimmed header) with
    | ok wanted => cases hread.symm.trans (EntityTag.ofHeader?_trimmed.mp htrimmed)
    | error error => rw [EntityTag.error_of_ofHeader? htrimmed]

/-- What a replacement without a header fails with tells of no version. -/
theorem not_isOfVersion_of_replace {now : Instant} {id : String} {uuid : Uuid}
    {resource : Resource type} {record : Record type} (hid : idOf type id = .ok uuid)
    (hvalid : validate resource = .ok ()) (hget : w.store.get? type uuid = some record)
    {error : DirectoryError}
    (hrun : ((d.replace now id resource none).run w).1 = .error error) :
    ¬error.IsOfVersion := by
  have hcheck : checkPrecondition none record.row.etag = .ok () := rfl
  rw [replace_run, hid, hvalid] at hrun
  simp only [hget, hcheck] at hrun
  split at hrun
  · cases hrun
    rintro (⟨_, h⟩ | ⟨_, _, h⟩) <;> cases h
  · next stored store hwrite =>
    obtain ⟨shown, hshown⟩ := d.exists_shown store stored
    simp only [answered, hshown, hooked, Hook.run_eq] at hrun
    cases hfailure : Hook.firstFailure? shown d.config.hooks with
    | none =>
      rw [hfailure] at hrun
      cases hrun
    | some failure =>
      rw [hfailure] at hrun
      cases hrun
      obtain ⟨detail, rfl⟩ := Hook.hook_of_firstFailure? hfailure
      rintro (⟨_, h⟩ | ⟨_, _, h⟩) <;> cases h

end Directory

/-- A header holds a version exactly when it is the version between quotes, with or without a `W/`
and with any blanks around it, and the version is not empty. In every directory that can be reached
a stored resource has such a version, in the weak form. A valid replacement with a header that is a
star or holds this version goes on as one without a header; with any other header it is refused, for
a header that cannot be read or for one that is not met, and it leaves everything as it was. -/
theorem if_match_is_exact (d : Directory) (history : List (Instant × Command)) :
    ((∀ (text : String) (tag : EntityTag), EntityTag.ofHeader? text = .ok tag ↔
        tag.value ≠ "" ∧
          (Text.trimmed text = tag.header ∨ Text.trimmed text = tag.strongHeader)) ∧
      ∀ (tag : EntityTag) (before after : String), tag.value ≠ "" → Text.allBlank before = true →
        Text.allBlank after = true →
        EntityTag.ofHeader? (before ++ (tag.header ++ after)) = .ok tag ∧
          EntityTag.ofHeader? (before ++ (tag.strongHeader ++ after)) = .ok tag) ∧
    ∀ {now : Instant} {w : World Tables} {type : ResourceType} {id : String} {uuid : Uuid}
      {resource : Resource type} {current : Record type},
      d.serveAll history (World.fresh Tables.empty) = w → Uuid.ofText? id = some uuid →
      Directory.validate resource = .ok () → w.store.get? type uuid = some current →
      ∃ stored : EntityTag, stored.value ≠ "" ∧ current.row.etag = stored.header ∧
        ∀ header : String,
          let replaced ifMatch := (d.replace now id resource ifMatch).run w
          (stored.Admits header ↔
            ∀ error, (replaced (some header)).1 = .error error → ¬error.IsOfVersion) ∧
          (stored.Admits header → replaced (some header) = replaced none) ∧
          (¬stored.Admits header →
            replaced (some header) = (.error (EntityTag.refusal header current.row.etag), w)) := by
  refine ⟨EntityTag.headers_are_exact, ?_⟩
  intro now w type id uuid resource current hreached hkey hvalid hstored
  have hid : Directory.idOf type id = .ok uuid := Directory.idOf_eq_ok.mpr hkey
  obtain ⟨stored, hvalue, hetag⟩ := d.isTagged_of_get? history (hreached ▸ hstored)
  have hcurrent : EntityTag.ofHeader? current.row.etag = .ok stored := by
    rw [hetag]
    exact EntityTag.ofHeader?_form hvalue (.inl rfl)
  have hpasses {header : String} (h : stored.Admits header) :
      (d.replace now id resource (some header)).run w =
        (d.replace now id resource none).run w := by
    rw [Directory.replace_run, Directory.replace_run, hid, hvalid]
    simp only [hstored, Directory.checkPrecondition_of_admits hcurrent h]
    rfl
  have hrefused {header : String} (h : ¬stored.Admits header) :
      (d.replace now id resource (some header)).run w =
        (.error (EntityTag.refusal header current.row.etag), w) := by
    rw [Directory.replace_run, hid, hvalid]
    simp only [hstored, Directory.checkPrecondition_of_not_admits hcurrent h]
  refine ⟨stored, hvalue, hetag,
    fun header => ⟨⟨fun h error hrun => ?_, fun h => ?_⟩, hpasses, hrefused⟩⟩
  · have hsame := congrArg Prod.fst (hpasses h)
    exact Directory.not_isOfVersion_of_replace hid hvalid hstored (hsame.symm.trans hrun)
  · by_contra hnot
    refine h _ (congrArg Prod.fst (hrefused hnot)) ?_
    unfold EntityTag.refusal
    split
    · exact .inl ⟨_, rfl⟩
    · exact .inr ⟨_, _, rfl⟩

/-- A group is replaced for a star and for its own version in the strong form, and not for its own
name. -/
theorem if_match_is_exact_of_crew :
    let d : Directory := ⟨Config.standard, Stamp.utf8 "salt", Filter.parse⟩
    let key := Uuid.numbered 1
    let crew : Resource .group := Group.named "crew"
    let w := d.serveAll [(.ofSeconds 0, .create none crew)] (World.fresh Tables.empty)
    let replaced ifMatch := (d.replace (.ofSeconds 1) key.toText crew ifMatch).run w
    ∃ (current : Record .group) (stored : EntityTag),
      Uuid.ofText? key.toText = some key ∧ Directory.validate crew = .ok () ∧
      w.store.get? .group key = some current ∧ current.row.etag = stored.header ∧
      replaced (some " * ") = replaced none ∧
      replaced (some stored.strongHeader) = replaced none ∧
      replaced (some " crew ") = (.error (.version (.invalidHeader "crew")), w) := by
  intro d key crew w replaced
  have hvalid : Directory.validate crew = .ok () := by decide +kernel
  have hthere : (w.store.get? .group key).isSome = true := by decide +kernel
  obtain ⟨current, hstored⟩ := Option.isSome_iff_exists.mp hthere
  obtain ⟨stored, hvalue, hetag, hreplaced⟩ :=
    (if_match_is_exact d _).2 rfl key.ofText?_toText hvalid hstored
  have hstrong : EntityTag.ofHeader? stored.strongHeader = .ok stored :=
    EntityTag.ofHeader?_form hvalue (.inr rfl)
  have hunread : EntityTag.ofHeader? " crew " = .error (.invalidHeader " crew ") := by decide
  have hother : ¬stored.Admits " crew " := by
    rintro (hstar | hread)
    · exact absurd hstar (by decide)
    · cases hunread.symm.trans hread
  refine ⟨current, stored, key.ofText?_toText, hvalid, hstored, hetag, ?_, ?_, ?_⟩
  · exact (hreplaced " * ").2.1 (.inl (by decide))
  · exact (hreplaced stored.strongHeader).2.1 (.inr hstrong)
  · refine ((hreplaced " crew ").2.2 hother).trans ?_
    have hname : Text.trimmed " crew " = "crew" := by decide
    rw [EntityTag.refusal, hunread, ← hname]

end ScimDirectory
