import ScimDirectory.Version.Stamp

/-!
# Content and its bytes

The bytes that are stamped determine the content. Each part of them says how far it goes, so equal
bytes start with parts that agree, and what follows these parts is equal again: an optional text by
its first byte and its length, a list by its number of items, an item by its fixed number of parts.
Lengths and numbers of items are written in eight bytes, which is all that is assumed of them.
-/

namespace ScimDirectory

namespace Stamp

variable {α β γ : Type} {s t : Bytes}

/-- The bound of what eight bytes can count. -/
abbrev countable : Nat := UInt64.size

/-- An encoding of values that fit, of which equal bytes are the bytes of values that show the
same, whatever follows them. -/
structure Delimited (fits : α → Prop) (shows : α → β) (encode : α → Bytes) : Prop where
  /-- Equal bytes are those of values that show the same, and what follows is equal. -/
  append_inj : ∀ {a b : α} {s t : Bytes}, fits a → fits b →
    (encode a ++ s = encode b ++ t ↔ shows a = shows b ∧ s = t)

/-- The same agreement may be said in other words. -/
theorem Delimited.restate {fits : α → Prop} {shows : α → β} {shows' : α → γ} {encode : α → Bytes}
    (h : Delimited fits shows encode) (hshows : ∀ a b, shows a = shows b ↔ shows' a = shows' b) :
    Delimited fits shows' encode where
  append_inj ha hb := by rw [h.append_inj ha hb, hshows]

/-- Eight bytes hold a number below their bound. -/
theorem count_inj {m n : Nat} (hm : m < countable) (hn : n < countable) :
    count m = count n ↔ m = n := by
  constructor
  · intro h
    simp [count, Digest.bytesOfLength, List.range_succ, UInt8.ofNat_eq_iff_mod_eq_toNat] at h
    unfold countable UInt64.size at hm hn
    omega
  · rintro rfl
    rfl

/-- A list of so many items would be counted like an empty one. -/
example : count countable = count 0 := by decide

/-- A number is delimited by its eight bytes. -/
theorem delimited_count : Delimited (· < countable) id count := by
  refine ⟨fun {m n s t} hm hn => ?_⟩
  constructor
  · intro h
    obtain ⟨hcount, hrest⟩ := List.append_inj h rfl
    exact ⟨(count_inj hm hn).mp hcount, hrest⟩
  · rintro ⟨hsame, rfl⟩
    rw [id, id] at hsame
    rw [hsame]

theorem utf8_inj {a b : String} : utf8 a = utf8 b ↔ a = b := by
  rw [utf8, utf8, Array.toList_inj, ← ByteArray.ext_iff]
  exact String.toByteArray_inj

/-- An optional text whose length in bytes can be counted. -/
def TextFits (text : Option String) : Prop := ∀ s, text = some s → s.utf8ByteSize < countable

instance : DecidablePred TextFits
  | none => isTrue fun _ h => nomatch h
  | some s => decidable_of_iff (s.utf8ByteSize < countable)
    ⟨fun h _ hs => Option.some.inj hs ▸ h, fun h => h s rfl⟩

/-- An optional text is delimited by its first byte and its length. -/
theorem delimited_text : Delimited TextFits id text := by
  refine ⟨fun {a b s t} ha hb => ?_⟩
  cases a with
  | none =>
    cases b with
    | none => simp [text]
    | some b => simp [text]
  | some a =>
    cases b with
    | none => simp [text]
    | some b =>
      have ha : (utf8 a).length < countable := ha a rfl
      have hb : (utf8 b).length < countable := hb b rfl
      simp only [text, List.cons_append, List.append_assoc, List.cons.injEq, true_and, id,
        Option.some.injEq]
      rw [delimited_count.append_inj ha hb]
      constructor
      · rintro ⟨hlength, hrest⟩
        obtain ⟨htext, hrest⟩ := List.append_inj hrest hlength
        exact ⟨utf8_inj.mp htext, hrest⟩
      · rintro ⟨rfl, rfl⟩
        exact ⟨rfl, rfl⟩

/-- A mark is one byte. -/
theorem delimited_flag : Delimited (fun _ => True) id flag := by
  refine ⟨fun {a b s t} _ _ => ?_⟩
  cases a <;> cases b <;> simp [flag]

/-- Delimited parts of which there are equally many are delimited together. -/
theorem flatMap_append_inj {fits : α → Prop} {shows : α → β} {encode : α → Bytes}
    (h : Delimited fits shows encode) {l l' : List α} (hlength : l.length = l'.length)
    (hl : ∀ a ∈ l, fits a) (hl' : ∀ a ∈ l', fits a) :
    l.flatMap encode ++ s = l'.flatMap encode ++ t ↔ l.map shows = l'.map shows ∧ s = t := by
  induction l generalizing l' with
  | nil =>
    obtain rfl := List.length_eq_zero_iff.mp hlength.symm
    simp
  | cons a l ih =>
    cases l' with
    | nil => cases hlength
    | cons b l' =>
      obtain ⟨ha, hl⟩ := List.forall_mem_cons.mp hl
      obtain ⟨hb, hl'⟩ := List.forall_mem_cons.mp hl'
      have htail := ih (Nat.succ.inj hlength) hl hl'
      simp only [List.flatMap_cons, List.append_assoc, List.map_cons, List.cons.injEq]
      rw [h.append_inj ha hb, htail, and_assoc]

/-- A list that can be counted. -/
def ListFits (fits : α → Prop) (l : List α) : Prop := l.length < countable ∧ ∀ a ∈ l, fits a

instance {fits : α → Prop} [DecidablePred fits] : DecidablePred (ListFits fits) := fun _ =>
  inferInstanceAs (Decidable (_ ∧ _))

/-- A list is delimited by its number of items when its items are delimited. -/
theorem delimited_items {fits : α → Prop} {shows : α → β} {encode : α → Bytes}
    (h : Delimited fits shows encode) :
    Delimited (ListFits fits) (List.map shows) (items encode) := by
  refine ⟨fun {l l' s t} hl hl' => ?_⟩
  simp only [items, List.append_assoc]
  rw [delimited_count.append_inj hl.1 hl'.1]
  constructor
  · rintro ⟨hlength, hrest⟩
    exact (flatMap_append_inj h hlength hl.2 hl'.2).mp hrest
  · rintro ⟨hmap, rfl⟩
    have hlength : l.length = l'.length := by simpa using congrArg List.length hmap
    exact ⟨hlength, (flatMap_append_inj h hlength hl.2 hl'.2).mpr ⟨hmap, rfl⟩⟩

/-- An item of a fixed number of texts with a mark at its end is delimited. -/
theorem delimited_marked {texts : α → List (Option String)} {mark : α → Bool}
    {encode : α → Bytes} (hencode : ∀ a, encode a = (texts a).flatMap text ++ flag (mark a))
    (hlength : ∀ a b, (texts a).length = (texts b).length) :
    Delimited (fun a => ∀ x ∈ texts a, TextFits x) (fun a => (texts a, mark a)) encode := by
  refine ⟨fun {a b s t} ha hb => ?_⟩
  simp only [hencode, List.append_assoc]
  rw [flatMap_append_inj delimited_text (hlength a b) ha hb, delimited_flag.append_inj trivial trivial,
    List.map_id, List.map_id, Prod.mk.injEq, and_assoc]
  rfl

end Stamp

/-- The texts of a plain value. -/
def MultiValue.texts (item : MultiValue) : List (Option String) :=
  [item.value, item.display, item.type]

/-- A plain value of which only counts whether it is marked as the preferred one. -/
def MultiValue.settled (item : MultiValue) : MultiValue :=
  { item with primary := some item.isPrimary }

/-- The texts of an address. -/
def Address.texts (address : Address) : List (Option String) :=
  [address.formatted, address.streetAddress, address.locality, address.region, address.postalCode,
    address.country, address.type]

/-- An address of which only counts whether it is marked as the preferred one. -/
def Address.settled (address : Address) : Address :=
  { address with primary := some address.isPrimary }

/-- The texts of a member. -/
def Member.texts (member : Member) : List (Option String) :=
  [some member.value, member.display, member.type, member.ref]

/-- The texts of a user, those of items aside. -/
def User.texts (user : User) : List (Option String) :=
  let name := user.name.getD .empty
  [some user.userName, user.externalId, user.displayName, user.nickName, user.profileUrl,
    user.title, user.userType, user.preferredLanguage, user.locale, user.timezone,
    user.active.map Text.truth, user.password, name.formatted, name.familyName, name.givenName,
    name.middleName, name.honorificPrefix, name.honorificSuffix]

/-- A user whose texts and lists are of a length that can be counted. -/
structure User.Countable (user : User) : Prop where
  /-- The singular attributes. -/
  texts : ∀ x ∈ user.texts, Stamp.TextFits x
  /-- The plain values. -/
  values : ∀ c, Stamp.ListFits (fun item => ∀ x ∈ item.texts, Stamp.TextFits x) (user.values c)
  /-- The addresses. -/
  addresses : Stamp.ListFits (fun item => ∀ x ∈ item.texts, Stamp.TextFits x) user.addresses

/-- A group whose texts and lists are of a length that can be counted. -/
structure Group.Countable (group : Group) : Prop where
  /-- The name shown for the group. -/
  displayName : Stamp.TextFits (some group.displayName)
  /-- The identifier that the client keeps. -/
  externalId : Stamp.TextFits group.externalId
  /-- The members. -/
  members : Stamp.ListFits (fun item => ∀ x ∈ item.texts, Stamp.TextFits x) group.members

/-- Two users that agree on all that is stamped. An absent name counts as one without components,
and of the mark of an item only counts whether it is set. -/
structure User.SameContent (a b : User) : Prop where
  /-- The name the user signs in with. -/
  userName : a.userName = b.userName
  /-- The optional singular attributes, the password among them. -/
  profile : a.toProfile = b.toProfile
  /-- The components of the name. -/
  name : a.name.getD .empty = b.name.getD .empty
  /-- The plain values of each collection, in order. -/
  values : ∀ c, (a.values c).map MultiValue.settled = (b.values c).map MultiValue.settled
  /-- The addresses, in order. -/
  addresses : a.addresses.map Address.settled = b.addresses.map Address.settled

/-- Two groups that agree on all that is stamped. -/
structure Group.SameContent (a b : Group) : Prop where
  /-- The name shown for the group. -/
  displayName : a.displayName = b.displayName
  /-- The identifier that the client keeps. -/
  externalId : a.externalId = b.externalId
  /-- The members, in order. -/
  members : a.members = b.members

namespace Stamp

/-- A plain value is delimited. -/
theorem delimited_value :
    Delimited (fun item => ∀ x ∈ item.texts, TextFits x) MultiValue.settled value := by
  have hencode : ∀ item, value item = item.texts.flatMap text ++ flag item.isPrimary := by
    intro item
    simp [value, MultiValue.texts]
  refine Delimited.restate (delimited_marked hencode fun _ _ => rfl) fun a b => ?_
  simp only [MultiValue.texts, MultiValue.settled]
  grind

/-- An address is delimited. -/
theorem delimited_address :
    Delimited (fun item => ∀ x ∈ item.texts, TextFits x) Address.settled address := by
  have hencode : ∀ item, address item = item.texts.flatMap text ++ flag item.isPrimary := by
    intro item
    simp [address, Address.texts]
  refine Delimited.restate (delimited_marked hencode fun _ _ => rfl) fun a b => ?_
  simp only [Address.texts, Address.settled]
  grind

/-- A member is delimited, and all of it is shown. -/
theorem delimited_member :
    Delimited (fun item => ∀ x ∈ item.texts, TextFits x) id member := by
  have hencode : ∀ item : Member, member item = item.texts.flatMap text ++ flag false := by
    intro item
    simp [member, Member.texts]
  refine Delimited.restate (delimited_marked hencode fun _ _ => rfl) fun a b => ?_
  cases a
  cases b
  simp only [Member.texts, id]
  grind

/-- The collections of plain values that are stamped before the addresses. -/
def collectionsBefore : List Collection := [.emails, .phoneNumbers, .ims, .photos]

/-- The collections of plain values that are stamped after the addresses. -/
def collectionsAfter : List Collection := [.entitlements, .roles, .x509Certificates]

/-- The content of a user is a row of texts and a row of lists. -/
theorem user_eq (u : User) :
    user u = u.texts.flatMap text ++ ((collectionsBefore.map u.values).flatMap (items value) ++
      (items address u.addresses ++ (collectionsAfter.map u.values).flatMap (items value))) := by
  unfold user name User.texts
  simp only [collectionsBefore, collectionsAfter, List.map_cons,
    List.map_nil, List.flatMap_cons, List.flatMap_nil, List.append_nil, List.append_assoc]

/-- The words for truth values tell them apart. -/
theorem map_truth_inj {a b : Option Bool} : a.map Text.truth = b.map Text.truth ↔ a = b := by
  rcases a with _ | _ | _ <;> rcases b with _ | _ | _ <;> decide

/-- The singular attributes of a user are those that its texts show. -/
theorem texts_eq_iff (u v : User) :
    u.texts = v.texts ↔ u.userName = v.userName ∧ u.toProfile = v.toProfile ∧
      u.name.getD .empty = v.name.getD .empty := by
  obtain ⟨profile, schemas, id, userName, name, values, addresses, groups, metadata⟩ := u
  obtain ⟨profile', schemas', id', userName', name', values', addresses', groups', metadata'⟩ := v
  simp only [User.texts]
  generalize name.getD .empty = name
  generalize name'.getD .empty = name'
  cases profile
  cases profile'
  cases name
  cases name'
  simp only [List.cons.injEq, Option.some.injEq, map_truth_inj, Profile.mk.injEq,
    PersonName.mk.injEq, and_assoc, and_true]

variable {u v : User}

/-- Collections of users have the same bytes when their items show the same. -/
theorem collections_append_inj (collections : List Collection) (hu : u.Countable)
    (hv : v.Countable) :
    (collections.map u.values).flatMap (items value) ++ s =
        (collections.map v.values).flatMap (items value) ++ t ↔
      (∀ c ∈ collections,
        (u.values c).map MultiValue.settled = (v.values c).map MultiValue.settled) ∧ s = t := by
  have hlength : (collections.map u.values).length = (collections.map v.values).length := by simp
  have hfits : ∀ {w : User}, w.Countable → ∀ l ∈ collections.map w.values,
      ListFits (fun item => ∀ x ∈ item.texts, TextFits x) l := by
    intro w hw l hmem
    obtain ⟨c, -, rfl⟩ := List.mem_map.mp hmem
    exact hw.values c
  rw [flatMap_append_inj (delimited_items delimited_value) hlength (hfits hu) (hfits hv),
    List.map_map, List.map_map, List.map_inj_left]
  rfl

/-- The content of users is equal exactly when they agree on all that is stamped. -/
theorem user_inj (hu : u.Countable) (hv : v.Countable) :
    user u = user v ↔ u.SameContent v := by
  have hparts : user u = user v ↔
      (u.userName = v.userName ∧ u.toProfile = v.toProfile ∧
        u.name.getD .empty = v.name.getD .empty) ∧
      (∀ c ∈ collectionsBefore,
        (u.values c).map MultiValue.settled = (v.values c).map MultiValue.settled) ∧
      u.addresses.map Address.settled = v.addresses.map Address.settled ∧
      (∀ c ∈ collectionsAfter,
        (u.values c).map MultiValue.settled = (v.values c).map MultiValue.settled) := by
    have htexts : u.texts.length = v.texts.length := rfl
    rw [← List.append_nil (user u), ← List.append_nil (user v), user_eq, user_eq]
    simp only [List.append_assoc]
    rw [flatMap_append_inj delimited_text htexts hu.texts hv.texts, List.map_id, List.map_id,
      texts_eq_iff, collections_append_inj collectionsBefore hu hv,
      (delimited_items delimited_address).append_inj hu.addresses hv.addresses,
      collections_append_inj collectionsAfter hu hv, eq_self, and_true]
  rw [hparts]
  constructor
  · rintro ⟨⟨huserName, hprofile, hname⟩, hbefore, haddresses, hafter⟩
    refine ⟨huserName, hprofile, hname, fun c => ?_, haddresses⟩
    have hlisted : c ∈ collectionsBefore ∨ c ∈ collectionsAfter := by cases c <;> decide
    exact hlisted.elim (hbefore c) (hafter c)
  · intro h
    exact ⟨⟨h.userName, h.profile, h.name⟩, fun c _ => h.values c, h.addresses,
      fun c _ => h.values c⟩

/-- The content of groups is equal exactly when they agree on all that is stamped. -/
theorem group_inj {g h : Group} (hg : g.Countable) (hh : h.Countable) :
    group g = group h ↔ g.SameContent h := by
  have heq : ∀ x : Group, group x =
      text (some x.displayName) ++ (text x.externalId ++ (items member x.members ++ [])) := by
    intro x
    simp only [group, List.append_assoc, List.append_nil]
  rw [heq g, heq h, delimited_text.append_inj hg.displayName hh.displayName,
    delimited_text.append_inj hg.externalId hh.externalId,
    (delimited_items delimited_member).append_inj hg.members hh.members, List.map_id, List.map_id]
  constructor
  · rintro ⟨hdisplayName, hexternalId, hmembers, -⟩
    exact ⟨Option.some.inj hdisplayName, hexternalId, hmembers⟩
  · intro h
    exact ⟨congrArg some h.displayName, h.externalId, h.members, rfl⟩

end Stamp

/-- Under every salt, the bytes that are digested for two users, or for two groups, are equal
exactly when the two agree on all that is stamped. Texts and lists are taken to be shorter than
what eight bytes can count. -/
theorem stamped_bytes_eq_iff_same_content (salt : Stamp.Bytes) :
    (∀ u v : User, u.Countable → v.Countable →
      (salt ++ Stamp.user u = salt ++ Stamp.user v ↔ u.SameContent v)) ∧
    ∀ g h : Group, g.Countable → h.Countable →
      (salt ++ Stamp.group g = salt ++ Stamp.group h ↔ g.SameContent h) := by
  constructor
  · intro u v hu hv
    rw [List.append_cancel_left_eq]
    exact Stamp.user_inj hu hv
  · intro g h hg hh
    rw [List.append_cancel_left_eq]
    exact Stamp.group_inj hg hh

/-- A text that slides from one attribute to the next changes the bytes; a mark that is left open
instead of not being set does not. -/
theorem stamped_bytes_eq_iff_same_content_of_slid_text :
    let salt := Stamp.utf8 "salt"
    let mail (primary : Option Bool) : Collection → List MultiValue
      | .emails => [{ MultiValue.ofValue "al@example.com" with primary }]
      | _ => []
    let u := { User.named "al" with displayName := some "Al", values := mail none }
    let v := { User.named "al" with nickName := some "Al", values := mail none }
    let w := { User.named "al" with displayName := some "Al", values := mail (some false) }
    u.Countable ∧ v.Countable ∧ w.Countable ∧
      salt ++ Stamp.user u ≠ salt ++ Stamp.user v ∧ salt ++ Stamp.user u = salt ++ Stamp.user w := by
  intro salt mail u v w
  have hu : u.Countable := ⟨by decide, fun c => by cases c <;> decide, by decide⟩
  have hv : v.Countable := ⟨by decide, fun c => by cases c <;> decide, by decide⟩
  have hw : w.Countable := ⟨by decide, fun c => by cases c <;> decide, by decide⟩
  have hbytes := (stamped_bytes_eq_iff_same_content salt).1
  refine ⟨hu, hv, hw, fun heq => ?_, (hbytes u w hu hw).mpr ?_⟩
  · have hslid := congrArg Profile.nickName ((hbytes u v hu hv).mp heq).profile
    cases hslid
  · exact ⟨rfl, rfl, rfl, fun c => by cases c <;> rfl, rfl⟩

end ScimDirectory
