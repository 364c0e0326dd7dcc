import ScimDirectory.Filter.Compile
import ScimDirectory.Proofs.Directory.Derived
import ScimDirectory.Proofs.Store.History

/-!
# Names of users

Storage refuses a name that another user has in letters of any case. A filter that asks for the
users with a name compiles to a comparison that folds case, and finds one user at most. Over all
that calls can store the two agree, whichever call writes the name: it is refused exactly when the
filter finds a user other than the one that is written.
-/

namespace ScimDirectory

/-- The filter that asks for the users with a name becomes a comparison that folds case, and no
predicate for groups. -/
theorem Filter.compile_userName (name : String) (wantGroups : Bool) :
    Filter.compile (.compare "userName" .eq (.text name)) true wantGroups =
      .ok ⟨some (.equals .userName (.text name) true), none⟩ := by
  cases wantGroups <;> rfl

namespace Tables

variable {tables : Tables}

/-- The comparison holds of a user whose name is the same in letters of any case. -/
theorem evaluate_userName (name : String) (row : Row .user) :
    (Predicate.equals .userName (.text name) true).evaluate (tables.view row) =
      .ok (Text.lowercase (UserRow.userName row) == Text.lowercase name) := by
  have hchars : (comparedChars true (UserRow.userName row) == comparedChars true name) =
      (Text.lowercase (UserRow.userName row) == Text.lowercase name) := by
    rw [Bool.eq_iff_iff, beq_iff_eq, beq_iff_eq]
    exact String.toList_inj
  exact congrArg Except.ok hchars

/-- The users with a name, in letters of any case. -/
def usersNamed (tables : Tables) (name : String) : List (Record .user) :=
  (tables.recordsInOrder .user).filter fun user =>
    Text.lowercase (UserRow.userName user.row) == Text.lowercase name

theorem mem_usersNamed {name : String} {user : Record .user} :
    user ∈ tables.usersNamed name ↔ (∃ row ∈ tables.users, tables.record row = user) ∧
      Text.lowercase (UserRow.userName user.row) = Text.lowercase name := by
  rw [usersNamed, List.mem_filter, mem_recordsInOrder, beq_iff_eq]
  rfl

/-- The users with a name are those whose rows satisfy the comparison. -/
theorem mem_usersNamed_iff_evaluate {name : String} {user : Record .user} :
    user ∈ tables.usersNamed name ↔ ∃ row : Row .user, row ∈ tables.rows .user ∧
      tables.record row = user ∧
        (Predicate.equals .userName (.text name) true).evaluate (tables.view row) = .ok true := by
  rw [mem_usersNamed]
  constructor
  · rintro ⟨⟨row, hmem, rfl⟩, hsame⟩
    exact ⟨row, hmem, rfl, (evaluate_userName name row).trans
      (congrArg Except.ok (beq_iff_eq.mpr hsame))⟩
  · rintro ⟨row, hmem, rfl, hholds⟩
    rw [evaluate_userName] at hholds
    exact ⟨⟨row, hmem, rfl⟩, beq_iff_eq.mp (Except.ok.inj hholds)⟩

/-- The comparison finds the users with the name. -/
theorem WellFormed.query_userName (h : tables.WellFormed) (name : String) :
    tables.query .user (some (.equals .userName (.text name) true)) =
      .ok (tables.usersNamed name) :=
  query_eq_filter (h.keys .user) fun row _ => evaluate_userName name row

/-- One user at most has a name. -/
theorem WellFormed.length_usersNamed (h : tables.WellFormed) (name : String) :
    (tables.usersNamed name).length ≤ 1 := by
  have hsorted : ((tables.rows .user).mergeSort inOrder).Pairwise fun a b : UserRow =>
      Text.lowercase a.userName ≠ Text.lowercase b.userName :=
    ((List.mergeSort_perm ..).pairwise_iff fun hne => Ne.symm hne).mpr h.names
  have hfound : (tables.usersNamed name).Pairwise fun a b =>
      Text.lowercase (UserRow.userName a.row) ≠ Text.lowercase (UserRow.userName b.row) :=
    .filter _ (List.pairwise_map.mpr hsorted)
  by_contra hmore
  obtain ⟨hfirst, hsecond⟩ : 0 < (tables.usersNamed name).length ∧
      1 < (tables.usersNamed name).length := by omega
  refine List.pairwise_iff_getElem.mp hfound 0 1 hfirst hsecond Nat.zero_lt_one ?_
  rw [(mem_usersNamed.mp (List.getElem_mem hfirst)).2,
    (mem_usersNamed.mp (List.getElem_mem hsecond)).2]

/-- A name is taken exactly when another user has it. -/
theorem nameTaken_iff {row : Row .user} : tables.nameTaken row = true ↔
    ∃ other ∈ tables.usersNamed (UserRow.userName row), other.row.id ≠ row.id := by
  constructor
  · intro htaken
    obtain ⟨other, hmem, hother⟩ := List.any_eq_true.mp htaken
    obtain ⟨hid, hname⟩ := Bool.and_eq_true_iff.mp hother
    exact ⟨tables.record other, mem_usersNamed.mpr ⟨⟨other, hmem, rfl⟩, beq_iff_eq.mp hname⟩,
      of_decide_eq_true hid⟩
  · rintro ⟨_, hmem, hid⟩
    obtain ⟨⟨other, hother, rfl⟩, hname⟩ := mem_usersNamed.mp hmem
    exact List.any_eq_true.mpr ⟨other, hother,
      Bool.and_eq_true_iff.mpr ⟨decide_eq_true hid, beq_iff_eq.mpr hname⟩⟩

/-- A name is free exactly when no other user has it. -/
theorem nameTaken_eq_false_iff {row : Row .user} : tables.nameTaken row = false ↔
    ∀ other ∈ tables.usersNamed (UserRow.userName row), other.row.id = row.id := by
  rw [← Bool.not_eq_true, nameTaken_iff]
  push Not
  rfl

end Tables

namespace StoreCall

variable {tables : Tables} {row : Row .user} {c : StoreCall}

/-- A call writes a user's row, where only the name can be against it. The items that come with the
row belong to relations that users own. -/
inductive WritesUser (tables : Tables) (row : Row .user) : StoreCall → Prop where
  /-- The row is a new user's, under a free key. -/
  | insert {children : List (Relation × List ItemRow)}
      (hnew : tables.has .user row.id = false)
      (howned : ∀ child ∈ children, child.1.owner = .user) :
      WritesUser tables row (@StoreCall.insert .user ⟨row, children⟩)
  /-- The row and its items take the place of a user's. -/
  | replace {children : List (Relation × List ItemRow)}
      (hthere : tables.has .user row.id = true)
      (howned : ∀ child ∈ children, child.1.owner = .user) :
      WritesUser tables row (@StoreCall.replace .user ⟨row, children⟩)
  /-- The row takes the place of a user's, whose items stay. -/
  | update (hthere : tables.has .user row.id = true) :
      WritesUser tables row (@StoreCall.update .user row)

/-- Such a call is answered unless the name is refused, and then it is refused as the name is. -/
theorem WritesUser.exists_answer (h : c.WritesUser tables row) :
    ∃ answer, c.answer tables = (tables.checkName row).map fun _ => answer := by
  cases h with
  | @insert children hnew howned =>
    let stored := (tables.put row).addItems row.id children
    refine ⟨stored.record row, (answer_eq ..).trans ((Call.answer_writing ..).trans ?_)⟩
    rw [Tables.insert, Tables.checkRelations_eq_ok howned, hnew]
    cases tables.checkName row <;> rfl
  | @replace children hthere howned =>
    let stored := ((tables.put row).dropItems .user row.id).addItems row.id children
    refine ⟨stored.record row, (answer_eq ..).trans ((Call.answer_writing ..).trans ?_)⟩
    rw [Tables.replace, Tables.checkRelations_eq_ok howned, hthere]
    cases tables.checkName row <;> rfl
  | update hthere =>
    refine ⟨row, (answer_eq ..).trans ((Call.answer_writing ..).trans ?_)⟩
    rw [Tables.update, hthere]
    cases tables.checkName row <;> rfl

/-- Such a call is refused for the name exactly when the name is taken. -/
theorem WritesUser.refused_iff (h : c.WritesUser tables row) :
    c.answer tables = .error (.constraint "users"
        ("userName '" ++ UserRow.userName row ++ "' already exists")) ↔
      tables.nameTaken row = true := by
  obtain ⟨answer, hanswer⟩ := h.exists_answer
  rw [hanswer, Tables.checkName]
  cases tables.nameTaken row with
  | true => exact iff_of_true rfl rfl
  | false =>
    refine iff_of_false ?_ Bool.false_ne_true
    intro hrefused
    cases hrefused

/-- Such a call is answered exactly when the name is free. -/
theorem WritesUser.answered_iff (h : c.WritesUser tables row) :
    (∃ answer, c.answer tables = .ok answer) ↔ tables.nameTaken row = false := by
  obtain ⟨answer, hanswer⟩ := h.exists_answer
  rw [hanswer, Tables.checkName]
  cases tables.nameTaken row with
  | true =>
    refine iff_of_false ?_ Bool.false_ne_true.symm
    rintro ⟨_, hok⟩
    cases hok
  | false => exact iff_of_true ⟨answer, rfl⟩ rfl

end StoreCall

/-- After any calls on empty storage, the filter for the users with a name finds one user at most,
and those whose rows satisfy its predicate. Each call that writes the name for a user, where only
the name can be against it, is refused for the name exactly when the filter finds another user, and
is answered otherwise. -/
theorem name_is_refused_iff_found (calls : List StoreCall) (name : String) (wantGroups : Bool) :
    let tables := StoreCall.steps calls Tables.empty
    let predicate := Predicate.equals .userName (.text name) true
    Filter.compile (.compare "userName" .eq (.text name)) true wantGroups =
        .ok ⟨some predicate, none⟩ ∧
      ∃ found, tables.query .user (some predicate) = .ok found ∧ found.length ≤ 1 ∧
        (∀ user, user ∈ found ↔ ∃ row : Row .user, row ∈ tables.rows .user ∧
          tables.record row = user ∧ predicate.evaluate (tables.view row) = .ok true) ∧
        ∀ (c : StoreCall) (row : Row .user), c.WritesUser tables row →
          UserRow.userName row = name →
          (c.answer tables =
              .error (.constraint "users" ("userName '" ++ name ++ "' already exists")) ↔
            ∃ user ∈ found, user.row.id ≠ row.id) ∧
          ((∃ answer, c.answer tables = .ok answer) ↔
            ∀ user ∈ found, user.row.id = row.id) := by
  intro tables predicate
  have hwell : tables.WellFormed := Tables.wellFormed_empty.steps calls
  refine ⟨Filter.compile_userName name wantGroups, tables.usersNamed name,
    hwell.query_userName name, hwell.length_usersNamed name,
    fun _ => Tables.mem_usersNamed_iff_evaluate, fun c row hwrites hname => ?_⟩
  subst hname
  exact ⟨hwrites.refused_iff.trans Tables.nameTaken_iff,
    hwrites.answered_iff.trans Tables.nameTaken_eq_false_iff⟩

/-- The name of a user is refused in capitals for another user and accepted for the user's own row,
also where its last capital letter becomes a final sigma. -/
theorem name_is_refused_for_second_user :
    let row (key : Nat) (name : String) : Row .user :=
      UserRow.named (.numbered key) name (.ofSeconds 0)
    let calls := [@StoreCall.insert .user ⟨row 1 "οδος", []⟩,
      @StoreCall.insert .user ⟨row 2 "bob", []⟩]
    let tables := StoreCall.steps calls Tables.empty
    ∃ found, tables.query .user (some (.equals .userName (.text "ΟΔΟΣ") true)) = .ok found ∧
      (∃ user ∈ found, user.row.id ≠ .numbered 2) ∧ ∀ user ∈ found, user.row.id = .numbered 1 := by
  intro row calls tables
  have hanswer : ∀ (row : Row .user) (tables : Tables),
      (@StoreCall.update .user row).answer tables = (tables.update row).map Prod.fst :=
    fun row _ => (StoreCall.answer_eq ..).trans (Call.answer_writing (Tables.update row) _)
  have hrefused : (tables.update (row 2 "ΟΔΟΣ")).map Prod.fst =
      .error (.constraint "users" ("userName '" ++ "ΟΔΟΣ" ++ "' already exists")) := by
    decide +kernel
  have hwritten : (tables.update (row 1 "ΟΔΟΣ")).map Prod.fst = .ok (row 1 "ΟΔΟΣ") := by
    decide +kernel
  rw [← hanswer] at hrefused hwritten
  obtain ⟨-, found, hfound, -, -, hwrite⟩ := name_is_refused_iff_found calls "ΟΔΟΣ" true
  have hsecond := hwrite (@StoreCall.update .user (row 2 "ΟΔΟΣ")) (row 2 "ΟΔΟΣ")
    (.update (by decide +kernel)) rfl
  have hfirst := hwrite (@StoreCall.update .user (row 1 "ΟΔΟΣ")) (row 1 "ΟΔΟΣ")
    (.update (by decide +kernel)) rfl
  exact ⟨found, hfound, hsecond.1.mp hrefused, hfirst.2.mp ⟨_, hwritten⟩⟩

end ScimDirectory
