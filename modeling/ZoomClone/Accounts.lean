/-
Google identities and the user rows behind them.

A sign-in is looked up by `google_id` first and by email second, and then writes both
columns of the row it found.

* `insertUser_isOk`, `updateUser_isOk` — when the unique indexes on `users` let a write
  through;
* `stableAccount_iff` — one sign-in gets the account it should exactly when nobody else
  holds the email;
* `oneSubPerRow` — so over whole runs no row is signed in to by two identities;
* `accounts_stable` — both together.
-/
import ZoomClone.People
import ZoomClone.Runs

namespace ZoomClone

/-! ### The unique indexes -/

/-- The rows agree in a column that is unique; an absent `google_id` agrees with none. -/
def User.Clashes (v u : User) : Prop :=
  (v.googleId.isSome ∧ v.googleId = u.googleId) ∨ v.email = u.email ∨
    v.personalMeetingId = u.personalMeetingId

instance (v u : User) : Decidable (v.Clashes u) := inferInstanceAs (Decidable (_ ∨ _ ∨ _))

/-- The unique indexes on `users`. -/
def Db.UniqueUsers (db : Db) : Prop := ∀ v ∈ db.users, ∀ u ∈ db.users, v.Clashes u → v = u

instance (db : Db) : Decidable db.UniqueUsers :=
  inferInstanceAs (Decidable (∀ v ∈ db.users.rows, ∀ u ∈ db.users.rows, _ → v = u))

section Writes

variable {db : Db} {u : User} {f : User → User} {hf : ∀ u, (f u).id = u.id}

/-- An insertion goes through exactly when no row clashes with the new one. -/
theorem insertUser_isOk : (∃ db', db.insertUser u = .ok db') ↔
    u.id ∉ db.users.keys ∧ ∀ v ∈ db.users, ¬ v.Clashes u := by
  rw [Db.insertUser]
  split
  · next hclash =>
    simp only [reduceCtorEq, exists_false, false_iff, not_and]
    intro _ hfree
    obtain ⟨v, hv, hclash⟩ := List.any_eq_true.mp hclash
    exact hfree v hv (by simpa [User.Clashes, or_assoc] using hclash)
  · next hfree =>
    have hfree : ∀ v ∈ db.users, ¬ v.Clashes u := by
      intro v hv hclash
      exact hfree (List.any_eq_true.mpr ⟨v, hv, by simpa [User.Clashes, or_assoc] using hclash⟩)
    split
    · next hnone =>
      have hkey : u.id ∈ db.users.keys := by
        by_contra hkey
        simp [Keyed.insert?, hkey] at hnone
      simp [hkey]
    · next users hins =>
      obtain ⟨hkey, -⟩ := Keyed.insert?_eq_some.mp hins
      exact ⟨fun _ => ⟨hkey, hfree⟩, fun _ => ⟨_, rfl⟩⟩

theorem insertUser_rest {db' : Db} (h : db.insertUser u = .ok db') :
    db' = { db with users := db'.users } := by
  rw [Db.insertUser] at h
  split at h
  · cases h
  · split at h
    · cases h
    · obtain rfl := Except.ok.inj h
      rfl

/-- An allocated number is no user's. -/
theorem allocateMeetingNumber_unowned {numbers : ℕ → ℕ × ℕ} {attempts k : ℕ} {number : String}
    (h : allocateMeetingNumber db numbers attempts k = .ok number) :
    ∀ v ∈ db.users, v.personalMeetingId ≠ number := by
  induction attempts generalizing k with
  | zero => cases h
  | succ attempts ih =>
    rw [allocateMeetingNumber] at h
    split at h
    · exact ih h
    · next hfree =>
      obtain rfl := Except.ok.inj h
      intro v hv heq
      refine hfree ?_
      simp only [Bool.or_eq_true, List.any_eq_true, decide_eq_true_eq]
      exact .inr ⟨v, hv, heq⟩

/-- The row of a modified key is the modified row. -/
theorem eq_of_mem_modify (hu : u ∈ db.users) {x : User} (hx : x ∈ db.users.modify u.id f hf)
    (hid : x.id = u.id) : x = f u := by
  obtain ⟨w, hw, rfl⟩ := Keyed.mem_modify.mp hx
  have hkey : w.id = u.id := by
    by_cases hwu : w.id = u.id
    · exact hwu
    · rwa [if_neg hwu] at hid
  rw [if_pos hkey, Keyed.eq_of_key_eq hw hu hkey]

/-- The other rows are the other rows from before. -/
theorem mem_modify_of_ne {x : User} (hid : x.id ≠ u.id) :
    x ∈ db.users.modify u.id f hf ↔ x ∈ db.users := by
  rw [Keyed.mem_modify]
  constructor
  · rintro ⟨w, hw, rfl⟩
    have hne : w.id ≠ u.id := by
      intro hwu
      rw [if_pos hwu, hf w] at hid
      exact hid hwu
    rwa [if_neg hne]
  · intro hx
    exact ⟨x, hx, if_neg hid⟩

theorem mem_modify_self (hu : u ∈ db.users) : f u ∈ db.users.modify u.id f hf :=
  Keyed.mem_modify.mpr ⟨u, hu, if_pos rfl⟩

/-- An update goes through exactly when no other row clashes with what the row becomes. -/
theorem updateUser_isOk (hu : u ∈ db.users) : (∃ db', db.updateUser u.id f hf = .ok db') ↔
    ∀ v ∈ db.users, v.id ≠ u.id → ¬ v.Clashes (f u) := by
  unfold Db.updateUser
  dsimp only
  split
  · next hclash =>
    simp only [reduceCtorEq, exists_false, false_iff]
    intro hfree
    simp only [List.any_eq_true, Bool.and_eq_true, decide_eq_true_eq] at hclash
    obtain ⟨x, hx, hxu, v, hv, hne, hclash⟩ := hclash
    rw [eq_of_mem_modify hu hx hxu] at hclash
    exact hfree v ((mem_modify_of_ne hne).mp hv) hne
      (by simpa [User.Clashes, or_assoc] using hclash)
  · next hfree =>
    refine ⟨fun _ v hv hne hclash => hfree ?_, fun _ => ⟨_, rfl⟩⟩
    simp only [List.any_eq_true, Bool.and_eq_true, decide_eq_true_eq]
    exact ⟨f u, mem_modify_self hu, hf u, v, (mem_modify_of_ne hne).mpr hv, hne,
      by simpa [User.Clashes, or_assoc] using hclash⟩

end Writes

/-! ### One sign-in -/

/-- The row a sign-in finds: by `google_id` first, then by email. -/
def knownUser (db : Db) (sub email : String) : Option User :=
  (db.users.rows.find? fun u => u.googleId = some sub) <|> db.users.rows.find? fun u =>
    u.email = email

/-- The row it makes of one that it finds. -/
def User.adopt (claims : GoogleClaims) (email : String) (u : User) : User :=
  { u with
    googleId := some claims.sub, email, name := (given claims.name).getD u.name
    avatarUrl := given claims.picture <|> u.avatarUrl, isGuest := false }

/-- The row it adds if there is none. -/
def newAccount (claims : GoogleClaims) (email : String) (id : UserId) (pmi : String) : User where
  id := id
  googleId := some claims.sub
  email := email
  name := (given claims.name).getD (PyStr.before '@' email)
  avatarUrl := claims.picture
  personalMeetingId := pmi

/-- Only the user row `u` differs, it is the account of the claims, and it was no other
identity's before. -/
structure SignedIn (db db' : Db) (claims : GoogleClaims) (email : String) (u : User) : Prop where
  googleId : u.googleId = some claims.sub
  email : u.email = email
  row : u ∈ db'.users
  others : ∀ v, v.id ≠ u.id → (v ∈ db'.users ↔ v ∈ db.users)
  rest : db' = { db with users := db'.users }
  notTaken : ∀ v ∈ db.users, v.id = u.id → v.googleId = none ∨ v.googleId = some claims.sub

/-- The sign-in goes through, with the account of the claims. -/
def StableAccount (db : Db) (claims : GoogleClaims) (email : String) (draws : SignInDraws) : Prop :=
  ∃ u db', upsertGoogleUser db claims draws = .ok (u, db') ∧ SignedIn db db' claims email u

/-- Whoever holds the email is the identity itself, or no identity at all while the
identity has no row yet. -/
def Claimable (db : Db) (sub email : String) : Prop :=
  ∀ v ∈ db.users, v.email = email →
    v.googleId = some sub ∨ (v.googleId = none ∧ ∀ w ∈ db.users, w.googleId ≠ some sub)

instance (db : Db) (sub email : String) : Decidable (Claimable db sub email) :=
  inferInstanceAs (Decidable (∀ v ∈ db.users.rows, v.email = email →
    v.googleId = some sub ∨ (v.googleId = none ∧ ∀ w ∈ db.users.rows, w.googleId ≠ some sub)))

section SignIn

variable {db db' : Db} {claims : GoogleClaims} {email : String} {draws : SignInDraws} {u : User}

/-- The three ways a sign-in finds its row. -/
theorem knownUser_cases (db : Db) (sub email : String) :
    (∃ w ∈ db.users, w.googleId = some sub ∧ knownUser db sub email = some w) ∨
      ((∀ w ∈ db.users, w.googleId ≠ some sub) ∧
        ((∃ w ∈ db.users, w.email = email ∧ knownUser db sub email = some w) ∨
          ((∀ w ∈ db.users, w.email ≠ email) ∧ knownUser db sub email = none))) := by
  rw [knownUser]
  cases hsub : db.users.rows.find? fun u => u.googleId = some sub with
  | some w =>
    exact .inl ⟨w, List.mem_of_find?_eq_some hsub, by simpa using List.find?_some hsub, rfl⟩
  | none =>
    refine .inr ⟨fun w hw => by simpa using List.find?_eq_none.mp hsub w hw, ?_⟩
    cases hemail : db.users.rows.find? fun u => u.email = email with
    | some w =>
      exact .inl ⟨w, List.mem_of_find?_eq_some hemail, by simpa using List.find?_some hemail, rfl⟩
    | none => exact .inr ⟨fun w hw => by simpa using List.find?_eq_none.mp hemail w hw, rfl⟩

/-- A sign-in that finds a row updates it. -/
theorem upsertGoogleUser_of_known (hgiven : given claims.email = some email)
    (hknown : knownUser db claims.sub email = some u) :
    upsertGoogleUser db claims draws =
      db.updateUser u.id (·.adopt claims email) (fun _ => rfl) >>= fun db' =>
        pure (u.adopt claims email, db') := by
  rw [knownUser] at hknown
  rw [upsertGoogleUser, hgiven]
  simp only [Service.getOrRaise, bind, Except.bind, hknown]
  rfl

/-- A sign-in that finds none adds one. -/
theorem upsertGoogleUser_of_unknown (hgiven : given claims.email = some email)
    (hknown : knownUser db claims.sub email = none) :
    upsertGoogleUser db claims draws =
      allocateMeetingNumber db draws.numbers maxGenerationAttempts 0 >>= fun pmi =>
        db.insertUser (newAccount claims email draws.id pmi) >>= fun db' =>
          pure (newAccount claims email draws.id pmi, db') := by
  rw [knownUser] at hknown
  rw [upsertGoogleUser, hgiven]
  simp only [Service.getOrRaise, bind, Except.bind, hknown]
  rfl

/-- What a sign-in writes: the row it found, or a new one under a number of its own. -/
theorem upsertGoogleUser_writes (hgiven : given claims.email = some email)
    (h : upsertGoogleUser db claims draws = .ok (u, db')) :
    (∃ w ∈ db.users, knownUser db claims.sub email = some w ∧ u = w.adopt claims email ∧
        db.updateUser w.id (·.adopt claims email) (fun _ => rfl) = .ok db') ∨
      (knownUser db claims.sub email = none ∧
        ∃ pmi, u = newAccount claims email draws.id pmi ∧ db.insertUser u = .ok db') := by
  have hknown {w : User} (hw : w ∈ db.users) (hknown : knownUser db claims.sub email = some w) :
      u = w.adopt claims email ∧ db.updateUser w.id (·.adopt claims email)
    (fun _ => rfl) = .ok db' := by
    rw [upsertGoogleUser_of_known hgiven hknown] at h
    obtain ⟨db₁, hok, h⟩ := Service.bind_eq_ok.mp h
    obtain ⟨rfl, rfl⟩ := Prod.mk.inj (Service.pure_eq_ok.mp h)
    exact ⟨rfl, hok⟩
  rcases knownUser_cases db claims.sub email with
    ⟨w, hw, -, hw'⟩ | ⟨-, ⟨w, hw, -, hw'⟩ | ⟨-, hnone⟩⟩
  · exact .inl ⟨w, hw, hw', hknown hw hw'⟩
  · exact .inl ⟨w, hw, hw', hknown hw hw'⟩
  · rw [upsertGoogleUser_of_unknown hgiven hnone] at h
    obtain ⟨pmi, -, h⟩ := Service.bind_eq_ok.mp h
    obtain ⟨db₁, hok, h⟩ := Service.bind_eq_ok.mp h
    obtain ⟨rfl, rfl⟩ := Prod.mk.inj (Service.pure_eq_ok.mp h)
    exact .inr ⟨hnone, pmi, rfl, hok⟩

/-- A sign-in into a row that was found works out exactly if no other row is in its way
and the row was not another identity's. -/
theorem stableAccount_of_known (hgiven : given claims.email = some email)
    (hknown : knownUser db claims.sub email = some u) (hu : u ∈ db.users) :
    StableAccount db claims email draws ↔
      (∀ v ∈ db.users, v.id ≠ u.id → ¬ v.Clashes (u.adopt claims email)) ∧
        (u.googleId = none ∨ u.googleId = some claims.sub) := by
  have hok : (∃ db', db.updateUser u.id (·.adopt claims email) (fun _ => rfl) = .ok db') ↔
      ∀ v ∈ db.users, v.id ≠ u.id → ¬ v.Clashes (u.adopt claims email) := updateUser_isOk hu
  rw [StableAccount, upsertGoogleUser_of_known hgiven hknown, ← hok]
  constructor
  · rintro ⟨u', db', h, hsigned⟩
    obtain ⟨db₁, hok, h⟩ := Service.bind_eq_ok.mp h
    obtain ⟨rfl, rfl⟩ := Prod.mk.inj (Service.pure_eq_ok.mp h)
    exact ⟨⟨db₁, hok⟩, hsigned.notTaken u hu rfl⟩
  · rintro ⟨⟨db', hok⟩, hbound⟩
    refine ⟨_, db', Service.bind_eq_ok.mpr ⟨db', hok, rfl⟩, ?_⟩
    obtain rfl := updateUser_eq hok
    have hmodified : (u.adopt claims email) ∈ db.users.modify u.id
        (·.adopt claims email) fun _ => rfl :=
      mem_modify_self hu
    have hothers (v : User) (hv : v.id ≠ u.id) :
        v ∈ db.users.modify u.id (·.adopt claims email) (fun _ => rfl) ↔ v ∈ db.users :=
      mem_modify_of_ne hv
    refine ⟨rfl, rfl, hmodified, hothers, rfl, ?_⟩
    intro v hv hid
    rwa [Keyed.eq_of_key_eq hv hu hid]

/-- A sign-in that finds no row gets a new one. -/
theorem stableAccount_of_unknown {pmi : String} (hgiven : given claims.email = some email)
    (hknown : knownUser db claims.sub email = none)
    (hpmi : allocateMeetingNumber db draws.numbers maxGenerationAttempts 0 = .ok pmi)
    (hid : draws.id ∉ db.users.keys) (hsub : ∀ w ∈ db.users, w.googleId ≠ some claims.sub)
    (hemail : ∀ w ∈ db.users, w.email ≠ email) : StableAccount db claims email draws := by
  have hfree : ∀ v ∈ db.users, ¬ v.Clashes (newAccount claims email draws.id pmi) := by
    rintro v hv (⟨-, hclash⟩ | hclash | hclash)
    · exact hsub v hv hclash
    · exact hemail v hv hclash
    · exact allocateMeetingNumber_unowned hpmi v hv hclash
  obtain ⟨db', hok⟩ := insertUser_isOk.mpr ⟨hid, hfree⟩
  refine ⟨newAccount claims email draws.id pmi, db', ?_, ?_⟩
  · rw [upsertGoogleUser_of_unknown hgiven hknown, hpmi]
    exact Service.bind_eq_ok.mpr ⟨pmi, rfl, Service.bind_eq_ok.mpr ⟨db', hok, rfl⟩⟩
  · refine ⟨rfl, rfl, (mem_insertUser hok).mpr (.inr rfl), ?_, insertUser_rest hok, ?_⟩
    · intro v hv
      rw [mem_insertUser hok]
      exact or_iff_left fun heq => hv (congrArg User.id heq)
    · intro v hv heq
      have hkey : v.id ∈ db.users.keys := Keyed.key_mem_keys hv
      rw [heq] at hkey
      exact absurd hkey hid

/-- **One sign-in.**  It gets the account it should, and touches no other, exactly when
nobody else holds the email. -/
theorem stableAccount_iff {pmi : String} (hunique : db.UniqueUsers)
    (hgiven : given claims.email = some email) (hid : draws.id ∉ db.users.keys)
    (hpmi : allocateMeetingNumber db draws.numbers maxGenerationAttempts 0 = .ok pmi) :
    StableAccount db claims email draws ↔ Claimable db claims.sub email := by
  rcases knownUser_cases db claims.sub email with
    ⟨w, hw, hwsub, hknown⟩ | ⟨hsub, ⟨w, hw, hwemail, hknown⟩ | ⟨hemail, hknown⟩⟩
  · -- the identity has a row: it must be the one that holds the email, if any does
    rw [stableAccount_of_known hgiven hknown hw]
    constructor
    · rintro ⟨hfree, -⟩ v hv hvemail
      have hvw : v.id = w.id := by
        by_contra hne
        exact hfree v hv hne (.inr (.inl hvemail))
      rw [Keyed.eq_of_key_eq hv hw hvw]
      exact .inl hwsub
    · intro hclaimable
      refine ⟨?_, .inr hwsub⟩
      have hsame {v : User} (hv : v ∈ db.users) (hvsub : v.googleId = some claims.sub) : v = w :=
        hunique v hv w hw (.inl ⟨by simp [hvsub], hvsub.trans hwsub.symm⟩)
      rintro v hv hne (⟨-, hclash⟩ | hclash | hclash)
      · exact hne (congrArg User.id (hsame hv hclash))
      · rcases hclaimable v hv hclash with hvsub | ⟨-, hnone⟩
        · exact hne (congrArg User.id (hsame hv hvsub))
        · exact hnone w hw hwsub
      · exact hne (congrArg User.id (hunique v hv w hw (.inr (.inr hclash))))
  · -- the email has a row: it must be nobody's yet
    rw [stableAccount_of_known hgiven hknown hw]
    constructor
    · rintro ⟨-, hbound⟩ v hv hvemail
      obtain rfl : v = w := hunique v hv w hw (.inr (.inl (hvemail.trans hwemail.symm)))
      exact .inr ⟨hbound.resolve_right (hsub v hv), hsub⟩
    · intro hclaimable
      refine ⟨?_, .inl ((hclaimable w hw hwemail).resolve_left (hsub w hw)).1⟩
      rintro v hv hne (⟨-, hclash⟩ | hclash | hclash)
      · exact hsub v hv hclash
      · exact hne (congrArg User.id (hunique v hv w hw (.inr (.inl (hclash.trans hwemail.symm)))))
      · exact hne (congrArg User.id (hunique v hv w hw (.inr (.inr hclash))))
  · refine iff_of_true (stableAccount_of_unknown hgiven hknown hpmi hid hsub hemail) ?_
    intro v hv hvemail
    exact absurd hvemail (hemail v hv)

end SignIn

/-! ### Whole runs -/

/-- The database, and who has signed in with Google to which row. -/
structure SignIns where
  db : Db
  signedIn : List (String × UserId) := []

/-- What a sign-in adds to the list. -/
def newSignIn (db : Db) : Operation → List (String × UserId)
  | .request (.signInGoogle claims draws) =>
    match upsertGoogleUser db claims draws with
    | .ok (u, _) => [(claims.sub, u.id)]
    | .error _ => []
  | _ => []

def SignIns.step (s : SignIns) (op : Operation) : SignIns where
  db := s.db.apply op
  signedIn := s.signedIn ++ newSignIn s.db op

/-- No row was signed in to by two identities. -/
def SignIns.OneSubPerRow (s : SignIns) : Prop :=
  ∀ x ∈ s.signedIn, ∀ y ∈ s.signedIn, x.2 = y.2 → x.1 = y.1

/-- A sign-in with Google happens while nobody else holds its email. -/
def SignIns.Claims (s : SignIns) (op : Operation) : Prop :=
  ∀ claims draws, op = .request (.signInGoogle claims draws) →
    ∀ email, given claims.email = some email → Claimable s.db claims.sub email

/-- Each row that was signed in to is still bound to its identity. -/
def SignIns.Bound (s : SignIns) : Prop :=
  ∀ x ∈ s.signedIn, ∃ u ∈ s.db.users, u.id = x.2 ∧ u.googleId = some x.1

theorem SignIns.Bound.oneSubPerRow {s : SignIns} (h : s.Bound) : s.OneSubPerRow := by
  intro x hx y hy hrow
  obtain ⟨u, hu, huid, husub⟩ := h x hx
  obtain ⟨v, hv, hvid, hvsub⟩ := h y hy
  obtain rfl := Keyed.eq_of_key_eq hu hv (huid.trans (hrow.trans hvid.symm))
  exact Option.some.inj (husub.symm.trans hvsub)

/-- No row loses its identity. -/
def KeepsIdentities (db db' : Db) : Prop :=
  ∀ u ∈ db.users, ∃ v ∈ db'.users, v.id = u.id ∧ v.googleId = u.googleId

/-- Only a sign-in with Google writes a `google_id` that is there. -/
theorem apply_keepsIdentities (db : Db) {op : Operation}
    (hop : ∀ claims draws, op ≠ .request (.signInGoogle claims draws)) :
    KeepsIdentities db (db.apply op) := by
  cases h : runOperation db op with
  | error e =>
    intro u hu
    rw [Db.apply, h]
    exact ⟨u, hu, rfl, rfl⟩
  | ok db' =>
    rw [apply_of_ok h]
    by_cases hpeople : op.TouchesPeople
    · cases runOperation_commits h with
      | signInGuest h =>
        simp only [createGuest, Service.bind_eq_ok, Service.pure_eq_ok] at h
        obtain ⟨name, -, pmi, -, db₁, hins, h⟩ := h
        obtain ⟨-, rfl⟩ := Prod.mk.inj h
        intro u hu
        exact ⟨u, (mem_insertUser hins).mpr (.inl hu), rfl, rfl⟩
      | signInGoogle h => exact absurd rfl (hop _ _)
      | updateProfile huser h =>
        simp only [updateProfile, Service.bind_eq_ok, Service.pure_eq_ok] at h
        obtain ⟨name, -, db₁, hupd, h⟩ := h
        obtain ⟨-, rfl⟩ := Prod.mk.inj h
        intro u hu
        refine ⟨_, (mem_updateUser hupd).mpr ⟨u, hu, rfl⟩, ?_⟩
        split <;> exact ⟨rfl, rfl⟩
      | postMessage h =>
        intro u hu
        rw [(postMessage_people h).1]
        exact ⟨u, hu, rfl, rfl⟩
      | _ => cases hpeople
    · intro u hu
      rw [(runOperation_samePeople h hpeople).users]
      exact ⟨u, hu, rfl, rfl⟩

/-- A sign-in leaves every identity where it was, but for the row that it found by its
email. -/
theorem upsertGoogleUser_identities {db db' : Db} {claims : GoogleClaims}
    {draws : SignInDraws} {u : User}
    (hclaims : ∀ email, given claims.email = some email → Claimable db claims.sub email)
    (h : upsertGoogleUser db claims draws = .ok (u, db')) :
    (u ∈ db'.users ∧ u.googleId = some claims.sub) ∧
      ∀ v ∈ db.users, v.googleId ≠ none → ∃ w ∈ db'.users, w.id = v.id ∧
        w.googleId = v.googleId := by
  obtain ⟨email, hgiven, -⟩ := Service.bind_eq_ok.mp h
  have hgiven := Service.getOrRaise_eq_ok.mp hgiven
  have hclaimable := hclaims email hgiven
  rcases upsertGoogleUser_writes hgiven h with ⟨w, hw, hknown, rfl, hok⟩ | ⟨-, pmi, rfl, hok⟩
  · have hsame : w.googleId = none ∨ w.googleId = some claims.sub := by
      rcases knownUser_cases db claims.sub email with
        ⟨x, -, hxsub, hx⟩ | ⟨hsub, ⟨x, hxmem, hxemail, hx⟩ | ⟨-, hx⟩⟩
      · obtain rfl := Option.some.inj (hx.symm.trans hknown)
        exact .inr hxsub
      · obtain rfl := Option.some.inj (hx.symm.trans hknown)
        exact .inl ((hclaimable x hxmem hxemail).resolve_left (hsub x hxmem)).1
      · cases hx.symm.trans hknown
    refine ⟨⟨(mem_updateUser hok).mpr ⟨w, hw, if_pos rfl⟩, rfl⟩, fun v hv hbound => ?_⟩
    refine ⟨_, (mem_updateUser hok).mpr ⟨v, hv, rfl⟩, ?_⟩
    split
    · next hvw =>
      obtain rfl := Keyed.eq_of_key_eq hv hw hvw
      exact ⟨rfl, (hsame.resolve_left hbound).symm⟩
    · exact ⟨rfl, rfl⟩
  · refine ⟨⟨(mem_insertUser hok).mpr (.inr rfl), rfl⟩, fun v hv _ => ?_⟩
    exact ⟨v, (mem_insertUser hok).mpr (.inl hv), rfl, rfl⟩

/-- An operation keeps every identity that was signed in to bound to its row. -/
theorem SignIns.Bound.step {s : SignIns} {op : Operation} (h : s.Bound) (hop : s.Claims op) :
    (s.step op).Bound := by
  by_cases hgoogle : ∃ claims draws, op = .request (.signInGoogle claims draws)
  · obtain ⟨claims, draws, rfl⟩ := hgoogle
    cases hsignIn : upsertGoogleUser s.db claims draws with
    | error e =>
      have hstep : s.step (.request (.signInGoogle claims draws)) = s := by
        simp [SignIns.step, newSignIn, hsignIn, Db.apply, runOperation, runRequest,
          Service.commit, Except.map]
      rwa [hstep]
    | ok r =>
      obtain ⟨u, db'⟩ := r
      have hdb : s.db.apply (.request (.signInGoogle claims draws)) = db' :=
        apply_of_ok (Service.commit_eq_ok.mpr ⟨u, hsignIn⟩)
      obtain ⟨⟨hu, husub⟩, hkept⟩ := upsertGoogleUser_identities (hop claims draws rfl) hsignIn
      intro x hx
      simp only [SignIns.step, newSignIn, hsignIn, List.mem_append, List.mem_singleton] at hx
      rw [SignIns.step]
      dsimp only
      rw [hdb]
      rcases hx with hx | rfl
      · obtain ⟨v, hv, hvid, hvsub⟩ := h x hx
        obtain ⟨w, hw, hwid, hwsub⟩ := hkept v hv (by simp [hvsub])
        exact ⟨w, hw, hwid.trans hvid, hwsub.trans hvsub⟩
      · exact ⟨u, hu, rfl, husub⟩
  · have hop (claims : GoogleClaims) (draws : SignInDraws) :
        op ≠ .request (.signInGoogle claims draws) :=
      fun heq => hgoogle ⟨claims, draws, heq⟩
    have hnew : newSignIn s.db op = [] := by
      unfold newSignIn
      split
      · exact absurd rfl (hop _ _)
      · rfl
    intro x hx
    rw [SignIns.step, hnew, List.append_nil] at hx
    obtain ⟨v, hv, hvid, hvsub⟩ := h x hx
    obtain ⟨w, hw, hwid, hwsub⟩ := apply_keepsIdentities s.db hop v hv
    exact ⟨w, hw, hwid.trans hvid, hwsub.trans hvsub⟩

/-- While nobody else holds the email of any sign-in, no row is signed in to by two
identities. -/
theorem oneSubPerRow (db : Db) {ops : List Operation}
    (hops : Runs.Guarded SignIns.step SignIns.Claims ⟨db, []⟩ ops) :
    Runs.Always SignIns.step SignIns.OneSubPerRow ⟨db, []⟩ ops := by
  have hstart : SignIns.Bound ⟨db, []⟩ := fun x hx => absurd hx List.not_mem_nil
  exact (hops.always hstart fun s op hs hop => hs.step hop).mono fun s hs => hs.oneSubPerRow

/-- **A Google identity has one account.**  A sign-in gets it exactly when nobody else
holds the email, and in a run of such sign-ins no two identities share a row. -/
theorem accounts_stable (db : Db) :
    (∀ (claims : GoogleClaims) (email pmi : String) (draws : SignInDraws), db.UniqueUsers →
        given claims.email = some email → draws.id ∉ db.users.keys →
          allocateMeetingNumber db draws.numbers maxGenerationAttempts 0 = .ok pmi →
            (StableAccount db claims email draws ↔ Claimable db claims.sub email)) ∧
      ∀ ops : List Operation, Runs.Guarded SignIns.step SignIns.Claims ⟨db, []⟩ ops →
        Runs.Always SignIns.step SignIns.OneSubPerRow ⟨db, []⟩ ops :=
  ⟨fun _ _ _ _ hunique hgiven hid hpmi => stableAccount_iff hunique hgiven hid hpmi,
    fun _ hops => oneSubPerRow db hops⟩

/-- The directory of a domain where an address was given to somebody else. -/
def directory : Db :=
  { users := Keyed.empty.insert { id := "u1", googleId := some "g-ada", email := "ada@example.com"
                                  name := "Ada", personalMeetingId := "10000000001" }
      List.not_mem_nil }

def newcomerDraws : SignInDraws := ⟨"u2", "", fun _ => (0, 2)⟩

/-- An address of her own gets a newcomer a row of her own, and the two sign-ins share
none. -/
theorem accounts_stable_newcomer :
    StableAccount directory
      { sub := "g-grace", email := some "grace@example.com" } "grace@example.com"
        newcomerDraws ∧
      Runs.Always SignIns.step SignIns.OneSubPerRow ⟨directory, []⟩
        [.request (.signInGoogle { sub := "g-ada", email := some "ada@example.com" } newcomerDraws),
         .request (.signInGoogle { sub := "g-grace", email := some "grace@example.com" }
           newcomerDraws)] := by
  have hada : Claimable directory "g-ada" "ada@example.com" := by decide
  have hgrace : Claimable (directory.apply (.request
      (.signInGoogle { sub := "g-ada", email := some "ada@example.com" } newcomerDraws)))
      "g-grace" "grace@example.com" := by decide +kernel
  refine ⟨((accounts_stable directory).1 _ _ "10000000002" _ (by decide) rfl (by decide) rfl).mpr
    (by decide),
    (accounts_stable directory).2 _ ?_⟩
  refine Runs.guarded_cons.mpr ⟨?_, Runs.guarded_cons.mpr ⟨?_, Runs.guarded_nil⟩⟩
  · rintro claims draws ⟨⟩ email hgiven
    obtain rfl : "ada@example.com" = email := Option.some.inj (given_eq_some.mp hgiven).1
    exact hada
  · rintro claims draws ⟨⟩ email hgiven
    obtain rfl : "grace@example.com" = email := Option.some.inj (given_eq_some.mp hgiven).1
    exact hgrace

/-- Whoever is given the address is given the account. -/
theorem reassigned_address_takes_account :
    ¬ ∀ (db : Db) (claims : GoogleClaims) (email pmi : String)
    (draws : SignInDraws), db.UniqueUsers → given claims.email = some email →
      draws.id ∉ db.users.keys →
      allocateMeetingNumber db draws.numbers maxGenerationAttempts 0 = .ok pmi →
        StableAccount db claims email draws := by
  intro h
  have hstable := h directory
    { sub := "g-grace", email := some "ada@example.com" } "ada@example.com"
    "10000000002" newcomerDraws (by decide) rfl (by decide) rfl
  obtain ⟨u, db', hok, hsigned⟩ := hstable
  have htaken : u.id = "u1" := by
    have hknown : knownUser directory "g-grace" "ada@example.com" = some
        { id := "u1", googleId := some "g-ada", email := "ada@example.com", name := "Ada"
          personalMeetingId := "10000000001" } := by decide
    rw [upsertGoogleUser_of_known rfl hknown] at hok
    obtain ⟨db₁, -, hok⟩ := Service.bind_eq_ok.mp hok
    exact congrArg User.id (Prod.mk.inj (Service.pure_eq_ok.mp hok)).1.symm
  rcases hsigned.notTaken _ (List.mem_singleton_self _) htaken.symm with hnone | hsub
  · cases hnone
  · revert hsub
    decide

end ZoomClone
