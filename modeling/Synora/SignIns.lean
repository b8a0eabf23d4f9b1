import Synora.Google
import Synora.Lib.Steps

/- Concurrent Google sign-ins (handlers.go, `App.googleAuth`, from its select on). The
   request looks for the email and, if it is not there, inserts a user: two statements,
   each atomic, with those of other requests in between. The unique constraint keeps
   the table right, but the request whose insert it refuses is answered 500. So
   all requests agree exactly when no insert comes after that of another request
   (`sign_ins_agree_iff`).

   Correspondence (Go, SQL ↔ Lean):
     `users` with its constraints (schema.sql)             ↔ `Users`
     `select id from users where email=$1`                 ↔ `Users.select`
     `insert into users(…) values($1,$2) returning id`     ↔ `Users.insert`
     what the handler does with the result of each         ↔ `afterSelect`, `signInStep`
   The key of a new row, its hash and the clock are part of the event; `lower` is
   `lower()` of the database, `mac` and `secret` are those of the tokens. -/
namespace Synora

/-! ## The table -/

/-- The columns of `users` the handler knows. -/
structure UserRow where
  id : Uuid
  email : String
  passwordHash : String
  deriving DecidableEq

section
variable (lower : String → String)

/-- The CHECK constraints. -/
structure UserRow.Checks (r : UserRow) : Prop where
  emailNotBlank : notBlank r.email = true
  emailLowercase : r.email = lower r.email
  passwordHashNotBlank : notBlank r.passwordHash = true

instance (r : UserRow) : Decidable (r.Checks lower) :=
  decidable_of_iff
    (notBlank r.email = true ∧ r.email = lower r.email ∧ notBlank r.passwordHash = true)
    ⟨fun h => ⟨h.1, h.2.1, h.2.2⟩, fun h => ⟨h.emailNotBlank, h.emailLowercase, h.passwordHashNotBlank⟩⟩

/-- The table, with its keys and checks. -/
structure Users where
  rows : List UserRow
  idsKey : (rows.map UserRow.id).Nodup
  emailsUnique : (rows.map UserRow.email).Nodup
  checks : ∀ r ∈ rows, r.Checks lower

variable {lower}

/-- The rows with an email. -/
def Users.withEmail (t : Users lower) (email : String) : List UserRow :=
  t.rows.filter fun r => decide (r.email = email)

def Users.select (t : Users lower) (email : String) : Except PgError (Option Uuid) :=
  if isPgText email = true then .ok ((t.withEmail email).head?.map UserRow.id) else .error .invalidText

/-- What the table asks of a new row. -/
structure Users.Takes (t : Users lower) (r : UserRow) : Prop where
  checks : r.Checks lower
  idNew : r.id ∉ t.rows.map UserRow.id
  emailNew : r.email ∉ t.rows.map UserRow.email

instance (t : Users lower) (r : UserRow) : Decidable (t.Takes r) :=
  decidable_of_iff (r.Checks lower ∧ r.id ∉ t.rows.map UserRow.id ∧ r.email ∉ t.rows.map UserRow.email)
    ⟨fun h => ⟨h.1, h.2.1, h.2.2⟩, fun h => ⟨h.checks, h.idNew, h.emailNew⟩⟩

def Users.insert (t : Users lower) (r : UserRow) : Except PgError (Users lower) :=
  if isPgText r.email = true ∧ isPgText r.passwordHash = true then
    if h : t.Takes r then .ok {
      rows := r :: t.rows
      idsKey := List.nodup_cons.mpr ⟨h.idNew, t.idsKey⟩
      emailsUnique := List.nodup_cons.mpr ⟨h.emailNew, t.emailsUnique⟩
      checks := fun s hs => (List.mem_cons.mp hs).elim (fun he => he ▸ h.checks) (t.checks s) }
    else if r.Checks lower then .error .uniqueViolation else .error .checkViolation
  else .error .invalidText

/-! ## The handler -/

section
variable (mac : List UInt8 → List UInt8 → List UInt8) (secret : List UInt8) (ttl : Int)

def unableToCreate : Answer := .error 500 "INTERNAL_ERROR" "Unable to create Google account" []
def unableToLoad : Answer := .error 500 "INTERNAL_ERROR" "Unable to load Google account" []

/-- The answer 200. -/
def signedIn (now : Int) (id : Uuid) (email : String) : GooglePc :=
  .finished (.signedIn (token mac secret ttl now id.text) (ttl.tdiv second) id.text email)

def afterSelect (now : Int) (email : String) : Except PgError (Option Uuid) → GooglePc
  | .ok (some id) => signedIn mac secret ttl now id email
  | .ok none => .inserting email
  | .error _ => .finished (.failed unableToLoad)

/-- The requests and the table; `ι` names the requests. -/
structure SignIns (ι : Type) (lower : String → String) where
  users : Users lower
  pc : ι → GooglePc

/-- One statement of one request. -/
inductive SignInEvent (ι : Type) where
  | select (i : ι) (now : Int)
  | insert (i : ι) (id : Uuid) (passwordHash : String) (now : Int)

variable {ι : Type} [DecidableEq ι]

def SignIns.put (s : SignIns ι lower) (i : ι) (pc : GooglePc) : SignIns ι lower :=
  { s with pc := fun j => if j = i then pc else s.pc j }

def signInStep (s : SignIns ι lower) : SignInEvent ι → Option (SignIns ι lower)
  | .select i now =>
    match s.pc i with
    | .selecting email => some (s.put i (afterSelect mac secret ttl now email (s.users.select email)))
    | _ => none
  | .insert i id passwordHash now =>
    match s.pc i with
    | .inserting email =>
      match s.users.insert ⟨id, email, passwordHash⟩ with
      | .ok users => some ({ s with users := users }.put i (signedIn mac secret ttl now id email))
      | .error _ => some (s.put i (.finished (.failed unableToCreate)))
    | _ => none

/-! ## Agreement -/

/-- Requests with one verified email, before their selects. -/
def SignIns.start (users : Users lower) (email : String) : SignIns ι lower :=
  ⟨users, fun _ => .selecting email⟩

/-- Every request that is answered has a token for the one user with the email. -/
def SameUser (email : String) (s : SignIns ι lower) : Prop :=
  ∀ i a, s.pc i = .finished a → ∃ r now, s.users.withEmail email = [r] ∧
    GooglePc.finished a = signedIn mac secret ttl now r.id email

/-- The column takes the email, and when a user is inserted there is none with the email yet. -/
def Unraced (s : SignIns ι lower) : SignInEvent ι → Prop
  | .select i _ => ∀ email, s.pc i = .selecting email → isPgText email = true
  | .insert i id passwordHash _ => ∀ email, s.pc i = .inserting email →
    isPgText email = true ∧ isPgText passwordHash = true ∧ s.users.Takes ⟨id, email, passwordHash⟩

/-- All requests are about one email. -/
def OneEmail (email : String) (s : SignIns ι lower) : Prop :=
  ∀ i, s.pc i = .selecting email ∨ s.pc i = .inserting email ∨ ∃ a, s.pc i = .finished a

@[simp] theorem put_pc_self (s : SignIns ι lower) (i : ι) (pc : GooglePc) : (s.put i pc).pc i = pc := by
  simp [SignIns.put]

theorem put_pc_of_ne (s : SignIns ι lower) {i j : ι} (pc : GooglePc) (h : j ≠ i) :
    (s.put i pc).pc j = s.pc j := by
  simp [SignIns.put, h]

@[simp] theorem put_users (s : SignIns ι lower) (i : ι) (pc : GooglePc) : (s.put i pc).users = s.users := rfl

/-- At most one user has an email. -/
theorem withEmail_cases (t : Users lower) (email : String) :
    t.withEmail email = [] ∧ email ∉ t.rows.map UserRow.email ∨ ∃ r, t.withEmail email = [r] := by
  have hunique := t.emailsUnique
  unfold Users.withEmail
  generalize t.rows = rows at hunique ⊢
  induction rows with
  | nil => exact Or.inl ⟨rfl, List.not_mem_nil⟩
  | cons r rest ih =>
    rw [List.map_cons, List.nodup_cons] at hunique
    obtain ⟨hnew, hrest⟩ := hunique
    by_cases hr : r.email = email
    · have hnone : rest.filter (fun s => decide (s.email = email)) = [] := by
        refine List.filter_eq_nil_iff.mpr fun s hs => ?_
        simp only [decide_eq_true_eq]
        intro he
        exact hnew (hr.trans he.symm ▸ List.mem_map_of_mem hs)
      refine Or.inr ⟨r, ?_⟩
      rw [List.filter_cons_of_pos (by simpa using hr), hnone]
    · rw [List.filter_cons_of_neg (by simpa using hr), List.map_cons, List.mem_cons]
      refine (ih hrest).imp (fun h => ⟨h.1, fun hmem => ?_⟩) id
      exact hmem.elim (fun he => hr he.symm) h.2

/-- **What an insert does**: it adds the row exactly if the table takes it. -/
theorem insert_ok_iff {t t' : Users lower} {r : UserRow} : t.insert r = .ok t' ↔
    (isPgText r.email = true ∧ isPgText r.passwordHash = true ∧ t.Takes r) ∧ t'.rows = r :: t.rows := by
  unfold Users.insert
  by_cases htext : isPgText r.email = true ∧ isPgText r.passwordHash = true
  · rw [if_pos htext]
    by_cases htakes : t.Takes r
    · rw [dif_pos htakes]
      constructor
      · intro h
        cases h
        exact ⟨⟨htext.1, htext.2, htakes⟩, rfl⟩
      · rintro ⟨-, hrows⟩
        cases t'
        cases hrows
        rfl
    · rw [dif_neg htakes]
      constructor
      · intro h
        split at h <;> cases h
      · exact fun h => absurd h.1.2.2 htakes
  · rw [if_neg htext]
    constructor
    · intro h
      cases h
    · exact fun h => absurd ⟨h.1.1, h.1.2.1⟩ htext

/-- There was nobody with the email of a user that is inserted, and then there is that one. -/
theorem withEmail_insert {t t' : Users lower} {r : UserRow} (h : t.insert r = .ok t') :
    t.withEmail r.email = [] ∧ t'.withEmail r.email = [r] := by
  obtain ⟨htaken, hrows⟩ := insert_ok_iff.mp h
  have hnone : t.withEmail r.email = [] := by
    rcases withEmail_cases t r.email with ⟨hnil, -⟩ | ⟨q, hq⟩
    · exact hnil
    · have hmem : q ∈ t.withEmail r.email := hq ▸ List.mem_cons_self
      obtain ⟨hmem, he⟩ := List.mem_filter.mp hmem
      exact absurd (List.mem_map.mpr ⟨q, hmem, by simpa using he⟩) htaken.2.2.emailNew
  refine ⟨hnone, ?_⟩
  unfold Users.withEmail at hnone ⊢
  rw [hrows, List.filter_cons_of_pos (by simp), hnone]

/-- A failed request is not signed in. -/
theorem failed_ne_signedIn {now : Int} {id : Uuid} {email : String} {a : Answer} :
    GooglePc.finished (.failed a) ≠ signedIn mac secret ttl now id email := by
  intro h
  cases h

theorem signedIn_finished (now : Int) (id : Uuid) (email : String) :
    ∃ a, signedIn mac secret ttl now id email = .finished a := ⟨_, rfl⟩

theorem oneEmail_put {s : SignIns ι lower} {email : String} (h : OneEmail email s) (users : Users lower)
    (i : ι) {pc : GooglePc} (hpc : pc = .selecting email ∨ pc = .inserting email ∨ ∃ a, pc = .finished a) :
    OneEmail email ({ s with users := users }.put i pc) := by
  intro j
  by_cases hj : j = i
  · subst hj
    rw [put_pc_self]
    exact hpc
  · rw [put_pc_of_ne _ _ hj]
    exact h j

/-- The request `i` is answered: the others agreed before. -/
theorem sameUser_put_iff {s : SignIns ι lower} {email : String} {i : ι} {pc : GooglePc}
    (h : SameUser mac secret ttl email s) : SameUser mac secret ttl email (s.put i pc) ↔
      ∀ a, pc = .finished a → ∃ r now, s.users.withEmail email = [r] ∧
        GooglePc.finished a = signedIn mac secret ttl now r.id email := by
  constructor
  · intro hput a ha
    exact hput i a (by rw [put_pc_self, ha])
  · intro hpc j a ha
    by_cases hj : j = i
    · subst hj
      rw [put_pc_self] at ha
      exact hpc a ha
    · rw [put_pc_of_ne _ _ hj] at ha
      exact h j a ha

/-! ## One statement -/

theorem oneEmail_step {s s' : SignIns ι lower} {e : SignInEvent ι} {email : String} (h : OneEmail email s)
    (hs : signInStep mac secret ttl s e = some s') : OneEmail email s' := by
  cases e with
  | select i now =>
    rcases h i with hi | hi | ⟨a, hi⟩
    · simp only [signInStep, hi, Option.some.injEq] at hs
      subst hs
      apply oneEmail_put h s.users i
      unfold afterSelect
      split
      · exact Or.inr (Or.inr (signedIn_finished ..))
      · exact Or.inr (Or.inl rfl)
      · exact Or.inr (Or.inr ⟨_, rfl⟩)
    · simp [signInStep, hi] at hs
    · simp [signInStep, hi] at hs
  | insert i id passwordHash now =>
    rcases h i with hi | hi | ⟨a, hi⟩
    · simp [signInStep, hi] at hs
    · simp only [signInStep, hi] at hs
      split at hs
      · next users _ =>
        cases hs
        exact oneEmail_put h users i (Or.inr (Or.inr (signedIn_finished ..)))
      · cases hs
        exact oneEmail_put h s.users i (Or.inr (Or.inr ⟨_, rfl⟩))
    · simp [signInStep, hi] at hs

/-- A select agrees if the column takes the email. -/
theorem sameUser_select_iff {s s' : SignIns ι lower} {email : String} {i : ι} {now : Int}
    (hone : OneEmail email s) (h : SameUser mac secret ttl email s)
    (hs : signInStep mac secret ttl s (.select i now) = some s') :
    SameUser mac secret ttl email s' ↔ Unraced s (.select i now) := by
  rcases hone i with hi | hi | ⟨a, hi⟩
  · simp only [signInStep, hi, Option.some.injEq] at hs
    subst hs
    have hcond : Unraced s (.select i now) ↔ isPgText email = true :=
      ⟨fun hu => hu email hi, fun ht other ho => by cases hi.symm.trans ho; exact ht⟩
    rw [sameUser_put_iff mac secret ttl h, hcond]
    unfold Users.select
    by_cases htext : isPgText email = true
    · rw [if_pos htext]
      refine iff_of_true (fun a ha => ?_) htext
      rcases withEmail_cases s.users email with ⟨hnil, -⟩ | ⟨r, hr⟩
      · rw [hnil] at ha
        cases ha
      · rw [hr] at ha
        exact ⟨r, now, hr, ha.symm⟩
    · rw [if_neg htext]
      refine iff_of_false (fun hall => ?_) htext
      obtain ⟨r, now', -, hfailed⟩ := hall _ rfl
      exact failed_ne_signedIn _ _ _ hfailed
  · simp [signInStep, hi] at hs
  · simp [signInStep, hi] at hs

/-- An insert agrees if the table takes the row. -/
theorem sameUser_insert_iff {s s' : SignIns ι lower} {email : String} {i : ι} {id : Uuid}
    {passwordHash : String} {now : Int} (hone : OneEmail email s) (h : SameUser mac secret ttl email s)
    (hs : signInStep mac secret ttl s (.insert i id passwordHash now) = some s') :
    SameUser mac secret ttl email s' ↔ Unraced s (.insert i id passwordHash now) := by
  rcases hone i with hi | hi | ⟨a, hi⟩
  · simp [signInStep, hi] at hs
  · have hcond : Unraced s (.insert i id passwordHash now) ↔
        isPgText email = true ∧ isPgText passwordHash = true ∧ s.users.Takes ⟨id, email, passwordHash⟩ :=
      ⟨fun hu => hu email hi, fun ht other ho => by cases hi.symm.trans ho; exact ht⟩
    rw [hcond]
    simp only [signInStep, hi] at hs
    split at hs
    · next users hins =>
      cases hs
      obtain ⟨hnone, hnew⟩ := withEmail_insert hins
      refine iff_of_true ?_ (insert_ok_iff.mp hins).1
      intro j a ha
      by_cases hj : j = i
      · subst hj
        rw [put_pc_self] at ha
        exact ⟨_, now, hnew, ha.symm⟩
      · rw [put_pc_of_ne _ _ hj] at ha
        obtain ⟨r, now', hr, -⟩ := h j a ha
        rw [hnone] at hr
        cases hr
    · next e hins =>
      cases hs
      refine iff_of_false (fun hall => ?_) (fun htaken => ?_)
      · obtain ⟨r, now', -, hfailed⟩ := hall i _ (put_pc_self ..)
        exact failed_ne_signedIn _ _ _ hfailed
      · have hok : ∃ users, s.users.insert ⟨id, email, passwordHash⟩ = .ok users := by
          unfold Users.insert
          rw [if_pos ⟨htaken.1, htaken.2.1⟩, dif_pos htaken.2.2]
          exact ⟨_, rfl⟩
        obtain ⟨users, hok⟩ := hok
        cases hok.symm.trans hins
  · simp [signInStep, hi] at hs

theorem unraced_of_disabled {s : SignIns ι lower} {e : SignInEvent ι}
    (h : signInStep mac secret ttl s e = none) : Unraced s e := by
  cases e with
  | select i now =>
    intro email hi
    simp [signInStep, hi] at h
  | insert i id passwordHash now =>
    intro email hi
    simp only [signInStep, hi] at h
    split at h <;> cases h

theorem sameUser_step_iff {s s' : SignIns ι lower} {e : SignInEvent ι} {email : String}
    (hone : OneEmail email s) (h : SameUser mac secret ttl email s)
    (hs : signInStep mac secret ttl s e = some s') :
    SameUser mac secret ttl email s' ↔ Unraced s e := by
  cases e with
  | select i now => exact sameUser_select_iff mac secret ttl hone h hs
  | insert i id passwordHash now => exact sameUser_insert_iff mac secret ttl hone h hs

/-- **Every answer agrees exactly when** no user is inserted where there is one with the email
already: in every state of every run of any number of requests, from any table. -/
theorem sign_ins_agree_iff (users : Users lower) (email : String) (es : List (SignInEvent ι)) :
    Steps.Along (signInStep mac secret ttl)
        (fun s e => ∀ s', signInStep mac secret ttl s e = some s' → SameUser mac secret ttl email s')
        (SignIns.start users email) es ↔
      Steps.Along (signInStep mac secret ttl) Unraced (SignIns.start users email) es := by
  apply Steps.along_keeps_iff (I := OneEmail email) (P := SameUser mac secret ttl email)
  · exact fun s e s' h hs => oneEmail_step mac secret ttl h hs
  · exact fun s e s' hone h hs => sameUser_step_iff mac secret ttl hone h hs
  · exact fun s e h => unraced_of_disabled mac secret ttl h
  · exact fun i => Or.inl rfl
  · intro i a ha
    cases ha

/-- When all are answered, they have tokens for one user, the only one with the email. -/
theorem sign_ins_complete [Nonempty ι] {users : Users lower} {email : String} {es : List (SignInEvent ι)}
    {s : SignIns ι lower}
    (h : Steps.Along (signInStep mac secret ttl) Unraced (SignIns.start users email) es)
    (hr : Steps.run (signInStep mac secret ttl) (SignIns.start users email) es = some s)
    (hall : ∀ i, ∃ a, s.pc i = .finished a) :
    ∃ r, s.users.withEmail email = [r] ∧ ∀ i, ∃ now, s.pc i = signedIn mac secret ttl now r.id email := by
  have hinv : OneEmail email s ∧ SameUser mac secret ttl email s := by
    refine Steps.run_invariant (I := fun s => OneEmail email s ∧ SameUser mac secret ttl email s) ?_ ?_ h hr
    · rintro s e s' ⟨hone, hsame⟩ hC hs
      exact ⟨oneEmail_step mac secret ttl hone hs, (sameUser_step_iff mac secret ttl hone hsame hs).mpr hC⟩
    · refine ⟨fun i => Or.inl rfl, fun i a ha => ?_⟩
      cases ha
  obtain ⟨i⟩ := ‹Nonempty ι›
  obtain ⟨a, ha⟩ := hall i
  obtain ⟨r, -, hr, -⟩ := hinv.2 i a ha
  refine ⟨r, hr, fun j => ?_⟩
  obtain ⟨b, hb⟩ := hall j
  obtain ⟨r', now, hr', hsigned⟩ := hinv.2 j b hb
  cases hr.symm.trans hr'
  exact ⟨now, hb.trans hsigned⟩

/-- Where a request with a verified credential begins. -/
theorem googleAuthStart_verified {lower : Char → Char} {googleClientID credential email : String}
    {tokeninfo : String → Option HttpResponse} {now : Int64} {body : List UInt8}
    (hbody : decode googleFields ⟨""⟩ body = some ⟨credential⟩)
    (hok : verifyGoogleIDToken lower googleClientID credential tokeninfo now = .ok email) :
    googleAuthStart lower googleClientID tokeninfo now "POST" body = .selecting email := by
  obtain ⟨hclient, hcred, -⟩ := verify_ok_iff.mp hok
  unfold googleAuthStart
  rw [if_neg (by decide), if_neg hclient, hbody]
  simp only [hok, if_neg hcred]

end

end

/-! ## Two requests -/

/-- An empty table. -/
def noUsers : Users id := ⟨[], List.nodup_nil, List.nodup_nil, fun _ h => absurd h List.not_mem_nil⟩

/-- Both select before either inserts. -/
def twoSignIns : List (SignInEvent Bool) :=
  [.select true 0, .select false 0, .insert true (.ofDigit 1) "hash" 0, .insert false (.ofDigit 2) "hash" 0]

/-- The law fails: the second insert is refused, and its request answered 500. -/
theorem sign_ins_agree_fails : ¬ ∀ (lower : String → String)
    (mac : List UInt8 → List UInt8 → List UInt8) (secret : List UInt8) (ttl : Int) (users : Users lower)
    (email : String) (es : List (SignInEvent Bool)),
    Steps.Along (signInStep mac secret ttl)
      (fun s e => ∀ s', signInStep mac secret ttl s e = some s' → SameUser mac secret ttl email s')
      (SignIns.start users email) es := by
  intro h
  obtain ⟨-, h1⟩ := h id sampleMac [] second noUsers "ann@example.org" twoSignIns
  obtain ⟨-, h2⟩ := h1 _ rfl
  obtain ⟨-, h3⟩ := h2 _ rfl
  obtain ⟨h4, -⟩ := h3 _ rfl
  obtain ⟨r, now, -, hfailed⟩ := h4 _ rfl false _ rfl
  exact failed_ne_signedIn _ _ _ hfailed

end Synora
