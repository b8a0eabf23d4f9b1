import Synora.Request

/- Google Sign-In up to the users table (handlers.go): `App.verifyGoogleIDToken` on
   whatever the tokeninfo endpoint returns, and the beginning of `App.googleAuth`.
   Every field of the answer must be there and right, except the expiry: it is
   compared with the clock only if it is an int64 (`fails_closed_iff`).

   Correspondence (Go ↔ Lean):
     the struct of the answer               ↔ `TokenInfo`, `tokenInfoFields`
     `verifiedEmailFlag`                    ↔ `verifiedEmailFlag`
     `App.verifyGoogleIDToken`              ↔ `verifyGoogleIDToken`
     `App.googleAuth` before the database   ↔ `googleAuthStart`
   `tokeninfo` is what the request to the endpoint returns, nothing if there is an
   error; `lower` is `unicode.ToLower`. The errors are told apart only in the log. -/
namespace Synora

open StructFields

/-! ## The answer of the endpoint -/

structure TokenInfo where
  aud : String
  iss : String
  email : String
  emailVerified : Json
  exp : String

def TokenInfo.empty : TokenInfo := ⟨"", "", "", .null, ""⟩

/-- An `any`: every value whose numbers are float64. -/
def readAny (v : Json) : Option (Option Json) := if Json.fitsFloats v = true then some (some v) else none

def tokenInfoFields : List (JsonField TokenInfo) := [
  { name := "aud", path := [0], tagged := true, omitted := fun _ => false
    get := fun t => .str t.aud, set := setField readString fun v t => { t with aud := v } },
  { name := "iss", path := [1], tagged := true, omitted := fun _ => false
    get := fun t => .str t.iss, set := setField readString fun v t => { t with iss := v } },
  { name := "email", path := [2], tagged := true, omitted := fun _ => false
    get := fun t => .str t.email, set := setField readString fun v t => { t with email := v } },
  { name := "email_verified", path := [3], tagged := true, omitted := fun _ => false
    get := fun t => t.emailVerified, set := setField readAny fun v t => { t with emailVerified := v } },
  { name := "exp", path := [4], tagged := true, omitted := fun _ => false
    get := fun t => .str t.exp, set := setField readString fun v t => { t with exp := v } }]

structure HttpResponse where
  status : Int
  body : List UInt8

/-- `json.NewDecoder(resp.Body).Decode(&body)`: the first value; `none` is an error. -/
def tokenInfo (body : List UInt8) : Option TokenInfo :=
  match Json.decodeNext (StructFields.decode tokenInfoFields .empty) (Utf8.runes body) with
  | .ok (t, _) => some t
  | .error _ => none

/-! ## The checks -/

/-- `strings.EqualFold(t, "true")` for a string. -/
def verifiedEmailFlag : Json → Bool
  | .bool b => b
  | .str t => foldName t == foldName "true"
  | _ => false

/-- The number of an optional sign and digits. -/
def intText (s : String) : Option Int :=
  let digits (cs : List Char) : Option Nat :=
    if cs ≠ [] ∧ cs.all Char.isDigit = true then some (Nat.ofDigitChars 10 cs 0) else none
  match s.toList with
  | '-' :: cs => (digits cs).map fun n => -(n : Int)
  | '+' :: cs => (digits cs).map fun n => (n : Int)
  | cs => (digits cs).map fun n => (n : Int)

/-- `strconv.ParseInt(s, 10, 64)`; `none` is an error. -/
def parseInt (s : String) : Option Int := (intText s).filter fun n => decide (-2^63 ≤ n ∧ n < 2^63)

inductive GoogleError where
  | notConfigured
  | missingCredential
  | request
  | status
  | body
  | audience
  | issuer
  | notVerified
  | email
  | expired
  deriving DecidableEq

section
variable (lower : Char → Char)

/-- `strings.ToLower(strings.TrimSpace(s))`. -/
def normalEmail (s : String) : String := String.ofList ((trimSpace s).toList.map lower)

/-- The checks on the decoded answer, in their order. -/
def checkTokenInfo (clientID : String) (now : Int64) (t : TokenInfo) : Except GoogleError String :=
  if t.aud ≠ clientID then .error .audience
  else if t.iss ≠ "accounts.google.com" ∧ t.iss ≠ "https://accounts.google.com" then .error .issuer
  else if verifiedEmailFlag t.emailVerified = false then .error .notVerified
  else if normalEmail lower t.email = "" ∨ '@' ∉ (normalEmail lower t.email).toList then .error .email
  -- what is no int64 is not compared
  else if ∃ exp ∈ parseInt t.exp, exp ≤ now.toInt then .error .expired
  else .ok (normalEmail lower t.email)

def verifyGoogleIDToken (googleClientID credential : String) (tokeninfo : String → Option HttpResponse)
    (now : Int64) : Except GoogleError String :=
  if trimSpace googleClientID = "" then .error .notConfigured
  else if trimSpace credential = "" then .error .missingCredential
  else
    match tokeninfo (trimSpace credential) with
    | none => .error .request
    | some resp =>
      if resp.status ≠ 200 then .error .status
      else
        match tokenInfo resp.body with
        | none => .error .body
        | some t => checkTokenInfo lower (trimSpace googleClientID) now t

/-! ## The handler up to the database -/

/-- The struct of the request body. -/
structure GoogleInput where
  credential : String

def googleFields : List (JsonField GoogleInput) := [
  { name := "credential", path := [0], tagged := true, omitted := fun _ => false
    get := fun i => .str i.credential, set := setField readString fun v i => { i with credential := v } }]

/-- What a request is answered. -/
inductive GoogleAnswer where
  | methodNotAllowed
  | failed (a : Answer)
  /-- 200, with the token and the user. -/
  | signedIn (token : String) (expiresIn : Int) (id email : String)
  deriving DecidableEq

def googleUnavailable : Answer := .error 503 "AUTH_UNAVAILABLE"
  "Google Sign-In is not configured. Please contact your administrator." []
def credentialRequired : Answer := .error 400 "VALIDATION_ERROR" "Google credential is required" []
def googleRejected : Answer := .error 401 "INVALID_CREDENTIALS"
  "Google authentication failed. Please try again." []

/-- Where `googleAuth` is: before its select, before its insert, or answered. -/
inductive GooglePc where
  | selecting (email : String)
  | inserting (email : String)
  | finished (a : GoogleAnswer)
  deriving DecidableEq

def googleAuthStart (googleClientID : String) (tokeninfo : String → Option HttpResponse) (now : Int64)
    (method : String) (body : List UInt8) : GooglePc :=
  if method ≠ "POST" then .finished .methodNotAllowed
  else if trimSpace googleClientID = "" then .finished (.failed googleUnavailable)
  else
    match decode googleFields ⟨""⟩ body with
    | none => .finished (.failed credentialRequired)
    | some input =>
      if trimSpace input.credential = "" then .finished (.failed credentialRequired)
      else
        match verifyGoogleIDToken lower googleClientID input.credential tokeninfo now with
        | .error _ => .finished (.failed googleRejected)
        | .ok email => .selecting email

/-! ## What is checked -/

/-- The word true in any case. -/
def IsTrueWord (s : String) : Prop := s.toList.map Char.toLower = ['t', 'r', 'u', 'e']

/-- What an accepted answer must be: stated for itself, not taken from the code. -/
structure Verified (clientID : String) (now : Int64) (t : TokenInfo) (email : String) : Prop where
  aud : t.aud = clientID
  iss : t.iss = "accounts.google.com" ∨ t.iss = "https://accounts.google.com"
  emailVerified : t.emailVerified = .bool true ∨ ∃ s, t.emailVerified = .str s ∧ IsTrueWord s
  exp : ∃ n, intText t.exp = some n ∧ now.toInt < n
  returned : email = normalEmail lower t.email
  notEmpty : email ≠ ""
  hasAt : '@' ∈ email.toList

/-- … and the answer 200, to a service with a client id. -/
def VerifiedBy (googleClientID credential : String) (tokeninfo : String → Option HttpResponse)
    (now : Int64) (email : String) : Prop :=
  trimSpace googleClientID ≠ "" ∧ ∃ resp t, tokeninfo (trimSpace credential) = some resp ∧
    resp.status = 200 ∧ tokenInfo resp.body = some t ∧
    Verified lower (trimSpace googleClientID) now t email

/-- No email without all of it; and without it an error, and a request that is answered with
one before any statement. -/
structure FailsClosed (googleClientID credential : String) (tokeninfo : String → Option HttpResponse)
    (now : Int64) : Prop where
  only : ∀ email, verifyGoogleIDToken lower googleClientID credential tokeninfo now = .ok email →
    VerifiedBy lower googleClientID credential tokeninfo now email
  error : (∀ email, ¬ VerifiedBy lower googleClientID credential tokeninfo now email) →
    ∃ e, verifyGoogleIDToken lower googleClientID credential tokeninfo now = .error e
  untouched : (∀ email, ¬ VerifiedBy lower googleClientID credential tokeninfo now email) →
    ∀ method body, decode googleFields ⟨""⟩ body = some ⟨credential⟩ →
      googleAuthStart lower googleClientID tokeninfo now method body = .finished .methodNotAllowed ∨
      ∃ a, googleAuthStart lower googleClientID tokeninfo now method body = .finished (.failed a)

/-- The expiry is an integer, and not below every int64. -/
def ReadableExp (t : TokenInfo) : Prop := ∃ n, intText t.exp = some n ∧ -2^63 ≤ n

/-- The checks besides that of the expiry. -/
def OthersPass (clientID : String) (t : TokenInfo) : Prop :=
  t.aud = clientID ∧ (t.iss = "accounts.google.com" ∨ t.iss = "https://accounts.google.com") ∧
    verifiedEmailFlag t.emailVerified = true ∧ normalEmail lower t.email ≠ "" ∧
    '@' ∈ (normalEmail lower t.email).toList

variable {lower}

/-- A letter that folds to one of "true" is that letter, in some case. -/
theorem foldChar_toLower {c d : Char} (hs : d ≠ 's') (hk : d ≠ 'k') (h : foldChar c = d) : c.toLower = d := by
  unfold foldChar at h
  split at h
  · exact absurd h.symm hs
  · split at h
    · exact absurd h.symm hk
    · exact h

theorem verifiedEmailFlag_true {v : Json} (h : verifiedEmailFlag v = true) :
    v = .bool true ∨ ∃ s, v = .str s ∧ IsTrueWord s := by
  unfold verifiedEmailFlag at h
  split at h
  · next b =>
    subst h
    exact Or.inl rfl
  · next s =>
    refine Or.inr ⟨s, rfl, ?_⟩
    have hfold : s.toList.map foldChar = ['t', 'r', 'u', 'e'] := by
      have hnames := congrArg String.toList (beq_iff_eq.mp h)
      have htrue : (foldName "true").toList = ['t', 'r', 'u', 'e'] := by decide
      rw [htrue, foldName, String.toList_ofList] at hnames
      exact hnames
    unfold IsTrueWord
    rw [← hfold]
    apply List.map_congr_left
    intro c hc
    have hmem : foldChar c ∈ ['t', 'r', 'u', 'e'] := hfold ▸ List.mem_map_of_mem hc
    apply foldChar_toLower (h := rfl)
    · intro hs
      rw [hs] at hmem
      revert hmem
      decide
    · intro hk
      rw [hk] at hmem
      revert hmem
      decide
  · cases h

theorem ok_of_guard {ε α : Type} {c : Prop} [Decidable c] {e : ε} {x : Except ε α} {y : α} :
    (if c then .error e else x) = .ok y ↔ ¬ c ∧ x = .ok y := by
  split
  · next h => exact ⟨fun h => (by cases h), fun hc => absurd h hc.1⟩
  · next h => exact ⟨fun hx => ⟨h, hx⟩, fun hx => hx.2⟩

/-- **When the checks pass**, and with what. -/
theorem checkTokenInfo_ok_iff {clientID email : String} {now : Int64} {t : TokenInfo} :
    checkTokenInfo lower clientID now t = .ok email ↔
      OthersPass lower clientID t ∧ (∀ n, parseInt t.exp = some n → now.toInt < n) ∧
        email = normalEmail lower t.email := by
  unfold checkTokenInfo OthersPass
  simp only [ok_of_guard, Except.ok.injEq, Bool.not_eq_false]
  constructor
  · rintro ⟨haud, hiss, hverified, hemail, hexp, hreturned⟩
    have hiss' : t.iss = "accounts.google.com" ∨ t.iss = "https://accounts.google.com" := by
      by_contra hno
      exact hiss (not_or.mp hno)
    obtain ⟨hne, hat⟩ := not_or.mp hemail
    refine ⟨⟨Classical.not_not.mp haud, hiss', hverified, hne, Classical.not_not.mp hat⟩, ?_, hreturned.symm⟩
    intro n hn
    exact Int.not_le.mp fun hle => hexp ⟨n, hn, hle⟩
  · rintro ⟨⟨haud, hiss, hverified, hne, hat⟩, hexp, hreturned⟩
    refine ⟨fun h => h haud, fun h => hiss.elim h.1 h.2, hverified, ?_, ?_, hreturned.symm⟩
    · exact fun h => h.elim hne fun h => h hat
    · rintro ⟨n, hn, hle⟩
      exact Int.not_le.mpr (hexp n hn) hle

theorem verify_ok_iff {googleClientID credential email : String} {tokeninfo : String → Option HttpResponse}
    {now : Int64} : verifyGoogleIDToken lower googleClientID credential tokeninfo now = .ok email ↔
      trimSpace googleClientID ≠ "" ∧ trimSpace credential ≠ "" ∧
        ∃ resp t, tokeninfo (trimSpace credential) = some resp ∧ resp.status = 200 ∧
          tokenInfo resp.body = some t ∧ checkTokenInfo lower (trimSpace googleClientID) now t = .ok email := by
  unfold verifyGoogleIDToken
  rw [ok_of_guard, ok_of_guard]
  refine and_congr_right fun _ => and_congr_right fun _ => ?_
  cases tokeninfo (trimSpace credential) with
  | none =>
    constructor
    · intro h
      cases h
    · rintro ⟨resp, t, h, -⟩
      cases h
  | some resp =>
    simp only [ok_of_guard, Option.some.injEq]
    cases ht : tokenInfo resp.body with
    | none =>
      constructor
      · rintro ⟨-, h⟩
        cases h
      · rintro ⟨resp', t, rfl, -, h, -⟩
        rw [ht] at h
        cases h
    | some t =>
      constructor
      · rintro ⟨hstatus, h⟩
        exact ⟨resp, t, rfl, Classical.not_not.mp hstatus, ht, h⟩
      · rintro ⟨resp', t', rfl, hstatus, ht', h⟩
        cases ht.symm.trans ht'
        exact ⟨fun hne => hne hstatus, h⟩

theorem parseInt_eq_some {s : String} {n : Int} :
    parseInt s = some n ↔ intText s = some n ∧ -2^63 ≤ n ∧ n < 2^63 := by
  unfold parseInt
  rw [Option.filter_eq_some_iff, decide_eq_true_eq]

/-- An expiry that is compared with the clock is readable, and one that is readable is later than
the clock if the comparison says so. -/
theorem readable_later {t : TokenInfo} {now : Int64}
    (h : ∀ n, parseInt t.exp = some n → now.toInt < n) :
    ReadableExp t ↔ ∃ n, intText t.exp = some n ∧ now.toInt < n := by
  have hlow : -2^63 ≤ now.toInt := now.le_toInt
  have hhigh : now.toInt < 2^63 := now.toInt_lt
  constructor
  · rintro ⟨n, hn, hmin⟩
    refine ⟨n, hn, ?_⟩
    by_cases hmax : n < 2^63
    · exact h n (parseInt_eq_some.mpr ⟨hn, hmin, hmax⟩)
    · omega
  · rintro ⟨n, hn, hlater⟩
    exact ⟨n, hn, by omega⟩

/-- What is accepted with a readable expiry is verified. -/
theorem verifiedBy_of_ok {googleClientID credential email : String}
    {tokeninfo : String → Option HttpResponse} {now : Int64}
    (hreadable : ∀ resp t, tokeninfo (trimSpace credential) = some resp → resp.status = 200 →
      tokenInfo resp.body = some t → OthersPass lower (trimSpace googleClientID) t → ReadableExp t)
    (hok : verifyGoogleIDToken lower googleClientID credential tokeninfo now = .ok email) :
    VerifiedBy lower googleClientID credential tokeninfo now email := by
  obtain ⟨hclient, -, resp, t, hresp, hstatus, ht, hcheck⟩ := verify_ok_iff.mp hok
  obtain ⟨hothers, hexp, hreturned⟩ := checkTokenInfo_ok_iff.mp hcheck
  have hexpiry := (readable_later hexp).mp (hreadable resp t hresp hstatus ht hothers)
  obtain ⟨haud, hiss, hflag, hne, hat⟩ := hothers
  exact ⟨hclient, resp, t, hresp, hstatus, ht,
    { aud := haud
      iss := hiss
      emailVerified := verifiedEmailFlag_true hflag
      exp := hexpiry
      returned := hreturned
      notEmpty := hreturned ▸ hne
      hasAt := hreturned ▸ hat }⟩

/-- A request whose credential is refused is answered before any statement. -/
theorem googleAuthStart_refused {googleClientID credential : String} {e : GoogleError}
    {tokeninfo : String → Option HttpResponse} {now : Int64}
    (he : verifyGoogleIDToken lower googleClientID credential tokeninfo now = .error e)
    (method : String) {body : List UInt8} (hbody : decode googleFields ⟨""⟩ body = some ⟨credential⟩) :
    googleAuthStart lower googleClientID tokeninfo now method body = .finished .methodNotAllowed ∨
      ∃ a, googleAuthStart lower googleClientID tokeninfo now method body = .finished (.failed a) := by
  unfold googleAuthStart
  split
  · exact Or.inl rfl
  · split
    · exact Or.inr ⟨_, rfl⟩
    · rw [hbody]
      simp only [he]
      split <;> exact Or.inr ⟨_, rfl⟩

/-- **Verification fails closed exactly when** an answer that passes all other checks has an
expiry that is an integer. -/
theorem fails_closed_iff (googleClientID credential : String) (tokeninfo : String → Option HttpResponse)
    (now : Int64) : FailsClosed lower googleClientID credential tokeninfo now ↔
      ∀ resp t, trimSpace googleClientID ≠ "" → trimSpace credential ≠ "" →
        tokeninfo (trimSpace credential) = some resp → resp.status = 200 →
        tokenInfo resp.body = some t → OthersPass lower (trimSpace googleClientID) t → ReadableExp t := by
  constructor
  · intro h resp t hclient hcred hresp hstatus ht hothers
    by_cases hexp : ∀ n, parseInt t.exp = some n → now.toInt < n
    · have hok := verify_ok_iff.mpr ⟨hclient, hcred, resp, t, hresp, hstatus, ht,
        checkTokenInfo_ok_iff.mpr ⟨hothers, hexp, rfl⟩⟩
      obtain ⟨-, resp', t', hresp', -, ht', hverified⟩ := h.only _ hok
      cases hresp.symm.trans hresp'
      cases ht.symm.trans ht'
      exact (readable_later hexp).mpr hverified.exp
    · -- it was read, and is in the past
      push Not at hexp
      obtain ⟨n, hn, -⟩ := hexp
      obtain ⟨hint, hmin, -⟩ := parseInt_eq_some.mp hn
      exact ⟨n, hint, hmin⟩
  · intro h
    have honly : ∀ email, verifyGoogleIDToken lower googleClientID credential tokeninfo now = .ok email →
        VerifiedBy lower googleClientID credential tokeninfo now email := by
      intro email hok
      obtain ⟨hclient, hcred, -⟩ := verify_ok_iff.mp hok
      exact verifiedBy_of_ok (fun resp t => h resp t hclient hcred) hok
    have herror : (∀ email, ¬ VerifiedBy lower googleClientID credential tokeninfo now email) →
        ∃ e, verifyGoogleIDToken lower googleClientID credential tokeninfo now = .error e := by
      intro hnone
      cases hv : verifyGoogleIDToken lower googleClientID credential tokeninfo now with
      | error e => exact ⟨e, rfl⟩
      | ok email => exact absurd (honly email hv) (hnone email)
    refine ⟨honly, herror, fun hnone method body hbody => ?_⟩
    obtain ⟨e, he⟩ := herror hnone
    exact googleAuthStart_refused he method hbody

end

/-- An answer without an expiry. -/
def noExpiry : List UInt8 := Base64Url.utf8 ("\x7b\"aud\":\"shop\",\"iss\":\"accounts.google.com\"," ++
  "\"email\":\"Ann@example.org\",\"email_verified\":\"true\"\x7d").toList

/-- The law fails: an answer without an expiry is accepted. -/
theorem fails_closed_fails : ¬ ∀ (lower : Char → Char) (googleClientID credential : String)
    (tokeninfo : String → Option HttpResponse) (now : Int64),
    FailsClosed lower googleClientID credential tokeninfo now := by
  intro h
  have hbody : (tokenInfo noExpiry).map (fun t => t.exp) = some "" := by decide +kernel
  have hok : verifyGoogleIDToken Char.toLower "shop" "c" (fun _ => some ⟨200, noExpiry⟩) 0 =
      .ok "ann@example.org" := by decide +kernel
  obtain ⟨-, resp, t, hresp, -, ht, hverified⟩ := (h _ _ _ _ _).only _ hok
  cases hresp
  obtain ⟨n, hn, -⟩ := hverified.exp
  rw [ht, Option.map_some, Option.some.injEq] at hbody
  rw [hbody] at hn
  have hnone : intText "" = none := by decide
  cases hnone.symm.trans hn

end Synora
