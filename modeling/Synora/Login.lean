import Synora.Lib.UrlForm
import Synora.Middleware
import Synora.SignIns

/- The login (handlers.go): `App.validateTurnstileToken` on whatever the siteverify
   endpoint returns, and `App.auth` from the request to its answer. The form of the
   endpoint carries the secret, the token and the address of the client, and a token
   cannot add or replace a parameter (`get_turnstileForm`). A request is answered 200
   exactly when all checks pass (`auth_signedIn_iff`).

   Correspondence (Go ↔ Lean):
     the struct of the endpoint's answer            ↔ `TurnstileReply`, `turnstileFields`
     `form`, `form.Encode()`                        ↔ `turnstileForm`, `UrlForm.encode`
     `App.validateTurnstileToken`                   ↔ `validateTurnstileToken`; an error is its text
     the struct of the request body                 ↔ `AuthInput`, `loginFields`
     `App.auth` before the database                 ↔ `authStart`
     `select id,password_hash from users where …`   ↔ `Users.credentials`
     `App.auth` from the database on                ↔ `authFinish`
   `siteverify` is what the request to the endpoint returns, by its body; `compare` is
   `bcrypt.CompareHashAndPassword` without an error. -/
namespace Synora

open StructFields

/-! ## Turnstile -/

structure TurnstileReply where
  success : Bool
  errors : List String

/-- A bool: null leaves it. -/
def readBool : Json → Option (Option Bool)
  | .bool b => some (some b)
  | .null => some none
  | _ => none

/-- A list of strings, in which null is the empty one; null is the empty list. -/
def readTexts : Json → Option (Option (List String))
  | .arr vs => (vs.mapM fun v => (readString v).map fun s => s.getD "").map some
  | .null => some (some [])
  | _ => none

def turnstileFields : List (JsonField TurnstileReply) := [
  { name := "success", path := [0], tagged := true, omitted := fun _ => false
    get := fun r => .bool r.success, set := setField readBool fun v r => { r with success := v } },
  { name := "error-codes", path := [1], tagged := true, omitted := fun _ => false
    get := fun r => .arr (r.errors.map .str), set := setField readTexts fun v r => { r with errors := v } }]

/-- `json.NewDecoder(resp.Body).Decode(&body)`: the first value; `none` is an error. -/
def turnstileReply (body : List UInt8) : Option TurnstileReply :=
  match Json.decodeNext (StructFields.decode turnstileFields ⟨false, []⟩) (Utf8.runes body) with
  | .ok (r, _) => some r
  | .error _ => none

structure SiteverifyResponse where
  status : Int
  body : List UInt8
  /-- What `Decode` says if it fails. -/
  decodeError : String

/-- The form: `remoteip` is there where it is not blank. -/
def turnstileForm (secret token remoteIP : String) : List (String × List String) :=
  [("secret", [secret]), ("response", [token])] ++
    if trimSpace remoteIP = "" then [] else [("remoteip", [trimSpace remoteIP])]

section
variable (turnstileSecret : String) (siteverify : List UInt8 → Except String SiteverifyResponse)

def validateTurnstileToken (token remoteIP : String) : Except String Unit :=
  if trimSpace turnstileSecret = "" then .error "turnstile is not configured"
  else if trimSpace token = "" then .error "missing turnstile token"
  else
    match siteverify (UrlForm.encode (turnstileForm (trimSpace turnstileSecret) token remoteIP)) with
    | .error text => .error text
    | .ok resp =>
      if resp.status ≠ 200 then .error "turnstile verification failed"
      else
        match turnstileReply resp.body with
        | none => .error resp.decodeError
        | some r => if r.success = true then .ok () else .error "invalid turnstile token"

/-! ## The handler -/

structure AuthInput where
  email : String
  password : String
  turnstileToken : String

def loginFields : List (JsonField AuthInput) := [
  { name := "email", path := [0], tagged := true, omitted := fun _ => false
    get := fun i => .str i.email, set := setField readString fun v i => { i with email := v } },
  { name := "password", path := [1], tagged := true, omitted := fun _ => false
    get := fun i => .str i.password, set := setField readString fun v i => { i with password := v } },
  { name := "cf_turnstile_response", path := [2], tagged := true, omitted := fun _ => false
    get := fun i => .str i.turnstileToken, set := setField readString fun v i => { i with turnstileToken := v } }]

def AuthInput.empty : AuthInput := ⟨"", "", ""⟩

def emailAndPasswordRequired : Answer := .error 400 "VALIDATION_ERROR" "Email and password are required" []
def turnstileUnavailable : Answer := .error 503 "AUTH_UNAVAILABLE" "Turnstile verification is not configured" []
def turnstileRequired : Answer := .error 400 "VALIDATION_ERROR" "Turnstile verification is required" []
def incorrectCredentials : Answer := .error 401 "INVALID_CREDENTIALS" "Email or password is incorrect" []

/-- `strings.Contains(s, part)`. -/
def containsText (s part : String) : Bool := decide (part.toList <:+: s.toList)

/-- Where `auth` is: before its select, or answered. -/
inductive AuthPc where
  | selecting (email password : String)
  | finished (a : GoogleAnswer)
  deriving DecidableEq

variable (lower : Char → Char)

def authStart (r : HttpRequest) (body : List UInt8) : AuthPc :=
  if r.method ≠ "POST" then .finished .methodNotAllowed
  else
    match decode loginFields .empty body with
    | none => .finished (.failed emailAndPasswordRequired)
    | some input =>
      if trimSpace input.email = "" ∨ input.password = "" then .finished (.failed emailAndPasswordRequired)
      else
        match validateTurnstileToken turnstileSecret siteverify input.turnstileToken (clientIP r) with
        | .error text =>
          .finished (.failed (if containsText text "not configured" then turnstileUnavailable else turnstileRequired))
        | .ok () => .selecting (normalEmail lower input.email) input.password

end

/-- The id and the hash of the row with an email. -/
def Users.credentials {lower : String → String} (t : Users lower) (email : String) :
    Except PgError (Option (Uuid × String)) :=
  if isPgText email = true then
    .ok ((t.withEmail email).head?.map fun r => (r.id, r.passwordHash))
  else .error .invalidText

section
variable (mac : List UInt8 → List UInt8 → List UInt8) (secret : List UInt8) (ttl : Int)
  (compare : String → String → Bool) {pgLower : String → String}

def authFinish (t : Users pgLower) (now : Int) (email password : String) : GoogleAnswer :=
  match t.credentials email with
  | .ok (some (id, hash)) =>
    if compare hash password = true then
      .signedIn (token mac secret ttl now id.text) (ttl.tdiv second) id.text email
    else .failed incorrectCredentials
  | .ok none => .failed incorrectCredentials
  | .error _ => .failed incorrectCredentials

/-- `App.auth`, with the table and the clock at its select. -/
def auth (turnstileSecret : String) (siteverify : List UInt8 → Except String SiteverifyResponse)
    (lower : Char → Char) (t : Users pgLower) (now : Int) (r : HttpRequest) (body : List UInt8) : GoogleAnswer :=
  match authStart turnstileSecret siteverify lower r body with
  | .selecting email password => authFinish mac secret ttl compare t now email password
  | .finished a => a

end

/-! ## What the endpoint is asked -/

/-- The parameters it is asked about, in the order of their names. -/
def turnstileParameters (secret token remoteIP : String) : List (String × String) :=
  (if trimSpace remoteIP = "" then [] else [("remoteip", trimSpace remoteIP)]) ++
    [("response", token), ("secret", secret)]

/-- **The endpoint reads what was meant**, whatever the token and the headers of the client hold. -/
theorem parse_turnstileForm (secret token remoteIP : String) :
    UrlQuery.parse (UrlForm.encode (turnstileForm secret token remoteIP)) =
      turnstileParameters secret token remoteIP := by
  rw [UrlForm.parse_encode]
  unfold turnstileForm turnstileParameters
  split
  · simp [UrlForm.pairs, List.mergeSort]
  · simp [UrlForm.pairs, List.mergeSort, List.MergeSort.Internal.splitInTwo]

/-- An answer that confirms the token. -/
def Confirms (answer : Except String SiteverifyResponse) : Prop :=
  ∃ resp reply, answer = .ok resp ∧ resp.status = 200 ∧ turnstileReply resp.body = some reply ∧
    reply.success = true

theorem validateTurnstileToken_ok_iff {turnstileSecret token remoteIP : String}
    {siteverify : List UInt8 → Except String SiteverifyResponse} :
    validateTurnstileToken turnstileSecret siteverify token remoteIP = .ok () ↔
      trimSpace turnstileSecret ≠ "" ∧ trimSpace token ≠ "" ∧
        Confirms (siteverify (UrlForm.encode (turnstileForm (trimSpace turnstileSecret) token remoteIP))) := by
  unfold validateTurnstileToken Confirms
  rw [ok_of_guard, ok_of_guard]
  refine and_congr_right fun _ => and_congr_right fun _ => ?_
  cases siteverify (UrlForm.encode (turnstileForm (trimSpace turnstileSecret) token remoteIP)) with
  | error text =>
    constructor
    · intro h
      cases h
    · rintro ⟨resp, reply, h, -⟩
      cases h
  | ok resp =>
    simp only [ok_of_guard, Except.ok.injEq]
    cases hreply : turnstileReply resp.body with
    | none =>
      constructor
      · rintro ⟨-, h⟩
        cases h
      · rintro ⟨resp', reply, rfl, -, h, -⟩
        rw [hreply] at h
        cases h
    | some reply =>
      constructor
      · rintro ⟨hstatus, h⟩
        refine ⟨resp, reply, rfl, Classical.not_not.mp hstatus, hreply, ?_⟩
        by_contra hno
        simp only [if_neg hno] at h
        cases h
      · rintro ⟨resp', reply', rfl, hstatus, hreply', hsuccess⟩
        cases hreply.symm.trans hreply'
        exact ⟨fun hne => hne hstatus, if_pos hsuccess⟩

/-! ## Who is signed in -/

section
variable {turnstileSecret : String} {siteverify : List UInt8 → Except String SiteverifyResponse}
  {lower : Char → Char} {r : HttpRequest} {body : List UInt8}

/-- A request that passes the checks before the select. -/
structure Checked (turnstileSecret : String) (siteverify : List UInt8 → Except String SiteverifyResponse)
    (r : HttpRequest) (body : List UInt8) (input : AuthInput) : Prop where
  method : r.method = "POST"
  decoded : decode loginFields .empty body = some input
  email : trimSpace input.email ≠ ""
  password : input.password ≠ ""
  solved : validateTurnstileToken turnstileSecret siteverify input.turnstileToken (clientIP r) = .ok ()

theorem selecting_of_guard {c : Prop} [Decidable c] {a : GoogleAnswer} {pc : AuthPc} {email password : String} :
    (if c then .finished a else pc) = AuthPc.selecting email password ↔ ¬ c ∧ pc = .selecting email password := by
  split
  · next h => exact iff_of_false (fun h => by cases h) fun hc => hc.1 h
  · next h => exact ⟨fun hpc => ⟨h, hpc⟩, fun hpc => hpc.2⟩

theorem authStart_selecting_iff {email password : String} :
    authStart turnstileSecret siteverify lower r body = .selecting email password ↔
      ∃ input, Checked turnstileSecret siteverify r body input ∧ email = normalEmail lower input.email ∧
        password = input.password := by
  unfold authStart
  rw [selecting_of_guard]
  cases hdecoded : decode loginFields .empty body with
  | none =>
    constructor
    · rintro ⟨-, h⟩
      cases h
    · rintro ⟨input, h, -, -⟩
      cases hdecoded.symm.trans h.decoded
  | some input =>
    simp only [selecting_of_guard]
    cases hsolved : validateTurnstileToken turnstileSecret siteverify input.turnstileToken (clientIP r) with
    | error text =>
      constructor
      · rintro ⟨-, -, h⟩
        cases h
      · rintro ⟨input', h, -, -⟩
        cases hdecoded.symm.trans h.decoded
        cases hsolved.symm.trans h.solved
    | ok u =>
      simp only [AuthPc.selecting.injEq]
      constructor
      · rintro ⟨hmethod, hfilled, hemail, hpassword⟩
        obtain ⟨hblank, hempty⟩ := not_or.mp hfilled
        exact ⟨input, ⟨Classical.not_not.mp hmethod, hdecoded, hblank, hempty, hsolved⟩, hemail.symm, hpassword.symm⟩
      · rintro ⟨input', h, hemail, hpassword⟩
        cases hdecoded.symm.trans h.decoded
        exact ⟨fun hne => hne h.method, not_or.mpr ⟨h.email, h.password⟩, hemail.symm, hpassword.symm⟩

/-- Before the select nobody is signed in. -/
theorem authStart_finished {a : GoogleAnswer} (h : authStart turnstileSecret siteverify lower r body = .finished a) :
    a = .methodNotAllowed ∨ ∃ e, a = .failed e := by
  unfold authStart at h
  split at h
  · exact .inl (AuthPc.finished.inj h).symm
  · split at h
    · exact .inr ⟨_, (AuthPc.finished.inj h).symm⟩
    · split at h
      · exact .inr ⟨_, (AuthPc.finished.inj h).symm⟩
      · split at h
        · exact .inr ⟨_, (AuthPc.finished.inj h).symm⟩
        · exact absurd h AuthPc.noConfusion

/-- The row of an email, whose hash is that of the password. -/
structure Users.Opens {pgLower : String → String} (t : Users pgLower) (compare : String → String → Bool)
    (email password : String) (row : UserRow) : Prop where
  mem : row ∈ t.rows
  sameEmail : row.email = email
  text : isPgText email = true
  hash : compare row.passwordHash password = true

variable {mac : List UInt8 → List UInt8 → List UInt8} {secret : List UInt8} {ttl : Int}
  {compare : String → String → Bool} {pgLower : String → String} {t : Users pgLower} {now : Int}

theorem credentials_eq {email : String} {row : UserRow} (htext : isPgText email = true) (hrow : row ∈ t.rows)
    (hemail : row.email = email) : t.credentials email = .ok (some (row.id, row.passwordHash)) := by
  have hmem : row ∈ t.withEmail email := List.mem_filter.mpr ⟨hrow, by simp [hemail]⟩
  unfold Users.credentials
  rw [if_pos htext]
  rcases withEmail_cases t email with ⟨hnone, -⟩ | ⟨r, hone⟩
  · rw [hnone] at hmem
    cases hmem
  · rw [hone] at hmem
    cases List.mem_singleton.mp hmem
    rw [hone]
    rfl

theorem credentials_some {email hash : String} {id : Uuid} (h : t.credentials email = .ok (some (id, hash))) :
    ∃ row ∈ t.rows, row.email = email ∧ isPgText email = true ∧ row.id = id ∧ row.passwordHash = hash := by
  unfold Users.credentials at h
  split at h
  · next htext =>
    obtain ⟨row, hhead, hrow⟩ := Option.map_eq_some_iff.mp (Except.ok.inj h)
    cases hrow
    obtain ⟨hmem, hemail⟩ := List.mem_filter.mp (List.mem_of_head? hhead)
    exact ⟨row, hmem, of_decide_eq_true hemail, htext, rfl, rfl⟩
  · cases h

/-- **Signed in is exactly who names a row and its password.** -/
theorem authFinish_signedIn_iff {email password tok id answered : String} {expiresIn : Int} :
    authFinish mac secret ttl compare t now email password = .signedIn tok expiresIn id answered ↔
      ∃ row, t.Opens compare email password row ∧ tok = token mac secret ttl now row.id.text ∧
        expiresIn = ttl.tdiv second ∧ id = row.id.text ∧ answered = email := by
  constructor
  · intro h
    unfold authFinish at h
    split at h
    · next id' hash hcredentials =>
      obtain ⟨row, hmem, hemail, htext, rfl, rfl⟩ := credentials_some hcredentials
      split at h
      · next hhash =>
        simp only [GoogleAnswer.signedIn.injEq] at h
        obtain ⟨rfl, rfl, rfl, rfl⟩ := h
        exact ⟨row, ⟨hmem, hemail, htext, hhash⟩, rfl, rfl, rfl, rfl⟩
      · cases h
    · cases h
    · cases h
  · rintro ⟨row, h, rfl, rfl, rfl, rfl⟩
    unfold authFinish
    rw [credentials_eq h.text h.mem h.sameEmail]
    exact if_pos h.hash

/-- Whoever is not signed in is told the same, whether or not there is a row of the email. -/
theorem authFinish_refused {email password : String} (h : ∀ row, ¬ t.Opens compare email password row) :
    authFinish mac secret ttl compare t now email password = .failed incorrectCredentials := by
  unfold authFinish
  split
  · next id hash hcredentials =>
    obtain ⟨row, hmem, hemail, htext, rfl, rfl⟩ := credentials_some hcredentials
    exact if_neg fun hhash => h row ⟨hmem, hemail, htext, hhash⟩
  · rfl
  · rfl

/-- When a request is answered 200. -/
theorem auth_signedIn_iff {tok id email : String} {expiresIn : Int} :
    auth mac secret ttl compare turnstileSecret siteverify lower t now r body = .signedIn tok expiresIn id email ↔
      ∃ row input, Checked turnstileSecret siteverify r body input ∧
        t.Opens compare (normalEmail lower input.email) input.password row ∧
        tok = token mac secret ttl now row.id.text ∧ expiresIn = ttl.tdiv second ∧ id = row.id.text ∧
        email = row.email := by
  unfold auth
  constructor
  · intro h
    split at h
    · next email' password hstart =>
      obtain ⟨input, hchecked, rfl, rfl⟩ := authStart_selecting_iff.mp hstart
      obtain ⟨row, hopens, htok, hexpires, hid, hemail⟩ := authFinish_signedIn_iff.mp h
      exact ⟨row, input, hchecked, hopens, htok, hexpires, hid, hemail.trans hopens.sameEmail.symm⟩
    · next a hstart =>
      subst h
      rcases authStart_finished hstart with hanswer | ⟨e, hanswer⟩ <;> cases hanswer
  · rintro ⟨row, input, hchecked, hopens, htok, hexpires, hid, hemail⟩
    rw [authStart_selecting_iff.mpr ⟨input, hchecked, rfl, rfl⟩]
    exact authFinish_signedIn_iff.mpr ⟨row, hopens, htok, hexpires, hid, hemail.trans hopens.sameEmail⟩

/-! ## The login as a whole -/

/-- What a login is granted for: stated for itself. `verdict` is the endpoint, by the parameters
it reads. -/
structure Granted (turnstileSecret : String) (verdict : List (String × String) → Except String SiteverifyResponse)
    (lower : Char → Char) (t : Users pgLower) (compare : String → String → Bool) (r : HttpRequest)
    (body : List UInt8) (row : UserRow) (input : AuthInput) : Prop where
  method : r.method = "POST"
  decoded : decode loginFields .empty body = some input
  email : trimSpace input.email ≠ ""
  password : input.password ≠ ""
  configured : trimSpace turnstileSecret ≠ ""
  tokenGiven : trimSpace input.turnstileToken ≠ ""
  confirmed : Confirms (verdict (turnstileParameters (trimSpace turnstileSecret) input.turnstileToken (clientIP r)))
  opens : t.Opens compare (normalEmail lower input.email) input.password row

theorem granted_iff {verdict : List (String × String) → Except String SiteverifyResponse} {row : UserRow}
    {input : AuthInput} : Granted turnstileSecret verdict lower t compare r body row input ↔
      Checked turnstileSecret (fun raw => verdict (UrlQuery.parse raw)) r body input ∧
        t.Opens compare (normalEmail lower input.email) input.password row := by
  constructor
  · intro h
    refine ⟨⟨h.method, h.decoded, h.email, h.password, ?_⟩, h.opens⟩
    refine validateTurnstileToken_ok_iff.mpr ⟨h.configured, h.tokenGiven, ?_⟩
    rw [parse_turnstileForm]
    exact h.confirmed
  · rintro ⟨h, hopens⟩
    obtain ⟨hsecret, htoken, hconfirms⟩ := validateTurnstileToken_ok_iff.mp h.solved
    rw [parse_turnstileForm] at hconfirms
    exact ⟨h.method, h.decoded, h.email, h.password, hsecret, htoken, hconfirms, hopens⟩

/-- **A login is granted exactly when** all of this holds, and with the token of the row. -/
theorem login_granted_iff (mac : List UInt8 → List UInt8 → List UInt8) (secret : List UInt8) (ttl : Int)
    (compare : String → String → Bool) (turnstileSecret : String)
    (verdict : List (String × String) → Except String SiteverifyResponse) (lower : Char → Char)
    (t : Users pgLower) (now : Int) (r : HttpRequest) (body : List UInt8) (tok id email : String) (expiresIn : Int) :
    auth mac secret ttl compare turnstileSecret (fun raw => verdict (UrlQuery.parse raw)) lower t now r body =
        .signedIn tok expiresIn id email ↔
      ∃ row input, Granted turnstileSecret verdict lower t compare r body row input ∧
        tok = token mac secret ttl now row.id.text ∧ expiresIn = ttl.tdiv second ∧ id = row.id.text ∧
        email = row.email := by
  rw [auth_signedIn_iff]
  constructor
  · rintro ⟨row, input, hchecked, hopens, hanswer⟩
    exact ⟨row, input, granted_iff.mpr ⟨hchecked, hopens⟩, hanswer⟩
  · rintro ⟨row, input, hgranted, hanswer⟩
    obtain ⟨hchecked, hopens⟩ := granted_iff.mp hgranted
    exact ⟨row, input, hchecked, hopens, hanswer⟩

end

/-! ## A table -/

/-- A user whose hash is her password. -/
def ann : UserRow := ⟨.ofDigit 1, "ann@example.org", "horse"⟩

def annOnly : Users id where
  rows := [ann]
  idsKey := by decide
  emailsUnique := by decide
  checks := by decide +kernel

/-- An endpoint that confirms every token. -/
def allSolved (_ : List UInt8) : Except String SiteverifyResponse :=
  .ok ⟨200, Base64Url.utf8 "\x7b\"success\":true\x7d".toList, "EOF"⟩

end Synora
