import Synora.Assets
import Synora.Expiry
import Synora.Lib.Stringify
import Synora.Login

/- A login from the form of the page to the session of the tab (api.js, handlers.go).
   `login` posts what the form holds, `App.auth` reads the same email, password and
   Turnstile token, and `persistSession` keeps what it answers: the token, the user, and
   the time of the tab plus the seconds of the token. The hub takes the token until its own
   expiry, a whole second of the server's clock, so that the session never ends before the
   token, and outlives it by less than the way of the answer and a second
   (`login_session`, `session_outlives_token`).

   Correspondence (JavaScript and Go ↔ Lean):
     `login(email, password, turnstileToken)`   ↔ `loginBody`, `postLogin`, `Tab.login`
     `postAuth`                                 ↔ `postLogin`; `fail` is how its errors are thrown
     `writeJSON` in `App.auth`                  ↔ `signedInJson`, `GoogleAnswer.response`
   The times of the tab are in milliseconds, those of the server in nanoseconds. -/
namespace Synora

open Js

/-! ## Whole numbers in a text -/

theorem isSpace_of_isDigit {c : Char} (h : c.isDigit = true) : Js.isSpace c = false := by
  have hlist : ['\t', '\n', '\x0b', '\x0c', '\r', ' ', '\u00a0', '\u1680', '\u2028', '\u2029', '\u202f',
      '\u205f', '\u3000', '\ufeff'].all (fun s => !s.isDigit) = true := by decide
  have hlow : c.val ≤ 57 := (by simpa [Char.isDigit] using h : 48 ≤ c.val ∧ c.val ≤ 57).2
  unfold Js.isSpace
  rw [Bool.or_eq_false_iff]
  constructor
  · rw [decide_eq_false_iff_not]
    intro hmem
    have hnot := List.all_eq_true.mp hlist c hmem
    rw [h] at hnot
    cases hnot
  · rw [decide_eq_false_iff_not]
    rintro ⟨hge, -⟩
    have hge' : (0x2000 : UInt32) ≤ c.val := hge
    have := UInt32.le_trans hge' hlow
    revert this
    decide

/-- The text of a whole number is read as the number. -/
theorem ofText_ofInt {n : ℕ} (hpos : 0 < n) (h : n < 2 ^ 53) :
    Number.ofText (String.ofList (Json.NumLit.ofInt n).chars) = .finite n := by
  have hchars : (Json.NumLit.ofInt n).chars = Nat.toDigits 10 n := by
    show Json.intChars n = _
    rw [Json.intChars, if_neg (by omega), Int.natAbs_natCast]
  have hdigits : ∀ c ∈ Nat.toDigits 10 n, Js.isSpace c = false := fun c hc =>
    isSpace_of_isDigit (Json.digit_of_toDigits hc)
  have htrim : (((Nat.toDigits 10 n).dropWhile Js.isSpace).reverse.dropWhile Js.isSpace).reverse =
      Nat.toDigits 10 n := by
    have hkept : ∀ cs : List Char, (∀ c ∈ cs, Js.isSpace c = false) → cs.dropWhile Js.isSpace = cs := by
      intro cs hcs
      cases cs with
      | nil => rfl
      | cons c cs => exact List.dropWhile_cons_of_neg (by simp [hcs c List.mem_cons_self])
    rw [hkept _ hdigits, hkept _ fun c hc => hdigits c (List.mem_reverse.mp hc), List.reverse_reverse]
  have hdecimal : Js.decimal (Nat.toDigits 10 n) = some (n : ℚ) := by
    have hsplit : Json.splitPoint (Nat.toDigits 10 n) = (Nat.toDigits 10 n, [], []) := by
      simp only [Json.splitPoint, Json.takeWhile_toDigits, Json.dropWhile_toDigits]
    unfold Js.decimal
    rw [hsplit]
    simp [Json.afterExp, Json.exponent]
  have hsigned : Js.signed false (Nat.toDigits 10 n) = .finite n := by
    have hword : Nat.toDigits 10 n ≠ "Infinity".toList := by
      intro hword
      have hI : Char.isDigit 'I' = true := Json.digit_of_toDigits (n := n) (by rw [hword]; decide)
      revert hI
      decide
    unfold Js.signed
    rw [if_neg hword, hdecimal]
    exact double_intCast (n := n) (by rw [Nat.abs_cast]; exact_mod_cast h)
  obtain ⟨c, cs, hc, hzero⟩ := Json.toDigits_head n hpos
  have hdigit : c.isDigit = true := Json.digit_of_toDigits (n := n) (by rw [hc]; exact List.mem_cons_self)
  unfold Number.ofText
  rw [hchars, String.toList_ofList, htrim]
  rw [← hsigned, hc]
  split
  · next heq => cases heq
  · next heq =>
    rw [(List.cons.inj heq).1] at hdigit
    exact absurd hdigit (by decide)
  · next heq =>
    rw [(List.cons.inj heq).1] at hdigit
    exact absurd hdigit (by decide)
  · next heq => exact absurd (List.cons.inj heq).1 hzero
  · next heq => exact absurd (List.cons.inj heq).1 hzero
  · rfl

/-- No positive number is written as a zero. -/
theorem isZero_ofInt {n : ℤ} (hpos : 0 < n) : (Json.NumLit.ofInt n).isZero = false := by
  have hchars : (Json.NumLit.ofInt n).chars = Nat.toDigits 10 n.natAbs := if_neg (by omega)
  obtain ⟨c, cs, hc, hzero⟩ := Json.toDigits_head n.natAbs (by omega)
  have hdigit : c.isDigit = true := Json.digit_of_toDigits (n := n.natAbs) (by rw [hc]; exact List.mem_cons_self)
  have hmark : (c != 'e' && c != 'E') = true := by
    rw [Bool.and_eq_true, bne_iff_ne, bne_iff_ne]
    constructor
    · rintro rfl
      exact absurd hdigit (by decide)
    · rintro rfl
      exact absurd hdigit (by decide)
  have hkept : (c :: cs).takeWhile (fun c => c != 'e' && c != 'E') =
      c :: cs.takeWhile fun c => c != 'e' && c != 'E' := List.takeWhile_cons_of_pos hmark
  unfold Json.NumLit.isZero
  rw [hchars, hc, hkept, List.all_cons, hdigit]
  simp [hzero]

/-! ## The request -/

/-- The body `login` posts. -/
def loginBody (email password turnstileToken : String) : List UInt8 :=
  Base64Url.utf8 (Json.stringify
    [("email", email), ("password", password), ("cf_turnstile_response", turnstileToken)])

/-- **The handler reads what the form held.** -/
theorem decode_loginBody {email password turnstileToken : String}
    (hlen : (loginBody email password turnstileToken).length ≤ bodyLimit) :
    decode loginFields .empty (loginBody email password turnstileToken) =
      some ⟨email, password, turnstileToken⟩ := by
  refine (decode_eq_some_iff hlen).mpr ⟨Json.ofStrings
    [("email", email), ("password", password), ("cf_turnstile_response", turnstileToken)], [], ?_, ?_,
    fun w rest' hw => ?_⟩
  · rw [loginBody, Utf8.runes_utf8, Json.next_stringify]
  · simp [Json.ofStrings, StructFields.decodeStrict, StructFields.members, StructFields.setMemberStrict,
      StructFields.lookup, StructFields.visible, StructFields.JsonField.visibleIn, loginFields,
      StructFields.setField, StructFields.readString, AuthInput.empty]
  · cases hw

/-! ## The answer -/

/-- The map of the answer 200; the keys are written in order. -/
def signedInJson (token : String) (expiresIn : Int) (id email : String) : Json :=
  .obj [("expires_in", .num (.ofInt expiresIn)), ("token", .str token), ("token_type", .str "Bearer"),
    ("user", .obj [("email", .str email), ("id", .str id)])]

def GoogleAnswer.response : GoogleAnswer → Option FetchResponse
  | .methodNotAllowed => some ⟨405, [], none⟩
  | .failed a => a.refusal
  | .signedIn token expiresIn id email => some (writeJSON 200 (signedInJson token expiresIn id email))

/-- `postAuth`, for `login`. -/
def postLogin (fail : RequestError → ClientError) (response : Option FetchResponse) : Except ClientError Value :=
  match response with
  | none => .error (fail .unreachable)
  | some r =>
    match jsonResponse r "Authentication failed" with
    | .ok payload => .ok payload
    | .error e => .error (fail e)

/-- The user of a session. -/
def sessionUser (id email : String) : Value := .obj [("email", .str email), ("id", .str id)]

theorem postLogin_signedIn (fail : RequestError → ClientError) (token : String) (expiresIn : Int)
    (id email : String) :
    postLogin fail (GoogleAnswer.signedIn token expiresIn id email).response =
      .ok (.ofJson (signedInJson token expiresIn id email)) := by
  have hok : jsonResponse (writeJSON 200 (signedInJson token expiresIn id email)) "Authentication failed" =
      .ok (.ofJson (signedInJson token expiresIn id email)) := by
    unfold jsonResponse
    rw [if_pos ⟨Nat.le_refl 200, Nat.le_add_right 200 99⟩, payload_writeJSON]
  unfold postLogin GoogleAnswer.response
  simp only [hok]

/-! ## The session -/

/-- A tab that holds a session until `ends`: it returns the token, it knows the user, and a page
that is loaded again has the session exactly until then. -/
structure Browser.Keeps (b : Browser) (token id email : String) (ends : ℤ) : Prop where
  token : ∀ later, b.tab.getAuthToken later = (.str token, b.tab)
  user : b.tab.getSessionUser = some (sessionUser id email)
  load : ∀ later, Tab.load later b.tab.session = if later < ends then b.tab else .signedOut

theorem get_signedInJson (token : String) (expiresIn : Int) (id email : String) :
    (Value.ofJson (signedInJson token expiresIn id email)).get "token" = some (.str token) ∧
      (Value.ofJson (signedInJson token expiresIn id email)).get "user" = some (sessionUser id email) ∧
      (Value.ofJson (signedInJson token expiresIn id email)).get "expires_in" =
        some (.num (.ofText (String.ofList (Json.NumLit.ofInt expiresIn).chars))) :=
  ⟨rfl, rfl, rfl⟩

/-- **A login for some seconds is kept for as many**, from the time of the tab on. -/
theorem login_keeps {b : Browser} {token id : String} (email : String) {n : ℕ} (htoken : token ≠ "")
    (hid : id ≠ "") (hpos : 0 < n) (hnow : 0 ≤ b.now) (hbound : b.now + n * 1000 < 2 ^ 53) :
    (b.loggedIn (b.tab.login b.now (.ok (.ofJson (signedInJson token n id email))) .stores)).Keeps token id email
      (b.now + n * 1000) := by
  obtain ⟨hgetToken, hgetUser, hgetExpires⟩ := get_signedInJson token n id email
  have hpayload : payloadToken (.ofJson (signedInJson token n id email)) = some (.str token) := by
    have hgetId : (sessionUser id email).get "id" = some (.str id) := rfl
    simp [payloadToken, hgetToken, hgetUser, hgetId, Value.truthy, htoken, hid]
  have hexpires : expiresAt b.now (.ofJson (signedInJson token n id email)) =
      some (.finite ((b.now + (n : ℤ) * 1000 : ℤ) : ℚ)) := by
    rw [ofText_ofInt hpos (by omega)] at hgetExpires
    apply expiresAt_whole (n := n) hgetExpires (by omega)
    · rw [abs_of_nonneg (by omega)]
      omega
    · rw [abs_of_nonneg (by omega)]
      exact hbound
  have hsame : (Value.str token).reparsed.strictEq (.str token) = true := by
    simp [Value.reparsed, Value.strictEq]
  have hstored := loggedIn_stored hpayload hgetUser hexpires hsame
  obtain ⟨hstoredToken, hstoredUser, hstoredExpires⟩ := stored_get hgetUser (.str token)
    (.finite ((b.now + (n : ℤ) * 1000 : ℤ) : ℚ))
  rw [hstored]
  constructor
  · intro later
    exact getAuthToken_truthy (by simp [Value.truthy, htoken]) later
  · show StoredSession.user _ = _
    rw [StoredSession.user, hstoredUser]
    rfl
  · intro later
    have hexpired : expired later (sessionObject (.ofJson (signedInJson token n id email)) (.str token)
        (.finite ((b.now + (n : ℤ) * 1000 : ℤ) : ℚ))).reparsed = some (decide (b.now + n * 1000 ≤ later)) := by
      have hends : b.now + (n : ℤ) * 1000 ≠ 0 := by omega
      have htruthy : Number.truthy (.finite ((b.now + (n : ℤ) * 1000 : ℤ) : ℚ)) = true := by
        rw [Number.truthy, decide_eq_true_eq]
        exact_mod_cast hends
      have hle : Number.le (.finite ((b.now + (n : ℤ) * 1000 : ℤ) : ℚ)) (.finite later) =
          decide (b.now + (n : ℤ) * 1000 ≤ later) := by
        rw [Number.le]
        exact decide_eq_decide.mpr Int.cast_le
      rw [expired, hstoredExpires]
      simp only [Value.reparsed, Value.truthy, htruthy, if_true, Value.toNumber, Option.map_some, hle]
    unfold Tab.load Tab.restoreSession
    simp only [hstoredToken, hexpired, Value.reparsed]
    by_cases hlater : later < b.now + n * 1000
    · rw [if_pos hlater, decide_eq_false (by omega)]
      simp [Value.truthy, htoken]
    · rw [if_neg hlater, decide_eq_true (by omega)]

/-! ## The token -/

section
variable {mac : List UInt8 → List UInt8 → List UInt8} {secret : List UInt8}

/-- **The hub takes a token until its expiry**, for the user it names; an expiry of zero would be
none. -/
theorem authenticate_token_eq {ttl issued : Int} (hexpires : 0 < (issued + ttl) / second) (presented : Int)
    (uid : String) (valid : String → Bool) :
    authenticate mac secret (some valid) presented ⟨"AUTH", token mac secret ttl issued uid⟩ =
      (decide (presented < second * ((issued + ttl) / second)) && valid uid) := by
  by_cases h : presented < second * ((issued + ttl) / second)
  · rw [authenticate_token uid valid h, decide_eq_true h, Bool.true_and]
  · have hdecode := encode_tokenClaims ttl issued uid
    generalize hms : [("sub", Json.str uid), ("exp", .num (.ofInt ((issued + ttl) / second))),
      ("iat", .num (.ofInt (issued / second)))] = ms at hdecode
    have hmembers : mapVerifier.decode (StructFields.encode claimFields (tokenClaims ttl issued uid uid)) =
        some ms := by
      rw [hdecode]
      rfl
    have hexp : mapVerifier.expiresAt ms = some (some ((issued + ttl) / second)) := by
      subst hms
      simp [mapVerifier, mapDate, Jwt.lookup, isZero_ofInt hexpires]
    have hlate : Jwt.inTime mapVerifier presented ms = false := by
      unfold second at h hexp
      unfold Jwt.inTime
      rw [hexp]
      cases mapVerifier.notBefore ms <;> simp [h]
    rw [authenticate, if_neg (by simp [token_ne_empty]), decide_eq_false h, Bool.false_and]
    simp only [token]
    rw [Jwt.parse_sign mac mapVerifier secret presented hmembers, hlate]
    rfl

/-! ## From the form to the session -/

/-- What a login has come to: the browser holds the session, and the hub takes its token. -/
structure SignedIn (mac : List UInt8 → List UInt8 → List UInt8) (secret : List UInt8) (issued : Int) (n : ℕ)
    (email : String) (row : UserRow) (b b' : Browser) : Prop where
  now : b'.now = b.now
  keeps : b'.Keeps (token mac secret (n * second) issued row.id.text) row.id.text email (b.now + n * 1000)
  accepted : ∀ (valid : String → Bool) presented,
    authenticate mac secret (some valid) presented ⟨"AUTH", token mac secret (n * second) issued row.id.text⟩ =
      (decide (presented < second * ((issued + n * second) / second)) && valid row.id.text)
  /-- The session does not end before the token. -/
  notBefore : issued ≤ 1000000 * b.now → ∀ later : ℤ,
    1000000 * later < second * ((issued + n * second) / second) → Tab.load later b'.tab.session = b'.tab
  /-- What is left of the token when the session ends is less than the way of the answer and a second. -/
  notLong : ∀ later : ℤ, Tab.load later b'.tab.session = b'.tab →
    1000000 * later < second * ((issued + n * second) / second) + (1000000 * b.now - issued) + second

/-- **A login that is granted is a session**: what the form held is what is checked, and the tab keeps
the token of the row, for as long as the hub takes it. -/
theorem login_session {turnstileSecret : String} {siteverify : List UInt8 → Except String SiteverifyResponse}
    {lower : Char → Char} {pgLower : String → String} {t : Users pgLower} {compare : String → String → Bool}
    {r : HttpRequest} {email password turnstileToken : String} {row : UserRow} {n : ℕ} {issued : Int} {b : Browser}
    (fail : RequestError → ClientError) (hpos : 0 < n) (hissued : 0 ≤ issued) (hnow : 0 ≤ b.now)
    (hbound : b.now + n * 1000 < 2 ^ 53) (hlen : (loginBody email password turnstileToken).length ≤ bodyLimit)
    (hmethod : r.method = "POST") (hemail : trimSpace email ≠ "") (hpassword : password ≠ "")
    (hsolved : validateTurnstileToken turnstileSecret siteverify turnstileToken (clientIP r) = .ok ())
    (hopens : t.Opens compare (normalEmail lower email) password row) :
    ∃ b', browserStep b (.login (postLogin fail (auth mac secret (n * second) compare turnstileSecret siteverify
        lower t issued r (loginBody email password turnstileToken)).response) .stores) = some b' ∧
      SignedIn mac secret issued n (normalEmail lower email) row b b' := by
  have hchecked : Checked turnstileSecret siteverify r (loginBody email password turnstileToken)
      ⟨email, password, turnstileToken⟩ := ⟨hmethod, decode_loginBody hlen, hemail, hpassword, hsolved⟩
  have hseconds : (n : Int) = ((n : Int) * second).tdiv second := (Int.mul_tdiv_cancel _ (by decide)).symm
  have hanswer : auth mac secret (n * second) compare turnstileSecret siteverify lower t issued r
      (loginBody email password turnstileToken) = .signedIn (token mac secret (n * second) issued row.id.text) n
        row.id.text (normalEmail lower email) :=
    auth_signedIn_iff.mpr ⟨row, _, hchecked, hopens, rfl, hseconds, rfl, hopens.sameEmail.symm⟩
  have hkeeps := login_keeps (b := b) (normalEmail lower email)
    (token_ne_empty mac secret (n * second) issued row.id.text) row.id.text_ne_empty hpos hnow hbound
  have hexpiry : 0 < (issued + n * second) / second := by
    unfold second
    omega
  rw [hanswer, postLogin_signedIn]
  refine ⟨_, rfl, ?_, hkeeps, fun valid presented => authenticate_token_eq hexpiry presented _ valid, ?_, ?_⟩
  · rw [Browser.loggedIn.eq_def]
    split <;> rfl
  · intro hway later hlater
    rw [hkeeps.load, if_pos]
    unfold second at hlater
    omega
  · intro later hload
    rw [hkeeps.load] at hload
    have hlater : later < b.now + n * 1000 := by
      by_contra hends
      rw [if_neg hends] at hload
      have htoken := hkeeps.token later
      rw [← hload] at htoken
      exact token_ne_empty mac secret (n * second) issued row.id.text
        (Value.str.inj (congrArg Prod.fst htoken)).symm
    unfold second
    omega

end

/-- A login for an hour, answered a second after its token was issued. -/
theorem login_session_ann : ∃ b', browserStep (.start 1000) (.login (postLogin (fun _ => notStored)
      (auth sampleMac [] ((3600 : ℕ) * second) (fun hash password => decide (hash = password)) "key" allSolved
        Char.toLower annOnly 0 (login []) (loginBody "Ann@example.org" "horse" "solved")).response) .stores) = some b' ∧
    SignedIn sampleMac [] 0 3600 (normalEmail Char.toLower "Ann@example.org") ann (.start 1000) b' :=
  login_session (fun _ => notStored) (by decide) (by decide) (by decide) (by decide) (by decide +kernel) rfl
    (by decide +kernel) (by decide) (by decide +kernel)
    ⟨List.mem_singleton_self ann, by decide +kernel, by decide +kernel, by decide +kernel⟩

end Synora
