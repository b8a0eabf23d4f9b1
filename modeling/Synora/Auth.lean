import Synora.Create
import Synora.Lib.Jwt

/- Who a bearer is: `App.token` and `App.user` (handlers.go), and the second
   verifier, `Conn.authenticate` (hub.go). `claims` has two fields with the JSON
   name "sub": its own `UserID` and, one level deeper, the `Subject` of the
   embedded `jwt.RegisteredClaims`. encoding/json writes and reads the first.
   `App.user` returns the second, which is therefore empty for every token,
   while the hub reads "sub" from a map: the two agree on nobody but "".

   Correspondence (Go ↔ Lean):
     `jwt.RegisteredClaims`, `claims`          ↔ `RegisteredClaims`, `Claims`, `claimFields`
     `jwt.ParseWithClaims(…, &claims{}, …)`    ↔ `Jwt.parse` with `claimsVerifier`
     `jwt.Parse(…)`                            ↔ `Jwt.parse` with `mapVerifier`
   The key function of both allows HS256 only; the MAC is a parameter. -/
namespace Synora

open StructFields

/-! ## The claims -/

/-- `jwt.RegisteredClaims`; a time is its second. -/
structure RegisteredClaims where
  issuer : String
  subject : String
  audience : List String
  expiresAt : Option Int
  notBefore : Option Int
  issuedAt : Option Int
  id : String

structure Claims extends RegisteredClaims where
  userID : String

def Claims.empty : Claims := ⟨⟨"", "", [], none, none, none, ""⟩, ""⟩

/-- `NumericDate`: a number, or a text of one; null unsets it. -/
def readDate : Json → Option (Option (Option Int))
  | .null => some (some none)
  | .num n => some (some (some n.floor))
  | .str s => (Json.NumLit.ofText s).map fun n => some (some n.floor)
  | _ => none

/-- `ClaimStrings`: one string or a list of them. -/
def readStrings : Json → Option (Option (List String))
  | .null => some none
  | .str s => some (some [s])
  | .arr vs => (vs.mapM fun v => match v with | Json.str s => some s | _ => none).map some
  | _ => none

/-- A date that is present. -/
def dateJson : Option Int → Json
  | some t => .num (.ofInt t)
  | none => .null

/-- The fields of `claims`: its own, then those of the embedded struct. -/
def claimFields : List (JsonField Claims) := [
  { name := "sub", path := [0], tagged := true, omitted := fun _ => false
    get := fun c => .str c.userID, set := setField readString fun v c => { c with userID := v } },
  { name := "iss", path := [1, 0], tagged := true, omitted := fun c => c.issuer == ""
    get := fun c => .str c.issuer, set := setField readString fun v c => { c with issuer := v } },
  { name := "sub", path := [1, 1], tagged := true, omitted := fun c => c.subject == ""
    get := fun c => .str c.subject, set := setField readString fun v c => { c with subject := v } },
  { name := "aud", path := [1, 2], tagged := true, omitted := fun c => c.audience.isEmpty
    get := fun c => .arr (c.audience.map .str), set := setField readStrings fun v c => { c with audience := v } },
  { name := "exp", path := [1, 3], tagged := true, omitted := fun c => c.expiresAt.isNone
    get := fun c => dateJson c.expiresAt, set := setField readDate fun v c => { c with expiresAt := v } },
  { name := "nbf", path := [1, 4], tagged := true, omitted := fun c => c.notBefore.isNone
    get := fun c => dateJson c.notBefore, set := setField readDate fun v c => { c with notBefore := v } },
  { name := "iat", path := [1, 5], tagged := true, omitted := fun c => c.issuedAt.isNone
    get := fun c => dateJson c.issuedAt, set := setField readDate fun v c => { c with issuedAt := v } },
  { name := "jti", path := [1, 6], tagged := true, omitted := fun c => c.id == ""
    get := fun c => .str c.id, set := setField readString fun v c => { c with id := v } }]

/-- Of the two fields named "sub" the own one is visible. -/
theorem visible_claimFields : (visible claimFields).map JsonField.path =
    [[0], [1, 0], [1, 2], [1, 3], [1, 4], [1, 5], [1, 6]] := by
  decide +kernel

/-- **No text sets `Subject`.** -/
theorem decode_subject {c : Claims} {v : Json} (h : decode claimFields .empty v = some c) :
    c.subject = "" := by
  have hkeep : ∀ f ∈ visible claimFields, ∀ v c c', f.set v c = some c' → c'.subject = c.subject := by
    intro f hf v c c' hset
    have hpath : f.path ≠ [1, 1] := by
      intro h
      have hmem := List.mem_map_of_mem (f := JsonField.path) hf
      rw [visible_claimFields, h] at hmem
      revert hmem
      decide
    have hfield := List.mem_of_mem_filter hf
    simp only [claimFields, List.mem_cons, List.not_mem_nil, or_false] at hfield
    rcases hfield with rfl | rfl | rfl | rfl | rfl | rfl | rfl | rfl
    case inr.inr.inl => exact absurd rfl hpath
    all_goals
      dsimp only at hset
      refine setField_keeps (fun c : Claims => c.subject) hset ?_
      intro a c
      rfl
  exact decode_keeps (fun c : Claims => c.subject) hkeep h

/-! ## The two verifiers -/

def claimsVerifier : Jwt.Verifier Claims where
  decode := decode claimFields .empty
  expiresAt c := some c.expiresAt
  notBefore c := some c.notBefore

/-- `parseNumericDate`: a zero counts as absent, and what is no number is an error. -/
def mapDate (key : String) (ms : List (String × Json)) : Option (Option Int) :=
  match Jwt.lookup ms key with
  | none => some none
  | some (.num n) => some (if n.isZero = true then none else some n.floor)
  | some _ => none

def mapVerifier : Jwt.Verifier (List (String × Json)) where
  decode := members
  expiresAt := mapDate "exp"
  notBefore := mapDate "nbf"

section
variable (mac : List UInt8 → List UInt8 → List UInt8) (secret : List UInt8)

/-- The struct `token` fills, with the two user ids it is given. -/
def tokenClaims (ttl now : Int) (userID subject : String) : Claims :=
  { Claims.empty with
    userID := userID
    subject := subject
    issuedAt := some (now / second)
    expiresAt := some ((now + ttl) / second) }

/-- `App.token`. -/
def token (ttl now : Int) (uid : String) : String :=
  Jwt.sign mac secret (encode claimFields (tokenClaims ttl now uid uid))

/-- `App.user`, on the value of the Authorization header. -/
def user (now : Int) (authorization : String) : Option String :=
  match authorization.toList.dropPrefix? "Bearer ".toList with
  | none => none
  | some cs =>
    (Jwt.parse mac claimsVerifier secret now (trimSpace (String.ofList cs))).map fun c => c.subject

/-- How `App.bid` begins: the user, and the decoded body. -/
def bidRequest (now : Int) (authorization auctionID amount : String) : Except Answer BidRequest :=
  match user mac secret now authorization with
  | none => .error authRequired
  | some uid => .ok ⟨auctionID, amount, uid⟩

/-- The first frame of a socket. -/
structure AuthFrame where
  type : String
  token : String

/-- `Conn.authenticate` returns no error; `validate` is the `Validate` of the hub. -/
def authenticate (validate : Option (String → Bool)) (now : Int) (f : AuthFrame) : Bool :=
  if f.type ≠ "AUTH" ∨ f.token = "" then false
  else
    match Jwt.parse mac mapVerifier secret now f.token with
    | none => false
    | some claims =>
      match validate with
      | none => true
      | some valid =>
        match Jwt.lookup claims "sub" with
        | some (.str sub) => valid sub
        | _ => false

/-! ## What they make of a token -/

/-- **What the struct gets back of a token**: everything but the subject. -/
theorem decode_tokenClaims (ttl now : Int) (uid : String) :
    decode claimFields .empty (encode claimFields (tokenClaims ttl now uid uid)) =
      some (tokenClaims ttl now uid "") := by
  have hpaths : (claimFields.map JsonField.path).Nodup := by decide +kernel
  rw [decode_encode hpaths]
  simp [visible, JsonField.visibleIn, JsonField.dominates, claimFields, tokenClaims, Claims.empty,
    setField, readString, readDate, dateJson]

/-- The JSON of the claims of a token. -/
theorem encode_tokenClaims (ttl now : Int) (uid : String) :
    encode claimFields (tokenClaims ttl now uid uid) = .obj [("sub", .str uid),
      ("exp", .num (.ofInt ((now + ttl) / second))), ("iat", .num (.ofInt (now / second)))] := by
  simp [encode, visible, JsonField.visibleIn, JsonField.dominates, claimFields, tokenClaims, Claims.empty, dateJson]

theorem isSpace_sextetChar : ∀ d, isSpace (Base64Url.sextetChar d) = false := by
  decide +kernel

/-- Nothing but letters, digits, two signs and points: nothing to trim. -/
theorem trimSpace_token (ttl now : Int) (uid : String) :
    trimSpace (token mac secret ttl now uid) = token mac secret ttl now uid := by
  have hspace : ∀ c ∈ (token mac secret ttl now uid).toList, isSpace c = false := by
    intro c hc
    rcases Jwt.mem_sign mac hc with rfl | ⟨d, rfl⟩
    · decide
    · exact isSpace_sextetChar d
  have hdrop : ∀ cs : List Char, (∀ c ∈ cs, isSpace c = false) → cs.dropWhile isSpace = cs := by
    intro cs h
    cases cs with
    | nil => rfl
    | cons c cs => exact List.dropWhile_cons_of_neg (by simp [h c List.mem_cons_self])
  rw [trimSpace, hdrop _ hspace, hdrop _ (fun c hc => hspace c (List.mem_reverse.mp hc)),
    List.reverse_reverse, String.ofList_toList]

theorem token_ne_empty (ttl now : Int) (uid : String) : token mac secret ttl now uid ≠ "" := by
  intro h
  have hlen := congrArg (fun s => s.toList.length) h
  simp [token, Jwt.sign] at hlen

/-- `user` finds an empty subject, whatever it is shown. -/
theorem user_eq_empty {now : Int} {authorization uid : String}
    (h : user mac secret now authorization = some uid) : uid = "" := by
  unfold user at h
  split at h
  · cases h
  · obtain ⟨c, hc, rfl⟩ := Option.map_eq_some_iff.mp h
    unfold Jwt.parse at hc
    split at hc
    · split at hc
      · next claims _ _ hclaims _ =>
        split at hc
        · cases hc
          obtain ⟨v, -, hv⟩ := Option.bind_eq_some_iff.mp hclaims
          exact decode_subject hv
        · cases hc
      · cases hc
    · cases hc

end

section
variable {mac : List UInt8 → List UInt8 → List UInt8} {secret : List UInt8} {ttl issued presented : Int}

/-- Before its expiry `user` accepts a token, and returns the empty subject. -/
theorem user_token (uid : String) (h : presented < second * ((issued + ttl) / second)) :
    user mac secret presented ("Bearer " ++ token mac secret ttl issued uid) = some "" := by
  have hprefix : ("Bearer " ++ token mac secret ttl issued uid).toList.dropPrefix? "Bearer ".toList =
      some (token mac secret ttl issued uid).toList := by
    rw [String.toList_append, List.dropPrefix?_eq_some_iff]
    exact ⟨_, rfl, beq_self_eq_true _⟩
  have hdecode : claimsVerifier.decode (encode claimFields (tokenClaims ttl issued uid uid)) =
      some (tokenClaims ttl issued uid "") := decode_tokenClaims ttl issued uid
  have htime : Jwt.inTime claimsVerifier presented (tokenClaims ttl issued uid "") = true := by
    unfold second at h
    simp [Jwt.inTime, claimsVerifier, tokenClaims, Claims.empty, second, h]
  rw [user, hprefix]
  simp only [String.ofList_toList, trimSpace_token]
  rw [token, Jwt.parse_sign mac claimsVerifier secret presented hdecode, if_pos htime]
  rfl

/-- Before its expiry the hub asks whether the user of a token is valid. -/
theorem authenticate_token (uid : String) (valid : String → Bool)
    (h : presented < second * ((issued + ttl) / second)) :
    authenticate mac secret (some valid) presented ⟨"AUTH", token mac secret ttl issued uid⟩ = valid uid := by
  have hdecode := encode_tokenClaims ttl issued uid
  generalize hms : [("sub", Json.str uid), ("exp", .num (.ofInt ((issued + ttl) / second))),
    ("iat", .num (.ofInt (issued / second)))] = ms at hdecode
  have hmembers : mapVerifier.decode (encode claimFields (tokenClaims ttl issued uid uid)) = some ms := by
    rw [hdecode]
    rfl
  have hsub : Jwt.lookup ms "sub" = some (.str uid) := by
    subst hms
    simp [Jwt.lookup]
  have htime : Jwt.inTime mapVerifier presented ms = true := by
    have hexp : Jwt.lookup ms "exp" = some (.num (.ofInt ((issued + ttl) / second))) := by
      subst hms
      simp [Jwt.lookup]
    have hnbf : Jwt.lookup ms "nbf" = none := by
      subst hms
      simp [Jwt.lookup]
    unfold second at h
    simp only [Jwt.inTime, mapVerifier, mapDate, hexp, hnbf, Json.NumLit.floor_ofInt]
    split <;> simp [second, h]
  rw [authenticate, if_neg (by simp [token_ne_empty])]
  simp only [token]
  rw [Jwt.parse_sign mac mapVerifier secret presented hmembers, if_pos htime]
  simp only [hsub]

/-- **The bearer is one**: both verifiers name the user a token was issued for, and a bid leads
under this name. -/
structure SameBearer (mac : List UInt8 → List UInt8 → List UInt8) (secret : List UInt8)
    (ttl issued presented : Int) (uid : String) : Prop where
  rest : user mac secret presented ("Bearer " ++ token mac secret ttl issued uid) = some uid
  socket : ∀ valid : String → Bool,
    authenticate mac secret (some valid) presented ⟨"AUTH", token mac secret ttl issued uid⟩ = valid uid
  leader : ∀ auctionID amount row placed, ∃ req payload expiry,
    bidRequest mac secret presented ("Bearer " ++ token mac secret ttl issued uid) auctionID amount = .ok req ∧
      evalCmd req row placed = .evalBid auctionID amount uid payload expiry

/-- **The identity round trip holds for the empty user id only**: for every MAC, every secret,
every TTL and every user id, before the token expires. -/
theorem identity_round_trip_iff {uid : String} (h : presented < second * ((issued + ttl) / second)) :
    SameBearer mac secret ttl issued presented uid ↔ uid = "" := by
  have huser : user mac secret presented ("Bearer " ++ token mac secret ttl issued uid) = some "" :=
    user_token uid h
  constructor
  · intro hsame
    have hrest := hsame.rest
    rw [huser] at hrest
    exact (Option.some.inj hrest).symm
  · intro hempty
    subst hempty
    refine ⟨huser, fun valid => authenticate_token "" valid h, fun auctionID amount row placed => ?_⟩
    refine ⟨⟨auctionID, amount, ""⟩, _, _, ?_, rfl⟩
    rw [bidRequest, huser]

end

/-! ## A token -/

/-- HMAC-SHA256 of the token below under the key "secret". -/
def sampleMac (_ _ : List UInt8) : List UInt8 :=
  [186, 195, 26, 42, 148, 128, 106, 175, 204, 79, 79, 9, 72, 43, 72, 17,
    0, 178, 3, 107, 27, 154, 142, 43, 16, 122, 136, 15, 246, 255, 58, 117]

def sampleToken : String :=
  token sampleMac (Base64Url.utf8 "secret".toList) (3600 * second) 0 (Uuid.ofDigit 1).text

example : sampleToken = "eyJhbGciOiJIUzI1NiIsInR5cCI6IkpXVCJ9.eyJzdWIiOiIxMTExMTExMS0xMTExLTExM" ++
    "TEtMTExMS0xMTExMTExMTExMTEiLCJleHAiOjM2MDAsImlhdCI6MH0" ++
    ".usMaKpSAaq_MT08JSCtIEQCyA2sbmo4rEHqID_b_OnU" := by decide +kernel

/-- The law fails for every user: `user` answers with the empty id. -/
theorem identity_round_trip_fails :
    ¬ ∀ (mac : List UInt8 → List UInt8 → List UInt8) (secret : List UInt8) (ttl issued presented : Int)
      (uid : String), 0 < ttl → presented < second * ((issued + ttl) / second) →
      SameBearer mac secret ttl issued presented uid := by
  intro h
  have hsame := h sampleMac (Base64Url.utf8 "secret".toList) (3600 * second) 0 0 (Uuid.ofDigit 1).text
    (by decide) (by decide)
  exact Uuid.text_ne_empty _ (user_eq_empty _ _ hsame.rest)

theorem identity_round_trip_iff_sample :
    ¬ SameBearer sampleMac (Base64Url.utf8 "secret".toList) (3600 * second) 0 0 (Uuid.ofDigit 1).text :=
  fun hsame => Uuid.text_ne_empty _ ((identity_round_trip_iff (by decide)).mp hsame)

end Synora
