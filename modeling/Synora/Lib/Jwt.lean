import Synora.Lib.Base64Url
import Synora.Lib.JsonNumber
import Synora.Lib.StructFields

/- JSON Web Tokens signed with HS256, as golang-jwt writes and reads them: header
   and claims as JSON, both and the signature in base64, joined by points. The
   MAC is a parameter. A verifier says how it decodes the claims and which times
   they carry, in seconds. A signed token passes every verifier that can decode
   its claims, while its times allow it (`parse_sign`). -/
namespace Jwt

open Base64Url

/-- `EncodeSegment` of a JSON text. -/
def segment (v : Json) : List Char := (Base64Url.encode (utf8 v.encode)).toList

def header : Json := .obj [("alg", .str "HS256"), ("typ", .str "JWT")]

/-- What is signed. -/
def signingString (claims : Json) : List Char := segment header ++ '.' :: segment claims

section
variable (mac : List UInt8 → List UInt8 → List UInt8) {σ : Type}

/-- `SignedString`. -/
def sign (secret : List UInt8) (claims : Json) : String :=
  String.ofList (signingString claims ++
    '.' :: (Base64Url.encode (mac secret (utf8 (signingString claims)))).toList)

/-- How the claims are decoded, and their `exp` and `nbf`: an error, absent or a time. -/
structure Verifier (σ : Type) where
  decode : Json → Option σ
  expiresAt : σ → Option (Option Int)
  notBefore : σ → Option (Option Int)

/-- The JSON value of a segment. -/
def readSegment (cs : List Char) : Option Json :=
  (Base64Url.decode (String.ofList cs)).bind fun bs => Json.parse (fromUtf8 bs)

/-- The value of a key of a map: that of its last member of the name. -/
def lookup (ms : List (String × Json)) (key : String) : Option Json :=
  (ms.reverse.find? fun m => m.1 == key).map Prod.snd

/-- `t.Method == jwt.SigningMethodHS256`. -/
def isHS256 (header : List (String × Json)) : Bool :=
  match lookup header "alg" with
  | some (.str "HS256") => true
  | _ => false

/-- `Validate`: the times the claims carry, against the clock in nanoseconds. -/
def inTime (v : Verifier σ) (now : Int) (claims : σ) : Bool :=
  match v.expiresAt claims, v.notBefore claims with
  | some exp, some nbf =>
    exp.all (fun e => decide (now < 1000000000 * e)) && nbf.all (fun e => decide (1000000000 * e ≤ now))
  | _, _ => false

/-- `ParseWithClaims` with the secret as key of HS256 only: the claims of a valid token. -/
def parse (v : Verifier σ) (secret : List UInt8) (now : Int) (token : String) : Option σ :=
  match token.toList.splitOn '.' with
  | [h, c, s] =>
    match (readSegment h).bind StructFields.members, (readSegment c).bind v.decode,
      Base64Url.decode (String.ofList s) with
    | some header, some claims, some signature =>
      if isHS256 header = true ∧ signature = mac secret (utf8 (h ++ '.' :: c)) ∧
        inTime v now claims = true then some claims else none
    | _, _, _ => none
  | _ => none

/-! ## What is accepted is signed -/

theorem isHS256_iff {header : List (String × Json)} :
    isHS256 header = true ↔ lookup header "alg" = some (.str "HS256") := by
  unfold isHS256
  split
  · next h => simp [h]
  · next h => simpa using h

/-- **A token that is accepted** is signed with HS256 under the secret, and in time. -/
theorem parse_eq_some {mac : List UInt8 → List UInt8 → List UInt8} {σ : Type} {v : Verifier σ}
    {secret : List UInt8} {now : Int} {token : String} {decoded : σ}
    (hparse : parse mac v secret now token = some decoded) :
    ∃ h c s header, token.toList.splitOn '.' = [h, c, s] ∧
      (readSegment h).bind StructFields.members = some header ∧
      lookup header "alg" = some (.str "HS256") ∧ (readSegment c).bind v.decode = some decoded ∧
      Base64Url.decode (String.ofList s) = some (mac secret (utf8 (h ++ '.' :: c))) ∧
      inTime v now decoded = true := by
  unfold parse at hparse
  split at hparse
  · next h c s hsplit =>
    split at hparse
    · next header claims signature hheader hclaims hsig =>
      split at hparse
      · next hall =>
        cases hparse
        obtain ⟨halg, rfl, htime⟩ := hall
        exact ⟨h, c, s, header, hsplit, hheader, isHS256_iff.mp halg, hclaims, hsig, htime⟩
      · cases hparse
    · cases hparse
  · cases hparse

/-- The expiry it carries, if any, is ahead. -/
theorem inTime_expiry {σ : Type} {v : Verifier σ} {now : Int} {claims : σ} (h : inTime v now claims = true) :
    ∃ expiry, v.expiresAt claims = some expiry ∧ ∀ t ∈ expiry, now < 1000000000 * t := by
  unfold inTime at h
  split at h
  · next expiry nbf hexp hnbf =>
    rw [Bool.and_eq_true] at h
    refine ⟨expiry, hexp, fun t ht => ?_⟩
    have hall := h.1
    rw [Option.all_eq_true] at hall
    exact of_decide_eq_true (hall t ht)
  · cases h

/-! ## What is signed is accepted -/

theorem readSegment_segment (v : Json) : readSegment (segment v) = some v := by
  rw [readSegment, segment, String.ofList_toList, decode_encode, Option.bind_some, fromUtf8_utf8,
    Json.parse_encode]

theorem point_not_mem_encode (bs : List UInt8) : '.' ∉ (Base64Url.encode bs).toList := by
  intro h
  obtain ⟨d, hd⟩ := mem_encode h
  exact (sextetChar_ne d).2.2.1 hd.symm

theorem point_not_mem_segment (v : Json) : '.' ∉ segment v := point_not_mem_encode _

/-- A signed token falls into its three parts. -/
theorem splitOn_sign (secret : List UInt8) (claims : Json) :
    (sign mac secret claims).toList.splitOn '.' = [segment header, segment claims,
      (Base64Url.encode (mac secret (utf8 (signingString claims)))).toList] := by
  rw [sign, String.toList_ofList]
  generalize hs : (Base64Url.encode (mac secret (utf8 (signingString claims)))).toList = signature
  have hsig : '.' ∉ signature := hs ▸ point_not_mem_encode _
  rw [signingString, List.append_assoc, List.cons_append,
    List.splitOn_append_cons_self_of_not_mem (point_not_mem_segment header),
    List.splitOn_append_cons_self_of_not_mem (point_not_mem_segment claims),
    List.splitOn_eq_singleton hsig]

/-- Only characters of the alphabet and points are written. -/
theorem mem_sign {secret : List UInt8} {claims : Json} {c : Char}
    (h : c ∈ (sign mac secret claims).toList) : c = '.' ∨ ∃ d, c = sextetChar d := by
  rw [sign, String.toList_ofList, signingString] at h
  simp only [List.mem_append, List.mem_cons] at h
  rcases h with (h | h | h) | h | h
  · exact .inr (mem_encode h)
  · exact .inl h
  · exact .inr (mem_encode h)
  · exact .inl h
  · exact .inr (mem_encode h)

/-- **A signed token is accepted**, by whoever can decode its claims, while it is in time. -/
theorem parse_sign (v : Verifier σ) (secret : List UInt8) (now : Int) {claims : Json} {decoded : σ}
    (hdecode : v.decode claims = some decoded) :
    parse mac v secret now (sign mac secret claims) =
      if inTime v now decoded = true then some decoded else none := by
  have hheader : isHS256 [("alg", .str "HS256"), ("typ", .str "JWT")] = true := rfl
  rw [parse, splitOn_sign]
  simp only [readSegment_segment, Option.bind_some, String.ofList_toList, decode_encode, hdecode]
  simp [header, StructFields.members, hheader, signingString]

end

end Jwt
