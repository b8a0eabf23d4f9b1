import Synora.Lib.GoDuration
import Synora.LoginSession
import Synora.Routes

/- The lifetime of a token under the environment (config.go, main.go, handlers.go).
   `config.Load` takes any positive JWT_TTL, and keeps its whole seconds. A login can be
   used exactly when the duration is not below a second (`login_usable_iff`): below it the
   token is issued as it expires. Of a duration written in whole seconds nothing is lost
   (`login_lives_as_written`).

   Correspondence (Go ↔ Lean):
     `ttl` of `config.Load`                   ↔ `jwtDuration`
     `JWTTTL: int(ttl.Seconds())`             ↔ `jwtTTL`
     `time.Duration(cfg.JWTTTL)*time.Second`  ↔ `appTTL` -/
namespace Synora

def jwtDuration (getenv : String → String) : Int :=
  match GoDuration.parseDuration (env getenv "JWT_TTL" "1h") with
  | some ttl => if ttl ≤ 0 then hour else ttl
  | none => hour

def jwtTTL (getenv : String → String) : Int := GoDuration.seconds (jwtDuration getenv)

def appTTL (getenv : String → String) : Int := jwtTTL getenv * second

/-- JWT_TTL is a duration, but not of a second. -/
def TooShort (getenv : String → String) : Prop :=
  ∃ ttl, GoDuration.parseDuration (env getenv "JWT_TTL" "1h") = some ttl ∧ 0 < ttl ∧ ttl < second

theorem jwtDuration_pos (getenv : String → String) : 0 < jwtDuration getenv := by
  unfold jwtDuration
  split
  · split
    · decide
    · omega
  · decide

theorem jwtDuration_lt (getenv : String → String) : jwtDuration getenv < 2^63 := by
  unfold jwtDuration
  split
  · next ttl httl =>
    split
    · decide
    · exact GoDuration.parseDuration_lt httl
  · decide

theorem tooShort_iff {getenv : String → String} : TooShort getenv ↔ jwtDuration getenv < second := by
  have hhour : ¬ hour < second := by decide
  unfold TooShort jwtDuration
  split
  · next ttl httl =>
    simp only [httl, Option.some.injEq, exists_eq_left']
    split
    · next hle => exact iff_of_false (fun h => absurd h.1 (by omega)) hhour
    · next hpos => exact and_iff_right (by omega)
  · next hnone =>
    apply iff_of_false _ hhour
    rintro ⟨ttl, httl, -⟩
    rw [hnone] at httl
    cases httl

/-- The seconds of a token are none, or one at least. -/
theorem jwtTTL_cases (getenv : String → String) :
    (TooShort getenv ∧ jwtTTL getenv = 0) ∨ (¬ TooShort getenv ∧ 1 ≤ jwtTTL getenv) := by
  by_cases h : TooShort getenv
  · exact .inl ⟨h, GoDuration.seconds_eq_zero (jwtDuration_pos getenv).le (tooShort_iff.mp h)⟩
  · have hlong : second ≤ jwtDuration getenv := not_lt.mp (mt tooShort_iff.mpr h)
    exact .inr ⟨h, GoDuration.one_le_seconds hlong (jwtDuration_lt getenv)⟩

section
variable {mac : List UInt8 → List UInt8 → List UInt8} {secret : List UInt8} {compare : String → String → Bool}
  {turnstileSecret : String} {siteverify : List UInt8 → Except String SiteverifyResponse} {lower : Char → Char}
  {pgLower : String → String} {t : Users pgLower} {getenv : String → String} {now : Int} {r : HttpRequest}
  {body : List UInt8} {tok id email : String} {expiresIn : Int}

/-- The seconds of a login are told as they are, and the hub takes its token for them. -/
theorem login_lifetime (hexpiry : 0 < now / second + jwtTTL getenv)
    (hlogin : auth mac secret (appTTL getenv) compare turnstileSecret siteverify lower t now r body =
      .signedIn tok expiresIn id email) :
    expiresIn = jwtTTL getenv ∧ ∀ valid presented,
      authenticate mac secret (some valid) presented ⟨"AUTH", tok⟩ =
        (decide (presented < second * (now / second + jwtTTL getenv)) && valid id) := by
  obtain ⟨row, input, -, -, rfl, rfl, rfl, -⟩ := auth_signedIn_iff.mp hlogin
  have hseconds : (now + appTTL getenv) / second = now / second + jwtTTL getenv :=
    Int.add_mul_ediv_right _ _ (by decide)
  refine ⟨Int.mul_tdiv_cancel _ (by decide), fun valid presented => ?_⟩
  rw [authenticate_token_eq (by rw [hseconds]; exact hexpiry), hseconds]

/-- **A duration written in whole seconds is the lifetime of a login.** -/
theorem login_lives_as_written {segs : List (Nat × GoDuration.TimeUnit)} {n : Nat}
    (hwritten : getenv "JWT_TTL" = String.ofList (GoDuration.textOf segs))
    (htotal : GoDuration.total segs = n * 1000000000) (hpos : 0 < n) (hfits : GoDuration.total segs < 2^63)
    (hnow : 0 ≤ now)
    (hlogin : auth mac secret (appTTL getenv) compare turnstileSecret siteverify lower t now r body =
      .signedIn tok expiresIn id email) :
    expiresIn = n ∧ ∀ valid presented,
      authenticate mac secret (some valid) presented ⟨"AUTH", tok⟩ =
        (decide (presented < second * (now / second + n)) && valid id) := by
  have hne : segs ≠ [] := by
    rintro rfl
    have : n * 1000000000 = 0 := htotal.symm
    omega
  have hread := GoDuration.parseDuration_text hne hfits
  have hset : env getenv "JWT_TTL" "1h" = String.ofList (GoDuration.textOf segs) := by
    rw [env, if_pos, hwritten]
    intro hempty
    rw [← hwritten, hempty] at hread
    cases hread
  have hduration : jwtDuration getenv = (n * 1000000000 : Nat) := by
    rw [jwtDuration, hset, hread, htotal]
    exact if_neg (by omega)
  have hseconds : jwtTTL getenv = n := by
    rw [jwtTTL, hduration]
    exact GoDuration.seconds_whole (by omega)
  have hclock : 0 ≤ now / second := Int.ediv_nonneg hnow (by decide)
  have hlife := login_lifetime (by omega) hlogin
  rw [hseconds] at hlife
  exact hlife

end

/-- The environment with one variable set. -/
def jwtTTLSet (text : String) (k : String) : String := if k = "JWT_TTL" then text else ""

/-- Ann's login under a JWT_TTL. -/
def annSignsIn (text : String) (now : Int) : GoogleAnswer :=
  auth sampleMac [] (appTTL (jwtTTLSet text)) (fun hash password => decide (hash = password)) "key" allSolved
    Char.toLower annOnly now (login []) (loginBody "Ann@example.org" "horse" "solved")

theorem annSignsIn_eq (text : String) (now : Int) : annSignsIn text now =
    .signedIn (token sampleMac [] (appTTL (jwtTTLSet text)) now ann.id.text)
      ((appTTL (jwtTTLSet text)).tdiv second) ann.id.text "ann@example.org" := by
  have hchecked : Checked "key" allSolved (login []) (loginBody "Ann@example.org" "horse" "solved")
      ⟨"Ann@example.org", "horse", "solved"⟩ :=
    ⟨rfl, decode_loginBody (by decide +kernel), by decide +kernel, by decide, by decide +kernel⟩
  have hopens : annOnly.Opens (fun hash password => decide (hash = password))
      (normalEmail Char.toLower "Ann@example.org") "horse" ann :=
    ⟨List.mem_singleton_self ann, by decide +kernel, by decide +kernel, by decide +kernel⟩
  exact auth_signedIn_iff.mpr ⟨ann, _, hchecked, hopens, rfl, rfl, rfl, rfl⟩

/-- An hour and a half. -/
theorem login_lives_as_written_1h30m :
    (appTTL (jwtTTLSet "1h30m")).tdiv second = (5400 : ℕ) ∧ ∀ valid presented,
      authenticate sampleMac [] (some valid) presented
          ⟨"AUTH", token sampleMac [] (appTTL (jwtTTLSet "1h30m")) 0 ann.id.text⟩ =
        (decide (presented < second * (0 / second + (5400 : ℕ))) && valid ann.id.text) :=
  have hwritten : jwtTTLSet "1h30m" "JWT_TTL" =
      String.ofList (GoDuration.textOf [(1, .hour), (30, .minute)]) := by decide +kernel
  login_lives_as_written hwritten (by decide +kernel) (by decide) (by decide +kernel) (by decide)
    (annSignsIn_eq "1h30m" 0)

end Synora
