import Synora.Lib.UrlPath
import Synora.Listing
import Synora.Login

/- The way of a request to its handler (main.go, handlers.go, config.go): the multiplexer
   of `main`, the middleware and the multiplexer of `App.Routes`. The middleware chooses
   the limiter by the path as a whole, the multiplexer the handler by its segments; no
   spelling of a path tells them apart, so that whatever comes to a sign-in has been
   counted (`serve_signIn`). In a minute the passwords compared for one key are at most
   `2 * max - 1`, for the limit of any environment, and each of them after Turnstile has
   confirmed the token that came with it (`password_checks_limited`).

   Correspondence (Go ↔ Lean):
     `config.Load`, `env`, `firstEnv`          ↔ `load`, `env`, `firstEnv`; `log.Fatal` is none
     the limiters of `App` in `main`           ↔ `Config.limiters`
     `mux.Handle("/ws",hub)`, `"/"`            ↔ `mainMux`
     `m.HandleFunc(…)` in `App.Routes`         ↔ `routes`
     `App.Routes`, `srv.Handler`               ↔ `appRoutes`, `serve`
   A request arrives with the raw path of its target. JWT_TTL and the addresses of the
   other services are not read here. -/
namespace Synora

open UrlPath

/-! ## The configuration -/

def env (getenv : String → String) (k fallback : String) : String :=
  if getenv k ≠ "" then getenv k else fallback

def firstEnv (getenv : String → String) (keys : List String) : String :=
  ((keys.map fun key => trimSpace (getenv key)).find? fun v => decide (v ≠ "")).getD ""

structure Config where
  httpAddr : String
  jwtSecret : String
  googleClientID : String
  turnstileSecret : String
  rateLimitPerMinute : Int
  authRateLimitPerMinute : Int
  deriving DecidableEq

def load (getenv : String → String) : Option Config :=
  let rate := atoi (env getenv "RATE_LIMIT_PER_MINUTE" "120")
  let authRate := atoi (env getenv "AUTH_RATE_LIMIT_PER_MINUTE" "5")
  let jwtSecret := trimSpace (env getenv "JWT_SECRET" "")
  if jwtSecret = "" then none
  else some {
    httpAddr := env getenv "HTTP_ADDR" ":8080"
    jwtSecret := jwtSecret
    googleClientID := trimSpace (firstEnv getenv ["GOOGLE_CLIENT_ID", "GOOGLE_OAUTH_CLIENT_ID"])
    turnstileSecret := trimSpace (firstEnv getenv ["TURNSTILE_SECRET_KEY", "TURNSTILE_SECRET"])
    rateLimitPerMinute := if rate < 1 then 120 else rate
    authRateLimitPerMinute := if authRate < 1 then 5 else authRate }

def Config.limiters (c : Config) : Limiters :=
  ⟨some (newLimiter c.rateLimitPerMinute), some (newLimiter c.authRateLimitPerMinute)⟩

/-! ## The handlers -/

inductive Site where
  | hub
  | app
  deriving DecidableEq

inductive Route where
  | health
  | auth
  | googleAuth
  | auctions
  | auction
  | bid
  deriving DecidableEq

def mainMux : List (Pattern Site) := [parsePattern "/ws" .hub, parsePattern "/" .app]

def routes : List (Pattern Route) := [
  parsePattern "/api/v1/health" .health,
  parsePattern "/api/v1/auth" .auth,
  parsePattern "/api/v1/auth/login" .auth,
  parsePattern "/api/v1/auth/google" .googleAuth,
  parsePattern "/api/v1/auctions" .auctions,
  parsePattern "/api/v1/auctions/" .auction,
  parsePattern "/api/v1/bids" .bid]

/-- A request as it arrives. -/
structure WireRequest where
  method : String
  rawPath : List UInt8
  header : List (String × String)
  remoteAddr : String
  body : List UInt8

/-- The request the handlers see, of the path unescaped. -/
def WireRequest.http (w : WireRequest) (path : List UInt8) : HttpRequest :=
  ⟨w.method, UrlQuery.text path, w.header, w.remoteAddr⟩

inductive Served where
  | hub
  /-- By the middleware. -/
  | answered (h : Handled)
  | route (d : Dispatch Route)
  deriving DecidableEq

def appRoutes (a : Limiters) (now : Int) (r : HttpRequest) (escaped : List UInt8) : Limiters × Served :=
  match withMiddleware a now r with
  | (a, .next) => (a, .route (serveMux routes r.method escaped))
  | (a, h) => (a, .answered h)

/-- A request to the server; one whose path cannot be unescaped is a bad request. -/
def serve (a : Limiters) (now : Int) (w : WireRequest) : Limiters × Served :=
  match unescape w.rawPath with
  | none => (a, .route .badRequest)
  | some path =>
    let escaped := escapedPath w.rawPath path
    match serveMux mainMux w.method escaped with
    | .handled .hub => (a, .hub)
    | .handled .app => appRoutes a now (w.http path) escaped
    | .badRequest => (a, .route .badRequest)
    | .redirect => (a, .route .redirect)
    | .notFound => (a, .route .notFound)

def Route.isSignIn : Route → Bool
  | .auth | .googleAuth => true
  | _ => false

/-- The request has come to one of the handlers that sign in. -/
def Served.isSignIn : Served → Bool
  | .route (.handled r) => r.isSignIn
  | _ => false

/-! ## The middleware and the multiplexer see one path -/

theorem routes_signIn : ∀ p ∈ routes, p.handler.isSignIn = true → p.subtree = false ∧
    (∀ s ∈ p.segments, s ≠ [0x2F]) ∧ "/api/v1/auth".toList.isPrefixOf
      (UrlQuery.text (p.segments.flatMap fun s => 0x2F :: s)).toList = true := by
  decide +kernel

/-- **What comes to a sign-in has a path the middleware counts as one.** -/
theorem signIn_path {method : String} {raw path : List UInt8} {route : Route} (hmethod : method ≠ "CONNECT")
    (hpath : unescape raw = some path)
    (h : serveMux routes method (escapedPath raw path) = .handled route) (hroute : route.isSignIn = true) :
    "/api/v1/auth".toList.isPrefixOf (UrlQuery.text path).toList = true := by
  obtain ⟨hrooted, p, hp, hmatches, rfl⟩ := serveMux_handled hmethod h
  obtain ⟨hliteral, hsegments, hprefix⟩ := routes_signIn p hp hroute
  rw [unescape_of_literal hliteral hsegments hrooted (unescape_escapedPath hpath) hmatches]
  exact hprefix

/-- A request as the middleware gets it, unless it goes elsewhere. -/
def arrival (now : Int) (w : WireRequest) : Option Arrival :=
  (unescape w.rawPath).bind fun path =>
    match serveMux mainMux w.method (escapedPath w.rawPath path) with
    | .handled .app => some ⟨now, w.http path⟩
    | _ => none

/-- What comes to a handler of `App` has passed the middleware. -/
theorem serve_handled {a a' : Limiters} {now : Int} {w : WireRequest} {r : Route}
    (h : serve a now w = (a', .route (.handled r))) : ∃ path, unescape w.rawPath = some path ∧
      arrival now w = some ⟨now, w.http path⟩ ∧ withMiddleware a now (w.http path) = (a', .next) ∧
      serveMux routes w.method (escapedPath w.rawPath path) = .handled r := by
  unfold serve at h
  split at h
  · cases h
  · next path hpath =>
    refine ⟨path, hpath, ?_⟩
    simp only at h
    split at h
    · cases h
    · next hsite =>
      have harrival : arrival now w = some ⟨now, w.http path⟩ := by
        simp only [arrival, hpath, Option.bind_some, hsite]
      refine ⟨harrival, ?_⟩
      unfold appRoutes at h
      split at h
      · next b hnext =>
        simp only [Prod.mk.injEq, Served.route.injEq] at h
        obtain ⟨rfl, hroute⟩ := h
        exact ⟨hnext, hroute⟩
      · cases h
    · cases h
    · cases h
    · cases h

/-- … and what signs in has been counted as a sign-in. -/
theorem serve_signIn {a a' : Limiters} {now : Int} {w : WireRequest} {served : Served}
    (h : serve a now w = (a', served)) (hmethod : w.method = "POST") (hsignIn : served.isSignIn = true) :
    ∃ r, arrival now w = some ⟨now, r⟩ ∧ isAuthPost r = true ∧ withMiddleware a now r = (a', .next) := by
  obtain ⟨r, rfl⟩ : ∃ r, served = .route (.handled r) := by
    unfold Served.isSignIn at hsignIn
    split at hsignIn
    · exact ⟨_, rfl⟩
    · cases hsignIn
  obtain ⟨path, hpath, harrival, hnext, hroute⟩ := serve_handled h
  refine ⟨w.http path, harrival, ?_, hnext⟩
  have hprefix := signIn_path (by rw [hmethod]; decide) hpath hroute hsignIn
  simp only [isAuthPost, WireRequest.http, hmethod, beq_self_eq_true, Bool.true_and]
  exact hprefix

/-- What does not reach the middleware leaves the limiters. -/
theorem serve_limiters (a : Limiters) (now : Int) (w : WireRequest) : (serve a now w).1 =
    match arrival now w with
    | some x => (withMiddleware a x.at x.request).1
    | none => a := by
  unfold serve arrival
  cases unescape w.rawPath with
  | none => rfl
  | some path =>
    simp only [Option.bind_some]
    cases serveMux mainMux w.method (escapedPath w.rawPath path) with
    | handled site =>
      cases site with
      | hub => rfl
      | app =>
        simp only [appRoutes]
        generalize withMiddleware a now (w.http path) = res
        obtain ⟨b, h⟩ := res
        cases h <;> rfl
    | badRequest => rfl
    | redirect => rfl
    | notFound => rfl

/-! ## Sequences of requests -/

/-- A request, when it arrives, with what Turnstile and the table are while it is handled. -/
structure Visit (pgLower : String → String) where
  «at» : Int
  wire : WireRequest
  siteverify : List UInt8 → Except String SiteverifyResponse
  users : Users pgLower
  /-- When a token would be issued. -/
  issued : Int

section
variable {pgLower : String → String}

def Visit.arrival (v : Visit pgLower) : Option Arrival := Synora.arrival v.at v.wire

/-- The POSTs that come to a sign-in. -/
def signIns : Limiters → List (Visit pgLower) → List (Visit pgLower)
  | _, [] => []
  | a, v :: rest =>
    let res := serve a v.at v.wire
    if v.wire.method = "POST" ∧ res.2.isSignIn = true then v :: signIns res.1 rest else signIns res.1 rest

/-- **The sign-ins are among the POSTs that pass**, each in its place. -/
theorem signIns_passed (a : Limiters) (visits : List (Visit pgLower)) :
    ((signIns a visits).map Visit.arrival).Sublist ((passed a (visits.filterMap Visit.arrival)).map some) := by
  induction visits generalizing a with
  | nil => exact List.Sublist.slnil
  | cons v rest ih =>
    have hsub := ih (serve a v.at v.wire).1
    have hlimiters := serve_limiters a v.at v.wire
    rw [signIns]
    split
    · next hsignIn =>
      obtain ⟨r, harrival, -, hnext⟩ := serve_signIn (Prod.eta _).symm hsignIn.1 hsignIn.2
      have hv : v.arrival = some ⟨v.at, r⟩ := harrival
      rw [List.map_cons, List.filterMap_cons_some hv, passed, hnext, hv]
      exact hsub.cons_cons _
    · cases hv : v.arrival with
      | none =>
        have hnone : arrival v.at v.wire = none := hv
        rw [hnone] at hlimiters
        rw [List.filterMap_cons_none hv]
        rw [hlimiters] at hsub ⊢
        exact hsub
      | some x =>
        have hsome : arrival v.at v.wire = some x := hv
        rw [hsome] at hlimiters
        simp only at hlimiters
        rw [List.filterMap_cons_some hv, passed]
        rw [hlimiters] at hsub ⊢
        split
        · exact hsub.cons _
        · exact hsub

theorem signIns_counted (a : Limiters) (visits : List (Visit pgLower)) :
    ∀ v ∈ signIns a visits, ∃ r, v.arrival = some ⟨v.at, r⟩ ∧ isAuthPost r = true := by
  induction visits generalizing a with
  | nil => exact fun v hv => absurd hv List.not_mem_nil
  | cons v rest ih =>
    intro u hu
    rw [signIns] at hu
    split at hu
    · next hsignIn =>
      rcases List.mem_cons.mp hu with rfl | hu
      · obtain ⟨r, harrival, hauth, -⟩ := serve_signIn (Prod.eta _).symm hsignIn.1 hsignIn.2
        exact ⟨r, harrival, hauth⟩
      · exact ih _ u hu
    · exact ih _ u hu

/-- In the minute that begins at `first`, under the key `k`. -/
def Visit.isOf (k : String) (first : Int) (v : Visit pgLower) : Bool :=
  v.arrival.any (fun x => decide (clientIP x.request = k)) && decide (first ≤ v.at ∧ v.at < first + minute)

/-- Of one key, at most `2 * max - 1` come to a sign-in in a minute. -/
theorem signIns_limited {a : Limiters} {max : Int} {visits : List (Visit pgLower)}
    (hl : a.authLimiter = some (newLimiter max)) (hmax : 1 ≤ max)
    (hsorted : visits.Pairwise fun u v => u.at ≤ v.at) (k : String) (first : Int) :
    (((signIns a visits).filter (Visit.isOf k first)).length : Int) ≤ 2 * max - 1 := by
  have harrivals : (visits.filterMap Visit.arrival).Pairwise fun x y => x.at ≤ y.at := by
    have hat : ∀ (v : Visit pgLower) x, v.arrival = some x → x.at = v.at := by
      intro v x hx
      obtain ⟨path, -, hsite⟩ := Option.bind_eq_some_iff.mp hx
      split at hsite
      · cases hsite
        rfl
      · cases hsite
    apply hsorted.filterMap
    intro u v huv x hx y hy
    rw [hat u x hx, hat v y hy]
    exact huv
  apply Int.le_trans _ (key_passes_limited hl hmax harrivals k first)
  rw [List.filter_filter, Int.ofNat_le]
  -- a sign-in and its arrival are counted alike
  have hcount : ∀ v ∈ signIns a visits, Visit.isOf k first v = true →
      v.arrival.any (fun x => decide (first ≤ x.at ∧ x.at < first + minute) && x.isAuthOf k) = true := by
    intro v hv hof
    obtain ⟨r, harrival, hauth⟩ := signIns_counted a visits v hv
    simp only [Visit.isOf, harrival, Option.any_some, Bool.and_eq_true, decide_eq_true_eq] at hof
    simp [harrival, Arrival.isAuthOf, hauth, hof.1, hof.2]
  have hsub := (signIns_passed a visits).countP_le (p := fun o : Option Arrival =>
    o.any fun x => decide (first ≤ x.at ∧ x.at < first + minute) && x.isAuthOf k)
  rw [List.countP_map, List.countP_map] at hsub
  rw [← List.countP_eq_length_filter, ← List.countP_eq_length_filter]
  exact (List.countP_mono_left hcount).trans hsub

/-! ## Passwords -/

section
variable (turnstileSecret : String) (lower : Char → Char)

/-- Where the login of a request is, once its handler has begun. -/
def Visit.start (v : Visit pgLower) : Option AuthPc :=
  (unescape v.wire.rawPath).map fun path =>
    authStart turnstileSecret v.siteverify lower (v.wire.http path) v.wire.body

/-- The handler finds a row, and compares the password with its hash. -/
def Visit.compares (v : Visit pgLower) : Bool :=
  match v.start turnstileSecret lower with
  | some (.selecting email _) =>
    match v.users.credentials email with
    | .ok (some _) => true
    | _ => false
  | _ => false

/-- The requests whose password is compared with a hash. -/
def passwordChecks : Limiters → List (Visit pgLower) → List (Visit pgLower)
  | _, [] => []
  | a, v :: rest =>
    let res := serve a v.at v.wire
    if res.2 = .route (.handled .auth) ∧ v.compares turnstileSecret lower = true then
      v :: passwordChecks res.1 rest
    else passwordChecks res.1 rest

variable {turnstileSecret lower}

/-- What Turnstile confirmed. -/
def Visit.Confirmed (turnstileSecret : String) (v : Visit pgLower) : Prop :=
  ∃ r input, v.arrival = some ⟨v.at, r⟩ ∧ Checked turnstileSecret v.siteverify r v.wire.body input

theorem compares_checked {v : Visit pgLower} (h : v.compares turnstileSecret lower = true) :
    ∃ path input, unescape v.wire.rawPath = some path ∧
      Checked turnstileSecret v.siteverify (v.wire.http path) v.wire.body input := by
  unfold Visit.compares at h
  split at h
  · next email password hstart =>
    obtain ⟨path, hpath, hselecting⟩ := Option.map_eq_some_iff.mp hstart
    obtain ⟨input, hchecked, -⟩ := authStart_selecting_iff.mp hselecting
    exact ⟨path, input, hpath, hchecked⟩
  · cases h

/-- A password is compared in a sign-in that Turnstile has confirmed. -/
theorem passwordChecks_signIns (turnstileSecret : String) (lower : Char → Char) (a : Limiters)
    (visits : List (Visit pgLower)) :
    (passwordChecks turnstileSecret lower a visits).Sublist (signIns a visits) ∧
      ∀ v ∈ passwordChecks turnstileSecret lower a visits, v.Confirmed turnstileSecret := by
  induction visits generalizing a with
  | nil => exact ⟨List.Sublist.slnil, fun v hv => absurd hv List.not_mem_nil⟩
  | cons v rest ih =>
    obtain ⟨hsub, hall⟩ := ih (serve a v.at v.wire).1
    rw [passwordChecks, signIns]
    by_cases hchecks : (serve a v.at v.wire).2 = .route (.handled .auth) ∧
        v.compares turnstileSecret lower = true
    · obtain ⟨path, input, hpath, hchecked⟩ := compares_checked hchecks.2
      have hmethod : v.wire.method = "POST" := hchecked.method
      have hsignIn : (serve a v.at v.wire).2.isSignIn = true := by
        rw [hchecks.1]
        rfl
      rw [if_pos hchecks, if_pos ⟨hmethod, hsignIn⟩]
      refine ⟨hsub.cons_cons _, fun u hu => ?_⟩
      rcases List.mem_cons.mp hu with rfl | hu
      · obtain ⟨path', hpath', harrival, -⟩ := serve_handled (Prod.ext rfl hchecks.1)
        cases hpath.symm.trans hpath'
        exact ⟨_, input, harrival, hchecked⟩
      · exact hall u hu
    · rw [if_neg hchecks]
      refine ⟨?_, hall⟩
      split
      · exact hsub.cons _
      · exact hsub

theorem load_authLimiter {getenv : String → String} {c : Config} (h : load getenv = some c) :
    c.limiters.authLimiter = some (newLimiter c.authRateLimitPerMinute) ∧ 1 ≤ c.authRateLimitPerMinute := by
  refine ⟨rfl, ?_⟩
  unfold load at h
  simp only at h
  split at h
  · cases h
  · cases h
    simp only
    split <;> omega

/-- **The passwords compared for one key are limited**, in any minute and under any environment,
and each is compared after Turnstile has confirmed the token that came with it. -/
theorem password_checks_limited {getenv : String → String} {c : Config} (hload : load getenv = some c)
    {visits : List (Visit pgLower)} (hsorted : visits.Pairwise fun u v => u.at ≤ v.at) (k : String) (first : Int) :
    (((passwordChecks c.turnstileSecret lower c.limiters visits).filter (Visit.isOf k first)).length : Int) ≤
        2 * c.authRateLimitPerMinute - 1 ∧
      (((signIns c.limiters visits).filter (Visit.isOf k first)).length : Int) ≤
        2 * c.authRateLimitPerMinute - 1 ∧
      ∀ v ∈ passwordChecks c.turnstileSecret lower c.limiters visits, v.Confirmed c.turnstileSecret := by
  obtain ⟨hl, hmax⟩ := load_authLimiter hload
  obtain ⟨hsub, hconfirmed⟩ := passwordChecks_signIns c.turnstileSecret lower c.limiters visits
  have hlimited := signIns_limited hl hmax hsorted k first
  refine ⟨?_, hlimited, hconfirmed⟩
  apply Int.le_trans _ hlimited
  exact Int.ofNat_le.mpr (hsub.filter _).length_le

end

/-! ## What the answers tell -/

section
variable (mac : List UInt8 → List UInt8 → List UInt8) (secret : List UInt8) (ttl : Int)
  (compare : String → String → Bool) (turnstileSecret : String) (lower : Char → Char)

/-- The answer of the login, where a request comes to it. -/
def Visit.answer (v : Visit pgLower) (served : Served) : Option GoogleAnswer :=
  if served = .route (.handled .auth) then
    (v.start turnstileSecret lower).map fun pc =>
      match pc with
      | .selecting email password => authFinish mac secret ttl compare v.users v.issued email password
      | .finished a => a
  else none

/-- What the clients see. -/
def transcript : Limiters → List (Visit pgLower) → List (Served × Option GoogleAnswer)
  | _, [] => []
  | a, v :: rest =>
    let res := serve a v.at v.wire
    (res.2, v.answer mac secret ttl compare turnstileSecret lower res.2) :: transcript res.1 rest

/-- Another table opens for the passwords of a request what its own does. -/
def Visit.OpensAlike (v : Visit pgLower) (t : Users pgLower) : Prop :=
  ∀ email password, v.start turnstileSecret lower = some (.selecting email password) →
    ∀ row, t.Opens compare email password row ↔ v.users.Opens compare email password row

variable {mac secret ttl compare turnstileSecret lower}

theorem authFinish_congr {t t' : Users pgLower} {now : Int} {email password : String}
    (h : ∀ row, t.Opens compare email password row ↔ t'.Opens compare email password row) :
    authFinish mac secret ttl compare t now email password =
      authFinish mac secret ttl compare t' now email password := by
  by_cases hopens : ∃ row, t'.Opens compare email password row
  · obtain ⟨row, hrow⟩ := hopens
    rw [authFinish_signedIn_iff.mpr ⟨row, hrow, rfl, rfl, rfl, rfl⟩,
      authFinish_signedIn_iff.mpr ⟨row, (h row).mpr hrow, rfl, rfl, rfl, rfl⟩]
  · have hnone : ∀ row, ¬ t'.Opens compare email password row := fun row hrow => hopens ⟨row, hrow⟩
    rw [authFinish_refused hnone, authFinish_refused fun row hrow => hnone row ((h row).mp hrow)]

end

end

/-! ## Three logins -/

/-- One sign-in a minute. -/
def oncePerMinute (k : String) : String :=
  if k = "JWT_SECRET" then "secret"
  else if k = "AUTH_RATE_LIMIT_PER_MINUTE" then "1"
  else if k = "TURNSTILE_SECRET" then "key"
  else ""

/-- A login for Ann, at a path. -/
def annLogin («at» : Int) (path password : String) : Visit id where
  «at» := «at»
  wire := ⟨"POST", UrlForm.bytes path, [], "10.0.0.1:50000",
    Base64Url.utf8 ("\x7b\"email\":\" Ann@example.org\",\"cf_turnstile_response\":\"a&secret=b\"," ++
      "\"password\":\"" ++ password ++ "\"\x7d").toList⟩
  siteverify := allSolved
  users := annOnly
  issued := «at»

def threeLogins : List (Visit id) :=
  [annLogin 0 "/api/v1/auth" "cow", annLogin 5 "/api/v1/auth/login" "horse",
    annLogin minute "/api/v1/%61uth" "horse"]

def onceConfig : Config := ⟨":8080", "secret", "", "key", 120, 1⟩

theorem password_checks_limited_three : load oncePerMinute = some onceConfig ∧
    (passwordChecks "key" Char.toLower onceConfig.limiters threeLogins).length = 2 ∧
    (((passwordChecks "key" Char.toLower onceConfig.limiters threeLogins).filter
        (Visit.isOf "10.0.0.1" 0)).length : Int) ≤ 2 * 1 - 1 ∧
      (((signIns onceConfig.limiters threeLogins).filter (Visit.isOf "10.0.0.1" 0)).length : Int) ≤ 2 * 1 - 1 ∧
      ∀ v ∈ passwordChecks "key" Char.toLower onceConfig.limiters threeLogins, v.Confirmed "key" := by
  have hload : load oncePerMinute = some onceConfig := by decide +kernel
  exact ⟨hload, by decide +kernel, password_checks_limited hload (by decide +kernel) "10.0.0.1" 0⟩

end Synora
