import Synora.Lib.FixedWindow
import Synora.Create

/- The rate limit (handlers.go): `Limiter.Allow`, `clientIP` and what
   `withMiddleware` does with them. `Allow` holds a mutex while it reads the clock, so
   the calls of one limiter come in the order of their readings.

   Correspondence (Go ↔ Lean):
     `Limiter`, `limitEntry`, `Allow`     ↔ `Limiter`, `LimitEntry`, `Limiter.allow`
     `clientIP`, `net.SplitHostPort`      ↔ `clientIP`, `splitHost`
     `withMiddleware`                     ↔ `withMiddleware`; `.next` is `next.ServeHTTP`
   The CORS headers and X-Request-ID decide nothing and are left out. -/
namespace Synora

open FixedWindow

/-! ## The limiter -/

structure LimitEntry where
  «at» : Int
  n : Int
  deriving DecidableEq

structure Limiter where
  m : String → Option LimitEntry
  max : Int

def newLimiter (max : Int) : Limiter := ⟨fun _ => none, max⟩

def minute : Int := 60 * second

def Limiter.put (l : Limiter) (k : String) (e : LimitEntry) : Limiter :=
  { l with m := fun j => if j = k then some e else l.m j }

/-- `Allow`: whether the call passes, and after how many seconds to try again. -/
def Limiter.allow (l : Limiter) (now : Int) (k : String) : Limiter × Bool × Int :=
  match l.m k with
  | none => (l.put k ⟨now, 1⟩, true, 0)
  | some e =>
    if minute ≤ durationSub now e.at then (l.put k ⟨now, 1⟩, true, 0)
    else if l.max ≤ e.n then
      let retry := (minute - durationSub now e.at).tdiv second
      (l, false, if retry < 1 then 1 else retry)
    else (l.put k ⟨e.at, e.n + 1⟩, true, 0)

/-! ## The middleware -/

/-- What the middleware reads of a request; header names are canonical. -/
structure HttpRequest where
  method : String
  path : String
  header : List (String × String)
  remoteAddr : String
  deriving DecidableEq

/-- `Header.Get`: the first value of the name, empty if there is none. -/
def HttpRequest.headerGet (r : HttpRequest) (name : String) : String :=
  ((r.header.find? (fun h => h.1 = name)).map (fun h => h.2)).getD ""

/-- The host of `net.SplitHostPort`, `none` where it returns an error: the port follows the
last colon, brackets enclose a host with colons, and there are no others. -/
def splitHost : List Char → Option (List Char)
  | '[' :: rest =>
    match rest.dropWhile (· ≠ ']') with
    | ']' :: ':' :: port =>
      if '[' ∉ rest ∧ ':' ∉ port ∧ ']' ∉ port then some (rest.takeWhile (· ≠ ']')) else none
    | _ => none
  | cs =>
    match cs.dropWhile (· ≠ ':') with
    | ':' :: port =>
      if ':' ∉ port ∧ '[' ∉ cs ∧ ']' ∉ cs then some (cs.takeWhile (· ≠ ':')) else none
    | _ => none

/-- The network peer: the host part of RemoteAddr, all of it if it has none. -/
def HttpRequest.peer (r : HttpRequest) : String :=
  match splitHost r.remoteAddr.toList with
  | some host => String.ofList host
  | none => r.remoteAddr

/-- The key of the rate limit. -/
def clientIP (r : HttpRequest) : String :=
  let xff := trimSpace (r.headerGet "X-Forwarded-For")
  if xff ≠ "" then
    if ',' ∈ xff.toList then trimSpace (String.ofList (xff.toList.takeWhile (· ≠ ','))) else xff
  else
    let xr := trimSpace (r.headerGet "X-Real-Ip")
    if xr ≠ "" then xr else r.peer

/-- `r.Method == http.MethodPost && strings.HasPrefix(r.URL.Path, "/api/v1/auth")`. -/
def isAuthPost (r : HttpRequest) : Bool :=
  r.method == "POST" && "/api/v1/auth".toList.isPrefixOf r.path.toList

/-- The limiters of `App`; a nil pointer is `none`. -/
structure Limiters where
  limiter : Option Limiter
  authLimiter : Option Limiter

inductive Handled where
  /-- 204 to an OPTIONS request. -/
  | preflight
  /-- An error envelope; the seconds are in Retry-After and in the details. -/
  | limited (status : Nat) (code message : String) (retryAfter : Int)
  /-- The request goes on to the handlers. -/
  | next
  deriving DecidableEq

def rateLimited (retry : Int) : Handled :=
  .limited 429 "RATE_LIMITED" "Too many requests. Try again shortly." (if retry < 1 then 1 else retry)

/-- What becomes of a request its limiter has answered. -/
def handled (ok : Bool) (retry : Int) : Handled := if ok then .next else rateLimited retry

def withMiddleware (a : Limiters) (now : Int) (r : HttpRequest) : Limiters × Handled :=
  if r.method = "OPTIONS" then (a, .preflight)
  else
    match (if isAuthPost r then a.authLimiter else none) with
    | some l =>
      let res := l.allow now (clientIP r)
      ({ a with authLimiter := some res.1 }, handled res.2.1 res.2.2)
    | none =>
      match a.limiter with
      | some l =>
        let res := l.allow now (clientIP r)
        ({ a with limiter := some res.1 }, handled res.2.1 res.2.2)
      | none => (a, .next)

/-! ## A limiter as a family of windows -/

def LimitEntry.window (e : LimitEntry) : Window := ⟨e.at, e.n⟩

/-- The window of a key. -/
def Limiter.window (l : Limiter) (k : String) : Option Window := (l.m k).map LimitEntry.window

/-- Saturation does not matter to the comparison with a minute. -/
theorem minute_le_durationSub (now «at» : Int) : minute ≤ durationSub now «at» ↔ minute ≤ now - «at» := by
  unfold durationSub minute second
  omega

/-- **`Allow` is a call of the window of its key**, and leaves the other windows and the limit. -/
theorem allow_spec (l : Limiter) (now : Int) (k : String) :
    (l.allow now k).2.1 = (offer minute l.max now (l.window k)).2 ∧
    (l.allow now k).1.window k = (offer minute l.max now (l.window k)).1 ∧
    (∀ j, j ≠ k → (l.allow now k).1.window j = l.window j) ∧ (l.allow now k).1.max = l.max := by
  have hput : ∀ e : LimitEntry, (l.put k e).window k = some e.window := by
    intro e
    simp [Limiter.window, Limiter.put]
  have hother : ∀ (e : LimitEntry) (j : String), j ≠ k → (l.put k e).window j = l.window j := by
    intro e j hj
    simp [Limiter.window, Limiter.put, hj]
  unfold Limiter.allow
  cases hk : l.m k with
  | none =>
    simp only [Limiter.window, hk, Option.map_none, offer]
    exact ⟨trivial, hput _, hother _, rfl⟩
  | some e =>
    have hw : l.window k = some e.window := by simp [Limiter.window, hk]
    rw [hw]
    have hwindow : offer minute l.max now (some e.window) =
        if minute ≤ now - e.at then (some ⟨now, 1⟩, true)
        else if l.max ≤ e.n then (some e.window, false) else (some ⟨e.at, e.n + 1⟩, true) := rfl
    rw [hwindow]
    simp only [minute_le_durationSub]
    split
    · exact ⟨rfl, hput _, hother _, rfl⟩
    · split
      · exact ⟨rfl, hw, fun _ _ => rfl, rfl⟩
      · exact ⟨rfl, hput _, hother _, rfl⟩

/-! ## Sequences of requests -/

structure Arrival where
  «at» : Int
  request : HttpRequest
  deriving DecidableEq

/-- The requests that pass the middleware. -/
def passed : Limiters → List Arrival → List Arrival
  | _, [] => []
  | a, x :: rest =>
    let res := withMiddleware a x.at x.request
    if res.2 = .next then x :: passed res.1 rest else passed res.1 rest

/-- A POST under /api/v1/auth whose rate-limit key is `k`. -/
def Arrival.isAuthOf (k : String) (x : Arrival) : Bool :=
  isAuthPost x.request && decide (clientIP x.request = k)

/-- A POST under /api/v1/auth of the peer, in the minute that begins at `first`. -/
def Arrival.isAuthIn (peer : String) (first : Int) (x : Arrival) : Bool :=
  isAuthPost x.request && decide (x.request.peer = peer) && decide (first ≤ x.at ∧ x.at < first + minute)

/-- A POST under /api/v1/auth is a call of the auth limiter. -/
theorem withMiddleware_auth {a : Limiters} {l : Limiter} {r : HttpRequest} (now : Int)
    (hl : a.authLimiter = some l) (hr : isAuthPost r = true) :
    withMiddleware a now r = ({ a with authLimiter := some (l.allow now (clientIP r)).1 },
      handled (l.allow now (clientIP r)).2.1 (l.allow now (clientIP r)).2.2) := by
  have hmethod : r.method ≠ "OPTIONS" := by
    intro h
    rw [isAuthPost, h] at hr
    cases hr
  unfold withMiddleware
  rw [if_neg hmethod, if_pos hr, hl]

/-- Any other request leaves the auth limiter as it is. -/
theorem withMiddleware_other {a : Limiters} {r : HttpRequest} (now : Int) (hr : isAuthPost r = false) :
    (withMiddleware a now r).1.authLimiter = a.authLimiter := by
  unfold withMiddleware
  simp only [hr, Bool.false_eq_true, if_false]
  split
  · rfl
  · split <;> rfl

theorem handled_next (ok : Bool) (retry : Int) : handled ok retry = .next ↔ ok = true := by
  cases ok <;> simp [handled, rateLimited]

/-- **The requests of one key that pass are those its window admits.** -/
theorem passed_key {a : Limiters} {l : Limiter} (hl : a.authLimiter = some l) (k : String)
    (xs : List Arrival) :
    ((passed a xs).filter (Arrival.isAuthOf k)).map Arrival.at =
      admitted minute l.max (l.window k) ((xs.filter (Arrival.isAuthOf k)).map Arrival.at) := by
  induction xs generalizing a l with
  | nil => rfl
  | cons x rest ih =>
    rw [passed]
    by_cases hauth : isAuthPost x.request = true
    · rw [withMiddleware_auth x.at hl hauth]
      obtain ⟨hok, hself, hothers, hmax⟩ := allow_spec l x.at (clientIP x.request)
      have hrest := ih (a := { a with authLimiter := some (l.allow x.at (clientIP x.request)).1 }) rfl
      simp only [handled_next, hok]
      by_cases hk : clientIP x.request = k
      · subst hk
        have hx : x.isAuthOf (clientIP x.request) = true := by simp [Arrival.isAuthOf, hauth]
        rw [hself, hmax] at hrest
        rw [List.filter_cons_of_pos hx, List.map_cons, admitted]
        split
        · rw [List.filter_cons_of_pos hx, List.map_cons, hrest]
        · exact hrest
      · have hx : ¬ x.isAuthOf k = true := by simp [Arrival.isAuthOf, hk]
        rw [hothers k (Ne.symm hk), hmax] at hrest
        rw [List.filter_cons_of_neg hx, ← hrest]
        split
        · rw [List.filter_cons_of_neg hx]
        · rfl
    · have hx : ¬ x.isAuthOf k = true := by simp [Arrival.isAuthOf, hauth]
      have hrest := ih ((withMiddleware_other x.at (by simpa using hauth)).trans hl)
      rw [List.filter_cons_of_neg hx, ← hrest]
      split
      · rw [List.filter_cons_of_neg hx]
      · rfl

/-- The POSTs under /api/v1/auth of the peer that pass in the minute that begins at `first`. -/
def authPasses (a : Limiters) (xs : List Arrival) (peer : String) (first : Int) : List Arrival :=
  (passed a xs).filter (Arrival.isAuthIn peer first)

/-- Of one key, at most `2 * max - 1` pass, whatever peers they come from. -/
theorem key_passes_limited {a : Limiters} {max : Int} {xs : List Arrival}
    (hl : a.authLimiter = some (newLimiter max)) (hmax : 1 ≤ max)
    (hsorted : xs.Pairwise (fun x y => x.at ≤ y.at)) (k : String) (first : Int) :
    ((((passed a xs).filter (Arrival.isAuthOf k)).filter
      (fun x => decide (first ≤ x.at ∧ x.at < first + minute))).length : Int) ≤ 2 * max - 1 := by
  have hsound : Sound max ((newLimiter max).window k) := by
    intro w hw
    cases hw
  have htimes : ((xs.filter (Arrival.isAuthOf k)).map Arrival.at).Pairwise (· ≤ ·) := by
    rw [List.pairwise_map]
    exact hsorted.filter _
  have hbound : ((within minute first (admitted minute max ((newLimiter max).window k)
      ((xs.filter (Arrival.isAuthOf k)).map Arrival.at))).length : Int) ≤ 2 * max - 1 :=
    admitted_within hmax hsound htimes first
  have hmap := passed_key hl k xs
  rw [show (newLimiter max).max = max from rfl] at hmap
  rw [← hmap, within, List.filter_map, List.length_map] at hbound
  exact hbound

/-- **The rate limit counts keys, not peers.** In any minute, the POSTs under /api/v1/auth of
one peer that pass are at most `2 * max - 1` for each key its headers made `clientIP` return. -/
theorem auth_passes_limited {a : Limiters} {max : Int} {xs : List Arrival}
    (hl : a.authLimiter = some (newLimiter max)) (hmax : 1 ≤ max)
    (hsorted : xs.Pairwise (fun x y => x.at ≤ y.at)) (peer : String) (first : Int) :
    ((authPasses a xs peer first).length : Int) ≤ (2 * max - 1) *
      (((authPasses a xs peer first).map (fun x => clientIP x.request)).dedup.length : Int) := by
  apply length_le_mul_classes
  intro k
  apply Int.le_trans _ (key_passes_limited hl hmax hsorted k first)
  rw [authPasses, List.filter_filter, List.filter_filter, ← List.countP_eq_length_filter,
    ← List.countP_eq_length_filter, Int.ofNat_le]
  apply List.countP_mono_left
  intro x _ hx
  simp only [Arrival.isAuthIn, Arrival.isAuthOf, Bool.and_eq_true, decide_eq_true_eq] at hx ⊢
  exact ⟨hx.2.2, hx.2.1.1, hx.1⟩

/-- A request without the two headers is counted under its peer. -/
theorem clientIP_peer {r : HttpRequest} (hf : r.headerGet "X-Forwarded-For" = "")
    (hr : r.headerGet "X-Real-Ip" = "") : clientIP r = r.peer := by
  have hblank : trimSpace "" = "" := by decide
  simp [clientIP, hf, hr, hblank]

/-- A login request. -/
def login (header : List (String × String)) : HttpRequest :=
  ⟨"POST", "/api/v1/auth/login", header, "10.0.0.1:50000"⟩

/-- Both limiters at one request a minute. -/
def onePerMinute : Limiters := ⟨some (newLimiter 1), some (newLimiter 1)⟩

/-- Two logins at once and one a second later, from one peer; the second names a client. -/
def logins : List Arrival :=
  [⟨0, login []⟩, ⟨0, login [("X-Forwarded-For", "192.0.2.1, 10.0.0.9")]⟩, ⟨1000000000, login []⟩]

theorem auth_passes_limited_logins :
    (authPasses onePerMinute logins "10.0.0.1" 0).length = 2 ∧
    ((authPasses onePerMinute logins "10.0.0.1" 0).length : Int) ≤ (2 * 1 - 1) *
      (((authPasses onePerMinute logins "10.0.0.1" 0).map
        (fun x => clientIP x.request)).dedup.length : Int) :=
  ⟨by decide +kernel, auth_passes_limited rfl (by decide) (by decide) "10.0.0.1" 0⟩

/-- The law fails: with a new X-Forwarded-For for each request, one peer passes as often as
it likes. -/
theorem auth_passes_limited_fails :
    ¬ ∀ (a : Limiters) (max : Int) (xs : List Arrival) (peer : String) (first : Int),
      a.authLimiter = some (newLimiter max) → 1 ≤ max → xs.Pairwise (fun x y => x.at ≤ y.at) →
      ((authPasses a xs peer first).length : Int) ≤ 2 * max - 1 := by
  intro h
  have hle := h onePerMinute 1 logins "10.0.0.1" 0 rfl (by decide) (by decide)
  have hlen : (authPasses onePerMinute logins "10.0.0.1" 0).length = 2 := by decide +kernel
  rw [hlen] at hle
  omega

end Synora
