import Synora.Create
import Synora.Request
import Synora.System

/- What a bid is answered, and what was decided. The handler makes four calls, each
   on a state of the servers of its own, and reads the clock between them. The script
   reports three outcomes; `evalBid` hands on a boolean and a text, so the answer for
   a status key that is not ACTIVE is the one for a bid that is too low.

   Correspondence (Go ↔ Lean):
     `App.bid`, with every call answered        ↔ `bidHandler`, `serveBid`
     the state and the clock of each call       ↔ `Moments` -/
namespace Synora

/-! ## The handler, call by call -/

/-- The state a call finds, and the clock once its reply has come. -/
structure Moment where
  world : World
  clock : Int

structure Moments where
  select : Moment
  setNX : Moment
  set : Moment
  eval : Moment

/-- The call is executed and answered; an answered request makes no more calls. -/
def goOn (E : Engines) (req : BidRequest) (m : Moment) : BidPc × Option Cmd → BidPc × Option Cmd
  | (pc, none) => (pc, none)
  | (pc, some c) => bidResume m.clock req pc (exec E m.world c).2

/-- `bid` on a decoded request, with all services up. -/
def serveBid (E : Engines) (req : BidRequest) (ms : Moments) : BidPc :=
  (goOn E req ms.eval (goOn E req ms.set (goOn E req ms.setNX (goOn E req ms.select
    (bidStart req))))).1

/-- `bid` on the body of a request; `user` is what `a.user(r)` returns. -/
def bidHandler (E : Engines) (user : Option String) (body : List UInt8) (ms : Moments) : BidPc :=
  match user with
  | none => .answered authRequired
  | some uid =>
    match decode bidFields .empty body with
    | none => .answered invalidBid
    | some i => serveBid E ⟨i.auctionID, i.amount, uid⟩ ms

/-! ## What is decided -/

/-- Digits, a point and two digits: the cents they denote. -/
def moneyCents (s : String) : Option Nat :=
  match s.toList.dropWhile Char.isDigit with
  | ['.', a, b] =>
    if s.toList.takeWhile Char.isDigit ≠ [] ∧ a.isDigit = true ∧ b.isDigit = true then some (amountCents s)
    else none
  | _ => none

/-- A positive two-decimal value that fits NUMERIC(12,2). -/
def PositiveMoney (s : String) : Prop := ∃ n, moneyCents s = some n ∧ 0 < n ∧ n < 10^12

/-- A decimal text that denotes at least the amount. -/
def NotBelow (p amount : String) : Prop := ∃ n, moneyCents p = some n ∧ amountCents amount ≤ n

/-- The id is no UUID, to `uuid.Validate` or to Postgres, or the amount is not one. -/
def Malformed (req : BidRequest) : Prop :=
  Uuid.validate req.auctionID = false ∨ Uuid.input req.auctionID = none ∨ ¬ PositiveMoney req.amount

/-- The columns of a row as the handler has them. -/
def Auction.seen (x : Auction) : SeenRow :=
  ⟨x.status, 1000 * x.startTime, 1000 * x.endTime, x.startingPrice.text⟩

section
variable (E : Engines) (req : BidRequest) (ms : Moments)

/-- The row the request names when it is read. -/
def Moments.row : Option Auction := (Uuid.input req.auctionID).bind ms.select.world.db.find

/-- Both window checks pass. -/
def Moments.admits (x : Auction) : Prop :=
  x.seen.biddable ms.select.clock = true ∧ x.seen.biddable ms.set.clock = true

/-- What the script makes of the state it finds. -/
def Moments.script (x : Auction) : ScriptResult :=
  bidScript E ms.eval.world.redis ms.eval.world.redisNow req.auctionID req.amount req.user
    (ttlSeconds (1000 * x.endTime) ms.set.clock)

/-- The row or the script finds the auction not ACTIVE or out of its window. -/
def Moments.NotBiddable (x : Auction) : Prop :=
  ¬ ms.admits x ∨ ms.script E req x = .closed

/-- Status and code of an error envelope. -/
def Answer.envelope : Answer → Option (Nat × String)
  | .created .. => none
  | .error status code _ _ => some (status, code)

/-- A member of the details. -/
def Answer.detail (name : String) : Answer → Option String
  | .created .. => none
  | .error _ _ _ details => (details.find? (fun d => d.1 = name)).map (fun d => d.2)

/-- The answer tells what was decided. -/
structure Truthful (a : Answer) : Prop where
  invalid : a.envelope = some (400, "INVALID_AMOUNT") ↔ Malformed req
  missing : ¬ Malformed req → (a.envelope = some (404, "AUCTION_NOT_FOUND") ↔ ms.row req = none)
  notBiddable : ¬ Malformed req → ∀ x, ms.row req = some x →
    (a.envelope = some (400, "AUCTION_NOT_BIDDABLE") ↔ ms.NotBiddable E req x)
  tooLow : ¬ Malformed req → ∀ x, ms.row req = some x → ¬ ms.NotBiddable E req x →
    (a.envelope = some (409, "BID_TOO_LOW") ↔ ∃ p, ms.script E req x = .tooLow p)
  highPrice : ¬ Malformed req → ∀ x, ms.row req = some x → ¬ ms.NotBiddable E req x →
    ∀ p, ms.script E req x = .tooLow p →
      a.detail "current_high_price" = some p ∧ NotBelow p req.amount
  created : a.code = 201 ↔ ∃ x r, ms.row req = some x ∧ Uuid.validate req.auctionID = true ∧
    amountPattern req.amount = true ∧ ms.admits x ∧ ms.script E req x = .accepted r

/-- A stored price that is at least the amount, as the script reads the two. -/
def StoredNotBelow (w : World) (p : String) : Prop :=
  w.get (priceKey req.auctionID) = some p ∧
    ∃ x y, E.tonumber req.amount = some x ∧ E.tonumber p = some y ∧ x.le y = true

/-- The two checks on the request pass exactly for a well-formed one; and when the script
runs, the status key is ACTIVE and a stored price that is not below the amount is a decimal
text that denotes as much. -/
structure Informed : Prop where
  wellFormed : Uuid.validate req.auctionID = true →
    (amountPattern req.amount = true ↔ Uuid.input req.auctionID ≠ none ∧ PositiveMoney req.amount)
  armed : ¬ Malformed req → ∀ x, ms.row req = some x → ms.admits x →
    ms.eval.world.get (statusKey req.auctionID) = some "ACTIVE"
  decimal : ¬ Malformed req → ∀ x, ms.row req = some x → ms.admits x →
    ∀ p, StoredNotBelow E req ms.eval.world p → NotBelow p req.amount

end

/-! ## What the handler answers -/

section
variable {E : Engines} {req : BidRequest} {ms : Moments}

theorem bidScript_closed_iff {r : Redis} {now ttl : Int} {id amount user : String} :
    bidScript E r now id amount user ttl = .closed ↔ r.get now (statusKey id) ≠ some "ACTIVE" := by
  unfold bidScript
  split
  · rename_i h
    exact iff_of_true rfl h
  · rename_i h
    refine iff_of_false (fun hc => ?_) h
    split at hc
    · split at hc <;> cases hc
    · split at hc
      · split at hc
        · cases hc
        · split at hc <;> cases hc
      · cases hc

theorem bidScript_tooLow_iff {r : Redis} {now ttl : Int} {id amount user p : String} :
    bidScript E r now id amount user ttl = .tooLow p ↔ r.get now (statusKey id) = some "ACTIVE" ∧
      r.get now (priceKey id) = some p ∧
      ∃ x y, E.tonumber amount = some x ∧ E.tonumber p = some y ∧ x.le y = true := by
  constructor
  · intro h
    unfold bidScript at h
    split at h
    · cases h
    · rename_i hs
      split at h
      · split at h <;> cases h
      · rename_i q hq
        split at h
        · rename_i x y hx hy
          split at h
          · rename_i hle
            cases h
            exact ⟨not_not.mp hs, hq, x, y, hx, hy, hle⟩
          · split at h <;> cases h
        · cases h
  · rintro ⟨hs, hp, x, y, hx, hy, hle⟩
    simp [bidScript, hs, hp, hx, hy, hle]

/-- What the handler makes of the outcome of the script. -/
def scriptAnswer (req : BidRequest) (row : SeenRow) (placed : Int) : ScriptResult → Answer
  | .closed => tooLow req "CLOSED"
  | .tooLow p => tooLow req (if p = "" then req.amount else p)
  | .accepted _ => .created req.auctionID req.user req.amount placed row.status row.end
  | .error => unavailable

theorem serveBid_invalid (h : ¬ (Uuid.validate req.auctionID = true ∧ amountPattern req.amount = true)) :
    serveBid E req ms = .answered invalidBid := by
  simp only [serveBid, bidStart, if_neg h, goOn]

theorem serveBid_unreadable (h : Uuid.validate req.auctionID = true ∧ amountPattern req.amount = true)
    (hid : Uuid.input req.auctionID = none) : serveBid E req ms = .answered notBiddable := by
  simp only [serveBid, bidStart, if_pos h, goOn, exec, hid, bidResume]

theorem serveBid_missing {u : Uuid}
    (h : Uuid.validate req.auctionID = true ∧ amountPattern req.amount = true)
    (hid : Uuid.input req.auctionID = some u) (hrow : ms.select.world.db.find u = none) :
    serveBid E req ms = .answered notFound := by
  simp only [serveBid, bidStart, if_pos h, goOn, exec, hid, hrow, bidResume]

theorem bidResume_row (x : Auction) (now : Int) (c : String) :
    bidResume now req .selecting
        (.row x.status (1000 * x.startTime) (1000 * x.endTime) c x.startingPrice.text) =
      if x.seen.biddable now then
        (.initializing x.seen, some (.setNX (priceKey req.auctionID) x.seen.starting))
      else (.answered notBiddable, none) := rfl

/-- The last call. -/
theorem goOn_eval (x : Auction) : (goOn E req ms.eval
      (.scripting x.seen ms.set.clock, some (evalCmd req x.seen ms.set.clock))).1 =
    .answered (scriptAnswer req x.seen ms.set.clock (ms.script E req x)) := by
  have hscript : ms.script E req x = bidScript E ms.eval.world.redis ms.eval.world.redisNow
    req.auctionID req.amount req.user (ttlSeconds x.seen.end ms.set.clock) := rfl
  simp only [goOn, evalCmd, exec, ← hscript]
  cases ms.script E req x <;> simp [bidResume, scriptAnswer]

variable (req) in
/-- On a row it can read, the handler answers what the script says, if it gets that far. -/
theorem serveBid_row {x : Auction} {u : Uuid} {c : Numeric}
    (h : Uuid.validate req.auctionID = true ∧ amountPattern req.amount = true)
    (hid : Uuid.input req.auctionID = some u) (hrow : ms.select.world.db.find u = some x)
    (hc : x.currentHighPrice = some c) :
    (ms.admits x → serveBid E req ms =
      .answered (scriptAnswer req x.seen ms.set.clock (ms.script E req x))) ∧
    (¬ ms.admits x → serveBid E req ms = .answered notBiddable) := by
  have hselect : exec E ms.select.world (.selectRow req.auctionID) = (ms.select.world,
      .row x.status (1000 * x.startTime) (1000 * x.endTime) c.text x.startingPrice.text) := by
    simp only [exec, hid, hrow, scanBidRow, hc]
  have hserve : serveBid E req ms = (goOn E req ms.eval (goOn E req ms.set (goOn E req ms.setNX
      (if x.seen.biddable ms.select.clock then
        (.initializing x.seen, some (.setNX (priceKey req.auctionID) x.seen.starting))
      else (.answered notBiddable, none))))).1 := by
    unfold serveBid bidStart
    rw [if_pos h]
    simp only [goOn, hselect, bidResume_row]
  rw [hserve]
  by_cases hfirst : x.seen.biddable ms.select.clock = true
  swap
  · rw [if_neg hfirst]
    exact ⟨fun hadm => absurd hadm.1 hfirst, fun _ => rfl⟩
  rw [if_pos hfirst]
  have hset : goOn E req ms.set (goOn E req ms.setNX
      (.initializing x.seen, some (.setNX (priceKey req.auctionID) x.seen.starting))) =
      if x.seen.biddable ms.set.clock then
        (.scripting x.seen ms.set.clock, some (evalCmd req x.seen ms.set.clock))
      else (.answered notBiddable, none) := rfl
  rw [hset]
  by_cases hsecond : x.seen.biddable ms.set.clock = true
  · rw [if_pos hsecond]
    exact ⟨fun _ => goOn_eval x, fun hadm => absurd ⟨hfirst, hsecond⟩ hadm⟩
  · rw [if_neg hsecond]
    exact ⟨fun hadm => absurd hadm.2 hsecond, fun _ => rfl⟩

/-! ## Where the answer is true -/

/-- A request that passes the two checks is well formed, or the condition on it fails. -/
theorem wellFormed_iff (h : Uuid.validate req.auctionID = true ∧ amountPattern req.amount = true) :
    (Uuid.validate req.auctionID = true → (amountPattern req.amount = true ↔
      Uuid.input req.auctionID ≠ none ∧ PositiveMoney req.amount)) ↔ ¬ Malformed req := by
  unfold Malformed
  simp only [h.1, h.2, true_iff, forall_const, not_or, not_not, Bool.true_eq_false, not_false_eq_true,
    true_and, ne_eq]

/-- A malformed request is answered 400 INVALID_AMOUNT, or the answer is not true. -/
theorem truthful_iff_invalid (h : ¬ (Uuid.validate req.auctionID = true ∧ amountPattern req.amount = true)) :
    Truthful E req ms invalidBid ↔ Informed E req ms := by
  constructor
  · intro ht
    have hmal : Malformed req := ht.invalid.mp rfl
    refine ⟨fun hv => ?_, fun hnot => absurd hmal hnot, fun hnot => absurd hmal hnot⟩
    refine iff_of_false (fun hp => h ⟨hv, hp⟩) fun hgood => ?_
    rcases hmal with hbad | hbad | hbad
    · rw [hv] at hbad
      cases hbad
    · exact hgood.1 hbad
    · exact hbad hgood.2
  · intro hi
    have hmal : Malformed req := by
      by_contra hnot
      unfold Malformed at hnot
      simp only [not_or, not_not, Bool.not_eq_false] at hnot
      exact h ⟨hnot.1, (hi.wellFormed hnot.1).mpr ⟨hnot.2.1, hnot.2.2⟩⟩
    refine ⟨iff_of_true rfl hmal, fun hnot => absurd hmal hnot, fun hnot => absurd hmal hnot,
      fun hnot => absurd hmal hnot, fun hnot => absurd hmal hnot, iff_of_false (by decide) ?_⟩
    rintro ⟨_, _, -, hv, hp, -⟩
    exact h ⟨hv, hp⟩

/-- An id that `uuid.Validate` takes and Postgres does not is answered as if the auction were
not biddable. -/
theorem truthful_iff_unreadable
    (h : Uuid.validate req.auctionID = true ∧ amountPattern req.amount = true)
    (hid : Uuid.input req.auctionID = none) :
    Truthful E req ms notBiddable ↔ Informed E req ms := by
  have hmal : Malformed req := .inr (.inl hid)
  refine iff_of_false (fun ht => ?_) fun hi => (wellFormed_iff h).mp hi.wellFormed hmal
  have henv := ht.invalid.mpr hmal
  revert henv
  decide

/-- No row. -/
theorem truthful_iff_missing
    (h : Uuid.validate req.auctionID = true ∧ amountPattern req.amount = true)
    (hrow : ms.row req = none) : Truthful E req ms notFound ↔ Informed E req ms := by
  have hnone : ∀ x, ms.row req ≠ some x := by
    intro x hx
    rw [hrow] at hx
    cases hx
  constructor
  · intro ht
    have hnot : ¬ Malformed req := fun hmal => absurd (ht.invalid.mpr hmal) (by decide)
    exact ⟨(wellFormed_iff h).mpr hnot, fun _ x hx => absurd hx (hnone x),
      fun _ x hx => absurd hx (hnone x)⟩
  · intro hi
    have hnot := (wellFormed_iff h).mp hi.wellFormed
    exact ⟨iff_of_false (by decide) hnot, fun _ => iff_of_true rfl hrow,
      fun _ x hx => absurd hx (hnone x), fun _ x hx => absurd hx (hnone x),
      fun _ x hx => absurd hx (hnone x), iff_of_false (by decide) fun ⟨x, _, hx, _⟩ => hnone x hx⟩

/-- A row whose window check fails. -/
theorem truthful_iff_notBiddable {x : Auction}
    (h : Uuid.validate req.auctionID = true ∧ amountPattern req.amount = true)
    (hrow : ms.row req = some x) (hadm : ¬ ms.admits x) :
    Truthful E req ms notBiddable ↔ Informed E req ms := by
  have hsame : ∀ y, ms.row req = some y → y = x := by
    intro y hy
    rw [hrow] at hy
    exact (Option.some.inj hy).symm
  constructor
  · intro ht
    have hnot : ¬ Malformed req := fun hmal => absurd (ht.invalid.mpr hmal) (by decide)
    refine ⟨(wellFormed_iff h).mpr hnot, fun _ y hy hya => ?_, fun _ y hy hya => ?_⟩
    · exact absurd (hsame y hy ▸ hya) hadm
    · exact absurd (hsame y hy ▸ hya) hadm
  · intro hi
    have hnot := (wellFormed_iff h).mp hi.wellFormed
    have hrefused : ∀ y, ms.row req = some y → ms.NotBiddable E req y := fun y hy =>
      .inl (hsame y hy ▸ hadm)
    refine ⟨iff_of_false (by decide) hnot, fun _ => iff_of_false (by decide) fun hnone => ?_,
      fun _ y hy => iff_of_true rfl (hrefused y hy), fun _ y hy hok => absurd (hrefused y hy) hok,
      fun _ y hy hok => absurd (hrefused y hy) hok, iff_of_false (by decide) ?_⟩
    · rw [hrow] at hnone
      cases hnone
    · rintro ⟨y, _, hy, -, -, hya, -⟩
      exact hadm (hsame y hy ▸ hya)

theorem storedNotBelow_of_tooLow {x : Auction} {p : String} (hs : ms.script E req x = .tooLow p) :
    StoredNotBelow E req ms.eval.world p :=
  (bidScript_tooLow_iff.mp hs).2

/-- No outcome of the script is answered 400 or 404. -/
theorem scriptAnswer_envelope_ne (req : BidRequest) (row : SeenRow) (placed : Int) (r : ScriptResult)
    {status : Nat} {code : String} (hlt : status < 409) :
    (scriptAnswer req row placed r).envelope ≠ some (status, code) := by
  have henv : (scriptAnswer req row placed r).envelope = none ∨
      (scriptAnswer req row placed r).envelope = some (409, "BID_TOO_LOW") ∨
      (scriptAnswer req row placed r).envelope = some (503, "TEMPORARILY_UNAVAILABLE") := by
    cases r with
    | accepted _ => exact .inl rfl
    | error => exact .inr (.inr rfl)
    | _ => exact .inr (.inl rfl)
  intro he
  rcases henv with hr | hr | hr <;> rw [hr] at he
  · cases he
  · cases he
    omega
  · cases he
    omega

/-- The answer of the script. -/
theorem truthful_iff_script {x : Auction}
    (h : Uuid.validate req.auctionID = true ∧ amountPattern req.amount = true)
    (hrow : ms.row req = some x) (hadm : ms.admits x) :
    Truthful E req ms (scriptAnswer req x.seen ms.set.clock (ms.script E req x)) ↔
      Informed E req ms := by
  have hsame : ∀ y, ms.row req = some y → y = x := by
    intro y hy
    rw [hrow] at hy
    exact (Option.some.inj hy).symm
  have hclosed : ms.script E req x = .closed ↔
      ms.eval.world.get (statusKey req.auctionID) ≠ some "ACTIVE" := bidScript_closed_iff
  have hother : ∀ (r : ScriptResult) (status : Nat) (code : String), status < 409 →
      (scriptAnswer req x.seen ms.set.clock r).envelope ≠ some (status, code) :=
    fun r _ _ => scriptAnswer_envelope_ne req x.seen ms.set.clock r
  constructor
  · intro ht
    have hnot : ¬ Malformed req := fun hmal => hother _ _ _ (by decide) (ht.invalid.mpr hmal)
    have hopen : ¬ ms.NotBiddable E req x := fun hnb =>
      hother _ _ _ (by decide) ((ht.notBiddable hnot x hrow).mpr hnb)
    refine ⟨(wellFormed_iff h).mpr hnot, fun _ y hy _ => ?_, fun _ y hy _ p hp => ?_⟩
    · by_contra hne
      exact hopen (.inr (hclosed.mpr hne))
    · have hactive : ms.eval.world.get (statusKey req.auctionID) = some "ACTIVE" := by
        by_contra hne
        exact hopen (.inr (hclosed.mpr hne))
      have hlow : ms.script E req x = .tooLow p := bidScript_tooLow_iff.mpr ⟨hactive, hp⟩
      exact (ht.highPrice hnot x hrow hopen p hlow).2
  · intro hi
    have hnot := (wellFormed_iff h).mp hi.wellFormed
    have hactive := hi.armed hnot x hrow hadm
    have hopen : ¬ ms.NotBiddable E req x := by
      rintro (hno | hcl)
      · exact hno hadm
      · exact hclosed.mp hcl hactive
    refine ⟨iff_of_false (hother _ _ _ (by decide)) hnot, fun _ => iff_of_false (hother _ _ _ (by decide))
      fun hnone => ?_, fun _ y hy => ?_, fun _ y hy _ => ?_, fun _ y hy _ p hp => ?_, ?_⟩
    · rw [hrow] at hnone
      cases hnone
    · rw [hsame y hy]
      exact iff_of_false (hother _ _ _ (by decide)) hopen
    · rw [hsame y hy]
      cases hs : ms.script E req x with
      | closed => exact absurd (.inr hs) hopen
      | tooLow p => exact iff_of_true rfl ⟨p, rfl⟩
      | accepted r => exact iff_of_false (by simp [scriptAnswer, Answer.envelope]) (by simp)
      | error => exact iff_of_false (by simp [scriptAnswer, Answer.envelope, unavailable]) (by simp)
    · rw [hsame y hy] at hp
      have hnb := hi.decimal hnot x hrow hadm p (storedNotBelow_of_tooLow hp)
      have hne : p ≠ "" := by
        rintro rfl
        obtain ⟨n, hn, -⟩ := hnb
        cases hn
      rw [hp]
      simp only [scriptAnswer, if_neg hne]
      exact ⟨rfl, hnb⟩
    · constructor
      · intro h201
        cases hs : ms.script E req x with
        | accepted r => exact ⟨x, r, hrow, h.1, h.2, hadm, hs⟩
        | _ =>
          rw [hs] at h201
          simp [scriptAnswer, Answer.code, tooLow, unavailable] at h201
      · rintro ⟨y, r, hy, -, -, -, hs⟩
        rw [hsame y hy] at hs
        rw [hs]
        rfl

/-- **The answer to a bid tells what was decided exactly when** the two checks on the request
agree with what a well-formed request is, and the script finds the status key ACTIVE and no
stored price that is not a decimal text. -/
theorem answer_truthful_iff {uid : String} {body : List UInt8} {i : BidInput}
    (hdecode : decode bidFields .empty body = some i)
    (hreadable : ∀ x, ms.row ⟨i.auctionID, i.amount, uid⟩ = some x → x.currentHighPrice.isSome = true) :
    ∃ a, bidHandler E (some uid) body ms = .answered a ∧
      (Truthful E ⟨i.auctionID, i.amount, uid⟩ ms a ↔ Informed E ⟨i.auctionID, i.amount, uid⟩ ms) := by
  simp only [bidHandler, hdecode]
  by_cases h : Uuid.validate i.auctionID = true ∧ amountPattern i.amount = true
  swap
  · exact ⟨_, serveBid_invalid h, truthful_iff_invalid h⟩
  cases hid : Uuid.input i.auctionID with
  | none => exact ⟨_, serveBid_unreadable h hid, truthful_iff_unreadable h hid⟩
  | some u =>
    cases hf : ms.select.world.db.find u with
    | none =>
      refine ⟨_, serveBid_missing h hid hf, truthful_iff_missing h ?_⟩
      simp only [Moments.row, hid, Option.bind_some, hf]
    | some x =>
      have hrow : ms.row ⟨i.auctionID, i.amount, uid⟩ = some x := by
        simp only [Moments.row, hid, Option.bind_some, hf]
      obtain ⟨c, hc⟩ := Option.isSome_iff_exists.mp (hreadable x hrow)
      obtain ⟨hscript, hrefused⟩ := serveBid_row ⟨i.auctionID, i.amount, uid⟩ h hid hf hc
      by_cases hadm : ms.admits x
      · exact ⟨_, hscript hadm, truthful_iff_script h hrow hadm⟩
      · exact ⟨_, hrefused hadm, truthful_iff_notBiddable h hrow hadm⟩

end

/-! ## A bid of 12.00 on the lot -/

/-- The body of the bid. -/
def lotBody : List UInt8 :=
  Base64Url.utf8 "\x7b\"AuctionID\":\"00000000-0000-0000-0000-000000000000\",\"Amount\":\"12.00\"\x7d".toList

/-- All calls at the epoch; the script finds the status key and no price. -/
def lotMoments (status : String) : Moments :=
  let m : Moment := ⟨lotAtTen.world, 0⟩
  { select := m, setNX := m, set := m
    eval := ⟨{ lotAtTen.world with
      redis := lotAtTen.world.redis.set 0 (statusKey (Uuid.ofDigit 0).text) status (.ms 1000) }, 0⟩ }

theorem lotBody_decodes : decode bidFields .empty lotBody = some ⟨(Uuid.ofDigit 0).text, "12.00"⟩ := by
  decide +kernel

theorem lotMoments_row (status : String) : (lotMoments status).row (lotBid "12.00" 1) =
    some (lot ten (by decide)) := by
  simp only [Moments.row, lotBid, Uuid.input_text, Option.bind_some]
  exact (opening_begins ten (by decide)).row

theorem answer_truthful_iff_lot : ∃ a,
    bidHandler decimalEngines (some (Uuid.ofDigit 1).text) lotBody (lotMoments "ACTIVE") = .answered a ∧
    (Truthful decimalEngines (lotBid "12.00" 1) (lotMoments "ACTIVE") a ↔
      Informed decimalEngines (lotBid "12.00" 1) (lotMoments "ACTIVE")) := by
  refine answer_truthful_iff lotBody_decodes fun x hx => ?_
  have hrow := lotMoments_row "ACTIVE"
  unfold lotBid at hrow
  rw [hrow] at hx
  cases hx
  rfl

/-- The law fails when the settlement has written CLOSED before the script runs: the answer
is 409 BID_TOO_LOW, with CLOSED as the price. -/
theorem answer_truthful_fails :
    ¬ ∀ (E : Engines) (uid : String) (body : List UInt8) (i : BidInput) (ms : Moments) (a : Answer),
      decode bidFields .empty body = some i →
      (∀ x, ms.row ⟨i.auctionID, i.amount, uid⟩ = some x → x.currentHighPrice.isSome = true) →
      bidHandler E (some uid) body ms = .answered a → Truthful E ⟨i.auctionID, i.amount, uid⟩ ms a := by
  intro h
  have hrow := lotMoments_row "CLOSED"
  have hanswer : bidHandler decimalEngines (some (Uuid.ofDigit 1).text) lotBody (lotMoments "CLOSED") =
      .answered (tooLow (lotBid "12.00" 1) "CLOSED") := by
    decide +kernel
  have htrue := h decimalEngines _ lotBody _ (lotMoments "CLOSED") _ lotBody_decodes (fun x hx => by
    unfold lotBid at hrow
    rw [hrow] at hx
    cases hx
    rfl) hanswer
  have hgood : ¬ Malformed (lotBid "12.00" 1) := by
    rintro (hbad | hbad | hbad)
    · revert hbad
      decide +kernel
    · rw [lotBid, Uuid.input_text] at hbad
      cases hbad
    · exact hbad ⟨1200, by decide, by decide, by decide⟩
  have hclosed : (lotMoments "CLOSED").NotBiddable decimalEngines (lotBid "12.00" 1)
      (lot ten (by decide)) :=
    .inr (bidScript_closed_iff.mpr (by decide +kernel))
  have henv := (htrue.notBiddable hgood _ hrow).mpr hclosed
  revert henv
  decide

end Synora
