import Synora.Create
import Synora.Settle

/- The SETTLEMENT event of `Worker.settle` (worker.go), beside the row as committed and the
   status key. The status and the price of the event are variables of the worker, not
   columns read back. The status is always that of the row. The price is the text Redis
   had, also where the row keeps none: a price without a leader closes the auction, and
   the column stays as it was. So the event reports the row exactly when there was a leader
   and the columns took the two texts as they are, or the row had that price already
   (`event_reports_iff`).

   Correspondence (Go ↔ Lean):
     `w.Redis.Set(…, finalStatus, ttl)` after the commit  ↔ the command of `.caching`
     `w.Redis.Publish(…, payload)`                       ↔ the command of `.publishing`
     the payload                                         ↔ `Message.settlement` -/
namespace Synora

/-! ## What the worker sends -/

section
variable (E : Engines) (db : Db) (now : Int) (u : Uuid) («end» : Int) (price leader : Option String)

/-- The worker has committed, set the status key with `set` and published `event`. -/
def Announces (set event : Cmd) : Prop :=
  ∃ now₁ now₂ pc pc', settleResume now₁ ⟨u.text, «end»⟩ (.committing price leader)
      (.tx (settleTx E db now u.text price leader).2) = (pc, some set) ∧
    settleResume now₂ ⟨u.text, «end»⟩ pc .ok = (pc', some event)

variable {E db now u «end» price leader}

/-- **What the worker announces** is what the transaction left it with. -/
theorem announces_iff {set event : Cmd} : Announces E db now u «end» price leader set event ↔
    ∃ st ps wid now₁, (settleTx E db now u.text price leader).2 = .committed st ps wid ∧
      set = .set (statusKey u.text) st.label (redisTtl (settleTtl «end» now₁)) ∧
      event = .publish (updatesChannel u.text) (.settlement u.text st ps wid) := by
  constructor
  · rintro ⟨now₁, now₂, pc, pc', hset, hevent⟩
    cases ho : (settleTx E db now u.text price leader).2 with
    | committed st ps wid =>
      rw [ho] at hset
      cases hset
      cases hevent
      exact ⟨st, ps, wid, now₁, rfl, rfl, rfl⟩
    | skipped =>
      rw [ho] at hset
      cases hset
    | failed e =>
      rw [ho] at hset
      cases hset
  · rintro ⟨st, ps, wid, now₁, ho, rfl, rfl⟩
    refine ⟨now₁, now₁, .caching st ps wid, .publishing, ?_, rfl⟩
    rw [ho]
    rfl

end

/-! ## Reporting a row -/

section
-- when a text of the payload is the value of a column
variable (same : String → Numeric → Prop) (sameId : String → Uuid → Prop)

/-- A text of the payload, which is never null, is the value of the column. -/
def SamePrice (ps : String) : Option Numeric → Prop
  | none => False
  | some p => same ps p

/-- A winner of the payload, null for nil, is the value of the column. -/
def SameWinner : Option String → Option Uuid → Prop
  | none, none => True
  | some us, some w => sameId us w
  | _, _ => False

/-- The payload has the columns of the row. -/
structure Reports (st : AuctionStatus) (ps : String) (wid : Option String) (a : Auction) : Prop where
  status : st = a.status
  price : SamePrice same ps a.currentHighPrice
  winner : SameWinner sameId wid a.winnerId

/-- The columns took the texts of Redis as they are, or the row had that price already. -/
def Taken (E : Engines) (a : Auction) (price leader : Option String) : Prop :=
  match nonEmpty leader with
  | some us => ∀ ps p w, nonEmpty price = some ps → E.numericIn ps = some p →
      Uuid.input us = some w → same ps p ∧ sameId us w
  | none => SamePrice same ((nonEmpty price).getD "") a.currentHighPrice

/-- Only a SETTLED row has a winner. -/
theorem winnerId_closed {a : Auction} (h : a.status = .CLOSED) : a.winnerId = none := by
  cases hw : a.winnerId with
  | none => rfl
  | some w =>
    have hsettled := a.checks.winnerOnlyWhenSettled (by rw [hw]; rfl)
    rw [h] at hsettled
    cases hsettled

/-- **The payload against the committed row.** -/
theorem reports_iff {E : Engines} {db : Db} {now : Int} {u : Uuid} {price leader : Option String}
    {a : Auction} {st : AuctionStatus} {ps : String} {wid : Option String} (hf : db.find u = some a)
    (ho : (settleTx E db now u.text price leader).2 = .committed st ps wid) :
    ∃ a', (settleTx E db now u.text price leader).1.find u = some a' ∧ a'.status = st ∧
      (Reports same sameId st ps wid a' ↔ Taken same sameId E a price leader) := by
  rcases settleTx_cases E db now u.text price leader with
    ⟨e, he⟩ | ⟨he, -⟩ | ⟨v, b, hv, hb, hact, ⟨hl, hc, hr⟩ | ⟨ps', us, w, p, hps, hus, hw, hp, hc, hr⟩⟩
  · rw [he] at ho
    cases ho
  · rw [he] at ho
    cases ho
  · cases (Uuid.input_text u).symm.trans hv
    cases hf.symm.trans hb
    cases hc.symm.trans ho
    obtain ⟨a', hf', ha'⟩ := hr.row
    have hstatus : a'.status = .CLOSED := by rw [ha', AuctionRow.closed_status]
    have hprice : a'.currentHighPrice = a.currentHighPrice := by rw [ha']; rfl
    have hwinner := winnerId_closed hstatus
    refine ⟨a', hf', hstatus, ?_⟩
    rw [Taken, hl, ← hprice]
    refine ⟨fun h => h.price, fun h => ⟨hstatus.symm, h, ?_⟩⟩
    rw [hwinner]
    trivial
  · cases (Uuid.input_text u).symm.trans hv
    cases hf.symm.trans hb
    cases hc.symm.trans ho
    obtain ⟨a', hf', ha'⟩ := hr.row
    have hstatus : a'.status = .SETTLED := by rw [ha', AuctionRow.settled_status]
    have hprice : a'.currentHighPrice = some p := by rw [ha']; rfl
    have hwinner : a'.winnerId = some w := by rw [ha']; rfl
    refine ⟨a', hf', hstatus, ?_⟩
    rw [Taken, hus]
    constructor
    · intro h ps₁ p₁ w₁ hps₁ hp₁ hw₁
      cases hps.symm.trans hps₁
      cases hp.symm.trans hp₁
      cases hw.symm.trans hw₁
      exact ⟨by simpa [SamePrice, hprice] using h.price, by simpa [SameWinner, hwinner] using h.winner⟩
    · intro h
      obtain ⟨hsame, hid⟩ := h ps p w hps hp hw
      refine ⟨hstatus.symm, ?_, ?_⟩
      · rw [hprice]
        exact hsame
      · rw [hwinner]
        exact hid

/-- The event reports the row as committed, and the status key has its status. -/
def EventReports (E : Engines) (db : Db) (now : Int) (u : Uuid) («end» : Int)
    (price leader : Option String) : Prop :=
  ∀ set event, Announces E db now u «end» price leader set event →
    ∃ a st ps wid ttl, (settleTx E db now u.text price leader).1.find u = some a ∧
      set = .set (statusKey u.text) a.status.label ttl ∧
      event = .publish (updatesChannel u.text) (.settlement u.text st ps wid) ∧
      Reports same sameId st ps wid a

/-- **The event reports the row exactly when** the columns took the texts of Redis as they are:
whatever it means for a text to be the value of a column. -/
theorem event_reports_iff (E : Engines) (db : Db) (now : Int) (u : Uuid) («end» : Int)
    (price leader : Option String) : EventReports same sameId E db now u «end» price leader ↔
      ∀ a, db.find u = some a → a.status = .ACTIVE → a.createdAt ≤ now →
        Settleable E db.users a.startingPrice price leader → Taken same sameId E a price leader := by
  constructor
  · intro h a hf hact hnow hs
    obtain ⟨st, ps, wid, ho⟩ := (settleTx_commits_iff hf hact).mpr ⟨hnow, hs⟩
    obtain ⟨a₁, hf₁, -, hiff⟩ := reports_iff same sameId hf ho
    obtain ⟨a₂, st₂, ps₂, wid₂, ttl, hf₂, -, hevent, hreports⟩ :=
      h _ _ (announces_iff.mpr ⟨st, ps, wid, 0, ho, rfl, rfl⟩)
    cases hf₁.symm.trans hf₂
    cases hevent
    exact hiff.mp hreports
  · intro h set event hannounced
    obtain ⟨st, ps, wid, now₁, ho, rfl, rfl⟩ := announces_iff.mp hannounced
    rcases settleTx_cases E db now u.text price leader with
      ⟨e, he⟩ | ⟨he, -⟩ | ⟨v, a, hv, hf, hact, -⟩
    · rw [he] at ho
      cases ho
    · rw [he] at ho
      cases ho
    · cases (Uuid.input_text u).symm.trans hv
      obtain ⟨a', hf', hstatus, hiff⟩ := reports_iff same sameId hf ho
      obtain ⟨hnow, hs⟩ := (settleTx_commits_iff hf hact).mp ⟨st, ps, wid, ho⟩
      exact ⟨a', st, ps, wid, _, hf', by rw [hstatus], rfl, hiff.mpr (h a hf hact hnow hs)⟩

end

/-- An ACTIVE lot that nobody has bid enough for: Redis has its starting price, and no leader. -/
def unsold : Db := created decimalEngines noAuctions 0 (.ofDigit 1) ⟨"lot", none, "10.00", 1000, 2000, "ACTIVE"⟩

/-- The texts the service itself shows of the columns. -/
def ShownPrice (s : String) (p : Numeric) : Prop := s = p.text
def ShownId (s : String) (u : Uuid) : Prop := s = u.text

/-- The law fails: the event has the price `10.00`, the row none. -/
theorem event_reports_fails :
    ¬ ∀ (E : Engines) (db : Db) (now : Int) (u : Uuid) («end» : Int) (price leader : Option String),
      EventReports ShownPrice ShownId E db now u «end» price leader := by
  intro h
  have hcommitted : (settleTx decimalEngines unsold 0 (Uuid.ofDigit 1).text (some "10.00") none).2 =
      .committed .CLOSED "10.00" none := by decide +kernel
  have hnull : (((settleTx decimalEngines unsold 0 (Uuid.ofDigit 1).text (some "10.00") none).1.find
      (.ofDigit 1)).bind fun a => a.currentHighPrice) = none := by decide +kernel
  obtain ⟨a, st, ps, wid, ttl, hf, -, -, hreports⟩ := h decimalEngines unsold 0 (.ofDigit 1) 2 (some "10.00")
    none _ _ (announces_iff.mpr ⟨.CLOSED, "10.00", none, 0, hcommitted, rfl, rfl⟩)
  rw [hf, Option.bind_some] at hnull
  have hprice := hreports.price
  rw [hnull] at hprice
  exact hprice

end Synora
