import Mathlib.Data.List.InsertIdx
import Synora.Terminal

/- When the terminal asks for a payment (AuctionTerminal.jsx, PaymentModal.jsx). The page
   stays mounted while the route goes from one auction to another, and the price, the
   deadline and the flag that the auction is closed stay with it. The modal opens once at
   most. Its price is one reported of the auction on screen if that is where the last price
   that the page took came from (`payment_priced`); but it may be the placeholder, or the
   price of the auction that was shown before (`payment_fails`).

   Correspondence (JavaScript ↔ Lean):
     `useParams()`, `id || '108'`                  ↔ `.navigate`
     `getAuction(…).then`, `.catch`                ↔ `.loaded`, `.loadFailed`
     `onPriceUpdate` of `connectAuctionStream`     ↔ `.update`
     `onChange`, the quick bids                    ↔ `.typed`, `.quick`
     `submitBid` up to and after `await placeBid`  ↔ `.submit`, `.answered`
     the interval                                  ↔ `.tick`
     `onClose` of the modal                        ↔ `.closeModal`
   Times are in milliseconds; a deadline that cannot be read is NaN, which like 0 is none.
   The messages, the clock and the tables read nothing that is not here. -/
namespace Synora

/-! ## The page -/

/-- What happened: a price was reported of an auction, and the page took it or not; or the modal
opened. -/
inductive PageEntry where
  | reported (auctionId price : String) (taken : Bool)
  | opened (auctionId winningBid : String)
  deriving DecidableEq

/-- `gets` are the GETs under way, each with the `mounted` of its effect, and `bids` the own bids,
each with the auction it was placed on. `log` is the history, newest first; no code reads it. -/
structure AuctionPage where
  auctionId : String
  signedIn : Bool
  amount : Digits
  currentBid : String
  deadline : Int
  auctionClosed : Bool
  showPaymentModal : Bool
  gets : List (String × Bool)
  bids : List (String × Digits)
  now : Int
  log : List PageEntry

def placeholder : String := "4296000"

/-- `id || '108'`. -/
def routeId (id : String) : String := if id = "" then "108" else id

/-- The page on opening. -/
def AuctionPage.opened (id : String) (signedIn : Bool) (now : Int) : AuctionPage where
  auctionId := routeId id
  signedIn := signedIn
  amount := .ofNat 4296500
  currentBid := placeholder
  deadline := 0
  auctionClosed := false
  showPaymentModal := false
  gets := [(routeId id, true)]
  bids := []
  now := now
  log := []

/-- The two members of an answer or frame that are read. -/
structure PriceReport where
  currentHighPrice : Option String
  endTime : Option Int

inductive PageEvent where
  | navigate (id : String)
  /-- The `i`-th GET is answered. -/
  | loaded (i : Nat) (report : PriceReport)
  | loadFailed (i : Nat)
  /-- A PRICE_UPDATE frame of any auction. -/
  | update (auctionId : String) (report : PriceReport)
  | typed (text : String)
  | quick (n : Nat)
  | submit
  /-- The `i`-th bid is answered with a status. -/
  | answered (i : Nat) (status : Nat)
  | tick
  | closeModal
  | wait (ms : Nat)

def PageEvent.isTick : PageEvent → Bool
  | .tick => true
  | _ => false

namespace AuctionPage

/-- A price is reported of an auction; if the page takes it, it shows it so. -/
def price (p : AuctionPage) (auctionId reported shown : String) (taken : Bool) : AuctionPage :=
  { p with
    currentBid := if taken then shown else p.currentBid
    log := .reported auctionId reported taken :: p.log }

/-- `if (price) setCurrentBid(String(price))`. -/
def readPrice (p : AuctionPage) (auctionId : String) (taken : Bool) : Option String → AuctionPage
  | none => p
  | some s => if s = "" then p else p.price auctionId s s taken

def readEnd (p : AuctionPage) (taken : Bool) : Option Int → AuctionPage
  | none => p
  | some t => { p with deadline := if taken then t else p.deadline }

/-- What is read of an answer or frame, and taken if it is the page's. -/
def read (p : AuctionPage) (auctionId : String) (taken : Bool) (report : PriceReport) : AuctionPage :=
  (p.readPrice auctionId taken report.currentHighPrice).readEnd taken report.endTime

/-- The effect of the old auction is cleaned up, and that of the new one runs. -/
def navigate (p : AuctionPage) (id : String) : AuctionPage :=
  if routeId id = p.auctionId then p
  else
    { p with
      auctionId := routeId id
      gets := p.gets.map (fun g => (g.1, false)) ++ [(routeId id, true)] }

/-- `next === 0 && !auctionClosed && currentBid`. -/
def closes (p : AuctionPage) : Bool :=
  decide (p.deadline ≤ p.now) && !p.auctionClosed && decide (p.currentBid ≠ "")

/-- There is an interval while there is a deadline. -/
def tick (p : AuctionPage) : Option AuctionPage :=
  if p.deadline = 0 then none
  else if p.closes then
    some { p with
      auctionClosed := true
      showPaymentModal := true
      log := .opened p.auctionId p.currentBid :: p.log }
  else some p

end AuctionPage

def pageStep (p : AuctionPage) : PageEvent → Option AuctionPage
  | .navigate id => some (p.navigate id)
  | .loaded i report => p.gets[i]?.map fun g => { p with gets := p.gets.eraseIdx i }.read g.1 g.2 report
  | .loadFailed i => p.gets[i]?.map fun _ => { p with gets := p.gets.eraseIdx i }
  | .update auctionId report =>
    if p.signedIn then some (p.read auctionId (decide (auctionId = p.auctionId)) report) else none
  | .typed text => some { p with amount := onlyDigits text }
  | .quick n => some { p with amount := .ofNat (jsNumber p.amount.text + n) }
  | .submit => some (if p.signedIn then { p with bids := p.bids ++ [(p.auctionId, p.amount)] } else p)
  | .answered i status =>
    p.bids[i]?.map fun b =>
      let p := { p with bids := p.bids.eraseIdx i }
      -- the closure shows the text of the field when it was submitted, whatever is on screen now
      if 200 ≤ status ∧ status ≤ 299 then p.price b.1 (toFixed2 (jsNumber b.2.text)) b.2.text true else p
  | .tick => p.tick
  | .closeModal => some { p with showPaymentModal := false }
  | .wait ms => some { p with now := p.now + ms }

/-- `winningBid || auction?.current_high_price || 0`; the page passes no such price. -/
def amountToPay (winningBid : String) : String := if winningBid = "" then "0" else winningBid

/-! ## The history -/

/-- Two texts of one price. -/
def SameAmount (a b : String) : Prop := a = b ∨ decimal a ≠ none ∧ decimal a = decimal b

/-- The auction and price of the last report that the page took. -/
def lastTaken : List PageEntry → Option (String × String)
  | [] => none
  | .reported auctionId price taken :: log => if taken then some (auctionId, price) else lastTaken log
  | .opened _ _ :: log => lastTaken log

/-- How often the modal has opened. -/
def openings : List PageEntry → Nat
  | [] => 0
  | .reported _ _ _ :: log => openings log
  | .opened _ _ :: log => openings log + 1

/-- The price was reported of the auction. -/
def Reported (log : List PageEntry) (auctionId winningBid : String) : Prop :=
  ∃ price taken, .reported auctionId price taken ∈ log ∧ SameAmount winningBid price

/-- **What is asked**: whenever the modal opens, a price reported of the auction on screen; and
it opens once at most. -/
structure Payments (log : List PageEntry) : Prop where
  reported : ∀ auctionId winningBid l, .opened auctionId winningBid :: l <:+ log →
    Reported l auctionId winningBid
  once : openings log ≤ 1

theorem SameAmount.refl (a : String) : SameAmount a a := .inl rfl

/-- A bid of the page is shown as the number it was placed at. -/
theorem sameAmount_placed (d : Digits) : SameAmount d.text (toFixed2 (jsNumber d.text)) := by
  refine .inr ⟨?_, decimal_placed d⟩
  rw [decimal_digits]
  exact Option.some_ne_none _

theorem mem_of_lastTaken {log : List PageEntry} {auctionId price : String}
    (h : lastTaken log = some (auctionId, price)) : .reported auctionId price true ∈ log := by
  induction log with
  | nil => cases h
  | cons e log ih =>
    cases e with
    | reported a p taken =>
      cases taken with
      | true =>
        cases h
        exact List.mem_cons_self
      | false => exact List.mem_cons_of_mem _ (ih h)
    | opened a w => exact List.mem_cons_of_mem _ (ih h)

theorem Payments.report {log : List PageEntry} (h : Payments log) (auctionId price : String)
    (taken : Bool) : Payments (.reported auctionId price taken :: log) where
  reported id w l hl := by
    rcases List.suffix_cons_iff.mp hl with heq | hl
    · cases (List.cons.inj heq).1
    · exact h.reported id w l hl
  once := h.once

theorem Payments.open {log : List PageEntry} {auctionId winningBid : String} (h : Payments log)
    (hfirst : openings log = 0) (hreported : Reported log auctionId winningBid) :
    Payments (.opened auctionId winningBid :: log) where
  reported id w l hl := by
    rcases List.suffix_cons_iff.mp hl with heq | hl
    · obtain ⟨hopened, rfl⟩ := List.cons.inj heq
      obtain ⟨rfl, rfl⟩ := PageEntry.opened.inj hopened
      exact hreported
    · exact h.reported id w l hl
  once := by
    show openings log + 1 ≤ 1
    rw [hfirst]

/-! ## The invariant -/

/-- The price shown is the last one taken, or the placeholder; and before the flag is set, the modal
has not opened. -/
structure AuctionPage.Shows (p : AuctionPage) : Prop where
  last : ∀ auctionId price, lastTaken p.log = some (auctionId, price) → SameAmount p.currentBid price
  placeholder : lastTaken p.log = none → p.currentBid = placeholder
  unopened : p.auctionClosed = false → openings p.log = 0
  hidden : p.auctionClosed = false → p.showPaymentModal = false

theorem shows_opened (id : String) (signedIn : Bool) (now : Int) :
    (AuctionPage.opened id signedIn now).Shows where
  last _ _ h := by cases h
  placeholder _ := rfl
  unopened _ := rfl
  hidden _ := rfl

section
variable {p p' : AuctionPage}

/-- The history, the price shown and the flag stay, and no modal appears. -/
structure SameShown (p p' : AuctionPage) : Prop where
  log : p'.log = p.log
  currentBid : p'.currentBid = p.currentBid
  auctionClosed : p'.auctionClosed = p.auctionClosed
  modal : p'.showPaymentModal = true → p.showPaymentModal = true

/-- One price is reported; if it is taken, then it is shown. -/
structure Prices (p p' : AuctionPage) (auctionId reported shown : String) (taken : Bool) : Prop where
  log : p'.log = .reported auctionId reported taken :: p.log
  currentBid : p'.currentBid = if taken then shown else p.currentBid
  auctionClosed : p'.auctionClosed = p.auctionClosed
  modal : p'.showPaymentModal = true → p.showPaymentModal = true
  same : SameAmount shown reported

/-- **What a step does**: nothing to what is shown, or a report, or it opens the modal. -/
inductive PageMove (p p' : AuctionPage) (e : PageEvent) : Prop
  | stays (same : SameShown p p')
  | reports (auctionId reported shown : String) (taken : Bool)
      (prices : Prices p p' auctionId reported shown taken)
  | opens (isTick : e.isTick = true) (closes : p.closes = true)
      (log : p'.log = .opened p.auctionId p.currentBid :: p.log) (currentBid : p'.currentBid = p.currentBid)
      (auctionClosed : p'.auctionClosed = true) (modal : p'.showPaymentModal = true)

theorem PageMove.same {e : PageEvent} {q : AuctionPage} (h : PageMove p q e) (hlog : p'.log = q.log)
    (hbid : p'.currentBid = q.currentBid) (hclosed : p'.auctionClosed = q.auctionClosed)
    (hmodal : p'.showPaymentModal = q.showPaymentModal) : PageMove p p' e := by
  cases h with
  | stays same =>
    obtain ⟨log, bid, closed, modal⟩ := same
    exact .stays ⟨hlog.trans log, hbid.trans bid, hclosed.trans closed, fun h => modal (hmodal ▸ h)⟩
  | reports auctionId reported shown taken prices =>
    obtain ⟨log, bid, closed, modal, same⟩ := prices
    exact .reports auctionId reported shown taken
      ⟨hlog.trans log, hbid.trans bid, hclosed.trans closed, fun h => modal (hmodal ▸ h), same⟩
  | opens isTick closes log bid closed modal =>
    exact .opens isTick closes (hlog.trans log) (hbid.trans bid) (hclosed.trans closed) (hmodal.trans modal)

/-- An answer or frame is one price, or none. -/
theorem read_move (e : PageEvent) {q : AuctionPage} (hq : SameShown p q) (auctionId : String)
    (taken : Bool) (report : PriceReport) : PageMove p (q.read auctionId taken report) e := by
  have hprice : PageMove p (q.readPrice auctionId taken report.currentHighPrice) e := by
    cases report.currentHighPrice with
    | none => exact .stays hq
    | some s =>
      show PageMove p (if s = "" then q else q.price auctionId s s taken) e
      split
      · exact .stays hq
      · refine .reports auctionId s s taken ⟨?_, ?_, hq.auctionClosed, hq.modal, .refl s⟩
        · show PageEntry.reported auctionId s taken :: q.log = _
          rw [hq.log]
        · show (if taken then s else q.currentBid) = _
          rw [hq.currentBid]
  unfold AuctionPage.read
  cases report.endTime <;> exact hprice.same rfl rfl rfl rfl

theorem pageStep_move {e : PageEvent} (hst : pageStep p e = some p') : PageMove p p' e := by
  cases e with
  | navigate route =>
    cases hst
    apply PageMove.stays
    unfold AuctionPage.navigate
    split <;> exact ⟨rfl, rfl, rfl, id⟩
  | loaded i report =>
    obtain ⟨g, -, rfl⟩ := Option.map_eq_some_iff.mp hst
    exact read_move (p := p) _ (q := { p with gets := p.gets.eraseIdx i }) ⟨rfl, rfl, rfl, id⟩ g.1 g.2 report
  | loadFailed i =>
    obtain ⟨g, -, rfl⟩ := Option.map_eq_some_iff.mp hst
    exact .stays ⟨rfl, rfl, rfl, id⟩
  | update auctionId report =>
    simp only [pageStep] at hst
    split at hst
    · cases hst
      exact read_move _ ⟨rfl, rfl, rfl, id⟩ auctionId _ report
    · cases hst
  | typed text =>
    cases hst
    exact .stays ⟨rfl, rfl, rfl, id⟩
  | quick n =>
    cases hst
    exact .stays ⟨rfl, rfl, rfl, id⟩
  | submit =>
    cases hst
    apply PageMove.stays
    split <;> exact ⟨rfl, rfl, rfl, id⟩
  | answered i status =>
    obtain ⟨b, -, rfl⟩ := Option.map_eq_some_iff.mp hst
    dsimp only
    split
    · exact .reports b.1 _ b.2.text true ⟨rfl, rfl, rfl, id, sameAmount_placed b.2⟩
    · exact .stays ⟨rfl, rfl, rfl, id⟩
  | tick =>
    simp only [pageStep, AuctionPage.tick] at hst
    split at hst
    · cases hst
    · split at hst
      · next hcloses =>
        cases hst
        exact .opens rfl hcloses rfl rfl rfl rfl
      · cases hst
        exact .stays ⟨rfl, rfl, rfl, id⟩
  | closeModal =>
    cases hst
    exact .stays ⟨rfl, rfl, rfl, fun h => by cases h⟩
  | wait ms =>
    cases hst
    exact .stays ⟨rfl, rfl, rfl, id⟩

theorem AuctionPage.Shows.step {e : PageEvent} (h : p.Shows) (hst : pageStep p e = some p') : p'.Shows := by
  have hhidden : p'.auctionClosed = p.auctionClosed →
      (p'.showPaymentModal = true → p.showPaymentModal = true) →
      p'.auctionClosed = false → p'.showPaymentModal = false := by
    intro hclosed hmodal hopen
    apply Bool.eq_false_iff.mpr
    intro hshown
    have hhid := h.hidden (hclosed ▸ hopen)
    rw [hmodal hshown] at hhid
    cases hhid
  cases pageStep_move hst with
  | stays same =>
    obtain ⟨hlog, hbid, hclosed, hmodal⟩ := same
    exact {
      last := by
        rw [hlog, hbid]
        exact h.last
      placeholder := by
        rw [hlog, hbid]
        exact h.placeholder
      unopened := by
        rw [hlog, hclosed]
        exact h.unopened
      hidden := hhidden hclosed hmodal }
  | reports auctionId reported shown taken prices =>
    obtain ⟨hlog, hbid, hclosed, hmodal, hsame⟩ := prices
    have hunopened : p'.auctionClosed = false → openings p'.log = 0 := by
      rw [hlog, hclosed]
      exact h.unopened
    cases taken with
    | true =>
      refine ⟨fun id price hlast => ?_, fun hlast => ?_, hunopened, hhidden hclosed hmodal⟩
      · rw [hlog] at hlast
        cases hlast
        rw [hbid]
        exact hsame
      · rw [hlog] at hlast
        cases hlast
    | false =>
      refine ⟨fun id price hlast => ?_, fun hlast => ?_, hunopened, hhidden hclosed hmodal⟩
      · rw [hlog] at hlast
        rw [hbid]
        exact h.last id price hlast
      · rw [hlog] at hlast
        rw [hbid]
        exact h.placeholder hlast
  | opens isTick closes log bid closed modal =>
    refine ⟨fun id price hlast => ?_, fun hlast => ?_, fun hopen => ?_, fun hopen => ?_⟩
    · rw [log] at hlast
      rw [bid]
      exact h.last id price hlast
    · rw [log] at hlast
      rw [bid]
      exact h.placeholder hlast
    · rw [closed] at hopen
      cases hopen
    · rw [closed] at hopen
      cases hopen

/-- The auction on screen is not closed before, and the price that is asked is the one shown. -/
theorem closes_eq (hcloses : p.closes = true) :
    p.auctionClosed = false ∧ amountToPay p.currentBid = p.currentBid := by
  simp only [AuctionPage.closes, Bool.and_eq_true, Bool.not_eq_true', decide_eq_true_eq] at hcloses
  exact ⟨hcloses.1.2, if_neg hcloses.2⟩

/-- **The modal appears in the steps that the history has as openings**, and no others. -/
theorem modal_appears_iff {e : PageEvent} (h : p.Shows) (hst : pageStep p e = some p') :
    (p.showPaymentModal = false ∧ p'.showPaymentModal = true) ↔
      p'.log = .opened p.auctionId p.currentBid :: p.log := by
  cases pageStep_move hst with
  | stays same =>
    refine iff_of_false (fun ⟨hhid, hshown⟩ => ?_) fun hlog => ?_
    · rw [same.modal hshown] at hhid
      cases hhid
    · rw [same.log] at hlog
      exact List.cons_ne_self _ _ hlog.symm
  | reports auctionId reported shown taken prices =>
    refine iff_of_false (fun ⟨hhid, hshown⟩ => ?_) fun hlog => ?_
    · rw [prices.modal hshown] at hhid
      cases hhid
    · rw [prices.log] at hlog
      cases hlog
  | opens isTick closes log bid closed modal =>
    exact iff_of_true ⟨h.hidden (closes_eq closes).1, modal⟩ log

/-- When the modal is to open, the last price that the page took was of the auction on screen. -/
def PricedHere (p : AuctionPage) (e : PageEvent) : Prop :=
  e.isTick = true → p.closes = true → (lastTaken p.log).map Prod.fst = some p.auctionId

instance (p : AuctionPage) (e : PageEvent) : Decidable (PricedHere p e) :=
  inferInstanceAs (Decidable (_ → _ → _))

theorem Payments.step {e : PageEvent} (h : Payments p.log) (hshows : p.Shows) (hpriced : PricedHere p e)
    (hst : pageStep p e = some p') : Payments p'.log := by
  cases pageStep_move hst with
  | stays same =>
    rw [same.log]
    exact h
  | reports auctionId reported shown taken prices =>
    rw [prices.log]
    exact h.report auctionId reported taken
  | opens isTick closes log bid closed modal =>
    rw [log]
    apply h.open (hshows.unopened (closes_eq closes).1)
    -- the report that the price shown came from
    obtain ⟨last, hlast, hid⟩ := Option.map_eq_some_iff.mp (hpriced isTick closes)
    obtain ⟨id, price⟩ := last
    obtain rfl : id = p.auctionId := hid
    exact ⟨price, true, mem_of_lastTaken hlast, hshows.last _ price hlast⟩

/-- Otherwise it asks for the placeholder, or for a price of another auction. -/
theorem leftover_asked {e : PageEvent} (h : p.Shows) (hpriced : ¬ PricedHere p e) :
    (lastTaken p.log = none ∧ p.currentBid = placeholder) ∨
      ∃ auctionId price, lastTaken p.log = some (auctionId, price) ∧ auctionId ≠ p.auctionId ∧
        SameAmount p.currentBid price := by
  cases hlast : lastTaken p.log with
  | none => exact .inl ⟨rfl, h.placeholder hlast⟩
  | some last =>
    obtain ⟨id, price⟩ := last
    refine .inr ⟨id, price, rfl, fun hid => hpriced fun _ _ => ?_, h.last id price hlast⟩
    rw [hlast, Option.map_some, hid]

end

/-- **A price of the auction on screen is asked for, and once**, in every run in which the last
price taken before the modal opens is of that auction. -/
theorem payment_priced {id : String} {signedIn : Bool} {now : Int} {es : List PageEvent} {p : AuctionPage}
    (hpriced : Steps.Along pageStep PricedHere (AuctionPage.opened id signedIn now) es)
    (hrun : Steps.run pageStep (AuctionPage.opened id signedIn now) es = some p) : Payments p.log := by
  have hstart : (AuctionPage.opened id signedIn now).Shows ∧
      Payments (AuctionPage.opened id signedIn now).log :=
    ⟨shows_opened id signedIn now,
      { reported := fun _ _ _ hl => absurd (List.suffix_nil.mp hl) (List.cons_ne_nil _ _)
        once := Nat.zero_le 1 }⟩
  have hend := Steps.run_invariant (I := fun q : AuctionPage => q.Shows ∧ Payments q.log)
    (fun _ _ _ hI hC hst => ⟨hI.1.step hst, hI.2.step hI.1 hC hst⟩) hstart hpriced hrun
  exact hend.2

/-- The GET has a price, and the auction ends. -/
def pricedEnd : List PageEvent := [.loaded 0 ⟨some "12.00", some 5000⟩, .wait 6000, .tick]

theorem payment_priced_end : ∃ p, Steps.run pageStep (AuctionPage.opened "lot" true 0) pricedEnd = some p ∧
    p.log = [.opened "lot" "12.00", .reported "lot" "12.00" true] ∧ Payments p.log := by
  obtain ⟨p, hrun, hlog⟩ := Steps.exists_of_check pageStep (AuctionPage.opened "lot" true 0) pricedEnd
    (fun p => decide (p.log = [.opened "lot" "12.00", .reported "lot" "12.00" true])) (by decide +kernel)
  exact ⟨p, hrun, of_decide_eq_true hlog,
    payment_priced (Steps.along_of_check pageStep PricedHere _ _ (by decide +kernel)) hrun⟩

/-- The lot on screen ends at once, but the price is that of the one shown before. -/
example : ((Steps.run pageStep (AuctionPage.opened "other" true 6000)
    [.loaded 0 ⟨some "99.00", none⟩, .navigate "lot", .loaded 0 ⟨none, some 5000⟩, .tick]).map
      fun p => p.log) = some [.opened "lot" "99.00", .reported "other" "99.00" true] := by
  decide +kernel

/-- The law fails when the GET has no price, and the auction has ended: the modal asks for the
placeholder. -/
theorem payment_fails : ¬ ∀ (id : String) (signedIn : Bool) (now : Int) (es : List PageEvent) (p : AuctionPage),
    Steps.run pageStep (AuctionPage.opened id signedIn now) es = some p → Payments p.log := by
  intro h
  obtain ⟨p, hrun, hlog⟩ := Steps.exists_of_check pageStep (AuctionPage.opened "lot" true 6000)
    [.loaded 0 ⟨none, some 5000⟩, .tick]
    (fun p => decide (p.log = [.opened "lot" "4296000"])) (by decide +kernel)
  have hpayments := h "lot" true 6000 _ p hrun
  rw [of_decide_eq_true hlog] at hpayments
  obtain ⟨price, taken, hmem, -⟩ := hpayments.reported "lot" "4296000" [] (List.suffix_refl _)
  cases hmem

/-! ## One auction -/

/-- The prices that the page took. -/
def takenPrices : List PageEntry → List String
  | [] => []
  | .reported _ price taken :: log => if taken then price :: takenPrices log else takenPrices log
  | .opened _ _ :: log => takenPrices log

/-- What a terminal of one auction has of the page. -/
def AuctionPage.terminal (p : AuctionPage) : Terminal where
  auctionId := p.auctionId
  signedIn := p.signedIn
  amount := p.amount
  currentBid := p.currentBid
  loading := !p.gets.isEmpty
  inFlight := p.bids.map Prod.snd
  observed := takenPrices p.log

def PageEvent.terminal : PageEvent → List TerminalEvent
  | .loaded _ report => [.loaded report.currentHighPrice]
  | .loadFailed _ => [.loadFailed]
  | .update auctionId report => [.update auctionId report.currentHighPrice]
  | .typed text => [.typed text]
  | .quick n => [.quick n]
  | .submit => [.submit]
  | .answered i status => [.answered i status]
  | .navigate _ | .tick | .closeModal | .wait _ => []

/-- The route leads to the auction on screen, so that nothing changes. -/
def Stays (id : String) : PageEvent → Prop
  | .navigate other => routeId other = routeId id
  | _ => True

/-- The one GET of the auction, while it is under way. -/
structure AuctionPage.OneAuction (p : AuctionPage) (id : String) : Prop where
  auctionId : p.auctionId = routeId id
  gets : p.gets = [] ∨ p.gets = [(routeId id, true)]

theorem price_terminal (p : AuctionPage) (auctionId reported shown : String) :
    (p.price auctionId reported shown true).terminal =
      { p.terminal with currentBid := shown, observed := reported :: p.terminal.observed } := rfl

theorem read_terminal (p : AuctionPage) (auctionId : String) (taken : Bool) (report : PriceReport) :
    (p.read auctionId taken report).terminal =
      if taken then p.terminal.observe report.currentHighPrice else p.terminal := by
  have hend : ∀ q : AuctionPage, (q.readEnd taken report.endTime).terminal = q.terminal := by
    intro q
    cases report.endTime <;> rfl
  unfold AuctionPage.read
  rw [hend]
  cases report.currentHighPrice with
  | none =>
    show p.terminal = if taken then p.terminal else p.terminal
    rw [ite_self]
  | some price =>
    simp only [AuctionPage.readPrice, Terminal.observe]
    split
    · rw [ite_self]
    · cases taken <;> rfl

theorem read_oneAuction {p : AuctionPage} {id : String} (h : p.OneAuction id) (auctionId : String)
    (taken : Bool) (report : PriceReport) : (p.read auctionId taken report).OneAuction id := by
  have hprice : (p.readPrice auctionId taken report.currentHighPrice).OneAuction id := by
    cases report.currentHighPrice with
    | none => exact h
    | some price =>
      show (if price = "" then p else p.price auctionId price price taken).OneAuction id
      split
      · exact h
      · exact ⟨h.auctionId, h.gets⟩
  unfold AuctionPage.read
  cases report.endTime with
  | none => exact hprice
  | some t => exact ⟨hprice.auctionId, hprice.gets⟩

/-- A GET that is under way is the only one. -/
theorem AuctionPage.OneAuction.get {p : AuctionPage} {id : String} (h : p.OneAuction id) {i : Nat}
    {g : String × Bool} (hg : p.gets[i]? = some g) :
    g = (routeId id, true) ∧ p.gets.isEmpty = false ∧ p.gets.eraseIdx i = [] := by
  rcases h.gets with hnone | hone
  · rw [hnone] at hg
    cases hg
  · rw [hone] at hg ⊢
    cases i with
    | zero =>
      cases hg
      exact ⟨rfl, rfl, rfl⟩
    | succ i => cases hg

theorem pageStep_terminal {p p' : AuctionPage} {e : PageEvent} {id : String} (h : p.OneAuction id)
    (hstays : Stays id e) (hst : pageStep p e = some p') :
    p'.OneAuction id ∧ Steps.run terminalStep p.terminal e.terminal = some p'.terminal := by
  cases e with
  | navigate other =>
    cases hst
    have hsame : p.navigate other = p := if_pos (Eq.trans hstays h.auctionId.symm)
    rw [hsame]
    exact ⟨h, rfl⟩
  | loaded i report =>
    obtain ⟨g, hg, rfl⟩ := Option.map_eq_some_iff.mp hst
    obtain ⟨rfl, hloading, hend⟩ := h.get hg
    rw [hend]
    refine ⟨read_oneAuction (p := { p with gets := [] }) ⟨h.auctionId, .inl rfl⟩ _ _ report, ?_⟩
    rw [read_terminal, if_pos rfl]
    have hstep : terminalStep p.terminal (.loaded report.currentHighPrice) =
        some (Terminal.observe { p.terminal with loading := false } report.currentHighPrice) :=
      if_pos (congrArg not hloading)
    exact Steps.run_cons.mpr ⟨_, hstep, rfl⟩
  | loadFailed i =>
    obtain ⟨g, hg, rfl⟩ := Option.map_eq_some_iff.mp hst
    obtain ⟨-, hloading, hend⟩ := h.get hg
    rw [hend]
    refine ⟨⟨h.auctionId, .inl rfl⟩, ?_⟩
    have hstep : terminalStep p.terminal .loadFailed = some { p.terminal with loading := false } :=
      if_pos (congrArg not hloading)
    exact Steps.run_cons.mpr ⟨_, hstep, rfl⟩
  | update auctionId report =>
    simp only [pageStep] at hst
    split at hst
    · next hsigned =>
      cases hst
      refine ⟨read_oneAuction h auctionId _ report, ?_⟩
      rw [read_terminal]
      simp only [decide_eq_true_eq]
      have hstep : terminalStep p.terminal (.update auctionId report.currentHighPrice) =
          some (if auctionId = p.auctionId then p.terminal.observe report.currentHighPrice
            else p.terminal) := if_pos hsigned
      exact Steps.run_cons.mpr ⟨_, hstep, rfl⟩
    · cases hst
  | typed text =>
    cases hst
    exact ⟨⟨h.auctionId, h.gets⟩, rfl⟩
  | quick n =>
    cases hst
    exact ⟨⟨h.auctionId, h.gets⟩, rfl⟩
  | submit =>
    cases hst
    have hstep : terminalStep p.terminal .submit = some (if p.signedIn then
        { p.terminal with inFlight := p.terminal.inFlight ++ [p.amount] } else p.terminal) := rfl
    refine ⟨?_, Steps.run_cons.mpr ⟨_, hstep, ?_⟩⟩
    · split
      · exact ⟨h.auctionId, h.gets⟩
      · exact h
    · rw [apply_ite AuctionPage.terminal]
      have hbids : ({ p with bids := p.bids ++ [(p.auctionId, p.amount)] } : AuctionPage).terminal =
          { p.terminal with inFlight := p.terminal.inFlight ++ [p.amount] } :=
        congrArg (fun bids => { p.terminal with inFlight := bids }) List.map_append
      rw [hbids]
      rfl
  | answered i status =>
    obtain ⟨b, hb, rfl⟩ := Option.map_eq_some_iff.mp hst
    have hamount : p.terminal.inFlight[i]? = some b.2 := by
      show (p.bids.map Prod.snd)[i]? = some b.2
      rw [List.getElem?_map, hb, Option.map_some]
    have hbids : ({ p with bids := p.bids.eraseIdx i } : AuctionPage).terminal =
        { p.terminal with inFlight := p.terminal.inFlight.eraseIdx i } :=
      congrArg (fun bids => { p.terminal with inFlight := bids }) (List.eraseIdx_map _ _ _).symm
    dsimp only
    split
    · next hok =>
      refine ⟨⟨h.auctionId, h.gets⟩, ?_⟩
      rw [price_terminal, hbids]
      simp only [PageEvent.terminal, Steps.run, terminalStep, hamount, if_pos hok]
      rfl
    · next hok =>
      refine ⟨⟨h.auctionId, h.gets⟩, ?_⟩
      rw [hbids]
      simp only [PageEvent.terminal, Steps.run, terminalStep, hamount, if_neg hok]
      rfl
  | tick =>
    simp only [pageStep, AuctionPage.tick] at hst
    split at hst
    · cases hst
    · split at hst
      · cases hst
        exact ⟨⟨h.auctionId, h.gets⟩, rfl⟩
      · cases hst
        exact ⟨⟨h.auctionId, h.gets⟩, rfl⟩
  | closeModal =>
    cases hst
    exact ⟨⟨h.auctionId, h.gets⟩, rfl⟩
  | wait ms =>
    cases hst
    exact ⟨⟨h.auctionId, h.gets⟩, rfl⟩

/-- **While the route stays, the page is the terminal of one auction.** -/
theorem page_terminal {id : String} {signedIn : Bool} {now : Int} {es : List PageEvent} {p : AuctionPage}
    (hstays : ∀ e ∈ es, Stays id e)
    (hrun : Steps.run pageStep (AuctionPage.opened id signedIn now) es = some p) :
    Steps.run terminalStep (Terminal.opened (routeId id) signedIn) (es.flatMap PageEvent.terminal) =
      some p.terminal :=
  Steps.run_simulates AuctionPage.terminal PageEvent.terminal
    (fun _ _ _ hI hC hst => pageStep_terminal hI hC hst) ⟨rfl, .inr rfl⟩ hstays hrun

end Synora
