import Synora.Client
import Synora.Lib.Steps

/- The price an open AuctionTerminal shows (AuctionTerminal.jsx). Three sources write
   `currentBid`: the answer to the GET sent on opening, the PRICE_UPDATE frames of the
   stream, and the user's own bids once they are answered. Each overwrites what is there.

   Correspondence (JavaScript ↔ Lean):
     `getAuction(…).then`, `.catch`                     ↔ `.loaded`, `.loadFailed`
     `onPriceUpdate` of `connectAuctionStream`          ↔ `.update`
     `onChange`, the quick bids                         ↔ `.typed`, `.quick`
     `submitBid` up to and after `await placeBid(…)`    ↔ `.submit`, `.answered`
   The deadline, the messages and the rest of the page read no price but the one shown.
   A sum above 2^53 is exact here; no bid of that size is accepted. -/
namespace Synora

/-! ## Prices as JavaScript reads them -/

/-- A text of digits, as the bid field holds it. -/
structure Digits where
  text : String
  digits : ∀ c ∈ text.toList, c.isDigit = true
  deriving DecidableEq

/-- `value.replace(/\D/g, '')`. -/
def onlyDigits (s : String) : Digits where
  text := String.ofList (s.toList.filter Char.isDigit)
  digits c hc := by
    rw [String.toList_ofList] at hc
    exact (List.mem_filter.mp hc).2

/-- `String(n)` of a whole number. -/
def Digits.ofNat (n : Nat) : Digits where
  text := String.ofList (Nat.toDigits 10 n)
  digits c hc := by
    rw [String.toList_ofList] at hc
    exact isDigit_toDigits n c hc

/-- `Number(s)` of a decimal text without sign and exponent; the empty text is zero. -/
def decimal (s : String) : Option ℚ :=
  let whole := s.toList.takeWhile Char.isDigit
  match s.toList.dropWhile Char.isDigit with
  | [] => some (Nat.ofDigitChars 10 whole 0)
  | '.' :: frac =>
    if frac.all Char.isDigit = true ∧ whole ++ frac ≠ [] then
      some (Nat.ofDigitChars 10 (whole ++ frac) 0 / 10 ^ frac.length)
    else none
  | _ => none

theorem decimal_digits (d : Digits) : decimal d.text = some (jsNumber d.text : ℚ) := by
  have hwhole : d.text.toList.takeWhile Char.isDigit = d.text.toList :=
    List.takeWhile_eq_self_iff.mpr d.digits
  have hrest : d.text.toList.dropWhile Char.isDigit = [] := List.dropWhile_eq_nil_iff.mpr d.digits
  simp only [decimal, hwhole, hrest, jsNumber]

theorem decimal_toFixed2 (n : Nat) : decimal (toFixed2 n) = some (n : ℚ) := by
  have hdot : Char.isDigit '.' = false := rfl
  obtain ⟨htake, hdrop⟩ := isDigit_append (isDigit_toDigits n) ['.', '0', '0']
  have hwhole : (toFixed2 n).toList.takeWhile Char.isDigit = Nat.toDigits 10 n := by
    simp [toFixed2, htake, hdot]
  have hrest : (toFixed2 n).toList.dropWhile Char.isDigit = ['.', '0', '0'] := by
    simp [toFixed2, hdrop, hdot]
  have hcents : Nat.ofDigitChars 10 (Nat.toDigits 10 n ++ ['0', '0']) 0 = 100 * n := by
    rw [Nat.ofDigitChars_append, Nat.ofDigitChars_ten_toDigits]
    simp [Nat.ofDigitChars]
    omega
  simp only [decimal, hwhole, hrest]
  rw [if_pos ⟨by decide, by simp⟩, hcents]
  congr 1
  push_cast
  norm_num

/-- The amount a bid of the terminal is placed at is the number in its field. -/
theorem decimal_placed (d : Digits) : decimal d.text = decimal (toFixed2 (jsNumber d.text)) := by
  rw [decimal_digits, decimal_toFixed2]

/-! ## The terminal -/

/-- `observed` is the history of the prices observed, newest first; no code reads it. -/
structure Terminal where
  auctionId : String
  signedIn : Bool
  amount : Digits
  currentBid : String
  loading : Bool
  inFlight : List Digits
  observed : List String

/-- The terminal on opening. -/
def Terminal.opened (auctionId : String) (signedIn : Bool) : Terminal where
  auctionId := auctionId
  signedIn := signedIn
  amount := .ofNat 4296500
  currentBid := "4296000"
  loading := true
  inFlight := []
  observed := []

inductive TerminalEvent where
  /-- The GET is answered, with current_high_price as it is or null. -/
  | loaded (currentHighPrice : Option String)
  | loadFailed
  /-- A PRICE_UPDATE frame of any auction. -/
  | update (auctionId : String) (currentHighPrice : Option String)
  | typed (text : String)
  | quick (n : Nat)
  | submit
  /-- The `i`-th bid in flight is answered with a status. -/
  | answered (i : Nat) (status : Nat)

/-- `if (price) setCurrentBid(String(price))`. -/
def Terminal.observe (t : Terminal) : Option String → Terminal
  | none => t
  | some p => if p = "" then t else { t with currentBid := p, observed := p :: t.observed }

def terminalStep (t : Terminal) : TerminalEvent → Option Terminal
  | .loaded price => if t.loading then some (({ t with loading := false } : Terminal).observe price) else none
  | .loadFailed => if t.loading then some { t with loading := false } else none
  | .update auctionId price =>
    if t.signedIn then some (if auctionId = t.auctionId then t.observe price else t) else none
  | .typed text => some { t with amount := onlyDigits text }
  | .quick n => some { t with amount := .ofNat (jsNumber t.amount.text + n) }
  | .submit => some (if t.signedIn then { t with inFlight := t.inFlight ++ [t.amount] } else t)
  | .answered i status =>
    match t.inFlight[i]? with
    | none => none
    | some amount =>
      let t := { t with inFlight := t.inFlight.eraseIdx i }
      -- the closure shows the text of the field when it was submitted, not what was sent
      some (if 200 ≤ status ∧ status ≤ 299 then
        { t with currentBid := amount.text, observed := toFixed2 (jsNumber amount.text) :: t.observed }
      else t)

/-! ## The greatest price -/

/-- A price that is numerically at least all of them. -/
def IsGreatest (price : String) (observed : List String) : Prop :=
  ∃ v, decimal price = some v ∧ ∀ p ∈ observed, ∃ x, decimal p = some x ∧ x ≤ v

instance (price : String) (observed : List String) : Decidable (IsGreatest price observed) :=
  decidable_of_iff
    ((decimal price).any (fun v => observed.all (fun p => (decimal p).any (fun x => decide (x ≤ v)))) = true) (by
      simp [IsGreatest, Option.any_eq_true])

/-- What is shown is numerically the maximum of the observed prices. -/
def ShowsGreatest (t : Terminal) : Prop :=
  (∃ p ∈ t.observed, decimal t.currentBid = decimal p) ∧ IsGreatest t.currentBid t.observed

/-- The last observed price is the greatest of all. -/
def LastIsGreatest (observed : List String) : Prop :=
  ∃ p ∈ observed.head?, IsGreatest p observed

/-- The price shown is the last one observed. -/
def ShowsLast (t : Terminal) : Prop := ∀ p ∈ t.observed.head?, decimal t.currentBid = decimal p

theorem ShowsLast.observe {t : Terminal} (h : ShowsLast t) (price : Option String) :
    ShowsLast (t.observe price) := by
  cases price with
  | none => exact h
  | some p =>
    simp only [Terminal.observe]
    split
    · exact h
    · intro q hq
      cases hq
      rfl

theorem ShowsLast.step {t t' : Terminal} {e : TerminalEvent} (h : ShowsLast t)
    (hst : terminalStep t e = some t') : ShowsLast t' := by
  cases e with
  | loaded price =>
    simp only [terminalStep] at hst
    split at hst
    · cases hst
      exact ShowsLast.observe (t := { t with loading := false }) h price
    · cases hst
  | loadFailed =>
    simp only [terminalStep] at hst
    split at hst
    · cases hst
      exact h
    · cases hst
  | update auctionId price =>
    simp only [terminalStep] at hst
    split at hst
    · cases hst
      split
      · exact h.observe price
      · exact h
    · cases hst
  | typed text =>
    cases hst
    exact h
  | quick n =>
    cases hst
    exact h
  | submit =>
    cases hst
    split
    · exact h
    · exact h
  | answered i status =>
    simp only [terminalStep] at hst
    split at hst
    · cases hst
    · rename_i amount hamount
      cases hst
      split
      · intro p hp
        cases hp
        exact decimal_placed amount
      · exact h

/-- **The terminal shows the greatest observed price exactly when the last one is the
greatest**, for every order in which the answers and frames may come. -/
theorem shows_greatest_iff {auctionId : String} {signedIn : Bool} {t : Terminal}
    {es : List TerminalEvent}
    (hrun : Steps.run terminalStep (Terminal.opened auctionId signedIn) es = some t) :
    ShowsGreatest t ↔ LastIsGreatest t.observed := by
  have hstart : ShowsLast (Terminal.opened auctionId signedIn) := by
    intro p hp
    cases hp
  have hlast : ShowsLast t :=
    Steps.reach_invariant (I := ShowsLast) (fun _ _ _ hI _ hst => hI.step hst) hstart
      (Steps.reach_run hrun)
  constructor
  · rintro ⟨⟨p, hp, -⟩, v, hv, hall⟩
    cases hobs : t.observed with
    | nil =>
      rw [hobs] at hp
      cases hp
    | cons q rest =>
      have hq := hlast q (by rw [hobs]; rfl)
      rw [hobs] at hall
      exact ⟨q, rfl, v, hq ▸ hv, hall⟩
  · rintro ⟨p, hp, v, hv, hall⟩
    have hshown := hlast p hp
    exact ⟨⟨p, List.mem_of_head? hp, hshown⟩, v, hshown.trans hv, hall⟩

/-- The GET is answered 12.00, then two frames come, the user's bid of 20 is answered. -/
def inOrder : List TerminalEvent :=
  [.loaded (some "12.00"), .update "lot" (some "15.00"), .typed "20", .submit,
    .update "other" (some "99.00"), .answered 0 201]

theorem shows_greatest_iff_inOrder : ∃ t,
    Steps.run terminalStep (Terminal.opened "lot" true) inOrder = some t ∧
    (ShowsGreatest t ↔ LastIsGreatest t.observed) ∧ t.currentBid = "20" := by
  obtain ⟨t, hrun, hcheck⟩ := Steps.exists_of_check terminalStep (Terminal.opened "lot" true) inOrder
    (fun t => decide (t.currentBid = "20")) (by decide +kernel)
  exact ⟨t, hrun, shows_greatest_iff hrun, of_decide_eq_true hcheck⟩

/-- The law fails when the GET, which read the price first, is answered after the frame. -/
theorem shows_greatest_fails :
    ¬ ∀ (auctionId : String) (signedIn : Bool) (t : Terminal) (es : List TerminalEvent),
      Steps.run terminalStep (Terminal.opened auctionId signedIn) es = some t → t.observed ≠ [] →
      ShowsGreatest t := by
  intro h
  obtain ⟨t, hrun, hcheck⟩ := Steps.exists_of_check terminalStep (Terminal.opened "lot" true)
    [.update "lot" (some "15.00"), .loaded (some "12.00")]
    (fun t => decide (t.observed = ["12.00", "15.00"] ∧ ¬ IsGreatest t.currentBid t.observed))
    (by decide +kernel)
  obtain ⟨hobs, hnot⟩ := of_decide_eq_true hcheck
  exact hnot (h "lot" true t _ hrun (by rw [hobs]; exact List.cons_ne_nil _ _)).2

end Synora
