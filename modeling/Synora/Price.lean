import Synora.Listing

/- The starting price of a new auction (handlers.go, `App.createAuction`). The handler
   only asks that the text is not empty; what is a number, the input of the column
   decides (schema.sql, `starting_price NUMERIC(12, 2)`), and it reads more than the
   prices of the contract. So a price that is none is stored, as the number the
   column made of it, exactly when that number is positive (`keeps_price_iff`).

   `isPrice` states the contract (rest-websocket-api-contract.md, "Create auction") and
   is not taken from the code. `postgresNumeric` is the input of the column for the
   forms the server documents: spaces around, signs, exponents, any number of
   fractional digits, which are rounded, and NaN. -/
namespace Synora

/-! ## Prices -/

/-- A decimal with exactly two fractional digits, positive and below `10^10`. -/
def isPrice (s : String) : Bool :=
  decide (s.toList.takeWhile Char.isDigit ≠ []) &&
    (match s.toList.dropWhile Char.isDigit with
    | ['.', a, b] => a.isDigit && b.isDigit
    | _ => false) &&
    decide (0 < amountCents s ∧ amountCents s < 10^12)

theorem isPrice_cents {s : String} (h : isPrice s = true) : 0 < amountCents s ∧ amountCents s < 10^12 := by
  simp only [isPrice, Bool.and_eq_true, decide_eq_true_eq] at h
  exact h.2

/-- The number of a price. -/
def priceNumeric (s : String) (h : isPrice s = true) : Numeric :=
  .cents (amountCents s) (by simpa using (isPrice_cents h).2)

/-- The column reads a price as its number. -/
def Engines.ReadsPrices (E : Engines) : Prop :=
  ∀ s (h : isPrice s = true), E.numericIn s = some (priceNumeric s h)

/-- Its text is a price again, of the same number. -/
theorem price_text {s : String} (h : isPrice s = true) : isPrice (priceNumeric s h).text = true ∧
    amountCents (priceNumeric s h).text = amountCents s := by
  obtain ⟨hpos, hlt⟩ := isPrice_cents h
  have htext : (priceNumeric s h).text = centsText (amountCents s) := by
    rw [priceNumeric, Numeric.text_positive (by omega), Int.natAbs_natCast]
  rw [htext, amountCents_centsText]
  refine ⟨?_, rfl⟩
  obtain ⟨htake, hdrop⟩ := isDigit_append (isDigit_toDigits (amountCents s / 100))
    ['.', Nat.digitChar (amountCents s / 10 % 10), Nat.digitChar (amountCents s % 10)]
  have hdot : Char.isDigit '.' = false := rfl
  unfold isPrice
  simp only [amountCents_centsText, centsText_toList, htake, hdrop, List.takeWhile_cons,
    List.dropWhile_cons, hdot, Bool.false_eq_true, if_false, List.append_nil, isDigit_digitChar_mod,
    Bool.and_self, Bool.and_true, Bool.and_eq_true, decide_eq_true_eq]
  exact ⟨Nat.toDigits_ne_nil, hpos, hlt⟩

/-! ## The request -/

/-- What the handler and the row ask of the other fields. -/
structure RestValid (db : Db) (id : Uuid) (input : AuctionInput) : Prop where
  title : trimSpace input.itemTitle ≠ ""
  titleNotBlank : notBlank (trimSpace input.itemTitle) = true
  titleText : isPgText input.itemTitle = true
  descriptionText : ∀ d ∈ input.description, isPgText d = true
  status : ∃ status, inputStatus input.status = some status
  startNotZero : input.startTime ≠ zeroTime
  endNotZero : input.endTime ≠ zeroTime
  endAfterStart : input.startTime / 1000 < input.endTime / 1000
  newId : id ∉ db.auctions.map (fun a => a.id)

/-- The text is not empty, and the column reads it as a positive number. -/
def ReadPositive (E : Engines) (s : String) (p : Numeric) : Prop :=
  s ≠ "" ∧ E.numericIn s = some p ∧ p.positive = true

theorem insertedRow_checks {now : Int} {id : Uuid} {input : AuctionInput} {p : Numeric}
    {status : AuctionStatus} (hstatus : inputStatus input.status = some status) :
    (insertedRow now id (trimSpace input.itemTitle) input.description p status input.startTime
        input.endTime).Checks ↔
      notBlank (trimSpace input.itemTitle) = true ∧ p.positive = true ∧
        input.startTime / 1000 < input.endTime / 1000 := by
  constructor
  · exact fun h => ⟨h.itemTitleNotBlank, h.startingPricePositive, h.endAfterStart⟩
  · rintro ⟨htitle, hp, horder⟩
    have hopen : status ≠ .SETTLED := by
      rcases inputStatus_open hstatus with rfl | rfl <;> decide
    exact {
      itemTitleNotBlank := htitle
      startingPricePositive := hp
      currentHighPriceValid := fun _ h => by cases h
      endAfterStart := horder
      updatedAtAfterCreatedAt := Int.le_refl _
      settlementStateConsistent := fun h => absurd h hopen
      winnerOnlyWhenSettled := fun h => by cases h }

/-- A created row has the number the column made of the price. -/
theorem created_price {E : Engines} {db db' : Db} {now : Int} {id : Uuid} {input : AuctionInput}
    {a : Auction} (h : createAuction E db now id true input = .ok (db', a)) :
    a ∈ db'.auctions ∧ ReadPositive E input.startingPrice a.startingPrice ∧ RestValid db id input := by
  obtain ⟨hauctions, -, -, -, -, hvalid⟩ := createAuction_ok h
  unfold createAuction at h
  rw [if_neg (by decide), hvalid, if_neg (by decide)] at h
  simp only [validFields, Bool.and_eq_true, decide_eq_true_eq] at hvalid
  obtain ⟨⟨⟨⟨htitle, hprice⟩, hend⟩, hstart⟩, -⟩ := hvalid
  split at h
  · cases h
  · next status hstatus =>
    split at h
    · next r hr =>
      cases h
      obtain ⟨hins, p, hp, hrow⟩ := insertAuction_ok hr
      have hchecks := a.checks
      rw [hrow] at hchecks
      obtain ⟨hblank, hpos, horder⟩ := (insertedRow_checks hstatus).mp hchecks
      have hnumber : a.startingPrice = p := by rw [hrow]; rfl
      have hid : a.id = id := by rw [hrow]; rfl
      refine ⟨hauctions ▸ List.mem_cons_self, ⟨hprice, hnumber ▸ hp, hnumber ▸ hpos⟩, ?_⟩
      unfold insertAuction at hr
      rw [hp] at hr
      simp only at hr
      split at hr
      · next htexts =>
        refine ⟨htitle, hblank, htexts.1, htexts.2, ⟨status, hstatus⟩, hstart, hend, horder, ?_⟩
        intro hmem
        unfold Db.insertAuction at hins
        rw [dif_pos (hid.symm ▸ hmem)] at hins
        cases hins
      · cases hr
    · cases h

/-- A request is answered with a new row if its price is read and its other fields are valid. -/
theorem created_of_read {E : Engines} {db : Db} (now : Int) {id : Uuid} {input : AuctionInput} {p : Numeric}
    (hread : ReadPositive E input.startingPrice p) (hrest : RestValid db id input) :
    ∃ db' a, createAuction E db now id true input = .ok (db', a) := by
  obtain ⟨hprice, hp, hpos⟩ := hread
  obtain ⟨status, hstatus⟩ := hrest.status
  have horder : input.startTime < input.endTime := by
    have := hrest.endAfterStart
    omega
  have hvalid : validFields input = true := by
    simp [validFields, hrest.title, hprice, hrest.endNotZero, hrest.startNotZero, horder]
  have hchecks : (insertedRow now id (trimSpace input.itemTitle) input.description p status
      input.startTime input.endTime).Checks := (insertedRow_checks hstatus).mpr
    ⟨hrest.titleNotBlank, hpos, hrest.endAfterStart⟩
  have hnoWinner : ∀ u ∈ (none : Option Uuid), u ∈ db.users := fun u hu => by cases hu
  refine ⟨{ db with
      auctions := ⟨_, hchecks⟩ :: db.auctions
      auctionsKey := List.nodup_cons.mpr ⟨hrest.newId, db.auctionsKey⟩
      winnerFk := fun r hr => (List.mem_cons.mp hr).elim (fun h => by rw [h]; exact hnoWinner)
        (fun h => db.winnerFk r h)
      bidsAuctionFk := fun b hb => List.mem_cons_of_mem _ (db.bidsAuctionFk b hb) }, ⟨_, hchecks⟩, ?_⟩
  have hins : db.insertAuction ⟨_, hchecks⟩ = .ok _ :=
    (dif_neg hrest.newId).trans (dif_pos hnoWinner)
  unfold createAuction insertAuction
  rw [if_neg (by decide), hvalid, if_neg (by decide), hstatus]
  simp only [hp, if_pos (And.intro hrest.titleText hrest.descriptionText), checkRow_of_checks hchecks,
    hins, bind, Except.bind, pure, Except.pure]

/-- An authenticated request that is not answered with a row is answered 400. -/
theorem refused_answer {E : Engines} {db : Db} {now : Int} {id : Uuid} {input : AuctionInput} {e : Answer}
    (h : createAuction E db now id true input = .error e) :
    ∃ message, e = .error 400 "VALIDATION_ERROR" message [] := by
  unfold createAuction at h
  rw [if_neg (by decide)] at h
  split at h
  · cases h
    exact ⟨_, rfl⟩
  · split at h
    · cases h
      exact ⟨_, rfl⟩
    · split at h
      · cases h
      · cases h
        exact ⟨_, rfl⟩

/-! ## Keeping the price -/

/-- An answer 201 is for a price, which is stored and returned as it is; any other text is
answered 400. -/
def KeepsPrice (E : Engines) (db : Db) (now : Int) (id : Uuid) (input : AuctionInput) : Prop :=
  (∀ db' a, createAuction E db now id true input = .ok (db', a) →
    ∃ h : isPrice input.startingPrice = true, a ∈ db'.auctions ∧
      a.startingPrice = priceNumeric input.startingPrice h ∧
      isPrice (auctionJson a).startingPrice = true ∧
      amountCents (auctionJson a).startingPrice = amountCents input.startingPrice) ∧
  (isPrice input.startingPrice = false → ∃ message,
    createAuction E db now id true input = .error (.error 400 "VALIDATION_ERROR" message []))

/-- **The price is kept exactly when** the text is a price, or the column reads no positive
number from it, or another field is refused. -/
theorem keeps_price_iff {E : Engines} (hE : E.ReadsPrices) (db : Db) (now : Int) (id : Uuid)
    (input : AuctionInput) : KeepsPrice E db now id input ↔
      isPrice input.startingPrice = true ∨ (∀ p, ¬ ReadPositive E input.startingPrice p) ∨
        ¬ RestValid db id input := by
  constructor
  · intro hkeeps
    by_contra hno
    push Not at hno
    obtain ⟨hprice, ⟨p, hread⟩, hrest⟩ := hno
    obtain ⟨db', a, hcreated⟩ := created_of_read now hread hrest
    exact hprice (hkeeps.1 db' a hcreated).1
  · intro hcond
    constructor
    · intro db' a hcreated
      obtain ⟨hmem, hread, hrest⟩ := created_price hcreated
      have hprice : isPrice input.startingPrice = true := by
        rcases hcond with hprice | hunread | hinvalid
        · exact hprice
        · exact absurd hread (hunread _)
        · exact absurd hrest hinvalid
      have hnumber : a.startingPrice = priceNumeric input.startingPrice hprice :=
        Option.some.inj (hread.2.1.symm.trans (hE _ hprice))
      obtain ⟨htext, hcents⟩ := price_text hprice
      refine ⟨hprice, hmem, hnumber, ?_, ?_⟩
      · rw [auctionJson, hnumber]
        exact htext
      · rw [auctionJson, hnumber]
        exact hcents
    · intro hnot
      cases hresult : createAuction E db now id true input with
      | error e =>
        obtain ⟨message, rfl⟩ := refused_answer hresult
        exact ⟨message, rfl⟩
      | ok r =>
        obtain ⟨db', a⟩ := r
        obtain ⟨-, hread, hrest⟩ := created_price hresult
        rcases hcond with hprice | hunread | hinvalid
        · rw [hprice] at hnot
          cases hnot
        · exact absurd hread (hunread _)
        · exact absurd hrest hinvalid

/-! ## The input of the column -/

/-- `isspace`. -/
def isPgSpace (c : Char) : Bool := c ∈ [' ', '\t', '\n', '\x0b', '\x0c', '\r']

/-- The sign, true for a minus, and what follows it. -/
def pgSign : List Char → Bool × List Char
  | '-' :: cs => (true, cs)
  | '+' :: cs => (false, cs)
  | cs => (false, cs)

/-- The digits after a point, if there is one, and what follows them. -/
def pgFraction : List Char → List Char × List Char
  | '.' :: cs => (cs.takeWhile Char.isDigit, cs.dropWhile Char.isDigit)
  | cs => ([], cs)

/-- The exponent after the digits. -/
def pgExponent : List Char → Option Int
  | [] => some 0
  | c :: cs =>
    let (negative, digits) := pgSign cs
    if (c = 'e' ∨ c = 'E') ∧ digits ≠ [] ∧ digits.all Char.isDigit = true then
      some (if negative then -(Nat.ofDigitChars 10 digits 0 : Int) else Nat.ofDigitChars 10 digits 0)
    else none

/-- `n * 10 ^ k`, rounded half away from zero. -/
def scaled (n : Nat) (k : Int) : Nat :=
  if 0 ≤ k then n * 10^k.toNat else (n + 10^(-k).toNat / 2) / 10^(-k).toNat

/-- `numeric_in` for NUMERIC(12,2): cents below `10^12`, or NaN. -/
def postgresNumeric (s : String) : Option Numeric :=
  let cs := ((s.toList.dropWhile isPgSpace).reverse.dropWhile isPgSpace).reverse
  if cs.map Char.toLower = ['n', 'a', 'n'] then some .nan
  else
    let (negative, cs) := pgSign cs
    let whole := cs.takeWhile Char.isDigit
    let (fraction, rest) := pgFraction (cs.dropWhile Char.isDigit)
    match pgExponent rest with
    | none => none
    | some e =>
      let n := scaled (Nat.ofDigitChars 10 (whole ++ fraction) 0) (e + 2 - fraction.length)
      if h : whole ++ fraction ≠ [] ∧ n < 10^12 then
        some (.cents (if negative then -(n : Int) else n) (by split <;> simpa using h.2))
      else none

def postgresEngines : Engines := ⟨decimalEngines.tonumber, postgresNumeric⟩

example : postgresNumeric " 1.005\n" = some (.cents 101 (by decide)) := by decide +kernel
example : postgresNumeric "-1e2" = some (.cents (-10000) (by decide)) := by decide +kernel

theorem digit_not_space {c : Char} (h : c.isDigit = true) : isPgSpace c = false := by
  rw [Bool.eq_false_iff]
  intro hs
  simp only [isPgSpace, List.mem_cons, List.not_mem_nil, or_false, decide_eq_true_eq] at hs
  rcases hs with rfl | rfl | rfl | rfl | rfl | rfl <;> revert h <;> decide

/-- A price is digits, a point and two digits. -/
theorem isPrice_split {s : String} (h : isPrice s = true) : ∃ c whole a b,
    s.toList = c :: whole ++ ['.', a, b] ∧ (∀ d ∈ c :: whole, d.isDigit = true) ∧
      a.isDigit = true ∧ b.isDigit = true := by
  simp only [isPrice, Bool.and_eq_true, decide_eq_true_eq] at h
  obtain ⟨⟨hne, hrest⟩, -⟩ := h
  have hsplit := List.takeWhile_append_dropWhile (p := Char.isDigit) (l := s.toList)
  split at hrest
  · next a b hdrop =>
    rw [hdrop] at hsplit
    obtain ⟨c, whole, hwhole⟩ := List.exists_cons_of_ne_nil hne
    simp only [Bool.and_eq_true] at hrest
    refine ⟨c, whole, a, b, ?_, ?_, hrest.1, hrest.2⟩
    · rw [← hwhole]
      exact hsplit.symm
    · intro d hd
      rw [← hwhole] at hd
      exact List.mem_takeWhile_imp hd
  · cases hrest

theorem pgSign_of_digit {c : Char} (h : c.isDigit = true) (cs : List Char) :
    pgSign (c :: cs) = (false, c :: cs) := by
  unfold pgSign
  split
  · next heq =>
    cases heq
    cases h
  · next heq =>
    cases heq
    cases h
  · rfl

/-- **The column reads a price as its number.** -/
theorem postgresEngines_readsPrices : postgresEngines.ReadsPrices := by
  intro s h
  obtain ⟨c, whole, a, b, hs, hwhole, ha, hb⟩ := isPrice_split h
  obtain ⟨-, hlt⟩ := isPrice_cents h
  have hc : c.isDigit = true := hwhole c List.mem_cons_self
  have hdot : Char.isDigit '.' = false := rfl
  have htrim : ((s.toList.dropWhile isPgSpace).reverse.dropWhile isPgSpace).reverse =
      c :: (whole ++ ['.', a, b]) := by
    rw [hs, List.cons_append, List.dropWhile_cons, digit_not_space hc, if_neg (by decide)]
    simp [digit_not_space hb]
  have hnan : ¬ (c :: (whole ++ ['.', a, b])).map Char.toLower = ['n', 'a', 'n'] := by
    intro heq
    have hlength := congrArg List.length heq
    simp at hlength
  obtain ⟨htake, hdrop⟩ := isDigit_append hwhole ['.', a, b]
  rw [List.takeWhile_cons, hdot, if_neg (by decide), List.append_nil, List.cons_append] at htake
  rw [List.dropWhile_cons, hdot, if_neg (by decide), List.cons_append] at hdrop
  have hfraction : pgFraction ['.', a, b] = ([a, b], []) := by simp [pgFraction, ha, hb]
  have hcents : amountCents s = Nat.ofDigitChars 10 (c :: whole ++ [a, b]) 0 := by
    rw [amountCents, hs, List.filter_append, List.filter_eq_self.mpr hwhole]
    simp [hdot, ha, hb]
  have hscaled : scaled (amountCents s) (0 + 2 - ([a, b].length : Int)) = amountCents s := by
    simp [scaled]
  show postgresNumeric s = some (priceNumeric s h)
  unfold postgresNumeric
  simp only [htrim, if_neg hnan, pgSign_of_digit hc]
  simp only [htake, hdrop, hfraction, pgExponent, ← hcents, hscaled]
  rw [dif_pos ⟨by simp, hlt⟩]
  rfl

/-- A lot with the given price. -/
def lotAt (price : String) : AuctionInput := ⟨"lot", none, price, 1000, 2000, "ACTIVE"⟩

theorem keeps_price_iff_lot : KeepsPrice postgresEngines noAuctions 0 (.ofDigit 1) (lotAt "125.50") :=
  (keeps_price_iff postgresEngines_readsPrices noAuctions 0 (.ofDigit 1) (lotAt "125.50")).mpr
    (Or.inl (by decide))

/-- The law fails: `1e2` is no price, and a row at 100.00 is inserted. -/
theorem keeps_price_fails : ¬ ∀ (E : Engines), E.ReadsPrices → ∀ (db : Db) (now : Int) (id : Uuid)
    (input : AuctionInput), KeepsPrice E db now id input := by
  intro h
  have hrefused := (h postgresEngines postgresEngines_readsPrices noAuctions 0 (.ofDigit 1)
    (lotAt "1e2")).2 (by decide)
  have hcreated : (created postgresEngines noAuctions 0 (.ofDigit 1) (lotAt "1e2")).auctions.length = 1 := by
    decide +kernel
  obtain ⟨message, hanswer⟩ := hrefused
  rw [created, hanswer] at hcreated
  cases hcreated

end Synora
