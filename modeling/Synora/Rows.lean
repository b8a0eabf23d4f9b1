import Synora.Listing

/- The rows `App.listAuctions` reads (handlers.go), and what it answers when the
   database fails on the way. Query may return an error, Scan may return one for any
   row, and the stream of rows may end in an error that only `rows.Err()` tells,
   which the handler does not ask for. So a page is served from a part of the rows
   exactly when the stream breaks off before the last of them
   (`serves_whole_iff`).

   Correspondence (Go ↔ Lean):
     what `a.DB.Query` returns             ↔ `Rows`
     `for rows.Next()` with `rows.Scan`    ↔ `scanRows`
     `App.listAuctions` after Query        ↔ `answerRows`
     the database and its failures         ↔ `Faults`, `Db.query` -/
namespace Synora

/-! ## The handler -/

/-- What Query returns: an error, or rows, each with what Scan makes of it, and whether
`rows.Err()` is an error when there are no more. -/
inductive Rows where
  | failed
  | read (rows : List (Option Auction)) (err : Bool)
  deriving DecidableEq

def unableToList : Answer := .error 500 "INTERNAL_ERROR" "Unable to list auctions" []
def unableToRead : Answer := .error 500 "INTERNAL_ERROR" "Unable to read auctions" []

/-- The loop over the rows; `none` where Scan returns an error. -/
def scanRows : List (Option Auction) → Option (List AuctionJson)
  | [] => some []
  | none :: _ => none
  | some x :: rest => (scanRows rest).map fun items => auctionJson x :: items

def answerRows (limit : Nat) : Rows → Except Answer (Keyset.Page AuctionJson String)
  | .failed => .error unableToList
  -- the loop ends where there are no more rows, with an error or without
  | .read rows _ =>
    match scanRows rows with
    | none => .error unableToRead
    | some items => .ok (listPage limit items)

/-- `listAuctions` on a database that answers the statement with `query`. -/
def listAuctionsOn (query : ListQuery → Rows) (r : ListRequest) :
    Except Answer (Keyset.Page AuctionJson String) :=
  match listQuery r with
  | .error a => .error a
  | .ok q => answerRows q.limit (query q)

/-! ## The database -/

/-- Where the database fails: whether Query returns an error, after how many rows the stream
ends in an error, and for which rows Scan returns one. -/
structure Faults where
  query : Bool
  stream : Option Nat
  scan : Nat → Bool

def noFaults : Faults := ⟨false, none, fun _ => false⟩

/-- The rows of a result set that are sent. -/
def Faults.sent (f : Faults) (all : List Auction) : List Auction :=
  match f.stream with
  | none => all
  | some k => all.take k

/-- The statement on the database. One that the server rejects has no rows, only an error. -/
def Db.query (db : Db) (f : Faults) (q : ListQuery) : Rows :=
  if f.query = true then .failed
  else
    match selectAuctions db q with
    | none => .read [] true
    | some all => .read ((f.sent all).mapIdx fun i x => if f.scan i = true then none else some x)
        f.stream.isSome

/-! ## What is read -/

theorem scanRows_some {rows : List Auction} : scanRows (rows.map some) = some (rows.map auctionJson) := by
  induction rows with
  | nil => rfl
  | cons x rest ih => rw [List.map_cons, scanRows, ih, Option.map_some, List.map_cons]

theorem scanRows_none {rows : List (Option Auction)} (h : none ∈ rows) : scanRows rows = none := by
  induction rows with
  | nil => cases h
  | cons x rest ih =>
    cases x with
    | none => rfl
    | some x =>
      have hrest : none ∈ rest := by simpa using h
      rw [scanRows, ih hrest, Option.map_none]

/-- A row that is sent and that Scan refuses. -/
def Faults.scanFails (f : Faults) (all : List Auction) : Prop := ∃ i < (f.sent all).length, f.scan i = true

/-- Scan refuses none: the rows are read as they are sent. -/
theorem scanned_of_scans {f : Faults} {all : List Auction} (h : ¬ f.scanFails all) :
    ((f.sent all).mapIdx fun i x => if f.scan i = true then none else some x) = (f.sent all).map some := by
  apply List.ext_getElem
  · rw [List.length_mapIdx, List.length_map]
  · intro i hi _
    have hlt : i < (f.sent all).length := by simpa using hi
    have hscan : ¬ f.scan i = true := fun hf => h ⟨i, hlt, hf⟩
    rw [List.getElem_mapIdx, List.getElem_map, if_neg hscan]

theorem none_mem_of_scanFails {f : Faults} {all : List Auction} (h : f.scanFails all) :
    none ∈ (f.sent all).mapIdx fun i x => if f.scan i = true then none else some x := by
  obtain ⟨i, hi, hscan⟩ := h
  refine List.mem_mapIdx.mpr ⟨i, hi, ?_⟩
  rw [if_pos hscan]

section
variable {db : Db} {f : Faults} {q : ListQuery}

theorem query_failed (h : f.query = true) : db.query f q = .failed := if_pos h

theorem query_read (h : f.query = false) : db.query f q =
    match selectAuctions db q with
    | none => .read [] true
    | some all => .read ((f.sent all).mapIdx fun i x => if f.scan i = true then none else some x)
        f.stream.isSome := if_neg (by rw [h]; decide)

/-- A rejected statement is answered with an empty page. -/
theorem answerRows_rejected (h : f.query = false) (hs : selectAuctions db q = none) :
    answerRows q.limit (db.query f q) = .ok (listPage q.limit []) := by
  rw [query_read h, hs]
  rfl

theorem answerRows_unread {all : List Auction} (h : f.query = false) (hs : selectAuctions db q = some all)
    (hscan : f.scanFails all) : answerRows q.limit (db.query f q) = .error unableToRead := by
  rw [query_read h, hs]
  unfold answerRows
  simp only [scanRows_none (none_mem_of_scanFails hscan)]

/-- **The page is of the rows that are sent**, whatever ended them. -/
theorem answerRows_page {all : List Auction} (h : f.query = false) (hs : selectAuctions db q = some all)
    (hscan : ¬ f.scanFails all) :
    answerRows q.limit (db.query f q) = .ok (listPage q.limit ((f.sent all).map auctionJson)) := by
  have hread : scanRows _ = some ((f.sent all).map auctionJson) :=
    (congrArg scanRows (scanned_of_scans hscan)).trans scanRows_some
  rw [query_read h, hs]
  unfold answerRows
  simp only [hread]

end

theorem listAuctionsOn_ok {query : ListQuery → Rows} {r : ListRequest} {q : ListQuery}
    (hq : listQuery r = .ok q) : listAuctionsOn query r = answerRows q.limit (query q) := by
  unfold listAuctionsOn
  rw [hq]

theorem listAuctionsOn_page {query : ListQuery → Rows} {r : ListRequest}
    {page : Keyset.Page AuctionJson String} (h : listAuctionsOn query r = .ok page) :
    ∃ q, listQuery r = .ok q ∧ answerRows q.limit (query q) = .ok page := by
  unfold listAuctionsOn at h
  split at h
  · cases h
  · next q hq => exact ⟨q, hq, h⟩

/-- Without failures this is the list of the database. -/
theorem listAuctionsOn_noFaults (db : Db) (r : ListRequest) :
    listAuctionsOn (db.query noFaults) r = listAuctions db r := by
  cases hq : listQuery r with
  | error a =>
    unfold listAuctionsOn listAuctions
    rw [hq]
  | ok q =>
    have hlist : listAuctions db r =
        .ok (listPage q.limit (((selectAuctions db q).getD []).map auctionJson)) := by
      unfold listAuctions
      rw [hq]
    rw [listAuctionsOn_ok hq, hlist]
    cases hs : selectAuctions db q with
    | none => exact answerRows_rejected (f := noFaults) rfl hs
    | some all =>
      have hscan : ¬ noFaults.scanFails all := by
        rintro ⟨i, -, h⟩
        cases h
      exact answerRows_page (f := noFaults) rfl hs hscan

/-! ## Whole result sets -/

/-- A page is served only if the whole result set was read, and shows it. -/
def ServesWhole (db : Db) (f : Faults) (r : ListRequest) : Prop :=
  ∀ page, listAuctionsOn (db.query f) r = .ok page →
    ∃ q all, listQuery r = .ok q ∧ selectAuctions db q = some all ∧ f.sent all = all ∧
      page = listPage q.limit (all.map auctionJson)

/-- The statement is executed, and if its rows break off there is an error the handler sees:
that of Query, or that of Scan for a row before. -/
def Noticed (db : Db) (f : Faults) (q : ListQuery) : Prop :=
  f.query = true ∨ ∃ all, selectAuctions db q = some all ∧
    ((∀ k, f.stream = some k → all.length ≤ k) ∨ f.scanFails all)

theorem sent_eq_iff (f : Faults) (all : List Auction) :
    f.sent all = all ↔ ∀ k, f.stream = some k → all.length ≤ k := by
  unfold Faults.sent
  cases f.stream with
  | none => simp
  | some k =>
    simp only [Option.some.injEq, forall_eq']
    constructor
    · intro h
      have hlength := congrArg List.length h
      rw [List.length_take] at hlength
      omega
    · exact List.take_of_length_le

/-- **A page is served from a part of the rows exactly when the stream breaks off unnoticed.** -/
theorem serves_whole_iff (db : Db) (f : Faults) (r : ListRequest) :
    ServesWhole db f r ↔ ∀ q, listQuery r = .ok q → Noticed db f q := by
  constructor
  · intro h q hq
    cases hquery : f.query with
    | true => exact Or.inl hquery
    | false =>
      have hread : ∀ page, answerRows q.limit (db.query f q) = .ok page →
          ∃ all, selectAuctions db q = some all ∧ f.sent all = all := by
        intro page hpage
        obtain ⟨q', all, hq', hall, hsent, -⟩ := h page ((listAuctionsOn_ok hq).trans hpage)
        cases hq.symm.trans hq'
        exact ⟨all, hall, hsent⟩
      cases hs : selectAuctions db q with
      | none =>
        obtain ⟨all, hall, -⟩ := hread _ (answerRows_rejected hquery hs)
        cases hs.symm.trans hall
      | some all =>
        refine Or.inr ⟨all, hs, ?_⟩
        by_cases hscan : f.scanFails all
        · exact Or.inr hscan
        · obtain ⟨all', hall', hsent⟩ := hread _ (answerRows_page hquery hs hscan)
          cases hs.symm.trans hall'
          exact Or.inl ((sent_eq_iff f all).mp hsent)
  · intro h page hpage
    obtain ⟨q, hq, hrows⟩ := listAuctionsOn_page hpage
    cases hquery : f.query with
    | true =>
      rw [query_failed hquery] at hrows
      cases hrows
    | false =>
      obtain ⟨all, hs, hnoticed⟩ := (h q hq).resolve_left (by rw [hquery]; decide)
      by_cases hscan : f.scanFails all
      · cases (answerRows_unread hquery hs hscan).symm.trans hrows
      · have hsent : f.sent all = all := (sent_eq_iff f all).mpr (hnoticed.resolve_right hscan)
        have hpage := (answerRows_page hquery hs hscan).symm.trans hrows
        rw [hsent] at hpage
        exact ⟨q, all, hq, hs, hsent, (Except.ok.inj hpage).symm⟩

/-- One ACTIVE lot. -/
def oneLot : Db := created decimalEngines noAuctions 0 (.ofDigit 1) ⟨"lot", none, "10.00", 1000, 2000, "ACTIVE"⟩

/-- The law fails: the connection breaks before the one row is sent, and the answer is 200
with no items and no more to come. -/
theorem serves_whole_fails : ¬ ∀ (db : Db) (f : Faults) (r : ListRequest), ServesWhole db f r := by
  intro h
  have hquery : listQuery ⟨"", "", ""⟩ = .ok ⟨"ACTIVE", none, 20⟩ := by rfl
  have hlot : selectAuctions oneLot ⟨"ACTIVE", none, 20⟩ = some ((listed oneLot .ACTIVE).take 21) := by rfl
  have hlength : (listed oneLot .ACTIVE).length = 1 := by
    rw [listed, (Keyset.orderDesc_perm _).length_eq]
    decide +kernel
  have hnone : ¬ Faults.scanFails ⟨false, some 0, fun _ => false⟩ ((listed oneLot .ACTIVE).take 21) := by
    rintro ⟨i, -, hi⟩
    cases hi
  have hpage := answerRows_page (f := ⟨false, some 0, fun _ => false⟩) rfl hlot hnone
  obtain ⟨q, all, hq, hall, hsent, -⟩ := h oneLot ⟨false, some 0, fun _ => false⟩ ⟨"", "", ""⟩ _
    ((listAuctionsOn_ok hquery).trans hpage)
  cases hquery.symm.trans hq
  cases hlot.symm.trans hall
  -- no row was sent, but there is one
  have hzero := congrArg List.length hsent
  simp [Faults.sent, hlength] at hzero

end Synora
