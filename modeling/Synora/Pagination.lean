import Synora.Listing

/- Reading all pages of `listAuctions`. A cursor goes through the text of the item's
   start time, JSON and base64, and comes back as it was (`decodeCursor_encodeCursor`),
   unless the start time is Go's zero time or its year in UTC does not have four
   digits: then the cursor is empty although there is more, and the next request
   gets the first page again. So the pages are complete exactly when no row at
   the end of a page has such a start time (`pagination_complete_iff`). -/
namespace Synora

open Keyset

/-! ## Cursors -/

/-- A stored start time that a cursor can carry. -/
def Cursorable (t : Int) : Prop :=
  goTime t ≠ zeroTime ∧ 0 ≤ (Rfc3339.dateOf (goTime t)).year ∧ (Rfc3339.dateOf (goTime t)).year ≤ 9999

instance (t : Int) : Decidable (Cursorable t) := inferInstanceAs (Decidable (_ ∧ _))

/-- A text with a character that is no space is not trimmed away. -/
theorem trimSpace_ne_empty {s : String} {c : Char} (hc : c ∈ s.toList) (hs : isSpace c = false) :
    trimSpace s ≠ "" := by
  intro h
  have hnil := congrArg String.toList h
  simp only [trimSpace, String.toList_ofList, String.toList_empty, List.reverse_eq_nil_iff,
    List.dropWhile_eq_nil_iff, List.mem_reverse] at hnil
  have hkept : c ∈ s.toList.dropWhile isSpace := by
    rw [← List.takeWhile_append_dropWhile (p := isSpace) (l := s.toList)] at hc
    rcases List.mem_append.mp hc with htake | hdrop
    · have := List.mem_takeWhile_imp htake
      rw [hs] at this
      cases this
    · exact hdrop
  have := hnil c hkept
  rw [hs] at this
  cases this

theorem trimSpace_text (u : Uuid) : trimSpace u.text ≠ "" := by
  obtain ⟨x, cs, hx⟩ := Uuid.chars_head u
  refine trimSpace_ne_empty (c := hexChar x) ?_ ?_
  · rw [Uuid.text, String.toList_ofList, hx]
    exact List.mem_cons_self
  · have hall : ∀ d, isSpace (hexChar d) = false := by decide
    exact hall x

theorem encodeCursor_ne_empty {start : Int} {id : String} (hz : start ≠ zeroTime) (hid : id ≠ "") :
    encodeCursor start id ≠ "" := by
  rw [encodeCursor, if_neg (by simp [hz, hid])]
  apply Base64Url.encode_ne_empty
  apply Base64Url.utf8_ne_nil
  obtain ⟨c, cs, hc, -⟩ := Json.encode_head (cursorPayload start id)
  rw [hc]
  exact List.cons_ne_nil _ _

theorem decode_cursorPayload (start : Int) (id : String) :
    StructFields.decode cursorFields ⟨"", ""⟩ (cursorPayload start id) =
      some ⟨Rfc3339.format start, id⟩ := by
  simp [StructFields.decode, StructFields.members, StructFields.setMember, StructFields.lookup,
    StructFields.visible, StructFields.JsonField.visibleIn, StructFields.setField, StructFields.readString, cursorPayload,
    cursorFields]

/-- **A cursor is read back.** -/
theorem decodeCursor_encodeCursor {start : Int} {id : String} (hz : start ≠ zeroTime)
    (hy : 0 ≤ (Rfc3339.dateOf start).year ∧ (Rfc3339.dateOf start).year ≤ 9999)
    (hid : trimSpace id ≠ "") : decodeCursor (encodeCursor start id) = some (start, id) := by
  have hne : id ≠ "" := by
    intro h
    subst h
    exact hid (by decide)
  rw [decodeCursor, if_neg (encodeCursor_ne_empty hz hne), encodeCursor, if_neg (by simp [hz, hne]),
    Base64Url.decode_encode]
  simp only [Option.bind_eq_bind, Option.bind_some, Base64Url.fromUtf8_utf8, Json.parse_encode,
    decode_cursorPayload, Rfc3339.parse_format hy, if_neg hid]

/-- The cursor of an item, or nothing. -/
theorem itemCursor_auctionJson (a : Auction) : itemCursor (auctionJson a) =
    if Cursorable a.startTime then encodeCursor (goTime a.startTime) a.id.text else "" := by
  unfold itemCursor auctionJson
  simp only
  by_cases hy : 0 ≤ (Rfc3339.dateOf (goTime a.startTime)).year ∧
      (Rfc3339.dateOf (goTime a.startTime)).year ≤ 9999
  · rw [Rfc3339.parse_format hy]
    by_cases hz : goTime a.startTime = zeroTime
    · rw [if_neg (fun h => h.1 hz)]
      exact if_pos (.inl hz)
    · rw [if_pos ⟨hz, hy⟩]
  · rw [Rfc3339.parse_format_none hy, if_neg (fun h => hy h.2)]

/-! ## The rows of a page -/

theorem rowKeys_nodup (db : Db) : (db.auctions.map rowKey).Nodup := by
  have hids : (db.auctions.map (fun a => a.id)).Nodup := db.auctionsKey
  rw [show (fun a : Auction => a.id) = (fun k : Lex (Int × Uuid) => (ofLex k).2) ∘ rowKey from rfl,
    ← List.map_map] at hids
  exact hids.of_map _

theorem listed_keys_nodup (db : Db) (st : AuctionStatus) :
    ((db.auctions.filter fun a => decide (a.status = st)).map rowKey).Nodup :=
  (rowKeys_nodup db).sublist (List.Sublist.map rowKey List.filter_sublist)

theorem listed_descending (db : Db) (st : AuctionStatus) : Descending rowKey (listed db st) :=
  descending_orderDesc (listed_keys_nodup db st)

theorem mem_listed {db : Db} {st : AuctionStatus} {a : Auction} :
    a ∈ listed db st ↔ a ∈ db.auctions ∧ a.status = st := by
  rw [listed, (orderDesc_perm _).mem_iff, List.mem_filter, decide_eq_true_eq]

/-- The filter of the statement is the order of the rows. -/
theorem isAfter_eq (a b : Auction) :
    isAfter a.startTime a.id b = decide (rowKey b < rowKey a) := by
  unfold isAfter rowKey
  rw [decide_eq_decide, Prod.Lex.toLex_lt_toLex]

/-- **What the statement selects** after a row of the status: the rows that follow it. -/
theorem selectAuctions_after {db : Db} {st : AuctionStatus} {i : Nat} (limit : Nat)
    (hi : i < (listed db st).length) {status : String} (hst : AuctionStatus.input status = some st) :
    selectAuctions db ⟨status, some (goTime (listed db st)[i].startTime, (listed db st)[i].id.text), limit⟩ =
      some (((listed db st).drop (i + 1)).take (limit + 1)) := by
  have hstart : goTime (listed db st)[i].startTime / 1000 = (listed db st)[i].startTime := by
    unfold goTime
    omega
  have hcomm : ∀ k : Lex (Int × Uuid), (fun a : Auction => decide (a.status = st) && decide (rowKey a < k)) =
      fun a => decide (rowKey a < k) && decide (a.status = st) := fun k => funext fun a => Bool.and_comm _ _
  unfold selectAuctions
  simp only [hst, Uuid.input_text, hstart, isAfter_eq]
  rw [hcomm, ← List.filter_filter, orderDesc_filter (listed_keys_nodup db st)]
  exact congrArg (fun rows => some (rows.take (limit + 1))) ((listed_descending db st).after hi)

/-- What the client gets for a cursor. -/
def fetchPage (db : Db) (status limit : String) (cursor : String) :
    Option (Page AuctionJson String) :=
  (listAuctions db ⟨status, limit, cursor⟩).toOption

/-- The cursor the `j`-th page is asked for with. -/
def pageCursor (rows : List Auction) (limit j : Nat) : String :=
  if j = 0 then "" else (((rows.map auctionJson)[j * limit - 1]?).map itemCursor).getD ""

/-- The page made of a limit of rows and one more. -/
theorem listPage_isPage (rows : List Auction) (limit j : Nat) :
    IsPage (rows.map auctionJson) limit j
      (listPage limit (((rows.drop (j * limit)).take (limit + 1)).map auctionJson)) where
  items := by
    simp only [listPage, ← List.map_take, ← List.map_drop, List.take_take]
    rw [Nat.min_eq_left (Nat.le_succ limit)]
  more := by
    simp only [listPage, List.length_map, List.length_take, List.length_drop, decide_eq_decide,
      Nat.succ_mul]
    omega

/-- The last item of a page with rows after it. -/
theorem listPage_last {rows : List Auction} {limit j : Nat} (hl : 0 < limit)
    (hmore : (j + 1) * limit < rows.length) :
    ((((rows.drop (j * limit)).take (limit + 1)).map auctionJson).take limit).getLast? =
      (rows.map auctionJson)[(j + 1) * limit - 1]? := by
  have hlen : limit < (((rows.drop (j * limit)).take (limit + 1)).map auctionJson).length := by
    simp only [List.length_map, List.length_take, List.length_drop]
    rw [Nat.succ_mul] at hmore
    omega
  rw [List.getLast?_eq_getElem?, List.length_take, Nat.min_eq_left (Nat.le_of_lt hlen)]
  simp only [List.map_take, List.map_drop, List.getElem?_take, List.getElem?_drop, Nat.succ_mul]
  rw [if_pos (by omega), if_pos (by omega)]
  congr 1
  omega

/-- With more rows, the cursor is that of the last item. -/
theorem listPage_next {rows : List Auction} {limit j : Nat} (hl : 0 < limit)
    (hmore : (j + 1) * limit < rows.length) :
    (listPage limit (((rows.drop (j * limit)).take (limit + 1)).map auctionJson)).next =
      pageCursor rows limit (j + 1) := by
  have hlen : limit < (((rows.drop (j * limit)).take (limit + 1)).map auctionJson).length := by
    simp only [List.length_map, List.length_take, List.length_drop]
    rw [Nat.succ_mul] at hmore
    omega
  simp only [listPage, if_pos hlen, listPage_last hl hmore, pageCursor, Nat.succ_ne_zero, if_false]

/-- The row at the end of the `j`-th page, if more rows follow. -/
def PageEnd (rows : List Auction) (limit j : Nat) (a : Auction) : Prop :=
  (j + 1) * limit < rows.length ∧ rows[(j + 1) * limit - 1]? = some a

theorem pageCursor_end {rows : List Auction} {limit j : Nat} {a : Auction} (h : PageEnd rows limit j a) :
    pageCursor rows limit (j + 1) =
      if Cursorable a.startTime then encodeCursor (goTime a.startTime) a.id.text else "" := by
  simp only [pageCursor, Nat.succ_ne_zero, if_false, List.getElem?_map, h.2, Option.map_some,
    Option.getD_some, itemCursor_auctionJson]

theorem exists_pageEnd {rows : List Auction} {limit j : Nat} (h : (j + 1) * limit < rows.length) :
    ∃ a, PageEnd rows limit j a :=
  ⟨rows[(j + 1) * limit - 1], h, List.getElem?_eq_getElem (by omega)⟩

section
variable {db : Db} {status limit : String} {st : AuctionStatus}

theorem listQuery_ok (hlimit : 1 ≤ requestLimit limit ∧ requestLimit limit ≤ 100) {cursor id : String}
    {start : Int} (hc : decodeCursor cursor = some (start, id)) :
    listQuery ⟨status, limit, cursor⟩ = .ok {
      status := requestStatus status
      after := if id = "" then none else some (start, id)
      limit := (requestLimit limit).toNat } := by
  unfold listQuery
  rw [if_neg (not_or.mpr ⟨Int.not_lt.mpr hlimit.1, Int.not_lt.mpr hlimit.2⟩)]
  simp only [hc]

theorem fetchPage_ok {cursor : String} {q : ListQuery} {rows : List Auction}
    (hq : listQuery ⟨status, limit, cursor⟩ = .ok q) (hs : selectAuctions db q = some rows) :
    fetchPage db status limit cursor = some (listPage q.limit (rows.map auctionJson)) := by
  unfold fetchPage listAuctions
  rw [hq]
  simp only [hs, Option.getD_some, Except.toOption]

/-- The first page. -/
theorem fetchPage_first (hst : AuctionStatus.input (requestStatus status) = some st)
    (hlimit : 1 ≤ requestLimit limit ∧ requestLimit limit ≤ 100) :
    fetchPage db status limit "" = some (listPage (requestLimit limit).toNat
      (((listed db st).take ((requestLimit limit).toNat + 1)).map auctionJson)) := by
  have hcursor : decodeCursor "" = some (zeroTime, "") := by
    rw [decodeCursor, if_pos rfl]
  refine fetchPage_ok (listQuery_ok hlimit hcursor) ?_
  simp only [selectAuctions, hst, if_true]

/-- The page after a row that a cursor can carry. -/
theorem fetchPage_after (hst : AuctionStatus.input (requestStatus status) = some st)
    (hlimit : 1 ≤ requestLimit limit ∧ requestLimit limit ≤ 100) {j : Nat} {a : Auction}
    (hend : PageEnd (listed db st) (requestLimit limit).toNat j a) (hc : Cursorable a.startTime) :
    fetchPage db status limit (pageCursor (listed db st) (requestLimit limit).toNat (j + 1)) =
      some (listPage (requestLimit limit).toNat ((((listed db st).drop
        ((j + 1) * (requestLimit limit).toNat)).take ((requestLimit limit).toNat + 1)).map auctionJson)) := by
  obtain ⟨hmore, hrow⟩ := hend
  have hcursor : decodeCursor (pageCursor (listed db st) (requestLimit limit).toNat (j + 1)) =
      some (goTime a.startTime, a.id.text) := by
    rw [pageCursor_end ⟨hmore, hrow⟩, if_pos hc]
    exact decodeCursor_encodeCursor hc.1 hc.2 (trimSpace_text a.id)
  have hpos : 0 < (j + 1) * (requestLimit limit).toNat := Nat.mul_pos (Nat.succ_pos j) (by omega)
  obtain ⟨hi, ha⟩ := List.getElem?_eq_some_iff.mp hrow
  have hselect := selectAuctions_after (requestLimit limit).toNat hi hst
  rw [ha, Nat.sub_add_cancel hpos] at hselect
  refine fetchPage_ok (listQuery_ok hlimit hcursor) ?_
  rw [if_neg (Uuid.text_ne_empty a.id)]
  exact hselect

/-- The page of the `j`-th cursor, if the row before it can be carried. -/
theorem fetchPage_cursor (hst : AuctionStatus.input (requestStatus status) = some st)
    (hlimit : 1 ≤ requestLimit limit ∧ requestLimit limit ≤ 100) {j : Nat}
    (hj : j * (requestLimit limit).toNat < (listed db st).length ∨ j = 0)
    (hc : ∀ i a, i < j → PageEnd (listed db st) (requestLimit limit).toNat i a → Cursorable a.startTime) :
    fetchPage db status limit (pageCursor (listed db st) (requestLimit limit).toNat j) =
      some (listPage (requestLimit limit).toNat ((((listed db st).drop
        (j * (requestLimit limit).toNat)).take ((requestLimit limit).toNat + 1)).map auctionJson)) := by
  cases j with
  | zero =>
    rw [Nat.zero_mul, List.drop_zero]
    exact fetchPage_first hst hlimit
  | succ i =>
    have hmore : (i + 1) * (requestLimit limit).toNat < (listed db st).length :=
      hj.resolve_right (Nat.succ_ne_zero i)
    obtain ⟨a, hend⟩ := exists_pageEnd hmore
    exact fetchPage_after hst hlimit hend (hc i a (Nat.lt_succ_self i) hend)

/-- **Without a cursor the pages never end**: the first page whose last row cannot be carried
leads back to the beginning. -/
theorem walk_stuck (hst : AuctionStatus.input (requestStatus status) = some st)
    (hlimit : 1 ≤ requestLimit limit ∧ requestLimit limit ≤ 100) {j : Nat} {a : Auction}
    (hend : PageEnd (listed db st) (requestLimit limit).toNat j a) (hbad : ¬ Cursorable a.startTime)
    (hmin : ∀ i b, i < j → PageEnd (listed db st) (requestLimit limit).toNat i b → Cursorable b.startTime)
    (n : Nat) : walk (fetchPage db status limit) n "" = none := by
  refine walk_of_closed
    (fun c => ∃ i, i ≤ j ∧ c = pageCursor (listed db st) (requestLimit limit).toNat i) ?_ n
    ⟨0, Nat.zero_le j, rfl⟩
  rintro c ⟨i, hij, rfl⟩
  have hmore : (i + 1) * (requestLimit limit).toNat < (listed db st).length :=
    Nat.lt_of_le_of_lt (Nat.mul_le_mul_right _ (Nat.succ_le_succ hij)) hend.1
  have hhere : i * (requestLimit limit).toNat < (listed db st).length := by
    rw [Nat.succ_mul] at hmore
    omega
  refine ⟨_, fetchPage_cursor hst hlimit (.inl hhere)
    (fun k b hk => hmin k b (Nat.lt_of_lt_of_le hk hij)), ?_, ?_⟩
  · rw [(listPage_isPage _ _ _).more, List.length_map]
    exact decide_eq_true hmore
  · rw [listPage_next (by omega) hmore]
    by_cases h : i = j
    · subst h
      refine ⟨0, Nat.zero_le i, ?_⟩
      rw [pageCursor_end hend, if_neg hbad]
      rfl
    · exact ⟨i + 1, by omega, rfl⟩

end

/-- **What a reader of the pages should get**: after finitely many requests all rows of the
status, each once, the latest start first; and with every page but the last a cursor that
points at its last item. -/
def Complete (db : Db) (status limit : String) (st : AuctionStatus) : Prop :=
  ∃ n pages rows, walk (fetchPage db status limit) n "" = some pages ∧
    pages.flatMap Page.items = rows.map auctionJson ∧ Descending rowKey rows ∧
    (∀ a, a ∈ rows ↔ a ∈ db.auctions ∧ a.status = st) ∧
    ∀ p ∈ pages, p.more = true → ∃ a, p.items.getLast? = some (auctionJson a) ∧
      decodeCursor p.next = some (goTime a.startTime, a.id.text)

/-- **The pages are complete exactly when** every row at the end of a page has a start time that
a cursor can carry: not Go's zero time, and with a year of four digits in UTC. -/
theorem pagination_complete_iff {db : Db} {status limit : String} {st : AuctionStatus}
    (hst : AuctionStatus.input (requestStatus status) = some st)
    (hlimit : 1 ≤ requestLimit limit ∧ requestLimit limit ≤ 100) :
    Complete db status limit st ↔
      ∀ j a, PageEnd (listed db st) (requestLimit limit).toNat j a → Cursorable a.startTime := by
  constructor
  · rintro ⟨n, pages, rows, hwalk, -⟩
    by_contra hbad
    push Not at hbad
    classical
    -- the first page that ends with such a row
    obtain ⟨a, hend, hnot⟩ := Nat.find_spec hbad
    rw [walk_stuck hst hlimit hend hnot] at hwalk
    · cases hwalk
    · intro i b hi hb
      by_contra hc
      exact Nat.find_min hbad hi ⟨b, hb, hc⟩
  · intro hgood
    have hpos : 0 < (requestLimit limit).toNat := by omega
    have hfetch : ∀ j, j = 0 ∨ j * (requestLimit limit).toNat < (listed db st).length →
        fetchPage db status limit (pageCursor (listed db st) (requestLimit limit).toNat j) =
          some (listPage (requestLimit limit).toNat ((((listed db st).drop
            (j * (requestLimit limit).toNat)).take ((requestLimit limit).toNat + 1)).map auctionJson)) := by
      intro j hj
      exact fetchPage_cursor hst hlimit hj.symm fun i a _ hend => hgood i a hend
    obtain ⟨n, pages, hwalk, hrows, hfrom⟩ := walk_complete ((listed db st).map auctionJson) hpos
      (pageCursor (listed db st) (requestLimit limit).toNat) (fun j hj => by
        rw [List.length_map] at hj
        refine ⟨_, hfetch j hj, listPage_isPage _ _ _, fun hmore => ?_⟩
        rw [(listPage_isPage _ _ _).more, List.length_map] at hmore
        exact listPage_next hpos (of_decide_eq_true hmore))
    refine ⟨n, pages, listed db st, hwalk, hrows, listed_descending db st, fun _ => mem_listed, ?_⟩
    intro p hp hmore
    obtain ⟨j, hj, hpj⟩ := hfrom p hp
    rw [List.length_map] at hj
    rw [hfetch j hj] at hpj
    cases hpj
    rw [(listPage_isPage _ _ _).more, List.length_map] at hmore
    obtain ⟨a, hend⟩ := exists_pageEnd (of_decide_eq_true hmore)
    refine ⟨a, ?_, ?_⟩
    · rw [listPage, listPage_last hpos hend.1, List.getElem?_map, hend.2]
      rfl
    · have hc := hgood j a hend
      rw [listPage_next hpos hend.1, pageCursor_end hend, if_pos hc]
      exact decodeCursor_encodeCursor hc.1 hc.2 (trimSpace_text a.id)

theorem length_listed (db : Db) (st : AuctionStatus) :
    (listed db st).length = (db.auctions.filter fun a => decide (a.status = st)).length :=
  (orderDesc_perm _).length_eq

/-- An ACTIVE lot with the given start and end. -/
def lotFrom (startTime endTime : String) : AuctionInput :=
  ⟨"lot", none, "10.00", (Rfc3339.parse startTime).getD 0, (Rfc3339.parse endTime).getD 0, "ACTIVE"⟩

/-- Two lots with the same start and end. -/
def twoLots (startTime endTime : String) : Db :=
  created decimalEngines (created decimalEngines noAuctions 0 (.ofDigit 1) (lotFrom startTime endTime))
    0 (.ofDigit 2) (lotFrom startTime endTime)

theorem twoLots_created (startTime endTime : String) :
    FromCreate decimalEngines (twoLots startTime endTime) :=
  ((FromCreate.empty noAuctions rfl rfl).created _ _ _).created _ _ _

theorem pagination_complete_iff_lots :
    Complete (twoLots "2026-03-01T10:00:00.5Z" "2026-03-01T12:00:00+01:00") "" "1" .ACTIVE := by
  refine (pagination_complete_iff (by decide) (by decide)).mpr ?_
  intro j a hend
  have hall : ∀ b ∈ (twoLots "2026-03-01T10:00:00.5Z" "2026-03-01T12:00:00+01:00").auctions,
      Cursorable b.startTime := by decide +kernel
  exact hall a (mem_listed.mp (List.mem_of_getElem? hend.2)).1

/-- Without the condition the law fails: two lots that start in the UTC year 10000, read one at
a time. The first page has more, and the cursor `""`. -/
theorem pagination_complete_fails :
    ¬ ∀ (E : Engines) (db : Db) (status limit : String) (st : AuctionStatus), FromCreate E db →
      AuctionStatus.input (requestStatus status) = some st →
      1 ≤ requestLimit limit ∧ requestLimit limit ≤ 100 → Complete db status limit st := by
  intro h
  have hst : AuctionStatus.input (requestStatus "") = some .ACTIVE := by decide
  have hlimit : 1 ≤ requestLimit "1" ∧ requestLimit "1" ≤ 100 := by decide
  have hone : (requestLimit "1").toNat = 1 := by decide
  have hlots := twoLots_created "9999-12-31T23:30:00-01:00" "9999-12-31T23:45:00-01:00"
  have hbad : ∀ b ∈ (twoLots "9999-12-31T23:30:00-01:00" "9999-12-31T23:45:00-01:00").auctions,
      ¬ Cursorable b.startTime := by decide +kernel
  have htwo : (0 + 1) * 1 < (listed (twoLots "9999-12-31T23:30:00-01:00" "9999-12-31T23:45:00-01:00")
      .ACTIVE).length := by
    rw [length_listed]
    decide +kernel
  obtain ⟨n, pages, rows, hwalk, -⟩ := h _ _ "" "1" .ACTIVE hlots hst hlimit
  obtain ⟨a, hend⟩ := exists_pageEnd htwo
  have hnot := hbad a (mem_listed.mp (List.mem_of_getElem? hend.2)).1
  rw [walk_stuck (j := 0) (a := a) hst hlimit (by rw [hone]; exact hend) hnot
    (fun i b hi _ => absurd hi (Nat.not_lt_zero i))] at hwalk
  cases hwalk

end Synora
