import Synora.Exits
import Synora.Listing

/- The price GET /auctions/{id} shows. The handler puts the price key over the column
   of the row, whatever the status of the row. What is under that key is a bid the
   script accepted, or the starting price a SETNX wrote when there was no key: of an
   auction that has just begun, or of one whose keys the settlement has deleted. The
   requests that may make it differ from a real price are those of `RealCmd`. -/
namespace Synora

open Expiring Calls

/-! ## Real prices -/

/-- A price text that is not below a stored price. -/
def AtLeast (p : String) (d : Numeric) : Prop :=
  p = d.text ∨ ∃ q, amountValue p = some q ∧ d.le q = true

/-- The price is that of the row or the amount of a bid accepted for the auction, it is not
below that of the row, and it is that of the row once the row is CLOSED or SETTLED. -/
structure Genuine (u : Uuid) (w : World) (a : Auction) (shown : Option String) : Prop where
  source : shown = a.currentHighPrice.map Numeric.text ∨
    ∃ x ∈ w.accepted, x.auctionId = u.text ∧ shown = some x.amount
  notBelow : ∀ d ∈ a.currentHighPrice, ∃ p, shown = some p ∧ AtLeast p d
  final : a.status.final → shown = a.currentHighPrice.map Numeric.text

/-- GET shows a genuine price of `u`. -/
def RealPrice (u : Uuid) (w : World) : Prop :=
  ∀ a x, w.db.find u = some a → showAuction w.db w.get ("/api/v1/auctions/" ++ u.text) = .ok x →
    Genuine u w a x.currentHighPrice

/-- The price of the row itself is genuine. -/
theorem genuine_row (u : Uuid) (w : World) (a : Auction) :
    Genuine u w a (a.currentHighPrice.map Numeric.text) where
  source := .inl rfl
  notBelow d hd := ⟨d.text, by rw [Option.mem_def.mp hd]; rfl, .inl rfl⟩
  final _ := rfl

/-- Another price is genuine if it was accepted, is not below and the row is still open. -/
theorem genuine_some_iff {u : Uuid} {w : World} {a : Auction} {d : Numeric} {p : String}
    (hd : a.currentHighPrice = some d) : Genuine u w a (some p) ↔
      p = d.text ∨ (∃ x ∈ w.accepted, x.auctionId = u.text ∧ x.amount = p) ∧ AtLeast p d ∧
        ¬ a.status.final := by
  constructor
  · intro h
    by_cases hp : p = d.text
    · exact .inl hp
    · refine .inr ⟨?_, ?_, fun hfinal => hp ?_⟩
      · rcases h.source with hs | ⟨x, hx, hid, hs⟩
        · rw [hd] at hs
          exact absurd (Option.some.inj hs) hp
        · exact ⟨x, hx, hid, (Option.some.inj hs).symm⟩
      · obtain ⟨q, hq, hle⟩ := h.notBelow d hd
        cases hq
        exact hle
      · have hs := h.final hfinal
        rw [hd] at hs
        exact Option.some.inj hs
  · rintro (rfl | ⟨⟨x, hx, hid, rfl⟩, hle, hopen⟩)
    · have h := genuine_row u w a
      rw [hd] at h
      exact h
    · refine ⟨.inr ⟨x, hx, hid, rfl⟩, fun e he => ?_, fun hfinal => absurd hfinal hopen⟩
      rw [hd] at he
      cases he
      exact ⟨x.amount, rfl, hle⟩

/-- The answer depends on the row and on what is under the price key. -/
theorem realPrice_iff {u : Uuid} {w : World} {a : Auction} (hf : w.db.find u = some a) :
    RealPrice u w ↔ ∀ p ∈ nonEmpty (w.get (priceKey u.text)), Genuine u w a (some p) := by
  have hshow : showAuction w.db w.get ("/api/v1/auctions/" ++ u.text) =
      .ok (overridePrice (auctionJson a) (w.get (priceKey u.text))) :=
    showAuction_of_find (Uuid.parse_text u) (Uuid.input_text u) hf
  constructor
  · intro h p hp
    have hgen := h a _ hf hshow
    obtain ⟨hget, hne⟩ := Option.filter_eq_some_iff.mp (Option.mem_def.mp hp)
    simp only [overridePrice, hget, of_decide_eq_true hne, if_false] at hgen
    exact hgen
  · intro h b x hb hx
    rw [hf] at hb
    rw [hshow] at hx
    cases hb
    cases hx
    unfold overridePrice
    split
    · exact genuine_row u w a
    · rename_i p hp
      split
      · exact genuine_row u w a
      · rename_i hne
        exact h p (by simp [nonEmpty, hp, hne])

/-- With the row, the price key and the history of `u` as they were, nothing changes. -/
theorem RealPrice.congr {u : Uuid} {w w' : World} (h : RealPrice u w)
    (hf : w'.db.find u = w.db.find u)
    (hget : w'.get (priceKey u.text) = w.get (priceKey u.text) ∨ w'.get (priceKey u.text) = none)
    (hacc : ∀ x ∈ w.accepted, x ∈ w'.accepted) : RealPrice u w' := by
  intro a x ha hx
  have ha' : w.db.find u = some a := hf ▸ ha
  refine (realPrice_iff ha).mpr (fun p hp => ?_) a x ha hx
  rcases hget with hget | hget
  · rw [hget] at hp
    have hgen := (realPrice_iff ha').mp h p hp
    refine ⟨?_, hgen.notBelow, hgen.final⟩
    rcases hgen.source with hs | ⟨y, hy, hrest⟩
    · exact .inl hs
    · exact .inr ⟨y, hacc y hy, hrest⟩
  · rw [hget] at hp
    cases hp

/-! ## What a request must find -/

/-- The current_high_price the transaction of `settle` leaves in a row it finds ACTIVE. -/
def priceAfter (E : Engines) (a : Auction) (price leader : Option String) : Option Numeric :=
  match nonEmpty price, nonEmpty leader with
  | some ps, some _ => E.numericIn ps
  | _, _ => a.currentHighPrice

/-- A SETNX that finds no price key writes the price of the row; an accepted bid is not below
the price of the row, and is that price if the row is closed; a transaction that commits
leaves the price in the row that is under the price key, if there is one. -/
def RealCmd (E : Engines) (u : Uuid) (w : World) : Cmd → Prop
  | .setNX key value => key = priceKey u.text → w.get key = none →
    ∀ a, w.db.find u = some a → a.currentHighPrice.map Numeric.text = some value
  | .evalBid id amount user m ttl => id = u.text → Accepts E w (.evalBid id amount user m ttl) →
    ∀ a d, w.db.find u = some a → a.currentHighPrice = some d →
      AtLeast amount d ∧ (a.status.final → amount = d.text)
  | .settleTx id price leader => Uuid.input id = some u →
    (∃ st ps wid, (settleTx E w.db w.pgNow id price leader).2 = .committed st ps wid) →
    ∀ a, w.db.find u = some a → ∀ p ∈ nonEmpty (w.get (priceKey u.text)),
      (priceAfter E a price leader).map Numeric.text = some p
  | _ => True

/-- The condition on a step. -/
def RealStep (E : Engines) (u : Uuid) (s : Sys) : Ev → Prop
  | .exec i => ∀ c, (s.slot i).wire = some c → RealCmd E u s.world c
  | _ => True

/-- The row is there with a price that `bid` can read. -/
def Priced (u : Uuid) (w : World) : Prop := ∃ a d, w.db.find u = some a ∧ a.currentHighPrice = some d

theorem priced_exec {E : Engines} {u : Uuid} {w : World} {c : Cmd} (h : Priced u w) :
    Priced u (exec E w c).1 := by
  obtain ⟨a, d, hf, hd⟩ := h
  cases c with
  | settleTx id price leader =>
    rcases settleTx_cases E w.db w.pgNow id price leader with ⟨e, he⟩ | ⟨he, -⟩ |
        ⟨v, b, -, hb, -, hres⟩
    · exact ⟨a, d, by rw [exec_settleTx, he]; exact hf, hd⟩
    · exact ⟨a, d, by rw [exec_settleTx, he]; exact hf, hd⟩
    · by_cases hv : u = v
      · subst hv
        rw [hf] at hb
        cases hb
        rcases hres with ⟨-, -, hr⟩ | ⟨ps, us, x, q, -, -, -, -, -, hr⟩
        · obtain ⟨a', hf', ha'⟩ := hr.row
          exact ⟨a', d, hf', by rw [ha']; exact hd⟩
        · obtain ⟨a', hf', ha'⟩ := hr.row
          exact ⟨a', q, hf', by rw [ha']; rfl⟩
      · rcases hres with ⟨-, -, hr⟩ | ⟨ps, us, x, q, -, -, -, -, -, hr⟩
        · exact ⟨a, d, (hr.others u hv).trans hf, hd⟩
        · exact ⟨a, d, (hr.others u hv).trans hf, hd⟩
  | _ =>
    refine ⟨a, d, ?_, hd⟩
    rw [exec_db (by simp)]
    exact hf

/-! ## One request -/

section
variable {E : Engines} {T : Uuid → Option Terms} {u : Uuid} {w : World}

/-- The starting price is not below the price of the row only if it is that price. -/
theorem atLeast_starting {a : Auction} {d : Numeric} (hd : a.currentHighPrice = some d) :
    AtLeast a.startingPrice.text d ↔ a.startingPrice.text = d.text := by
  refine ⟨fun h => ?_, .inl⟩
  rcases h with h | ⟨q, hq, hle⟩
  · exact h
  · have hstart : a.startingPrice.le d = true := a.checks.currentHighPriceValid d hd
    rw [amountValue_text a.checks.startingPricePositive hq] at hle
    rw [Numeric.le_antisymm hstart hle]

theorem nonEmpty_some {p : String} (h : p ≠ "") : nonEmpty (some p) = some p := by
  simp [nonEmpty, h]

/-- A SETNX of the starting price. -/
theorem realPrice_setNX_iff {a : Auction} {d : Numeric} {id value : String}
    (hf : w.db.find u = some a) (hd : a.currentHighPrice = some d)
    (hvalue : id = u.text → value = a.startingPrice.text) (h : RealPrice u w) :
    RealPrice u (exec E w (.setNX (priceKey id) value)).1 ↔
      RealCmd E u w (.setNX (priceKey id) value) := by
  by_cases hid : id = u.text
  swap
  · -- another auction
    have hkey : priceKey id ≠ priceKey u.text := fun he => hid (priceKey_injective he)
    refine ⟨fun _ he => absurd he hkey, fun _ => h.congr rfl (.inl ?_) fun x hx => hx⟩
    exact get_congr (Store.entry_putNX_ne _ _ _ _ (Ne.symm hkey))
  obtain rfl := hvalue hid
  subst hid
  cases hget : w.get (priceKey u.text) with
  | some p =>
    obtain ⟨e, he, -⟩ := Store.get_eq_some.mp hget
    have hsame : (exec E w (.setNX (priceKey u.text) a.startingPrice.text)).1 = w := by
      simp only [exec, Store.putNX_of_some _ he]
    rw [hsame]
    refine ⟨fun _ _ hnone => ?_, fun _ => h⟩
    rw [hget] at hnone
    cases hnone
  | none =>
    -- the starting price is seeded
    have hafter : (exec E w (.setNX (priceKey u.text) a.startingPrice.text)).1.get (priceKey u.text) =
        some a.startingPrice.text := by
      have hentry := Store.get_eq_none.mp hget
      show (Store.entry _ _ _).map _ = _
      rw [show (exec E w (.setNX (priceKey u.text) a.startingPrice.text)).1.redis =
        w.redis.putNX w.redisNow (priceKey u.text) a.startingPrice.text from rfl, exec_redisNow,
        Store.entry_putNX_self, hentry]
      rfl
    have hrow : (exec E w (.setNX (priceKey u.text) a.startingPrice.text)).1.db.find u = some a := hf
    rw [realPrice_iff hrow, hafter, nonEmpty_some (Numeric.text_ne_empty _)]
    constructor
    · intro hgen _ _ b hb
      rw [hf] at hb
      cases hb
      rw [hd]
      rcases (genuine_some_iff hd).mp (hgen _ rfl) with hp | ⟨-, hle, -⟩
      · rw [hp]
        rfl
      · rw [(atLeast_starting hd).mp hle]
        rfl
    · intro hcmd p hp
      cases hp
      have hprice := hcmd rfl hget a hf
      rw [hd] at hprice
      exact (genuine_some_iff hd).mpr (.inl (Option.some.inj hprice).symm)

/-- The script. -/
theorem realPrice_evalBid_iff {a : Auction} {d : Numeric} {id amount user : String} {m : Message}
    {ttl : Int} (hf : w.db.find u = some a) (hd : a.currentHighPrice = some d) (hne : amount ≠ "")
    (h : RealPrice u w) : RealPrice u (exec E w (.evalBid id amount user m ttl)).1 ↔
      RealCmd E u w (.evalBid id amount user m ttl) := by
  rcases exec_evalBid_cases E w id amount user m ttl with ⟨hsame, -, hno⟩ | ⟨hacc, he⟩
  · rw [hsame]
    refine ⟨fun _ _ hacc => ?_, fun _ => h⟩
    obtain ⟨r, hr⟩ := hacc
    exact absurd hr (hno r)
  · have hpos := (bidScript_accepted hacc).2.2.1
    rw [he]
    by_cases hid : id = u.text
    swap
    · have hkey : priceKey u.text ≠ priceKey id := fun he => hid (priceKey_injective he).symm
      refine ⟨fun _ heq => absurd heq hid, fun _ => h.congr rfl (.inl ?_) fun x hx => ?_⟩
      · exact get_congr (entry_lead_ne hkey (priceKey_ne_leaderKey _ _))
      · exact List.mem_cons_of_mem _ hx
    subst hid
    have hafter : (w.lead u.text amount user m ttl).get (priceKey u.text) = some amount :=
      Store.get_of_entry (entry_lead_price hpos)
    have hrow : (w.lead u.text amount user m ttl).db.find u = some a := hf
    rw [realPrice_iff hrow, hafter, nonEmpty_some hne]
    constructor
    · intro hgen _ _ b d' hb hd'
      rw [hf] at hb
      cases hb
      rw [hd] at hd'
      cases hd'
      rcases (genuine_some_iff hd).mp (hgen _ rfl) with rfl | ⟨-, hle, hopen⟩
      · exact ⟨.inl rfl, fun _ => rfl⟩
      · exact ⟨hle, fun hfinal => absurd hfinal hopen⟩
    · intro hcmd p hp
      cases hp
      obtain ⟨hle, hfinal⟩ := hcmd rfl ⟨_, hacc⟩ a d hf hd
      refine (genuine_some_iff hd).mpr ?_
      by_cases hst : a.status.final
      · exact .inl (hfinal hst)
      · exact .inr ⟨⟨_, List.mem_cons_self, rfl, rfl⟩, hle, hst⟩

/-- The row the transaction leaves. -/
theorem settleTx_row {a : Auction} {id : String} {price leader : Option String} {st : AuctionStatus}
    {ps : String} {wid : Option String} (hid : Uuid.input id = some u) (hf : w.db.find u = some a)
    (ho : (settleTx E w.db w.pgNow id price leader).2 = .committed st ps wid) :
    ∃ b, (settleTx E w.db w.pgNow id price leader).1.find u = some b ∧ b.status.final ∧
      b.currentHighPrice = priceAfter E a price leader := by
  rcases settleTx_cases E w.db w.pgNow id price leader with ⟨e, he⟩ | ⟨he, -⟩ | ⟨v, b, hv, hb, -, hres⟩
  · rw [he] at ho
    cases ho
  · rw [he] at ho
    cases ho
  · rw [hid] at hv
    cases hv
    rw [hf] at hb
    cases hb
    rcases hres with ⟨hleader, -, hr⟩ | ⟨ps, us, x, q, hprice, hleader, -, hq, -, hr⟩
    · obtain ⟨b, hb, hrow⟩ := hr.row
      refine ⟨b, hb, .inl (by rw [hrow]; rfl), ?_⟩
      rw [hrow]
      unfold priceAfter
      rw [hleader]
      cases nonEmpty price <;> rfl
    · obtain ⟨b, hb, hrow⟩ := hr.row
      refine ⟨b, hb, .inr (by rw [hrow]; rfl), ?_⟩
      rw [hrow]
      unfold priceAfter
      rw [hprice, hleader]
      exact hq.symm

/-- The transaction. -/
theorem realPrice_settleTx_iff {id : String} {price leader : Option String} (hpriced : Priced u w)
    (h : RealPrice u w) : RealPrice u (exec E w (.settleTx id price leader)).1 ↔
      RealCmd E u w (.settleTx id price leader) := by
  obtain ⟨a, d, hf, hd⟩ := hpriced
  by_cases hcommit : Uuid.input id = some u ∧
      ∃ st ps wid, (settleTx E w.db w.pgNow id price leader).2 = .committed st ps wid
  swap
  · -- the row of `u` stays
    refine ⟨fun _ hid ho => absurd ⟨hid, ho⟩ hcommit, fun _ => h.congr ?_ (.inl rfl) fun x hx => hx⟩
    rcases settleTx_cases E w.db w.pgNow id price leader with ⟨e, he⟩ | ⟨he, -⟩ | ⟨v, b, hv, -, -, hres⟩
    · rw [exec_settleTx, he]
    · rw [exec_settleTx, he]
    · have hne : u ≠ v := by
        rintro rfl
        rcases hres with ⟨-, ho, -⟩ | ⟨_, _, _, _, -, -, -, -, ho, -⟩
        · exact hcommit ⟨hv, _, _, _, ho⟩
        · exact hcommit ⟨hv, _, _, _, ho⟩
      rcases hres with ⟨-, -, hr⟩ | ⟨_, _, _, _, -, -, -, -, -, hr⟩
      · exact hr.others u hne
      · exact hr.others u hne
  · obtain ⟨hid, st, ps, wid, ho⟩ := hcommit
    obtain ⟨b, hb, hfinal, hprice⟩ := settleTx_row hid hf ho
    obtain ⟨b', d', hb', hd'⟩ := priced_exec (E := E) (c := .settleTx id price leader) ⟨a, d, hf, hd⟩
    have hbb : b' = b := by
      have : (settleTx E w.db w.pgNow id price leader).1.find u = some b' := hb'
      rw [hb] at this
      exact (Option.some.inj this).symm
    subst hbb
    have hget : (exec E w (.settleTx id price leader)).1.get (priceKey u.text) =
        w.get (priceKey u.text) := rfl
    rw [realPrice_iff hb', hget]
    constructor
    · intro hgen _ _ a' ha' p hp
      rw [hf] at ha'
      cases ha'
      rw [← hprice, hd']
      rcases (genuine_some_iff hd').mp (hgen p hp) with rfl | ⟨-, -, hopen⟩
      · rfl
      · exact absurd hfinal hopen
    · intro hcmd p hp
      have hrow := hcmd hid ⟨st, ps, wid, ho⟩ a hf p hp
      rw [← hprice, hd'] at hrow
      exact (genuine_some_iff hd').mpr (.inl (Option.some.inj hrow).symm)

/-- **A request keeps the price shown real exactly when** it finds what it must. -/
theorem realPrice_exec_iff {A : Job → Prop} {p : Proc} {c : Cmd} (hT : TermsAre T w)
    (hp : ProcOk T A w p) (hwait : Waits p c) (hpriced : Priced u w) (h : RealPrice u w) :
    RealPrice u (exec E w c).1 ↔ RealCmd E u w c := by
  obtain ⟨a, d, hf, hd⟩ := hpriced
  cases hwait with
  | selecting req =>
    rw [exec_selectRow_world]
    exact iff_of_true h trivial
  | initializing req row =>
    refine realPrice_setNX_iff hf hd (fun hid => ?_) h
    have hu : T u = some a.terms := by
      rw [← hT]
      exact termsOf_of_find hf
    exact (hp.2.2.terms hid hu).1
  | scripting req row placed =>
    have hne : req.amount ≠ "" := by
      intro he
      have hpat := hp.2.1
      rw [he] at hpat
      cases hpat
    exact realPrice_evalBid_iff hf hd hne h
  | committing job p l => exact realPrice_settleTx_iff ⟨a, d, hf, hd⟩ h
  | reading job => exact iff_of_true h trivial
  | publishing job st ps wid => exact iff_of_true (h.congr rfl (.inl rfl) fun x hx => hx) trivial
  | arming req row now =>
    refine iff_of_true (h.congr rfl (.inl ?_) fun x hx => hx) trivial
    exact get_congr (Redis.entry_set_ne _ _ _ _ _ (priceKey_ne_statusKey _ _))
  | caching job st ps wid now =>
    refine iff_of_true (h.congr rfl (.inl ?_) fun x hx => hx) trivial
    exact get_congr (Redis.entry_set_ne _ _ _ _ _ (priceKey_ne_statusKey _ _))
  | deleting job =>
    refine iff_of_true (h.congr rfl ?_ fun x hx => hx) trivial
    have hleader : (exec E w (.del (priceKey job.id) (leaderKey job.id))).1.get (priceKey u.text) =
        (w.redis.del (priceKey job.id)).get w.redisNow (priceKey u.text) :=
      Store.get_del_ne _ _ (priceKey_ne_leaderKey _ _)
    rw [hleader]
    by_cases hid : job.id = u.text
    · right
      rw [hid]
      exact Store.get_del_self _ _ _
    · left
      exact Store.get_del_ne _ _ fun he => hid (priceKey_injective he).symm

end

/-! ## Runs -/

theorem realPrice_tick {u : Uuid} {w : World} {d : Nat} (h : RealPrice u w) : RealPrice u (w.tick d) := by
  refine h.congr rfl ?_ fun x hx => hx
  cases hget : (w.tick d).get (priceKey u.text) with
  | none => exact .inr rfl
  | some p => exact .inl (get_of_tick hget).symm

/-- **One step.** -/
theorem realPrice_step_iff {E : Engines} {T : Uuid → Option Terms} {A : Job → Prop} {u : Uuid}
    {s s' : Sys} {e : Ev} (hsound : Sound T A s) (hpriced : Priced u s.world)
    (h : RealPrice u s.world) (hst : sysStep E s e = some s') :
    RealPrice u s'.world ↔ RealStep E u s e := by
  rcases Program.step_cases hst with ⟨d, rfl, rfl⟩ | ⟨i, j, p, c, rfl, -, -, rfl⟩ |
      ⟨i, c, rfl, hw, rfl⟩ | ⟨i, p, r, rfl, -, -, -, rfl⟩ | ⟨i, p, rfl, -, -, rfl⟩ |
      ⟨i, c, rfl, -, rfl⟩ | ⟨i, p, rfl, -, -, rfl⟩
  · exact iff_of_true (realPrice_tick h) trivial
  · exact iff_of_true h trivial
  · obtain ⟨p, hp, hwait, -⟩ := (hsound.2 i).wire c hw
    refine (realPrice_exec_iff hsound.1 hp hwait hpriced h).trans ⟨fun hc c' hc' => ?_, fun hs => hs c hw⟩
    rw [hw] at hc'
    cases hc'
    exact hc
  all_goals exact iff_of_true h trivial

theorem priced_step {E : Engines} {u : Uuid} {s s' : Sys} {e : Ev} (h : Priced u s.world)
    (hst : sysStep E s e = some s') : Priced u s'.world := by
  rcases Program.step_world hst with hw | ⟨d, -, hw⟩ | ⟨i, c, -, -, hw⟩ <;> rw [hw]
  · exact h
  · exact h
  · exact priced_exec h

/-- **The price shown is real in every state of a run exactly when** every request of the run
finds what `RealCmd` says. -/
theorem shown_price_real_iff {E : Engines} {s : Sys} {u : Uuid} {a : Auction} (hb : Begins s u a)
    (es : List Ev) : RealPrice u s.world ∧
      (Steps.Along (sysStep E) (fun t e => ∀ t', sysStep E t e = some t' → RealPrice u t'.world) s es ↔
        Steps.Along (sysStep E) (RealStep E u) s es) := by
  have hstart : RealPrice u s.world := by
    refine (realPrice_iff hb.row).mpr fun p hp => ?_
    have hnone : s.world.get (priceKey u.text) = none := by
      unfold World.get
      rw [hb.redis]
      rfl
    rw [hnone] at hp
    cases hp
  refine ⟨hstart, ?_⟩
  have hpriced : Priced u s.world := by
    obtain ⟨d, hd⟩ := Option.isSome_iff_exists.mp hb.readable
    exact ⟨a, d, hb.row, hd⟩
  have hinit : Sound (termsOf s.world.db) (fun _ => True) s ∧ Priced u s.world :=
    ⟨sound_fresh hb.fresh, hpriced⟩
  apply Steps.along_keeps_iff (P := fun t : Sys => RealPrice u t.world)
    (I := fun t : Sys => Sound (termsOf s.world.db) (fun _ => True) t ∧ Priced u t.world) _ _ _ hinit
    hstart
  · intro t e t' hI hst
    exact ⟨hI.1.step (jobsOn_true e) hst, priced_step hI.2 hst⟩
  · intro t e t' hI hP hst
    exact realPrice_step_iff hI.1 hI.2 hP hst
  · intro t e hoff
    cases e with
    | exec i =>
      intro c hc
      have hon : ∃ t', sysStep E t (.exec i) = some t' := ⟨_, Program.step_exec hc⟩
      rw [hoff] at hon
      obtain ⟨t', ht'⟩ := hon
      cases ht'
    | _ => trivial

theorem shown_price_real_iff_lot : ∃ s',
    Steps.run (sysStep decimalEngines) lotAtTen (bidThenSettle 5) = some s' ∧
    s'.world.rowStatus (.ofDigit 0) = some .SETTLED ∧
    RealPrice (.ofDigit 0) lotAtTen.world ∧
    (Steps.Along (sysStep decimalEngines)
        (fun t e => ∀ t', sysStep decimalEngines t e = some t' → RealPrice (.ofDigit 0) t'.world)
        lotAtTen (bidThenSettle 5) ↔
      Steps.Along (sysStep decimalEngines) (RealStep decimalEngines (.ofDigit 0)) lotAtTen
        (bidThenSettle 5)) := by
  obtain ⟨s', hrun, hcheck⟩ := Steps.exists_of_check (sysStep decimalEngines) lotAtTen
    (bidThenSettle 5) (fun s => decide (s.world.rowStatus (.ofDigit 0) = some .SETTLED))
    (by decide +kernel)
  exact ⟨s', hrun, of_decide_eq_true hcheck,
    shown_price_real_iff (opening_begins ten (by decide)) (bidThenSettle 5)⟩

/-- A bid has read the row; another of 12.00 wins and is settled; then the first one's SETNX
executes. -/
def lateSeed : List Ev :=
  [.start 0 (.bid (lotBid "10.50" 1)), .exec 0, .recv 0] ++
    .start 1 (.bid (lotBid "12.00" 2)) :: calls 1 4 ++
    .tick 1000000000 :: .start 2 (.settle (.ofDigit 0)) :: calls 2 5 ++ [.exec 0]

/-- Without the condition the law fails: a SETTLED auction at 12.00 is shown at 10.00. -/
theorem shown_price_real_fails :
    ¬ ∀ (E : Engines) (s s' : Sys) (u : Uuid) (a : Auction) (es : List Ev), Begins s u a →
      Steps.run (sysStep E) s es = some s' → RealPrice u s'.world := by
  intro h
  obtain ⟨s', hrun, hcheck⟩ := Steps.exists_of_check (sysStep decimalEngines) lotAtTen lateSeed
    (fun s => (s.world.db.find (.ofDigit 0)).any (fun a : Auction => decide (a.status = .SETTLED ∧
        a.currentHighPrice.map Numeric.text = some "12.00")) &&
      decide (s.world.get (priceKey (Uuid.ofDigit 0).text) = some "10.00")) (by decide +kernel)
  have hreal := h decimalEngines lotAtTen s' _ _ lateSeed (opening_begins ten (by decide)) hrun
  rw [Bool.and_eq_true, Option.any_eq_true, decide_eq_true_eq] at hcheck
  obtain ⟨⟨a, hf, ha⟩, hget⟩ := hcheck
  obtain ⟨hsettled, hprice⟩ := of_decide_eq_true ha
  have hshown := (realPrice_iff hf).mp hreal "10.00" (by rw [hget]; rfl)
  have hfinal := hshown.final (.inr hsettled)
  rw [hprice] at hfinal
  exact absurd hfinal (by decide)

end Synora
