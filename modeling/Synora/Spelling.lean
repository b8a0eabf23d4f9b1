import Synora.Lasting
import Synora.Listing

/- One auction under several spellings of its id. google/uuid and Postgres accept
   more than one text for a UUID (upper case, braces, no hyphens), but the Redis
   keys are made of the text as it came: the bid handler and the GET handler use
   the request's, the settlement the one Postgres prints. So an auction has one
   hot state exactly as long as every request spells its id as Postgres does. -/
namespace Synora

open Expiring Calls

/-- The keys and the channel that are made of an id text. -/
def hotKeys (id : String) : List String :=
  [priceKey id, leaderKey id, statusKey id, updatesChannel id]

theorem hotKeys_injective : Function.Injective hotKeys := by
  intro a b h
  exact priceKey_injective (List.cons.inj h).1

/-- The keys and channels a request names. -/
def Cmd.keys : Cmd → List String
  | .selectRow _ => []
  | .settleTx _ _ _ => []
  | .setNX key _ => [key]
  | .set key _ _ => [key]
  | .evalBid id _ _ _ _ => [statusKey id, priceKey id, leaderKey id, updatesChannel id]
  | .mget key key' => [key, key']
  | .publish channel _ => [channel]
  | .del key key' => [key, key']

/-- The id text a process makes its keys of. -/
def Proc.auctionId : Proc → String
  | .bid req _ => req.auctionID
  | .settle job _ => job.id

/-- **A process keeps to the keys of its id text.** -/
theorem Waits.keys {p : Proc} {c : Cmd} (h : Waits p c) : ∀ k ∈ c.keys, k ∈ hotKeys p.auctionId := by
  intro k hk
  cases h <;> simp [Cmd.keys, hotKeys, Proc.auctionId, evalCmd] at hk ⊢ <;> grind

/-- A text the bid handler accepts for `u`: google/uuid lets it pass and Postgres reads `u`. -/
def Denotes (u : Uuid) (id : String) : Prop := Uuid.validate id = true ∧ Uuid.input id = some u

/-- The jobs are bids on `u`, under any spelling. -/
def BidOf (u : Uuid) : Job → Prop
  | .bid req => Denotes u req.auctionID
  | .settle _ => False

instance (u : Uuid) : DecidablePred (BidOf u)
  | .bid _ => inferInstanceAs (Decidable (_ ∧ _))
  | .settle _ => .isFalse id

/-- The auction ids of the bids of a run. -/
def bidIds (es : List Ev) : List String :=
  es.filterMap fun
    | .start _ (.bid req) => some req.auctionID
    | _ => none

theorem mem_bidIds {es : List Ev} {i : Nat} {req : BidRequest} (h : .start i (.bid req) ∈ es) :
    req.auctionID ∈ bidIds es :=
  List.mem_filterMap.mpr ⟨_, h, rfl⟩

/-- **One hot state**: the bids of the run and the GETs of `gets` use the keys of the settlement,
an accepted bid exceeds every earlier one, and what the settlement reads and GET shows are those
of the last one. -/
structure OneHotState (E : Engines) (u : Uuid) (es : List Ev) (gets : List String) (s : Sys) :
    Prop where
  bidKeys : ∀ id ∈ bidIds es, hotKeys id = hotKeys u.text
  getKeys : ∀ id ∈ gets, priceKey id = priceKey u.text
  wires : ∀ i c, (s.slot i).wire = some c → ∀ k ∈ c.keys, k ∈ hotKeys u.text
  increasing : (s.world.accepted.reverse.map Acceptance.cents).Pairwise (· < ·)
  settles : ∀ x rest, s.world.accepted = x :: rest → ∀ job c, job.id = u.text →
    (settleStart job).2 = some c → (exec E s.world c).2 = .values (some x.amount) (some x.user)
  shows : ∀ x rest, s.world.accepted = x :: rest → ∀ id ∈ gets, ∃ item,
    showAuction s.world.db s.world.get ("/api/v1/auctions/" ++ id) = .ok item ∧
      item.currentHighPrice = some x.amount

/-- Bids that spell the id as Postgres does. -/
def Canonical (u : Uuid) (j : Job) : Prop := ∃ req, j = .bid req ∧ req.auctionID = u.text

theorem canonical_of_bidIds {u : Uuid} {es : List Ev} (hbids : ∀ e ∈ es, JobsOn (BidOf u) e)
    (h : ∀ id ∈ bidIds es, id = u.text) : ∀ e ∈ es, JobsOn (Canonical u) e := by
  intro e he
  cases e with
  | start i j =>
    have hj : BidOf u j := hbids _ he
    cases j with
    | bid req => exact ⟨req, rfl, h _ (mem_bidIds he)⟩
    | settle v => exact hj.elim
  | _ => exact trivial

/-- What holds at the end of a run of bids on the canonical text: the order, the requests on
the wire, and that the two keys hold the last accepted bid. -/
theorem canonical_run {E : Engines} (hE : E.Lawful) {s s' : Sys} {u : Uuid} {a : Auction}
    {es : List Ev} (ho : Opens s u a) (hjobs : ∀ e ∈ es, JobsOn (Canonical u) e)
    (hr : Steps.run (sysStep E) s es = some s') (hgrace : InGrace a.endTime s.world.now s'.world.now) :
    (s'.world.accepted.reverse.map Acceptance.cents).Pairwise (· < ·) ∧
    (∀ i c, (s'.slot i).wire = some c → ∀ k ∈ c.keys, k ∈ hotKeys u.text) ∧
    ∀ x rest, s'.world.accepted = x :: rest → x.amount ≠ "" ∧
      s'.world.get (priceKey u.text) = some x.amount ∧
      s'.world.get (leaderKey u.text) = some x.user := by
  obtain ⟨hreach, hleader⟩ := lead_lasts ho (fun _ h => h) hjobs hr hgrace
  have hA : ∀ j, Canonical u j → j.auctionId = u.text := by
    intro j hj
    obtain ⟨req, rfl, hid⟩ := hj
    exact hid
  have hinc := (increasing_along hE ho hA (fun _ _ h => h) hreach).1
  have htriples := (triples_along ho (fun _ _ h => h.1) hreach).1
  have hsound := (sound_along ho.fresh (fun _ _ h => h.1) hreach).1
  refine ⟨?_, fun i c hc k hk => ?_, fun x rest hacc => ?_⟩
  · rw [List.pairwise_map, List.pairwise_reverse]
    exact hinc.ordered
  · obtain ⟨p, hp, hwait, -⟩ := (hsound.2 i).wire c hc
    have hid : p.auctionId = u.text := by
      cases p with
      | bid req pc => exact hp.bid_id hA
      | settle job pc => exact hp.settle_id hA
    rw [← hid]
    exact hwait.keys k hk
  · obtain ⟨user, huser⟩ := Option.isSome_iff_exists.mp (hleader (by rw [hacc]; simp))
    obtain ⟨y, ys, hy, rfl, hpat, hprice⟩ := hinc.leader_read (htriples.paired u.text) huser
    rw [hacc] at hy
    cases hy
    refine ⟨fun hempty => ?_, hprice, huser⟩
    rw [hempty] at hpat
    revert hpat
    decide

/-- The row is still found at the end of a run. -/
theorem row_stays {E : Engines} {A : Job → Prop} {C : Sys → Ev → Prop} {s s' : Sys} {u : Uuid}
    {a : Auction} (ho : Opens s u a) (hC : ∀ t e, C t e → JobsOn A e)
    (hr : Steps.Reach (sysStep E) C s s') : ∃ a', s'.world.db.find u = some a' := by
  have hterms : termsOf s'.world.db = termsOf s.world.db := (sound_along ho.fresh hC hr).1.1
  have hu := congrFun hterms u
  rw [termsOf_of_find ho.row] at hu
  obtain ⟨a', ha', -⟩ := Option.map_eq_some_iff.mp hu
  exact ⟨a', ha'⟩

/-- **An auction has one hot state iff its id is spelled one way.** For every run of bids that
denote one auction and every GET of it, looked at before the keys can expire. -/
theorem one_hot_state_iff {E : Engines} (hE : E.Lawful) {s s' : Sys} {u : Uuid} {a : Auction}
    {es : List Ev} {gets : List String} (ho : Opens s u a) (hbids : ∀ e ∈ es, JobsOn (BidOf u) e)
    (hgets : ∀ id ∈ gets, Uuid.parse id = true ∧ Uuid.input id = some u)
    (hr : Steps.run (sysStep E) s es = some s')
    (hgrace : InGrace a.endTime s.world.now s'.world.now) :
    OneHotState E u es gets s' ↔ ∀ id ∈ bidIds es ++ gets, id = u.text := by
  constructor
  · intro h id hid
    rcases List.mem_append.mp hid with hid | hid
    · exact hotKeys_injective (h.bidKeys id hid)
    · exact priceKey_injective (h.getKeys id hid)
  · intro h
    have hjobs := canonical_of_bidIds hbids fun id hid => h id (List.mem_append_left _ hid)
    have hget : ∀ id ∈ gets, id = u.text := fun id hid => h id (List.mem_append_right _ hid)
    obtain ⟨hinc, hwires, hlast⟩ := canonical_run hE ho hjobs hr hgrace
    refine ⟨?_, ?_, hwires, hinc, ?_, ?_⟩
    · intro id hid
      rw [h id (List.mem_append_left _ hid)]
    · intro id hid
      rw [hget id hid]
    · intro x rest hacc job c hjob hc
      obtain ⟨-, hprice, hleader⟩ := hlast x rest hacc
      simp only [settleStart, Option.some.injEq] at hc
      subst hc
      rw [hjob]
      show Reply.values (s'.world.get (priceKey u.text)) (s'.world.get (leaderKey u.text)) = _
      rw [hprice, hleader]
    · intro x rest hacc id hid
      obtain ⟨hne, hprice, -⟩ := hlast x rest hacc
      obtain ⟨a', ha'⟩ := row_stays ho (fun _ _ h => h) ⟨es, Steps.along_of_mem hjobs, hr⟩
      obtain ⟨hparse, hinput⟩ := hgets id hid
      refine ⟨_, showAuction_of_find hparse hinput ha', ?_⟩
      rw [hget id hid, hprice]
      simp [overridePrice, hne]

/-- A bid of 12.00 on the canonical text, then one of 11.00 on the bare digits. -/
def mixedSpellings : List Ev :=
  .start 0 (.bid (lotBid "12.00" 1)) :: calls 0 4 ++
    .start 1 (.bid ⟨"00000000000000000000000000000000", "11.00", (Uuid.ofDigit 2).text⟩) :: calls 1 4

/-- With more than one spelling the law fails: after `mixedSpellings` the bid of 11.00 has been
accepted after that of 12.00, and the settlement still reads 12.00. -/
theorem one_hot_state_fails :
    ¬ ∀ (E : Engines) (_ : E.Lawful) (s s' : Sys) (u : Uuid) (a : Auction) (es : List Ev)
      (gets : List String), Opens s u a → (∀ e ∈ es, JobsOn (BidOf u) e) →
      (∀ id ∈ gets, Uuid.parse id = true ∧ Uuid.input id = some u) →
      Steps.run (sysStep E) s es = some s' → InGrace a.endTime s.world.now s'.world.now →
      OneHotState E u es gets s' := by
  intro h
  obtain ⟨s', hrun, hbad⟩ := Steps.exists_of_check (sysStep decimalEngines) lotAtTen mixedSpellings
    (fun s => decide (InGrace 1000000 0 s.world.now ∧ s.world.accepted.map Acceptance.cents = [1100, 1200] ∧
      s.world.get (priceKey (Uuid.ofDigit 0).text) = some "12.00"))
    (by decide +kernel)
  obtain ⟨hgrace, hcents, -⟩ := of_decide_eq_true hbad
  have hone := h decimalEngines decimalEngines_lawful lotAtTen s' (.ofDigit 0) _ mixedSpellings []
    (opening_begins ten (by decide)).toOpens (by decide +kernel) (fun _ h => (by cases h)) hrun hgrace
  have hinc := hone.increasing
  rw [List.map_reverse, hcents] at hinc
  revert hinc
  decide

theorem one_hot_state_iff_lot : ∃ s',
    Steps.run (sysStep decimalEngines) lotAtTen twoBids = some s' ∧ s'.world.accepted.length = 2 ∧
    OneHotState decimalEngines (.ofDigit 0) twoBids [(Uuid.ofDigit 0).text] s' := by
  obtain ⟨s', hrun, hcheck⟩ := Steps.exists_of_check (sysStep decimalEngines) lotAtTen twoBids
    (fun s => decide (InGrace 1000000 0 s.world.now ∧ s.world.accepted.length = 2)) (by decide +kernel)
  obtain ⟨hgrace, hlen⟩ := of_decide_eq_true hcheck
  refine ⟨s', hrun, hlen, (one_hot_state_iff decimalEngines_lawful
    (opening_begins ten (by decide)).toOpens (by decide +kernel) ?_ hrun hgrace).mpr (by decide +kernel)⟩
  intro id hid
  rw [List.mem_singleton.mp hid]
  exact ⟨Uuid.parse_text _, Uuid.input_text _⟩

end Synora
