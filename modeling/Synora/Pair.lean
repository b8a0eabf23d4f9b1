import Synora.Sent

/- Price, leader and last event are one consistent triple. The script writes the
   two keys with one deadline, a SETNX changes a price only when there is none,
   and the settlement removes both: so a leader that can be read has its price
   beside it, with the same deadline, the pair is the last accepted bid, and the
   last PRICE_UPDATE on the channel carries the price. The deadlines are part of
   the invariant: without them a leader could outlive its price. -/
namespace Synora

open Expiring Calls

/-- The last bid the script accepted under this id text. -/
def lastAccepted (id : String) (accepted : List Acceptance) : Option Acceptance :=
  accepted.find? (fun x => x.auctionId = id)

/-- The amount of the most recent PRICE_UPDATE on the channel of `id`. -/
def lastPriceUpdate (id : String) (published : List (String × Message)) : Option String :=
  published.findSome? fun
    | (channel, .priceUpdate _ amount _) => if channel = updatesChannel id then some amount else none
    | (_, .settlement ..) => none

@[simp] theorem lastPriceUpdate_settlement (id channel auctionId priceStr : String)
    (st : AuctionStatus) (wid : Option String) (published : List (String × Message)) :
    lastPriceUpdate id ((channel, .settlement auctionId st priceStr wid) :: published) =
      lastPriceUpdate id published := by
  simp [lastPriceUpdate]

/-- The triple of one id text: what the invariant says whenever the leader can be read. -/
def Paired (w : World) (id : String) : Prop :=
  ∀ e, w.entry (leaderKey id) = some e → ∃ amount,
    w.entry (priceKey id) = some ⟨amount, e.deadline⟩ ∧ amountPattern amount = true ∧
    lastAccepted id w.accepted = some ⟨id, e.value, amount⟩ ∧
    lastPriceUpdate id w.published = some amount

/-- What reads the keys and the histories of `id` alike sees the same triple. -/
theorem Paired.congr {w w' : World} {id : String} (h : Paired w id)
    (hl : w'.entry (leaderKey id) = w.entry (leaderKey id))
    (hp : w'.entry (priceKey id) = w.entry (priceKey id))
    (ha : lastAccepted id w'.accepted = lastAccepted id w.accepted)
    (hu : lastPriceUpdate id w'.published = lastPriceUpdate id w.published) : Paired w' id := by
  intro e he
  rw [hl] at he
  rw [hp, ha, hu]
  exact h e he

theorem Paired.tick {w : World} {id : String} (h : Paired w id) (d : Nat) : Paired (w.tick d) id := by
  intro e he
  obtain ⟨amount, hp, hrest⟩ := h e (entry_of_tick he)
  exact ⟨amount, Store.entry_together (e := e) hp rfl he, hrest⟩

/-- The script's own id gets the triple it wrote. -/
theorem Paired.lead {w : World} {id amount user : String} {placed ttl : Int}
    (hpat : amountPattern amount = true) (hpos : 0 < ttl) :
    Paired (w.lead id amount user (.priceUpdate id amount placed) ttl) id := by
  intro e he
  rw [entry_lead_leader hpos] at he
  cases he
  exact ⟨amount, entry_lead_price hpos, hpat, by simp [lastAccepted, World.lead],
    by simp [lastPriceUpdate, World.lead]⟩

/-- **One request keeps the triple.** -/
theorem Paired.exec {E : Engines} {T : Uuid → Option Terms} {A : Job → Prop} {w : World} {p : Proc}
    {c : Cmd} {id : String} (h : Paired w id) (hp : ProcOk T A w p) (hw : Waits p c) :
    Paired (exec E w c).1 id := by
  cases hw with
  | selecting req =>
    rw [exec_selectRow_world]
    exact h
  | initializing req row =>
    intro e he
    have hl := (Store.entry_putNX_ne w.redis w.redisNow w.redisNow row.starting
      (leaderKey_ne_priceKey id req.auctionID)).symm.trans he
    obtain ⟨amount, hprice, hrest⟩ := h e hl
    refine ⟨amount, ?_, hrest⟩
    by_cases hid : id = req.auctionID
    · -- the leader is there, so the price is: SETNX does nothing
      subst hid
      have hnx := Store.putNX_of_some row.starting hprice
      exact (congrArg (fun r => Store.entry r w.redisNow (priceKey req.auctionID)) hnx).trans hprice
    · exact (Store.entry_putNX_ne _ _ _ _ (fun hk => hid (priceKey_injective hk))).trans hprice
  | arming req row now =>
    refine h.congr ?_ ?_ rfl rfl
    · exact Redis.entry_set_ne _ _ _ _ _ (leaderKey_ne_statusKey id req.auctionID)
    · exact Redis.entry_set_ne _ _ _ _ _ (priceKey_ne_statusKey id req.auctionID)
  | scripting req row placed =>
    unfold evalCmd
    rcases exec_evalBid_cases E w req.auctionID req.amount req.user
        (.priceUpdate req.auctionID req.amount placed) (ttlSeconds row.end placed) with
      ⟨hsame, -⟩ | ⟨-, he⟩
    · rw [hsame]
      exact h
    · rw [he]
      by_cases hid : id = req.auctionID
      · subst hid
        exact Paired.lead hp.2.1 (ttlSeconds_pos _ _)
      · have hch : updatesChannel req.auctionID ≠ updatesChannel id :=
          fun hk => hid (updatesChannel_injective hk).symm
        refine h.congr ?_ ?_ ?_ ?_
        · exact entry_lead_ne (leaderKey_ne_priceKey _ _) (fun hk => hid (leaderKey_injective hk))
        · exact entry_lead_ne (fun hk => hid (priceKey_injective hk)) (priceKey_ne_leaderKey _ _)
        · simp [lastAccepted, World.lead, Ne.symm hid]
        · simp [lastPriceUpdate, World.lead, hch]
  | reading job => exact h
  | committing job p l => exact h
  | caching job st ps wid now =>
    refine h.congr ?_ ?_ rfl rfl
    · exact Redis.entry_set_ne _ _ _ _ _ (leaderKey_ne_statusKey id job.id)
    · exact Redis.entry_set_ne _ _ _ _ _ (priceKey_ne_statusKey id job.id)
  | publishing job st ps wid => exact h.congr rfl rfl rfl (lastPriceUpdate_settlement ..)
  | deleting job =>
    by_cases hid : id = job.id
    · subst hid
      intro e he
      simp only [Synora.exec, World.entry] at he
      rw [Store.entry_del_self] at he
      cases he
    · have hl : leaderKey id ≠ leaderKey job.id := fun hk => hid (leaderKey_injective hk)
      have hp : priceKey id ≠ priceKey job.id := fun hk => hid (priceKey_injective hk)
      refine h.congr ?_ ?_ rfl rfl
      · exact (Store.entry_del_ne _ _ hl).trans (Store.entry_del_ne _ _ (leaderKey_ne_priceKey _ _))
      · exact (Store.entry_del_ne _ _ (priceKey_ne_leaderKey _ _)).trans (Store.entry_del_ne _ _ hp)

/-! ## The reads of the settlement -/

/-- A read of the two keys that found a leader found a price. -/
def ReadPair (price leader : Option String) : Prop :=
  (nonEmpty leader).isSome = true → (nonEmpty price).isSome = true

/-- MGET returns a pair. -/
theorem readPair_mget {w : World} {id : String} (h : Paired w id) :
    ReadPair (w.get (priceKey id)) (w.get (leaderKey id)) := by
  intro hsome
  cases hl : w.get (leaderKey id) with
  | none => rw [hl] at hsome; cases hsome
  | some v =>
    obtain ⟨e, he, -⟩ := Store.get_eq_some.mp hl
    obtain ⟨amount, hp, hpat, -⟩ := h e he
    have hne : amount ≠ "" := by
      rintro rfl
      revert hpat
      decide
    have hget : w.get (priceKey id) = some amount := Store.get_of_entry hp
    rw [hget]
    simp [nonEmpty, hne]

theorem mapError_sql_ne {α : Type} (x : Except PgError α) :
    x.mapError SettleError.sql ≠ .error .leaderWithoutPrice := by
  cases x <;> simp [Except.mapError]

/-- The branch `leader exists without price` is not taken on a pair. -/
theorem settleRow_pair {E : Engines} {db : Db} {now : Int} {id : Uuid} {price leader : Option String}
    (h : ReadPair price leader) : settleRow E db now id price leader ≠ .error .leaderWithoutPrice := by
  intro he
  unfold settleRow at he
  cases h1 : (updateClosed db now id).mapError SettleError.sql with
  | error e =>
    rw [h1] at he
    cases he
    exact mapError_sql_ne _ h1
  | ok db₁ =>
    rw [h1] at he
    cases hl : nonEmpty leader with
    | none => cases hp : nonEmpty price <;> rw [hp, hl] at he <;> cases he
    | some user =>
      obtain ⟨ps, hp⟩ := Option.isSome_iff_exists.mp (h (by rw [hl]; rfl))
      rw [hp, hl] at he
      cases h2 : (insertWinner E db₁ id user ps).mapError SettleError.sql with
      | error e =>
        simp only [h2, bind, Except.bind, Except.error.injEq] at he
        exact mapError_sql_ne _ (he ▸ h2)
      | ok db₂ =>
        cases h3 : (updateSettled E db₂ now id ps user).mapError SettleError.sql with
        | error e =>
          simp only [h2, h3, bind, Except.bind, Except.error.injEq] at he
          exact mapError_sql_ne _ (he ▸ h3)
        | ok db₃ => simp [h2, h3, bind, Except.bind, pure, Except.pure] at he

theorem settleTx_pair {E : Engines} {db : Db} {now : Int} {id : String} {price leader : Option String}
    (h : ReadPair price leader) :
    (settleTx E db now id price leader).2 ≠ .failed .leaderWithoutPrice := by
  unfold settleTx
  split
  · simp
  · rename_i u hu
    split
    · simp
    · rename_i a hf
      split
      · split
        · rename_i r hr
          obtain ⟨db', o⟩ := r
          rcases settleRow_ok hf hr with
            ⟨-, ho, -⟩ | ⟨_, _, _, _, -, -, -, -, ho, -⟩ <;> simp [ho]
        · rename_i e he
          intro hfail
          cases hfail
          exact settleRow_pair h he
      · simp

/-- The triple of every id, and what the workers have read of it. -/
structure Triples (s : Sys) : Prop where
  paired : ∀ id, Paired s.world id
  reads : ∀ i, Reads ReadPair (fun o => o ≠ .failed .leaderWithoutPrice) (s.slot i)

theorem Triples.step {E : Engines} {T : Uuid → Option Terms} {A : Job → Prop} {s s' : Sys} {e : Ev}
    (h : Triples s) (hsound : Sound T A s) (hst : sysStep E s e = some s') : Triples s' := by
  refine ⟨fun id => ?_, ?_⟩
  · rcases Program.step_world hst with hw | ⟨d, rfl, hw⟩ | ⟨i, c, rfl, hwire, hw⟩ <;> rw [hw]
    · exact h.paired id
    · exact (h.paired id).tick d
    · obtain ⟨p, hp, hwait, -⟩ := (hsound.2 i).wire c hwire
      exact (h.paired id).exec hp hwait
  · exact Reads.step hsound (fun job _ _ => readPair_mget (h.paired job.id))
      (fun _ _ _ _ _ => settleTx_pair) h.reads hst

theorem triples_opens {s : Sys} {u : Uuid} {a : Auction} (hb : Opens s u a) : Triples s := by
  refine ⟨fun id e he => ?_, reads_fresh hb.fresh⟩
  rw [World.entry, hb.redis] at he
  cases he

/-- **The triple along a run**, for every id text at once. -/
theorem triples_along {E : Engines} {A : Job → Prop} {C : Sys → Ev → Prop} {s s' : Sys} {u : Uuid}
    {a : Auction} (hb : Opens s u a) (hC : ∀ t e, C t e → JobsOn A e)
    (hr : Steps.Reach (sysStep E) C s s') : Triples s' ∧ Steps.Reach (sysStep E)
      (fun t e => (C t e ∧ Sound (termsOf s.world.db) A t) ∧ Triples t) s s' :=
  Steps.reach_keeps (fun _ _ _ hI hc hst => hI.step hc.2 hst) (triples_opens hb)
    (sound_along hb.fresh hC hr).2

/-- **Price, leader and last event stay one consistent triple.** Whatever bids and workers
do, fail to do or stop doing: a leader that can be read has a price beside it, the two are
those of an accepted bid, the last PRICE_UPDATE carries that price, and no settlement is ever
told of a leader without a price. -/
theorem price_leader_event_consistent {E : Engines} {s s' : Sys} {u : Uuid} {a : Auction}
    (hb : Begins s u a) (hr : Steps.Reach (sysStep E) (fun _ _ => True) s s') :
    (∀ id user, s'.world.get (leaderKey id) = some user → ∃ amount,
      s'.world.get (priceKey id) = some amount ∧ ⟨id, user, amount⟩ ∈ s'.world.accepted ∧
      lastPriceUpdate id s'.world.published = some amount) ∧
    ∀ i, (s'.slot i).inbox ≠ some (.tx (.failed .leaderWithoutPrice)) := by
  have h := (triples_along hb.toOpens (fun _ e _ => jobsOn_true e) hr).1
  refine ⟨fun id user hget => ?_, fun i htold => (h.reads i).told _ htold rfl⟩
  obtain ⟨e, he, rfl⟩ := Store.get_eq_some.mp hget
  obtain ⟨amount, hp, -, hlast, hupd⟩ := h.paired id e he
  exact ⟨amount, Store.get_of_entry hp, List.mem_of_find?_eq_some hlast, hupd⟩

theorem price_leader_event_consistent_lot : ∃ s',
    Steps.run (sysStep decimalEngines) lotAtTen (bidThenSettle 1) = some s' ∧
    s'.world.get (leaderKey (Uuid.ofDigit 0).text) = some (Uuid.ofDigit 1).text ∧
    (∀ id user, s'.world.get (leaderKey id) = some user → ∃ amount,
      s'.world.get (priceKey id) = some amount ∧ ⟨id, user, amount⟩ ∈ s'.world.accepted ∧
      lastPriceUpdate id s'.world.published = some amount) ∧
    ∀ i, (s'.slot i).inbox ≠ some (.tx (.failed .leaderWithoutPrice)) := by
  obtain ⟨s', hrun, hget⟩ := Steps.exists_of_check (sysStep decimalEngines) lotAtTen (bidThenSettle 1)
    (fun s => decide (s.world.get (leaderKey (Uuid.ofDigit 0).text) = some (Uuid.ofDigit 1).text))
    (by decide +kernel)
  exact ⟨s', hrun, of_decide_eq_true hget,
    price_leader_event_consistent (opening_begins ten (by decide)) (Steps.reach_run hrun)⟩

end Synora
