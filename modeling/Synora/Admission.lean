import Synora.Hub

/- No auction data before authentication. A connection is entered in `conns`, given its
   goroutines and sent what is published only after its first frame came in time and
   carried the token of a user (`Admitted`). Any other is told AUTH_ERROR at most once;
   nothing can keep its handler from closing it once the deadline has passed. -/
namespace Synora

open StructFields

/-! ## What the steps of a connection do -/

section
variable (mac : List UInt8 → List UInt8 → List UInt8) (secret : List UInt8)

/-- What a step of the authentication makes of a connection. -/
inductive AuthMove (now : Int) (users : List Uuid) (c : Conn) : Conn → Prop where
  | accepted (hphase : c.phase = .absent) :
    AuthMove now users c { Conn.absent with phase := .authenticating, opened := now }
  | failed (e : AuthFailure) (hphase : c.phase = .authenticating ∨ ∃ sub, c.phase = .validating sub) :
    AuthMove now users c { c with phase := .refusing e }
  | verified (bytes : List UInt8) (f : AuthFrame) (sub : String) (hphase : c.phase = .authenticating)
    (hfirst : c.firstInTime = some bytes) (hframe : readAuthFrame bytes = some f)
    (hbearer : bearer mac secret now f = some sub) :
    AuthMove now users c { c with phase := .validating sub, checked := some now }
  | validated (sub : String) (hphase : c.phase = .validating sub) (huser : userExists users sub = true) :
    AuthMove now users c { c with phase := .registering, validated := some users }
  | refused (e : AuthFailure) (ok : Bool) (hphase : c.phase = .refusing e) :
    AuthMove now users c { c with
      phase := .hangingUp
      sent := if ok then c.sent ++ [.authError e] else c.sent }
  | hungUp (hphase : c.phase = .hangingUp) :
    AuthMove now users c { c with phase := .hungUp, closed := true }

theorem authStep_move {now : Int} {users : List Uuid} {c c' : Conn} {e : AuthEvent}
    (hst : authStep mac secret now users c e = some c') : AuthMove mac secret now users c c' := by
  cases e with
  | accept =>
    simp only [authStep] at hst
    split at hst
    next hp =>
      cases hst
      exact .accepted hp
    · cases hst
  | readFails text =>
    simp only [authStep] at hst
    split at hst
    next hp =>
      cases hst
      exact .failed _ (.inl hp.1)
    · cases hst
  | check =>
    simp only [authStep] at hst
    split at hst
    next hp =>
      obtain ⟨f, hf, hc'⟩ := Option.map_eq_some_iff.mp hst
      obtain ⟨bytes, hfirst, hframe⟩ := Option.bind_eq_some_iff.mp hf
      cases hb : bearer mac secret now f with
      | none =>
        rw [hb] at hc'
        subst hc'
        exact .failed _ (.inl hp)
      | some sub =>
        rw [hb] at hc'
        subst hc'
        exact .verified bytes f sub hp hfirst hframe hb
    · cases hst
  | validate up =>
    simp only [authStep] at hst
    split at hst
    next sub hp =>
      split at hst
      next hvalid =>
        cases hst
        rw [Bool.and_eq_true] at hvalid
        exact .validated sub hp hvalid.2
      · cases hst
        exact .failed _ (.inr ⟨sub, hp⟩)
    · cases hst
  | refuse ok =>
    simp only [authStep] at hst
    split at hst
    next failure hp =>
      cases hst
      exact .refused failure ok hp
    · cases hst
  | hangUp =>
    simp only [authStep] at hst
    split at hst
    next hp =>
      cases hst
      exact .hungUp hp
    · cases hst

end

/-- No goroutine runs for the connection, and nothing waits for one. -/
def Conn.Quiet (c : Conn) : Prop := c.send = [] ∧ c.writer = .off ∧ c.subscriber = .off

/-- What the goroutines have no hand in is the same. -/
structure SameHandler (c c' : Conn) : Prop where
  phase : c'.phase = c.phase
  opened : c'.opened = c.opened
  arrived : c'.arrived = c.arrived
  checked : c'.checked = c.checked
  validated : c'.validated = c.validated

theorem publish_same (c : Conn) (payload : String) : SameHandler c (c.publish payload) := by
  unfold Conn.publish
  split <;> exact ⟨rfl, rfl, rfl, rfl, rfl⟩

/-- A goroutine takes steps only where one runs, and leaves the rest alone. -/
theorem routineStep_same {c c' : Conn} {e : RoutineEvent} (hst : routineStep c e = some c') :
    ¬ c.Quiet ∧ SameHandler c c' := by
  unfold Conn.Quiet
  cases e with
  | subscribe =>
    simp only [routineStep] at hst
    split at hst
    next hs =>
      cases hst
      exact ⟨by simp [hs], ⟨rfl, rfl, rfl, rfl, rfl⟩⟩
    · cases hst
  | receive =>
    simp only [routineStep] at hst
    split at hst
    next p pending hs =>
      split at hst <;> cases hst <;> exact ⟨by simp [hs], ⟨rfl, rfl, rfl, rfl, rfl⟩⟩
    · cases hst
  | subscriberReturns =>
    simp only [routineStep] at hst
    split at hst
    · cases hst
    next hs =>
      cases hst
      exact ⟨fun hquiet => hs (.inl hquiet.2.2), ⟨rfl, rfl, rfl, rfl, rfl⟩⟩
  | take =>
    simp only [routineStep] at hst
    split at hst
    next p rest hw hq =>
      cases hst
      exact ⟨by simp [hw], ⟨rfl, rfl, rfl, rfl, rfl⟩⟩
    · cases hst
  | write ok =>
    simp only [routineStep] at hst
    split at hst
    next p hw =>
      split at hst
      · split at hst <;> cases hst
        exact ⟨by simp [hw], ⟨rfl, rfl, rfl, rfl, rfl⟩⟩
      · cases hst
        exact ⟨by simp [hw], ⟨rfl, rfl, rfl, rfl, rfl⟩⟩
    · cases hst
  | writerReturns =>
    simp only [routineStep] at hst
    split at hst
    next hw =>
      cases hst
      exact ⟨by simp [hw], ⟨rfl, rfl, rfl, rfl, rfl⟩⟩
    · cases hst

/-! ## Who is admitted -/

section
variable (mac : List UInt8 → List UInt8 → List UInt8) (secret : List UInt8)

/-- The token is signed with HS256 under the secret, has not expired at `now`, and `sub` is its
subject. An `exp` of zero counts as none, as it does for the parser. -/
def Verifies (now : Int) (token sub : String) : Prop :=
  ∃ header claims signature headerMembers claimMembers expiry,
    token.toList.splitOn '.' = [header, claims, signature] ∧
    (Jwt.readSegment header).bind members = some headerMembers ∧
    Jwt.lookup headerMembers "alg" = some (.str "HS256") ∧
    Base64Url.decode (String.ofList signature) =
      some (mac secret (Base64Url.utf8 (header ++ '.' :: claims))) ∧
    (Jwt.readSegment claims).bind members = some claimMembers ∧
    mapDate "exp" claimMembers = some expiry ∧ (∀ t ∈ expiry, now < second * t) ∧
    Jwt.lookup claimMembers "sub" = some (.str sub)

/-- The first message came in time and is a frame of type AUTH with a token that verified. -/
def Presents (c : Conn) (sub : String) : Prop :=
  ∃ t bytes rest f now, c.arrived = (t, bytes) :: rest ∧ t ≤ c.opened + authTimeout ∧
    readAuthFrame bytes = some f ∧ f.type = "AUTH" ∧
    c.checked = some now ∧ Verifies mac secret now f.token sub

/-- … and its subject is a user. -/
def Admitted (c : Conn) : Prop :=
  ∃ sub users, Presents mac secret c sub ∧ c.validated = some users ∧ userExists users sub = true

/-- What `bearer` returns is the subject of a token that verifies. -/
theorem bearer_verifies {now : Int} {f : AuthFrame} {sub : String} (h : bearer mac secret now f = some sub) :
    f.type = "AUTH" ∧ Verifies mac secret now f.token sub := by
  unfold bearer at h
  split at h
  · cases h
  next hframe =>
  split at h
  · cases h
  next claims hparse =>
  split at h
  next sub' hsub =>
    cases h
    obtain ⟨header, body, signature, ms, hsplit, hheader, halg, hdecode, hsig, htime⟩ :=
      Jwt.parse_eq_some hparse
    obtain ⟨expiry, hexp, hbefore⟩ := Jwt.inTime_expiry htime
    exact ⟨by tauto, header, body, signature, ms, claims, expiry, hsplit, hheader, halg, hsig, hdecode,
      hexp, hbefore, hsub⟩
  · cases h

/-! ## The invariant -/

/-- At most one AUTH_ERROR was sent, and nothing else. -/
def Conn.Refused (c : Conn) : Prop := c.sent = [] ∨ ∃ e, c.sent = [.authError e]

/-- What is known of a connection in each phase; `registered` is its entry in `conns`. -/
def Guarded (registered : Bool) (c : Conn) : Prop :=
  match c.phase with
  | .absent | .authenticating | .refusing _ => registered = false ∧ c.Quiet ∧ c.sent = []
  | .validating sub => registered = false ∧ c.Quiet ∧ c.sent = [] ∧ Presents mac secret c sub
  | .hangingUp => registered = false ∧ c.Quiet ∧ c.Refused
  | .hungUp => registered = false ∧ c.Quiet ∧ c.Refused ∧ c.closed = true
  | .registering => registered = false ∧ c.Quiet ∧ c.sent = [] ∧ Admitted mac secret c
  | .greeting => c.Quiet ∧ c.sent = [] ∧ Admitted mac secret c
  | .reading | .unregistering | .disconnecting | .canceling | .awaiting | .returned =>
    Admitted mac secret c

variable {mac secret} {registered : Bool} {c c' : Conn}

theorem Presents.arrive {sub : String} (h : Presents mac secret c sub) (hopened : c'.opened = c.opened)
    (hchecked : c'.checked = c.checked) {more : List (Int × List UInt8)}
    (harrived : c'.arrived = c.arrived ++ more) : Presents mac secret c' sub := by
  obtain ⟨t, bytes, rest, f, now, hfirst, hintime, hframe, htype, hnow, hverifies⟩ := h
  refine ⟨t, bytes, rest ++ more, f, now, ?_, ?_, hframe, htype, ?_, hverifies⟩
  · rw [harrived, hfirst, List.cons_append]
  · rw [hopened]
    exact hintime
  · rw [hchecked]
    exact hnow

theorem guarded_of_started (hphase : c.phase.started = true) (h : Admitted mac secret c) :
    Guarded mac secret registered c := by
  unfold Guarded
  cases hp : c.phase <;> first | exact h | (rw [hp] at hphase; cases hphase)

theorem Guarded.admitted (h : Guarded mac secret registered c) (hphase : c.phase.started = true) :
    Admitted mac secret c := by
  unfold Guarded at h
  cases hp : c.phase <;> rw [hp] at h hphase <;> first | exact h | cases hphase

/-- Where a goroutine runs, both were started. -/
theorem Guarded.started (h : Guarded mac secret registered c) (hquiet : ¬ c.Quiet) :
    c.phase.started = true := by
  -- in every earlier phase the invariant says that the connection is quiet
  unfold Guarded at h
  cases hp : c.phase <;> rw [hp] at h <;> first
    | rfl
    | exact absurd h.1 hquiet
    | exact absurd h.2.1 hquiet

/-- What happens outside the handler and its goroutines changes nothing that is known. -/
theorem Guarded.outside (h : Guarded mac secret registered c) (hphase : c'.phase = c.phase)
    (hquiet : c.Quiet → c'.Quiet) (hsent : c'.sent = c.sent) (hclosed : c'.closed = c.closed)
    (hpresents : ∀ sub, Presents mac secret c sub → Presents mac secret c' sub)
    (hvalidated : c'.validated = c.validated) : Guarded mac secret registered c' := by
  have hadmitted : Admitted mac secret c → Admitted mac secret c' := by
    rintro ⟨sub, users, hp, hv, hu⟩
    exact ⟨sub, users, hpresents sub hp, hvalidated.trans hv, hu⟩
  unfold Guarded Conn.Refused at h ⊢
  rw [hphase, hsent, hclosed]
  cases hp : c.phase <;> rw [hp] at h <;> simp only at h ⊢
  case absent => exact ⟨h.1, hquiet h.2.1, h.2.2⟩
  case authenticating => exact ⟨h.1, hquiet h.2.1, h.2.2⟩
  case validating sub => exact ⟨h.1, hquiet h.2.1, h.2.2.1, hpresents sub h.2.2.2⟩
  case refusing => exact ⟨h.1, hquiet h.2.1, h.2.2⟩
  case hangingUp => exact ⟨h.1, hquiet h.2.1, h.2.2⟩
  case hungUp => exact ⟨h.1, hquiet h.2.1, h.2.2⟩
  case registering => exact ⟨h.1, hquiet h.2.1, h.2.2.1, hadmitted h.2.2.2⟩
  case greeting => exact ⟨hquiet h.1, h.2.1, hadmitted h.2.2⟩
  all_goals exact hadmitted h

theorem Guarded.publish (h : Guarded mac secret registered c) (payload : String) :
    Guarded mac secret registered (c.publish payload) := by
  unfold Conn.publish
  split
  next pending hactive =>
    have hstarted : c.phase.started = true := h.started fun hquiet => by simp [hquiet.2.2] at hactive
    exact guarded_of_started hstarted (h.admitted hstarted)
  · exact h

/-- What `check` makes of a first frame that came in time. -/
theorem presents_of_bearer {bytes : List UInt8} {f : AuthFrame} {sub : String} {now : Int}
    (hfirst : c.firstInTime = some bytes) (hframe : readAuthFrame bytes = some f)
    (hbearer : bearer mac secret now f = some sub) (hchecked : c'.checked = some now)
    (harrived : c'.arrived = c.arrived) (hopened : c'.opened = c.opened) : Presents mac secret c' sub := by
  obtain ⟨htype, hverifies⟩ := bearer_verifies mac secret hbearer
  unfold Conn.firstInTime at hfirst
  split at hfirst
  · cases hfirst
  next t bytes' rest harr =>
  split at hfirst
  next hintime =>
    cases hfirst
    rw [← harrived] at harr
    rw [← hopened] at hintime
    exact ⟨t, bytes, rest, f, now, harr, hintime, hframe, htype, hchecked, hverifies⟩
  · cases hfirst

theorem Guarded.peer {now : Int} {e : PeerEvent} (h : Guarded mac secret registered c)
    (hst : peerStep now c e = some c') : Guarded mac secret registered c' := by
  unfold peerStep at hst
  split at hst
  · cases hst
  cases e with
  | arrive bytes =>
    cases hst
    exact h.outside rfl (fun hquiet => hquiet) rfl rfl (fun sub hp => hp.arrive rfl rfl rfl) rfl
  | lose =>
    cases hst
    exact h.outside rfl (fun hquiet => hquiet) rfl rfl (fun sub hp => hp) rfl

theorem Guarded.auth {now : Int} {users : List Uuid} {e : AuthEvent} (h : Guarded mac secret registered c)
    (hst : authStep mac secret now users c e = some c') : Guarded mac secret registered c' := by
  cases authStep_move mac secret hst with
  | accepted hp =>
    rw [Guarded, hp] at h
    exact ⟨h.1, ⟨rfl, rfl, rfl⟩, rfl⟩
  | failed failure hp =>
    rcases hp with hp | ⟨sub, hp⟩
    · rw [Guarded, hp] at h
      exact h
    · rw [Guarded, hp] at h
      exact ⟨h.1, h.2.1, h.2.2.1⟩
  | verified bytes f sub hp hfirst hframe hbearer =>
    rw [Guarded, hp] at h
    exact ⟨h.1, h.2.1, h.2.2, presents_of_bearer hfirst hframe hbearer rfl rfl rfl⟩
  | validated sub hp huser =>
    rw [Guarded, hp] at h
    obtain ⟨hreg, hquiet, hsent, hpresents⟩ := h
    exact ⟨hreg, hquiet, hsent, sub, users, hpresents, rfl, huser⟩
  | refused failure ok hp =>
    rw [Guarded, hp] at h
    obtain ⟨hreg, hquiet, hsent⟩ := h
    refine ⟨hreg, hquiet, ?_⟩
    cases ok with
    | false => exact .inl hsent
    | true => exact .inr ⟨failure, by simp [hsent]⟩
  | hungUp hp =>
    rw [Guarded, hp] at h
    exact ⟨h.1, h.2.1, h.2.2, rfl⟩

theorem Guarded.serve {e : ServeEvent} (h : Guarded mac secret registered c)
    (hst : serveStep c e = some c') :
    Guarded mac secret ((ConnEvent.serve e).entry registered) c' := by
  cases e with
  | register =>
    simp only [serveStep] at hst
    split at hst
    next hp =>
      cases hst
      rw [Guarded, hp] at h
      exact h.2
    · cases hst
  | greet ok =>
    simp only [serveStep] at hst
    split at hst
    next hp =>
      cases hst
      rw [Guarded, hp] at h
      exact guarded_of_started rfl h.2.2
    · cases hst
  | readerReturns | unregister | disconnect | cancel =>
    simp only [serveStep] at hst
    split at hst
    next hp =>
      cases hst
      exact guarded_of_started rfl (h.admitted (by rw [hp]; rfl))
    · cases hst
  | finish =>
    simp only [serveStep] at hst
    split at hst
    next hp =>
      cases hst
      exact guarded_of_started rfl (h.admitted (by rw [hp.1]; rfl))
    · cases hst

/-- A goroutine runs only for a connection that was admitted, and it stays admitted. -/
theorem Guarded.routine {e : RoutineEvent} (h : Guarded mac secret registered c)
    (hst : routineStep c e = some c') : Guarded mac secret registered c' := by
  obtain ⟨hquiet, hsame⟩ := routineStep_same hst
  have hstarted := h.started hquiet
  obtain ⟨sub, users, hpresents, hvalidated, huser⟩ := h.admitted hstarted
  refine guarded_of_started (hsame.phase ▸ hstarted) ⟨sub, users, ?_, hsame.validated.trans hvalidated, huser⟩
  exact hpresents.arrive hsame.opened hsame.checked (hsame.arrived.trans (List.append_nil _).symm)

/-- **The step lemma.** -/
theorem Guarded.step {now : Int} {users : List Uuid} {e : ConnEvent}
    (h : Guarded mac secret registered c) (hst : connStep mac secret now users c e = some c') :
    Guarded mac secret (e.entry registered) c' := by
  cases e with
  | peer e => exact h.peer hst
  | auth e => exact h.auth hst
  | serve e => exact h.serve hst
  | routine e => exact h.routine hst

/-! ## Every connection of the hub -/

/-- The invariant of the hub. -/
def AllGuarded (mac : List UInt8 → List UInt8 → List UInt8) (secret : List UInt8) (h : Hub) : Prop :=
  ∀ i, Guarded mac secret (h.conns i) (h.conn i)

theorem allGuarded_new (now : Int) (users : List Uuid) : AllGuarded mac secret (.new now users) :=
  fun _ => ⟨rfl, ⟨rfl, rfl, rfl⟩, rfl⟩

theorem AllGuarded.step {h h' : Hub} {e : HubEvent} (hI : AllGuarded mac secret h)
    (hst : hubStep mac secret h e = some h') : AllGuarded mac secret h' := by
  cases e with
  | tick d =>
    cases hst
    exact hI
  | users us =>
    cases hst
    exact hI
  | publish payload =>
    cases hst
    exact fun j => (hI j).publish payload
  | conn i e =>
    obtain ⟨c, hc, rfl⟩ := Option.map_eq_some_iff.mp hst
    intro j
    by_cases hj : j = i
    · subst hj
      simp only [Function.update_self]
      exact (hI j).step hc
    · simp only [Function.update_of_ne hj]
      exact hI j

theorem run_allGuarded {now : Int} {users : List Uuid} {es : List HubEvent} {h : Hub}
    (hrun : Steps.run (hubStep mac secret) (Hub.new now users) es = some h) : AllGuarded mac secret h :=
  Steps.reach_invariant (I := AllGuarded mac secret) (fun _ _ _ hI _ hst => hI.step hst)
    (allGuarded_new now users) (Steps.reach_run hrun)

/-! ## How long it takes to turn a connection away -/

/-- How many steps of `ServeHTTP` are left until the connection is authenticated or closed. -/
def Phase.rank : Phase → Nat
  | .absent => 5
  | .authenticating => 4
  | .validating _ => 3
  | .refusing _ => 2
  | .hangingUp => 1
  | _ => 0

theorem authStep_rank {now : Int} {users : List Uuid} {e : AuthEvent}
    (hst : authStep mac secret now users c e = some c') : c'.phase.rank < c.phase.rank := by
  cases authStep_move mac secret hst with
  | accepted hp => simp [hp, Phase.rank]
  | failed failure hp => rcases hp with hp | ⟨sub, hp⟩ <;> simp [hp, Phase.rank]
  | verified bytes f sub hp hfirst hframe hbearer => simp [hp, Phase.rank]
  | validated sub hp huser => simp [hp, Phase.rank]
  | refused failure ok hp => simp [hp, Phase.rank]
  | hungUp hp => simp [hp, Phase.rank]

/-- The steps of `ServeHTTP` for a connection until it is authenticated, or closed. -/
def HubEvent.authenticates (i : Nat) : HubEvent → Bool
  | .conn j (.auth _) => decide (j = i)
  | _ => false

theorem peerStep_phase {now : Int} {e : PeerEvent} (hst : peerStep now c e = some c') : c'.phase = c.phase := by
  unfold peerStep at hst
  split at hst
  · cases hst
  cases e <;>
  · cases hst
    rfl

theorem serveStep_rank {e : ServeEvent} (hst : serveStep c e = some c') : c'.phase.rank ≤ c.phase.rank := by
  cases e with
  | register | greet ok | readerReturns | unregister | disconnect | cancel | finish =>
    simp only [serveStep] at hst
    split at hst
    · cases hst
      exact Nat.zero_le _
    · cases hst

theorem hubStep_rank {h h' : Hub} {e : HubEvent} (i : Nat) (hst : hubStep mac secret h e = some h') :
    (h'.conn i).phase.rank ≤ (h.conn i).phase.rank ∧
      (e.authenticates i = true → (h'.conn i).phase.rank < (h.conn i).phase.rank) := by
  cases e with
  | tick d =>
    cases hst
    exact ⟨Nat.le_refl _, fun hown => Bool.noConfusion hown⟩
  | users us =>
    cases hst
    exact ⟨Nat.le_refl _, fun hown => Bool.noConfusion hown⟩
  | publish payload =>
    cases hst
    refine ⟨?_, fun hown => Bool.noConfusion hown⟩
    rw [(publish_same _ _).phase]
  | conn j e =>
    obtain ⟨c, hc, rfl⟩ := Option.map_eq_some_iff.mp hst
    by_cases hj : j = i
    · subst hj
      simp only [Function.update_self]
      cases e with
      | auth e =>
        have hlt := authStep_rank hc
        exact ⟨Nat.le_of_lt hlt, fun _ => hlt⟩
      | peer e =>
        rw [peerStep_phase hc]
        exact ⟨Nat.le_refl _, fun hown => Bool.noConfusion hown⟩
      | serve e => exact ⟨serveStep_rank hc, fun hown => Bool.noConfusion hown⟩
      | routine e =>
        rw [(routineStep_same hc).2.phase]
        exact ⟨Nat.le_refl _, fun hown => Bool.noConfusion hown⟩
    · simp only [Function.update_of_ne (Ne.symm hj)]
      refine ⟨Nat.le_refl _, fun hown => ?_⟩
      cases e with
      | auth e => exact absurd (of_decide_eq_true hown) hj
      | peer e => cases hown
      | serve e => cases hown
      | routine e => cases hown

/-- Of a connection that was not admitted: it was told AUTH_ERROR at most once and nothing else,
is not in `conns`, where no step of its own changes anything, and is closed, or else has taken
fewer than five steps to that end and can take the next once the deadline has passed. -/
structure TurnedAway (mac : List UInt8 → List UInt8 → List UInt8) (secret : List UInt8) (i : Nat)
    (es : List HubEvent) (h : Hub) : Prop where
  refused : (h.conn i).Refused
  unregistered : h.conns i = false
  kept : ∀ e h', hubStep mac secret h (.conn i e) = some h' → h'.conns = h.conns
  closes : (h.conn i).closed = true ∨
    es.countP (HubEvent.authenticates i) < 5 ∧
      ((h.conn i).opened + authTimeout ≤ h.now →
        ∃ e, (hubStep mac secret h (.conn i (.auth e))).isSome = true)

/-- What is not admitted stands in one of the first phases. -/
theorem Guarded.turnedAway (h : Guarded mac secret registered c) (hnot : ¬ Admitted mac secret c) :
    registered = false ∧ c.Quiet ∧ c.Refused ∧ c.phase ≠ .registering ∧ c.phase ≠ .unregistering ∧
      (c.closed = true ∨ 0 < c.phase.rank) := by
  unfold Guarded at h
  cases hp : c.phase <;> rw [hp] at h <;> simp only at h
  case absent => exact ⟨h.1, h.2.1, .inl h.2.2, nofun, nofun, .inr (by decide)⟩
  case authenticating => exact ⟨h.1, h.2.1, .inl h.2.2, nofun, nofun, .inr (by decide)⟩
  case validating sub => exact ⟨h.1, h.2.1, .inl h.2.2.1, nofun, nofun, .inr (Nat.zero_lt_succ _)⟩
  case refusing e => exact ⟨h.1, h.2.1, .inl h.2.2, nofun, nofun, .inr (Nat.zero_lt_succ _)⟩
  case hangingUp => exact ⟨h.1, h.2.1, h.2.2, nofun, nofun, .inr (by decide)⟩
  case hungUp => exact ⟨h.1, h.2.1, h.2.2.1, nofun, nofun, .inl h.2.2.2⟩
  case registering => exact absurd h.2.2.2 hnot
  case greeting => exact absurd h.2.2 hnot
  all_goals exact absurd h hnot

/-- Until it is authenticated or closed, `ServeHTTP` is never stuck after the deadline. -/
theorem authStep_enabled (mac : List UInt8 → List UInt8 → List UInt8) (secret : List UInt8) {now : Int}
    (users : List Uuid) (hrank : 0 < c.phase.rank)
    (hdeadline : c.opened + authTimeout ≤ now) :
    ∃ e, (authStep mac secret now users c e).isSome = true := by
  cases hp : c.phase with
  | absent => exact ⟨.accept, by simp [authStep, hp]⟩
  | authenticating => exact ⟨.readFails "i/o timeout", by simp [authStep, hp, Conn.readFails, hdeadline]⟩
  | validating sub => exact ⟨.validate true, by simp [authStep, hp]⟩
  | refusing e => exact ⟨.refuse true, by simp [authStep, hp]⟩
  | hangingUp => exact ⟨.hangUp, by simp [authStep, hp]⟩
  | hungUp | registering | greeting | reading | unregistering | disconnecting | canceling | awaiting
  | returned =>
    rw [hp] at hrank
    exact absurd hrank (Nat.lt_irrefl 0)

/-- **No auction data before authentication**: for every sequence of messages at any times, and
every order of the steps of all connections, Redis and the clock. -/
theorem no_data_before_authentication {now : Int} {users : List Uuid} {es : List HubEvent} {h : Hub}
    (hrun : Steps.run (hubStep mac secret) (Hub.new now users) es = some h) (i : Nat) :
    (((∃ payload, .published payload ∈ (h.conn i).sent) ∨ h.conns i = true ∨ (h.conn i).subscriber ≠ .off) →
      Admitted mac secret (h.conn i)) ∧
    (¬ Admitted mac secret (h.conn i) → TurnedAway mac secret i es h) := by
  have hguarded := run_allGuarded hrun i
  -- each of these steps lowers the rank, and no other step of the hub raises it
  have hcount : es.countP (HubEvent.authenticates i) + (h.conn i).phase.rank ≤ 5 := by
    refine Steps.run_rank (fun h => (h.conn i).phase.rank) _ ?_ ?_ hrun
    · exact fun _ _ _ hown hst => (hubStep_rank i hst).2 hown
    · exact fun _ _ _ _ hst => (hubStep_rank i hst).1
  constructor
  · intro hdata
    by_contra hnot
    obtain ⟨hreg, hquiet, hrefused, -⟩ := hguarded.turnedAway hnot
    rcases hdata with ⟨payload, hsent⟩ | hconns | hsub
    · rcases hrefused with hnone | ⟨e, hone⟩
      · rw [hnone] at hsent
        cases hsent
      · rw [hone, List.mem_singleton] at hsent
        cases hsent
    · rw [hreg] at hconns
      cases hconns
    · exact hsub hquiet.2.2
  · intro hnot
    obtain ⟨hreg, hquiet, hrefused, hregistering, hunregistering, hclosed⟩ := hguarded.turnedAway hnot
    refine ⟨hrefused, hreg, fun e h' hst => ?_, ?_⟩
    · -- only two steps write to `conns`, and both come after the authentication
      obtain ⟨c, hc, rfl⟩ := Option.map_eq_some_iff.mp hst
      have hentry : e.entry (h.conns i) = h.conns i := by
        unfold ConnEvent.entry
        split
        · simp [connStep, serveStep, hregistering] at hc
        · simp [connStep, serveStep, hunregistering] at hc
        · rfl
      simp only [hentry, Function.update_eq_self]
    · rcases hclosed with hclosed | hrank
      · exact .inl hclosed
      · refine .inr ⟨by omega, fun hdeadline => ?_⟩
        obtain ⟨e, he⟩ := authStep_enabled mac secret h.users hrank hdeadline
        refine ⟨e, ?_⟩
        rw [hubStep, connStep, Option.isSome_map]
        exact he

end

/-- The user of the sample token is let in, and gets what is published. -/
def admittedRun : List HubEvent :=
  handshake 0 sampleToken ++ [.conn 0 (.routine .subscribe), .publish "15.00", .conn 0 (.routine .receive),
    .conn 0 (.routine .take), .conn 0 (.routine (.write true))]

theorem no_data_before_authentication_sample : ∃ h,
    Steps.run (hubStep sampleMac sampleSecret) (Hub.new 0 [Uuid.ofDigit 1]) admittedRun = some h ∧
    (h.conn 0).sent = [.authSuccess, .published "15.00"] ∧ Admitted sampleMac sampleSecret (h.conn 0) := by
  obtain ⟨h, hrun, hsent⟩ := Steps.exists_of_check (hubStep sampleMac sampleSecret)
    (Hub.greeted 0 0 [Uuid.ofDigit 1] sampleToken)
    [.conn 0 (.routine .subscribe), .publish "15.00", .conn 0 (.routine .receive), .conn 0 (.routine .take),
      .conn 0 (.routine (.write true))]
    (fun h => decide ((h.conn 0).sent = [.authSuccess, .published "15.00"])) (by decide +kernel)
  have hall : Steps.run (hubStep sampleMac sampleSecret) (Hub.new 0 [Uuid.ofDigit 1]) admittedRun = some h :=
    Steps.run_append.mpr ⟨_, run_handshake_sample, hrun⟩
  have hsent := of_decide_eq_true hsent
  exact ⟨h, hall, hsent, (no_data_before_authentication hall 0).1 (.inl ⟨"15.00", by rw [hsent]; simp⟩)⟩

end Synora
