import Synora.Admission

/- What of the published messages reaches an authenticated connection. They pass through
   the subscription, the channel `send` and the writer, in order. Two of these stations
   lose messages: the subscription is made after AUTH_SUCCESS was written, and the send
   into a full channel is skipped. Nothing else does (`updates_delivered_iff`). -/
namespace Synora

/-! ## The way of a message -/

def ServerFrame.payload : ServerFrame → List String
  | .published payload => [payload]
  | _ => []

/-- The payloads the client has been sent. -/
def Conn.delivered (c : Conn) : List String := c.sent.flatMap ServerFrame.payload

def Writer.hand : Writer → List String
  | .holding payload => [payload]
  | _ => []

def Subscriber.pending : Subscriber → List String
  | .active pending => pending
  | _ => []

/-- What is not lost yet, oldest first. -/
def Conn.flow (c : Conn) : List String :=
  c.delivered ++ (c.writer.hand ++ (c.send ++ c.subscriber.pending))

/-- The send queue has drained, and so has what comes before and after it. -/
def Conn.Drained (c : Conn) : Prop :=
  c.writer.hand = [] ∧ c.send = [] ∧ c.subscriber.pending = []

instance (c : Conn) : Decidable c.Drained := by
  unfold Conn.Drained
  infer_instance

theorem Conn.Drained.flow {c : Conn} (h : c.Drained) : c.flow = c.delivered := by
  obtain ⟨hhand, hsend, hpending⟩ := h
  rw [Conn.flow, hhand, hsend, hpending]
  simp only [List.append_nil]

def HubEvent.payload : HubEvent → List String
  | .publish payload => [payload]
  | _ => []

/-- The messages published in a run. -/
def published (es : List HubEvent) : List String := es.flatMap HubEvent.payload

/-- The socket of `i` stays open, its writes succeed and its subscription is not cut. -/
def HubEvent.keepsOpen (i : Nat) : HubEvent → Bool
  | .conn j (.peer .lose) => decide (j ≠ i)
  | .conn j (.serve .readerReturns) => decide (j ≠ i)
  | .conn j (.routine (.write false)) => decide (j ≠ i)
  | .conn j (.routine .writerReturns) => decide (j ≠ i)
  | .conn j (.routine .subscriberReturns) => decide (j ≠ i)
  | _ => true

/-- The event loses no message for `i`: the subscription is made before anything is published,
and what is received finds room in `send`. -/
def LosesNothing (i : Nat) (h : Hub) : HubEvent → Prop
  | .publish _ => (h.conn i).subscriber ≠ .starting
  | .conn j (.routine .receive) => j = i → (h.conn i).send.length < sendCapacity
  | _ => True

instance (i : Nat) (h : Hub) (e : HubEvent) : Decidable (LosesNothing i h e) := by
  unfold LosesNothing
  split <;> infer_instance

/-! ## One step -/

/-- The connection is served, and both goroutines run. -/
structure Conn.Serving (c : Conn) : Prop where
  phase : c.phase = .reading
  writer : c.writer = .idle ∨ ∃ payload, c.writer = .holding payload
  subscriber : c.subscriber = .starting ∨ ∃ pending, c.subscriber = .active pending

theorem authStep_reading {mac : List UInt8 → List UInt8 → List UInt8} {secret : List UInt8} {now : Int}
    {users : List Uuid} {c : Conn} (hphase : c.phase = .reading) (e : AuthEvent) :
    authStep mac secret now users c e = none := by
  cases e <;> simp [authStep, hphase]

/-- A step that loses nothing. -/
theorem keeps_all {c c' : Conn} {Q : Prop} (h : c'.Serving) (hflow : c'.flow = c.flow) (hQ : Q) :
    c'.Serving ∧ c'.flow.Sublist c.flow ∧ (c'.flow = c.flow ↔ Q) :=
  ⟨h, hflow ▸ List.Sublist.refl _, iff_of_true hflow hQ⟩

/-- A published message is lost exactly when the subscription is still to be made. -/
theorem Conn.Serving.publish {c : Conn} (h : c.Serving) (payload : String) :
    (c.publish payload).Serving ∧ ((c.publish payload).flow).Sublist (c.flow ++ [payload]) ∧
      ((c.publish payload).flow = c.flow ++ [payload] ↔ c.subscriber ≠ .starting) := by
  rcases h.subscriber with hstarting | ⟨pending, hactive⟩
  · have hsame : c.publish payload = c := by simp only [Conn.publish, hstarting]
    rw [hsame]
    exact ⟨h, List.sublist_append_left _ _, by simp [hstarting]⟩
  · have hpub : c.publish payload = { c with subscriber := .active (pending ++ [payload]) } := by
      simp only [Conn.publish, hactive]
    have hflow : (c.publish payload).flow = c.flow ++ [payload] := by
      simp [hpub, Conn.flow, Conn.delivered, hactive, Subscriber.pending]
    refine ⟨?_, hflow ▸ List.Sublist.refl _, by simp [hflow, hactive]⟩
    rw [hpub]
    exact ⟨h.phase, h.writer, .inr ⟨_, rfl⟩⟩

/-- A step of a goroutine keeps all, but for a message received while `send` is full. -/
theorem Conn.Serving.routine {c c' : Conn} {e : RoutineEvent} (h : c.Serving)
    (hopen : (HubEvent.conn 0 (.routine e)).keepsOpen 0 = true) (hst : routineStep c e = some c') :
    c'.Serving ∧ c'.flow.Sublist c.flow ∧
      (c'.flow = c.flow ↔ (e = .receive → c.send.length < sendCapacity)) := by
  cases e with
  | subscribe =>
    simp only [routineStep] at hst
    split at hst
    next hs =>
      cases hst
      have hflow : ({ c with subscriber := .active [] } : Conn).flow = c.flow := by
        simp [Conn.flow, Conn.delivered, hs, Subscriber.pending]
      exact keeps_all ⟨h.phase, h.writer, .inr ⟨_, rfl⟩⟩ hflow fun he => by cases he
    · cases hst
  | receive =>
    simp only [routineStep] at hst
    split at hst
    next p pending hs =>
      split at hst
      next hroom =>
        cases hst
        have hflow : ({ c with subscriber := .active pending, send := c.send ++ [p] } : Conn).flow = c.flow := by
          simp [Conn.flow, Conn.delivered, hs, Subscriber.pending]
        exact keeps_all ⟨h.phase, h.writer, .inr ⟨_, rfl⟩⟩ hflow fun _ => hroom
      next hfull =>
        -- the message at the head of `pending` is gone: the flow is shorter by one
        cases hst
        have hsub : ({ c with subscriber := .active pending } : Conn).flow.Sublist c.flow := by
          simp only [Conn.flow, Conn.delivered, hs, Subscriber.pending]
          exact (((List.sublist_cons_self p pending).append_left _).append_left _).append_left _
        have hne : ({ c with subscriber := .active pending } : Conn).flow ≠ c.flow := by
          intro heq
          have hlen := congrArg List.length heq
          simp [Conn.flow, Conn.delivered, hs, Subscriber.pending] at hlen
        exact ⟨⟨h.phase, h.writer, .inr ⟨_, rfl⟩⟩, hsub, iff_of_false hne fun hroom => hfull (hroom rfl)⟩
    · cases hst
  | subscriberReturns => cases hopen
  | take =>
    simp only [routineStep] at hst
    split at hst
    next p rest hw hq =>
      cases hst
      have hflow : ({ c with writer := .holding p, send := rest } : Conn).flow = c.flow := by
        simp [Conn.flow, Conn.delivered, hw, hq, Writer.hand]
      exact keeps_all ⟨h.phase, .inr ⟨_, rfl⟩, h.subscriber⟩ hflow fun he => by cases he
    · cases hst
  | write ok =>
    cases ok with
    | false => cases hopen
    | true =>
      simp only [routineStep] at hst
      split at hst
      next p hw =>
        rw [if_pos trivial] at hst
        split at hst
        · cases hst
        · cases hst
          have hflow : ({ c with writer := .idle, sent := c.sent ++ [.published p] } : Conn).flow = c.flow := by
            simp [Conn.flow, Conn.delivered, hw, Writer.hand, ServerFrame.payload]
          exact keeps_all ⟨h.phase, .inl rfl, h.subscriber⟩ hflow fun he => by cases he
      · cases hst
  | writerReturns => cases hopen

/-- **One step of the hub**: of what was published, a served connection keeps a part in order,
and all of it exactly if the event loses nothing. -/
theorem Conn.Serving.step {mac : List UInt8 → List UInt8 → List UInt8} {secret : List UInt8} {i : Nat}
    {h h' : Hub} {e : HubEvent} (hserving : (h.conn i).Serving) (hopen : e.keepsOpen i = true)
    (hst : hubStep mac secret h e = some h') :
    (h'.conn i).Serving ∧ (h'.conn i).flow.Sublist ((h.conn i).flow ++ e.payload) ∧
      ((h'.conn i).flow = (h.conn i).flow ++ e.payload ↔ LosesNothing i h e) := by
  have hsame : (h.conn i).flow ++ [] = (h.conn i).flow := List.append_nil _
  cases e with
  | tick d | users us =>
    cases hst
    simp only [HubEvent.payload, hsame]
    exact ⟨hserving, List.Sublist.refl _, iff_of_true trivial trivial⟩
  | publish payload =>
    cases hst
    exact hserving.publish payload
  | conn j e =>
    obtain ⟨c, hc, rfl⟩ := Option.map_eq_some_iff.mp hst
    simp only [HubEvent.payload, hsame]
    by_cases hj : j = i
    · subst hj
      simp only [Function.update_self]
      cases e with
      | auth e =>
        rw [connStep, authStep_reading hserving.phase] at hc
        cases hc
      | serve e =>
        cases e with
        | readerReturns => simp [HubEvent.keepsOpen] at hopen
        | register | greet ok | unregister | disconnect | cancel | finish =>
          simp [connStep, serveStep, hserving.phase] at hc
      | peer e =>
        cases e with
        | lose => simp [HubEvent.keepsOpen] at hopen
        | arrive bytes =>
          simp only [connStep, peerStep] at hc
          split at hc
          · cases hc
          · cases hc
            exact keeps_all ⟨hserving.phase, hserving.writer, hserving.subscriber⟩ rfl trivial
      | routine e =>
        have hkeeps : (HubEvent.conn 0 (.routine e)).keepsOpen 0 = true := by
          unfold HubEvent.keepsOpen at hopen ⊢
          cases e with
          | write ok => cases ok <;> simp_all
          | subscribe | receive | subscriberReturns | take | writerReturns => simp_all
        obtain ⟨hserving', hsub, heq⟩ := hserving.routine hkeeps hc
        refine ⟨hserving', hsub, heq.trans ?_⟩
        cases e <;> simp [LosesNothing]
    · simp only [Function.update_of_ne (Ne.symm hj)]
      refine ⟨hserving, List.Sublist.refl _, iff_of_true trivial ?_⟩
      unfold LosesNothing
      split
      next heq => cases heq
      next heq =>
        cases heq
        exact fun hji => absurd hji hj
      · trivial

/-! ## A whole run -/

section
variable {mac : List UInt8 → List UInt8 → List UInt8} {secret : List UInt8} {now : Int} {users : List Uuid}
  {es₀ es : List HubEvent} {h₀ h₁ h : Hub} {i : Nat}

/-- After AUTH_SUCCESS the connection is served, and nothing is on its way. -/
theorem serving_greeted (hrun : Steps.run (hubStep mac secret) (Hub.new now users) es₀ = some h₀)
    (hgreet : hubStep mac secret h₀ (.conn i (.serve (.greet true))) = some h₁) :
    (h₁.conn i).Serving ∧ (h₁.conn i).flow = [] := by
  have hguarded := run_allGuarded hrun i
  obtain ⟨c, hc, rfl⟩ := Option.map_eq_some_iff.mp hgreet
  simp only [connStep, serveStep] at hc
  split at hc
  next hp =>
    rw [Guarded, hp] at hguarded
    obtain ⟨⟨hsend, -, -⟩, hsent, -⟩ := hguarded
    cases hc
    simp only [Function.update_self]
    refine ⟨⟨rfl, .inl rfl, .inl rfl⟩, ?_⟩
    simp [Conn.flow, Conn.delivered, hsent, hsend, ServerFrame.payload, Writer.hand, Subscriber.pending]
  · cases hc

/-- **Updates are delivered at least once and in order exactly when** the subscription is made
before the first of them is published and none is received while `send` is full: for every run
after AUTH_SUCCESS, whatever else happens in the hub. -/
theorem updates_delivered_iff (hrun : Steps.run (hubStep mac secret) (Hub.new now users) es₀ = some h₀)
    (hgreet : hubStep mac secret h₀ (.conn i (.serve (.greet true))) = some h₁)
    (hafter : Steps.run (hubStep mac secret) h₁ es = some h)
    (hopen : ∀ e ∈ es, e.keepsOpen i = true) (hdrained : (h.conn i).Drained) :
    (published es).Sublist (h.conn i).delivered ↔ Steps.Along (hubStep mac secret) (LosesNothing i) h₁ es := by
  obtain ⟨hserving, hflow⟩ := serving_greeted hrun hgreet
  obtain ⟨hsub, heq⟩ := Steps.run_flow (I := fun h => (h.conn i).Serving) (fun h => (h.conn i).flow)
    HubEvent.payload (fun _ _ _ hI ho hst => hI.step ho hst) hserving hopen hafter
  -- drained, the flow is what was delivered; at the start it is empty
  rw [hflow, List.nil_append, hdrained.flow] at hsub heq
  rw [← heq]
  constructor
  · intro hall
    exact hsub.antisymm hall
  · intro hall
    rw [hall]
    exact List.Sublist.refl _

end

/-! ## A burst -/

/-- `n` messages are published after the subscription and all received before one is written. -/
def burst (n : Nat) : List HubEvent :=
  .conn 0 (.routine .subscribe) :: ((List.range n).map (fun k => .publish (toString k)) ++
    (List.replicate n (.conn 0 (.routine .receive)) ++
      (List.replicate (min n sendCapacity) [.conn 0 (.routine .take), .conn 0 (.routine (.write true))]).flatten))

/-- The hub greets the user of the sample token, and a burst goes by. -/
theorem run_burst (n : Nat) (f : Hub → Bool)
    (h : (Steps.run (hubStep sampleMac sampleSecret) (Hub.greeted 0 0 [Uuid.ofDigit 1] sampleToken) (burst n)).any
      f = true) :
    ∃ es₀ h₀ h₁ h, Steps.run (hubStep sampleMac sampleSecret) (Hub.new 0 [Uuid.ofDigit 1]) es₀ = some h₀ ∧
      hubStep sampleMac sampleSecret h₀ (.conn 0 (.serve (.greet true))) = some h₁ ∧
      Steps.run (hubStep sampleMac sampleSecret) h₁ (burst n) = some h ∧ f h = true := by
  have hsplit : handshake 0 sampleToken = (handshake 0 sampleToken).take 5 ++ [.conn 0 (.serve (.greet true))] := rfl
  have hgreeted := run_handshake_sample
  rw [hsplit] at hgreeted
  obtain ⟨h₀, hrun, hlast⟩ := Steps.run_append.mp hgreeted
  obtain ⟨h₁, hgreet, hnil⟩ := Steps.run_cons.mp hlast
  cases hnil
  obtain ⟨h, hburst, hf⟩ := Steps.exists_of_check _ _ (burst n) f h
  exact ⟨_, h₀, _, h, hrun, hgreet, hburst, hf⟩

/-- Three messages are delivered. -/
theorem updates_delivered_iff_burst : ∃ h₁ h,
    Steps.run (hubStep sampleMac sampleSecret) h₁ (burst 3) = some h ∧ (h.conn 0).delivered = ["0", "1", "2"] ∧
    ((published (burst 3)).Sublist (h.conn 0).delivered ↔
      Steps.Along (hubStep sampleMac sampleSecret) (LosesNothing 0) h₁ (burst 3)) := by
  obtain ⟨es₀, h₀, h₁, h, hrun, hgreet, hburst, hcheck⟩ := run_burst 3
    (fun h => decide ((h.conn 0).Drained ∧ (h.conn 0).delivered = ["0", "1", "2"])) (by decide +kernel)
  obtain ⟨hdrained, hdelivered⟩ := of_decide_eq_true hcheck
  exact ⟨h₁, h, hburst, hdelivered, updates_delivered_iff hrun hgreet hburst (by decide) hdrained⟩

/-- Of a burst of 33 messages the last is lost. -/
theorem updates_delivered_fails :
    ¬ ∀ (mac : List UInt8 → List UInt8 → List UInt8) (secret : List UInt8) (now : Int) (users : List Uuid)
      (es₀ es : List HubEvent) (h₀ h₁ h : Hub) (i : Nat),
      Steps.run (hubStep mac secret) (Hub.new now users) es₀ = some h₀ →
      hubStep mac secret h₀ (.conn i (.serve (.greet true))) = some h₁ →
      Steps.run (hubStep mac secret) h₁ es = some h → (∀ e ∈ es, e.keepsOpen i = true) →
      (h.conn i).Drained → (published es).Sublist (h.conn i).delivered := by
  intro hall
  obtain ⟨es₀, h₀, h₁, h, hrun, hgreet, hburst, hcheck⟩ := run_burst 33
    (fun h => decide ((h.conn 0).Drained ∧ "32" ∉ (h.conn 0).delivered)) (by decide +kernel)
  obtain ⟨hdrained, hlost⟩ := of_decide_eq_true hcheck
  have hdelivered := hall _ _ _ _ es₀ (burst 33) h₀ h₁ h 0 hrun hgreet hburst (by decide +kernel) hdrained
  exact hlost (hdelivered.subset (by decide +kernel))

end Synora
