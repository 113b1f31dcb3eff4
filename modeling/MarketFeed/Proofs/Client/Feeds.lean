import MarketFeed.Client.Stage
import MarketFeed.Proofs.Client.Links

/-!
# Client.Feeds — each step concerns one feed

A client has two feeds, one for market data and one for the user's own orders and
positions, and it never mixes them up. The transport of a feed was created for that feed:

> `Session.Wired`: every transport in use was created for the feed that uses it.

So a step for one feed leaves the line of the other as it is, the requests on its
transport too, and keeps the client wired (`Session.Concerns`). That is shown once for
each step that the calls, the callbacks and the timers are made of, from the assignment of
a line and the sending of a request up to the parts of calls, whatever the transports
refuse. A callback concerns the feed of its origin, be the connection in use or not.

The steps compose: what concerns a feed twice concerns it (`Concerns.trans`), and a call
that goes on only after success may end in between (`Concerns.andThen`). Changes that no
feed notices, of timers, clock and log, concern any feed (`concerns_aside`).

The events that a run of the client is made of are named here (`Event`): the calls,
reports of transports in use or not, changes of their states, and timers that go off. A
shutdown and calls in parts are added in `Client.Acts`.
-/

namespace MarketFeed.Client

namespace Session

variable {f g : Feed} {s s' s'' : Session}

/-! ## Lines -/

/-- A line that is put in its place is found there. -/
theorem line_setLine (s : Session) (f : Feed) (l : Line) : (s.setLine f l).line f = l := by
  cases f <;> rfl

/-- The line of the other feed is as before. -/
theorem line_setLine_of_ne (s : Session) (l : Line) (hfg : g ≠ f) : (s.setLine f l).line g = s.line g := by
  cases f <;> cases g <;> first | rfl | exact absurd rfl hfg

/-- Sending is the world's affair. -/
theorem client_send (f : Feed) (kind : RequestKind) (channel : Channel) (products : List Product) (s : Session) :
    (send f kind channel products s).2.client = s.client := by
  unfold send
  split <;> rfl

/-- So is sending several requests. -/
theorem client_subscribeAll (f : Feed) (subscriptions : List (Channel × List Product)) (s : Session) :
    (subscribeAll f subscriptions s).client = s.client := by
  induction subscriptions generalizing s with
  | nil => rfl
  | cons first rest ih => exact (ih _).trans (client_send f .subscribe first.1 first.2 s)

/-- So is closing a transport. -/
theorem client_closeTransport (f : Feed) (s : Session) : (s.closeTransport f).client = s.client := by
  unfold closeTransport
  split <;> rfl

/-- Every transport in use was created for its feed. -/
def Wired (s : Session) : Prop := ∀ f i, (s.line f).transport = some i →
  ∃ o, s.world.origin? i = some o ∧ o.feed = f

/-- That a step concerns one feed only. -/
structure Concerns (f : Feed) (s s' : Session) : Prop where
  wired : s'.Wired
  plan : s'.world.plan = s.world.plan
  line : ∀ g, g ≠ f → s'.line g = s.line g
  sent : ∀ g i, g ≠ f → (s.line g).transport = some i → s'.world.sent i = s.world.sent i

/-- What does nothing concerns any feed. -/
theorem Concerns.refl (h : s.Wired) : Concerns f s s :=
  ⟨h, rfl, fun _ _ => rfl, fun _ _ _ _ => rfl⟩

/-- Two steps for a feed are one. -/
theorem Concerns.trans (h : Concerns f s s') (h' : Concerns f s' s'') : Concerns f s s'' := by
  refine ⟨h'.wired, h'.plan.trans h.plan, ?_, ?_⟩
  · intro g hg
    rw [h'.line g hg, h.line g hg]
  · intro g i hg hi
    have hi' : (s'.line g).transport = some i := by rw [h.line g hg, hi]
    rw [h'.sent g i hg hi', h.sent g i hg hi]

/-! ## What the steps are made of -/

private theorem concerns_setLine (h : s.Wired) {l : Line}
    (hl : ∀ i, l.transport = some i → ∃ o, s.world.origin? i = some o ∧ o.feed = f) :
    Concerns f s (s.setLine f l) := by
  refine ⟨?_, rfl, fun g hg => line_setLine_of_ne s l hg, fun _ _ _ _ => rfl⟩
  intro g i hi
  by_cases hg : g = f
  · subst hg
    rw [line_setLine] at hi
    exact hl i hi
  · rw [line_setLine_of_ne s l hg] at hi
    exact h g i hi

/-- A line that keeps its transport or has none. -/
theorem concerns_setLine_same (h : s.Wired) {l : Line}
    (hl : l.transport = (s.line f).transport ∨ l.transport = none) : Concerns f s (s.setLine f l) := by
  apply concerns_setLine h
  intro i hi
  rcases hl with hl | hl
  · exact h f i (hl ▸ hi)
  · rw [hl] at hi
    cases hi

/-- A change of the world that keeps the origins, and what was sent for the other feed. -/
theorem concerns_world (h : s.Wired) {w : World} (hplan : w.plan = s.world.plan)
    (horigin : ∀ i o, s.world.origin? i = some o → w.origin? i = some o)
    (hsent : ∀ i o, s.world.origin? i = some o → o.feed ≠ f → w.sent i = s.world.sent i) :
    Concerns f s { s with world := w } := by
  refine ⟨?_, hplan, fun _ _ => rfl, ?_⟩
  · intro g i hi
    obtain ⟨o, ho, hfeed⟩ := h g i hi
    exact ⟨o, horigin i o ho, hfeed⟩
  · intro g i hg hi
    obtain ⟨o, ho, hfeed⟩ := h g i hi
    exact hsent i o ho (hfeed ▸ hg)

/-- A change that no feed notices. -/
theorem concerns_aside (h : s.Wired) (hline : ∀ g, s'.line g = s.line g) (hplan : s'.world.plan = s.world.plan)
    (horigin : ∀ i, s'.world.origin? i = s.world.origin? i) (hsent : ∀ i, s'.world.sent i = s.world.sent i) :
    Concerns f s s' := by
  refine ⟨?_, hplan, fun g _ => hline g, fun _ i _ _ => hsent i⟩
  intro g i hi
  rw [hline] at hi
  rw [horigin]
  exact h g i hi

/-- To close a feed's transport concerns no other. -/
theorem concerns_closeTransport (h : s.Wired) : Concerns f s (s.closeTransport f) := by
  unfold closeTransport
  split
  next i _ =>
    apply concerns_world h (World.plan_close _ _)
    · intro j o ho
      rw [World.origin?_close, ho]
    · intro j o _ _
      rw [World.sent_close]
  next => exact .refl h

/-- To send for a feed concerns no other. -/
theorem concerns_send (h : s.Wired) (kind : RequestKind) (channel : Channel) (products : List Product) :
    Concerns f s (send f kind channel products s).2 := by
  unfold send
  split
  next => exact .refl h
  next i hi =>
    obtain ⟨d, hd, hfeed⟩ := h f i hi
    apply concerns_world h (World.plan_send _ _ _)
    · intro j o ho
      rw [World.origin?_send, ho]
    · -- a transport of the other feed is another transport
      intro j o ho hne
      apply World.sent_send_of_ne
      intro hij
      rw [hij, ho] at hd
      rw [Option.some.inj hd] at hne
      exact hne hfeed

/-- What follows on success concerns the same feed. -/
theorem Concerns.andThen {r : Result} {next : Session → Result} (h : Concerns f s r.2)
    (hnext : ∀ s', Concerns f s s' → Concerns f s' (next s').2) : Concerns f s (andThen r next).2 := by
  obtain ⟨result, s'⟩ := r
  cases result with
  | error failure => exact h
  | ok => exact h.trans (hnext s' h)

/-- To send several requests for a feed concerns no other. -/
theorem concerns_sendEach (h : s.Wired) (kind : RequestKind) (products : List Product) (channels : List Channel) :
    Concerns f s (sendEach f kind products channels s).2 := by
  induction channels generalizing s with
  | nil => exact .refl h
  | cons channel rest ih => exact (concerns_send h kind channel products).andThen fun _ h' => ih h'.wired

private theorem concerns_subscribeAll (h : s.Wired) (subscriptions : List (Channel × List Product)) :
    Concerns f s (subscribeAll f subscriptions s) := by
  induction subscriptions generalizing s with
  | nil => exact .refl h
  | cons first rest ih =>
    have hsend := concerns_send (f := f) h .subscribe first.1 first.2
    exact hsend.trans (ih hsend.wired)

/-- To open a feed concerns no other. -/
theorem concerns_openLine (h : s.Wired) : Concerns f s (openLine f s).2 := by
  have hclose := concerns_closeTransport (f := f) h
  unfold openLine
  simp only
  generalize s.closeTransport f = s' at *
  generalize hconnection : (⟨(s'.line f).slot, (s'.line f).generation + 1⟩ : Connection) = connection
  generalize hopened : s'.world.connect s'.client.id ⟨connection, f⟩ (s'.client.settings.url f) = opened
  -- first the transport, then the line that names it
  have hworld : Concerns f s' { s' with world := opened.2 } := by
    rw [← hopened]
    apply concerns_world hclose.wired (World.plan_connect _ _ _ _)
    · intro i o ho
      exact World.origin?_connect ho
    · intro i o ho _
      exact World.sent_connect ho
  obtain ⟨result, w⟩ := opened
  cases result with
  | error failure =>
    exact hclose.trans (hworld.trans (concerns_setLine_same hworld.wired (Or.inr rfl)))
  | ok i =>
    refine hclose.trans (hworld.trans (concerns_setLine hworld.wired ?_))
    intro j hj
    obtain rfl := Option.some.inj hj
    refine ⟨⟨connection, f⟩, ?_, rfl⟩
    have hnew := World.origin?_of_connect (congrArg Prod.fst hopened)
    rw [hopened] at hnew
    exact hnew

private theorem concerns_scheduleReopening (h : s.Wired) : Concerns f s (scheduleReopening f s) := by
  unfold scheduleReopening
  simp only
  split
  next => exact .refl h
  next delay _ =>
    generalize hclient : ({ s.client with
      timers := s.client.timers ++ [⟨f, s.world.clock + delay⟩] } : Client) = client
    have hline (g : Feed) : (Session.mk client s.world).line g = s.line g := by
      rw [← hclient]
      cases g <;> rfl
    have htimers : Concerns f s ⟨client, s.world⟩ :=
      concerns_aside h hline rfl (fun _ => rfl) (fun _ => rfl)
    refine htimers.trans (concerns_setLine_same htimers.wired (Or.inl ?_))
    rw [hline]

/-! ## Calls -/

variable (products : List Product) (channels : List Channel)

/-- What is recorded for a feed concerns no other. -/
theorem concerns_onSubscriptions (h : s.Wired) (change : Subscriptions → Subscriptions) :
    Concerns f s (s.onSubscriptions f change) :=
  concerns_setLine_same h (Or.inl rfl)

/-- The part of subscribing for a feed concerns no other. -/
theorem concerns_subscribeLine (h : s.Wired) : Concerns f s (subscribeLine products channels f s).2 := by
  unfold subscribeLine
  split
  next => exact .refl h
  next =>
    simp only
    generalize hs : s.onSubscriptions f _ = s'
    have hset : Concerns f s s' := hs ▸ concerns_onSubscriptions h _
    split
    · exact hset.trans (concerns_sendEach hset.wired _ _ _)
    · exact hset
    · exact hset
    · exact hset.trans (concerns_openLine hset.wired)
    · exact hset.trans (concerns_openLine hset.wired)

/-- The part of unsubscribing for a feed concerns no other. -/
theorem concerns_unsubscribeLine (h : s.Wired) : Concerns f s (unsubscribeLine products channels f s).2 := by
  unfold unsubscribeLine
  split
  next => exact .refl h
  next =>
    simp only
    generalize hs : s.onSubscriptions f _ = s'
    have hset : Concerns f s s' := hs ▸ concerns_onSubscriptions h _
    split
    next =>
      refine hset.trans ((concerns_sendEach hset.wired _ _ _).andThen ?_)
      intro s'' hsent
      split
      · exact concerns_send hsent.wired _ _ _
      · exact .refl hsent.wired
    next => exact hset

/-- To reconnect a feed concerns no other. -/
theorem concerns_reconnectLine (h : s.Wired) : Concerns f s (reconnectLine f s).2 := by
  have hset : Concerns f s (s.setLine f { s.line f with retries := 0 }) := concerns_setLine_same h (Or.inl rfl)
  exact hset.trans (concerns_openLine hset.wired)

/-! ## Callbacks and timers -/

/-- That a connection is established concerns its feed. -/
theorem concerns_connected (h : s.Wired) (o : Origin) : Concerns o.feed s (connected o s) := by
  unfold connected
  simp only
  split
  next =>
    have hset : Concerns o.feed s (s.setLine o.feed { s.line o.feed with phase := .open, retries := 0 }) :=
      concerns_setLine_same h (Or.inl rfl)
    exact hset.trans (concerns_subscribeAll hset.wired _)
  next => exact .refl h

/-- That a connection is lost concerns its feed. -/
theorem concerns_disconnected (h : s.Wired) (o : Origin) : Concerns o.feed s (disconnected o s) := by
  unfold disconnected
  simp only
  split
  next =>
    generalize hl : ({ s.line o.feed with phase := _, connection := none, transport := none } : Line) = l
    have hset : Concerns o.feed s (s.setLine o.feed l) := concerns_setLine_same h (Or.inr (hl ▸ rfl))
    split
    · exact hset
    · exact hset.trans (concerns_scheduleReopening hset.wired)
  next => exact .refl h

/-- That a connection fails concerns its feed. -/
theorem concerns_failed (h : s.Wired) (o : Origin) : Concerns o.feed s (failed o s) := by
  unfold failed
  simp only
  split
  next => exact concerns_setLine_same h (Or.inl rfl)
  next => exact .refl h

/-- The log is no part of a feed. -/
theorem concerns_logged (h : s.Wired) (payload : Bytes) :
    Concerns f s (logged payload s) ∧ ∀ g, (logged payload s).line g = s.line g := by
  unfold logged
  split
  next => exact ⟨.refl h, fun _ => rfl⟩
  next log _ =>
    simp only
    generalize hclient : ({ s.client with log := _ } : Client) = client
    have hline (g : Feed) : client.line g = s.line g := by
      rw [← hclient]
      cases g <;> rfl
    exact ⟨concerns_aside h hline rfl (fun _ => rfl) (fun _ => rfl), hline⟩

/-- To open a feed again concerns no other. -/
theorem concerns_reopen (h : s.Wired) : Concerns f s (reopen f s) := by
  have hopen := concerns_openLine (f := f) h
  unfold reopen
  simp only
  split
  next => exact .refl h
  next =>
    generalize openLine f s = r at *
    obtain ⟨result, s'⟩ := r
    cases result with
    | ok => exact hopen
    | error failure => exact hopen.trans (concerns_scheduleReopening hopen.wired)

end Session

/-! ## Events -/

/-- What happens to a client, one thing after the other. -/
inductive Event where
  | subscribe (products : List Product) (channels : List Channel)
  | unsubscribe (products : List Product) (channels : List Channel)
  | reconnect (f : Feed)
  /-- Some transport reports something, be it in use or not. -/
  | callback (c : Callback)
  /-- A transport changes its state. -/
  | status (number : Nat) (state : Status)
  /-- A timer goes off. -/
  | timer (t : Timer)

/-- The session after an event. -/
def Event.apply (s : Session) : Event → Session
  | .subscribe products channels => (s.subscribe products channels).2
  | .unsubscribe products channels => (s.unsubscribe products channels).2
  | .reconnect f => (Session.reconnect f s).2
  | .callback c => Session.react c s
  | .status number state => { s with world := s.world.setStatus number state }
  | .timer t => Stage.fire t s

end MarketFeed.Client
