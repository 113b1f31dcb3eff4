import MarketFeed.Proofs.Client.Feeds

/-!
# Client.Keeping — what every event keeps

Calls, callbacks and timers are made of a few steps: a feed is opened anew, a request is
sent, a line takes a turn that leaves its transport alone or gives it up (`Line.Turn`), or
something changes that no feed notices (`Aside`). A property of sessions that these four
steps keep (`Keeping`) is kept by every part of a call, by every callback and by every
timer, and so by every event:

> `Keeping.apply`: a property that the steps keep holds after every event if it held
> before.

An invariant of sessions is therefore four lemmas. The walk through the operations, with
their branches on the state of a feed and on what transports refuse, is made here and
nowhere else. Two invariants come from it: that the transports of a client are its own
(`Client.Ownership`), and that a transport in use belongs to the current connection of its
feed, with no token on the market feed (`Client.Mirror`).

A property that speaks of what happened, not only of the session that is left, or that
holds for one feed and not the other, needs more than that. For these there are the
changes of `Client.Acts`.
-/

namespace MarketFeed.Client

/-- How a line changes unless it is opened anew. -/
inductive Line.Turn (l : Line) : Line → Prop
  | recorded (subscriptions : Subscriptions) : Turn l { l with subscriptions }
  | counted (retries : Nat) : Turn l { l with retries }
  | opened : l.phase = .connecting → Turn l { l with phase := .open, retries := 0 }
  | failed : l.phase = .connecting ∨ l.phase = .open → Turn l { l with phase := .errored }
  | lost (phase : Phase) : phase = .closed ∨ phase = .errored →
    Turn l { l with phase, connection := none, transport := none }

/-- A turn leaves a line its connection and its transport, or takes both away. -/
theorem Line.Turn.keeps {l l' : Line} (h : l.Turn l') :
    l'.connection = l.connection ∧ l'.transport = l.transport ∨ l'.connection = none ∧ l'.transport = none := by
  cases h
  case lost => exact Or.inr ⟨rfl, rfl⟩
  all_goals exact Or.inl ⟨rfl, rfl⟩

namespace Session

variable {f : Feed} {s s' : Session} {P : Session → Prop}

/-- That no feed notices a change. -/
structure Aside (s s' : Session) : Prop where
  id : s'.client.id = s.client.id
  line : ∀ f, s'.line f = s.line f
  plan : s'.world.plan = s.world.plan
  origin : ∀ i, s'.world.origin? i = s.world.origin? i
  sent : ∀ i, s'.world.sent i = s.world.sent i
  owners : s'.world.owners = s.world.owners

/-- That the steps which events are made of keep a property. -/
structure Keeping (P : Session → Prop) : Prop where
  turn : ∀ {s : Session} (f : Feed) {l : Line}, P s → (s.line f).Turn l → P (s.setLine f l)
  aside : ∀ {s s' : Session}, P s → Aside s s' → P s'
  opening : ∀ {s : Session} (f : Feed), P s → P (openLine f s).2
  sending : ∀ {s : Session} (f : Feed) (kind : RequestKind) (channel : Channel) (products : List Product),
    P s → P (send f kind channel products s).2

/-- That a transport is asked to close is noticed by no feed. -/
theorem aside_closeTransport (f : Feed) (s : Session) : Aside s (s.closeTransport f) := by
  unfold closeTransport
  split
  next i _ =>
    exact ⟨rfl, fun _ => rfl, World.plan_close _ _, fun j => World.origin?_close _ j i,
      fun j => World.sent_close _ j i, World.owners_close _ i⟩
  next => exact ⟨rfl, fun _ => rfl, rfl, fun _ => rfl, fun _ => rfl, rfl⟩

/-- The timers are no part of a feed. -/
theorem aside_timers (s : Session) (timers : List Timer) (clock : Nat) :
    Aside s ⟨{ s.client with timers }, { s.world with clock }⟩ := by
  refine ⟨rfl, ?_, rfl, fun _ => rfl, fun _ => rfl, rfl⟩
  intro f
  cases f <;> rfl

/-- Nor is the log. -/
theorem aside_logged (payload : Bytes) (s : Session) : Aside s (logged payload s) := by
  unfold logged
  split
  next => exact ⟨rfl, fun _ => rfl, rfl, fun _ => rfl, fun _ => rfl, rfl⟩
  next log _ =>
    simp only
    generalize hclient : ({ s.client with log := _ } : Client) = client
    refine ⟨by rw [← hclient], ?_, rfl, fun _ => rfl, fun _ => rfl, rfl⟩
    intro f
    show client.line f = s.client.line f
    rw [← hclient]
    cases f <;> rfl

/-- Nor is the end of the log. -/
theorem aside_stopLog (s : Session) : Aside s (stopLog s) := by
  unfold stopLog
  split
  next => exact ⟨rfl, fun _ => rfl, rfl, fun _ => rfl, fun _ => rfl, rfl⟩
  next =>
    refine ⟨rfl, ?_, rfl, fun _ => rfl, fun _ => rfl, rfl⟩
    intro f
    cases f <;> rfl

/-- Nor is the state of a transport. -/
theorem aside_setStatus (s : Session) (number : Nat) (status : Status) :
    Aside s { s with world := s.world.setStatus number status } :=
  ⟨rfl, fun _ => rfl, rfl, fun i => World.origin?_setStatus s.world i number status,
    fun i => World.sent_setStatus s.world i number status, World.owners_setStatus s.world number status⟩

namespace Keeping

/-- What follows on success is one more step, or none. -/
theorem andThen {r : Result} {next : Session → Result} (hr : P r.2) (hnext : ∀ s, P s → P (next s).2) :
    P (andThen r next).2 := by
  obtain ⟨result, s⟩ := r
  cases result with
  | ok => exact hnext s hr
  | error failure => exact hr

/-- To schedule another attempt is a turn and something aside. -/
theorem scheduleReopening (h : Keeping P) (hs : P s) (f : Feed) : P (scheduleReopening f s) := by
  unfold Session.scheduleReopening
  simp only
  split
  next => exact hs
  next delay _ =>
    have haside := aside_timers s (s.client.timers ++ [⟨f, s.world.clock + delay⟩]) s.world.clock
    have hturn := Line.Turn.counted (l := s.line f) (min ((s.line f).retries + 1) maxRetries)
    exact h.turn f (h.aside hs haside) ((haside.line f).symm ▸ hturn)

/-- To open a feed again is to open it, and to schedule another attempt if that fails. -/
theorem reopen (h : Keeping P) (hs : P s) (f : Feed) : P (reopen f s) := by
  have hopen := h.opening f hs
  unfold Session.reopen
  simp only
  split
  next => exact hs
  next =>
    generalize openLine f s = r at *
    obtain ⟨result, s'⟩ := r
    cases result with
    | ok => exact hopen
    | error failure => exact h.scheduleReopening hopen f

/-- Requests are sent one after the other, up to the first that is refused. -/
theorem sendEach (h : Keeping P) (hs : P s) (f : Feed) (kind : RequestKind) (products : List Product)
    (channels : List Channel) : P (sendEach f kind products channels s).2 := by
  induction channels generalizing s with
  | nil => exact hs
  | cons channel rest ih => exact andThen (h.sending f kind channel products hs) fun _ hs' => ih hs'

/-- To subscribe anew is to send requests, whatever becomes of them. -/
theorem subscribeAll (h : Keeping P) (hs : P s) (f : Feed) (subscriptions : List (Channel × List Product)) :
    P (subscribeAll f subscriptions s) := by
  induction subscriptions generalizing s with
  | nil => exact hs
  | cons first rest ih => exact ih (h.sending f .subscribe first.1 first.2 hs)

/-! ## Calls -/

variable (products : List Product) (channels : List Channel)

/-- To subscribe is a turn for each channel, and requests or an opening. -/
theorem subscribeLine (h : Keeping P) (hs : P s) (f : Feed) : P (subscribeLine products channels f s).2 := by
  unfold Session.subscribeLine
  split
  next => exact hs
  next =>
    have hset := h.turn f hs (.recorded ((owned f channels).foldl (fun set c => (set.add c products).1)
      (s.line f).subscriptions))
    simp only
    split
    · exact h.sendEach hset f _ _ _
    · exact hset
    · exact hset
    · exact h.opening f hset
    · exact h.opening f hset

/-- To unsubscribe is a turn for each channel, and requests. -/
theorem unsubscribeLine (h : Keeping P) (hs : P s) (f : Feed) : P (unsubscribeLine products channels f s).2 := by
  unfold Session.unsubscribeLine
  split
  next => exact hs
  next =>
    have hset := h.turn f hs (.recorded ((owned f channels).foldl (fun set c => set.remove c products)
      (s.line f).subscriptions))
    simp only
    split
    next =>
      refine andThen (h.sendEach hset f _ _ _) ?_
      intro s' hs'
      split
      · exact h.sending f _ _ _ hs'
      · exact hs'
    next => exact hset

/-- To subscribe is its parts for both feeds. -/
theorem subscribe (h : Keeping P) (hs : P s) : P (s.subscribe products channels).2 :=
  andThen (r := s.ensureRunning) hs fun _ hs' =>
    andThen (h.subscribeLine products channels hs' .market) fun _ hs'' => h.subscribeLine products channels hs'' .user

/-- To unsubscribe is its parts for both feeds. -/
theorem unsubscribe (h : Keeping P) (hs : P s) : P (s.unsubscribe products channels).2 :=
  andThen (h.unsubscribeLine products channels hs .market) fun _ hs' =>
    h.unsubscribeLine products channels hs' .user

/-- To reconnect is to close a transport and to open the feed. -/
theorem reconnect (h : Keeping P) (hs : P s) (f : Feed) : P (Session.reconnect f s).2 :=
  andThen (r := s.ensureRunning) hs fun _ hs' => h.opening f (h.turn f hs' (.counted 0))

/-! ## Callbacks -/

/-- A connection that is established opens its feed, and requests are sent. -/
theorem connected (h : Keeping P) (hs : P s) (o : Origin) : P (connected o s) := by
  unfold Session.connected
  simp only
  split
  next hcurrent => exact h.subscribeAll (h.turn o.feed hs (.opened hcurrent.2)) o.feed _
  next => exact hs

/-- A connection that is lost closes its feed, and another attempt may be scheduled. -/
theorem disconnected (h : Keeping P) (hs : P s) (o : Origin) : P (disconnected o s) := by
  unfold Session.disconnected
  simp only
  split
  next =>
    generalize hl : ({ s.line o.feed with phase := _, connection := none, transport := none } : Line) = l
    have hturn : (s.line o.feed).Turn l := by
      rw [← hl]
      apply Line.Turn.lost
      split
      next => exact Or.inl rfl
      next hcond =>
        simp only [Bool.or_eq_true, bne_iff_ne, not_or, Decidable.not_not] at hcond
        exact Or.inr hcond.2
    have hlost := h.turn o.feed hs hturn
    split
    · exact hlost
    · exact h.scheduleReopening hlost o.feed
  next => exact hs

/-- A connection that fails leaves its feed in error. -/
theorem failed (h : Keeping P) (hs : P s) (o : Origin) : P (failed o s) := by
  unfold Session.failed
  simp only
  split
  next hcurrent => exact h.turn o.feed hs (.failed hcurrent.2)
  next => exact hs

/-- A callback is one of these, or is logged. -/
theorem react (h : Keeping P) (hs : P s) (c : Callback) : P (Session.react c s) := by
  unfold Session.react
  split
  · exact h.connected hs c.origin
  · exact h.disconnected hs c.origin
  · exact h.failed hs c.origin
  · exact h.aside hs (aside_logged c.payload s)

end Keeping

end Session

/-! ## Runs -/

namespace Session

/-- A new client, with a plan of what its transports will refuse. -/
def fresh (plan : Plan) (id : Nat) (settings : Settings) (credential : Option Credential) (market user : UInt32) :
    Session :=
  ⟨.new id settings credential market user, .ofPlan plan⟩

/-- The session after events. -/
def after (s : Session) (events : List Event) : Session := events.foldl Event.apply s

variable {s : Session} {P : Session → Prop}

/-- What the steps keep is kept by every event. -/
theorem Keeping.apply (h : Keeping P) (hs : P s) (e : Event) : P (e.apply s) := by
  cases e with
  | subscribe products channels => exact h.subscribe products channels hs
  | unsubscribe products channels => exact h.unsubscribe products channels hs
  | reconnect f => exact h.reconnect hs f
  | callback c => exact h.react hs c
  | status number state => exact h.aside hs (aside_setStatus s number state)
  | timer t => exact h.reopen (h.aside hs (aside_timers s _ _)) t.feed

end Session

end MarketFeed.Client
