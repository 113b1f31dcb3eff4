import MarketFeed.Proofs.Client.Bookkeeping
import MarketFeed.Proofs.Client.Soundness

/-!
# Client.Strands — a feed on its own

As long as transports refuse nothing, each feed of a client is a machine of its own
(`Strand`): its line and what was sent for it follow from the acts alone, whatever becomes
of the other feed. The machine does not name transports. It need not: a feed that has a
connection has its transport, the last one that was made for it (`Client.Soundness`). So
the requests of a feed come one behind the other in its traffic.

> `Tame.strand_apply`: an act does to a feed what it does to the feed on its own.

That is put together from one lemma for each operation, in the form that the operation
succeeds and leaves the strand as the same operation on strands does. Those of the other
feed are no concern of it (`Confined.strand`). A call that goes through both feeds does to
each what its part for the feed does (`Tame.strand_both`), since with nothing refused the
first part does not end the call.

A refusal would make one feed depend on the other, as a call ends with the first part that
fails. So the result is about tame sessions, sound ones whose plan is smooth, and tameness
is kept by every act (`Tame.apply`). It is what runs are compared by in
`Client.Isolation`: two runs treat a feed alike if the acts that count for its strand are
the same.
-/

namespace MarketFeed.Client

/-- A feed of a client. -/
structure Strand where
  phase : Phase
  slot : UInt32
  generation : UInt32
  connection : Option Connection
  subscriptions : Subscriptions
  retries : Nat
  /-- The requests that were sent in turn, each with its connection. -/
  traffic : List (Connection × Request)
  policy : Backoff
  token : Option String
  shuttingDown : Bool

namespace Strand

open Session

/-! ## Operations -/

def next (x : Strand) : Connection := ⟨x.slot, x.generation + 1⟩

def launch (x : Strand) : Strand :=
  { x with phase := .connecting, generation := x.next.generation, connection := some x.next }

/-- Sends requests on the connection. -/
def send (x : Strand) (kind : RequestKind) (requests : List (Channel × List Product)) : Strand :=
  match x.connection with
  | none => x
  | some c => { x with traffic := x.traffic ++ requests.map fun r => (c, .ofChannel kind r.1 r.2 x.token) }

/-- Counts the attempt to reopen that is arranged. -/
def schedule (x : Strand) : Strand :=
  match x.policy.delay? x.retries with
  | none => x
  | some _ => { x with retries := min (x.retries + 1) maxRetries }

def reopen (x : Strand) : Strand :=
  if x.shuttingDown || x.connection.isSome || !(x.phase == .closed || x.phase == .errored) then x else x.launch

def subscribe (f : Feed) (products : List Product) (channels : List Channel) (x : Strand) : Strand :=
  match owned f channels with
  | [] => x
  | mine =>
    let x := { x with subscriptions := mine.foldl (fun set c => (set.add c products).1) x.subscriptions }
    match x.phase with
    | .open => x.send .subscribe (mine.map (·, products))
    | .connecting | .closing => x
    | .closed | .errored => x.launch

def unsubscribe (f : Feed) (products : List Product) (channels : List Channel) (x : Strand) : Strand :=
  match owned f channels with
  | [] => x
  | mine =>
    let x := { x with subscriptions := mine.foldl (fun set c => set.remove c products) x.subscriptions }
    if x.phase = .open then
      let x := x.send .unsubscribe (mine.map (·, products))
      if f = .user ∧ x.subscriptions.isEmpty then x.send .unsubscribe [(.heartbeats, [])] else x
    else x

def reconnect (x : Strand) : Strand := { x with retries := 0 }.launch

def connected (f : Feed) (c : Connection) (x : Strand) : Strand :=
  if x.connection = some c ∧ x.phase = .connecting then
    { x with phase := .open, retries := 0 }.send .subscribe (greeting f x.subscriptions)
  else x

def disconnected (c : Connection) (x : Strand) : Strand :=
  if x.connection = some c then
    let closing := x.phase == .closing || x.shuttingDown
    let phase := if closing || x.phase != .errored then .closed else x.phase
    let x := { x with phase, connection := none }
    if closing then x else x.schedule
  else x

def failed (c : Connection) (x : Strand) : Strand :=
  if x.connection = some c ∧ (x.phase = .connecting ∨ x.phase = .open) then { x with phase := .errored } else x

def react (f : Feed) (c : Callback) (x : Strand) : Strand :=
  match c.signal with
  | .connected => x.connected f c.origin.connection
  | .disconnected => x.disconnected c.origin.connection
  | .error => x.failed c.origin.connection
  | .data => x

def shut (x : Strand) : Strand :=
  if x.connection.isSome then { x with phase := .closing } else { x with phase := .closed }

def settle (x : Strand) : Strand :=
  if x.connection.isNone then x else { x with phase := .closed, connection := none }

/-- The feed after an event, where only what is meant for it counts. -/
def onEvent (f : Feed) (x : Strand) : Event → Strand
  | .subscribe products channels => if x.shuttingDown then x else x.subscribe f products channels
  | .unsubscribe products channels => x.unsubscribe f products channels
  | .reconnect g => if x.shuttingDown then x else if g = f then x.reconnect else x
  | .callback c => if c.origin.feed = f then x.react f c else x
  | .status _ _ => x
  | .timer t => if t.feed = f then x.reopen else x

def step (f : Feed) (x : Strand) : Act → Strand
  | .event e => x.onEvent f e
  | .subscribing products channels g => if g = f then x.subscribe f products channels else x
  | .unsubscribing products channels g => if g = f then x.unsubscribe f products channels else x
  | .reconnecting g => if g = f then x.reconnect else x
  | .beginShutdown => { x with shuttingDown := true }
  | .shut g => if x.shuttingDown then if g = f then x.shut else x else x
  | .settle g => if x.shuttingDown then if g = f then x.settle else x else x
  | .stopLog => x

/-- The feed with another line. -/
def put (x : Strand) (l : Line) : Strand :=
  { x with
    phase := l.phase, slot := l.slot, generation := l.generation, connection := l.connection
    subscriptions := l.subscriptions, retries := l.retries }

private theorem send_eq {x : Strand} {c : Connection} (h : x.connection = some c) (kind : RequestKind)
    (requests : List (Channel × List Product)) : x.send kind requests =
      { x with traffic := x.traffic ++ requests.map fun r => (c, .ofChannel kind r.1 r.2 x.token) } := by
  unfold send
  rw [h]

private theorem send_nil (x : Strand) (kind : RequestKind) : x.send kind [] = x := by
  unfold send
  split
  next => rfl
  next => rw [List.map_nil, List.append_nil]

private theorem send_cons (x : Strand) (kind : RequestKind) (r : Channel × List Product)
    (requests : List (Channel × List Product)) :
    x.send kind (r :: requests) = (x.send kind [r]).send kind requests := by
  unfold send
  cases hc : x.connection with
  | none => simp only [hc]
  | some c => simp only [List.append_assoc, List.map_cons, List.map_nil, List.singleton_append]

end Strand

namespace Session

/-- A feed of a session on its own. -/
def strand (s : Session) (f : Feed) : Strand where
  phase := (s.line f).phase
  slot := (s.line f).slot
  generation := (s.line f).generation
  connection := (s.line f).connection
  subscriptions := (s.line f).subscriptions
  retries := (s.line f).retries
  traffic := s.world.traffic f
  policy := s.client.settings.reconnect
  token := s.client.tokenFor f
  shuttingDown := s.client.shuttingDown

/-- A sound session whose transports refuse nothing. -/
structure Tame (s : Session) : Prop extends Sound s where
  plan : s.world.plan = .smooth

variable {f g : Feed} {s s' s'' : Session} {change : Change}

/-- A change keeps a session tame. -/
theorem Tame.does (h : s.Tame) (hdoes : Does f change s s') : s'.Tame :=
  ⟨h.toSound.does hdoes, hdoes.plan.trans h.plan⟩

/-! ## Strands -/

private theorem tokenFor_congr {c d : Client} (hsettings : d.settings = c.settings)
    (hcredential : d.credential = c.credential)
    (f : Feed) : d.tokenFor f = c.tokenFor f := by
  cases f with
  | market => rfl
  | user => rw [tokenFor, tokenFor, hsettings, hcredential]

/-- The other feed stays as it is. -/
theorem Confined.strand (h : Confined f s s') (hg : g ≠ f) : s'.strand g = s.strand g := by
  unfold Session.strand
  rw [h.line g hg, h.traffic g hg, h.settings, h.shuttingDown, tokenFor_congr h.settings h.credential]

/-- So does a feed whose line stays and for which nothing was sent. -/
theorem strand_congr (hline : s'.line f = s.line f) (htraffic : s'.world.traffic f = s.world.traffic f)
    (hsettings : s'.client.settings = s.client.settings) (hcredential : s'.client.credential = s.client.credential)
    (hdown : s'.client.shuttingDown = s.client.shuttingDown) : s'.strand f = s.strand f := by
  unfold Session.strand
  rw [hline, htraffic, hsettings, hdown, tokenFor_congr hsettings hcredential]

private theorem strand_setLine (s : Session) (f : Feed) (l : Line) : (s.setLine f l).strand f = (s.strand f).put l := by
  unfold Session.strand Strand.put
  rw [line_setLine, settings_setLine, shuttingDown_setLine,
    tokenFor_congr (settings_setLine s f l) (credential_setLine s f l)]
  rfl

private theorem strand_closeTransport (s : Session) (f : Feed) : (s.closeTransport f).strand f = s.strand f := by
  unfold closeTransport
  split
  next i _ => exact strand_congr rfl (World.traffic_congr (World.history_close _ i) f) rfl rfl rfl
  next => rfl

/-! ## Sending and opening -/

variable {c : Connection}

/-- A request on the connection of a feed is added to its traffic. -/
theorem Tame.send (h : s.Tame) (hc : (s.line f).connection = some c) (kind : RequestKind) (channel : Channel)
    (products : List Product) : ∃ s', send f kind channel products s = (.ok (), s') ∧ s'.Tame ∧
      s'.client = s.client ∧ s'.strand f = (s.strand f).send kind [(channel, products)] := by
  have htame := h.does (does_send (f := f) h.wired kind channel products)
  cases h.stands f with
  | down _ hconnection _ => exact absurd (hc.symm.trans hconnection) (Option.some_ne_none c)
  | up i _ hconnection htransport hlast =>
    -- no later transport is the feed's, so the request is the last of its traffic
    have hpresent : c = (s.line f).present := Option.some.inj (hc.symm.trans hconnection)
    have hok := World.send_smooth h.plan i (.ofChannel kind channel products (s.client.tokenFor f))
    have htraffic := World.traffic_send h.plan hlast (.ofChannel kind channel products (s.client.tokenFor f))
    unfold Session.send at htame ⊢
    rw [htransport] at htame ⊢
    simp only at htame htraffic ⊢
    generalize s.world.send i _ = answer at *
    obtain ⟨result, w⟩ := answer
    simp only at hok htame htraffic
    subst hok
    refine ⟨_, rfl, htame, rfl, ?_⟩
    have hstrand : (Session.mk s.client w).strand f = { s.strand f with traffic := w.traffic f } := rfl
    rw [hstrand, Strand.send_eq hc, htraffic, hpresent]
    rfl

/-- Requests on a connection are added to its traffic in turn. -/
theorem Tame.sendEach (h : s.Tame) (hc : (s.line f).connection = some c) (kind : RequestKind)
    (products : List Product) (channels : List Channel) :
    ∃ s', sendEach f kind products channels s = (.ok (), s') ∧ s'.Tame ∧ s'.client = s.client ∧
      s'.strand f = (s.strand f).send kind (channels.map (·, products)) := by
  induction channels generalizing s with
  | nil => exact ⟨s, rfl, h, rfl, (Strand.send_nil _ _).symm⟩
  | cons channel rest ih =>
    obtain ⟨s₁, hsend, htame, hclient, hstrand⟩ := h.send hc kind channel products
    obtain ⟨s₂, hrest, htame₂, hclient₂, hstrand₂⟩ := ih htame (by rw [line_congr hclient]; exact hc)
    refine ⟨s₂, ?_, htame₂, hclient₂.trans hclient, ?_⟩
    · rw [Session.sendEach, hsend]
      exact hrest
    · rw [hstrand₂, hstrand, List.map_cons, ← Strand.send_cons]

/-- So are those with which a feed is greeted. -/
theorem Tame.subscribeAll (h : s.Tame) (hc : (s.line f).connection = some c)
    (requests : List (Channel × List Product)) :
    (subscribeAll f requests s).strand f = (s.strand f).send .subscribe requests := by
  induction requests generalizing s with
  | nil => exact (Strand.send_nil _ _).symm
  | cons first rest ih =>
    obtain ⟨channel, products⟩ := first
    obtain ⟨s₁, hsend, htame, hclient, hstrand⟩ := h.send hc .subscribe channel products
    rw [Session.subscribeAll, hsend, ih htame (by rw [line_congr hclient]; exact hc), hstrand, ← Strand.send_cons]

/-- To open a feed always succeeds, and launches its strand. -/
theorem Tame.openLine (h : s.Tame) (f : Feed) :
    ∃ s', openLine f s = (.ok (), s') ∧ s'.Tame ∧ s'.strand f = (s.strand f).launch := by
  have hok : (Session.openLine f s).1 = .ok () := by
    rw [openLine_ok_iff, GrantsOpening, h.plan]
    exact ⟨rfl, rfl⟩
  have htame := h.does (does_openLine (f := f) h.wired)
  have hstrand : (Session.openLine f s).2.strand f = (s.strand f).launch := by
    obtain ⟨url, hopen⟩ := openLine_eq f s
    -- nothing is refused, and which transport it is does not matter
    have hanswer : ∃ i, (s.closeTransport f).world.factory.answer s.world.plan = some i := by
      rw [h.plan]
      exact ⟨_, rfl⟩
    obtain ⟨i, hi⟩ := hanswer
    rw [hopen, hi, strand_setLine]
    generalize hopened : (s.closeTransport f).world.connect s.client.id ⟨(s.line f).next, f⟩ url = opened
    have htraffic : opened.2.traffic f = (s.closeTransport f).world.traffic f := by
      rw [← hopened, World.traffic_connect]
    have hworld : ({ s.closeTransport f with world := opened.2 } : Session).strand f = s.strand f := by
      rw [← strand_closeTransport s f]
      exact strand_congr rfl htraffic rfl rfl rfl
    rw [hworld]
    rfl
  refine ⟨_, Prod.ext hok rfl, htame, hstrand⟩

private theorem strand_scheduleReopening (s : Session) (f : Feed) :
    (scheduleReopening f s).strand f = (s.strand f).schedule := by
  have hpolicy : (s.strand f).policy.delay? (s.strand f).retries =
    s.client.settings.reconnect.delay? (s.line f).retries := rfl
  unfold scheduleReopening Strand.schedule
  rw [hpolicy]
  simp only
  cases s.client.settings.reconnect.delay? (s.line f).retries with
  | none => rfl
  | some delay =>
    have htimers : (Session.mk { s.client with timers := s.client.timers ++ [⟨f, s.world.clock + delay⟩] }
        s.world).strand f = s.strand f :=
      strand_congr ((aside_timers s _ s.world.clock).line f) rfl rfl rfl rfl
    simp only
    rw [strand_setLine, htimers]
    rfl

/-! ## Parts of calls -/

variable (products : List Product) (channels : List Channel)

private theorem strand_onSubscriptions (s : Session) (f : Feed) (change : Subscriptions → Subscriptions) :
    (s.onSubscriptions f change).strand f =
      { s.strand f with subscriptions := change (s.strand f).subscriptions } :=
  strand_setLine s f _

/-- The part of subscribing for a feed is the operation on its strand. -/
theorem Tame.subscribeLine (h : s.Tame) (f : Feed) :
    ∃ s', subscribeLine products channels f s = (.ok (), s') ∧ s'.Tame ∧
      s'.strand f = (s.strand f).subscribe f products channels := by
  unfold Session.subscribeLine Strand.subscribe
  cases owned f channels with
  | nil => exact ⟨s, rfl, h, rfl⟩
  | cons first rest =>
    have hrecord := strand_onSubscriptions s f fun set =>
      (first :: rest).foldl (fun set c => (set.add c products).1) set
    have htame := h.does (does_onSubscriptions (f := f) h.wired fun set =>
      (first :: rest).foldl (fun set c => (set.add c products).1) set)
    simp only
    rw [← hrecord]
    generalize s.onSubscriptions f _ = s₁ at *
    have hphase : (s₁.line f).phase = (s.strand f).phase := (congrArg Strand.phase hrecord :)
    rw [← hphase]
    cases hline : (s₁.line f).phase with
    | «open» =>
      obtain ⟨i, hconnection, -⟩ := htame.up (f := f) (by rw [hline]; decide)
      exact (htame.sendEach hconnection .subscribe products (first :: rest)).imp fun s' hs' =>
        ⟨hs'.1, hs'.2.1, hs'.2.2.2⟩
    | connecting => exact ⟨s₁, rfl, htame, rfl⟩
    | closing => exact ⟨s₁, rfl, htame, rfl⟩
    | closed => exact htame.openLine f
    | errored => exact htame.openLine f

/-- The part of unsubscribing for a feed is the operation on its strand. -/
theorem Tame.unsubscribeLine (h : s.Tame) (f : Feed) :
    ∃ s', unsubscribeLine products channels f s = (.ok (), s') ∧ s'.Tame ∧
      s'.strand f = (s.strand f).unsubscribe f products channels := by
  unfold Session.unsubscribeLine Strand.unsubscribe
  cases owned f channels with
  | nil => exact ⟨s, rfl, h, rfl⟩
  | cons first rest =>
    have hrecord := strand_onSubscriptions s f fun set =>
      (first :: rest).foldl (fun set c => set.remove c products) set
    have htame := h.does (does_onSubscriptions (f := f) h.wired fun set =>
      (first :: rest).foldl (fun set c => set.remove c products) set)
    simp only
    rw [← hrecord]
    -- the set changes first, open or not; only then it is asked whether there is somebody to tell
    generalize s.onSubscriptions f _ = s₁ at *
    have hphase : (s₁.line f).phase = (s.strand f).phase := (congrArg Strand.phase hrecord :)
    rw [← hphase]
    by_cases hopen : (s₁.line f).phase = .open
    · obtain ⟨i, hconnection, -⟩ := htame.up (f := f) (by rw [hopen]; decide)
      obtain ⟨s₂, hsent, htame₂, hclient, hstrand⟩ :=
        htame.sendEach hconnection .unsubscribe products (first :: rest)
      rw [if_pos hopen, if_pos hopen, hsent, ← hstrand]
      simp only [andThen]
      have hset : (s₂.line f).subscriptions = (s₂.strand f).subscriptions := rfl
      rw [hset]
      split
      next =>
        have hconnection₂ : (s₂.line f).connection = some (s₁.line f).present := by
          rw [line_congr hclient, hconnection]
        exact (htame₂.send hconnection₂ .unsubscribe .heartbeats []).imp fun s' hs' =>
          ⟨hs'.1, hs'.2.1, hs'.2.2.2⟩
      next => exact ⟨s₂, rfl, htame₂, rfl⟩
    · rw [if_neg hopen, if_neg hopen]
      exact ⟨s₁, rfl, htame, rfl⟩

/-- To reconnect a feed is the operation on its strand. -/
theorem Tame.reconnectLine (h : s.Tame) (f : Feed) :
    ∃ s', reconnectLine f s = (.ok (), s') ∧ s'.Tame ∧ s'.strand f = (s.strand f).reconnect := by
  have hset : Does f .kept s (s.setLine f { s.line f with retries := 0 }) :=
    does_setLine h.wired trivial rfl (Or.inl rfl) rfl
  obtain ⟨s', hopen, htame, hstrand⟩ := (h.does hset).openLine f
  refine ⟨s', hopen, htame, ?_⟩
  rw [hstrand, strand_setLine]
  rfl

/-! ## Callbacks and timers -/

/-- A connection that is established does to the strand what it does to the feed. -/
theorem Tame.strand_connected (h : s.Tame) (f : Feed) (c : Connection) :
    (connected ⟨c, f⟩ s).strand f = (s.strand f).connected f c := by
  have hcond : (s.strand f).connection = some c ∧ (s.strand f).phase = .connecting ↔
    (s.line f).connection = some c ∧ (s.line f).phase = .connecting := Iff.rfl
  unfold connected Strand.connected
  simp only [hcond]
  split
  next hcurrent =>
    have hset : Does f .opened s (s.setLine f { s.line f with phase := .open, retries := 0 }) :=
      does_setLine h.wired hcurrent.2 rfl (Or.inl rfl) rfl
    have hconnection : ((s.setLine f { s.line f with phase := .open, retries := 0 }).line f).connection = some c := by
      rw [line_setLine]
      exact hcurrent.1
    rw [(h.does hset).subscribeAll hconnection, strand_setLine]
    rfl
  next => rfl

/-- So does one that is lost. -/
theorem strand_disconnected (s : Session) (f : Feed) (c : Connection) :
    (disconnected ⟨c, f⟩ s).strand f = (s.strand f).disconnected c := by
  have hcond : (s.strand f).connection = some c ↔ (s.line f).connection = some c := Iff.rfl
  have hclosing : ((s.strand f).phase == .closing || (s.strand f).shuttingDown) =
    ((s.line f).phase == .closing || s.client.shuttingDown) := rfl
  unfold disconnected Strand.disconnected
  simp only [hcond, hclosing]
  generalize ((s.line f).phase == .closing || s.client.shuttingDown) = closing
  split
  next =>
    cases closing with
    | true => exact strand_setLine s f _
    | false => exact (strand_scheduleReopening _ f).trans (congrArg Strand.schedule (strand_setLine s f _))
  next => rfl

/-- So does one that fails. -/
theorem strand_failed (s : Session) (f : Feed) (c : Connection) :
    (failed ⟨c, f⟩ s).strand f = (s.strand f).failed c := by
  have hcond : (s.strand f).connection = some c ∧ ((s.strand f).phase = .connecting ∨ (s.strand f).phase = .open) ↔
    (s.line f).connection = some c ∧ ((s.line f).phase = .connecting ∨ (s.line f).phase = .open) := Iff.rfl
  unfold failed Strand.failed
  simp only [hcond]
  split
  next => exact strand_setLine s f _
  next => rfl

private theorem strand_logged (s : Session) (f : Feed) (payload : Bytes) :
    (logged payload s).strand f = s.strand f := by
  have hline := (aside_logged payload s).line f
  unfold logged at hline ⊢
  split
  next => rfl
  next log hlog =>
    rw [hlog] at hline
    simp only at hline ⊢
    exact strand_congr hline rfl rfl rfl rfl

/-- A callback does to the strand of its feed what it does to the feed. -/
theorem Tame.strand_react (h : s.Tame) (c : Callback) :
    (react c s).strand c.origin.feed = (s.strand c.origin.feed).react c.origin.feed c := by
  obtain ⟨⟨connection, f⟩, signal, payload⟩ := c
  cases signal with
  | connected => exact h.strand_connected f connection
  | disconnected => exact strand_disconnected s f connection
  | error => exact strand_failed s f connection
  | data => exact strand_logged s f payload

/-- To open a feed again is the operation on its strand. -/
theorem Tame.strand_reopen (h : s.Tame) (f : Feed) : (reopen f s).strand f = (s.strand f).reopen := by
  obtain ⟨s', hopen, -, hstrand⟩ := h.openLine f
  have hcond : ((s.strand f).shuttingDown || (s.strand f).connection.isSome ||
      !((s.strand f).phase == .closed || (s.strand f).phase == .errored)) =
    (s.client.shuttingDown || (s.line f).connection.isSome ||
      !((s.line f).phase == .closed || (s.line f).phase == .errored)) := rfl
  unfold reopen Strand.reopen
  simp only [hcond]
  split
  next => rfl
  next =>
    rw [hopen]
    exact hstrand

/-! ## Parts of a shutdown -/

/-- To ask a feed to close is the operation on its strand. -/
theorem Tame.strand_shutLine (h : s.Tame) (f : Feed) : (shutLine f s).strand f = (s.strand f).shut := by
  have hlinked : (s.line f).transport.isSome ∧ (s.line f).connection.isSome ↔ (s.strand f).connection.isSome :=
    and_iff_right_of_imp (h.stands f).linked.2
  unfold shutLine Strand.shut
  simp only [hlinked]
  split
  next => rw [strand_closeTransport, strand_setLine]; rfl
  next => exact strand_setLine s f _

/-- To end the wait for a feed is the operation on its strand. -/
theorem strand_settleLine (s : Session) (f : Feed) : (settleLine f s).2.strand f = (s.strand f).settle := by
  have hcond : (s.strand f).connection.isNone = s.confirmed f := rfl
  unfold settleLine Strand.settle
  rw [hcond]
  split
  next => rfl
  next => exact strand_setLine s f _

private theorem strand_stopLog (s : Session) (f : Feed) : (stopLog s).strand f = s.strand f := by
  unfold stopLog
  split
  next => rfl
  next => exact strand_congr (by cases f <;> rfl) rfl rfl rfl rfl

/-! ## Acts -/

private theorem Shuns.confined (h : Shuns f s s') : Confined f s s' := by
  obtain ⟨_, _, hdoes⟩ := h
  exact hdoes.toConfined

private theorem confined_react (h : s.Wired) (c : Callback) : Confined c.origin.feed s (react c s) := by
  obtain ⟨o, signal, payload⟩ := c
  cases signal with
  | connected =>
    obtain ⟨_, -, hdoes⟩ := does_connected h o
    exact hdoes.toConfined
  | disconnected => exact (shuns_disconnected h o).confined
  | error => exact (shuns_failed h o).confined
  | data => exact (does_logged h payload).toConfined

/-- Every act keeps a session tame. -/
theorem Tame.apply (h : s.Tame) (a : Act) : (a.apply s).Tame :=
  ⟨h.toSound.apply a, (plan_apply h.wired a).trans h.plan⟩

/-- A call that goes through both feeds does to each what its part for the feed does. -/
theorem Tame.strand_both (h : s.Tame) (part : Feed → Session → Result) (op : Feed → Strand → Strand)
    (hpart : ∀ s : Session, s.Tame → ∀ f, ∃ s', part f s = (.ok (), s') ∧ s'.Tame ∧ s'.strand f = op f (s.strand f))
    (hconfined : ∀ s : Session, s.Wired → ∀ f, Confined f s (part f s).2) (f : Feed) :
    (andThen (part .market s) (part .user)).2.strand f = op f (s.strand f) := by
  obtain ⟨s₁, hmarket, htame, hstrand⟩ := hpart s h .market
  have hother := hconfined s h.wired .market
  have hother₁ := hconfined s₁ htame.wired .user
  obtain ⟨s₂, huser, -, hstrand₂⟩ := hpart s₁ htame .user
  rw [hmarket] at hother ⊢
  simp only [andThen]
  cases f with
  | market => rw [hother₁.strand (by decide), hstrand]
  | user => rw [huser, hstrand₂, hother.strand (by decide)]

/-- What is meant for one feed does nothing to the other. -/
theorem strand_one (op : Feed → Strand → Strand) (hconfined : Confined g s s')
    (hown : s'.strand g = op g (s.strand g)) (f : Feed) :
    s'.strand f = if g = f then op f (s.strand f) else s.strand f := by
  split
  next hg => rw [← hg, hown]
  next hg => exact hconfined.strand (Ne.symm hg)

private theorem Tame.strand_fire (h : s.Tame) (t : Timer) (f : Feed) :
    (Stage.fire t s).strand f = if t.feed = f then (s.strand f).reopen else s.strand f := by
  have htimers := does_timers (f := t.feed) h.wired (s.client.timers.erase t) (max s.world.clock t.due)
  have hsame (f : Feed) : (Session.mk { s.client with timers := s.client.timers.erase t }
      { s.world with clock := max s.world.clock t.due }).strand f = s.strand f :=
    strand_congr ((aside_timers s (s.client.timers.erase t) (max s.world.clock t.due)).line f) rfl rfl rfl rfl
  have hown := (h.does htimers).strand_reopen t.feed
  rw [hsame] at hown
  exact strand_one (fun _ => .reopen) (htimers.toConfined.trans (shuns_reopen htimers.wired).confined) hown f

/-- An event does to a feed what it does to the feed on its own. -/
theorem Tame.strand_event (h : s.Tame) (e : Event) (f : Feed) :
    (e.apply s).strand f = (s.strand f).onEvent f e := by
  have hshutting : (s.strand f).shuttingDown = s.client.shuttingDown := rfl
  cases e with
  | subscribe products channels =>
    have hboth := h.strand_both (Session.subscribeLine products channels) (fun f => .subscribe f products channels)
      (fun s hs => hs.subscribeLine products channels)
      (fun s hs f => (shuns_subscribeLine products channels hs).confined) f
    simp only [Event.apply, subscribe, ensureRunning, Strand.onEvent, hshutting]
    cases s.client.shuttingDown with
    | true => rfl
    | false => exact hboth
  | unsubscribe products channels =>
    exact h.strand_both (Session.unsubscribeLine products channels) (fun f => .unsubscribe f products channels)
      (fun s hs => hs.unsubscribeLine products channels)
      (fun s hs f => (does_unsubscribeLine products channels hs).toConfined) f
  | reconnect g =>
    obtain ⟨s', hreconnect, -, hstrand⟩ := h.reconnectLine g
    have hconfined := (does_reconnectLine (f := g) h.wired).toConfined
    rw [hreconnect] at hconfined
    simp only [Event.apply, reconnect, ensureRunning, Strand.onEvent, hshutting]
    cases s.client.shuttingDown with
    | true => rfl
    | false =>
      have hone := strand_one (fun _ => .reconnect) hconfined hstrand f
      simp only [andThen, Bool.false_eq_true, if_false, hreconnect]
      exact hone
  | callback c =>
    exact strand_one (fun f => .react f c) (confined_react h.wired c) (h.strand_react c) f
  | status number state =>
    exact strand_congr rfl (World.traffic_congr (World.history_setStatus _ _ _) f) rfl rfl rfl
  | timer t => exact h.strand_fire t f

/-- So does every act. -/
theorem Tame.strand_apply (h : s.Tame) (a : Act) (f : Feed) : (a.apply s).strand f = (s.strand f).step f a := by
  have hshutting : (s.strand f).shuttingDown = s.client.shuttingDown := rfl
  cases a with
  | event e => exact h.strand_event e f
  | subscribing products channels g =>
    obtain ⟨s', hcall, -, hstrand⟩ := h.subscribeLine products channels g
    have hconfined := (shuns_subscribeLine (f := g) products channels h.wired).confined
    rw [hcall] at hconfined
    simp only [Act.apply, hcall]
    exact strand_one (fun f => .subscribe f products channels) hconfined hstrand f
  | unsubscribing products channels g =>
    obtain ⟨s', hcall, -, hstrand⟩ := h.unsubscribeLine products channels g
    have hconfined := (does_unsubscribeLine (f := g) products channels h.wired).toConfined
    rw [hcall] at hconfined
    simp only [Act.apply, hcall]
    exact strand_one (fun f => .unsubscribe f products channels) hconfined hstrand f
  | reconnecting g =>
    obtain ⟨s', hcall, -, hstrand⟩ := h.reconnectLine g
    have hconfined := (does_reconnectLine (f := g) h.wired).toConfined
    rw [hcall] at hconfined
    simp only [Act.apply, hcall]
    exact strand_one (fun _ => .reconnect) hconfined hstrand f
  | beginShutdown => rfl
  | shut g =>
    simp only [Act.apply, Strand.step, hshutting]
    split
    next hdown =>
      exact strand_one (fun _ => .shut) (shuns_shutLine h.wired hdown).confined (h.strand_shutLine g) f
    next => rfl
  | settle g =>
    simp only [Act.apply, Strand.step, hshutting]
    split
    next => exact strand_one (fun _ => .settle) (shuns_settleLine h.wired).confined (strand_settleLine s g) f
    next => rfl
  | stopLog => exact strand_stopLog s f

end Session

end MarketFeed.Client
