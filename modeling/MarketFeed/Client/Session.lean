import MarketFeed.Client.World
import MarketFeed.Credential
import MarketFeed.Subscriptions
import MarketFeed.TrafficLog

/-!
# Client.Session — the two feeds of a client

Each feed has a line: its state, its current connection and transport, and what is
subscribed on it. Subscriptions are kept whatever happens to the transport; requests go
out while the feed is open, and all of them once it opens. The user feed asks for
heartbeats as well, which keep its subscriptions alive.

Every opening is a new connection, one generation on. What a transport of an earlier
connection reports does not change the feed.

A session is a client together with the world it acts upon. The client's calls are made of
steps that each concern one feed, so that the steps of several calls can be put in any
order:

- `subscribe` and `unsubscribe` go through `subscribeLine` and `unsubscribeLine`, first
  the market feed and then the user feed, and end at the first failure;
- `reconnect` closes the transport there is and opens another (`reconnectLine`); a failed
  opening leaves the feed errored and without a connection. Reopening when a timer has
  gone off (`reopen`) is the same opening, but a failure of it schedules the next one;
- `react` is what a report of a transport makes of a session: all requests once a feed is
  open (`greeting`), and a timer once it is lost (`scheduleReopening`);
- `shutdown` is in two parts, with the wait for the transports between them:
  `beginClosing` marks the client and asks the transports to close, and `endClosing`
  settles the feeds and stops the traffic log.

Each step holds the lock of its line, which is why a step is one thing here. Waiting
itself is not modelled, nor is the time that a step takes.
-/

namespace MarketFeed.Client

/-- One feed of a client. -/
structure Line where
  phase : Phase
  slot : UInt32
  generation : UInt32
  /-- The current connection, while there is a transport. -/
  connection : Option Connection
  /-- The number of its transport. -/
  transport : Option Nat
  subscriptions : Subscriptions
  /-- How often it was tried to reopen the feed since it was last open. -/
  retries : Nat
deriving DecidableEq

/-- A feed that was never opened. -/
def Line.ofSlot (slot : UInt32) : Line := ⟨.closed, slot, 0, none, none, .empty, 0⟩

/-- A feed to be reopened at a time. -/
structure Timer where
  feed : Feed
  due : Nat
deriving DecidableEq, Repr

end Client

/-- A client of both feeds. -/
structure Client where
  id : Nat
  settings : Settings
  credential : Option Credential
  market : Client.Line
  user : Client.Line
  shuttingDown : Bool
  log : Option TrafficLog
  timers : List Client.Timer

namespace Client

/-- A client whose feeds have slots. -/
def new (id : Nat) (settings : Settings) (credential : Option Credential) (market user : UInt32) : Client :=
  ⟨id, settings, credential, .ofSlot market, .ofSlot user, false,
    settings.log.map fun target => .start target.capacity, []⟩

/-- A client's name is a UUID of this version, which goes up with time. -/
def nameVersion : Nat := 7

def line (c : Client) : Feed → Line
  | .market => c.market
  | .user => c.user

def setLine (c : Client) (f : Feed) (l : Line) : Client :=
  match f with
  | .market => { c with market := l }
  | .user => { c with user := l }

/-- The token for a request on a feed: only the user feed carries one, and goes without if there is none. -/
def tokenFor (c : Client) : Feed → Option String
  | .market => none
  | .user => c.credential.bind fun credential => (credential.token (c.settings.url .user)).toOption

/-- A client and the world it acts upon. -/
structure Session where
  client : Client
  world : World

namespace Session

/-- The answer of an operation, and the session after it. -/
abbrev Result := Except FeedFailure Unit × Session

def line (s : Session) (f : Feed) : Line := s.client.line f

def setLine (s : Session) (f : Feed) (l : Line) : Session := { s with client := s.client.setLine f l }

/-- The state of a feed's transport. -/
def status (s : Session) (f : Feed) : Status :=
  ((s.line f).transport.map s.world.status).getD .disconnected

/-- Goes on with another operation unless the first one failed. -/
def andThen (r : Result) (next : Session → Result) : Result :=
  match r with
  | (.ok (), s) => next s
  | failed => failed

/-- Calls are refused once the client is shutting down. -/
def ensureRunning (s : Session) : Result :=
  (if s.client.shuttingDown then .error (.runtime "feed client is shut down") else .ok (), s)

/-! ## Opening -/

/-- Asks the transport of a feed to close, if it has one. -/
def closeTransport (s : Session) (f : Feed) : Session :=
  match (s.line f).transport with
  | some i => { s with world := s.world.close i }
  | none => s

/-- Opens a feed anew, with the next connection of its slot. -/
def openLine (f : Feed) (s : Session) : Result :=
  let s := s.closeTransport f
  let l := s.line f
  let connection : Connection := ⟨l.slot, l.generation + 1⟩
  let l := { l with generation := connection.generation }
  match s.world.connect s.client.id ⟨connection, f⟩ (s.client.settings.url f) with
  | (.ok i, world) =>
    (.ok (), { s with world }.setLine f
      { l with phase := .connecting, connection := some connection, transport := some i })
  | (.error failure, world) =>
    (.error failure, { s with world }.setLine f
      { l with phase := .errored, connection := none, transport := none })

/-- The most retries that are counted. -/
def maxRetries : Nat := UInt32.size - 1

/-- Arranges for a feed to be reopened, if that is the policy. -/
def scheduleReopening (f : Feed) (s : Session) : Session :=
  let l := s.line f
  match s.client.settings.reconnect.delay? l.retries with
  | none => s
  | some delay =>
    let timers := s.client.timers ++ [⟨f, s.world.clock + delay⟩]
    { s with client := { s.client with timers } }.setLine f
      { l with retries := min (l.retries + 1) maxRetries }

/-- Reopens a feed that is still down when its time has come. -/
def reopen (f : Feed) (s : Session) : Session :=
  let l := s.line f
  if s.client.shuttingDown || l.connection.isSome || !(l.phase == .closed || l.phase == .errored) then s
  else
    match openLine f s with
    | (.ok (), s) => s
    | (.error _, s) => scheduleReopening f s

/-! ## Requests -/

/-- Sends a request on a feed. -/
def send (f : Feed) (kind : RequestKind) (channel : Channel) (products : List Product) (s : Session) :
    Result :=
  match (s.line f).transport with
  | none => (.error (.runtime (f.name ++ " feed has no transport")), s)
  | some i =>
    let (r, world) := s.world.send i (.ofChannel kind channel products (s.client.tokenFor f))
    (r, { s with world })

/-- Sends a request for each channel, up to the first that fails. -/
def sendEach (f : Feed) (kind : RequestKind) (products : List Product) : List Channel → Session → Result
  | [], s => (.ok (), s)
  | channel :: rest, s => andThen (send f kind channel products s) (sendEach f kind products rest)

/-- Subscribes to channels with their products, whether or not the requests can be sent. -/
def subscribeAll (f : Feed) : List (Channel × List Product) → Session → Session
  | [], s => s
  | (channel, products) :: rest, s => subscribeAll f rest (send f .subscribe channel products s).2

/-- What is sent when a feed opens: heartbeats for the user feed, then all that is subscribed. -/
def greeting (f : Feed) (subscriptions : Subscriptions) : List (Channel × List Product) :=
  match f with
  | .market => subscriptions.toList
  | .user => (.heartbeats, []) :: subscriptions.toList

/-! ## Calls -/

/-- The channels of a feed among some. -/
def owned (f : Feed) (channels : List Channel) : List Channel := channels.filter (·.feed = f)

/-- Changes what is subscribed on a feed. -/
def onSubscriptions (s : Session) (f : Feed) (g : Subscriptions → Subscriptions) : Session :=
  s.setLine f { s.line f with subscriptions := g (s.line f).subscriptions }

/-- The part of subscribing that concerns one feed. -/
def subscribeLine (products : List Product) (channels : List Channel) (f : Feed) (s : Session) : Result :=
  match owned f channels with
  | [] => (.ok (), s)
  | mine =>
    let s := s.onSubscriptions f fun set => mine.foldl (fun set c => (set.add c products).1) set
    match (s.line f).phase with
    | .open => sendEach f .subscribe products mine s
    | .connecting | .closing => (.ok (), s)
    | .closed | .errored => openLine f s

/-- Subscribes products to channels. A feed that is down is opened; one that is on its way sends later. -/
def subscribe (products : List Product) (channels : List Channel) (s : Session) : Result :=
  andThen (ensureRunning s) fun s =>
    andThen (subscribeLine products channels .market s) (subscribeLine products channels .user)

/-- The part of unsubscribing that concerns one feed. The user feed needs no heartbeats once nothing is
subscribed. -/
def unsubscribeLine (products : List Product) (channels : List Channel) (f : Feed) (s : Session) : Result :=
  match owned f channels with
  | [] => (.ok (), s)
  | mine =>
    let s := s.onSubscriptions f fun set => mine.foldl (fun set c => set.remove c products) set
    if (s.line f).phase = .open then
      andThen (sendEach f .unsubscribe products mine s) fun s =>
        if f = .user ∧ (s.line f).subscriptions.isEmpty then send f .unsubscribe .heartbeats [] s
        else (.ok (), s)
    else (.ok (), s)

/-- Ends the subscription of products to channels, or of whole channels when no product is named. -/
def unsubscribe (products : List Product) (channels : List Channel) (s : Session) : Result :=
  andThen (unsubscribeLine products channels .market s) (unsubscribeLine products channels .user)

/-- The part of reconnecting behind the check. -/
def reconnectLine (f : Feed) (s : Session) : Result :=
  openLine f (s.setLine f { s.line f with retries := 0 })

def reconnect (f : Feed) (s : Session) : Result := andThen (ensureRunning s) (reconnectLine f)

/-! ## Callbacks -/

def connected (o : Origin) (s : Session) : Session :=
  let l := s.line o.feed
  if l.connection = some o.connection ∧ l.phase = .connecting then
    subscribeAll o.feed (greeting o.feed l.subscriptions)
      (s.setLine o.feed { l with phase := .open, retries := 0 })
  else s

def disconnected (o : Origin) (s : Session) : Session :=
  let l := s.line o.feed
  if l.connection = some o.connection then
    let closing := l.phase == .closing || s.client.shuttingDown
    let phase := if closing || l.phase != .errored then .closed else l.phase
    let s := s.setLine o.feed { l with phase, connection := none, transport := none }
    if closing then s else scheduleReopening o.feed s
  else s

def failed (o : Origin) (s : Session) : Session :=
  let l := s.line o.feed
  if l.connection = some o.connection ∧ (l.phase = .connecting ∨ l.phase = .open) then
    s.setLine o.feed { l with phase := .errored }
  else s

/-- Payloads of all connections go to the log; the writer keeps up with them. -/
def logged (payload : Bytes) (s : Session) : Session :=
  match s.client.log with
  | none => s
  | some log =>
    let (early, log) := log.record payload
    let (rest, log) := log.write
    ⟨{ s.client with log := some log }, s.world.append (early ++ rest)⟩

/-- What a callback does to the client; it goes on to the dispatch in any case. -/
def react (c : Callback) (s : Session) : Session :=
  match c.signal with
  | .connected => connected c.origin s
  | .disconnected => disconnected c.origin s
  | .error => failed c.origin s
  | .data => logged c.payload s

/-! ## Shutting down -/

def beginShutdown (s : Session) : Session := { s with client := { s.client with shuttingDown := true } }

/-- Asks a live feed to close; the answer is awaited. -/
def shutLine (f : Feed) (s : Session) : Session :=
  let l := s.line f
  if l.transport.isSome ∧ l.connection.isSome then
    (s.setLine f { l with phase := .closing }).closeTransport f
  else s.setLine f { l with phase := .closed }

/-- Whether a feed has confirmed its close. -/
def confirmed (f : Feed) (s : Session) : Bool := (s.line f).connection.isNone

/-- Ends the wait for a feed. One that has not confirmed its close is abandoned; the answer is whether it had. -/
def settleLine (f : Feed) (s : Session) : Bool × Session :=
  if s.confirmed f then (true, s)
  else (false, s.setLine f { s.line f with phase := .closed, connection := none, transport := none })

/-- Stops the traffic log. -/
def stopLog (s : Session) : Session :=
  match s.client.log with
  | none => s
  | some log =>
    let (_, written, log) := log.stop
    ⟨{ s.client with log := some log }, s.world.append written⟩

/-- Asks both feeds to close. -/
def beginClosing (s : Session) : Session := shutLine .user (shutLine .market (beginShutdown s))

/-- Ends the wait for both feeds; the answer is whether both had confirmed. -/
def endClosing (s : Session) : Bool × Session :=
  let (market, s) := settleLine .market s
  let (user, s) := settleLine .user s
  (market && user, stopLog s)

end Session

end MarketFeed.Client
