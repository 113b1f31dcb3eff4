import MarketFeed.Proofs.Client.Factory
import MarketFeed.Proofs.Client.Keeping
import MarketFeed.Proofs.Client.Requests

/-!
# Client.Acts — calls in parts, and what they do to a line

Calls hold the lock of one feed at a time, so calls of several threads run into each other
between their parts. A run is therefore made of acts (`Act`): whole events, the parts of
calls that concern one feed, and the parts of a shutdown. Every run of whole calls is a
run of acts, and so is every way in which threads can interleave them.

Whatever an act is, each feed goes through one `Change` at most, the market feed first. A
change is laid down by what it makes of the line (`Change.apply`), when it can happen
(`Change.Fits`) and what it asks of the factory of transports (`Change.ask`); it leaves
the other feed alone (`Confined`). That is shown once for each operation (`Does`),
whatever the transports refuse, and put together for the acts:

> `Act.divides_apply`: an act announces a shutdown, or takes each feed through a change,
> and no feed is opened but by the callback of its own connection.

This is the inversion lemma of the client. What is shown of runs later, that the two feeds
stay sound (`Client.Soundness`), that a feed which is shut sinks (`Client.Sinking`), that
a feed is a machine of its own while nothing is refused (`Client.Strands`), rests on the
changes and not on the code of the operations.

Left out of a line's frame are its subscriptions and the number of its retries: no change
depends on them, and what becomes of them is told by `Client.Bookkeeping` and
`Client.Reopening`.
-/

namespace MarketFeed.Client

/-- What can become of a line, apart from its subscriptions and its retries. -/
inductive Change where
  | kept
  | opened
  | failed
  /-- The connection was lost, or given up; a feed may remain in error. -/
  | lost (errored : Bool)
  | closing
  | closed
  /-- The feed was opened anew, with the transport of this number if there is one. -/
  | launched (transport : Option Nat)

/-- A line but for what is subscribed on it and how often it was retried. -/
def Line.frame (l : Line) : Line := { l with subscriptions := .empty, retries := 0 }

/-- The connection that a line is opened for next. -/
def Line.next (l : Line) : Connection := ⟨l.slot, l.generation + 1⟩

namespace Change

/-- What a change makes of a line. -/
def apply (l : Line) : Change → Line
  | kept => l
  | opened => { l with phase := .open }
  | failed => { l with phase := .errored }
  | lost errored => { l with
      phase := if errored then .errored else .closed, connection := none, transport := none }
  | closing => { l with phase := .closing }
  | closed => { l with phase := .closed }
  | launched (some i) => { l with
      phase := .connecting, generation := l.next.generation, connection := some l.next, transport := some i }
  | launched none => { l with
      phase := .errored, generation := l.next.generation, connection := none, transport := none }

/-- When a change can happen to a feed. -/
def Fits (s : Session) (f : Feed) : Change → Prop
  | kept => True
  | opened => (s.line f).phase = .connecting
  | failed => (s.line f).phase = .connecting ∨ (s.line f).phase = .open
  | lost errored => errored = true → (s.line f).phase = .errored
  | closing => s.client.shuttingDown = true ∧ (s.line f).transport.isSome ∧ (s.line f).connection.isSome
  | closed => ¬ ((s.line f).transport.isSome ∧ (s.line f).connection.isSome)
  | launched transport => transport = s.world.factory.answer s.world.plan

/-- What a change asks of the factory. -/
def ask (s : Session) (f : Feed) : Change → Factory
  | launched _ => s.world.factory.ask s.world.plan ⟨(s.line f).next, f⟩
  | _ => s.world.factory

end Change

namespace Session

variable {f g : Feed} {s s' s'' : Session} {change : Change}

/-- That a step leaves all but one feed as it is. -/
structure Confined (f : Feed) (s s' : Session) : Prop extends Concerns f s s' where
  settings : s'.client.settings = s.client.settings
  credential : s'.client.credential = s.client.credential
  shuttingDown : s'.client.shuttingDown = s.client.shuttingDown
  traffic : ∀ g, g ≠ f → s'.world.traffic g = s.world.traffic g

/-- Two steps that leave the other feed alone leave it alone together. -/
theorem Confined.trans (h : Confined f s s') (h' : Confined f s' s'') : Confined f s s'' where
  toConcerns := h.toConcerns.trans h'.toConcerns
  settings := h'.settings.trans h.settings
  credential := h'.credential.trans h.credential
  shuttingDown := h'.shuttingDown.trans h.shuttingDown
  traffic g hg := (h'.traffic g hg).trans (h.traffic g hg)

/-- That a step takes one feed through a change. -/
structure Does (f : Feed) (change : Change) (s s' : Session) : Prop extends Confined f s s' where
  fits : change.Fits s f
  frame : (s'.line f).frame = change.apply (s.line f).frame
  factory : s'.world.factory = change.ask s f

/-- What keeps a feed has no part in what becomes of it next. -/
theorem Does.after_kept (h : Does f .kept s s') (h' : Does f change s' s'') : Does f change s s'' := by
  have hframe : (s'.line f).frame = (s.line f).frame := h.frame
  have hphase : (s'.line f).phase = (s.line f).phase := (congrArg Line.phase hframe :)
  have htransport : (s'.line f).transport = (s.line f).transport := (congrArg Line.transport hframe :)
  have hconnection : (s'.line f).connection = (s.line f).connection := (congrArg Line.connection hframe :)
  have hnext : (s'.line f).next = (s.line f).next := (congrArg Line.next hframe :)
  have hfactory : s'.world.factory = s.world.factory := h.factory
  have hfits := h'.fits
  have hmade := h'.factory
  -- both are about these components alone
  refine ⟨h.toConfined.trans h'.toConfined, ?_, ?_, ?_⟩
  · cases change <;> simp only [Change.Fits, hphase, htransport, hconnection, hfactory, h.shuttingDown, h.plan]
      at hfits ⊢ <;> exact hfits
  · rw [h'.frame, hframe]
  · cases change <;> simp only [Change.ask, hfactory, h.plan, hnext] at hmade ⊢ <;> exact hmade

private theorem Does.kept_after (h : Does f change s s') (h' : Does f .kept s' s'') : Does f change s s'' where
  toConfined := h.toConfined.trans h'.toConfined
  fits := h.fits
  frame := (show (s''.line f).frame = (s'.line f).frame from h'.frame).trans h.frame
  factory := (show s''.world.factory = s'.world.factory from h'.factory).trans h.factory

/-! ## What the operations are made of -/

/-- A line that is put in its place leaves the settings alone. -/
theorem settings_setLine (s : Session) (f : Feed) (l : Line) :
    (s.setLine f l).client.settings = s.client.settings := by
  cases f <;> rfl

/-- It leaves the credential alone. -/
theorem credential_setLine (s : Session) (f : Feed) (l : Line) :
    (s.setLine f l).client.credential = s.client.credential := by
  cases f <;> rfl

/-- It announces no shutdown. -/
theorem shuttingDown_setLine (s : Session) (f : Feed) (l : Line) :
    (s.setLine f l).client.shuttingDown = s.client.shuttingDown := by
  cases f <;> rfl

/-- A change that needs no transport is made on the line alone. -/
theorem does_setLine {l : Line} (h : s.Wired) (hfits : change.Fits s f)
    (hframe : l.frame = change.apply (s.line f).frame)
    (htransport : l.transport = (s.line f).transport ∨ l.transport = none) (hask : change.ask s f = s.world.factory) :
    Does f change s (s.setLine f l) where
  toConcerns := concerns_setLine_same h htransport
  settings := settings_setLine s f l
  credential := credential_setLine s f l
  shuttingDown := shuttingDown_setLine s f l
  traffic _ _ := rfl
  fits := hfits
  frame := by rw [line_setLine, hframe]
  factory := hask.symm

/-- Nothing happens to a feed. -/
theorem does_kept (h : s.Wired) : Does f .kept s s :=
  ⟨⟨.refl h, rfl, rfl, rfl, fun _ _ => rfl⟩, trivial, rfl, rfl⟩

/-- The world changes, but not for any feed. -/
theorem does_world {w : World} (h : Concerns f s { s with world := w })
    (htraffic : ∀ g, g ≠ f → w.traffic g = s.world.traffic g) (hfactory : w.factory = s.world.factory) :
    Does f .kept s { s with world := w } :=
  ⟨⟨h, rfl, rfl, rfl, htraffic⟩, trivial, rfl, hfactory⟩

private theorem does_closeTransport (h : s.Wired) : Does f .kept s (s.closeTransport f) := by
  have hconcerns := concerns_closeTransport (f := f) h
  unfold closeTransport at hconcerns ⊢
  split
  next i hi =>
    rw [hi] at hconcerns
    exact does_world hconcerns (fun g _ => World.traffic_congr (World.history_close _ i) g) (World.factory_close _ i)
  next => exact does_kept h

/-- To send a request, or to be refused, keeps a feed. -/
theorem does_send (h : s.Wired) (kind : RequestKind) (channel : Channel) (products : List Product) :
    Does f .kept s (send f kind channel products s).2 := by
  have hconcerns := concerns_send (f := f) h kind channel products
  unfold send at hconcerns ⊢
  split
  next => exact does_kept h
  next i hi =>
    rw [hi] at hconcerns
    obtain ⟨o, ho, hfeed⟩ := h f i hi
    exact does_world hconcerns (fun g hg => World.traffic_send_of_ne ho (hfeed ▸ hg.symm) _)
      (World.factory_send _ _ _)

/-- What keeps a feed may be followed by what keeps it, or not. -/
theorem Does.andThen {r : Result} {next : Session → Result} (h : Does f .kept s r.2)
    (hnext : ∀ s', s'.Wired → Does f .kept s' (next s').2) : Does f .kept s (andThen r next).2 := by
  obtain ⟨result, s'⟩ := r
  cases result with
  | error failure => exact h
  | ok => exact h.after_kept (hnext s' h.wired)

/-- To send requests in turn keeps a feed, also where one is refused. -/
theorem does_sendEach (h : s.Wired) (kind : RequestKind) (products : List Product) (channels : List Channel) :
    Does f .kept s (sendEach f kind products channels s).2 := by
  induction channels generalizing s with
  | nil => exact does_kept h
  | cons channel rest ih => exact (does_send h kind channel products).andThen fun _ h' => ih h'

private theorem does_subscribeAll (h : s.Wired) (subscriptions : List (Channel × List Product)) :
    Does f .kept s (subscribeAll f subscriptions s) := by
  induction subscriptions generalizing s with
  | nil => exact does_kept h
  | cons first rest ih =>
    have hsend := does_send (f := f) h .subscribe first.1 first.2
    exact hsend.after_kept (ih hsend.wired)

/-- Timers and the log are no part of a feed. -/
theorem does_aside (h : s.Wired) (haside : Aside s s') (hsettings : s'.client.settings = s.client.settings)
    (hcredential : s'.client.credential = s.client.credential)
    (hshutting : s'.client.shuttingDown = s.client.shuttingDown) (hhistory : s'.world.history = s.world.history)
    (hcreations : s'.world.creations = s.world.creations) : Does f .kept s s' where
  toConcerns := concerns_aside h haside.line haside.plan haside.origin haside.sent
  settings := hsettings
  credential := hcredential
  shuttingDown := hshutting
  traffic g _ := World.traffic_congr hhistory g
  fits := trivial
  frame := congrArg Line.frame (haside.line f)
  factory := by rw [World.factory, hhistory, hcreations]; rfl

/-- Timers and the clock are no part of a feed. -/
theorem does_timers (h : s.Wired) (timers : List Timer) (clock : Nat) :
    Does f .kept s ⟨{ s.client with timers }, { s.world with clock }⟩ :=
  does_aside h (aside_timers s timers clock) rfl rfl rfl rfl rfl

private theorem does_scheduleReopening (h : s.Wired) : Does f .kept s (scheduleReopening f s) := by
  unfold scheduleReopening
  simp only
  split
  next => exact does_kept h
  next delay _ =>
    have htimers := does_timers (f := f) h (s.client.timers ++ [⟨f, s.world.clock + delay⟩]) s.world.clock
    have hline := (aside_timers s (s.client.timers ++ [⟨f, s.world.clock + delay⟩]) s.world.clock).line f
    refine htimers.after_kept (does_setLine htimers.wired trivial ?_ (Or.inl ?_) rfl)
    · rw [hline]
      rfl
    · rw [hline]

/-- To open a feed is to launch it with what the factory answers, once its transport is closed. -/
theorem openLine_eq (f : Feed) (s : Session) : ∃ url,
    (openLine f s).2 = { s.closeTransport f with
      world := ((s.closeTransport f).world.connect s.client.id ⟨(s.line f).next, f⟩ url).2 }.setLine f
        ((Change.launched ((s.closeTransport f).world.factory.answer s.world.plan)).apply (s.line f)) := by
  have hclient := client_closeTransport f s
  have hline := line_congr hclient f
  have hplan : (s.closeTransport f).world.plan = s.world.plan := by
    unfold closeTransport
    split
    · exact World.plan_close _ _
    · rfl
  refine ⟨s.client.settings.url f, ?_⟩
  rw [← hplan, ← World.connect_answer _ s.client.id ⟨(s.line f).next, f⟩ (s.client.settings.url f)]
  unfold openLine Line.next
  simp only
  rw [hline, hclient]
  generalize (s.closeTransport f).world.connect s.client.id _ (s.client.settings.url f) = opened
  obtain ⟨result, w⟩ := opened
  cases result <;> rfl

/-- To open a feed launches it, with a transport or without. -/
theorem does_openLine (h : s.Wired) :
    Does f (.launched (s.world.factory.answer s.world.plan)) s (openLine f s).2 := by
  have hclose := does_closeTransport (f := f) h
  have hconcerns := concerns_openLine (f := f) h
  obtain ⟨url, hopen⟩ := openLine_eq f s
  have hfactory : (s.closeTransport f).world.factory = s.world.factory := hclose.factory
  rw [hopen] at hconcerns ⊢
  rw [hfactory] at hconcerns ⊢
  refine ⟨⟨hconcerns, ?_, ?_, ?_, ?_⟩, rfl, ?_, ?_⟩
  · exact (settings_setLine _ f _).trans hclose.settings
  · exact (credential_setLine _ f _).trans hclose.credential
  · exact (shuttingDown_setLine _ f _).trans hclose.shuttingDown
  · intro g hg
    exact (World.traffic_connect _ _ _ _ g).trans (hclose.traffic g hg)
  · rw [line_setLine]
    cases s.world.factory.answer s.world.plan <;> rfl
  · refine (World.factory_connect _ _ _ _).trans ?_
    rw [hclose.plan, hfactory]
    rfl

/-! ## Parts of calls -/

variable (products : List Product) (channels : List Channel)

/-- What is subscribed is no part of the frame. -/
theorem does_onSubscriptions (h : s.Wired) (g : Subscriptions → Subscriptions) :
    Does f .kept s (s.onSubscriptions f g) :=
  does_setLine h trivial rfl (Or.inl rfl) rfl

/-- That a step changes one feed, but does not let it be open. -/
def Shuns (f : Feed) (s s' : Session) : Prop := ∃ change, change ≠ .opened ∧ Does f change s s'

private theorem Does.shuns (h : Does f change s s') (hchange : change ≠ .opened) : Shuns f s s' := ⟨change, hchange, h⟩

/-- A feed that changed is still wired. -/
theorem Shuns.wired (h : Shuns f s s') : s'.Wired := by
  obtain ⟨_, _, hdoes⟩ := h
  exact hdoes.wired

/-- To subscribe opens nothing by itself: a feed that is down is launched. -/
theorem shuns_subscribeLine (h : s.Wired) : Shuns f s (subscribeLine products channels f s).2 := by
  unfold subscribeLine
  split
  next => exact (does_kept h).shuns Change.noConfusion
  next =>
    simp only
    generalize hs : s.onSubscriptions f _ = s'
    have hset : Does f .kept s s' := hs ▸ does_onSubscriptions h _
    have hopen := (hset.after_kept (does_openLine hset.wired)).shuns Change.noConfusion
    split
    · exact (hset.after_kept (does_sendEach hset.wired _ _ _)).shuns Change.noConfusion
    · exact hset.shuns Change.noConfusion
    · exact hset.shuns Change.noConfusion
    · exact hopen
    · exact hopen

/-- To unsubscribe keeps a feed. -/
theorem does_unsubscribeLine (h : s.Wired) : Does f .kept s (unsubscribeLine products channels f s).2 := by
  unfold unsubscribeLine
  split
  next => exact does_kept h
  next =>
    simp only
    generalize hs : s.onSubscriptions f _ = s'
    have hset : Does f .kept s s' := hs ▸ does_onSubscriptions h _
    split
    next =>
      refine hset.after_kept ((does_sendEach hset.wired _ _ _).andThen ?_)
      intro s'' hwired
      split
      · exact does_send hwired _ _ _
      · exact does_kept hwired
    next => exact hset

/-- To reconnect launches a feed anew. -/
theorem does_reconnectLine (h : s.Wired) :
    Does f (.launched (s.world.factory.answer s.world.plan)) s (reconnectLine f s).2 := by
  have hset : Does f .kept s (s.setLine f { s.line f with retries := 0 }) :=
    does_setLine h trivial rfl (Or.inl rfl) rfl
  exact hset.after_kept (does_openLine hset.wired)

/-! ## Callbacks and timers -/

/-- Only the callback of the feed's own connection opens it. -/
theorem does_connected (h : s.Wired) (o : Origin) :
    ∃ change, (change = .opened → (s.line o.feed).connection = some o.connection) ∧
      Does o.feed change s (connected o s) := by
  unfold connected
  simp only
  split
  next hcurrent =>
    have hset : Does o.feed .opened s (s.setLine o.feed { s.line o.feed with phase := .open, retries := 0 }) :=
      does_setLine h hcurrent.2 rfl (Or.inl rfl) rfl
    exact ⟨.opened, fun _ => hcurrent.1, hset.kept_after (does_subscribeAll hset.wired _)⟩
  next => exact ⟨.kept, Change.noConfusion, does_kept h⟩

/-- A lost connection closes its feed, or leaves it in error. -/
theorem shuns_disconnected (h : s.Wired) (o : Origin) : Shuns o.feed s (disconnected o s) := by
  unfold disconnected
  simp only
  split
  next =>
    generalize ((s.line o.feed).phase == .closing || s.client.shuttingDown) = closing
    have hlost : ∃ errored, Does o.feed (.lost errored) s (s.setLine o.feed { s.line o.feed with
        phase := if (closing || (s.line o.feed).phase != .errored) = true then .closed else (s.line o.feed).phase
        connection := none, transport := none }) := by
      split
      next => exact ⟨false, does_setLine h Bool.noConfusion rfl (Or.inr rfl) rfl⟩
      next hcond =>
        simp only [Bool.or_eq_true, bne_iff_ne, not_or, Decidable.not_not] at hcond
        rw [hcond.2]
        exact ⟨true, does_setLine h (fun _ => hcond.2) rfl (Or.inr rfl) rfl⟩
    obtain ⟨errored, hlost⟩ := hlost
    split
    · exact hlost.shuns Change.noConfusion
    · exact (hlost.kept_after (does_scheduleReopening hlost.wired)).shuns Change.noConfusion
  next => exact (does_kept h).shuns Change.noConfusion

/-- An error of the own connection leaves the feed in error. -/
theorem shuns_failed (h : s.Wired) (o : Origin) : Shuns o.feed s (failed o s) := by
  unfold failed
  simp only
  split
  next hcurrent =>
    have hset : Does o.feed .failed s (s.setLine o.feed { s.line o.feed with phase := .errored }) :=
      does_setLine h hcurrent.2 rfl (Or.inl rfl) rfl
    exact hset.shuns Change.noConfusion
  next => exact (does_kept h).shuns Change.noConfusion

/-- What is logged is no part of a feed. -/
theorem does_logged (h : s.Wired) (payload : Bytes) : Does f .kept s (logged payload s) := by
  have haside := aside_logged payload s
  unfold logged at haside ⊢
  split
  next => exact does_kept h
  next log hlog =>
    rw [hlog] at haside
    simp only at haside ⊢
    exact does_aside h haside rfl rfl rfl rfl rfl

/-- A timer that goes off launches its feed if it is down, and does nothing if not. -/
theorem shuns_reopen (h : s.Wired) : Shuns f s (reopen f s) := by
  have hopen := does_openLine (f := f) h
  unfold reopen
  simp only
  split
  next => exact (does_kept h).shuns Change.noConfusion
  next =>
    generalize openLine f s = r at *
    obtain ⟨result, s'⟩ := r
    cases result with
    | ok => exact hopen.shuns Change.noConfusion
    | error failure => exact (hopen.kept_after (does_scheduleReopening hopen.wired)).shuns Change.noConfusion

/-! ## Parts of a shutdown -/

/-- A feed is asked to close where it has a transport, and closed where it has none. -/
theorem shuns_shutLine (h : s.Wired) (hdown : s.client.shuttingDown = true) : Shuns f s (shutLine f s) := by
  unfold shutLine
  simp only
  split
  next hlive =>
    have hset : Does f .closing s (s.setLine f { s.line f with phase := .closing }) :=
      does_setLine h ⟨hdown, hlive⟩ rfl (Or.inl rfl) rfl
    exact (hset.kept_after (does_closeTransport hset.wired)).shuns Change.noConfusion
  next hlive =>
    have hset : Does f .closed s (s.setLine f { s.line f with phase := .closed }) :=
      does_setLine h hlive rfl (Or.inl rfl) rfl
    exact hset.shuns Change.noConfusion

/-- When the wait for a feed ends, a feed that is still closing is closed. -/
theorem shuns_settleLine (h : s.Wired) : Shuns f s (settleLine f s).2 := by
  unfold settleLine
  split
  next => exact (does_kept h).shuns Change.noConfusion
  next =>
    have hset : Does f (.lost false) s
        (s.setLine f { s.line f with phase := .closed, connection := none, transport := none }) :=
      does_setLine h Bool.noConfusion rfl (Or.inr rfl) rfl
    exact hset.shuns Change.noConfusion

/-- The log is no part of a feed. -/
theorem does_stopLog (h : s.Wired) : Does f .kept s (stopLog s) := by
  have haside := aside_stopLog s
  unfold stopLog at haside ⊢
  split
  next => exact does_kept h
  next log hlog =>
    rw [hlog] at haside
    simp only at haside ⊢
    exact does_aside h haside rfl rfl rfl rfl rfl

end Session

/-! ## Acts -/

/-- What happens to a client whose calls run into each other. -/
inductive Act where
  | event (e : Event)
  /-- The parts of calls that concern one feed. -/
  | subscribing (products : List Product) (channels : List Channel) (f : Feed)
  | unsubscribing (products : List Product) (channels : List Channel) (f : Feed)
  | reconnecting (f : Feed)
  /-- The parts of a shutdown: it is announced, feeds are asked to close, the wait for them ends, the log stops. -/
  | beginShutdown
  | shut (f : Feed)
  | settle (f : Feed)
  | stopLog

namespace Act

open Session

/-- The session after an act. The feeds are closed only once a shutdown was announced. -/
def apply (s : Session) : Act → Session
  | event e => e.apply s
  | subscribing products channels f => (subscribeLine products channels f s).2
  | unsubscribing products channels f => (unsubscribeLine products channels f s).2
  | reconnecting f => (reconnectLine f s).2
  | beginShutdown => s.beginShutdown
  | shut f => if s.client.shuttingDown then shutLine f s else s
  | settle f => if s.client.shuttingDown then (settleLine f s).2 else s
  | stopLog => s.stopLog

variable {f : Feed} {s s' s₁ : Session} {change : Change} {a : Act}

/-- That an act is the callback that the connection of a feed is established. -/
def Connects (a : Act) (s : Session) (f : Feed) : Prop :=
  ∃ c payload, a = event (.callback ⟨⟨c, f⟩, .connected, payload⟩) ∧ (s.line f).connection = some c

/-- That an act takes each feed through a change, where only the callback of its connection opens a feed. -/
def Divides (a : Act) (s s' : Session) : Prop :=
  ∃ s₁ market user, Does .market market s s₁ ∧ Does .user user s₁ s' ∧
    (market = .opened → a.Connects s .market) ∧ (user = .opened → a.Connects s .user)

private theorem divides_of_does (h : s.Wired) (hdoes : Does f change s s')
    (hopened : change = .opened → a.Connects s f) :
    a.Divides s s' := by
  cases f with
  | market => exact ⟨s', change, .kept, hdoes, does_kept hdoes.wired, hopened, Change.noConfusion⟩
  | user => exact ⟨s, .kept, change, does_kept h, hdoes, Change.noConfusion, hopened⟩

private theorem divides_of_shuns (h : s.Wired) (hshuns : Shuns f s s') : a.Divides s s' := by
  obtain ⟨change, hne, hdoes⟩ := hshuns
  exact divides_of_does h hdoes fun hopened => absurd hopened hne

private theorem divides_of_both (hmarket : Shuns .market s s₁) (huser : Shuns .user s₁ s') : a.Divides s s' := by
  obtain ⟨market, hm, hmarket⟩ := hmarket
  obtain ⟨user, hu, huser⟩ := huser
  exact ⟨s₁, market, user, hmarket, huser, fun h => absurd h hm, fun h => absurd h hu⟩

/-- A call goes through the feeds, unless the first one failed. -/
theorem divides_andThen {r : Result} {next : Session → Result} (hmarket : Shuns .market s r.2)
    (huser : ∀ s₁, s₁.Wired → Shuns .user s₁ (next s₁).2) : a.Divides s (andThen r next).2 := by
  obtain ⟨result, s₁⟩ := r
  cases result with
  | error failure => exact divides_of_both hmarket ((does_kept hmarket.wired).shuns Change.noConfusion)
  | ok => exact divides_of_both hmarket (huser s₁ hmarket.wired)

/-- A call that is refused changes nothing. -/
theorem divides_ensureRunning {call : Session → Result} (h : s.Wired) (hcall : a.Divides s (call s).2) :
    a.Divides s (andThen s.ensureRunning call).2 := by
  unfold ensureRunning
  split
  next => exact divides_of_shuns (f := .market) h ((does_kept h).shuns Change.noConfusion)
  next => exact hcall

private theorem divides_react (h : s.Wired) (c : Callback) : (event (.callback c)).Divides s (react c s) := by
  obtain ⟨⟨connection, f⟩, signal, payload⟩ := c
  cases signal with
  | connected =>
    obtain ⟨change, hopened, hdoes⟩ := does_connected h ⟨connection, f⟩
    exact divides_of_does h hdoes fun heq => ⟨connection, payload, rfl, hopened heq⟩
  | disconnected => exact divides_of_shuns h (shuns_disconnected h ⟨connection, f⟩)
  | error => exact divides_of_shuns h (shuns_failed h ⟨connection, f⟩)
  | data => exact divides_of_shuns h ((does_logged (f := f) h payload).shuns Change.noConfusion)

private theorem divides_event (h : s.Wired) (e : Event) : (event e).Divides s (e.apply s) := by
  cases e with
  | subscribe products channels =>
    exact divides_ensureRunning h (divides_andThen (shuns_subscribeLine products channels h) fun _ h₁ =>
      shuns_subscribeLine products channels h₁)
  | unsubscribe products channels =>
    exact divides_andThen ((does_unsubscribeLine products channels h).shuns Change.noConfusion) fun _ h₁ =>
      (does_unsubscribeLine products channels h₁).shuns Change.noConfusion
  | reconnect f =>
    exact divides_ensureRunning h (divides_of_shuns h ((does_reconnectLine (f := f) h).shuns Change.noConfusion))
  | callback c => exact divides_react h c
  | status number state =>
    have haside := does_aside (f := .market) h (aside_setStatus s number state) rfl rfl rfl
      (World.history_setStatus _ _ _) rfl
    exact divides_of_shuns h (haside.shuns Change.noConfusion)
  | timer t =>
    have htimers := does_timers (f := t.feed) h (s.client.timers.erase t) (max s.world.clock t.due)
    obtain ⟨change, hne, hdoes⟩ := shuns_reopen (f := t.feed) htimers.wired
    exact divides_of_shuns h ((htimers.after_kept hdoes).shuns hne)

/-- What an act can do: announce a shutdown, or take each feed through a change. -/
theorem divides_apply (h : s.Wired) (a : Act) : a = beginShutdown ∨ a.Divides s (a.apply s) := by
  have hidle : Shuns .market s s := (does_kept h).shuns Change.noConfusion
  cases a with
  | event e => exact Or.inr (divides_event h e)
  | subscribing products channels f => exact Or.inr (divides_of_shuns h (shuns_subscribeLine products channels h))
  | unsubscribing products channels f =>
    exact Or.inr (divides_of_shuns h ((does_unsubscribeLine (f := f) products channels h).shuns Change.noConfusion))
  | reconnecting f =>
    exact Or.inr (divides_of_shuns h ((does_reconnectLine (f := f) h).shuns Change.noConfusion))
  | beginShutdown => exact Or.inl rfl
  | shut f =>
    refine Or.inr ?_
    simp only [apply]
    split
    next hdown => exact divides_of_shuns h (shuns_shutLine h hdown)
    next => exact divides_of_shuns h hidle
  | settle f =>
    refine Or.inr ?_
    simp only [apply]
    split
    next => exact divides_of_shuns h (shuns_settleLine (f := f) h)
    next => exact divides_of_shuns h hidle
  | stopLog => exact Or.inr (divides_of_shuns h ((does_stopLog (f := .market) h).shuns Change.noConfusion))

end Act

namespace Session

/-- The session after acts. -/
def perform (s : Session) (acts : List Act) : Session := acts.foldl Act.apply s

private theorem shuttingDown_shutLine (f : Feed) (s : Session) :
    (shutLine f s).client.shuttingDown = s.client.shuttingDown := by
  unfold shutLine
  simp only
  split
  next => rw [client_closeTransport, shuttingDown_setLine]
  next => rw [shuttingDown_setLine]

private theorem shuttingDown_settleLine (f : Feed) (s : Session) :
    (settleLine f s).2.client.shuttingDown = s.client.shuttingDown := by
  unfold settleLine
  split
  next => rfl
  next => rw [shuttingDown_setLine]

/-- A shutdown is made of its parts. -/
theorem beginClosing_eq (s : Session) :
    s.beginClosing = s.perform [.beginShutdown, .shut .market, .shut .user] := by
  have hdown : s.beginShutdown.client.shuttingDown = true := rfl
  simp only [perform, List.foldl_cons, List.foldl_nil, Act.apply, hdown, shuttingDown_shutLine, if_true, beginClosing]

/-- So is the wait for it. -/
theorem endClosing_eq (s : Session) (h : s.client.shuttingDown = true) :
    s.endClosing.2 = s.perform [.settle .market, .settle .user, .stopLog] := by
  simp only [perform, List.foldl_cons, List.foldl_nil, Act.apply, h, shuttingDown_settleLine, if_true, endClosing]

end Session

end MarketFeed.Client
