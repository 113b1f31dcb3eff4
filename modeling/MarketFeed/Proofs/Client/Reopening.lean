import Mathlib.Data.List.Count
import MarketFeed.Proofs.Client.Soundness

/-!
# Client.Reopening — how many reopenings are pending

A feed that loses its connection is to be reopened after a while, and so is one that could
not be reopened. For each of these a timer is set. Calls open feeds as well, but they set
no timer and take none back (`timers_of_isCall`). So a timer is left over when a call gets
ahead of it, until it goes off for nothing, and one is missing when a call gives up a
connection and gets no other. There is no other way:

> `run_pendsOnce_iff`: a feed that has lost its connection has one reopening pending
> exactly if the calls that got ahead of a timer come out even with the timers that went
> off for nothing and the calls that gave up the connection in vain. In particular, this
> is so in every run without such calls.

The three numbers are kept in a ledger beside the run (`Ledger`), which looks at the
connection of the feed before and after each event, and at the kind of event. The
invariant is one equation between them and the timers that are pending
(`Balanced.balance`). It is shown for each kind of event by itself: calls
(`Balanced.call`), what transports report (`Balanced.report`), and timers that go off
(`Balanced.timer`).

Only timers that were set go off (`Event.Possible`), and the client is neither shutting
down nor without a policy of reopening its feeds. Two short runs show a timer too many and
one too few (`not_pendsOnce`).
-/

namespace MarketFeed.Client

namespace Session

/-- Whether a feed has a connection. -/
def isUp (s : Session) (f : Feed) : Bool := (s.line f).connection.isSome

/-- How many reopenings of a feed are pending. -/
def pending (s : Session) (f : Feed) : Nat := s.client.timers.countP (·.feed = f)

end Session

namespace Event

def isCall : Event → Bool
  | subscribe _ _ | unsubscribe _ _ | reconnect _ => true
  | _ => false

/-- Whether an event is that a timer of a feed goes off. -/
def isTimerOf (f : Feed) : Event → Bool
  | timer t => t.feed = f
  | _ => false

/-- Only timers that were set go off. -/
def Possible (s : Session) : Event → Prop
  | timer t => t ∈ s.client.timers
  | _ => True

instance (s : Session) : (e : Event) → Decidable (e.Possible s)
  | timer t => inferInstanceAs (Decidable (t ∈ s.client.timers))
  | subscribe _ _ | unsubscribe _ _ | reconnect _ | callback _ | status _ _ => .isTrue trivial

end Event

/-- What became of the reopenings of a feed. -/
structure Ledger where
  /-- Whether the feed ever had a connection. -/
  opened : Bool := false
  /-- Calls that opened the feed while it was to be reopened. -/
  overtaken : Nat := 0
  /-- Timers that went off while the feed had a connection. -/
  idle : Nat := 0
  /-- Calls that left the feed without the connection that it had. -/
  forsaken : Nat := 0

/-- The ledger of a feed after an event that leads from one session to another. -/
def Ledger.enter (f : Feed) (s s' : Session) (e : Event) (l : Ledger) : Ledger where
  opened := l.opened || s'.isUp f
  overtaken := l.overtaken + (e.isCall && l.opened && !s.isUp f && s'.isUp f).toNat
  idle := l.idle + (e.isTimerOf f && s.isUp f).toNat
  forsaken := l.forsaken + (e.isCall && s.isUp f && !s'.isUp f).toNat

/-- A session and the ledger of one of its feeds. -/
structure Watched where
  session : Session
  ledger : Ledger

namespace Watched

/-- The session after an event, and the ledger with its entry. -/
def entered (f : Feed) (w : Watched) (e : Event) : Watched :=
  ⟨e.apply w.session, w.ledger.enter f w.session (e.apply w.session) e⟩

/-- What cannot happen does not. -/
def step (f : Feed) (w : Watched) (e : Event) : Watched := if e.Possible w.session then w.entered f e else w

/-- A session and the ledger after events in turn. -/
def run (f : Feed) (s : Session) (events : List Event) : Watched := events.foldl (step f) ⟨s, {}⟩

/-- That one reopening is pending if the feed has lost its connection. -/
def PendsOnce (f : Feed) (w : Watched) : Prop :=
  w.ledger.opened = true → w.session.isUp f = false → w.session.pending f = 1

instance (f : Feed) (w : Watched) : Decidable (w.PendsOnce f) :=
  inferInstanceAs (Decidable (w.ledger.opened = true → w.session.isUp f = false → w.session.pending f = 1))

end Watched

/-! ## Timers -/

namespace Session

variable {f g : Feed} {s : Session}

private theorem timers_setLine (s : Session) (f : Feed) (l : Line) :
    (s.setLine f l).client.timers = s.client.timers := by
  cases f <;> rfl

private theorem timers_openLine (f : Feed) (s : Session) : (openLine f s).2.client.timers = s.client.timers := by
  obtain ⟨url, hopen⟩ := openLine_eq f s
  rw [hopen, timers_setLine, client_closeTransport]

private theorem isUp_openLine (f : Feed) (s : Session) : (openLine f s).2.isUp f = (openLine f s).1.isOk := by
  unfold openLine isUp
  simp only
  split <;> rw [line_setLine] <;> rfl

private theorem timers_andThen {r : Result} {next : Session → Result} (hr : r.2.client.timers = s.client.timers)
    (hnext : ∀ s', (next s').2.client.timers = s'.client.timers) :
    (andThen r next).2.client.timers = s.client.timers := by
  obtain ⟨result, s'⟩ := r
  cases result with
  | error failure => exact hr
  | ok => exact (hnext s').trans hr

private theorem timers_sendEach (f : Feed) (kind : RequestKind) (products : List Product) (channels : List Channel)
    (s : Session) : (sendEach f kind products channels s).2.client.timers = s.client.timers := by
  induction channels generalizing s with
  | nil => rfl
  | cons channel rest ih => exact timers_andThen (congrArg Client.timers (client_send _ _ _ _ s)) ih

private theorem timers_subscribeLine (products : List Product) (channels : List Channel) (f : Feed) (s : Session) :
    (subscribeLine products channels f s).2.client.timers = s.client.timers := by
  unfold subscribeLine
  split
  next => rfl
  next =>
    simp only
    split
    · rw [timers_sendEach]
      exact timers_setLine s f _
    · exact timers_setLine s f _
    · exact timers_setLine s f _
    · rw [timers_openLine]
      exact timers_setLine s f _
    · rw [timers_openLine]
      exact timers_setLine s f _

private theorem timers_unsubscribeLine (products : List Product) (channels : List Channel) (f : Feed) (s : Session) :
    (unsubscribeLine products channels f s).2.client.timers = s.client.timers := by
  unfold unsubscribeLine
  split
  next => rfl
  next =>
    simp only
    split
    next =>
      refine timers_andThen ?_ ?_
      · rw [timers_sendEach]
        exact timers_setLine s f _
      · intro s'
        split
        · rw [client_send]
        · rfl
    next => exact timers_setLine s f _

/-- Calls set no timer and take none back. -/
theorem timers_of_isCall {e : Event} (h : e.isCall = true) (s : Session) :
    (e.apply s).client.timers = s.client.timers := by
  cases e with
  | subscribe products channels =>
    exact timers_andThen (r := s.ensureRunning) rfl fun s' =>
      timers_andThen (timers_subscribeLine products channels .market s') (timers_subscribeLine products channels .user)
  | unsubscribe products channels =>
    exact timers_andThen (timers_unsubscribeLine products channels .market s)
      (timers_unsubscribeLine products channels .user)
  | reconnect f =>
    refine timers_andThen (r := s.ensureRunning) rfl fun s' => ?_
    rw [reconnectLine, timers_openLine, timers_setLine]
  | callback c => cases h
  | status number state => cases h
  | timer t => cases h

/-! ## Connections -/

private theorem isUp_setLine (s : Session) (f g : Feed) (l : Line) :
    (s.setLine f l).isUp g = if g = f then l.connection.isSome else s.isUp g := by
  unfold isUp
  split
  next hg => rw [hg, line_setLine]
  next hg => rw [line_setLine_of_ne s l hg]

private theorem pending_congr {s' : Session} (h : s'.client.timers = s.client.timers) (f : Feed) :
    s'.pending f = s.pending f := by
  rw [pending, pending, h]

private theorem isUp_congr {s' : Session} (h : s'.line f = s.line f) : s'.isUp f = s.isUp f := by
  rw [isUp, isUp, h]

/-- The policy of reopening feeds by themselves. -/
def Automatic (s : Session) : Prop := ∃ initial greatest, s.client.settings.reconnect = .automatic initial greatest

private theorem exists_scheduleReopening_eq (h : s.Automatic) (f : Feed) : ∃ due retries, scheduleReopening f s =
    (⟨{ s.client with timers := s.client.timers ++ [⟨f, due⟩] }, s.world⟩ : Session).setLine f
      { s.line f with retries } := by
  obtain ⟨initial, greatest, hpolicy⟩ := h
  unfold scheduleReopening
  rw [hpolicy]
  exact ⟨_, _, rfl⟩

/-- To schedule another attempt sets one timer, for its feed. -/
theorem pending_scheduleReopening (h : s.Automatic) (f g : Feed) :
    (scheduleReopening f s).pending g = s.pending g + (decide (f = g)).toNat := by
  obtain ⟨due, retries, heq⟩ := exists_scheduleReopening_eq h f
  rw [heq, pending, timers_setLine]
  show List.countP (fun t => decide (t.feed = g)) (s.client.timers ++ [(⟨f, due⟩ : Timer)]) = _
  rw [List.countP_append, List.countP_singleton, pending]
  by_cases hfg : f = g
  · rw [hfg, decide_eq_true rfl]
    rfl
  · rw [decide_eq_false hfg]
    rfl

private theorem isUp_scheduleReopening (h : s.Automatic) (f g : Feed) : (scheduleReopening f s).isUp g = s.isUp g := by
  obtain ⟨due, retries, heq⟩ := exists_scheduleReopening_eq h f
  have hline := (aside_timers s (s.client.timers ++ [⟨f, due⟩]) s.world.clock).line
  rw [heq, isUp_setLine]
  split
  next hg => rw [hg, isUp]
  next => exact isUp_congr (hline g)

/-! ## Callbacks -/

/-- That a step sets a timer for a feed if it takes its connection away, and does nothing else of the kind. -/
def Loses (f : Feed) (s s' : Session) : Prop :=
  s'.pending f = s.pending f + (s.isUp f && !s'.isUp f).toNat ∧ (s'.isUp f = true → s.isUp f = true)

private theorem loses_of_same {s' : Session} (htimers : s'.client.timers = s.client.timers)
    (hup : s'.isUp f = s.isUp f) :
    Loses f s s' := by
  refine ⟨?_, fun h => hup ▸ h⟩
  rw [pending_congr htimers, hup, Bool.and_not_self]
  rfl

/-- A line that keeps its connection, and other feeds. -/
theorem loses_setLine {l : Line} (hl : l.connection = (s.line g).connection) : Loses f s (s.setLine g l) := by
  refine loses_of_same (timers_setLine s g l) ?_
  rw [isUp_setLine, hl]
  split
  next hf => rw [hf, isUp]
  next => rfl

/-- A connection that is established takes none away and sets no timer. -/
theorem loses_connected (o : Origin) : Loses f s (connected o s) := by
  unfold connected
  simp only
  split
  next =>
    have hset : Loses f s (s.setLine o.feed { s.line o.feed with phase := .open, retries := 0 }) := loses_setLine rfl
    have hclient := client_subscribeAll o.feed (greeting o.feed (s.line o.feed).subscriptions)
      (s.setLine o.feed { s.line o.feed with phase := .open, retries := 0 })
    unfold Loses pending isUp at hset ⊢
    rw [hclient, line_congr hclient]
    exact hset
  next => exact loses_of_same rfl rfl

/-- A connection that fails is not taken away yet. -/
theorem loses_failed (o : Origin) : Loses f s (failed o s) := by
  unfold failed
  simp only
  split
  next => exact loses_setLine rfl
  next => exact loses_of_same rfl rfl

private theorem loses_logged (payload : Bytes) : Loses f s (logged payload s) := by
  refine loses_of_same ?_ (isUp_congr ((aside_logged payload s).line f))
  unfold logged
  split <;> rfl

/-- The feed whose connection is lost is to be reopened, for nobody is shutting down. -/
theorem loses_disconnected (h : s.Sound) (hrunning : s.client.shuttingDown = false) (hauto : s.Automatic)
    (o : Origin) : Loses f s (disconnected o s) := by
  unfold disconnected
  simp only
  split
  next hcurrent =>
    -- a feed closes only in a shutdown, so the loss is not an answer to one
    have hphase : (s.line o.feed).phase ≠ .closing := by
      intro hclosing
      rw [h.closing o.feed hclosing] at hrunning
      cases hrunning
    have hclosing : ((s.line o.feed).phase == .closing || s.client.shuttingDown) = false := by
      rw [hrunning, Bool.or_false]
      exact beq_false_of_ne hphase
    simp only [hclosing, Bool.false_eq_true, if_false]
    generalize hl : ({ s.line o.feed with phase := _, connection := none, transport := none } : Line) = l
    have hdown : l.connection = none := by rw [← hl]
    have hset : (s.setLine o.feed l).Automatic := by rwa [Automatic, settings_setLine]
    have hup := isUp_scheduleReopening hset o.feed f
    have hpending := pending_scheduleReopening hset o.feed f
    rw [isUp_setLine, hdown] at hup
    rw [pending_congr (timers_setLine s o.feed l)] at hpending
    rw [Loses, hup, hpending]
    by_cases hf : o.feed = f
    · subst hf
      have hbefore : s.isUp o.feed = true := by
        rw [isUp, hcurrent]
        rfl
      rw [if_pos rfl, hbefore, decide_eq_true rfl]
      exact ⟨rfl, fun _ => rfl⟩
    · rw [if_neg (Ne.symm hf), decide_eq_false hf, Bool.and_not_self]
      exact ⟨rfl, fun hup => hup⟩
  next => exact loses_of_same rfl rfl

/-- Every callback sets a timer for a feed exactly if it takes the connection away. -/
theorem loses_react (h : s.Sound) (hrunning : s.client.shuttingDown = false) (hauto : s.Automatic) (c : Callback) :
    Loses f s (react c s) := by
  unfold react
  split
  · exact loses_connected c.origin
  · exact loses_disconnected h hrunning hauto c.origin
  · exact loses_failed c.origin
  · exact loses_logged c.payload

/-! ## Timers that go off -/

/-- To open a feed again that has a connection does nothing. -/
theorem reopen_of_up (h : s.isUp f = true) : reopen f s = s := by
  have hup : (s.line f).connection.isSome = true := h
  unfold reopen
  simp only
  rw [hup, Bool.or_true, Bool.true_or, if_pos rfl]

/-- A feed that is down is opened, and if that fails it is to be reopened once more. -/
theorem reopen_of_down (h : s.Sound) (hrunning : s.client.shuttingDown = false) (hdown : s.isUp f = false) :
    reopen f s = if (openLine f s).1.isOk then (openLine f s).2 else scheduleReopening f (openLine f s).2 := by
  have hnone : (s.line f).connection.isSome = false := hdown
  have hphase : (s.line f).phase = .closed ∨ (s.line f).phase = .errored := by
    by_contra hlive
    rw [(h.stands f).connection_of_live hlive] at hnone
    cases hnone
  have hguard : (s.client.shuttingDown || (s.line f).connection.isSome ||
      !((s.line f).phase == .closed || (s.line f).phase == .errored)) = false := by
    rw [hrunning, hnone]
    rcases hphase with hphase | hphase <;> rw [hphase] <;> rfl
  unfold reopen
  simp only
  rw [hguard, if_neg Bool.false_ne_true]
  generalize openLine f s = r
  obtain ⟨result, s'⟩ := r
  cases result <;> rfl

/-- A timer that goes off sets another one for its feed if that stays down, and does nothing to the other feed. -/
theorem reopen_shifts (h : s.Sound) (hrunning : s.client.shuttingDown = false) (hauto : s.Automatic) (g f : Feed) :
    (reopen g s).pending f = s.pending f + (decide (g = f) && !s.isUp f && !(reopen g s).isUp f).toNat ∧
    (s.isUp f = true ∨ g ≠ f → (reopen g s).isUp f = s.isUp f) := by
  cases hbefore : s.isUp g with
  | true =>
    rw [reopen_of_up hbefore]
    refine ⟨?_, fun _ => rfl⟩
    by_cases hgf : g = f
    · rw [← hgf, hbefore, Bool.not_true, Bool.and_false]
      rfl
    · rw [decide_eq_false hgf]
      rfl
  | false =>
    -- opening sets no timer; what it leaves pending is decided by whether it succeeds
    have hother (hgf : g ≠ f) : (openLine g s).2.isUp f = s.isUp f :=
      isUp_congr ((concerns_openLine (f := g) h.wired).line f (Ne.symm hgf))
    have hopened : (openLine g s).2.Automatic := by rwa [Automatic, (does_openLine (f := g) h.wired).settings]
    have hpending : (openLine g s).2.pending f = s.pending f := pending_congr (timers_openLine g s) f
    rw [reopen_of_down h hrunning hbefore]
    cases hok : (openLine g s).1.isOk with
    | true =>
      rw [if_pos rfl, hpending]
      by_cases hgf : g = f
      · subst hgf
        rw [isUp_openLine, hok, hbefore, Bool.not_true, Bool.and_false]
        exact ⟨rfl, fun h => h.elim (fun hup => absurd hup Bool.false_ne_true) (fun hne => absurd rfl hne)⟩
      · rw [hother hgf, decide_eq_false hgf]
        exact ⟨rfl, fun _ => rfl⟩
    | false =>
      rw [if_neg Bool.false_ne_true, pending_scheduleReopening hopened, isUp_scheduleReopening hopened, hpending]
      by_cases hgf : g = f
      · subst hgf
        rw [isUp_openLine, hok, hbefore, decide_eq_true rfl]
        exact ⟨rfl, fun _ => rfl⟩
      · rw [hother hgf, decide_eq_false hgf]
        exact ⟨rfl, fun _ => rfl⟩

/-- The timer itself is gone. -/
theorem fire_shifts (h : s.Sound) (hrunning : s.client.shuttingDown = false) (hauto : s.Automatic) {t : Timer}
    (ht : t ∈ s.client.timers) (f : Feed) :
    (Stage.fire t s).pending f + (decide (t.feed = f) && (s.isUp f || (Stage.fire t s).isUp f)).toNat =
      s.pending f ∧
    (s.isUp f = true ∨ t.feed ≠ f → (Stage.fire t s).isUp f = s.isUp f) := by
  have hdoes := does_timers (f := f) h.wired (s.client.timers.erase t) (max s.world.clock t.due)
  have hline := (aside_timers s (s.client.timers.erase t) (max s.world.clock t.due)).line f
  unfold Stage.fire
  simp only
  generalize hs₀ : (⟨{ s.client with timers := s.client.timers.erase t },
    { s.world with clock := max s.world.clock t.due }⟩ : Session) = s₀ at *
  have hup : s₀.isUp f = s.isUp f := isUp_congr hline
  -- the timer is taken away before the feed is opened, so one that is set anew is not mistaken for it
  have hpending : s₀.pending f + (decide (t.feed = f)).toNat = s.pending f := by
    rw [← hs₀, pending, pending]
    show (s.client.timers.erase t).countP _ + _ = _
    rw [List.countP_erase]
    by_cases hf : t.feed = f
    · have hpos : 0 < s.client.timers.countP (·.feed = f) := List.countP_pos_iff.2 ⟨t, ht, decide_eq_true hf⟩
      rw [if_pos ⟨ht, decide_eq_true hf⟩, decide_eq_true hf]
      exact Nat.sub_add_cancel hpos
    · rw [if_neg fun h => hf (of_decide_eq_true h.2), decide_eq_false hf]
      rfl
  obtain ⟨hshift, hkeep⟩ := reopen_shifts (h.does hdoes) (hdoes.shuttingDown.trans hrunning)
    (by rwa [Automatic, hdoes.settings]) t.feed f
  rw [hup] at hshift hkeep
  refine ⟨?_, hkeep⟩
  rw [hshift, ← hpending]
  cases hf : decide (t.feed = f) with
  | false => rfl
  | true =>
    rw [Bool.true_and, Bool.true_and, Nat.add_assoc]
    cases s.isUp f <;> cases (reopen t.feed s₀).isUp f <;> rfl

/-- To the other feed nothing happens. -/
theorem loses_fire (h : s.Sound) (hrunning : s.client.shuttingDown = false) (hauto : s.Automatic) {t : Timer}
    (ht : t ∈ s.client.timers) (hf : t.feed ≠ f) : Loses f s (Stage.fire t s) := by
  obtain ⟨hpending, hup⟩ := fire_shifts h hrunning hauto ht f
  rw [decide_eq_false hf] at hpending
  have hsame := hup (Or.inr hf)
  refine ⟨?_, fun hafter => hsame ▸ hafter⟩
  rw [hsame, Bool.and_not_self]
  exact hpending

/-! ## Events -/

/-- The policy is not changed by events. -/
theorem automatic_apply (h : s.Wired) (hauto : s.Automatic) (e : Event) : (e.apply s).Automatic := by
  rcases Act.divides_apply h (.event e) with heq | ⟨s₁, market, user, hmarket, huser, -⟩
  · cases heq
  · have hsettings : (e.apply s).client.settings = s.client.settings := huser.settings.trans hmarket.settings
    rwa [Automatic, hsettings]

/-- No event announces a shutdown. -/
theorem shuttingDown_apply (h : s.Wired) (e : Event) :
    (e.apply s).client.shuttingDown = s.client.shuttingDown := by
  rcases Act.divides_apply h (.event e) with heq | hdivides
  · cases heq
  · exact divides_shuttingDown hdivides

end Session

/-! ## The ledger -/

namespace Watched

variable {f : Feed} {w : Watched}

/-- What holds of a feed and its ledger all along. -/
structure Balanced (f : Feed) (w : Watched) : Prop where
  sound : w.session.Sound
  running : w.session.client.shuttingDown = false
  automatic : w.session.Automatic
  opened : w.session.isUp f = true → w.ledger.opened = true
  unopened : w.ledger.opened = false → w.ledger.overtaken = 0
  idle : w.ledger.idle ≤ w.ledger.overtaken
  balance : w.session.pending f + w.ledger.idle + w.ledger.forsaken =
    (w.ledger.opened && !w.session.isUp f).toNat + w.ledger.overtaken

/-- What is left to show of an event. -/
theorem Balanced.entered (h : w.Balanced f) {e : Event}
    (hidle : (w.entered f e).ledger.idle ≤ (w.entered f e).ledger.overtaken)
    (hbalance : (w.entered f e).session.pending f + (w.entered f e).ledger.idle + (w.entered f e).ledger.forsaken =
      ((w.entered f e).ledger.opened && !(w.entered f e).session.isUp f).toNat + (w.entered f e).ledger.overtaken) :
    (w.entered f e).Balanced f := by
  refine ⟨h.sound.apply (.event e), (Session.shuttingDown_apply h.sound.wired e).trans h.running,
    Session.automatic_apply h.sound.wired h.automatic e, ?_, ?_, hidle, hbalance⟩
  · intro hup
    exact Bool.or_eq_true_iff.2 (Or.inr hup)
  · intro hunopened
    have hbefore := (Bool.or_eq_false_iff.1 hunopened).1
    show w.ledger.overtaken + (e.isCall && w.ledger.opened && !w.session.isUp f && _).toNat = 0
    rw [hbefore, Bool.and_false, Bool.false_and, Bool.false_and]
    exact h.unopened hbefore

/-- A call that opens a feed is entered, and so is one that leaves it without its connection. -/
theorem Balanced.call (h : w.Balanced f) {e : Event} (hcall : e.isCall = true) : (w.entered f e).Balanced f := by
  have htimer : e.isTimerOf f = false := by cases e <;> first | rfl | cases hcall
  have hpending := Session.pending_congr (Session.timers_of_isCall hcall w.session) f
  have hbits : (w.ledger.opened && !w.session.isUp f).toNat + (w.session.isUp f && !(e.apply w.session).isUp f).toNat =
      ((w.ledger.opened || (e.apply w.session).isUp f) && !(e.apply w.session).isUp f).toNat +
        (w.ledger.opened && !w.session.isUp f && (e.apply w.session).isUp f).toNat := by
    have hopened := h.opened
    revert hopened
    cases w.ledger.opened <;> cases w.session.isUp f <;> cases (e.apply w.session).isUp f <;> decide
  have hidle := h.idle
  have hbalance := h.balance
  apply h.entered <;> simp only [Watched.entered, Ledger.enter, hcall, htimer, hpending, Bool.true_and, Bool.false_and,
    Bool.toNat_false] <;> omega

/-- A report sets a timer just when it takes the connection away. -/
theorem Balanced.report (h : w.Balanced f) {e : Event} (hcall : e.isCall = false) (htimer : e.isTimerOf f = false)
    (hloses : Session.Loses f w.session (e.apply w.session)) : (w.entered f e).Balanced f := by
  obtain ⟨hpending, hkeeps⟩ := hloses
  have hbits : (w.ledger.opened && !w.session.isUp f).toNat + (w.session.isUp f && !(e.apply w.session).isUp f).toNat =
      ((w.ledger.opened || (e.apply w.session).isUp f) && !(e.apply w.session).isUp f).toNat := by
    have hopened := h.opened
    revert hopened hkeeps
    cases w.ledger.opened <;> cases w.session.isUp f <;> cases (e.apply w.session).isUp f <;> decide
  have hidle := h.idle
  have hbalance := h.balance
  apply h.entered <;> simp only [Watched.entered, Ledger.enter, hcall, htimer, hpending, Bool.false_and,
    Bool.toNat_false] <;> omega

/-- A timer that goes off for nothing is entered, and any other is replaced if the feed stays down. -/
theorem Balanced.timer (h : w.Balanced f) {t : Timer} (ht : t ∈ w.session.client.timers) (hf : t.feed = f) :
    (w.entered f (.timer t)).Balanced f := by
  obtain ⟨hpending, hup⟩ := Session.fire_shifts h.sound h.running h.automatic ht f
  have happly : Stage.fire t w.session = (Event.timer t).apply w.session := rfl
  have htimer : (Event.timer t).isTimerOf f = true := decide_eq_true hf
  have hcall : (Event.timer t).isCall = false := rfl
  have hsome : 0 < w.session.pending f := List.countP_pos_iff.2 ⟨t, ht, decide_eq_true hf⟩
  have hidle := h.idle
  have hbalance := h.balance
  -- a feed that was never opened has no timers
  have hopened : w.ledger.opened = true := by
    by_contra hnever
    have hnever := eq_false_of_ne_true hnever
    have hnone := h.unopened hnever
    rw [hnever, Bool.false_and, Bool.toNat_false] at hbalance
    omega
  have hbits : (!w.session.isUp f).toNat + (w.session.isUp f).toNat =
      (!((Event.timer t).apply w.session).isUp f).toNat +
        (w.session.isUp f || ((Event.timer t).apply w.session).isUp f).toNat := by
    rw [happly] at hup
    revert hup
    cases w.session.isUp f <;> cases ((Event.timer t).apply w.session).isUp f <;> simp
  rw [happly, decide_eq_true hf, Bool.true_and] at hpending
  rw [hopened, Bool.true_and] at hbalance
  have hused : (w.session.isUp f).toNat + (!w.session.isUp f).toNat = 1 := by cases w.session.isUp f <;> rfl
  apply h.entered <;> simp only [Watched.entered, Ledger.enter, hcall, htimer, hopened, Bool.true_and, Bool.false_and,
    Bool.true_or, Bool.toNat_false] <;> omega

/-- The step: every event keeps the ledger in balance. -/
theorem Balanced.step (h : w.Balanced f) (e : Event) : (w.step f e).Balanced f := by
  unfold Watched.step
  split
  next he =>
    cases e with
    | subscribe products channels => exact h.call rfl
    | unsubscribe products channels => exact h.call rfl
    | reconnect g => exact h.call rfl
    | callback c => exact h.report rfl rfl (Session.loses_react h.sound h.running h.automatic c)
    | status number state => exact h.report rfl rfl (Session.loses_of_same rfl rfl)
    | timer t =>
      by_cases hf : t.feed = f
      · exact h.timer he hf
      · exact h.report rfl (decide_eq_false hf) (Session.loses_fire h.sound h.running h.automatic he hf)
  next => exact h

/-- So does every run. -/
theorem Balanced.run {s : Session} (h : Balanced f ⟨s, {}⟩) (events : List Event) : (run f s events).Balanced f := by
  unfold Watched.run
  generalize (⟨s, {}⟩ : Watched) = w at h
  induction events generalizing w with
  | nil => exact h
  | cons e rest ih => exact ih _ (h.step e)

/-- When nothing got ahead of a timer and no connection was given up in vain, a feed has one reopening pending while it
is down, and none while it is up or was never opened. -/
theorem Balanced.pending_eq (h : w.Balanced f) (hovertaken : w.ledger.overtaken = 0)
    (hforsaken : w.ledger.forsaken = 0) : w.session.pending f = (w.ledger.opened && !w.session.isUp f).toNat := by
  have hidle := h.idle
  have hbalance := h.balance
  omega

/-- In balance, one reopening is pending exactly if the entries come out even. -/
theorem Balanced.pendsOnce_iff (h : w.Balanced f) : w.PendsOnce f ↔ (w.ledger.opened = true →
    w.session.isUp f = false → w.ledger.overtaken = w.ledger.idle + w.ledger.forsaken) := by
  refine forall_congr' fun hopened => forall_congr' fun hdown => ?_
  have hbalance := h.balance
  rw [hopened, hdown] at hbalance
  have hone : (true && !false).toNat = 1 := rfl
  omega

private theorem balanced_fresh (plan : Plan) (id : Nat) {settings : Settings} {initial greatest : Nat}
    (hpolicy : settings.reconnect = .automatic initial greatest) (credential : Option Credential)
    (market user : UInt32) (f : Feed) :
    Balanced f ⟨.fresh plan id settings credential market user, {}⟩ where
  sound := Session.sound_fresh plan id settings credential market user
  running := rfl
  automatic := ⟨initial, greatest, hpolicy⟩
  opened hup := by cases f <;> cases hup
  unopened _ := rfl
  idle := Nat.le_refl 0
  balance := by cases f <;> rfl

/-- A client that reopens its feeds by itself has one reopening pending for a feed that has lost its connection exactly
if the calls that got ahead of a timer come out even with the timers that went off for nothing and the calls that gave
up the connection in vain. In particular, this is so in every run without such calls. -/
theorem run_pendsOnce_iff (plan : Plan) (id : Nat) (settings : Settings) (initial greatest : Nat)
    (credential : Option Credential) (market user : UInt32) (f : Feed) (events : List Event) :
    let automatic : Settings := { settings with reconnect := .automatic initial greatest }
    let w := run f (.fresh plan id automatic credential market user) events
    (w.PendsOnce f ↔ (w.ledger.opened = true → w.session.isUp f = false →
      w.ledger.overtaken = w.ledger.idle + w.ledger.forsaken)) ∧
    (w.ledger.overtaken = 0 → w.ledger.forsaken = 0 →
      w.session.pending f = (w.ledger.opened && !w.session.isUp f).toNat) := by
  intro automatic w
  have hbalanced : w.Balanced f := (balanced_fresh plan id rfl credential market user f).run events
  exact ⟨hbalanced.pendsOnce_iff, hbalanced.pending_eq⟩

/-- The market feed is opened, and a call to open it anew gets no transport. -/
def forsaking : List Event := [.subscribe [] [.level2], .reconnect .market]

/-- The market feed is lost, opened by a call before its time, and lost again. -/
def overtaking : List Event :=
  [.subscribe [] [.level2], .callback (.disconnected ⟨⟨0, 1⟩, .market⟩), .subscribe [] [.level2],
    .callback (.disconnected ⟨⟨0, 2⟩, .market⟩)]

/-- The one run leaves no reopening pending, and the other leaves two. -/
theorem not_pendsOnce :
    let client (plan : Plan) : Session := .fresh plan 0 { Settings.usual with reconnect := .usual } none 0 1
    let forsaken := run .market (client ⟨fun n => n = 1, fun _ => false, fun _ => false⟩) forsaking
    let overtaken := run .market (client .smooth) overtaking
    (¬ forsaken.PendsOnce .market ∧ forsaken.session.client.timers = []) ∧
    (¬ overtaken.PendsOnce .market ∧
      overtaken.session.client.timers = [⟨.market, 500000000⟩, ⟨.market, 1000000000⟩]) := by
  decide +kernel

end Watched

end MarketFeed.Client
