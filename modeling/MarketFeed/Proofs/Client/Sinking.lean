import MarketFeed.Proofs.Client.Soundness

/-!
# Client.Sinking — feeds that go down

A step opens a feed when the feed gets another generation; all other steps are steady
(`Session.Steady`). While the client is shutting down, calls are refused, timers go off
for nothing, and callbacks open nothing either (`steady_event`).

A feed that is closing or closed is on its way down (`Session.Sinks`), and stays so unless
it is opened anew:

> `lowers_apply`: an act that does not launch a feed does not raise it, so what sinks goes
> on sinking, and what is closed stays closed.
>
> `closed_settleLine`: a feed on its way down is closed when the wait for it has ended.

The first is read off the changes of `Client.Acts`, of which only an opening leads up from
there: a connection that is established or fails counts for a feed that is connecting or
open. The second needs that the session is sound (`Client.Soundness`): a feed that is
closing either has a connection, which is given up, or was closed already.

What threads can make of it, which may open a feed behind the shutdown after all, is in
`Client.Overtaking`.
-/

namespace MarketFeed.Client

namespace Session

variable {f g : Feed} {s s' s'' : Session} {change : Change}

/-! ## Steps that open no feed -/

/-- That a step opens no feed: each keeps its generation. -/
def Steady (s s' : Session) : Prop := ∀ f, (s'.line f).generation = (s.line f).generation

/-- A steady step launches nothing. -/
theorem Steady.launch (h : Steady s s') (f : Feed) : s.launch s' f = [] := if_pos (h f)

/-- Two steady steps are one. -/
theorem Steady.trans (h : Steady s s') (h' : Steady s' s'') : Steady s s'' := fun f => (h' f).trans (h f)

private theorem steady_of_line (h : ∀ f, s'.line f = s.line f) : Steady s s' := fun f => congrArg Line.generation (h f)

private theorem steady_setLine {l : Line} (h : l.generation = (s.line f).generation) : Steady s (s.setLine f l) := by
  intro g
  by_cases hg : g = f
  · rw [hg, line_setLine, h]
  · rw [line_setLine_of_ne s l hg]

/-- What keeps a feed is steady. -/
theorem Does.steady (h : Does f .kept s s') : Steady s s' := by
  intro g
  by_cases hg : g = f
  · have hframe : (s'.line f).frame = (s.line f).frame := h.frame
    rw [hg]
    exact (congrArg Line.generation hframe :)
  · rw [h.line g hg]

/-- A feed is opened by the changes that ask for a transport, and no other feed is. -/
theorem Does.launch (h : Does f change s s') (g : Feed) :
    s.launch s' g = if g = f ∧ change.launches then [⟨(s.line g).next, g⟩] else [] := by
  by_cases hg : g = f
  · subst hg
    rw [launch_eq h.frame]
    simp only [true_and]
  · rw [if_neg fun hboth => hg hboth.1]
    exact if_pos (congrArg Line.generation (h.line g hg))

private theorem steady_scheduleReopening (f : Feed) (s : Session) : Steady s (scheduleReopening f s) := by
  unfold scheduleReopening
  simp only
  split
  next => exact fun _ => rfl
  next delay _ =>
    have hline := (aside_timers s (s.client.timers ++ [⟨f, s.world.clock + delay⟩]) s.world.clock).line
    refine (steady_of_line hline).trans (steady_setLine ?_)
    rw [hline]

private theorem steady_react (c : Callback) (s : Session) : Steady s (react c s) := by
  unfold react
  split
  · unfold connected
    simp only
    split
    next =>
      refine Steady.trans ?_ (steady_of_line (line_congr (client_subscribeAll _ _ _)))
      exact steady_setLine rfl
    next => exact fun _ => rfl
  · unfold disconnected
    simp only
    split
    next =>
      split
      · exact steady_setLine rfl
      · refine Steady.trans ?_ (steady_scheduleReopening _ _)
        exact steady_setLine rfl
    next => exact fun _ => rfl
  · unfold failed
    simp only
    split
    next => exact steady_setLine rfl
    next => exact fun _ => rfl
  · exact steady_of_line (aside_logged c.payload s).line

/-- While the client is shutting down, calls are refused and timers go off for nothing. -/
theorem steady_event (h : s.Wired) (hdown : s.client.shuttingDown = true) (e : Event) : Steady s (e.apply s) := by
  have hrefused (call : Session → Result) : (andThen s.ensureRunning call).2 = s := by
    unfold ensureRunning
    rw [if_pos hdown]
    rfl
  cases e with
  | subscribe products channels => exact steady_of_line fun f => congrArg (line · f) (hrefused _)
  | reconnect g => exact steady_of_line fun f => congrArg (line · f) (hrefused _)
  | unsubscribe products channels =>
    have hmarket := does_unsubscribeLine (f := .market) products channels h
    show Steady s (andThen (unsubscribeLine products channels .market s) _).2
    generalize unsubscribeLine products channels .market s = r at hmarket ⊢
    obtain ⟨result, s₁⟩ := r
    cases result with
    | error failure => exact hmarket.steady
    | ok => exact hmarket.steady.trans (does_unsubscribeLine products channels hmarket.wired).steady
  | callback c => exact steady_react c s
  | status number state => exact fun _ => rfl
  | timer t =>
    refine steady_of_line fun f => ?_
    show (reopen t.feed _).line f = s.line f
    unfold reopen
    simp only [hdown, Bool.true_or, if_true]
    cases f <;> rfl

/-- To ask a feed to close opens none. -/
theorem steady_shutLine (f : Feed) (s : Session) : Steady s (shutLine f s) := by
  unfold shutLine
  simp only
  split
  next =>
    refine Steady.trans ?_ (steady_of_line (line_congr (client_closeTransport _ _)))
    exact steady_setLine rfl
  next => exact steady_setLine rfl

/-- To end the wait for a feed opens none. -/
theorem steady_settleLine (f : Feed) (s : Session) : Steady s (settleLine f s).2 := by
  unfold settleLine
  split
  next => exact fun _ => rfl
  next => exact steady_setLine rfl

/-! ## Feeds on their way down -/

/-- That a feed is closed, or about to be. -/
def Sinks (s : Session) (f : Feed) : Prop := (s.line f).phase = .closing ∨ (s.line f).phase = .closed

/-- That a step does not raise a feed. -/
def Lowers (f : Feed) (s s' : Session) : Prop :=
  (s.Sinks f → s'.Sinks f) ∧ ((s.line f).phase = .closed → (s'.line f).phase = .closed)

/-- A feed that is not changed is not raised. -/
theorem lowers_of_line (h : s'.line f = s.line f) : Lowers f s s' := by
  unfold Lowers Sinks
  rw [h]
  exact ⟨fun hsinks => hsinks, fun hclosed => hclosed⟩

private theorem lowers_of_up (h : ¬ s.Sinks f) : Lowers f s s' :=
  ⟨fun hsinks => absurd hsinks h, fun hclosed => absurd (Or.inr hclosed) h⟩

private theorem lowers_of_closed (h : (s'.line f).phase = .closed) : Lowers f s s' := ⟨fun _ => Or.inr h, fun _ => h⟩

/-- What is not raised twice is not raised. -/
theorem Lowers.trans (h : Lowers f s s') (h' : Lowers f s' s'') : Lowers f s s'' :=
  ⟨fun hsinks => h'.1 (h.1 hsinks), fun hclosed => h'.2 (h.2 hclosed)⟩

/-- A feed on its way down is raised by no change but an opening. -/
theorem Does.lowers (hs : s.Sound) (h : Does f change s s') (hlaunch : s.launch s' g = []) : Lowers g s s' := by
  by_cases hg : g = f
  · subst hg
    -- changes that would raise a feed fit only one that is up, or they launch it
    have hphase : (s'.line g).phase = (change.apply (s.line g).frame).phase := (congrArg Line.phase h.frame :)
    have hfits := h.fits
    cases change with
    | kept =>
      unfold Lowers Sinks
      rw [hphase]
      exact ⟨fun hsinks => hsinks, fun hclosed => hclosed⟩
    | opened =>
      have hconnecting : (s.line g).phase = .connecting := hfits
      exact lowers_of_up (by rw [Sinks, hconnecting]; decide)
    | failed =>
      refine lowers_of_up ?_
      rcases hfits with hconnecting | hopen
      · rw [Sinks, hconnecting]
        decide
      · rw [Sinks, hopen]
        decide
    | lost errored =>
      cases errored with
      | false => exact lowers_of_closed hphase
      | true =>
        have herrored : (s.line g).phase = .errored := hfits rfl
        exact lowers_of_up (by rw [Sinks, herrored]; decide)
    | closing =>
      obtain ⟨-, -, hconnection⟩ := hfits
      refine ⟨fun _ => Or.inl hphase, fun hclosed => ?_⟩
      rw [(hs.stands g).connection_of_closed hclosed] at hconnection
      cases hconnection
    | closed => exact lowers_of_closed hphase
    | launched transport =>
      rw [launch_eq h.frame] at hlaunch
      exact absurd hlaunch (List.cons_ne_nil _ _)
  · exact lowers_of_line (h.line g hg)

/-- An act that does not launch a feed does not raise it. -/
theorem lowers_apply (hs : s.Sound) (a : Act) (hlaunch : s.launch (a.apply s) f = []) : Lowers f s (a.apply s) := by
  rcases Act.divides_apply hs.wired a with rfl | ⟨s₁, market, user, hmarket, huser, -⟩
  · exact lowers_of_line rfl
  · have hs₁ := hs.does hmarket
    cases f with
    | market =>
      have hline : (a.apply s).line .market = s₁.line .market := huser.line .market Feed.noConfusion
      have hfirst : s.launch s₁ .market = [] := by rwa [launch, hline] at hlaunch
      exact (hmarket.lowers hs hfirst).trans (lowers_of_line hline)
    | user =>
      have hline : s₁.line .user = s.line .user := hmarket.line .user Feed.noConfusion
      have hsecond : s₁.launch (a.apply s) .user = [] := by rwa [launch, ← hline] at hlaunch
      exact (lowers_of_line hline).trans (huser.lowers hs₁ hsecond)

/-- Only one act announces a shutdown. -/
theorem shuttingDown_of_ne (h : s.Wired) {a : Act} (ha : a ≠ .beginShutdown) :
    (a.apply s).client.shuttingDown = s.client.shuttingDown := by
  rcases Act.divides_apply h a with heq | hdivides
  · exact absurd heq ha
  · exact divides_shuttingDown hdivides

/-- A feed that is asked to close is on its way down. -/
theorem sinks_shutLine (f : Feed) (s : Session) : (shutLine f s).Sinks f := by
  unfold shutLine Sinks
  simp only
  split
  next =>
    rw [line_congr (client_closeTransport _ _), line_setLine]
    exact Or.inl rfl
  next =>
    rw [line_setLine]
    exact Or.inr rfl

/-- A feed on its way down is closed when the wait for it has ended. -/
theorem closed_settleLine (hs : s.Sound) (h : s.Sinks f) : ((settleLine f s).2.line f).phase = .closed := by
  unfold settleLine
  split
  next hconfirmed =>
    refine h.resolve_left fun hclosing => ?_
    have hlive := (hs.stands f).connection_of_live (by rw [hclosing]; decide)
    rw [confirmed, hlive] at hconfirmed
    cases hconfirmed
  next => rw [line_setLine]

end Session

end MarketFeed.Client
