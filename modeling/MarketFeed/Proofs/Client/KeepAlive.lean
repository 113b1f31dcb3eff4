import MarketFeed.Proofs.Client.Requests

/-!
# Client.KeepAlive — heartbeats on the user feed

The user feed asks for heartbeats when it opens, and gives them up when an `unsubscribe`
leaves it without any subscription. Nothing asks for them again while the feed stays open.
So with smooth transports heartbeats are in force on an open user feed exactly as long as
they have not *lapsed* like that since it opened, also when something is subscribed again:

> `keepsAlive_iff`: in every state that calls, callbacks and timers lead to, heartbeats
> are in force wherever they are needed, with the one exception that they have lapsed
> since the feed opened and something was subscribed again.

Whether they have lapsed is no part of the client. A run carries it beside the session
(`Course`): it is set by an `unsubscribe` that leaves an open user feed without
subscriptions, and cleared when the feed is not open. What holds all along is that the
last request for heartbeats on the current connection asks for them exactly if they have
not lapsed (`Tended`).

The steps are sorted by what they do to the feed that they concern (`Moves`): it stays as
it is, leaves the open state, or opens and is greeted. For every step but `unsubscribe`
that is enough. Unsubscribing is followed to its end (`Smooth.unsubscribeLine`), since it
is where heartbeats are given up. Subscribing the user channel again on an open feed shows
the exception (`not_keepsAlive_resubscribed`).
-/

namespace MarketFeed.Client

namespace Session

variable {f : Feed} {s s' s'' : Session}

/-- The heartbeats requests on the current connection of the user feed. -/
def heartbeats (s : Session) : List RequestKind :=
  match (s.line .user).transport with
  | none => []
  | some i => ((s.world.sent i).filter (·.channel = Channel.heartbeats.name)).map (·.kind)

/-- That heartbeats are in force whenever they are needed. -/
def KeepsAlive (s : Session) : Prop :=
  (s.line .user).phase = .open → (s.line .user).subscriptions.isEmpty = false →
    s.heartbeats.getLast? = some .subscribe

/-- A session whose transports refuse nothing; a feed on its way or open has one. -/
structure Smooth (s : Session) : Prop where
  wired : s.Wired
  plan : s.world.plan = .smooth
  linked : ∀ f, (s.line f).phase = .connecting ∨ (s.line f).phase = .open → (s.line f).transport.isSome

/-- That a feed stays as it is, apart from its subscriptions and the requests for them. -/
structure Stays (f : Feed) (s s' : Session) : Prop where
  phase : (s'.line f).phase = (s.line f).phase
  transport : (s'.line f).transport = (s.line f).transport
  beats : f = .user → s'.heartbeats = s.heartbeats

/-- What a step does to the feed it concerns. -/
inductive Moves (f : Feed) (s s' : Session) : Prop
  | stays : Stays f s s' → Moves f s s'
  | leaves : (s'.line f).phase ≠ .open →
    ((s'.line f).phase = .connecting → (s'.line f).transport.isSome) → Moves f s s'
  | opens : (s.line f).phase = .connecting → (s'.line f).transport = (s.line f).transport →
    (f = .user → s'.heartbeats.getLast? = some .subscribe) → Moves f s s'

/-- Where nothing happens a feed stays as it is. -/
theorem Stays.refl : Stays f s s := ⟨rfl, rfl, fun _ => rfl⟩

/-- What stays as it is twice stays as it is. -/
theorem Stays.trans (h : Stays f s s') (h' : Stays f s' s'') : Stays f s s'' :=
  ⟨h'.phase.trans h.phase, h'.transport.trans h.transport, fun hf => (h'.beats hf).trans (h.beats hf)⟩

/-- A feed may stay as it is before it moves. -/
theorem Stays.moves (h : Stays f s s') (h' : Moves f s' s'') : Moves f s s'' := by
  cases h' with
  | stays h' => exact .stays (h.trans h')
  | leaves hphase hlinked => exact .leaves hphase hlinked
  | opens hphase htransport hbeats =>
    exact .opens (h.phase ▸ hphase) (htransport.trans h.transport) hbeats

private theorem Moves.andStays (h : Moves f s s') (h' : Stays f s' s'') : Moves f s s'' := by
  cases h with
  | stays h => exact .stays (h.trans h')
  | leaves hphase hlinked =>
    refine .leaves (h'.phase ▸ hphase) ?_
    rw [h'.phase, h'.transport]
    exact hlinked
  | opens hphase htransport hbeats =>
    exact .opens hphase (h'.transport.trans htransport) fun hf => by rw [h'.beats hf, hbeats hf]

private theorem heartbeats_eq (s : Session) :
    s.heartbeats = ((s.requests .user).filter (·.channel = Channel.heartbeats.name)).map (·.kind) := by
  unfold heartbeats requests
  cases (s.line .user).transport <;> rfl

/-- Steps of the market feed have nothing to do with heartbeats. -/
theorem Concerns.heartbeats (h : Concerns .market s s') : s'.heartbeats = s.heartbeats := by
  rw [heartbeats_eq, heartbeats_eq, h.requests (by decide)]

theorem Smooth.of_concerns (h : s.Smooth) (hc : Concerns f s s')
    (hlinked : (s'.line f).phase = .connecting ∨ (s'.line f).phase = .open → (s'.line f).transport.isSome) :
    s'.Smooth := by
  refine ⟨hc.wired, hc.plan.trans h.plan, ?_⟩
  intro g hg
  by_cases hgf : g = f
  · subst hgf
    exact hlinked hg
  · rw [hc.line g hgf] at hg ⊢
    exact h.linked g hg

/-- A feed that moves has a transport where it needs one. -/
theorem Smooth.moves (h : s.Smooth) (hc : Concerns f s s') (hm : Moves f s s') : s'.Smooth := by
  apply h.of_concerns hc
  intro hg
  cases hm with
  | stays hstays =>
    rw [hstays.phase] at hg
    rw [hstays.transport]
    exact h.linked f hg
  | leaves hphase hlinked =>
    rcases hg with hg | hg
    · exact hlinked hg
    · exact absurd hg hphase
  | opens hphase htransport _ =>
    rw [htransport]
    exact h.linked f (Or.inl hphase)

/-! ## Requests -/

/-- No other channel has the name of heartbeats. -/
theorem name_heartbeats {c : Channel} : c.name = Channel.heartbeats.name ↔ c = .heartbeats := by
  cases c <;> decide

/-- A request is sent, and only one for heartbeats counts. -/
theorem send_smooth (hw : s.Wired) (hplan : s.world.plan = .smooth) (hi : (s.line f).transport.isSome)
    (kind : RequestKind) (channel : Channel) (products : List Product) :
    ∃ s', send f kind channel products s = (.ok (), s') ∧ s'.client = s.client ∧
      (f = .user → s'.heartbeats =
        if channel = .heartbeats then s.heartbeats ++ [kind] else s.heartbeats) := by
  obtain ⟨s', hsend, hclient, hrequests⟩ := send_granted hw hplan hi kind channel products
  refine ⟨s', hsend, hclient, ?_⟩
  rintro rfl
  rw [heartbeats_eq, heartbeats_eq, hrequests, List.filter_append, List.map_append]
  by_cases hchannel : channel = .heartbeats
  · subst hchannel
    rw [if_pos rfl]
    rfl
  · -- requests are told apart by the names of their channels, which are all different
    have hname : ¬ channel.name = Channel.heartbeats.name := fun hname => hchannel (name_heartbeats.1 hname)
    have hother : [Request.ofChannel kind channel products (s.client.tokenFor .user)].filter
        (·.channel = Channel.heartbeats.name) = [] := by
      apply List.filter_eq_nil_iff.2
      intro r hr
      rw [List.mem_singleton.1 hr]
      exact fun hsame => hname (of_decide_eq_true hsame)
    rw [if_neg hchannel, hother, List.map_nil, List.append_nil]

/-- Requests for the channels of a feed. Heartbeats are a channel of the market feed. -/
theorem sendEach_smooth (hw : s.Wired) (hplan : s.world.plan = .smooth) (hi : (s.line f).transport.isSome)
    (kind : RequestKind) (products : List Product) {channels : List Channel} (howned : ∀ c ∈ channels, c.feed = f) :
    ∃ s', sendEach f kind products channels s = (.ok (), s') ∧ s'.client = s.client ∧
      (f = .user → s'.heartbeats = s.heartbeats) := by
  obtain ⟨s', hsend, hclient, hrequests⟩ := sendEach_granted hw hplan hi kind products channels
  refine ⟨s', hsend, hclient, ?_⟩
  rintro rfl
  have hother : (channels.map fun c => Request.ofChannel kind c products (s.client.tokenFor .user)).filter
      (·.channel = Channel.heartbeats.name) = [] := by
    apply List.filter_eq_nil_iff.2
    intro r hr
    obtain ⟨c, hc, rfl⟩ := List.mem_map.1 hr
    intro hsame
    have hheartbeats := howned c hc
    rw [name_heartbeats.1 (of_decide_eq_true hsame)] at hheartbeats
    cases hheartbeats
  rw [heartbeats_eq, heartbeats_eq, hrequests, List.filter_append, hother, List.append_nil]

/-- Subscriptions do not end heartbeats. -/
theorem subscribeAll_smooth (hw : s.Wired) (hplan : s.world.plan = .smooth)
    (hi : (s.line .user).transport.isSome) (subscriptions : List (Channel × List Product))
    (hbeats : s.heartbeats.getLast? = some .subscribe) :
    (subscribeAll .user subscriptions s).heartbeats.getLast? = some .subscribe := by
  induction subscriptions generalizing s with
  | nil => exact hbeats
  | cons first rest ih =>
    obtain ⟨channel, products⟩ := first
    have hconcerns := concerns_send (f := .user) hw .subscribe channel products
    obtain ⟨s₁, hsend, hclient, hbeats₁⟩ := send_smooth hw hplan hi .subscribe channel products
    rw [hsend] at hconcerns
    rw [subscribeAll, hsend]
    apply ih hconcerns.wired (hconcerns.plan.trans hplan)
    · rw [line_congr hclient]
      exact hi
    · rw [hbeats₁ rfl]
      split
      · exact List.getLast?_concat
      · exact hbeats

/-! ## Steps of one feed -/

private theorem stays_setLine {l : Line} (hphase : l.phase = (s.line f).phase)
    (htransport : l.transport = (s.line f).transport) : Stays f s (s.setLine f l) := by
  refine ⟨?_, ?_, ?_⟩
  · rw [line_setLine, hphase]
  · rw [line_setLine, htransport]
  · rintro rfl
    unfold heartbeats
    rw [line_setLine, htransport]
    rfl

private theorem Stays.of_client (h : s'.client = s.client) (hbeats : f = .user → s'.heartbeats = s.heartbeats) :
    Stays f s s' :=
  ⟨by rw [line_congr h], by rw [line_congr h], hbeats⟩

/-- A feed that is opened anew is on its way, or has failed. -/
theorem moves_openLine (f : Feed) (s : Session) : Moves f s (openLine f s).2 := by
  unfold openLine
  simp only
  split
  next =>
    apply Moves.leaves
    · rw [line_setLine]
      exact Phase.noConfusion
    · intro _
      rw [line_setLine]
      rfl
  next =>
    apply Moves.leaves
    · rw [line_setLine]
      exact Phase.noConfusion
    · rw [line_setLine]
      exact Phase.noConfusion

/-- Arranging for a feed to be reopened does nothing to it yet. -/
theorem stays_scheduleReopening (f : Feed) (s : Session) : Stays f s (scheduleReopening f s) := by
  unfold scheduleReopening
  simp only
  split
  next => exact .refl
  next =>
    refine ⟨?_, ?_, ?_⟩
    · rw [line_setLine]
    · rw [line_setLine]
    · rintro rfl
      unfold heartbeats
      rw [line_setLine]
      rfl

/-- What opens is greeted, the user feed with heartbeats first. -/
theorem Smooth.moves_connected (h : s.Smooth) (o : Origin) : Moves o.feed s (connected o s) := by
  obtain ⟨c, f⟩ := o
  unfold connected
  simp only
  split
  next hcurrent =>
    generalize hl : ({ s.line f with phase := .open, retries := 0 } : Line) = l
    have htransport : l.transport = (s.line f).transport := by rw [← hl]
    have hi := h.linked f (Or.inl hcurrent.2)
    have hconcerns : Concerns f s (s.setLine f l) := concerns_setLine_same h.wired (Or.inl htransport)
    apply Moves.opens hcurrent.2
    · rw [line_congr (client_subscribeAll _ _ _), line_setLine, htransport]
    · rintro rfl
      have hi' : ((s.setLine .user l).line .user).transport.isSome := by
        rw [line_setLine, htransport]
        exact hi
      have hplan := hconcerns.plan.trans h.plan
      -- heartbeats come first, and what follows are subscriptions
      have hsent := concerns_send (f := .user) hconcerns.wired .subscribe .heartbeats []
      obtain ⟨s₁, hsend, hclient, hbeats⟩ := send_smooth hconcerns.wired hplan hi' .subscribe .heartbeats []
      rw [hsend] at hsent
      rw [greeting, subscribeAll, hsend]
      apply subscribeAll_smooth hsent.wired (hsent.plan.trans hplan)
      · rw [line_congr hclient]
        exact hi'
      · rw [hbeats rfl]
        exact List.getLast?_concat
  next => exact .stays .refl

/-- A feed that has lost its connection leaves the open state. -/
theorem moves_disconnected (o : Origin) (s : Session) : Moves o.feed s (disconnected o s) := by
  unfold disconnected
  simp only
  split
  next =>
    generalize hl : ({ s.line o.feed with phase := _, connection := none, transport := none } : Line) = l
    have hphase : l.phase = .closed ∨ l.phase = .errored := by
      rw [← hl]
      simp only
      split
      next => exact Or.inl rfl
      next hcond =>
        simp only [Bool.or_eq_true, bne_iff_ne, not_or, Decidable.not_not] at hcond
        exact Or.inr hcond.2
    -- the line itself is closed or has failed, whatever is arranged for later
    have hleaves : Moves o.feed s (s.setLine o.feed l) := by
      apply Moves.leaves
      · rw [line_setLine]
        rcases hphase with h | h <;> rw [h] <;> decide
      · rw [line_setLine]
        rcases hphase with h | h <;> rw [h] <;> exact Phase.noConfusion
    split
    · exact hleaves
    · exact hleaves.andStays (stays_scheduleReopening _ _)
  next => exact .stays .refl

/-- A feed in error leaves the open state. -/
theorem moves_failed (o : Origin) (s : Session) : Moves o.feed s (failed o s) := by
  unfold failed
  simp only
  split
  next =>
    apply Moves.leaves
    · rw [line_setLine]
      exact Phase.noConfusion
    · rw [line_setLine]
      exact Phase.noConfusion
  next => exact .stays .refl

/-- A feed that is opened again was not open, or stays as it is. -/
theorem moves_reopen (f : Feed) (s : Session) : Moves f s (reopen f s) := by
  have hopen := moves_openLine f s
  unfold reopen
  simp only
  split
  next => exact .stays .refl
  next =>
    generalize openLine f s = r at *
    obtain ⟨result, s'⟩ := r
    cases result with
    | ok => exact hopen
    | error failure => exact hopen.andStays (stays_scheduleReopening f s')

/-! ## Calls -/

/-- The channels that a feed owns are its own. -/
theorem mem_owned {c : Channel} {channels : List Channel} (h : c ∈ owned f channels) : c.feed = f :=
  of_decide_eq_true (List.mem_filter.1 h).2

/-- To subscribe sends requests on an open feed, and none is for heartbeats of the user feed. -/
theorem Smooth.moves_subscribeLine (h : s.Smooth) (products : List Product) (channels : List Channel) :
    Moves f s (subscribeLine products channels f s).2 := by
  unfold subscribeLine
  split
  next => exact .stays .refl
  next =>
    simp only
    generalize hs : s.onSubscriptions f _ = s₁
    have hstays : Stays f s s₁ := hs ▸ stays_setLine rfl rfl
    have hconcerns : Concerns f s s₁ := hs ▸ concerns_onSubscriptions h.wired _
    split
    next hphase =>
      have hi := h.linked f (Or.inr (hstays.phase ▸ hphase))
      rw [← hstays.transport] at hi
      obtain ⟨s₂, hsent, hclient, hbeats⟩ := sendEach_smooth hconcerns.wired (hconcerns.plan.trans h.plan) hi
        .subscribe products fun c hc => mem_owned hc
      rw [hsent]
      exact .stays (hstays.trans (.of_client hclient hbeats))
    next => exact .stays hstays
    next => exact .stays hstays
    next => exact hstays.moves (moves_openLine f s₁)
    next => exact hstays.moves (moves_openLine f s₁)

/-- Unsubscribing never fails, and gives heartbeats up exactly if nothing is left subscribed on the user feed. -/
theorem Smooth.unsubscribeLine (h : s.Smooth) (products : List Product) {channels : List Channel} :
    ∃ s', Session.unsubscribeLine products channels f s = (.ok (), s') ∧ (s'.line f).phase = (s.line f).phase ∧
      (s'.line f).transport = (s.line f).transport ∧
      (f = .user → s'.heartbeats =
        if (s.line f).phase = .open ∧ owned f channels ≠ [] ∧ (s'.line f).subscriptions.isEmpty
        then s.heartbeats ++ [.unsubscribe] else s.heartbeats) := by
  unfold Session.unsubscribeLine
  split
  next hnone => exact ⟨s, rfl, rfl, rfl, fun _ => by rw [if_neg (fun h => h.2.1 hnone)]⟩
  next hsome =>
    simp only
    generalize hs : s.onSubscriptions f _ = s₁
    have hstays : Stays f s s₁ := hs ▸ stays_setLine rfl rfl
    have hconcerns : Concerns f s s₁ := hs ▸ concerns_onSubscriptions h.wired _
    split
    next hphase =>
      have hi := h.linked f (Or.inr (hstays.phase ▸ hphase))
      rw [← hstays.transport] at hi
      have hplan := hconcerns.plan.trans h.plan
      have hsending := concerns_sendEach (f := f) hconcerns.wired .unsubscribe products (owned f channels)
      obtain ⟨s₂, hsent, hclient, hbeats⟩ := sendEach_smooth hconcerns.wired hplan hi
        .unsubscribe products fun c hc => mem_owned hc
      rw [hsent] at hsending ⊢
      have hstays₂ : Stays f s s₂ := hstays.trans (.of_client hclient hbeats)
      have hopen : (s.line f).phase = .open := hstays.phase ▸ hphase
      -- the requests for the channels leave heartbeats alone; one more follows if nothing is left
      show ∃ s', (if f = .user ∧ (s₂.line f).subscriptions.isEmpty then
        send f .unsubscribe .heartbeats [] s₂ else (.ok (), s₂)) = (.ok (), s') ∧ _
      split
      next hlast =>
        obtain ⟨rfl, hempty⟩ := hlast
        obtain ⟨s₃, hsend, hclient₃, hbeats₃⟩ := send_smooth hsending.wired (hsending.plan.trans hplan)
          (hstays₂.transport ▸ h.linked .user (Or.inr hopen)) .unsubscribe .heartbeats []
        have hline : s₃.line .user = s₂.line .user := line_congr hclient₃ .user
        refine ⟨s₃, hsend, by rw [hline, hstays₂.phase], by rw [hline, hstays₂.transport], ?_⟩
        intro _
        rw [hbeats₃ rfl, if_pos rfl, hstays₂.beats rfl, hline, if_pos ⟨hopen, hsome, hempty⟩]
      next hlast =>
        refine ⟨s₂, rfl, hstays₂.phase, hstays₂.transport, ?_⟩
        intro hf
        rw [hstays₂.beats hf, if_neg (fun h => hlast ⟨hf, h.2.2⟩)]
    next hphase =>
      refine ⟨s₁, rfl, hstays.phase, hstays.transport, ?_⟩
      intro hf
      rw [hstays.beats hf, if_neg (fun h => hphase (hstays.phase.trans h.1))]

end Session

/-! ## Courses of events -/

/-- A session, and whether heartbeats have lapsed: since the user feed opened, unsubscribing has left nothing
subscribed on it. -/
structure Course where
  session : Session
  lapsed : Bool

/-- Whether an event unsubscribes channels of the user feed. -/
def Event.endsUser : Event → Bool
  | .unsubscribe _ channels => !(Session.owned .user channels).isEmpty
  | _ => false

namespace Course

/-- A new client, whose transports will refuse nothing. -/
def start (id : Nat) (settings : Settings) (credential : Option Credential) (market user : UInt32) : Course :=
  ⟨⟨.new id settings credential market user, .ofPlan .smooth⟩, false⟩

/-- One event. -/
def step (c : Course) (e : Event) : Course :=
  let s := e.apply c.session
  let l := s.line .user
  ⟨s, l.phase = .open && (c.lapsed || (e.endsUser && l.subscriptions.isEmpty))⟩

/-- Events one after the other. -/
def run (c : Course) (events : List Event) : Course := events.foldl step c

end Course

namespace Session

variable {f : Feed} {s s' : Session} {lapsed : Bool}

/-- What holds all along: heartbeats are in force on an open user feed unless they have lapsed. -/
structure Tended (s : Session) (lapsed : Bool) : Prop where
  smooth : s.Smooth
  idle : (s.line .user).phase ≠ .open → lapsed = false
  beats : (s.line .user).phase = .open → (s.heartbeats.getLast? = some .subscribe ↔ lapsed = false)

/-- Whether heartbeats have lapsed after a step, if they had before or have now: only an open feed remembers it. -/
def lapsing (s : Session) (lapsed : Bool) : Bool := (s.line .user).phase = .open && lapsed

private theorem lapsing_of_open (h : (s.line .user).phase = .open) : s.lapsing lapsed = lapsed := by
  rw [lapsing, decide_eq_true h, Bool.true_and]

private theorem lapsing_of_not_open (h : (s.line .user).phase ≠ .open) : s.lapsing lapsed = false := by
  rw [lapsing, decide_eq_false h, Bool.false_and]

private theorem Tended.lapsing_eq (h : s.Tended lapsed) : s.lapsing lapsed = lapsed := by
  by_cases hopen : (s.line .user).phase = .open
  · exact lapsing_of_open hopen
  · rw [lapsing_of_not_open hopen, h.idle hopen]

private theorem Tended.of_market (h : s.Tended lapsed) (hc : Concerns .market s s') (hsmooth : s'.Smooth) :
    s'.Tended lapsed := by
  have hline := hc.line .user (by decide)
  refine ⟨hsmooth, ?_, ?_⟩
  · rw [hline]
    exact h.idle
  · rw [hline, hc.heartbeats]
    exact h.beats

/-- Whichever way a feed moves, heartbeats are in force after it unless they have lapsed. -/
theorem Tended.moves (h : s.Tended lapsed) (hc : Concerns f s s') (hm : Moves f s s') :
    s'.Tended (s'.lapsing lapsed) := by
  have hsmooth := h.smooth.moves hc hm
  cases f with
  | market =>
    have htended := h.of_market hc hsmooth
    rw [htended.lapsing_eq]
    exact htended
  | user =>
    refine ⟨hsmooth, ?_, ?_⟩
    · intro hopen
      exact lapsing_of_not_open hopen
    · intro hopen
      rw [lapsing_of_open hopen]
      cases hm with
      | stays hstays =>
        rw [hstays.beats rfl]
        exact h.beats (hstays.phase ▸ hopen)
      | leaves hphase _ => exact absurd hopen hphase
      | opens hphase _ hbeats =>
        -- nothing has lapsed while the feed was on its way
        have hlapsed : lapsed = false := h.idle (by rw [hphase]; decide)
        exact iff_of_true (hbeats rfl) hlapsed

private theorem snd_andThen (r : Result) (next : Session → Result) :
    (andThen r next).2 = r.2 ∨ (andThen r next).2 = (next r.2).2 := by
  obtain ⟨result, s⟩ := r
  cases result with
  | ok => exact Or.inr rfl
  | error failure => exact Or.inl rfl

/-- A session that was tended before is tended after, with what has lapsed until then. -/
theorem Tended.self (h : s.Tended lapsed) : s.Tended (s.lapsing lapsed) := by
  rw [h.lapsing_eq]
  exact h

/-- To subscribe does not let heartbeats lapse. -/
theorem Tended.subscribe (h : s.Tended lapsed) (products : List Product) (channels : List Channel) :
    (s.subscribe products channels).2.Tended ((s.subscribe products channels).2.lapsing lapsed) := by
  have hrunning : s.ensureRunning.2 = s := rfl
  -- the market feed comes first, and its failure keeps the user feed from its turn
  have hmarket := concerns_subscribeLine (f := .market) products channels h.smooth.wired
  have htended : (subscribeLine products channels .market s).2.Tended lapsed :=
    h.of_market hmarket (h.smooth.moves hmarket (h.smooth.moves_subscribeLine products channels))
  unfold Session.subscribe
  rcases snd_andThen s.ensureRunning (fun s => andThen (subscribeLine products channels .market s)
    (subscribeLine products channels .user)) with hout | hout
  · rw [hout, hrunning]
    exact h.self
  · rw [hout, hrunning]
    rcases snd_andThen (subscribeLine products channels .market s) (subscribeLine products channels .user)
      with hout | hout
    · rw [hout]
      exact htended.self
    · rw [hout]
      exact htended.moves (concerns_subscribeLine (f := .user) products channels htended.smooth.wired)
        (htended.smooth.moves_subscribeLine products channels)

/-- To unsubscribe does, if nothing is left subscribed on the user feed. -/
theorem Tended.unsubscribe (h : s.Tended lapsed) (products : List Product) (channels : List Channel) :
    (s.unsubscribe products channels).2.Tended ((s.unsubscribe products channels).2.lapsing
      (lapsed || (!(owned .user channels).isEmpty &&
        ((s.unsubscribe products channels).2.line .user).subscriptions.isEmpty))) := by
  have hmarket := concerns_unsubscribeLine (f := .market) products channels h.smooth.wired
  obtain ⟨s₁, hout₁, hphase₁, htransport₁, -⟩ := h.smooth.unsubscribeLine (f := .market) products
  rw [hout₁] at hmarket
  have htended : s₁.Tended lapsed := by
    apply h.of_market hmarket (h.smooth.of_concerns hmarket ?_)
    rw [hphase₁, htransport₁]
    exact h.smooth.linked .market
  have huser := concerns_unsubscribeLine (f := .user) products channels htended.smooth.wired
  obtain ⟨s₂, hout₂, hphase₂, htransport₂, hbeats₂⟩ := htended.smooth.unsubscribeLine (f := .user) products
  rw [hout₂] at huser
  have hout : s.unsubscribe products channels = (.ok (), s₂) := by
    unfold Session.unsubscribe
    rw [hout₁]
    exact hout₂
  rw [hout]
  refine ⟨htended.smooth.of_concerns huser ?_, ?_, ?_⟩
  · rw [hphase₂, htransport₂]
    exact htended.smooth.linked .user
  · intro hopen
    exact lapsing_of_not_open hopen
  · intro hopen
    have hopen₁ : (s₁.line .user).phase = .open := hphase₂ ▸ hopen
    rw [lapsing_of_open hopen, hbeats₂ rfl]
    -- the last request is the one that gives heartbeats up, or the same as before
    by_cases hended : owned .user channels ≠ [] ∧ (s₂.line .user).subscriptions.isEmpty
    · rw [if_pos ⟨hopen₁, hended⟩, List.getLast?_concat]
      simp [hended.1, hended.2]
    · rw [if_neg (fun h => hended h.2), htended.beats hopen₁]
      have hkeeps : (!(owned .user channels).isEmpty && (s₂.line .user).subscriptions.isEmpty) = false := by
        simpa using hended
      rw [hkeeps, Bool.or_false]

/-- A change that no feed notices. -/
theorem Tended.aside (h : s.Tended lapsed) (hc : Concerns .market s s') (hline : s'.line .market = s.line .market) :
    s'.Tended lapsed :=
  h.of_market hc (h.smooth.moves hc (.stays ⟨by rw [hline], by rw [hline], fun h => nomatch h⟩))

/-- No callback lets them lapse. -/
theorem Tended.react (h : s.Tended lapsed) (c : Callback) :
    (Session.react c s).Tended ((Session.react c s).lapsing lapsed) := by
  unfold Session.react
  split
  · exact h.moves (concerns_connected h.smooth.wired c.origin) (h.smooth.moves_connected c.origin)
  · exact h.moves (concerns_disconnected h.smooth.wired c.origin) (moves_disconnected c.origin s)
  · exact h.moves (concerns_failed h.smooth.wired c.origin) (moves_failed c.origin s)
  · obtain ⟨hc, hline⟩ := concerns_logged (f := .market) h.smooth.wired c.payload
    exact (h.aside hc (hline .market)).self

/-- Nor does a timer that goes off. -/
theorem Tended.fire (h : s.Tended lapsed) (t : Timer) :
    (Stage.fire t s).Tended ((Stage.fire t s).lapsing lapsed) := by
  unfold Stage.fire
  simp only
  generalize hclient : ({ s.client with timers := s.client.timers.erase t } : Client) = client
  have hline (g : Feed) : client.line g = s.line g := by
    rw [← hclient]
    cases g <;> rfl
  have hc : Concerns .market s ⟨client, { s.world with clock := max s.world.clock t.due }⟩ :=
    concerns_aside h.smooth.wired hline rfl (fun _ => rfl) (fun _ => rfl)
  -- the timer and the clock are no part of a feed
  have htended := h.aside hc (hline .market)
  exact htended.moves (concerns_reopen htended.smooth.wired) (moves_reopen t.feed _)

/-- Nor does reconnecting. -/
theorem Tended.reconnect (h : s.Tended lapsed) (f : Feed) :
    (Session.reconnect f s).2.Tended ((Session.reconnect f s).2.lapsing lapsed) := by
  have hrunning : s.ensureRunning.2 = s := rfl
  have hline : Stays f s (s.setLine f { s.line f with retries := 0 }) := stays_setLine rfl rfl
  unfold Session.reconnect
  rcases snd_andThen s.ensureRunning (reconnectLine f) with hout | hout
  · rw [hout, hrunning]
    exact h.self
  · rw [hout, hrunning]
    exact h.moves (concerns_reconnectLine h.smooth.wired) (hline.moves (moves_openLine f _))

/-- Nor does a change of state. -/
theorem Tended.setStatus (h : s.Tended lapsed) (number : Nat) (state : Status) :
    ({ s with world := s.world.setStatus number state } : Session).Tended lapsed := by
  have hc : Concerns .market s { s with world := s.world.setStatus number state } := by
    refine concerns_aside h.smooth.wired (fun _ => rfl) rfl ?_ ?_
    · intro i
      exact World.origin?_setStatus s.world i number state
    · intro i
      exact World.sent_setStatus s.world i number state
  exact h.aside hc rfl

/-- An event that does not unsubscribe from the user feed. -/
theorem step_of_not_endsUser {c : Course} {e : Event} (he : e.endsUser = false) :
    c.step e = ⟨e.apply c.session, (e.apply c.session).lapsing c.lapsed⟩ := by
  rw [Course.step, he, Bool.false_and, Bool.or_false]
  rfl

/-- The step: after every event heartbeats are in force unless they have lapsed. -/
theorem Tended.step {c : Course} (h : c.session.Tended c.lapsed) (e : Event) :
    (c.step e).session.Tended (c.step e).lapsed := by
  cases e with
  | subscribe products channels =>
    rw [step_of_not_endsUser rfl]
    exact h.subscribe products channels
  | unsubscribe products channels => exact h.unsubscribe products channels
  | reconnect f =>
    rw [step_of_not_endsUser rfl]
    exact h.reconnect f
  | callback callback =>
    rw [step_of_not_endsUser rfl]
    exact h.react callback
  | status number state =>
    rw [step_of_not_endsUser rfl]
    exact (h.setStatus number state).self
  | timer t =>
    rw [step_of_not_endsUser rfl]
    exact h.fire t

/-- So they are after every run. -/
theorem Tended.run {c : Course} (h : c.session.Tended c.lapsed) (events : List Event) :
    (c.run events).session.Tended (c.run events).lapsed := by
  -- every event keeps the session tended
  induction events generalizing c with
  | nil => exact h
  | cons e rest ih => exact ih (h.step e)

private theorem tended_start (id : Nat) (settings : Settings) (credential : Option Credential) (market user : UInt32) :
    (Course.start id settings credential market user).session.Tended false := by
  have hline (f : Feed) : ∃ slot, (Course.start id settings credential market user).session.line f = .ofSlot slot := by
    cases f
    · exact ⟨market, rfl⟩
    · exact ⟨user, rfl⟩
  refine ⟨⟨?_, rfl, ?_⟩, fun _ => rfl, ?_⟩
  · intro f i hi
    obtain ⟨slot, hslot⟩ := hline f
    rw [hslot] at hi
    cases hi
  · intro f hf
    obtain ⟨slot, hslot⟩ := hline f
    rw [hslot] at hf
    rcases hf with hf | hf <;> cases hf
  · intro hopen
    cases hopen

end Session

namespace Course

/-- As long as the transports refuse nothing, heartbeats are in force wherever they are needed, in every state that
calls, callbacks and timers lead to, with one exception: they have lapsed since the feed opened, and something
was subscribed again. -/
theorem keepsAlive_iff (id : Nat) (settings : Settings) (credential : Option Credential) (market user : UInt32)
    (events : List Event) :
    ((start id settings credential market user).run events).session.KeepsAlive ↔
      ¬ (((start id settings credential market user).run events).lapsed = true ∧
        (((start id settings credential market user).run events).session.line .user).subscriptions.isEmpty =
          false) := by
  have h := (Session.tended_start id settings credential market user).run events
  generalize (start id settings credential market user).run events = c at *
  constructor
  · rintro hkeeps ⟨hlapsed, hsome⟩
    have hopen : (c.session.line .user).phase = .open := by
      apply Decidable.byContradiction
      intro hclosed
      rw [h.idle hclosed] at hlapsed
      cases hlapsed
    rw [(h.beats hopen).1 (hkeeps hopen hsome)] at hlapsed
    cases hlapsed
  · intro hnot hopen hsome
    apply (h.beats hopen).2
    exact Bool.eq_false_iff.2 fun hlapsed => hnot ⟨hlapsed, hsome⟩

/-- The user channel is unsubscribed and subscribed again while its feed is open. -/
theorem not_keepsAlive_resubscribed : ¬ ((start 0 .usual none 0 1).run
    [.subscribe [] [.user], .callback (.connected ⟨⟨1, 1⟩, .user⟩), .unsubscribe [] [.user],
      .subscribe [] [.user]]).session.KeepsAlive := by
  unfold Session.KeepsAlive
  decide +kernel

end Course

end MarketFeed.Client
