import MarketFeed.Proofs.Client.KeepAlive
import MarketFeed.Proofs.Client.Keeping
import MarketFeed.Proofs.Subscriptions

/-!
# Client.Mirror — the venue knows what is subscribed

The venue learns of subscriptions from the requests on the current connection alone, and
every connection starts from nothing. So what it knows is told by taking these requests in
turn (`Subscriptions.take`), which is the `view` of a session. The requests for heartbeats
on the user feed are not made for a subscription and stand apart (`Request.isExplicit`).

While a feed is on its way nothing is sent; when it opens, a request goes out for all that
is recorded by then; from there on every change is sent as it is made:

> `Mirrors`: nothing was sent before the feed opened, and on an open feed the requests
> come to the recorded set.

Every event keeps that as long as transports refuse nothing (`Faithful.apply`), and it
holds of a new client:

> `mirrored`: in every run with smooth transports, on an open feed the requests on the
> transport of its current connection come to what is recorded, and no request on a market
> feed carries a token.

An event is looked at on the feed that it concerns (`Faithful.of_concerns`, from
`Client.Feeds`). What opens is the only step in which the whole set is sent; that the
requests for it make up the set again is `foldl_add_toList`. A call on an open feed
changes the set and sends the same change (`Rewrites.mirrors_sent`), and on any other feed
it is only recorded (`Rewrites.mirrors_kept`). When a request is refused the two come
apart, which is why the result is about smooth transports; `Client.Bookkeeping` is about
the others.
-/

namespace MarketFeed

/-- Whether a request on a feed was made for a subscription: the user feed asks for heartbeats by itself. -/
def Request.isExplicit (f : Feed) (r : Request) : Bool := !(f = .user && r.channel = Channel.heartbeats.name)

/-- Whatever is requested for a channel of a feed is requested for a subscription on it. -/
theorem Request.isExplicit_of_feed {f : Feed} {c : Channel} (h : c.feed = f) (kind : RequestKind)
    (products : List Product) (token : Option String) :
    (Request.ofChannel kind c products token).isExplicit f = true := by
  unfold isExplicit
  rw [Bool.not_eq_true', Bool.and_eq_false_iff]
  cases f with
  | market => exact Or.inl (decide_eq_false (by decide))
  | user =>
    refine Or.inr (decide_eq_false ?_)
    intro hname
    rw [Client.Session.name_heartbeats.1 hname] at h
    cases h

namespace Client

namespace Session

variable {f g : Feed} {s s' : Session}

/-- The subscriptions that the requests on the current connection of a feed come to. -/
def view (s : Session) (f : Feed) : Subscriptions := .ofRequests ((s.requests f).filter (·.isExplicit f))

/-! ## Connections -/

/-- What holds of the transports all along: they refuse nothing, each belongs to the current connection of its feed, and
nothing with a token was sent for the market feed. -/
structure Grounded (s : Session) : Prop where
  smooth : s.Smooth
  current : ∀ f i, (s.line f).transport = some i →
    ∃ c, (s.line f).connection = some c ∧ s.world.origin? i = some ⟨c, f⟩
  tokenless : ∀ i o, s.world.origin? i = some o → o.feed = .market → ∀ r ∈ s.world.sent i, r.token = none

/-- A line that takes a turn keeps its transport and connection, or gives both up. -/
theorem Grounded.turn (h : s.Grounded) (f : Feed) {l : Line} (hl : (s.line f).Turn l) : (s.setLine f l).Grounded := by
  have hkeeps := hl.keeps
  have hconcerns : Concerns f s (s.setLine f l) :=
    concerns_setLine_same h.smooth.wired (hkeeps.imp And.right And.right)
  refine ⟨h.smooth.of_concerns hconcerns ?_, ?_, h.tokenless⟩
  · rw [line_setLine]
    intro hphase
    cases hl with
    | recorded => exact h.smooth.linked f hphase
    | counted => exact h.smooth.linked f hphase
    | opened hbefore => exact h.smooth.linked f (Or.inl hbefore)
    | failed => rcases hphase with hphase | hphase <;> cases hphase
    | lost phase hdown => rcases hdown with rfl | rfl <;> rcases hphase with hphase | hphase <;> cases hphase
  · intro g i hi
    by_cases hg : g = f
    · subst hg
      rw [line_setLine] at hi ⊢
      rcases hkeeps with hsame | hnone
      · rw [hsame.1]
        exact h.current g i (hsame.2 ▸ hi)
      · rw [hnone.2] at hi
        cases hi
    · rw [line_setLine_of_ne s l hg] at hi ⊢
      exact h.current g i hi

/-- What no feed notices changes none of this. -/
theorem Grounded.aside (h : s.Grounded) (ha : Aside s s') : s'.Grounded := by
  refine ⟨⟨?_, ha.plan.trans h.smooth.plan, ?_⟩, ?_, ?_⟩
  · intro f i hi
    rw [ha.origin]
    exact h.smooth.wired f i (ha.line f ▸ hi)
  · intro f hf
    rw [ha.line f] at hf ⊢
    exact h.smooth.linked f hf
  · intro f i hi
    rw [ha.line f] at hi ⊢
    rw [ha.origin]
    exact h.current f i hi
  · intro i o ho
    rw [ha.sent]
    exact h.tokenless i o (ha.origin i ▸ ho)

/-- A new transport belongs to the connection that it is opened for. -/
theorem Grounded.opening (h : s.Grounded) (f : Feed) : (openLine f s).2.Grounded := by
  have hconcerns := concerns_openLine (f := f) h.smooth.wired
  have hclose := aside_closeTransport f s
  obtain ⟨c, url, hworld, hline⟩ := exists_openLine_eq h.smooth.plan f
  refine ⟨h.smooth.moves hconcerns (moves_openLine f s), ?_, ?_⟩
  · intro g i hi
    by_cases hg : g = f
    · subst hg
      rw [hline] at hi ⊢
      obtain rfl := Option.some.inj hi
      refine ⟨c, rfl, ?_⟩
      rw [hworld]
      exact World.origin?_of_connect (World.connect_smooth (hclose.plan.trans h.smooth.plan) _ _ _)
    · rw [hconcerns.line g hg] at hi ⊢
      obtain ⟨d, hd, horigin⟩ := h.current g i hi
      refine ⟨d, hd, ?_⟩
      rw [hworld]
      exact World.origin?_connect ((hclose.origin i).trans horigin)
  · intro i o ho hfeed
    rw [hworld] at ho ⊢
    -- a transport that was there before keeps its requests, and a new one has none
    cases hbefore : (s.closeTransport f).world.origin? i with
    | none =>
      rw [World.sent_connect_of_none hbefore]
      intro r hr
      cases hr
    | some d =>
      rw [World.origin?_connect hbefore] at ho
      obtain rfl := Option.some.inj ho
      rw [World.sent_connect hbefore, hclose.sent]
      exact h.tokenless i d ((hclose.origin i).symm.trans hbefore) hfeed

/-- A token is sent for the user feed only. -/
theorem Grounded.sending (h : s.Grounded) (f : Feed) (kind : RequestKind) (channel : Channel)
    (products : List Product) : (send f kind channel products s).2.Grounded := by
  have hconcerns := concerns_send (f := f) h.smooth.wired kind channel products
  have hclient := client_send f kind channel products s
  refine ⟨h.smooth.of_concerns hconcerns ?_, ?_, ?_⟩
  · rw [line_congr hclient]
    exact h.smooth.linked f
  · intro g i hi
    rw [line_congr hclient] at hi ⊢
    obtain ⟨c, hc, horigin⟩ := h.current g i hi
    refine ⟨c, hc, ?_⟩
    unfold send
    split
    next => exact horigin
    next => exact (World.origin?_send _ _ _ _).trans horigin
  · unfold send
    split
    next => exact h.tokenless
    next j hj =>
      intro i o ho hfeed r hr
      rw [World.origin?_send] at ho
      rcases World.mem_sent_send hr with hbefore | ⟨rfl, rfl⟩
      · exact h.tokenless i o ho hfeed r hbefore
      · -- what is sent now goes out on the transport of its feed
        obtain ⟨c, -, horigin⟩ := h.current f j hj
        rw [horigin] at ho
        obtain rfl := Option.some.inj ho
        simp only at hfeed
        subst hfeed
        rfl

private theorem keeping_grounded : Keeping Grounded where
  turn f _ h hl := h.turn f hl
  aside h ha := h.aside ha
  opening f h := h.opening f
  sending f kind channel products h := h.sending f kind channel products

/-! ## Views -/

/-- That the venue can tell what is recorded on a feed: nothing was sent before it opened, and what has been sent since
comes to the recorded set. -/
structure Mirrors (f : Feed) (s : Session) : Prop where
  within : (s.line f).subscriptions.Within f
  silent : (s.line f).phase = .connecting → s.requests f = []
  faithful : (s.line f).phase = .open → s.view f = (s.line f).subscriptions

theorem Mirrors.congr (h : s.Mirrors f) (hphase : (s'.line f).phase = (s.line f).phase)
    (hset : (s'.line f).subscriptions = (s.line f).subscriptions) (hrequests : s'.requests f = s.requests f) :
    s'.Mirrors f := by
  refine ⟨hset ▸ h.within, ?_, ?_⟩
  · rw [hphase, hrequests]
    exact h.silent
  · rw [hphase, hset]
    unfold view
    rw [hrequests]
    exact h.faithful

/-- Of an open feed only what was sent counts. -/
theorem mirrors_of_open (hopen : (s.line f).phase = .open) (hwithin : (s.line f).subscriptions.Within f)
    (hview : s.view f = (s.line f).subscriptions) : s.Mirrors f := by
  refine ⟨hwithin, ?_, fun _ => hview⟩
  intro hconnecting
  rw [hopen] at hconnecting
  cases hconnecting

/-- Of a feed that is down nothing is asked. -/
theorem Mirrors.down (h : s.Mirrors f) (hset : (s'.line f).subscriptions = (s.line f).subscriptions)
    (hphase : (s'.line f).phase = .closed ∨ (s'.line f).phase = .errored) : s'.Mirrors f := by
  refine ⟨hset ▸ h.within, ?_, ?_⟩
  · intro hconnecting
    rw [hconnecting] at hphase
    rcases hphase with hphase | hphase <;> cases hphase
  · intro hopen
    rw [hopen] at hphase
    rcases hphase with hphase | hphase <;> cases hphase

/-- What concerns one feed changes nothing about the other. -/
theorem Mirrors.of_concerns (h : s.Mirrors g) (hc : Concerns f s s') (hg : g ≠ f) : s'.Mirrors g := by
  have hline := hc.line g hg
  exact h.congr (congrArg Line.phase hline) (congrArg Line.subscriptions hline) (hc.requests hg)

/-- A feed that is opened anew has sent nothing yet. -/
theorem mirrors_openLine (hplan : s.world.plan = .smooth) (h : (s.line f).subscriptions.Within f) :
    (openLine f s).2.Mirrors f := by
  obtain ⟨hphase, hset, hrequests⟩ := openLine_granted hplan f
  refine ⟨hset ▸ h, fun _ => hrequests, ?_⟩
  intro hopen
  rw [hphase] at hopen
  cases hopen

/-- Further requests are taken upon the view as it was. -/
theorem view_of_requests {added : List Request} (h : s'.requests f = s.requests f ++ added) :
    s'.view f = (added.filter (·.isExplicit f)).foldl Subscriptions.take (s.view f) := by
  unfold view
  rw [h, List.filter_append, Subscriptions.ofRequests_append]

/-- Requests for channels of a feed are made for its subscriptions. -/
theorem filter_isExplicit {α : Type} (channel : α → Channel) {items : List α} (h : ∀ a ∈ items, (channel a).feed = f)
    (kind : RequestKind) (products : α → List Product) (token : Option String) :
    (items.map fun a => Request.ofChannel kind (channel a) (products a) token).filter (·.isExplicit f) =
      items.map fun a => Request.ofChannel kind (channel a) (products a) token := by
  apply List.filter_eq_self.2
  intro r hr
  obtain ⟨a, ha, rfl⟩ := List.mem_map.1 hr
  exact Request.isExplicit_of_feed (h a ha) kind (products a) token

/-! ## Calls -/

/-- That a step did nothing but change what is subscribed on a feed. -/
structure Rewrites (f : Feed) (s s' : Session) : Prop where
  grounded : s'.Grounded
  phase : (s'.line f).phase = (s.line f).phase
  requests : s'.requests f = s.requests f
  within : (s'.line f).subscriptions.Within f

/-- To change what is recorded is to do nothing else. -/
theorem Grounded.rewrites (hs : s.Grounded) (change : Subscriptions → Subscriptions)
    (h : (change (s.line f).subscriptions).Within f) :
    Rewrites f s (s.onSubscriptions f change) ∧
      ((s.onSubscriptions f change).line f).subscriptions = change (s.line f).subscriptions := by
  have hline : (s.onSubscriptions f change).line f =
      { s.line f with subscriptions := change (s.line f).subscriptions } := line_setLine s f _
  refine ⟨⟨hs.turn f (.recorded _), by rw [hline], requests_setLine rfl, ?_⟩, by rw [hline]⟩
  rw [hline]
  exact h

/-- On an open feed the change has to be sent, each part of it as it was made. -/
theorem Rewrites.mirrors_sent {s₁ s₂ : Session} (h : Rewrites f s s₁) (hm : s.Mirrors f)
    (hopen : (s₁.line f).phase = .open) (hclient : s₂.client = s₁.client) {kind : RequestKind}
    {products : List Product} {channels : List Channel} (howned : ∀ c ∈ channels, c.feed = f)
    {token : Option String}
    (hadded : s₂.requests f = s₁.requests f ++ channels.map fun c => .ofChannel kind c products token)
    (hset : (s₁.line f).subscriptions = channels.foldl
      (fun set c => set.take (.ofChannel kind c products token)) (s.line f).subscriptions) :
    s₂.Mirrors f := by
  have hline := line_congr hclient f
  have hbefore : s₁.view f = (s.line f).subscriptions := by
    unfold view
    rw [h.requests]
    exact hm.faithful (h.phase ▸ hopen)
  refine mirrors_of_open (hline ▸ hopen) (hline ▸ h.within) ?_
  rw [view_of_requests hadded, filter_isExplicit (fun c => c) howned kind (fun _ => products), List.foldl_map,
    hbefore, hline, hset]

/-- On any other feed it is only recorded. -/
theorem Rewrites.mirrors_kept {s₁ : Session} (h : Rewrites f s s₁) (hm : s.Mirrors f)
    (hother : (s₁.line f).phase ≠ .open) : s₁.Mirrors f :=
  ⟨h.within, fun hconnecting => h.requests.trans (hm.silent (h.phase ▸ hconnecting)),
    fun hopen => absurd hopen hother⟩

/-- To subscribe on a feed tells the venue, if the feed is open. -/
theorem Mirrors.subscribeLine (h : s.Mirrors f) (hs : s.Grounded) (products : List Product)
    (channels : List Channel) : (subscribeLine products channels f s).2.Mirrors f := by
  have howned : ∀ c ∈ owned f channels, c.feed = f := fun c hc => mem_owned hc
  unfold Session.subscribeLine
  split
  next => exact h
  next =>
    obtain ⟨hrewrites, hset⟩ := hs.rewrites
      (fun set => (owned f channels).foldl (fun set c => (set.add c products).1) set) (h.within.foldl_add howned)
    simp only
    generalize s.onSubscriptions f _ = s₁ at *
    have hground := hrewrites.grounded
    split
    next hopen =>
      obtain ⟨s₂, hsent, hclient, hadded⟩ := sendEach_granted hground.smooth.wired hground.smooth.plan
        (hground.smooth.linked f (Or.inr hopen)) .subscribe products (owned f channels)
      rw [hsent]
      refine hrewrites.mirrors_sent h hopen hclient howned hadded ?_
      simp only [Subscriptions.take_subscribe]
      exact hset
    next hphase => exact hrewrites.mirrors_kept h (hphase ▸ Phase.noConfusion)
    next hphase => exact hrewrites.mirrors_kept h (hphase ▸ Phase.noConfusion)
    next => exact mirrors_openLine hground.smooth.plan hrewrites.within
    next => exact mirrors_openLine hground.smooth.plan hrewrites.within

/-- Giving heartbeats up is none of the venue's business. -/
theorem Mirrors.withoutHeartbeats (h : s.Mirrors .user) (hs : s.Grounded) (hopen : (s.line .user).phase = .open) :
    (send .user .unsubscribe .heartbeats [] s).2.Mirrors .user := by
  obtain ⟨s', hsend, hclient, hadded⟩ := send_granted hs.smooth.wired hs.smooth.plan
    (hs.smooth.linked .user (Or.inr hopen)) .unsubscribe .heartbeats []
  have hline := line_congr hclient .user
  rw [hsend]
  refine mirrors_of_open (hline ▸ hopen) (hline ▸ h.within) ?_
  rw [view_of_requests hadded, hline]
  exact h.faithful hopen

/-- To unsubscribe on a feed tells the venue, if the feed is open. -/
theorem Mirrors.unsubscribeLine (h : s.Mirrors f) (hs : s.Grounded) (products : List Product)
    (channels : List Channel) : (unsubscribeLine products channels f s).2.Mirrors f := by
  have howned : ∀ c ∈ owned f channels, c.feed = f := fun c hc => mem_owned hc
  unfold Session.unsubscribeLine
  split
  next => exact h
  next =>
    obtain ⟨hrewrites, hset⟩ := hs.rewrites
      (fun set => (owned f channels).foldl (fun set c => set.remove c products) set) h.within.foldl_remove
    simp only
    generalize s.onSubscriptions f _ = s₁ at *
    have hground := hrewrites.grounded
    split
    next hopen =>
      have hground₂ := keeping_grounded.sendEach hground f .unsubscribe products (owned f channels)
      obtain ⟨s₂, hsent, hclient, hadded⟩ := sendEach_granted hground.smooth.wired hground.smooth.plan
        (hground.smooth.linked f (Or.inr hopen)) .unsubscribe products (owned f channels)
      rw [hsent] at hground₂ ⊢
      have hmirrors : s₂.Mirrors f := by
        refine hrewrites.mirrors_sent h hopen hclient howned hadded ?_
        simp only [Subscriptions.take_unsubscribe]
        exact hset
      -- withdrawing heartbeats is no explicit request, so the mirror does not see it
      show (if f = .user ∧ (s₂.line f).subscriptions.isEmpty then
        send f .unsubscribe .heartbeats [] s₂ else (.ok (), s₂)).2.Mirrors f
      split
      next hlast =>
        obtain ⟨rfl, -⟩ := hlast
        exact hmirrors.withoutHeartbeats hground₂ (line_congr hclient .user ▸ hopen)
      next => exact hmirrors
    next hother => exact hrewrites.mirrors_kept h hother

/-! ## Callbacks -/

/-- A greeting leaves out nothing that is recorded, and heartbeats are not counted. -/
theorem filter_greeting {set : Subscriptions} (h : set.Within f) (token : Option String) :
    ((greeting f set).map fun e => Request.ofChannel .subscribe e.1 e.2 token).filter (·.isExplicit f) =
      set.toList.map fun e => Request.ofChannel .subscribe e.1 e.2 token := by
  have hlisted := filter_isExplicit Prod.fst (fun e he => h.mem_toList he) .subscribe Prod.snd token
  cases f with
  | market => exact hlisted
  | user => exact hlisted

/-- What opens asks for all that is recorded. -/
theorem Mirrors.connected (h : s.Mirrors f) (hs : s.Grounded) (c : Connection) :
    (connected ⟨c, f⟩ s).Mirrors f := by
  unfold Session.connected
  simp only
  split
  next hcurrent =>
    have hground := hs.turn f (.opened hcurrent.2)
    have hrequests : (s.setLine f { s.line f with phase := .open, retries := 0 }).requests f = [] :=
      (requests_setLine (l := { s.line f with phase := .open, retries := 0 }) rfl).trans (h.silent hcurrent.2)
    have hline := line_setLine s f { s.line f with phase := .open, retries := 0 }
    generalize s.setLine f { s.line f with phase := .open, retries := 0 } = s₁ at *
    have hopen : (s₁.line f).phase = .open := by rw [hline]
    have hset : (s₁.line f).subscriptions = (s.line f).subscriptions := by rw [hline]
    obtain ⟨hclient, hadded⟩ := subscribeAll_granted hground.smooth.wired hground.smooth.plan
      (hground.smooth.linked f (Or.inr hopen)) (greeting f (s.line f).subscriptions)
    have hline₂ := line_congr hclient f
    have hnothing : s₁.view f = .empty := by
      unfold view
      rw [hrequests]
      rfl
    refine mirrors_of_open (hline₂ ▸ hopen) ?_ ?_
    · rw [hline₂, hset]
      exact h.within
    · rw [view_of_requests hadded, filter_greeting h.within, hnothing, List.foldl_map, hline₂, hset]
      simp only [Subscriptions.take_subscribe]
      exact Subscriptions.foldl_add_toList _
  next => exact h

/-- To schedule another attempt leaves a feed down. -/
theorem Mirrors.scheduleReopening (h : s.Mirrors f) : (scheduleReopening f s).Mirrors f := by
  unfold Session.scheduleReopening
  simp only
  split
  next => exact h
  next =>
    refine h.congr ?_ ?_ ?_
    · rw [line_setLine]
    · rw [line_setLine]
    · exact requests_setLine (by cases f <;> rfl)

/-- A feed that has lost its connection is down. -/
theorem Mirrors.disconnected (h : s.Mirrors f) (c : Connection) : (disconnected ⟨c, f⟩ s).Mirrors f := by
  unfold Session.disconnected
  simp only
  split
  next =>
    generalize hl : ({ s.line f with phase := _, connection := none, transport := none } : Line) = l
    have hdown : (s.setLine f l).Mirrors f := by
      have hline := line_setLine s f l
      refine h.down ?_ ?_
      · rw [hline, ← hl]
      · rw [hline, ← hl]
        simp only
        split
        next => exact Or.inl rfl
        next hcond =>
          simp only [Bool.or_eq_true, bne_iff_ne, not_or, Decidable.not_not] at hcond
          exact Or.inr hcond.2
    split
    · exact hdown
    · exact hdown.scheduleReopening
  next => exact h

/-- A feed in error is down. -/
theorem Mirrors.failed (h : s.Mirrors f) (c : Connection) : (failed ⟨c, f⟩ s).Mirrors f := by
  unfold Session.failed
  simp only
  split
  next =>
    refine h.down ?_ (Or.inr ?_)
    · rw [line_setLine]
    · rw [line_setLine]
  next => exact h

/-- A feed that is opened again starts from nothing. -/
theorem Mirrors.reopen (h : s.Mirrors f) (hs : s.Grounded) : (reopen f s).Mirrors f := by
  have hopen := mirrors_openLine hs.smooth.plan h.within
  unfold Session.reopen
  simp only
  split
  next => exact h
  next =>
    generalize openLine f s = r at *
    obtain ⟨result, s'⟩ := r
    cases result with
    | ok => exact hopen
    | error failure => exact hopen.scheduleReopening

/-! ## Runs -/

/-- That the venue can tell what is recorded on either feed. -/
structure Faithful (s : Session) : Prop where
  grounded : s.Grounded
  mirrors : ∀ f, s.Mirrors f

/-- A step has to be looked at on the feed that it concerns. -/
theorem Faithful.of_concerns (h : s.Faithful) (hground : s'.Grounded) (hc : Concerns f s s') (hm : s'.Mirrors f) :
    s'.Faithful := by
  refine ⟨hground, ?_⟩
  intro g
  by_cases hg : g = f
  · subst hg
    exact hm
  · exact (h.mirrors g).of_concerns hc hg

/-- What no feed notices changes nothing about either. -/
theorem Faithful.aside (h : s.Faithful) (ha : Aside s s') : s'.Faithful := by
  refine ⟨h.grounded.aside ha, ?_⟩
  intro f
  refine (h.mirrors f).congr ?_ ?_ ?_
  · rw [ha.line f]
  · rw [ha.line f]
  · unfold requests
    rw [ha.line f]
    split
    · rfl
    · exact ha.sent _

/-- The part of subscribing for a feed keeps both. -/
theorem Faithful.subscribeLine (h : s.Faithful) (products : List Product) (channels : List Channel) (f : Feed) :
    (subscribeLine products channels f s).2.Faithful :=
  h.of_concerns (keeping_grounded.subscribeLine products channels h.grounded f)
    (concerns_subscribeLine products channels h.grounded.smooth.wired)
    ((h.mirrors f).subscribeLine h.grounded products channels)

/-- The part of unsubscribing for a feed keeps both. -/
theorem Faithful.unsubscribeLine (h : s.Faithful) (products : List Product) (channels : List Channel) (f : Feed) :
    (unsubscribeLine products channels f s).2.Faithful :=
  h.of_concerns (keeping_grounded.unsubscribeLine products channels h.grounded f)
    (concerns_unsubscribeLine products channels h.grounded.smooth.wired)
    ((h.mirrors f).unsubscribeLine h.grounded products channels)

/-- To reconnect a feed keeps both. -/
theorem Faithful.reconnectLine (h : s.Faithful) (f : Feed) : (reconnectLine f s).2.Faithful := by
  have hground := h.grounded.turn f (.counted 0)
  have hwithin : ((s.setLine f { s.line f with retries := 0 }).line f).subscriptions.Within f := by
    rw [line_setLine]
    exact (h.mirrors f).within
  exact h.of_concerns (keeping_grounded.opening f hground) (concerns_reconnectLine h.grounded.smooth.wired)
    (mirrors_openLine hground.smooth.plan hwithin)

/-- Every callback keeps both, whichever connection it is of. -/
theorem Faithful.react (h : s.Faithful) (c : Callback) : (Session.react c s).Faithful := by
  have hground := keeping_grounded.react h.grounded c
  have hwired := h.grounded.smooth.wired
  have hmirrors := h.mirrors c.origin.feed
  unfold Session.react at hground ⊢
  split at hground
  · exact h.of_concerns hground (concerns_connected hwired c.origin) (hmirrors.connected h.grounded _)
  · exact h.of_concerns hground (concerns_disconnected hwired c.origin) (hmirrors.disconnected _)
  · exact h.of_concerns hground (concerns_failed hwired c.origin) (hmirrors.failed _)
  · exact h.aside (aside_logged c.payload s)

/-- A timer that goes off keeps both. -/
theorem Faithful.fire (h : s.Faithful) (t : Timer) : (Stage.fire t s).Faithful := by
  have hbefore := h.aside (aside_timers s (s.client.timers.erase t) (max s.world.clock t.due))
  have hgrounded := hbefore.grounded
  exact hbefore.of_concerns (keeping_grounded.reopen hgrounded t.feed) (concerns_reopen hgrounded.smooth.wired)
    ((hbefore.mirrors t.feed).reopen hgrounded)

/-- The step: every event keeps both. -/
theorem Faithful.apply (h : s.Faithful) (e : Event) : (e.apply s).Faithful := by
  cases e with
  | subscribe products channels =>
    exact Keeping.andThen (r := s.ensureRunning) h fun _ h' =>
      Keeping.andThen (h'.subscribeLine products channels .market) fun _ h'' =>
        h''.subscribeLine products channels .user
  | unsubscribe products channels =>
    exact Keeping.andThen (h.unsubscribeLine products channels .market) fun _ h' =>
      h'.unsubscribeLine products channels .user
  | reconnect f => exact Keeping.andThen (r := s.ensureRunning) h fun _ h' => h'.reconnectLine f
  | callback c => exact h.react c
  | status number state => exact h.aside (aside_setStatus s number state)
  | timer t => exact h.fire t

/-- So does every run. -/
theorem Faithful.after (h : s.Faithful) (events : List Event) : (s.after events).Faithful := by
  induction events generalizing s with
  | nil => exact h
  | cons e rest ih => exact ih (h.apply e)

private theorem faithful_fresh (id : Nat) (settings : Settings) (credential : Option Credential)
    (market user : UInt32) :
    (fresh .smooth id settings credential market user).Faithful := by
  have hline (f : Feed) : ∃ slot, (fresh .smooth id settings credential market user).line f = .ofSlot slot := by
    cases f
    · exact ⟨market, rfl⟩
    · exact ⟨user, rfl⟩
  refine ⟨⟨⟨?_, rfl, ?_⟩, ?_, ?_⟩, ?_⟩
  · intro f i hi
    obtain ⟨slot, hslot⟩ := hline f
    rw [hslot] at hi
    cases hi
  · intro f hf
    obtain ⟨slot, hslot⟩ := hline f
    rw [hslot] at hf
    rcases hf with hf | hf <;> cases hf
  · intro f i hi
    obtain ⟨slot, hslot⟩ := hline f
    rw [hslot] at hi
    cases hi
  · intro i o ho
    cases ho
  · intro f
    obtain ⟨slot, hslot⟩ := hline f
    refine ⟨?_, ?_, ?_⟩ <;> rw [hslot]
    · exact Subscriptions.within_empty f
    · intro hphase
      cases hphase
    · intro hphase
      cases hphase

/-- In every run with smooth transports: on an open feed the requests on the transport of its current connection come
to what is recorded, and no request on a market feed carries a token. -/
theorem mirrored (id : Nat) (settings : Settings) (credential : Option Credential) (market user : UInt32)
    (events : List Event) :
    let s := (fresh .smooth id settings credential market user).after events
    (∀ f, (s.line f).phase = .open → ∃ c i, (s.line f).connection = some c ∧ (s.line f).transport = some i ∧
      s.world.origin? i = some ⟨c, f⟩ ∧
      Subscriptions.ofRequests ((s.world.sent i).filter (·.isExplicit f)) = (s.line f).subscriptions) ∧
    ∀ link ∈ s.world.links, link.origin.feed = .market → ∀ r ∈ link.sent, r.token = none := by
  intro s
  obtain ⟨hground, hmirrors⟩ : s.Faithful := (faithful_fresh id settings credential market user).after events
  refine ⟨?_, ?_⟩
  · intro f hopen
    obtain ⟨i, hi⟩ := Option.isSome_iff_exists.1 (hground.smooth.linked f (Or.inr hopen))
    obtain ⟨c, hc, horigin⟩ := hground.current f i hi
    refine ⟨c, i, hc, hi, horigin, ?_⟩
    rw [← requests_of_transport hi]
    exact (hmirrors f).faithful hopen
  · intro link hlink hfeed
    obtain ⟨i, hi⟩ := List.mem_iff_getElem?.1 hlink
    have horigin : s.world.origin? i = some link.origin := by
      unfold World.origin?
      rw [hi]
      rfl
    have hsent : s.world.sent i = link.sent := by
      unfold World.sent
      rw [hi]
      rfl
    rw [← hsent]
    exact hground.tokenless i link.origin horigin hfeed

/-- A client with both feeds open again after the market feed was lost, and with a channel without products. -/
def reconnected : Session := (fresh .smooth 0 .usual none 0 1).after
  [.subscribe [⟨"BTC-USD"⟩] [.level2, .user], .callback (.connected ⟨⟨0, 1⟩, .market⟩),
    .callback (.connected ⟨⟨1, 1⟩, .user⟩), .callback (.disconnected ⟨⟨0, 1⟩, .market⟩), .subscribe [] [.status],
    .callback (.connected ⟨⟨0, 2⟩, .market⟩), .unsubscribe [⟨"BTC-USD"⟩] [.level2]]

/-- Both feeds are open there, and the venue knows what is recorded on each. -/
theorem mirrored_reconnected : (∀ f, (reconnected.line f).phase = .open) ∧
    ∀ f, ∃ c i, (reconnected.line f).connection = some c ∧ (reconnected.line f).transport = some i ∧
      reconnected.world.origin? i = some ⟨c, f⟩ ∧
      Subscriptions.ofRequests ((reconnected.world.sent i).filter (·.isExplicit f)) =
        (reconnected.line f).subscriptions := by
  have hopen (f : Feed) : (reconnected.line f).phase = .open := by cases f <;> decide +kernel
  exact ⟨hopen, fun f => (mirrored 0 .usual none 0 1 _).1 f (hopen f)⟩

end Session

end Client

end MarketFeed
