import MarketFeed.Proofs.Client.Keeping
import MarketFeed.Proofs.Subscriptions

/-!
# Client.Bookkeeping — what is recorded when transports refuse

A call records its channels before it asks anything of a transport, and asking changes no
subscriptions. But the calls go from the market feed to the user feed and end with the
first refusal. So the user feed's part is recorded only if the market feed is granted what
the call asks for:

> `booked_iff`: whatever transports refuse, subscribing records all that it names, and
> unsubscribing takes all of it away, exactly if the market feed is granted the call, or
> the user feed has nothing to change.

What is asked for is told from the plan of refusals: a request for each channel if the
feed is open (`Grants`), one new transport if it is down (`GrantsOpening`). The plan is
arbitrary, and so is the state in which the call is made; only a client that is shutting
down is left out, which refuses every call (`ensureRunning`).

Both calls have the same form, two parts of which the second is made only if the first
succeeds, so the theorem is one about such calls (`settled_iff`), with the two facts about
each part put in: whether it succeeds (`subscribeLine_ok_iff`, `unsubscribeLine_ok_iff`),
and what it makes of the subscriptions (`subscriptions_subscribeLine`,
`subscriptions_unsubscribeLine`). On two clients, one refused a transport and the other a
request, something that was named is not recorded (`not_booked_refused`).
-/

namespace MarketFeed.Client

namespace Session

variable {f g : Feed} {s : Session}

/-! ## Refusals -/

/-- That a feed can send so many requests. -/
def Grants (s : Session) (f : Feed) (requests : Nat) : Prop :=
  (0 < requests → (s.line f).transport.isSome) ∧
    ∀ k < requests, s.world.plan.refusesSend (s.world.sends + k) = false

/-- That the next transport is created and opened. -/
def GrantsOpening (s : Session) : Prop :=
  s.world.plan.refusesCreate s.world.creations = false ∧ s.world.plan.refusesOpen s.world.creations = false

private theorem grants_zero : s.Grants f 0 :=
  ⟨fun h => absurd h (Nat.lt_irrefl 0), fun k hk => absurd hk (Nat.not_lt_zero k)⟩

/-- A request is sent if there is a transport that does not refuse it. -/
theorem send_ok_iff (f : Feed) (kind : RequestKind) (channel : Channel) (products : List Product) (s : Session) :
    (send f kind channel products s).1 = .ok () ↔ s.Grants f 1 := by
  unfold send Grants
  split
  next hnone => simp [hnone]
  next i hi =>
    unfold World.send
    cases hrefused : s.world.plan.refusesSend s.world.sends <;> simp [hi, hrefused]

/-- What will be refused is not changed by sending. -/
theorem plan_send (f : Feed) (kind : RequestKind) (channel : Channel) (products : List Product) (s : Session) :
    (send f kind channel products s).2.world.plan = s.world.plan := by
  unfold send
  split
  next => rfl
  next => exact World.plan_send _ _ _

/-- An attempt counts, whatever comes of it. -/
theorem sends_send (h : (s.line f).transport.isSome) (kind : RequestKind) (channel : Channel)
    (products : List Product) : (send f kind channel products s).2.world.sends = s.world.sends + 1 := by
  obtain ⟨i, hi⟩ := Option.isSome_iff_exists.1 h
  unfold send
  rw [hi]
  unfold World.send
  simp only
  split <;> rfl

private theorem grants_succ_iff (kind : RequestKind) (channel : Channel) (products : List Product) (n : Nat) :
    s.Grants f (n + 1) ↔ s.Grants f 1 ∧ (send f kind channel products s).2.Grants f n := by
  have hline : (send f kind channel products s).2.line f = s.line f := by
    rw [line, line, client_send]
  unfold Grants
  rw [hline, plan_send]
  constructor
  · rintro ⟨hsome, hsends⟩
    have hi := hsome (Nat.succ_pos n)
    rw [sends_send hi]
    refine ⟨⟨fun _ => hi, fun k hk => hsends k (by omega)⟩, fun _ => hi, ?_⟩
    intro k hk
    rw [Nat.add_assoc, Nat.add_comm 1 k]
    exact hsends (k + 1) (by omega)
  · rintro ⟨⟨hsome, hfirst⟩, -, hrest⟩
    have hi := hsome Nat.one_pos
    rw [sends_send hi] at hrest
    refine ⟨fun _ => hi, ?_⟩
    intro k hk
    cases k with
    | zero => exact hfirst 0 Nat.one_pos
    | succ k =>
      rw [← Nat.add_assoc, Nat.add_right_comm]
      exact hrest k (by omega)

/-- Requests for channels in turn all have to be sent. -/
theorem sendEach_ok_iff (f : Feed) (kind : RequestKind) (products : List Product) (channels : List Channel)
    (s : Session) : (sendEach f kind products channels s).1 = .ok () ↔ s.Grants f channels.length := by
  induction channels generalizing s with
  | nil =>
    exact ⟨fun _ => grants_zero, fun _ => rfl⟩
  | cons channel rest ih =>
    have hfirst := send_ok_iff f kind channel products s
    have hrest := ih (send f kind channel products s).2
    rw [List.length_cons, grants_succ_iff kind channel products, ← hfirst, ← hrest, sendEach]
    generalize send f kind channel products s = r
    obtain ⟨result, s'⟩ := r
    cases result with
    | ok => exact ⟨fun h => ⟨rfl, h⟩, And.right⟩
    | error failure =>
      refine ⟨?_, ?_⟩
      · intro h
        cases h
      · rintro ⟨h, -⟩
        cases h

/-- A feed is opened if its transport is created and can be opened. -/
theorem openLine_ok_iff (f : Feed) (s : Session) : (openLine f s).1 = .ok () ↔ s.GrantsOpening := by
  have hclose : (s.closeTransport f).world.plan = s.world.plan ∧
      (s.closeTransport f).world.creations = s.world.creations := by
    unfold closeTransport
    split
    next i _ => exact ⟨World.plan_close _ _, by unfold World.close; split <;> rfl⟩
    next => exact ⟨rfl, rfl⟩
  unfold openLine GrantsOpening
  rw [← hclose.1, ← hclose.2]
  generalize s.closeTransport f = s₁
  unfold World.connect
  simp only
  cases s₁.world.plan.refusesCreate s₁.world.creations <;>
    cases s₁.world.plan.refusesOpen s₁.world.creations <;> simp

/-! ## Subscriptions -/

/-- What is subscribed on a feed. -/
def subscriptions (s : Session) (f : Feed) : Subscriptions := (s.line f).subscriptions

private theorem subscriptions_setLine (s : Session) (f g : Feed) (l : Line) :
    (s.setLine f l).subscriptions g = if g = f then l.subscriptions else s.subscriptions g := by
  unfold subscriptions
  split
  next h =>
    subst h
    rw [line_setLine]
  next h => rw [line_setLine_of_ne s l h]

private theorem subscriptions_sendEach (f : Feed) (kind : RequestKind) (products : List Product)
    (channels : List Channel)
    (s : Session) (g : Feed) : (sendEach f kind products channels s).2.subscriptions g = s.subscriptions g := by
  induction channels generalizing s with
  | nil => rfl
  | cons channel rest ih =>
    have hclient := client_send f kind channel products s
    rw [sendEach]
    generalize send f kind channel products s = r at *
    obtain ⟨result, s'⟩ := r
    have hsame : s'.subscriptions g = s.subscriptions g := by
      rw [subscriptions, line, hclient]
      rfl
    cases result with
    | ok => exact (ih s').trans hsame
    | error failure => exact hsame

private theorem subscriptions_openLine (f : Feed) (s : Session) (g : Feed) :
    (openLine f s).2.subscriptions g = s.subscriptions g := by
  have hsame (w : World) : (Session.mk (s.closeTransport f).client w).subscriptions g = s.subscriptions g := by
    rw [client_closeTransport]
    rfl
  unfold openLine
  simp only
  split <;>
  · rw [subscriptions_setLine]
    split
    next h =>
      subst h
      exact hsame s.world
    next => exact hsame _

private theorem subscriptions_onSubscriptions (s : Session) (f g : Feed) (change : Subscriptions → Subscriptions) :
    (s.onSubscriptions f change).subscriptions g =
      if g = f then change (s.subscriptions f) else s.subscriptions g :=
  subscriptions_setLine s f g _

/-! ## Feeds -/

variable (products : List Product) (channels : List Channel)

/-- That the market feed is granted what subscribing asks for: the requests if it is open, a transport if it is down. -/
def SubscribeGranted (channels : List Channel) (s : Session) : Prop :=
  owned .market channels ≠ [] →
    match (s.line .market).phase with
    | .open => s.Grants .market (owned .market channels).length
    | .closed | .errored => s.GrantsOpening
    | .connecting | .closing => True

/-- That the market feed is granted what unsubscribing asks for. -/
def UnsubscribeGranted (channels : List Channel) (s : Session) : Prop :=
  (s.line .market).phase = .open → s.Grants .market (owned .market channels).length

private theorem line_onSubscriptions (s : Session) (f : Feed) (change : Subscriptions → Subscriptions) :
    (s.onSubscriptions f change).line f = { s.line f with subscriptions := change (s.line f).subscriptions } :=
  line_setLine s f _

/-- Recording asks nothing of a transport. -/
theorem grants_onSubscriptions (s : Session) (f : Feed) (change : Subscriptions → Subscriptions) (n : Nat) :
    (s.onSubscriptions f change).Grants f n ↔ s.Grants f n := by
  unfold Grants
  rw [line_onSubscriptions]
  rfl

/-- Subscribing on the market feed succeeds if it is granted what it asks for. -/
theorem subscribeLine_ok_iff (s : Session) :
    (subscribeLine products channels .market s).1 = .ok () ↔ s.SubscribeGranted channels := by
  unfold subscribeLine SubscribeGranted
  split
  next hnone => exact ⟨fun _ h => absurd hnone h, fun _ => rfl⟩
  next hsome =>
    simp only
    generalize hs : s.onSubscriptions .market _ = s₁
    have hphase : (s₁.line .market).phase = (s.line .market).phase := by rw [← hs, line_onSubscriptions]
    have hgrants (n : Nat) : s₁.Grants .market n ↔ s.Grants .market n := hs ▸ grants_onSubscriptions s .market _ n
    have hopening : s₁.GrantsOpening ↔ s.GrantsOpening := by rw [← hs]; rfl
    rw [← hphase]
    cases (s₁.line .market).phase with
    | «open» =>
      rw [sendEach_ok_iff, hgrants]
      exact ⟨fun h _ => h, fun h => h hsome⟩
    | connecting => exact ⟨fun _ _ => trivial, fun _ => rfl⟩
    | closing => exact ⟨fun _ _ => trivial, fun _ => rfl⟩
    | closed =>
      rw [openLine_ok_iff, hopening]
      exact ⟨fun h _ => h, fun h => h hsome⟩
    | errored =>
      rw [openLine_ok_iff, hopening]
      exact ⟨fun h _ => h, fun h => h hsome⟩

/-- Subscribing adds the channels of the feed, whatever is refused. -/
theorem subscriptions_subscribeLine (f : Feed) (s : Session) (g : Feed) :
    (subscribeLine products channels f s).2.subscriptions g =
      if g = f then (owned f channels).foldl (fun set c => (set.add c products).1) (s.subscriptions f)
      else s.subscriptions g := by
  unfold subscribeLine
  split
  next hnone =>
    rw [hnone]
    split
    next h => rw [h]; rfl
    next => rfl
  next =>
    simp only
    generalize hs : s.onSubscriptions f _ = s₁
    have hset : s₁.subscriptions g = _ := hs ▸ subscriptions_onSubscriptions s f g _
    split
    · rw [subscriptions_sendEach, hset]
    · exact hset
    · exact hset
    · rw [subscriptions_openLine, hset]
    · rw [subscriptions_openLine, hset]

/-- Unsubscribing on the market feed succeeds if it is granted what it asks for. -/
theorem unsubscribeLine_ok_iff (s : Session) :
    (unsubscribeLine products channels .market s).1 = .ok () ↔ s.UnsubscribeGranted channels := by
  unfold unsubscribeLine UnsubscribeGranted
  split
  next hnone =>
    rw [hnone]
    exact ⟨fun _ _ => grants_zero, fun _ => rfl⟩
  next =>
    simp only
    generalize hs : s.onSubscriptions .market _ = s₁
    have hphase : (s₁.line .market).phase = (s.line .market).phase := by rw [← hs, line_onSubscriptions]
    have hgrants (n : Nat) : s₁.Grants .market n ↔ s.Grants .market n := hs ▸ grants_onSubscriptions s .market _ n
    rw [← hphase]
    split
    next hopen =>
      have hsent := sendEach_ok_iff .market .unsubscribe products (owned .market channels) s₁
      rw [hgrants] at hsent
      generalize sendEach .market .unsubscribe products (owned .market channels) s₁ = r at *
      obtain ⟨result, s₂⟩ := r
      cases result with
      | ok => exact ⟨fun _ _ => hsent.1 rfl, fun _ => rfl⟩
      | error failure =>
        refine ⟨?_, fun h => nomatch hsent.2 (h hopen)⟩
        intro h
        cases h
    next hother => exact ⟨fun _ h => absurd h hother, fun _ => rfl⟩

/-- Unsubscribing removes the channels of the feed, whatever is refused. -/
theorem subscriptions_unsubscribeLine (f : Feed) (s : Session) (g : Feed) :
    (unsubscribeLine products channels f s).2.subscriptions g =
      if g = f then (owned f channels).foldl (fun set c => set.remove c products) (s.subscriptions f)
      else s.subscriptions g := by
  unfold unsubscribeLine
  split
  next hnone =>
    rw [hnone]
    split
    next h => rw [h]; rfl
    next => rfl
  next =>
    simp only
    -- requests change no set, so it is the same whichever of them fails
    generalize hs : s.onSubscriptions f _ = s₁
    have hset : s₁.subscriptions g = _ := hs ▸ subscriptions_onSubscriptions s f g _
    split
    next =>
      have hsent := subscriptions_sendEach f .unsubscribe products (owned f channels) s₁ g
      generalize sendEach f .unsubscribe products (owned f channels) s₁ = r at *
      obtain ⟨result, s₂⟩ := r
      rw [← hset, ← hsent]
      cases result with
      | error failure => rfl
      | ok =>
        show (if f = .user ∧ (s₂.line f).subscriptions.isEmpty then
          send f .unsubscribe .heartbeats [] s₂ else (.ok (), s₂)).2.subscriptions g = _
        split
        next =>
          rw [subscriptions, line, client_send]
          rfl
        next => rfl
    next => exact hset

/-! ## Calls -/

private theorem mem_owned_iff {c : Channel} : c ∈ owned f channels ↔ c ∈ channels ∧ c.feed = f := by
  unfold owned
  rw [List.mem_filter, decide_eq_true_iff]

/-- A call that goes from the market feed to the user feed, with what it changes on each of them and what then holds of
its channels: it holds of all of them exactly if the market feed grants the call, or if it held on the user feed. -/
theorem settled_iff (P : Subscriptions → Channel → Prop) {part : Feed → Session → Result}
    {change : Feed → Subscriptions → Subscriptions}
    (hpart : ∀ f s g, (part f s).2.subscriptions g = if g = f then change f (s.subscriptions f) else s.subscriptions g)
    (hchange : ∀ f set, ∀ c ∈ owned f channels, P (change f set) c) (s : Session) :
    (∀ c ∈ channels, P ((andThen (part .market s) (part .user)).2.subscriptions c.feed) c) ↔
      (part .market s).1 = .ok () ∨ ∀ c ∈ owned .user channels, P (s.subscriptions .user) c := by
  have hmarket := hpart .market s
  have hchanged {f : Feed} (set : Subscriptions) {c : Channel} (hc : c ∈ channels) (hfeed : c.feed = f) :
      P (change f set) c := hchange f set c ((mem_owned_iff channels).2 ⟨hc, hfeed⟩)
  generalize part .market s = r at *
  obtain ⟨result, s₁⟩ := r
  simp only at hmarket
  cases result with
  | ok =>
    refine ⟨fun _ => Or.inl rfl, fun _ => ?_⟩
    intro c hc
    show P ((part .user s₁).2.subscriptions c.feed) c
    rw [hpart]
    cases hfeed : c.feed with
    | market =>
      show P (s₁.subscriptions .market) c
      rw [hmarket]
      exact hchanged _ hc hfeed
    | user => exact hchanged _ hc hfeed
  | error failure =>
    -- the user feed is as it was
    show (∀ c ∈ channels, P (s₁.subscriptions c.feed) c) ↔ _
    constructor
    · intro h
      refine Or.inr fun c hc => ?_
      obtain ⟨hmem, hfeed⟩ := (mem_owned_iff channels).1 hc
      have hafter := h c hmem
      rw [hmarket, hfeed] at hafter
      exact hafter
    · rintro (hok | huser)
      · cases hok
      · intro c hc
        rw [hmarket]
        cases hfeed : c.feed with
        | market => exact hchanged _ hc hfeed
        | user => exact huser c ((mem_owned_iff channels).2 ⟨hc, hfeed⟩)

/-- That every named channel has its products recorded once a call to subscribe has returned. -/
def Subscribes (products : List Product) (channels : List Channel) (s : Session) : Prop :=
  ∀ c ∈ channels, ((s.subscribe products channels).2.subscriptions c.feed).Records products c

/-- That no named channel has them once a call to unsubscribe has returned. -/
def Unsubscribes (products : List Product) (channels : List Channel) (s : Session) : Prop :=
  ∀ c ∈ channels, ((s.unsubscribe products channels).2.subscriptions c.feed).Lacks products c

/-- Whatever transports refuse, a call does to the recorded subscriptions what it says unless the market feed is refused
something and the user feed has something to change. -/
theorem booked_iff (h : s.client.shuttingDown = false) :
    (s.Subscribes products channels ↔ s.SubscribeGranted channels ∨
      ∀ c ∈ owned .user channels, (s.subscriptions .user).Records products c) ∧
    (s.Unsubscribes products channels ↔ s.UnsubscribeGranted channels ∨
      ∀ c ∈ owned .user channels, (s.subscriptions .user).Lacks products c) := by
  refine ⟨?_, ?_⟩
  · have hrunning : s.subscribe products channels = andThen (subscribeLine products channels .market s)
        (subscribeLine products channels .user) := by
      unfold subscribe ensureRunning
      rw [h]
      rfl
    unfold Subscribes
    rw [hrunning, ← subscribeLine_ok_iff products channels s]
    exact settled_iff channels (fun set c => set.Records products c) (subscriptions_subscribeLine products channels)
      (fun _ set _ hc => Subscriptions.records_foldl_add hc set) s
  · rw [← unsubscribeLine_ok_iff products channels s]
    exact settled_iff channels (fun set c => set.Lacks products c) (subscriptions_unsubscribeLine products channels)
      (fun _ set _ hc => Subscriptions.lacks_foldl_remove hc set) s

/-- A client whose second transport is refused, with the user channel subscribed on the first. -/
def refusedTransport : Session :=
  (fresh ⟨fun n => n = 1, fun _ => false, fun _ => false⟩ 0 .usual none 0 1).after
    [.subscribe [⟨"BTC-USD"⟩] [.user]]

/-- A client whose requests are refused, with the market feed open. -/
def refusedRequests : Session :=
  (fresh ⟨fun _ => false, fun _ => false, fun _ => true⟩ 0 .usual none 0 1).after
    [.subscribe [⟨"BTC-USD"⟩] [.level2, .user], .callback (.connected ⟨⟨0, 1⟩, .market⟩)]

/-- A client that gets no second transport is one to which the law applies. -/
theorem booked_iff_refused : refusedTransport.client.shuttingDown = false ∧
    (refusedTransport.Subscribes [⟨"BTC-USD"⟩] [.level2, .user] ↔
      refusedTransport.SubscribeGranted [.level2, .user] ∨
        ∀ c ∈ owned .user [.level2, .user],
          (refusedTransport.subscriptions .user).Records [⟨"BTC-USD"⟩] c) ∧
    (refusedTransport.Unsubscribes [⟨"BTC-USD"⟩] [.level2, .user] ↔
      refusedTransport.UnsubscribeGranted [.level2, .user] ∨
        ∀ c ∈ owned .user [.level2, .user], (refusedTransport.subscriptions .user).Lacks [⟨"BTC-USD"⟩] c) := by
  have hrunning : refusedTransport.client.shuttingDown = false := by decide +kernel
  exact ⟨hrunning, booked_iff [⟨"BTC-USD"⟩] [.level2, .user] hrunning⟩

/-- The user feed's part is lost: nothing more is recorded there when the market feed gets no transport, and nothing is
taken away when it cannot send. -/
theorem not_booked_refused :
    (refusedTransport.client.shuttingDown = false ∧
      ¬ refusedTransport.Subscribes [⟨"BTC-USD"⟩] [.level2, .futuresBalanceSummary]) ∧
    refusedRequests.client.shuttingDown = false ∧ ¬ refusedRequests.Unsubscribes [] [.level2, .user] := by
  unfold Subscribes Unsubscribes
  decide +kernel

end Session

end MarketFeed.Client
