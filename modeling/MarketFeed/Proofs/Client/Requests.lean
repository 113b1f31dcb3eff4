import MarketFeed.Proofs.Client.Feeds

/-!
# Client.Requests — what was sent on the current connection

The venue answers what is sent on the transport that a feed has, so the requests on it are
what a feed has asked for since it was opened (`Session.requests`). As long as transports
refuse nothing, an operation adds exactly its own requests to those:

> `send_granted`, `sendEach_granted`, `subscribeAll_granted`: requests are sent in their
> order, with the token of the feed if it has one, and nothing else of the client changes.
>
> `openLine_granted`: a feed that is opened anew is on its way, with its subscriptions and
> without any requests.

What concerns one feed adds nothing to the requests of the other (`Concerns.requests`).

Two modules build on these views. `Client.KeepAlive` looks at the requests for heartbeats
on the user feed, `Client.Mirror` at the others and what they come to at the venue. Where
a request may be refused, `Client.Bookkeeping` says which are sent.
-/

namespace MarketFeed.Client

namespace Session

variable {f g : Feed} {s s' : Session}

/-- The requests that were sent on the transport of a feed. -/
def requests (s : Session) (f : Feed) : List Request :=
  match (s.line f).transport with
  | none => []
  | some i => s.world.sent i

/-- What becomes of a line is the client's affair. -/
theorem line_congr (h : s'.client = s.client) (g : Feed) : s'.line g = s.line g := by
  rw [line, line, h]

/-- The requests of a feed are those on its transport. -/
theorem requests_of_transport {i : Nat} (h : (s.line f).transport = some i) : s.requests f = s.world.sent i := by
  unfold requests
  rw [h]

/-- What concerns a feed sends nothing for the other. -/
theorem Concerns.requests (h : Concerns f s s') (hg : g ≠ f) : s'.requests g = s.requests g := by
  unfold Session.requests
  rw [h.line g hg]
  split
  next => rfl
  next i hi => exact h.sent g i hg hi

/-- A line that keeps its transport keeps its requests. -/
theorem requests_setLine {l : Line} (h : l.transport = (s.line f).transport) :
    (s.setLine f l).requests f = s.requests f := by
  unfold requests
  rw [line_setLine, h]
  rfl

/-- A request is sent and added to those before it. -/
theorem send_granted (hw : s.Wired) (hplan : s.world.plan = .smooth) (hi : (s.line f).transport.isSome)
    (kind : RequestKind) (channel : Channel) (products : List Product) :
    ∃ s', send f kind channel products s = (.ok (), s') ∧ s'.client = s.client ∧
      s'.requests f = s.requests f ++ [.ofChannel kind channel products (s.client.tokenFor f)] := by
  obtain ⟨i, hi⟩ := Option.isSome_iff_exists.1 hi
  obtain ⟨o, ho, -⟩ := hw f i hi
  have hok := World.send_smooth hplan i (.ofChannel kind channel products (s.client.tokenFor f))
  have hsent := World.sent_send hplan ho (.ofChannel kind channel products (s.client.tokenFor f))
  unfold send
  rw [hi]
  simp only
  generalize s.world.send i (.ofChannel kind channel products (s.client.tokenFor f)) = answer at *
  obtain ⟨result, w⟩ := answer
  simp only at hok hsent ⊢
  subst hok
  refine ⟨_, rfl, rfl, ?_⟩
  have hi' : ((Session.mk s.client w).line f).transport = some i := hi
  rw [requests_of_transport hi', requests_of_transport hi]
  exact hsent

/-- Requests for channels in turn are all sent. -/
theorem sendEach_granted (hw : s.Wired) (hplan : s.world.plan = .smooth) (hi : (s.line f).transport.isSome)
    (kind : RequestKind) (products : List Product) (channels : List Channel) :
    ∃ s', sendEach f kind products channels s = (.ok (), s') ∧ s'.client = s.client ∧
      s'.requests f = s.requests f ++
        channels.map fun c => .ofChannel kind c products (s.client.tokenFor f) := by
  induction channels generalizing s with
  | nil => exact ⟨s, rfl, rfl, (List.append_nil _).symm⟩
  | cons channel rest ih =>
    have hconcerns := concerns_send (f := f) hw kind channel products
    obtain ⟨s₁, hsend, hclient, hrequests⟩ := send_granted hw hplan hi kind channel products
    rw [hsend] at hconcerns
    obtain ⟨s₂, hrest, hclient₂, hrequests₂⟩ := ih hconcerns.wired (hconcerns.plan.trans hplan)
      (by rw [line_congr hclient]; exact hi)
    refine ⟨s₂, ?_, hclient₂.trans hclient, ?_⟩
    · rw [sendEach, hsend]
      exact hrest
    · rw [hrequests₂, hrequests, hclient, List.append_assoc]
      rfl

/-- So are subscriptions, each with its own products. -/
theorem subscribeAll_granted (hw : s.Wired) (hplan : s.world.plan = .smooth) (hi : (s.line f).transport.isSome)
    (subscriptions : List (Channel × List Product)) :
    (subscribeAll f subscriptions s).client = s.client ∧
      (subscribeAll f subscriptions s).requests f = s.requests f ++
        subscriptions.map fun e => .ofChannel .subscribe e.1 e.2 (s.client.tokenFor f) := by
  induction subscriptions generalizing s with
  | nil => exact ⟨rfl, (List.append_nil _).symm⟩
  | cons first rest ih =>
    obtain ⟨channel, products⟩ := first
    have hconcerns := concerns_send (f := f) hw .subscribe channel products
    obtain ⟨s₁, hsend, hclient, hrequests⟩ := send_granted hw hplan hi .subscribe channel products
    rw [hsend] at hconcerns
    obtain ⟨hclient₂, hrequests₂⟩ := ih hconcerns.wired (hconcerns.plan.trans hplan)
      (by rw [line_congr hclient]; exact hi)
    rw [subscribeAll, hsend]
    refine ⟨hclient₂.trans hclient, ?_⟩
    rw [hrequests₂, hrequests, hclient, List.append_assoc]
    rfl

/-- A feed is opened with a new transport, made for the connection that the feed then has. -/
theorem exists_openLine_eq (hplan : s.world.plan = .smooth) (f : Feed) :
    ∃ c url, (openLine f s).2.world = ((s.closeTransport f).world.connect s.client.id ⟨c, f⟩ url).2 ∧
      (openLine f s).2.line f = { s.line f with
        phase := .connecting, generation := c.generation, connection := some c,
        transport := some (s.closeTransport f).world.links.length } := by
  have hclient := client_closeTransport f s
  have hsame := line_congr hclient f
  have hclose : (s.closeTransport f).world.plan = .smooth := by
    unfold closeTransport
    split
    · exact (World.plan_close _ _).trans hplan
    · exact hplan
  unfold openLine
  simp only
  rw [hsame, hclient]
  generalize s.closeTransport f = s₁ at *
  have hok (o : Origin) (url : String) := World.connect_smooth hclose s.client.id o url
  refine ⟨⟨(s.line f).slot, (s.line f).generation + 1⟩, s.client.settings.url f, ?_⟩
  have hgranted := hok ⟨⟨(s.line f).slot, (s.line f).generation + 1⟩, f⟩ (s.client.settings.url f)
  generalize s₁.world.connect _ _ _ = opened at *
  obtain ⟨result, w⟩ := opened
  simp only at hgranted
  subst hgranted
  exact ⟨rfl, line_setLine _ _ _⟩

/-- It is on its way then, with its subscriptions and without requests. -/
theorem openLine_granted (hplan : s.world.plan = .smooth) (f : Feed) :
    ((openLine f s).2.line f).phase = .connecting ∧
      ((openLine f s).2.line f).subscriptions = (s.line f).subscriptions ∧ (openLine f s).2.requests f = [] := by
  obtain ⟨c, url, hworld, hline⟩ := exists_openLine_eq hplan f
  refine ⟨by rw [hline], by rw [hline], ?_⟩
  rw [requests_of_transport (congrArg Line.transport hline), hworld]
  exact World.sent_connect_of_none (World.origin?_length _)

end Session

end MarketFeed.Client
