import MarketFeed.Proofs.Client.Acts

/-!
# Client.Ownership — whose transports there are

A stage tells the client of a transport what this transport reports, by the number that
the transport was created with (`Stage.signal`). That is the right client because a client
asks for transports under its own number only, and keeps that number. As long as a client
acts upon a world alone, all transports are therefore its own, whatever it does and
whatever they refuse:

> `Act.owned_apply`: acts leave all transports of a world with their client.

The events are covered by `Client.Keeping`: of the four steps only opening a feed creates
a transport, and it is created for the client that opens the feed
(`World.mem_owners_connect`). What is left are the parts of a shutdown, which create none.

The two modules in which a stage is compared with a run of one client need this. In
`Client.Isolation` it ties the callbacks that a stage's transports make to the acts of the
client; in `Client.Shutdown` it makes those who hang up transports of the client that
shuts down.
-/

namespace MarketFeed.Client

namespace Session

/-- That a client has a number, and all transports of its world are its own. -/
structure Owned (k : Nat) (s : Session) : Prop where
  id : s.client.id = k
  owners : ∀ n ∈ s.world.owners, n = k

variable {k : Nat} {s s' : Session}

/-- Ownership looks at the number of the client and the clients of the transports only. -/
theorem Owned.congr (h : s.Owned k) (hid : s'.client.id = s.client.id) (howners : s'.world.owners = s.world.owners) :
    s'.Owned k :=
  ⟨hid.trans h.id, by rw [howners]; exact h.owners⟩

/-- What no feed notices creates no transport. -/
theorem Owned.aside (h : s.Owned k) (ha : Aside s s') : s'.Owned k := h.congr ha.id ha.owners

/-- A line that changes creates no transport. -/
theorem Owned.setLine (h : s.Owned k) (f : Feed) (l : Line) : (s.setLine f l).Owned k :=
  h.congr (by cases f <;> rfl) rfl

/-- The transport that a feed is opened with is one of its client. -/
theorem Owned.opening (h : s.Owned k) (f : Feed) : (openLine f s).2.Owned k := by
  have hclose := h.aside (aside_closeTransport f s)
  obtain ⟨url, hopen⟩ := openLine_eq f s
  have hworld : Owned k { s.closeTransport f with
      world := ((s.closeTransport f).world.connect s.client.id ⟨(s.line f).next, f⟩ url).2 } := by
    refine ⟨hclose.id, ?_⟩
    intro n hn
    rcases World.mem_owners_connect hn with hn | hn
    · exact hclose.owners n hn
    · exact hn.trans h.id
  rw [hopen]
  exact hworld.setLine f _

/-- A request creates no transport. -/
theorem Owned.sending (h : s.Owned k) (f : Feed) (kind : RequestKind) (channel : Channel) (products : List Product) :
    (send f kind channel products s).2.Owned k := by
  unfold send
  split
  · exact h
  · exact h.congr rfl (World.owners_send _ _ _)

private theorem keeping_owned (k : Nat) : Keeping (Owned k) where
  turn f _ h _ := h.setLine f _
  aside h ha := h.aside ha
  opening f h := h.opening f
  sending f kind channel products h := h.sending f kind channel products

/-- A new client has no transports, and so none that is not its own. -/
theorem owned_fresh (plan : Plan) (id : Nat) (settings : Settings) (credential : Option Credential)
    (market user : UInt32) : (fresh plan id settings credential market user).Owned id :=
  ⟨rfl, fun _ hn => absurd hn List.not_mem_nil⟩

end Session

open Session

/-- Whatever a client does, all transports remain its own. -/
theorem Act.owned_apply {k : Nat} {s : Session} (h : s.Owned k) (a : Act) : (a.apply s).Owned k := by
  have hkeeps := keeping_owned k
  cases a with
  | event e => exact hkeeps.apply h e
  | subscribing products channels f => exact hkeeps.subscribeLine products channels h f
  | unsubscribing products channels f => exact hkeeps.unsubscribeLine products channels h f
  | reconnecting f => exact hkeeps.opening f (h.setLine f _)
  | beginShutdown => exact h.congr rfl rfl
  | shut f =>
    simp only [apply]
    split
    next =>
      unfold shutLine
      simp only
      split
      · exact (h.setLine f _).aside (aside_closeTransport f _)
      · exact h.setLine f _
    next => exact h
  | settle f =>
    simp only [apply]
    split
    next =>
      unfold settleLine
      split
      · exact h
      · exact h.setLine f _
    next => exact h
  | stopLog => exact h.aside (aside_stopLog s)

/-- So they do after any number of acts. -/
theorem Session.Owned.perform {k : Nat} {s : Session} (h : s.Owned k) (acts : List Act) : (s.perform acts).Owned k := by
  induction acts generalizing s with
  | nil => exact h
  | cons a rest ih => exact ih (a.owned_apply h)

end MarketFeed.Client
