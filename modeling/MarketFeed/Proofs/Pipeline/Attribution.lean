import MarketFeed.Proofs.Pipeline.Interleaving
import MarketFeed.Proofs.Pipeline.Reporting

/-!
# Pipeline.Attribution — where a notice comes from

Every notice names the connection of the callback that caused it. The life of a
connection, gaps and unreadable messages are about the feed on which they arrived. What an
event of a message says has no feed of its own: it counts to the feed that serves the
channel of the message, as subscriptions do.

> `Intake.journal_attributed`: in every run, what is told is what is told of each callback
> in turn, and each notice was caused by its callback (`Notice.Attributed`); on a feed on
> which messages come that it serves, every notice is about the feed of its callback.

The two kinds of notices are told apart by their content (`Content.isEvent`). What an
event says has one of few topics, and the topic determines the feed
(`Topic.exists_channel`): of all channels whose messages have events, the user channel
alone is served by the user feed.

Nothing makes messages come on the right feed. A message of the user channel that comes on
the market feed still tells of orders on the user feed (`Intake.not_attributed_stray`), so
the feed of a notice can only be read as the feed of its callback under the condition that
messages are in their place (`Callback.InPlace`).
-/

namespace MarketFeed

open Pipeline

/-! ## Channels of messages -/

/-- The channel whose messages bear a name; levels come under a name that is not the one of requests. -/
def Channel.ofMessage? (name : String) : Option Channel :=
  if name = "l2_data" then some .level2 else ofName? name

namespace Callback

/-- The channel of the message that a callback brings, if it brings one that can be read. -/
def channel? (c : Callback) : Option Channel :=
  match c.signal, Envelope.read c.payload with
  | .data, .ok e => Channel.ofMessage? e.channel
  | _, _ => none

/-- That a message comes on the feed that serves its channel. -/
def InPlace (c : Callback) : Prop := ∀ channel, c.channel? = some channel → channel.feed = c.origin.feed

end Callback

namespace Pipeline

/-- Whether something was said by an event of a message. -/
def Content.isEvent : Content → Bool
  | event _ _ => true
  | _ => false

/-- That a notice was caused by a callback. -/
structure Notice.Attributed (c : Callback) (n : Notice) : Prop where
  connection : n.connection = c.origin.connection
  /-- What no event says is about the feed on which it arrived. -/
  own : n.content.isEvent = false → n.feed = c.origin.feed
  /-- What an event says is about the feed that serves its channel; only the user channel is about the user feed. -/
  said : n.content.isEvent = true → ∃ channel, c.channel? = some channel ∧ n.feed = channel.feed ∧
    (n.feed = .user ↔ channel = .user)

variable {c : Callback} {n : Notice}

private theorem Notice.attributed_own (hevent : n.content.isEvent = false)
    (hconnection : n.connection = c.origin.connection)
    (hfeed : n.feed = c.origin.feed) : n.Attributed c :=
  ⟨hconnection, fun _ => hfeed, fun h => absurd h (by rw [hevent]; exact Bool.false_ne_true)⟩

/-- A message in its place is told on the feed on which it arrived. -/
theorem Notice.Attributed.feed_eq (h : n.Attributed c) (hplace : c.InPlace) : n.feed = c.origin.feed := by
  cases hevent : n.content.isEvent with
  | false => exact h.own hevent
  | true =>
    obtain ⟨channel, hchannel, hfeed, -⟩ := h.said hevent
    rw [hfeed, hplace channel hchannel]

/-! ## Topics -/

/-- The feed that tells of a topic. -/
def Topic.feed (topic : Topic) : Feed := if topic = .account then .user else .market

/-- The channels whose messages have events. -/
theorem Topic.mem_of_isData {name : String} (h : (ofChannel name).isData = true) :
    name ∈ ["l2_data", "level2", "market_trades", "ticker", "ticker_batch", "candles", "status", "user"] := by
  unfold ofChannel at h
  grind [isData]

/-- They are served by the feed that tells of their topic, the user channel alone by the user feed. -/
theorem Topic.exists_channel {name : String} (h : (ofChannel name).isData = true) : ∃ channel,
    Channel.ofMessage? name = some channel ∧ (ofChannel name).feed = channel.feed ∧
      ((ofChannel name).feed = .user ↔ channel = .user) := by
  have hname := mem_of_isData h
  simp only [List.mem_cons, List.not_mem_nil, or_false] at hname
  rcases hname with rfl | rfl | rfl | rfl | rfl | rfl | rfl | rfl <;> exact ⟨_, rfl, by decide, by decide⟩

namespace Payload

private theorem feed_eq (p : Payload) : p.feed = p.topic.feed := by
  cases p <;> rfl

private theorem isData_topic (p : Payload) : p.topic.isData = true := by
  cases p <;> rfl

/-- What an event says has the topic of its message. -/
theorem topic_of_ofEvent {topic : Topic} {time : Int} {event : Json} {p : Payload}
    (h : ofEvent topic time event = .ok (some p)) : p.topic = topic := by
  rcases ofEvent_cases topic time event with ⟨-, hnone⟩ | ⟨-, ⟨failure, hfailure⟩ | ⟨q, hq, htopic, -⟩⟩
  · rw [hnone] at h
    cases h
  · rw [hfailure] at h
    cases h
  · obtain rfl := Option.some.inj (Except.ok.inj (h.symm.trans hq))
    exact htopic

end Payload

/-! ## The desk -/

namespace Desk

/-- What is told of events: what one of them says, or that one of them is malformed. -/
def Told (o : Origin) (topic : Topic) (n : Notice) : Prop :=
  n.connection = o.connection ∧ ((∃ reason, n.content = .malformed o.feed reason) ∨
    ∃ sequence p, n.content = .event sequence p ∧ p.topic = topic)

/-- All that is told of events is one of these. -/
theorem takeEvents_told (o : Origin) (topic : Topic) (time sequence : Int) (d : Desk) (events : List Json) :
    ∀ x ∈ (takeEvents o topic time sequence d events).deliveries, Told o topic x.notice := by
  induction events generalizing d with
  | nil => exact fun x hx => (List.not_mem_nil hx).elim
  | cons event rest ih =>
    cases hevent : Payload.ofEvent topic time event with
    | error failure =>
      rw [takeEvents, hevent]
      cases failure with
      | overflow => exact fun x hx => (List.not_mem_nil hx).elim
      | decode failure => exact List.forall_mem_singleton.2 ⟨rfl, Or.inl ⟨_, rfl⟩⟩
    | ok said =>
      cases said with
      | none =>
        rw [takeEvents_cons_none o topic time sequence hevent]
        exact ih d
      | some p =>
        obtain ⟨d', -, -, ⟨-, hstep⟩ | ⟨-, hstep⟩⟩ := takeEvents_cons_some o topic time sequence hevent d
        · rw [hstep]
          exact fun x hx => (List.not_mem_nil hx).elim
        · rw [hstep]
          exact List.forall_mem_cons.2 ⟨⟨rfl, Or.inr ⟨sequence, p, rfl, Payload.topic_of_ofEvent hevent⟩⟩, ih d'⟩

/-- What is told of the events of a message was caused by it. -/
theorem Told.attributed {e : Envelope} (h : Told c.origin (.ofChannel e.channel) n) (hsignal : c.signal = .data)
    (hread : Envelope.read c.payload = .ok e) : n.Attributed c := by
  have hchannel : c.channel? = Channel.ofMessage? e.channel := by
    unfold Callback.channel?
    rw [hsignal, hread]
  obtain ⟨connection, content⟩ := n
  obtain ⟨hconnection, ⟨reason, rfl⟩ | ⟨sequence, p, rfl, htopic⟩⟩ := h
  · exact Notice.attributed_own rfl hconnection rfl
  · refine ⟨hconnection, fun hevent => Bool.noConfusion hevent, fun _ => ?_⟩
    rw [hchannel]
    show ∃ channel : Channel, _ ∧ p.feed = channel.feed ∧ (p.feed = .user ↔ channel = .user)
    rw [p.feed_eq, htopic]
    exact Topic.exists_channel (htopic ▸ p.isData_topic)

/-- A gap is about the feed on which the message arrived. -/
theorem gapTold_attributed (d : Desk) (c : Callback) (number : Int) :
    ∀ x ∈ d.gapTold c.origin number, x.notice.Attributed c := by
  unfold gapTold
  split
  · exact fun x hx => (List.not_mem_nil hx).elim
  · exact List.forall_mem_singleton.2 (Notice.attributed_own rfl rfl rfl)

/-- So was all that is told of data. -/
theorem take_attributed (d : Desk) (hsignal : c.signal = .data) :
    ∀ x ∈ (d.take c.origin c.payload).deliveries, x.notice.Attributed c := by
  unfold take
  split
  next failure hread => exact List.forall_mem_singleton.2 (Notice.attributed_own rfl rfl rfl)
  next e hread =>
    obtain ⟨d', -, -, htake⟩ := exists_takeEnvelope_eq c.origin { d with tally := d.tally.message } e
    have hevents := htake e.events
    rw [hevents]
    refine List.forall_mem_append.2 ⟨gapTold_attributed _ c e.sequence, ?_⟩
    intro x hx
    exact (takeEvents_told c.origin (.ofChannel e.channel) e.time e.sequence d' e.events x hx).attributed hsignal hread

/-- Whatever the desk tells of a callback was caused by it. -/
theorem handle_attributed (d : Desk) (c : Callback) : ∀ x ∈ (d.handle c).deliveries, x.notice.Attributed c := by
  unfold handle
  split
  · exact List.forall_mem_singleton.2 (Notice.attributed_own rfl rfl rfl)
  · exact List.forall_mem_singleton.2 (Notice.attributed_own rfl rfl rfl)
  · exact List.forall_mem_singleton.2 (Notice.attributed_own rfl rfl rfl)
  next hsignal => exact d.take_attributed hsignal

end Desk

/-! ## The intake -/

namespace Intake

/-- What is told of a callback was caused by it, whether it is taken in or dropped. -/
theorem deliver_attributed (i : Intake) (c : Callback) : ∀ x ∈ (i.deliver c).deliveries, x.notice.Attributed c := by
  rcases haccept : i.roster.accept c.origin.connection with ⟨_ | _, roster⟩
  · rw [deliver_of_retired haccept]
    exact fun x hx => (List.not_mem_nil hx).elim
  · rw [deliver_of_admitted haccept]
    exact i.desk.handle_attributed c

/-- There is one report for each callback. -/
theorem callback_journal (cs : List Callback) (i : Intake) : (journal cs i).map (·.callback) = cs := by
  induction cs generalizing i with
  | nil => rfl
  | cons c rest ih => rw [journal, List.map_cons, ih]; rfl

/-- In every run, what is told is what is told of each callback in turn, and it was caused by that callback: it names
the connection, and unless an event of a message says it, the feed on which it arrived. An event is about the feed
that serves the channel of its message, which is the feed on which it arrived if the message comes on that feed. -/
theorem journal_attributed (cs : List Callback) (i : Intake) :
    (journal cs i).map (·.callback) = cs ∧
    (feed cs i).1.map (·.notice) = (journal cs i).flatMap (·.notices) ∧
    ∀ r ∈ journal cs i, ∀ n ∈ r.notices,
      n.Attributed r.callback ∧ (r.callback.InPlace → n.feed = r.callback.origin.feed) := by
  refine ⟨callback_journal cs i, notices_feed cs i, ?_⟩
  induction cs generalizing i with
  | nil => exact fun r hr => (List.not_mem_nil hr).elim
  | cons c rest ih =>
    refine List.forall_mem_cons.2 ⟨?_, ih (i.deliver c).state⟩
    refine List.forall_mem_map.2 fun x hx => ?_
    have hcaused := deliver_attributed i c x hx
    exact ⟨hcaused, hcaused.feed_eq⟩

/-- A message of the user channel on the market feed, with an update of no orders. -/
def stray : Callback := .data ⟨⟨0, 1⟩, .market⟩ <| String.toUTF8 (
    "\x7b\"channel\":\"user\",\"sequence_num\":0,\"events\":[\x7b\"type\":\"update\",\"orders\":[]\x7d]\x7d")
    |>.data.toList

/-- Orders that arrived on the market feed are told as if they had arrived on the user feed. -/
theorem not_attributed_stray : ¬ ∀ r ∈ journal [stray] .empty, ∀ n ∈ r.notices,
    n.connection = r.callback.origin.connection ∧ n.feed = r.callback.origin.feed := by
  decide +kernel

end Intake

end Pipeline

end MarketFeed
