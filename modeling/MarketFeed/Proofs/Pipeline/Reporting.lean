import Mathlib.Data.List.Forall2
import MarketFeed.Proofs.Pipeline.Events

/-!
# Pipeline.Reporting — what a message is told as

A message that cannot be read is told as `MalformedMessage` and changes nothing. Of any
other, first a gap in its numbers is told, then its events in turn, each with the books as
they are with its effect, and last, if one of them could not be read, that the message is
malformed:

> `Desk.told_of_finished`: unless a number gets out of range, a message that was read is
> told up to a cut, and books and sequence numbers are left as if it had ended there.

The cut is before the first event that has to be told but cannot be read (`Payload.Cuts`).
Events that say nothing are passed over on both sides of it: an event is told only if its
topic has events and its tag is `snapshot` or `update` (`Payload.isTold`). What is told of
it has the topic of the message and the tag of the event, whatever its form
(`Payload.ofEvent_cases`).

The events are taken one by one, so the proof is an induction on them with `Takes` as what
is said of a list: `Takes.pass` for an event that says nothing, `Takes.tell` for one that
is told, and the cut ends it. An event that changes several books is told once, with all
of them changed (`payloadsTold`).

What happens when a number does get out of range is in `Pipeline.Overflow`.
-/

namespace MarketFeed.Pipeline

open Decode

/-! ## Events that are told -/

namespace Payload

/-- Whether a payload is a snapshot or an update. -/
def kind : Payload → EventKind
  | levels k _ | trades k _ | tickers k _ _ | candles k _ _ | listings k _ _ => k
  | account _ _ _ => .snapshot
  | orders _ => .update

/-- The topic of messages with payloads of this form. -/
def topic : Payload → Topic
  | levels _ _ => .levels
  | trades _ _ => .trades
  | tickers _ _ _ => .tickers
  | candles _ _ _ => .candles
  | listings _ _ _ => .listings
  | account _ _ _ | orders _ => .account

/-- Whether an event has to be told: it is tagged as a snapshot or an update, and its topic has events. -/
def isTold (topic : Topic) (event : Json) : Bool := topic.isData && (kindOf? event).isSome

/-- Steps that come to something all came to something. -/
theorem exists_of_bind_eq_ok {α β : Type} {r : Except EventFailure α} {next : α → Except EventFailure β} {b : β}
    (h : (r >>= next) = .ok b) : ∃ a, r = .ok a ∧ next a = .ok b := by
  cases r with
  | error failure => cases h
  | ok a => exact ⟨a, rfl, h⟩

/-- An event about an account is told as a snapshot or as orders, by its tag. -/
theorem ofAccountEvent_form {kind : EventKind} {event : Json} {p : Payload} (h : ofAccountEvent kind event = .ok p) :
    p.topic = .account ∧ p.kind = kind := by
  unfold ofAccountEvent at h
  cases kind with
  | snapshot =>
    obtain ⟨orders, -, hpositions⟩ := exists_of_bind_eq_ok h
    obtain ⟨positions, -, hresult⟩ := exists_of_bind_eq_ok hpositions
    obtain rfl := Except.ok.inj hresult
    exact ⟨rfl, rfl⟩
  | update =>
    obtain ⟨orders, -, hresult⟩ := exists_of_bind_eq_ok h
    obtain rfl := Except.ok.inj hresult
    exact ⟨rfl, rfl⟩

/-- A reading that goes on to a payload of its form. -/
theorem reading_cases {α : Type} {topic : Topic} {kind : EventKind} {r : Except EventFailure α} {f : α → Payload}
    (hf : ∀ a, r = .ok a → (f a).topic = topic ∧ (f a).kind = kind) :
    (∃ failure, (r >>= fun a => .ok (some (f a))) = .error failure) ∨
      ∃ p, (r >>= fun a => .ok (some (f a))) = .ok (some p) ∧ p.topic = topic ∧ some kind = some p.kind := by
  cases r with
  | error failure => exact Or.inl ⟨failure, rfl⟩
  | ok a =>
    obtain ⟨htopic, hkind⟩ := hf a rfl
    exact Or.inr ⟨f a, rfl, htopic, congrArg some hkind.symm⟩

/-- An event that need not be told says nothing; any other cannot be read, or says something of the topic of its
message under its own tag. -/
theorem ofEvent_cases (topic : Topic) (time : Int) (event : Json) :
    (isTold topic event = false ∧ ofEvent topic time event = .ok none) ∨
    (isTold topic event = true ∧
      ((∃ failure, ofEvent topic time event = .error failure) ∨
        ∃ p, ofEvent topic time event = .ok (some p) ∧ p.topic = topic ∧ kindOf? event = some p.kind)) := by
  unfold isTold ofEvent
  cases hkind : kindOf? event with
  | none => exact Or.inl ⟨Bool.and_false _, rfl⟩
  | some kind =>
    simp only
    cases topic with
    | control => exact Or.inl ⟨rfl, rfl⟩
    | unknown => exact Or.inl ⟨rfl, rfl⟩
    | account => exact Or.inr ⟨rfl, reading_cases fun p hp => ofAccountEvent_form hp⟩
    | _ => exact Or.inr ⟨rfl, reading_cases fun _ _ => ⟨rfl, rfl⟩⟩

/-! ## Cutting -/

/-- That a list of events is cut before the first event that has to be told but cannot be read, if there is one; then
also why it cannot. -/
def Cuts (topic : Topic) (time : Int) (events front : List Json) (fault : Option Failure) : Prop :=
  (∀ v ∈ front, isTold topic v = true → ∃ p, ofEvent topic time v = .ok (some p)) ∧
    match fault with
    | none => events = front
    | some failure => ∃ v rest, events = front ++ v :: rest ∧ isTold topic v = true ∧
        ofEvent topic time v = .error (.decode failure)

variable {topic : Topic} {time : Int} {event : Json} {events front : List Json} {fault : Option Failure}

/-- An event in front of a cut that can be told, or need not be. -/
theorem Cuts.cons (h : Cuts topic time events front fault)
    (hevent : isTold topic event = true → ∃ p, ofEvent topic time event = .ok (some p)) :
    Cuts topic time (event :: events) (event :: front) fault := by
  refine ⟨?_, ?_⟩
  · intro v hv
    rcases List.mem_cons.1 hv with rfl | hv
    · exact hevent
    · exact h.1 v hv
  · cases fault with
    | none => exact congrArg (List.cons event) h.2
    | some failure =>
      obtain ⟨v, rest, rfl, hv⟩ := h.2
      exact ⟨v, rest, rfl, hv⟩

/-- In front of the cut every event that has to be told says one thing. -/
theorem Cuts.forall₂_said (h : Cuts topic time events front fault) :
    List.Forall₂ (fun v p => ofEvent topic time v = .ok (some p) ∧ p.topic = topic ∧ kindOf? v = some p.kind)
      (front.filter (isTold topic)) (said topic time front) := by
  obtain ⟨hread, -⟩ := h
  induction front with
  | nil => exact List.Forall₂.nil
  | cons event rest ih =>
    have hrest := ih fun v hv => hread v (List.mem_cons_of_mem event hv)
    rcases ofEvent_cases topic time event with ⟨htold, hevent⟩ | ⟨htold, hevent⟩
    · rw [List.filter_cons_of_neg (by rw [htold]; exact Bool.noConfusion), said_cons_none hevent]
      exact hrest
    · obtain ⟨p, hp⟩ := hread event List.mem_cons_self htold
      rcases hevent with ⟨failure, hfailure⟩ | ⟨q, hq, hform⟩
      · rw [hp] at hfailure
        cases hfailure
      · rw [List.filter_cons_of_pos htold, said_cons_some hq]
        exact List.Forall₂.cons ⟨hq, hform⟩ hrest

end Payload

namespace Desk

/-- Payloads are told in turn, each with the books as they are with its effect. -/
def payloadsTold (o : Origin) (sequence : Int) (bs : Books) (ps : List Payload) : List Delivery :=
  ps.mapIdx fun k p => ⟨⟨o.connection, .event sequence p⟩, Payload.applyAll (ps.take (k + 1)) bs⟩

/-- What cannot be read is told with the books as they are. -/
def faultTold (o : Origin) (bs : Books) (failure : Failure) : Delivery :=
  ⟨⟨o.connection, .malformed o.feed (FeedFailure.malformed failure).message⟩, bs⟩

/-- How a message that was read is told, and what it leaves. -/
structure Reports (d : Desk) (o : Origin) (e : Envelope) (r : Outcome Desk) (front : List Json)
    (fault : Option Failure) (payloads : List Payload) : Prop where
  cuts : Payload.Cuts (.ofChannel e.channel) e.time e.events front fault
  /-- One payload for each event in front of the cut that has to be told, of the same topic and tag. -/
  reads : List.Forall₂ (fun v p => Payload.ofEvent (.ofChannel e.channel) e.time v = .ok (some p) ∧
    p.topic = .ofChannel e.channel ∧ Payload.kindOf? v = some p.kind)
    (front.filter (Payload.isTold (.ofChannel e.channel))) payloads
  deliveries : r.deliveries = d.gapTold o e.sequence ++ payloadsTold o e.sequence d.books payloads ++
    (fault.map (faultTold o (Payload.applyAll payloads d.books))).toList
  books : r.state.books = Payload.applyAll payloads d.books
  continuity : r.state.continuity = (d.continuity.check o e.sequence).2

/-- The first payload is told with its own effect, the others from there. -/
theorem payloadsTold_cons (o : Origin) (sequence : Int) (bs : Books) (p : Payload) (ps : List Payload) :
    payloadsTold o sequence bs (p :: ps) =
      ⟨⟨o.connection, .event sequence p⟩, (p.applyTo bs).2⟩ :: payloadsTold o sequence (p.applyTo bs).2 ps := by
  unfold payloadsTold
  rw [List.mapIdx_cons]
  rfl

/-- What taking events comes to, unless a number gets out of range. -/
structure Takes (o : Origin) (topic : Topic) (time sequence : Int) (d : Desk) (front : List Json)
    (fault : Option Failure) (r : Outcome Desk) : Prop where
  ending : r.ending = .finished
  deliveries : r.deliveries = payloadsTold o sequence d.books (Payload.said topic time front) ++
    (fault.map (faultTold o (Payload.applyAll (Payload.said topic time front) d.books))).toList
  books : r.state.books = Payload.applyAll (Payload.said topic time front) d.books
  continuity : r.state.continuity = d.continuity

/-- An event that says nothing makes no difference. -/
theorem Takes.pass {o : Origin} {topic : Topic} {time sequence : Int} {d : Desk} {event : Json} {front : List Json}
    {fault : Option Failure} {r : Outcome Desk} (h : Takes o topic time sequence d front fault r)
    (hevent : Payload.ofEvent topic time event = .ok none) :
    Takes o topic time sequence d (event :: front) fault r := by
  obtain ⟨hending, hdeliveries, hbooks, hcontinuity⟩ := h
  refine ⟨hending, ?_, ?_, hcontinuity⟩
  · rw [Payload.said_cons_none hevent]
    exact hdeliveries
  · rw [Payload.said_cons_none hevent]
    exact hbooks

/-- An event is told with the books that it leaves, and what follows starts from there. -/
theorem Takes.tell {o : Origin} {topic : Topic} {time sequence : Int} {d d' : Desk} {event : Json} {front : List Json}
    {fault : Option Failure} {r : Outcome Desk} {p : Payload} (h : Takes o topic time sequence d' front fault r)
    (hevent : Payload.ofEvent topic time event = .ok (some p)) (hbooks : d'.books = (p.applyTo d.books).2)
    (hcontinuity : d'.continuity = d.continuity) :
    Takes o topic time sequence d (event :: front) fault
      (r.after [⟨⟨o.connection, .event sequence p⟩, d'.books⟩]) := by
  have hafter (ps : List Payload) : Payload.applyAll (p :: ps) d.books = Payload.applyAll ps d'.books :=
    congrArg (Payload.applyAll ps) hbooks.symm
  refine ⟨h.ending, ?_, ?_, h.continuity.trans hcontinuity⟩
  · rw [Payload.said_cons_some hevent, payloadsTold_cons, hafter, ← hbooks]
    exact congrArg (List.cons _) h.deliveries
  · rw [Payload.said_cons_some hevent, hafter]
    exact h.books

/-- Events that come to their end are taken up to a cut, and taking only those in front of it comes to the same. -/
theorem takes_of_finished (o : Origin) (topic : Topic) (time sequence : Int) {d : Desk} {events : List Json}
    (h : (takeEvents o topic time sequence d events).ending = .finished) :
    ∃ front fault, Payload.Cuts topic time events front fault ∧
      Takes o topic time sequence d front fault (takeEvents o topic time sequence d events) ∧
      Takes o topic time sequence d front none (takeEvents o topic time sequence d front) := by
  induction events generalizing d with
  | nil =>
    exact ⟨[], none, ⟨fun v hv => (List.not_mem_nil hv).elim, rfl⟩, ⟨rfl, rfl, rfl, rfl⟩, ⟨rfl, rfl, rfl, rfl⟩⟩
  | cons event rest ih =>
    rcases Payload.ofEvent_cases topic time event with ⟨htold, hevent⟩ | ⟨htold, ⟨failure, hevent⟩ | ⟨p, hevent, -⟩⟩
    · have hstep := takeEvents_cons_none o topic time sequence hevent d
      rw [hstep] at h ⊢
      obtain ⟨front, fault, hcuts, htakes, hcut⟩ := ih h
      refine ⟨event :: front, fault, hcuts.cons ?_, htakes.pass hevent, ?_⟩
      · intro hother
        rw [htold] at hother
        cases hother
      · rw [hstep]
        exact hcut.pass hevent
    · rw [takeEvents, hevent] at h ⊢
      cases failure with
      | overflow => cases h
      | decode failure =>
        -- the message is cut right here, with nothing told before
        refine ⟨[], some failure, ⟨fun v hv => (List.not_mem_nil hv).elim, event, rest, rfl, htold, hevent⟩, ?_, ?_⟩
        · exact ⟨rfl, rfl, rfl, rfl⟩
        · exact ⟨rfl, rfl, rfl, rfl⟩
    · obtain ⟨d', hbooks, hcontinuity, hstep⟩ := takeEvents_cons_some o topic time sequence hevent d
      rcases hstep with ⟨-, hstep⟩ | ⟨-, hstep⟩
      · rw [hstep] at h
        cases h
      · rw [hstep] at h ⊢
        obtain ⟨front, fault, hcuts, htakes, hcut⟩ := ih h
        refine ⟨event :: front, fault, hcuts.cons fun _ => ⟨p, hevent⟩, htakes.tell hevent hbooks hcontinuity, ?_⟩
        rw [hstep]
        exact hcut.tell hevent hbooks hcontinuity

/-- A gap is told before the events. -/
theorem Takes.reports {d : Desk} {o : Origin} {e : Envelope} {front : List Json} {fault : Option Failure}
    {r : Outcome Desk} {d' : Desk} (hcuts : Payload.Cuts (.ofChannel e.channel) e.time e.events front fault)
    (h : Takes o (.ofChannel e.channel) e.time e.sequence d' front fault r) (hbooks : d'.books = d.books)
    (hcontinuity : d'.continuity = (d.continuity.check o e.sequence).2) :
    Reports d o e (r.after (d.gapTold o e.sequence)) front fault
      (Payload.said (.ofChannel e.channel) e.time front) := by
  refine ⟨hcuts, hcuts.forall₂_said, ?_, hbooks ▸ h.books, h.continuity.trans hcontinuity⟩
  rw [List.append_assoc, ← hbooks]
  exact congrArg _ h.deliveries

/-- The message that ends at the cut leaves the same. -/
theorem reports_of_finished {d : Desk} {o : Origin} {e : Envelope} (h : (d.takeEnvelope o e).ending = .finished) :
    ∃ front fault payloads, Reports d o e (d.takeEnvelope o e) front fault payloads ∧
      (d.takeEnvelope o { e with events := front }).ending = .finished ∧
      (d.takeEnvelope o { e with events := front }).state.books = (d.takeEnvelope o e).state.books ∧
      (d.takeEnvelope o { e with events := front }).state.continuity = (d.takeEnvelope o e).state.continuity := by
  obtain ⟨d', hbooks, hcontinuity, heq⟩ := exists_takeEnvelope_eq o d e
  have hall := heq e.events
  rw [hall] at h
  obtain ⟨front, fault, hcuts, htakes, hcut⟩ := takes_of_finished o _ e.time e.sequence h
  rw [hall]
  refine ⟨front, fault, _, htakes.reports hcuts hbooks hcontinuity, ?_⟩
  rw [heq front]
  exact ⟨hcut.ending, hcut.books.trans htakes.books.symm, hcut.continuity.trans htakes.continuity.symm⟩

/-- In every state, unless a number gets out of range: a message that cannot be read is told as such and leaves books
and sequence numbers as they were. Of any other, a gap is told, then each event that has to be, in turn and with the
books as they are with its effect, up to the first one that cannot be read, which is told last; books and sequence
numbers are left as if the message had ended there. -/
theorem told_of_finished {d : Desk} {o : Origin} {bytes : Bytes} (h : (d.take o bytes).ending = .finished) :
    (∀ failure, Envelope.read bytes = .error failure → (d.take o bytes).deliveries = [faultTold o d.books failure] ∧
      (d.take o bytes).state.books = d.books ∧ (d.take o bytes).state.continuity = d.continuity) ∧
    ∀ e, Envelope.read bytes = .ok e → ∃ front fault payloads, Reports d o e (d.take o bytes) front fault payloads ∧
      let cut := takeEnvelope { d with tally := d.tally.message } o { e with events := front }
      cut.ending = .finished ∧ cut.state.books = (d.take o bytes).state.books ∧
        cut.state.continuity = (d.take o bytes).state.continuity := by
  unfold take at h ⊢
  constructor
  · intro failure hread
    rw [hread]
    exact ⟨rfl, rfl, rfl⟩
  · intro e hread
    rw [hread] at h ⊢
    obtain ⟨front, fault, payloads, hreports, hcut⟩ := reports_of_finished h
    exact ⟨front, fault, payloads, ⟨hreports.cuts, hreports.reads, hreports.deliveries, hreports.books,
      hreports.continuity⟩, hcut⟩

/-- A snapshot, an event with another tag, and an update that names no side. -/
def partlyReadable : Bytes := String.toUTF8 (
    "\x7b\"channel\":\"l2_data\",\"sequence_num\":7,\"events\":[\x7b\"type\":\"snapshot\",\"product_id\":\"A\"," ++
    "\"updates\":[\x7b\"side\":\"bid\",\"price_level\":\"1\",\"new_quantity\":\"2\"\x7d]\x7d," ++
    "\x7b\"type\":\"other\"\x7d," ++
    "\x7b\"type\":\"update\",\"product_id\":\"A\",\"updates\":[\x7b\"side\":\"up\"\x7d]\x7d]\x7d") |>.data.toList

/-- A desk that has accepted number 3 on the market feed. -/
def atThree : Desk := { empty with continuity := (Continuity.empty.check ⟨⟨0, 1⟩, .market⟩ 3).2 }

/-- A gap, a snapshot, and an update that cannot be read, with an event that says nothing in between. -/
theorem told_partlyReadable : (atThree.take ⟨⟨0, 1⟩, .market⟩ partlyReadable).ending = .finished ∧
    (atThree.take ⟨⟨0, 1⟩, .market⟩ partlyReadable).deliveries.map (·.notice.label) =
      ["SequenceGap", "Level2", "MalformedMessage"] ∧
    ∃ e, Envelope.read partlyReadable = .ok e ∧ ∃ front fault payloads,
      Reports atThree ⟨⟨0, 1⟩, .market⟩ e (atThree.take ⟨⟨0, 1⟩, .market⟩ partlyReadable) front fault payloads := by
  have hfinished : (atThree.take ⟨⟨0, 1⟩, .market⟩ partlyReadable).ending = .finished := by decide +kernel
  have hread : (Envelope.read partlyReadable).isOk = true := by decide +kernel
  refine ⟨hfinished, by decide +kernel, ?_⟩
  cases he : Envelope.read partlyReadable with
  | error failure =>
    rw [he] at hread
    cases hread
  | ok e =>
    obtain ⟨front, fault, payloads, hreports, -⟩ := (told_of_finished hfinished).2 e he
    exact ⟨e, rfl, front, fault, payloads, hreports⟩

end Desk

end MarketFeed.Pipeline
