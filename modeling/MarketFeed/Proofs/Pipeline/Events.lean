import MarketFeed.Pipeline.Desk
import MarketFeed.Proofs.Books.Edits

/-!
# Pipeline.Events — the events of a message, one by one

Taking an event reads it, applies what it says to the books and tells of it; nothing else
touches the books, and only the number of the message touches the sequence numbers. So
whatever a desk does edits its books, and what holds of the books after every edit holds
of every desk:

> `Desk.after_edits`: in every run the books are edited and nothing else.
>
> `Desk.positive_after`: so the quantities on the books of every desk are above zero.

A run of a desk is a list of moves (`Move`): callbacks, connections that are retired, and
edits of the application, which has the books as well. However a callback ends, the books
are left as some edits have made them; a message in which a number gets out of range
leaves the edits before it, and the ones that led to it.

The inversion lemma of the desk is `takeEvents_cons_some`: what an event says is applied
to the books, and if that gets out of range the message ends there; if not, the event is
told with the books as they are then, and the rest is taken from there. It is used
wherever a message is followed event by event (`Pipeline.Reporting`, `Pipeline.Overflow`,
`Pipeline.Accounts`).
-/

namespace MarketFeed.Pipeline

/-! ## What events say -/

/-- Whether messages of a topic have events of interest. -/
def Topic.isData : Topic → Bool
  | control | unknown => false
  | _ => true

namespace Payload

/-- What an event says, if it can be read and says anything. -/
def of? (topic : Topic) (time : Int) (event : Json) : Option Payload :=
  match ofEvent topic time event with
  | .ok said => said
  | .error _ => none

/-- What events say in turn. -/
def said (topic : Topic) (time : Int) (events : List Json) : List Payload := events.filterMap (of? topic time)

/-- The books after payloads in turn. -/
def applyAll (ps : List Payload) (bs : Books) : Books := ps.foldl (fun bs p => (p.applyTo bs).2) bs

/-- What a payload does to the books. -/
def edits : Payload → List Books.Edit
  | levels .snapshot batch => [.snapshot batch.product batch.changes]
  | levels .update batch => [.change batch.product batch.changes]
  | trades .update ts => [.trade ts]
  | _ => []

/-- A payload edits the books. -/
theorem applyTo_edits (p : Payload) (bs : Books) : (p.applyTo bs).2 = bs.edited p.edits := by
  cases p with
  | levels kind batch => cases kind <;> rfl
  | trades kind ts => cases kind <;> rfl
  | _ => rfl

variable {topic : Topic} {time : Int} {event : Json}

/-- An event that says nothing adds nothing. -/
theorem said_cons_none (h : ofEvent topic time event = .ok none) (rest : List Json) :
    said topic time (event :: rest) = said topic time rest := by
  have hof : of? topic time event = none := by rw [of?, h]
  rw [said, List.filterMap_cons, hof]
  rfl

/-- An event that says something is said first. -/
theorem said_cons_some {p : Payload} (h : ofEvent topic time event = .ok (some p)) (rest : List Json) :
    said topic time (event :: rest) = p :: said topic time rest := by
  have hof : of? topic time event = some p := by rw [of?, h]
  rw [said, List.filterMap_cons, hof]
  rfl

end Payload

/-! ## Desks -/

namespace Desk

variable (o : Origin) (topic : Topic) (time sequence : Int)

/-- An event that says nothing is passed over. -/
theorem takeEvents_cons_none {event : Json} (h : Payload.ofEvent topic time event = .ok none) (d : Desk)
    (rest : List Json) :
    takeEvents o topic time sequence d (event :: rest) = takeEvents o topic time sequence d rest := by
  rw [takeEvents, h]

/-- What an event says is applied to the books. If that gets out of range the message ends there; if not, the event is
told with the books as they are then, and the rest is taken from there. -/
theorem takeEvents_cons_some {event : Json} {p : Payload} (h : Payload.ofEvent topic time event = .ok (some p))
    (d : Desk) : ∃ d' : Desk, d'.books = (p.applyTo d.books).2 ∧ d'.continuity = d.continuity ∧
      ((p.applyTo d.books).1 = none ∧
          (∀ rest, takeEvents o topic time sequence d (event :: rest) = ⟨[], d', .overflow⟩) ∨
        (p.applyTo d.books).1 ≠ none ∧ ∀ rest, takeEvents o topic time sequence d (event :: rest) =
          (takeEvents o topic time sequence d' rest).after [⟨⟨o.connection, .event sequence p⟩, d'.books⟩]) := by
  rcases happly : p.applyTo d.books with ⟨_ | outcome, books⟩
  · refine ⟨{ d with books }, rfl, rfl, Or.inl ⟨rfl, ?_⟩⟩
    intro rest
    rw [takeEvents, h]
    simp only [apply, happly]
  · refine ⟨(({ d with books }.count outcome).tell o.connection (.event sequence p)).2, rfl, rfl, Or.inr ?_⟩
    refine ⟨Option.some_ne_none outcome, ?_⟩
    intro rest
    rw [takeEvents, h]
    simp only [apply, happly]
    rfl

/-- Taking events edits the books. -/
theorem takeEvents_edits (d : Desk) (events : List Json) :
    ∃ edits, (takeEvents o topic time sequence d events).state.books = d.books.edited edits := by
  induction events generalizing d with
  | nil => exact ⟨[], rfl⟩
  | cons event rest ih =>
    cases hevent : Payload.ofEvent topic time event with
    | error failure =>
      rw [takeEvents, hevent]
      cases failure <;> exact ⟨[], rfl⟩
    | ok said =>
      cases said with
      | none =>
        rw [takeEvents_cons_none o topic time sequence hevent]
        exact ih d
      | some p =>
        obtain ⟨d', hbooks, -, hstep⟩ := takeEvents_cons_some o topic time sequence hevent d
        rw [Payload.applyTo_edits] at hbooks
        rcases hstep with ⟨-, hstep⟩ | ⟨-, hstep⟩
        · rw [hstep]
          exact ⟨p.edits, hbooks⟩
        · obtain ⟨edits, hedits⟩ := ih d'
          refine ⟨p.edits ++ edits, ?_⟩
          rw [hstep, Books.edited_append, ← hbooks]
          exact hedits

/-- A gap is told if the number does not follow the last one. -/
def gapTold (d : Desk) (o : Origin) (number : Int) : List Delivery :=
  match (d.continuity.check o number).1 with
  | .accepted => []
  | .gap last received => [⟨⟨o.connection, .gap o.feed last received⟩, d.books⟩]

/-- A message has its number checked, and then its events taken with the books that there were. -/
theorem exists_takeEnvelope_eq (d : Desk) (e : Envelope) : ∃ d' : Desk, d'.books = d.books ∧
    d'.continuity = (d.continuity.check o e.sequence).2 ∧ ∀ events, d.takeEnvelope o { e with events } =
      (takeEvents o (.ofChannel e.channel) e.time e.sequence d' events).after (d.gapTold o e.sequence) := by
  have hcheck : (d.checkNumber o e.sequence).1 = d.gapTold o e.sequence ∧
      (d.checkNumber o e.sequence).2.books = d.books ∧
      (d.checkNumber o e.sequence).2.continuity = (d.continuity.check o e.sequence).2 := by
    unfold checkNumber gapTold
    split
    next h => rw [h]; exact ⟨rfl, rfl, rfl⟩
    next h => rw [h]; exact ⟨rfl, rfl, rfl⟩
  refine ⟨if Topic.ofChannel e.channel = .unknown
    then { (d.checkNumber o e.sequence).2 with tally := (d.checkNumber o e.sequence).2.tally.unknownChannel }
    else (d.checkNumber o e.sequence).2, ?_, ?_, ?_⟩
  · split <;> exact hcheck.2.1
  · split <;> exact hcheck.2.2
  · intro events
    rw [← hcheck.1]
    rfl

/-- Taking a message edits the books. -/
theorem takeEnvelope_edits (d : Desk) (e : Envelope) :
    ∃ edits, (d.takeEnvelope o e).state.books = d.books.edited edits := by
  obtain ⟨d', hbooks, -, heq⟩ := exists_takeEnvelope_eq o d e
  have hall := heq e.events
  rw [← hbooks, hall]
  exact takeEvents_edits o _ e.time e.sequence d' e.events

/-- So does every callback. -/
theorem handle_edits (d : Desk) (c : Callback) : ∃ edits, (d.handle c).state.books = d.books.edited edits := by
  unfold handle
  split
  · exact ⟨[], rfl⟩
  · exact ⟨[], rfl⟩
  · exact ⟨[], rfl⟩
  · unfold take
    split
    · exact ⟨[], rfl⟩
    · exact takeEnvelope_edits c.origin { d with tally := d.tally.message } _

/-! ## Runs -/

/-- What happens to a desk. The application may edit the books at any time. -/
inductive Move where
  | callback (c : Callback)
  | retire (o : Origin)
  | edit (e : Books.Edit)

/-- The desk after a move, however it ended. -/
def Move.apply (d : Desk) : Move → Desk
  | .callback c => (d.handle c).state
  | .retire o => d.retire o
  | .edit e => { d with books := e.apply d.books }

/-- The desk after moves in turn. -/
def after (d : Desk) (moves : List Move) : Desk := moves.foldl Move.apply d

/-- In every run the books are edited and nothing else. -/
theorem after_edits (d : Desk) (moves : List Move) : ∃ edits, (d.after moves).books = d.books.edited edits := by
  induction moves generalizing d with
  | nil => exact ⟨[], rfl⟩
  | cons m rest ih =>
    obtain ⟨later, hlater⟩ := ih (m.apply d)
    obtain ⟨first, hfirst⟩ : ∃ edits, (m.apply d).books = d.books.edited edits := by
      cases m with
      | callback c => exact handle_edits d c
      | retire o => exact ⟨[], rfl⟩
      | edit e => exact ⟨[e], rfl⟩
    refine ⟨first ++ later, hlater.trans ?_⟩
    rw [hfirst, Books.edited_append]

/-- So the quantities on the books of every desk are above zero. -/
theorem positive_after (moves : List Move) : (empty.after moves).books.Positive := by
  obtain ⟨edits, hedits⟩ := after_edits empty moves
  rw [hedits]
  exact Books.positive_empty.edited edits

end Desk

end MarketFeed.Pipeline
