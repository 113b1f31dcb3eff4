import MarketFeed.Proofs.Pipeline.Reporting
import MarketFeed.Proofs.Tally
import MarketFeed.Pipeline.Intake

/-!
# Pipeline.Accounts — what a callback comes to

Reading a message does not look at books, sequence numbers or counters. So whatever the
state of a desk, what is told of a callback follows from the callback and the verdict on
its number, the books change by what its events say, and the counters grow by what was
told and by the outcomes at the books:

> `Desk.handle_settles`: a callback that is read and fits comes to its end, and settles
> (`Settles`), whatever the desk.
>
> `Desk.fit_of_handle`: only such a callback comes to its end; a number out of range ends
> it early.

For each of the four there is a function of the callback that does not run the desk: what
its events say up to the first that fails (`Callback.reading`), the verdict
(`Callback.judge`), the contents of the notices (`Callback.contents`), and the tally of
what is added to the counters (`Callback.toll`, `tollOf`, `bookToll`). The events are
followed one by one (`takeEvents_eq`): each is applied to the books as those before it
have left them, and told with the books as they are then.

Later modules do not open `Desk.handle` again. Counting everything in a run
(`Pipeline.Counting`), mixing the callbacks of several connections
(`Pipeline.Interleaving`) and attributing notices to callbacks start from here.
-/

namespace MarketFeed

open Pipeline

namespace Pipeline

/-! ## Events -/

namespace Payload

/-- What events say in turn, up to the first that fails, and why that one fails. -/
def readAll (topic : Topic) (time : Int) : List Json → List Payload × Option EventFailure
  | [] => ([], none)
  | event :: rest =>
    match ofEvent topic time event with
    | .error failure => ([], some failure)
    | .ok none => readAll topic time rest
    | .ok (some p) => (p :: (readAll topic time rest).1, (readAll topic time rest).2)

/-- That payloads can be applied in turn without a number out of range. -/
def Fit : List Payload → Books → Prop
  | [], _ => True
  | p :: rest, bs => (p.applyTo bs).1 ≠ none ∧ Fit rest (p.applyTo bs).2

/-- What becomes of the entries of payloads in turn. -/
def outcomes : List Payload → Books → List BatchOutcome
  | [], _ => []
  | p :: rest, bs => (p.applyTo bs).1.getD .zero :: outcomes rest (p.applyTo bs).2

end Payload

/-- The reason to report, if it is one: a number out of range is not reported. -/
def EventFailure.reported? : EventFailure → Option Decode.Failure
  | decode failure => some failure
  | overflow => none

/-- What telling something adds to the counters. -/
def Content.toll : Content → Tally
  | gap _ _ _ => { events := 1, gaps := 1 }
  | malformed _ _ => { events := 1, parseErrors := 1 }
  | _ => { events := 1 }

/-- What several notices add to the counters. -/
def tollOf (contents : List Content) : Tally := (contents.map Content.toll).sum

/-- What the outcomes of batches add to the counters. -/
def bookToll (outcomes : List BatchOutcome) : Tally := (outcomes.map Tally.ofOutcome).sum

/-- What is told in turn adds up. -/
theorem tollOf_cons (content : Content) (rest : List Content) :
    tollOf (content :: rest) = content.toll + tollOf rest := List.sum_cons

private theorem tollOf_append (front back : List Content) : tollOf (front ++ back) = tollOf front + tollOf back := by
  rw [tollOf, List.map_append, List.sum_append]
  rfl

/-- So do the outcomes of batches. -/
theorem bookToll_cons (outcome : BatchOutcome) (rest : List BatchOutcome) :
    bookToll (outcome :: rest) = Tally.ofOutcome outcome + bookToll rest := List.sum_cons

/-- What deliveries say. -/
def saidIn (deliveries : List Delivery) : List Content := deliveries.map (·.notice.content)

private theorem saidIn_cons (delivery : Delivery) (rest : List Delivery) :
    saidIn (delivery :: rest) = delivery.notice.content :: saidIn rest := rfl

namespace Desk

variable (o : Origin) (topic : Topic) (time sequence : Int)

/-- The notice of an event that cannot be read, if there is one to give. -/
def faultsTold (bs : Books) (fault : Option EventFailure) : List Delivery :=
  ((fault.bind EventFailure.reported?).map (faultTold o bs)).toList

/-- The next desk after a payload with an outcome. -/
theorem takeEvents_cons_applied {event : Json} {p : Payload} {outcome : BatchOutcome}
    (h : Payload.ofEvent topic time event = .ok (some p)) {d : Desk} (happly : (p.applyTo d.books).1 = some outcome)
    (rest : List Json) : takeEvents o topic time sequence d (event :: rest) =
      (takeEvents o topic time sequence ⟨d.continuity, (p.applyTo d.books).2,
        d.tally + (Tally.ofOutcome outcome + { events := 1 })⟩ rest).after
          [⟨⟨o.connection, .event sequence p⟩, (p.applyTo d.books).2⟩] := by
  have hpair : p.applyTo d.books = (some outcome, (p.applyTo d.books).2) := Prod.ext happly rfl
  rw [← add_assoc, ← Tally.addOutcome_eq, ← Tally.event_eq, takeEvents, h]
  simp only [apply]
  rw [hpair]
  rfl

private theorem takeEvents_cons_overflow {event : Json} {p : Payload}
    (h : Payload.ofEvent topic time event = .ok (some p))
    {d : Desk} (happly : (p.applyTo d.books).1 = none) (rest : List Json) :
    takeEvents o topic time sequence d (event :: rest) =
      ⟨[], { d with books := (p.applyTo d.books).2 }, .overflow⟩ := by
  have hpair : p.applyTo d.books = (none, (p.applyTo d.books).2) := Prod.ext happly rfl
  rw [takeEvents, h]
  simp only [apply]
  rw [hpair]

/-- Events that can all be applied are told up to the first one that cannot be read. -/
theorem takeEvents_eq (d : Desk) (events : List Json)
    (hread : (Payload.readAll topic time events).2 ≠ some .overflow)
    (hfit : Payload.Fit (Payload.readAll topic time events).1 d.books) :
    let payloads := (Payload.readAll topic time events).1
    let told := payloadsTold o sequence d.books payloads ++
      faultsTold o (Payload.applyAll payloads d.books) (Payload.readAll topic time events).2
    takeEvents o topic time sequence d events = ⟨told, ⟨d.continuity, Payload.applyAll payloads d.books,
      d.tally + (tollOf (saidIn told) + bookToll (Payload.outcomes payloads d.books))⟩, .finished⟩ := by
  induction events generalizing d with
  | nil => exact congrArg (fun t => Outcome.mk [] (Desk.mk d.continuity d.books t) .finished) (add_zero d.tally).symm
  | cons event rest ih =>
    cases hevent : Payload.ofEvent topic time event with
    | error failure =>
      have hall : Payload.readAll topic time (event :: rest) = ([], some failure) := by
        rw [Payload.readAll, hevent]
      rw [hall] at hread ⊢
      cases failure with
      | overflow => exact absurd rfl hread
      | decode failure =>
        rw [takeEvents, hevent]
        simp only [reject, tellLast, tell, Tally.event_parseError_eq]
        rfl
    | ok said =>
      cases said with
      | none =>
        have hall : Payload.readAll topic time (event :: rest) = Payload.readAll topic time rest := by
          rw [Payload.readAll, hevent]
        rw [hall] at hread hfit ⊢
        rw [takeEvents_cons_none o topic time sequence hevent]
        exact ih d hread hfit
      | some p =>
        have hall : Payload.readAll topic time (event :: rest) =
            (p :: (Payload.readAll topic time rest).1, (Payload.readAll topic time rest).2) := by
          rw [Payload.readAll, hevent]
        rw [hall] at hread hfit ⊢
        obtain ⟨hp, hrest⟩ := hfit
        obtain ⟨outcome, houtcome⟩ := Option.ne_none_iff_exists'.1 hp
        rw [takeEvents_cons_applied o topic time sequence hevent houtcome, ih _ hread hrest]
        have hafter : Payload.applyAll (p :: (Payload.readAll topic time rest).1) d.books =
          Payload.applyAll (Payload.readAll topic time rest).1 (p.applyTo d.books).2 := rfl
        simp only [payloadsTold_cons, List.cons_append, saidIn_cons, tollOf_cons, Payload.outcomes, bookToll_cons,
          houtcome, hafter]
        -- the first event is told and counted before the others
        refine congrArg (fun t => Outcome.mk _ (Desk.mk _ _ t) .finished) ?_
        simp only [Option.getD_some, Content.toll]
        ac_rfl

/-- Events that come to their end can all be applied. -/
theorem fit_of_takeEvents {d : Desk} {events : List Json}
    (h : (takeEvents o topic time sequence d events).ending = .finished) :
    (Payload.readAll topic time events).2 ≠ some .overflow ∧
      Payload.Fit (Payload.readAll topic time events).1 d.books := by
  -- an event that cannot be read ends the message, and what is behind it does not matter
  induction events generalizing d with
  | nil => exact ⟨(Option.some_ne_none _).symm, trivial⟩
  | cons event rest ih =>
    rw [Payload.readAll]
    cases hevent : Payload.ofEvent topic time event with
    | error failure =>
      rw [takeEvents, hevent] at h
      cases failure with
      | overflow => cases h
      | decode failure => exact ⟨fun hsame => EventFailure.noConfusion (Option.some.inj hsame), trivial⟩
    | ok said =>
      cases said with
      | none =>
        rw [takeEvents_cons_none o topic time sequence hevent] at h
        exact ih h
      | some p =>
        cases houtcome : (p.applyTo d.books).1 with
        | none =>
          rw [takeEvents_cons_overflow o topic time sequence hevent houtcome] at h
          cases h
        | some outcome =>
          rw [takeEvents_cons_applied o topic time sequence hevent houtcome] at h
          obtain ⟨hread, hrest⟩ := ih h
          exact ⟨hread, ⟨by rw [houtcome]; exact Option.some_ne_none outcome, hrest⟩⟩

/-- Events have no numbers of their own. -/
theorem takeEvents_continuity (d : Desk) (events : List Json) :
    (takeEvents o topic time sequence d events).state.continuity = d.continuity := by
  induction events generalizing d with
  | nil => rfl
  | cons event rest ih =>
    cases hevent : Payload.ofEvent topic time event with
    | error failure =>
      rw [takeEvents, hevent]
      cases failure <;> rfl
    | ok said =>
      cases said with
      | none =>
        rw [takeEvents_cons_none o topic time sequence hevent]
        exact ih d
      | some p =>
        obtain ⟨d', -, hcontinuity, hstep⟩ := takeEvents_cons_some o topic time sequence hevent d
        rcases hstep with ⟨-, hstep⟩ | ⟨-, hstep⟩
        · rw [hstep]
          exact hcontinuity
        · rw [hstep]
          exact (ih d').trans hcontinuity

end Desk

/-! ## Messages -/

/-- What is told of a verdict. -/
def gapContents (f : Feed) : Continuity.Verdict → List Content
  | .accepted => []
  | .gap last received => [.gap f last received]

/-- What is told of an event that cannot be read. -/
def faultContents (f : Feed) (fault : Option EventFailure) : List Content :=
  ((fault.bind EventFailure.reported?).map fun failure => .malformed f (FeedFailure.malformed failure).message).toList

namespace Envelope

/-- What the events of a message say, up to the first that fails, and why that one fails. -/
def reading (e : Envelope) : List Payload × Option EventFailure :=
  Payload.readAll (.ofChannel e.channel) e.time e.events

/-- What is told of a message. -/
def contents (e : Envelope) (f : Feed) (verdict : Continuity.Verdict) : List Content :=
  gapContents f verdict ++ (e.reading.1.map (.event e.sequence) ++ faultContents f e.reading.2)

/-- What a message of an unknown channel adds to the counters. -/
def toll (e : Envelope) : Tally := if Topic.ofChannel e.channel = .unknown then { unknownChannels := 1 } else 0

end Envelope

namespace Desk

private theorem notices_payloadsTold (o : Origin) (sequence : Int) (bs : Books) (ps : List Payload) :
    (payloadsTold o sequence bs ps).map (·.notice) =
      (ps.map (Content.event sequence)).map (Notice.mk o.connection) := by
  induction ps generalizing bs with
  | nil => rfl
  | cons p rest ih => rw [payloadsTold_cons, List.map_cons, ih]; rfl

private theorem notices_faultsTold (o : Origin) (bs : Books) (fault : Option EventFailure) :
    (faultsTold o bs fault).map (·.notice) = (faultContents o.feed fault).map (Notice.mk o.connection) := by
  unfold faultsTold faultContents
  cases fault.bind EventFailure.reported? <;> rfl

private theorem notices_gapTold (d : Desk) (o : Origin) (number : Int) : (d.gapTold o number).map (·.notice) =
    (gapContents o.feed (d.continuity.check o number).1).map (Notice.mk o.connection) := by
  unfold gapTold
  cases (d.continuity.check o number).1 <;> rfl

/-- Notices of one connection say what was to be told. -/
theorem contents_notices (c : Connection) (contents : List Content) :
    (contents.map (Notice.mk c)).map (·.content) = contents := by
  rw [List.map_map]
  exact List.map_id contents

private theorem saidIn_of_notices {deliveries : List Delivery} {c : Connection} {contents : List Content}
    (h : deliveries.map (·.notice) = contents.map (Notice.mk c)) : saidIn deliveries = contents := by
  rw [← contents_notices c contents, ← h, List.map_map]
  rfl

/-- A message has its number checked and its channel looked up, and then its events taken. -/
theorem takeEnvelope_eq (d : Desk) (o : Origin) (e : Envelope) : d.takeEnvelope o e =
    (takeEvents o (.ofChannel e.channel) e.time e.sequence ⟨(d.continuity.check o e.sequence).2, d.books,
      d.tally + (tollOf (saidIn (d.gapTold o e.sequence)) + e.toll)⟩ e.events).after (d.gapTold o e.sequence) := by
  have hcheck : d.checkNumber o e.sequence = (d.gapTold o e.sequence, ⟨(d.continuity.check o e.sequence).2, d.books,
      d.tally + tollOf (saidIn (d.gapTold o e.sequence))⟩) := by
    unfold checkNumber gapTold
    split
    next h =>
      rw [h]
      exact congrArg (fun t => (_, Desk.mk _ _ t)) (add_zero d.tally).symm
    next h =>
      rw [h]
      simp only [tell, Tally.event_gap_eq]
      rfl
  unfold takeEnvelope Envelope.toll
  rw [hcheck]
  simp only
  split
  · rw [Tally.unknownChannel_eq, add_assoc]
  · rw [add_zero]

end Desk

end Pipeline

/-! ## Callbacks -/

namespace Callback

/-- What the events of a callback say, up to the first that fails, and why that one fails. -/
def reading (c : Callback) : List Payload × Option EventFailure :=
  match c.signal, Envelope.read c.payload with
  | .data, .ok e => e.reading
  | _, _ => ([], none)

/-- What a callback hands to the books. -/
def payloads (c : Callback) : List Payload := c.reading.1

/-- The verdict on the number of a callback, if it has one, and the sequence numbers after it. -/
def judge (c : Callback) (k : Continuity) : Option Continuity.Verdict × Continuity :=
  match c.signal with
  | .data =>
    match Envelope.read c.payload with
    | .ok e => (some (k.check c.origin e.sequence).1, (k.check c.origin e.sequence).2)
    | .error _ => (none, k)
  | _ => (none, k.reset c.origin)

/-- What is told of a callback after a verdict. -/
def contents (c : Callback) (verdict : Option Continuity.Verdict) : List Content :=
  match c.signal with
  | .connected => [.connected c.origin.feed]
  | .disconnected => [.disconnected c.origin.feed]
  | .error => [.error c.origin.feed (Text.Utf8.decodeLossy c.payload)]
  | .data =>
    match Envelope.read c.payload with
    | .ok e => e.contents c.origin.feed (verdict.getD .accepted)
    | .error failure => [.malformed c.origin.feed (FeedFailure.malformed failure).message]

/-- What a callback adds to the counters apart from what is told of it and what becomes of its entries. -/
def toll (c : Callback) : Tally :=
  match c.signal with
  | .data =>
    match Envelope.read c.payload with
    | .ok e => { messages := 1 } + e.toll
    | .error _ => { messages := 1 }
  | _ => 0

end Callback

namespace Pipeline.Desk

/-- What a callback comes to on a desk. -/
structure Settles (c : Callback) (d : Desk) (r : Outcome Desk) : Prop where
  ending : r.ending = .finished
  notices : r.deliveries.map (·.notice) = (c.contents (c.judge d.continuity).1).map (Notice.mk c.origin.connection)
  books : r.state.books = Payload.applyAll c.payloads d.books
  continuity : r.state.continuity = (c.judge d.continuity).2
  tally : r.state.tally = d.tally + (c.toll + tollOf (c.contents (c.judge d.continuity).1) +
    bookToll (Payload.outcomes c.payloads d.books))

/-- A callback without a number tells one thing and forgets the numbers. -/
theorem tellLast_settles {c : Callback} {content : Content} (hjudge : ∀ k, c.judge k = (none, k.reset c.origin))
    (hreading : c.reading = ([], none)) (hcontents : c.contents none = [content]) (htoll : c.toll = 0)
    (hcontent : content.toll = { events := 1 }) (d : Desk) :
    Settles c d ((d.retire c.origin).tellLast c.origin.connection content) := by
  have hpayloads : c.payloads = [] := congrArg Prod.fst hreading
  refine ⟨rfl, ?_, ?_, ?_, ?_⟩
  · rw [hjudge, hcontents]
    rfl
  · rw [hpayloads]
    rfl
  · rw [hjudge]
    rfl
  · rw [hjudge, hpayloads, hcontents, tollOf_cons, hcontent, htoll, zero_add]
    exact Tally.event_eq d.tally

/-- So does data that cannot be read, and it leaves the numbers as they are. -/
theorem reject_settles {c : Callback} {failure : Decode.Failure} (hdata : c.signal = .data)
    (hread : Envelope.read c.payload = .error failure) (d : Desk) :
    Settles c d (({ d with tally := d.tally.message } : Desk).reject c.origin failure) := by
  have hpayloads : c.payloads = [] := by simp only [Callback.payloads, Callback.reading, hdata, hread]
  have hjudge : c.judge d.continuity = (none, d.continuity) := by simp only [Callback.judge, hdata, hread]
  have hcontents : c.contents none = [.malformed c.origin.feed (FeedFailure.malformed failure).message] := by
    simp only [Callback.contents, hdata, hread]
  have htoll : c.toll = { messages := 1 } := by simp only [Callback.toll, hdata, hread]
  refine ⟨rfl, ?_, ?_, ?_, ?_⟩
  · rw [hjudge, hcontents]
    rfl
  · rw [hpayloads]
    rfl
  · rw [hjudge]
    rfl
  · rw [hjudge, hcontents, hpayloads, htoll]
    simp only [reject, tellLast, tell, Tally.event_parseError_eq, Tally.message_eq, add_assoc]
    rfl

/-- A message that is read and fits settles what it says. -/
theorem takeEnvelope_settles {c : Callback} {e : Envelope} (hdata : c.signal = .data)
    (hread : Envelope.read c.payload = .ok e) {d : Desk} (hreading : e.reading.2 ≠ some .overflow)
    (hfit : Payload.Fit e.reading.1 d.books) :
    Settles c d (({ d with tally := d.tally.message } : Desk).takeEnvelope c.origin e) := by
  have hevents := takeEvents_eq c.origin (.ofChannel e.channel) e.time e.sequence
    ⟨(d.continuity.check c.origin e.sequence).2, d.books, d.tally.message +
      (tollOf (saidIn (d.gapTold c.origin e.sequence)) + e.toll)⟩ e.events hreading hfit
  have hall : Payload.readAll (.ofChannel e.channel) e.time e.events = e.reading := rfl
  rw [hall] at hevents
  have hgap := notices_gapTold d c.origin e.sequence
  have hevent := notices_payloadsTold c.origin e.sequence d.books e.reading.1
  have hfault := notices_faultsTold c.origin (Payload.applyAll e.reading.1 d.books) e.reading.2
  have htold : (payloadsTold c.origin e.sequence d.books e.reading.1 ++
      faultsTold c.origin (Payload.applyAll e.reading.1 d.books) e.reading.2).map (·.notice) =
      (e.reading.1.map (Content.event e.sequence) ++ faultContents c.origin.feed e.reading.2).map
        (Notice.mk c.origin.connection) := by
    rw [List.map_append, List.map_append, hevent, hfault]
  have hpayloads : c.payloads = e.reading.1 := by simp only [Callback.payloads, Callback.reading, hdata, hread]
  have hjudge : c.judge d.continuity =
      (some (d.continuity.check c.origin e.sequence).1, (d.continuity.check c.origin e.sequence).2) := by
    simp only [Callback.judge, hdata, hread]
  have hcontents (verdict : Continuity.Verdict) :
      c.contents (some verdict) = e.contents c.origin.feed verdict := by
    simp only [Callback.contents, hdata, hread, Option.getD_some]
  have htoll : c.toll = { messages := 1 } + e.toll := by simp only [Callback.toll, hdata, hread]
  rw [takeEnvelope_eq]
  refine ⟨congrArg Outcome.ending hevents, ?_, ?_, ?_, (congrArg (·.state.tally) hevents).trans ?_⟩
  · rw [hjudge, hcontents, Envelope.contents, List.map_append, ← htold, ← hgap]
    show (d.gapTold c.origin e.sequence ++ (takeEvents _ _ _ _ _ _).deliveries).map (·.notice) = _
    rw [List.map_append]
    exact congrArg (fun r : Outcome Desk => _ ++ r.deliveries.map (·.notice)) hevents
  · rw [hpayloads]
    exact congrArg (·.state.books) hevents
  · rw [hjudge]
    exact congrArg (·.state.continuity) hevents
  · -- the gap was told before the events
    dsimp only
    rw [hjudge, hcontents, hpayloads, htoll, saidIn_of_notices hgap, saidIn_of_notices htold, Tally.message_eq,
      Envelope.contents, tollOf_append (gapContents _ _)]
    ac_rfl

/-- A callback that is read and fits comes to its end, whatever the desk. -/
theorem handle_settles {c : Callback} {d : Desk} (hreading : c.reading.2 ≠ some .overflow)
    (hfit : Payload.Fit c.payloads d.books) : Settles c d (d.handle c) := by
  unfold handle
  cases hsignal : c.signal with
  | connected =>
    apply tellLast_settles <;> intros <;>
      simp only [Callback.judge, Callback.reading, Callback.contents, Callback.toll, hsignal, Content.toll]
  | disconnected =>
    apply tellLast_settles <;> intros <;>
      simp only [Callback.judge, Callback.reading, Callback.contents, Callback.toll, hsignal, Content.toll]
  | error =>
    apply tellLast_settles <;> intros <;>
      simp only [Callback.judge, Callback.reading, Callback.contents, Callback.toll, hsignal, Content.toll]
  | data =>
    unfold take
    cases hread : Envelope.read c.payload with
    | error failure => exact reject_settles hsignal hread d
    | ok e =>
      have hsame : c.reading = e.reading := by rw [Callback.reading, hsignal, hread]
      rw [Callback.payloads, hsame] at hfit
      rw [hsame] at hreading
      exact takeEnvelope_settles hsignal hread hreading hfit

/-- Only such a callback comes to its end. -/
theorem fit_of_handle {c : Callback} {d : Desk} (h : (d.handle c).ending = .finished) :
    c.reading.2 ≠ some .overflow ∧ Payload.Fit c.payloads d.books := by
  unfold Callback.payloads Callback.reading
  unfold handle take at h
  cases hsignal : c.signal with
  | data =>
    rw [hsignal] at h
    cases hread : Envelope.read c.payload with
    | error failure => exact ⟨(Option.some_ne_none _).symm, trivial⟩
    | ok e =>
      simp only [hread, takeEnvelope_eq] at h
      have hevents : (takeEvents c.origin (.ofChannel e.channel) e.time e.sequence _ e.events).ending = .finished := h
      have hfit := fit_of_takeEvents c.origin (.ofChannel e.channel) e.time e.sequence hevents
      exact hfit
  | _ => exact ⟨(Option.some_ne_none _).symm, trivial⟩

/-- The numbers follow from the callback, whether it comes to its end or not. -/
theorem handle_continuity (d : Desk) (c : Callback) : (d.handle c).state.continuity = (c.judge d.continuity).2 := by
  unfold handle Callback.judge
  cases c.signal with
  | data =>
    unfold take
    cases Envelope.read c.payload with
    | error failure => rfl
    | ok e =>
      obtain ⟨d', -, hcontinuity, heq⟩ := exists_takeEnvelope_eq c.origin { d with tally := d.tally.message } e
      exact (congrArg (·.state.continuity) (heq e.events)).trans
        ((takeEvents_continuity c.origin _ e.time e.sequence d' e.events).trans hcontinuity)
  | _ => rfl

end Pipeline.Desk

end MarketFeed
