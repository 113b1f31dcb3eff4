import MarketFeed.Pipeline.Intake

/-!
# Pipeline.Dropping — a count that nothing looks at

The queue in front of the desk counts the callbacks that it drops among the counters of
the desk, which belongs to the consumer on the other side. Nothing the desk or the intake
does depends on that count or changes it:

> `Intake.deliver_withDropped`: a delivery with another count of dropped callbacks tells
> the same and leaves the same, but for that count.

So producer and consumer can share the counters without a lock, and in proofs one may as
well set the count afterwards. That is how a passage through the queue is compared with
callbacks that are delivered at once, where none is dropped (`Pipeline.Refinement`).

The proof follows the functions of the desk from the inside out, each with the count put
in before and taken out after. There is nothing to it but that none of them reads the
counter.
-/

namespace MarketFeed.Pipeline

variable {n : UInt64}

namespace Desk

/-- The desk with another count of dropped callbacks. -/
def withDropped (n : UInt64) (d : Desk) : Desk := { d with tally.dropped := n }

private theorem reject_withDropped (d : Desk) (o : Origin) (failure : Decode.Failure) :
    (d.withDropped n).reject o failure = (d.reject o failure).map (withDropped n) := rfl

private theorem apply_withDropped (d : Desk) (payload : Payload) :
    (d.withDropped n).apply payload = ((d.apply payload).1, (d.apply payload).2.withDropped n) := by
  have hbooks : (d.withDropped n).books = d.books := rfl
  unfold apply
  rw [hbooks]
  split <;> rfl

private theorem takeEvents_withDropped (o : Origin) (topic : Topic) (time sequence : Int) (d : Desk)
    (events : List Json) :
    takeEvents o topic time sequence (d.withDropped n) events =
      (takeEvents o topic time sequence d events).map (withDropped n) := by
  induction events generalizing d with
  | nil => rfl
  | cons event rest ih =>
    unfold takeEvents
    split
    next => rfl
    next => exact reject_withDropped _ _ _
    next => exact ih d
    next payload _ =>
      rw [apply_withDropped]
      generalize d.apply payload = applied
      obtain ⟨ending, d'⟩ := applied
      cases ending with
      | overflow => rfl
      | finished =>
        -- telling the application counts the event, and not among the dropped
        show (takeEvents o topic time sequence ((d'.tell o.connection (.event sequence payload)).2.withDropped n)
          rest).after _ = _
        rw [ih]
        rfl

private theorem checkNumber_withDropped (d : Desk) (o : Origin) (number : Int) :
    (d.withDropped n).checkNumber o number =
      ((d.checkNumber o number).1, (d.checkNumber o number).2.withDropped n) := by
  have hcontinuity : (d.withDropped n).continuity = d.continuity := rfl
  unfold checkNumber
  rw [hcontinuity]
  split <;> rfl

private theorem takeEnvelope_withDropped (d : Desk) (o : Origin) (e : Envelope) :
    (d.withDropped n).takeEnvelope o e = (d.takeEnvelope o e).map (withDropped n) := by
  unfold takeEnvelope
  rw [checkNumber_withDropped]
  generalize d.checkNumber o e.sequence = checked
  obtain ⟨told, d'⟩ := checked
  simp only
  split
  · exact congrArg (Outcome.after told)
      (takeEvents_withDropped o _ e.time e.sequence { d' with tally := d'.tally.unknownChannel } e.events)
  · exact congrArg (Outcome.after told) (takeEvents_withDropped o _ e.time e.sequence d' e.events)

/-- The desk handles a callback alike whatever the count. -/
theorem handle_withDropped (d : Desk) (c : Callback) :
    (d.withDropped n).handle c = (d.handle c).map (withDropped n) := by
  unfold handle
  split
  · rfl
  · rfl
  · rfl
  · unfold take
    split
    · rfl
    · exact takeEnvelope_withDropped { d with tally := d.tally.message } c.origin _

end Desk

namespace Intake

/-- The intake with another count of dropped callbacks. -/
def withDropped (n : UInt64) (i : Intake) : Intake := { i with desk := i.desk.withDropped n }

/-- So does the intake. -/
theorem deliver_withDropped (i : Intake) (c : Callback) :
    (i.withDropped n).deliver c = (i.deliver c).map (withDropped n) := by
  have hroster : (i.withDropped n).roster = i.roster := rfl
  unfold deliver
  rw [hroster]
  split
  next =>
    unfold drop
    split <;> rfl
  next roster _ =>
    show ((i.desk.withDropped n).handle c).map _ = _
    rw [Desk.handle_withDropped]
    rfl

end Intake

end MarketFeed.Pipeline
