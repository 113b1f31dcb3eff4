import MarketFeed.Proofs.Pipeline.Retirement

/-!
# Pipeline.Forgetting — numbers of connections that are gone

The tracker keeps a number for each origin, and a client opens connections without end.
The loss of a connection is the last thing it reports. It makes the number of its origin
forgotten, whether the report gets to the desk or is dropped because the connection has
been replaced, and nothing touches the number of another origin. So the numbers do not
pile up:

> `Intake.last?_feed`: an origin with a number has reported something, and not its loss in
> the end.
>
> `Intake.forgets`: if every origin reports its loss in the end, then after the last
> callback no number is left, and at any point before it there are numbers of those
> origins only whose loss is still to come.

The step is `last?_deliver`, one delivery seen from one origin. A report of a replaced
connection is dropped as such, but its loss is still taken to the numbers
(`follow_disconnected`), without which the origin would keep its number for good. The
other half, that what arrives behind a later opening is dropped, is in
`Pipeline.Retirement`.
-/

namespace MarketFeed

namespace Callback

/-- What an origin reported last. -/
def lastSignal? (o : Origin) (cs : List Callback) : Option Signal :=
  ((cs.filter (·.origin = o)).map (·.signal)).getLast?

/-- That all origins have reported their loss, and nothing behind it. -/
def Ended (cs : List Callback) : Prop := ∀ c ∈ cs, lastSignal? c.origin cs = some .disconnected

instance (cs : List Callback) : Decidable (Ended cs) :=
  inferInstanceAs (Decidable (∀ c ∈ cs, lastSignal? c.origin cs = some .disconnected))

variable {o : Origin} {cs : List Callback} {c : Callback}

private theorem lastSignal?_append (o : Origin) (front back : List Callback) :
    lastSignal? o (front ++ back) = (lastSignal? o back).or (lastSignal? o front) := by
  rw [lastSignal?, List.filter_append, List.map_append, List.getLast?_append]
  rfl

private theorem lastSignal?_singleton (o : Origin) (c : Callback) :
    lastSignal? o [c] = if c.origin = o then some c.signal else none := by
  rw [lastSignal?, List.filter_singleton]
  by_cases h : c.origin = o
  · rw [if_pos h, decide_eq_true h]
    rfl
  · rw [if_neg h, decide_eq_false h]
    rfl

private theorem exists_of_lastSignal? {s : Signal} (h : lastSignal? o cs = some s) :
    ∃ c ∈ cs, c.origin = o ∧ c.signal = s := by
  obtain ⟨c, hc, hs⟩ := List.mem_map.1 (List.mem_of_getLast? h)
  obtain ⟨hmem, ho⟩ := List.mem_filter.1 hc
  exact ⟨c, hmem, of_decide_eq_true ho, hs⟩

/-- The loss of a connection makes its number forgotten, even if it has been replaced. -/
theorem follow_disconnected (h : c.signal = .disconnected) (admitted : Bool) (k : Continuity) :
    (c.follow admitted k).2 = k.reset c.origin := by
  unfold follow judge
  rw [h]
  cases admitted <;> rfl

end Callback

namespace Pipeline.Intake

open Callback

variable {i : Intake}

/-- A delivery leaves the numbers of other origins, and none of an origin that is lost. -/
theorem last?_deliver (i : Intake) (c : Callback) (o : Origin) :
    (c.origin ≠ o → (i.deliver c).state.desk.continuity.last? o = i.desk.continuity.last? o) ∧
    (c.origin = o → c.signal = .disconnected → (i.deliver c).state.desk.continuity.last? o = none) := by
  have hcontinuity : (i.deliver c).state.desk.continuity =
      (c.follow (i.roster.accept c.origin.connection).1 i.desk.continuity).2 :=
    congrArg Gate.continuity (gate_deliver i c)
  rw [hcontinuity]
  refine ⟨?_, ?_⟩
  · intro ho
    exact (c.staysAt_follow _).frame (Ne.symm ho) i.desk.continuity
  · rintro rfl hsignal
    rw [follow_disconnected hsignal, Continuity.last?_reset, if_pos rfl]

/-- An origin with a number has reported something, and not its loss in the end. -/
theorem last?_feed (hfresh : i.desk.continuity = .empty) {cs : List Callback} {o : Origin}
    (h : (feed cs i).2.desk.continuity.last? o ≠ none) :
    ∃ s, lastSignal? o cs = some s ∧ s ≠ .disconnected := by
  induction cs using List.reverseRecOn with
  | nil =>
    have hnone : i.desk.continuity.last? o = none := by
      rw [hfresh]
      rfl
    exact absurd hnone h
  | append_singleton cs c ih =>
    have hfeed : (feed (cs ++ [c]) i).2 = ((feed cs i).2.deliver c).state := congrArg Prod.snd feed_append
    obtain ⟨hother, hlost⟩ := last?_deliver (feed cs i).2 c o
    rw [hfeed] at h
    rw [lastSignal?_append, lastSignal?_singleton]
    by_cases ho : c.origin = o
    · rw [if_pos ho]
      exact ⟨c.signal, rfl, fun hsignal => h (hlost ho hsignal)⟩
    · rw [if_neg ho]
      rw [hother ho] at h
      exact ih h

/-- If every origin reports its loss in the end, then after the last callback no number is left, and at any point before
it there are numbers of those origins only whose loss is still to come. -/
theorem forgets {cs : List Callback} (hended : Ended cs) (hfresh : i.desk.continuity = .empty) :
    (feed cs i).2.desk.continuity = .empty ∧
    ∀ front back, cs = front ++ back → ∀ o, (feed front i).2.desk.continuity.last? o ≠ none →
      ∃ c ∈ back, c.origin = o ∧ c.signal = .disconnected := by
  have hcome : ∀ front back, cs = front ++ back → ∀ o, (feed front i).2.desk.continuity.last? o ≠ none →
      ∃ c ∈ back, c.origin = o ∧ c.signal = .disconnected := by
    rintro front back rfl o hnumber
    obtain ⟨s, hlast, hs⟩ := last?_feed hfresh hnumber
    obtain ⟨c, hc, rfl, -⟩ := exists_of_lastSignal? hlast
    have hend := hended c (List.mem_append_left back hc)
    rw [lastSignal?_append, hlast] at hend
    refine exists_of_lastSignal? ?_
    cases hback : lastSignal? c.origin back with
    | none =>
      rw [hback] at hend
      exact absurd (Option.some.inj hend) hs
    | some s' =>
      rw [hback] at hend
      exact hend
  refine ⟨?_, hcome⟩
  refine congrArg Continuity.mk (SortedMap.ext_get? fun o => ?_)
  by_contra hnumber
  obtain ⟨c, hc, -⟩ := hcome cs [] (List.append_nil cs).symm o hnumber
  cases hc

/-- A message without events. -/
def numbered (o : Origin) (sequence : String) : Callback :=
  .data o <| ("\x7b\"channel\":\"heartbeats\",\"sequence_num\":" ++ sequence ++ ",\"events\":[]\x7d").toUTF8.data.toList

/-- A replaced connection has its number forgotten as well. -/
theorem forgets_replaced :
    let old : Origin := ⟨⟨0, 1⟩, .market⟩
    let new : Origin := ⟨⟨0, 2⟩, .market⟩
    let front : List Callback := [numbered old "1", numbered new "1", numbered old "2"]
    let back : List Callback := [.disconnected old, .disconnected new]
    (feed front .empty).2.desk.continuity.last? old = some 1 ∧
    ¬ (feed front .empty).2.Admits (.disconnected old) ∧
    (feed (front ++ back) .empty).2.desk.continuity = .empty ∧
    ∃ c ∈ back, c.origin = old ∧ c.signal = .disconnected := by
  intro old new front back
  have hended : Ended (front ++ back) := by decide +kernel
  have hnumber : (feed front .empty).2.desk.continuity.last? old = some 1 := by decide +kernel
  obtain ⟨hempty, hcome⟩ := forgets hended (i := .empty) rfl
  exact ⟨hnumber, by decide +kernel, hempty, hcome front back rfl old (by rw [hnumber]; exact Option.some_ne_none 1)⟩

end Pipeline.Intake

end MarketFeed
