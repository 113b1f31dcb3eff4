import MarketFeed.Proofs.Relay.Admission
import MarketFeed.Proofs.Relay.Parcels
import MarketFeed.TrafficLog

/-!
# TrafficLog — nothing is lost, repeated or put in another order

The traffic log is a queue of payloads in front of a file, on the same ring as the feeds.
A recorder puts a payload on the queue, or waits while there is no room; a writer takes
payloads off and writes each as a line. One that is larger than the queue allows is
dropped and counted.

Payloads are recorded one after the other, and the writer takes payloads off the queue
whenever it likes and as many as it likes, also while a recorder waits for room
(`Recording.Turn`). All along, the file and what is still on the queue are the lines of
the payloads recorded so far that are not too large:

> `Recording.Keeps`: the file, and behind it the queue, hold what was accepted of the
> calls that have returned, and the rest of them is counted as dropped.

Every turn keeps that (`Tracks.step`), and so does every course of turns. What is promised
follows from it:

> `stop_complete`: when all calls have returned, stopping writes what is left, reports how
> many lines there are, and changes nothing when it is done again; and a call that waits
> returns once the writer has taken all there is, so every course can be brought to its
> end.

About the ring itself nothing is proved here. That a ring holds a queue of payloads, what
a reservation adds to it and what reading takes away is in `Relay.Parcels`, and which
payloads are admitted is in `Relay.Admission`.
-/

namespace MarketFeed

open Relay

namespace TrafficLog

variable {l : TrafficLog} {queue : List Bytes}

/-! ## Writing -/

private theorem takeLines_of_none {n : Nat} (h : l.ring.next.1 = none) :
    takeLines (n + 1) l = ([], { l with ring := l.ring.next.2 }) := by
  rw [takeLines]
  generalize l.ring.next = answer at *
  obtain ⟨out, ring⟩ := answer
  simp only at h
  subst h
  rfl

private theorem takeLines_of_some {n : Nat} {reading : Reading} (h : l.ring.next.1 = some reading) :
    takeLines (n + 1) l =
      (line reading.payload ++ (takeLines n { l with ring := l.ring.next.2, lines := l.lines + 1 }).1,
        (takeLines n { l with ring := l.ring.next.2, lines := l.lines + 1 }).2) := by
  rw [takeLines]
  generalize l.ring.next = answer at *
  obtain ⟨out, ring⟩ := answer
  simp only at h
  subst h
  rfl

/-- That payloads from the front of the queue are taken, at most `n`, and come out as lines. -/
structure Takes (l : TrafficLog) (queue : List Bytes) (n : Nat) (written : Bytes) (after : TrafficLog) : Prop where
  written : written = (queue.take n).flatMap line
  left : after.ring.Queues (queue.drop n)
  lines : after.lines = l.lines + (queue.take n).length
  capacity : after.ring.capacity = l.ring.capacity
  dropped : after.dropped = l.dropped
  running : after.running = l.running
  /-- Whoever takes more than there is empties the ring. -/
  emptied : queue.length < n → after.ring.read = after.ring.write

/-- The writer takes from the front of the queue, as many as it wants or as there are. -/
theorem takes (h : l.ring.Queues queue) (n : Nat) : l.Takes queue n (takeLines n l).1 (takeLines n l).2 := by
  induction n generalizing l queue with
  | zero => exact ⟨rfl, h, rfl, rfl, rfl, rfl, fun hn => absurd hn (Nat.not_lt_zero _)⟩
  | succ n ih =>
    obtain ⟨hfront, hrest⟩ := h.next
    have hcapacity := Ring.capacity_next l.ring
    cases queue with
    | nil =>
      have hread := h.emptied
      rw [takeLines_of_none (Option.map_eq_none_iff.1 hfront)]
      generalize l.ring.next.2 = ring at *
      exact ⟨rfl, hrest, rfl, hcapacity, rfl, rfl, fun _ => hread⟩
    | cons p queue =>
      obtain ⟨reading, hsome, hpayload⟩ := Option.map_eq_some_iff.1 hfront
      rw [takeLines_of_some hsome, hpayload]
      generalize l.ring.next.2 = ring at *
      have hmore := ih (l := { l with ring, lines := l.lines + 1 }) hrest
      refine ⟨?_, hmore.left, ?_, hmore.capacity.trans hcapacity, hmore.dropped, hmore.running, ?_⟩
      · rw [hmore.written]
        rfl
      · rw [hmore.lines, List.take_succ_cons, List.length_cons]
        exact Nat.add_right_comm _ _ _
      · intro hn
        exact hmore.emptied (Nat.lt_of_succ_lt_succ hn)

private theorem length_lt_round (h : l.ring.Queues queue) : queue.length < l.ring.used / headerWidth + 1 := by
  have hwords := h.words_le
  simp only [headerWidth] at *
  omega

/-- A round of writing has a bound that it does not reach. -/
theorem exists_write_eq (l : TrafficLog) :
    ∃ limit, l.ring.used / headerWidth < limit ∧ l.write = takeLines limit l :=
  ⟨_, Nat.lt_succ_self _, rfl⟩

/-! ## Putting payloads on the queue -/

private theorem capacity_start (capacity : Nat) : (start capacity).ring.capacity = Ring.capacityFor capacity :=
  Memory.size_zeros _

/-- The payloads that are not too large for a queue of this capacity. -/
def accepted (capacity : Nat) (payloads : List Slice) : List Slice :=
  payloads.filter fun p => decide (p.val.length ≤ (start capacity).ring.greatestPayload)

private theorem accepted_append_singleton (capacity : Nat) (payloads : List Slice) (p : Slice) :
    accepted capacity (payloads ++ [p]) = accepted capacity payloads ++
      if p.val.length ≤ (start capacity).ring.greatestPayload then [p] else [] := by
  unfold accepted
  rw [List.filter_append]
  by_cases hfits : p.val.length ≤ (start capacity).ring.greatestPayload <;> simp [hfits]

section

variable {capacity : Nat} {p : Slice}

private theorem length_lt_size (p : Slice) : p.val.length + 16 < UInt64.size := by
  have hslice := p.property
  simp only [sliceBound, UInt64.size] at *
  omega

private theorem put?_of_tooLarge (hrunning : l.running = true) (hcapacity : l.ring.capacity = Ring.capacityFor capacity)
    (hlong : l.ring.greatestPayload < p.val.length) : l.put? p.val = some { l with dropped := l.dropped + 1 } := by
  have hdvd := hcapacity ▸ capacityFor_dvd capacity
  have hlarge := hcapacity ▸ (Ring.capacityFor_bounds capacity).1
  unfold put?
  rw [if_pos hrunning, Ring.reserve_eq hdvd hlarge (length_lt_size p), if_pos hlong]

/-- A payload that is not too large is put on the queue just if there is room. -/
theorem put?_of_fits (hrunning : l.running = true) (hcapacity : l.ring.capacity = Ring.capacityFor capacity)
    (hfits : p.val.length ≤ l.ring.greatestPayload) :
    l.put? p.val = match l.ring.reserve p.val.length with
      | .granted grant ring => some { l with ring := ring.complete grant p.val }
      | _ => none := by
  have hdvd := hcapacity ▸ capacityFor_dvd capacity
  have hlarge := hcapacity ▸ (Ring.capacityFor_bounds capacity).1
  have hnot (size greatest : Nat) : l.ring.reserve p.val.length ≠ .refused (.tooLarge size greatest) := by
    rw [Ring.reserve_eq hdvd hlarge (length_lt_size p), if_neg (Nat.not_lt.2 hfits)]
    split
    next => cases l.ring.backpressure <;> exact nofun
    next => exact nofun
  have hrange : l.ring.reserve p.val.length ≠ .overflow := fun hover =>
    absurd (Ring.reserve_eq_overflow_iff.1 hover) (Nat.not_le.2 (length_lt_size p))
  unfold put?
  rw [if_pos hrunning]
  cases hres : l.ring.reserve p.val.length with
  | granted grant ring => rfl
  | waits => rfl
  | overflow => exact absurd hres hrange
  | refused refusal =>
    cases refusal with
    | full _ _ _ => rfl
    | tooLarge size greatest => exact absurd hres (hnot size greatest)

private theorem queues_of_put? (hrunning : l.running = true) (hcapacity : l.ring.capacity = Ring.capacityFor capacity)
    (h : l.ring.Queues queue) (hfits : p.val.length ≤ l.ring.greatestPayload) {after : TrafficLog}
    (hput : l.put? p.val = some after) : after.ring.Queues (queue ++ [p.val]) ∧
      after.ring.capacity = l.ring.capacity ∧ after = { l with ring := after.ring } := by
  rw [put?_of_fits hrunning hcapacity hfits] at hput
  split at hput
  next grant ring hres =>
    obtain rfl := Option.some.inj hput
    exact ⟨h.complete hres, (Ring.capacity_complete _ _ _).trans (Ring.capacity_reserve hres), rfl⟩
  next => cases hput

/-- An emptied ring has room for every payload that is not too large. -/
theorem isSome_put?_of_emptied (hrunning : l.running = true) (hcapacity : l.ring.capacity = Ring.capacityFor capacity)
    (hempty : l.ring.read = l.ring.write) : (l.put? p.val).isSome = true := by
  obtain ⟨hlarge, hsmall, -⟩ := Ring.capacityFor_bounds capacity
  have hdvd := capacityFor_dvd capacity
  rw [← hcapacity] at hlarge hsmall hdvd
  by_cases hfits : p.val.length ≤ l.ring.greatestPayload
  · obtain ⟨grant, ring, hres⟩ := Ring.exists_reserve_of_empty hdvd hlarge hsmall hempty hfits
    rw [put?_of_fits hrunning hcapacity hfits, hres]
    rfl
  · rw [put?_of_tooLarge hrunning hcapacity (Nat.lt_of_not_le hfits)]
    rfl

end

end TrafficLog

/-! ## Recording -/

/-- A log, the file behind it, and the calls to record that have not returned yet, in their order. -/
structure Recording where
  log : TrafficLog
  file : Bytes
  waiting : List Slice

namespace Recording

/-- What happens next. -/
inductive Turn where
  /-- The call in front is made and returns, the writer making room for it if need be. -/
  | record
  /-- The call in front tries to put its payload on the queue. -/
  | attempt
  /-- The writer takes payloads off the queue, at most so many. -/
  | take (limit : Nat)

/-- A log that starts, in front of a file and of all the calls. -/
def start (capacity : Nat) (file : Bytes) (payloads : List Slice) : Recording := ⟨.start capacity, file, payloads⟩

def attempt (r : Recording) : Recording :=
  match r.waiting with
  | [] => r
  | p :: rest =>
    match r.log.put? p.val with
    | none => r
    | some log => { r with log, waiting := rest }

def take (r : Recording) (limit : Nat) : Recording :=
  { r with
    log := (TrafficLog.takeLines limit r.log).2
    file := r.file ++ (TrafficLog.takeLines limit r.log).1 }

def step (r : Recording) : Turn → Recording
  | .record =>
    match r.waiting with
    | [] => r
    | p :: rest => ⟨(r.log.record p.val).2, r.file ++ (r.log.record p.val).1, rest⟩
  | .attempt => r.attempt
  | .take limit => r.take limit

def run (r : Recording) (turns : List Turn) : Recording := turns.foldl step r

/-- What ties a recording to the calls that have returned: the file and the queue have what was accepted of them. -/
structure Keeps (capacity : Nat) (file : Bytes) (done : List Slice) (r : Recording) : Prop where
  running : r.log.running = true
  memory : r.log.ring.capacity = Ring.capacityFor capacity
  dropped : r.log.dropped + (TrafficLog.accepted capacity done).length = done.length
  queued : ∃ queue, r.log.ring.Queues queue ∧
    r.log.lines + queue.length = (TrafficLog.accepted capacity done).length ∧
    r.file ++ queue.flatMap TrafficLog.line =
      file ++ (TrafficLog.accepted capacity done).flatMap fun p => TrafficLog.line p.val

variable {capacity : Nat} {file : Bytes} {done payloads : List Slice} {r : Recording}

/-- What the writer takes goes from the queue to the file. -/
theorem Keeps.take (h : r.Keeps capacity file done) (limit : Nat) : (r.take limit).Keeps capacity file done := by
  obtain ⟨queue, hqueues, hlines, hfile⟩ := h.queued
  have htakes := TrafficLog.takes hqueues limit
  refine ⟨htakes.running.trans h.running, htakes.capacity.trans h.memory, ?_, _, htakes.left, ?_, ?_⟩
  · show (TrafficLog.takeLines limit r.log).2.dropped + _ = _
    rw [htakes.dropped]
    exact h.dropped
  · show (TrafficLog.takeLines limit r.log).2.lines + _ = _
    rw [htakes.lines, ← hlines, Nat.add_assoc, ← List.length_append, List.take_append_drop]
  · show (r.file ++ (TrafficLog.takeLines limit r.log).1) ++ _ = _
    rw [htakes.written, List.append_assoc, ← List.flatMap_append, List.take_append_drop]
    exact hfile

/-- A call that returns has put its payload on the queue, or dropped it because it is too large. -/
theorem Keeps.put (h : r.Keeps capacity file done) {p : Slice} {log : TrafficLog} (hput : r.log.put? p.val = some log)
    (rest : List Slice) : Keeps capacity file (done ++ [p]) { r with log, waiting := rest } := by
  obtain ⟨queue, hqueues, hlines, hfile⟩ := h.queued
  have hdropped := h.dropped
  have hgreatest : r.log.ring.greatestPayload = (TrafficLog.start capacity).ring.greatestPayload := by
    unfold Ring.greatestPayload
    rw [h.memory, TrafficLog.capacity_start]
  -- the greatest payload is that of the start, since the memory keeps its size
  by_cases hfits : p.val.length ≤ r.log.ring.greatestPayload
  · obtain ⟨hqueues', hcapacity, hlog⟩ := TrafficLog.queues_of_put? h.running h.memory hqueues hfits hput
    have haccepted : TrafficLog.accepted capacity (done ++ [p]) = TrafficLog.accepted capacity done ++ [p] := by
      rw [TrafficLog.accepted_append_singleton, if_pos (hgreatest ▸ hfits)]
    rw [hlog]
    refine ⟨h.running, hcapacity.trans h.memory, ?_, _, hqueues', ?_, ?_⟩
    · rw [haccepted, List.length_append, List.length_append, ← Nat.add_assoc, hdropped]
    · rw [haccepted, List.length_append, List.length_append, ← Nat.add_assoc, hlines]
      rfl
    · rw [haccepted, List.flatMap_append, List.flatMap_append, ← List.append_assoc, hfile, List.append_assoc]
      rfl
  · have haccepted : TrafficLog.accepted capacity (done ++ [p]) = TrafficLog.accepted capacity done := by
      rw [TrafficLog.accepted_append_singleton, if_neg (hgreatest ▸ hfits), List.append_nil]
    rw [TrafficLog.put?_of_tooLarge h.running h.memory (Nat.lt_of_not_le hfits)] at hput
    obtain rfl := Option.some.inj hput
    refine ⟨h.running, h.memory, ?_, queue, hqueues, ?_, ?_⟩
    · rw [haccepted, List.length_append, ← hdropped]
      exact Nat.add_right_comm _ _ _
    · rw [haccepted]
      exact hlines
    · rw [haccepted]
      exact hfile

/-- That some of the payloads are recorded and the others wait. -/
def Tracks (capacity : Nat) (file : Bytes) (payloads : List Slice) (r : Recording) : Prop :=
  ∃ done, payloads = done ++ r.waiting ∧ r.Keeps capacity file done

/-- The writer takes nothing from the calls that wait. -/
theorem Tracks.take (h : r.Tracks capacity file payloads) (limit : Nat) :
    (r.take limit).Tracks capacity file payloads := by
  obtain ⟨done, hpayloads, hkeeps⟩ := h
  exact ⟨done, hpayloads, hkeeps.take limit⟩

/-- An attempt brings one call back, or leaves all waiting. -/
theorem Tracks.attempt (h : r.Tracks capacity file payloads) : r.attempt.Tracks capacity file payloads := by
  obtain ⟨done, hpayloads, hkeeps⟩ := h
  unfold Recording.attempt
  split
  next => exact ⟨done, hpayloads, hkeeps⟩
  next p rest hwaiting =>
    split
    next => exact ⟨done, hpayloads, hkeeps⟩
    next log hput =>
      refine ⟨done ++ [p], ?_, hkeeps.put hput rest⟩
      rw [hpayloads, hwaiting, List.append_assoc]
      rfl

/-- Once the writer has taken all there is, the call in front returns. -/
theorem Tracks.waiting_attempt (h : r.Tracks capacity file payloads) {limit : Nat}
    (hlimit : r.log.ring.used / headerWidth < limit) : (r.take limit).attempt.waiting = r.waiting.tail := by
  obtain ⟨done, -, hkeeps⟩ := h
  obtain ⟨queue, hqueues, -⟩ := hkeeps.queued
  have hlength := TrafficLog.length_lt_round hqueues
  have htakes := TrafficLog.takes hqueues limit
  have hempty := htakes.emptied (Nat.lt_of_lt_of_le hlength hlimit)
  have htaken := hkeeps.take limit
  have hwaiting : (r.take limit).waiting = r.waiting := rfl
  unfold Recording.attempt
  rw [hwaiting]
  cases hcalls : r.waiting with
  | nil => exact hwaiting.trans hcalls
  | cons p rest =>
    have hroom : ((r.take limit).log.put? p.val).isSome = true :=
      TrafficLog.isSome_put?_of_emptied htaken.running htaken.memory hempty
    obtain ⟨log, hput⟩ := Option.isSome_iff_exists.1 hroom
    simp only [hput, List.tail_cons]

/-- A call that is made in one go is one attempt, or a round of writing and another attempt. -/
theorem Tracks.step_record (h : r.Tracks capacity file payloads) :
    r.step .record = r.attempt ∨ ∃ limit, r.step .record = (r.take limit).attempt := by
  obtain ⟨limit, hlimit, hwrite⟩ := r.log.exists_write_eq
  have hreturns := h.waiting_attempt hlimit
  unfold step
  cases hcalls : r.waiting with
  | nil =>
    left
    unfold Recording.attempt
    rw [hcalls]
  | cons p rest =>
    simp only
    unfold TrafficLog.record
    cases hput : r.log.put? p.val with
    | some log =>
      left
      unfold Recording.attempt
      rw [hcalls]
      simp only [hput, List.append_nil]
    | none =>
      right
      refine ⟨limit, ?_⟩
      rw [hwrite]
      rw [hcalls] at hreturns
      have hwaiting : (r.take limit).waiting = p :: rest := hcalls
      unfold Recording.attempt at hreturns ⊢
      rw [hwaiting] at hreturns ⊢
      simp only at hreturns ⊢
      cases hroom : (r.take limit).log.put? p.val with
      | none =>
        -- the call would still wait
        rw [hroom] at hreturns
        exact absurd (congrArg List.length (hwaiting.symm.trans hreturns)) (Nat.succ_ne_self _)
      | some log =>
        have hround : (TrafficLog.takeLines limit r.log).2.put? p.val = some log := hroom
        rw [hround]
        rfl

/-- Every turn keeps the calls, the queue and the file together. -/
theorem Tracks.step (h : r.Tracks capacity file payloads) (turn : Turn) :
    (r.step turn).Tracks capacity file payloads := by
  cases turn with
  | record =>
    rcases h.step_record with hstep | ⟨limit, hstep⟩
    · rw [hstep]
      exact h.attempt
    · rw [hstep]
      exact (h.take limit).attempt
  | attempt => exact h.attempt
  | take limit => exact h.take limit

/-- So does every course of turns. -/
theorem Tracks.run (h : r.Tracks capacity file payloads) (turns : List Turn) :
    (r.run turns).Tracks capacity file payloads := by
  induction turns generalizing r with
  | nil => exact h
  | cons turn rest ih => exact ih (h.step turn)

/-! ## Stopping -/

/-- What comes of stopping when all calls have returned, for the file and for calls that come too late. -/
structure Complete (capacity : Nat) (file : Bytes) (payloads : List Slice) (r : Recording) : Prop where
  file : r.file ++ r.log.stop.2.1 =
    file ++ (TrafficLog.accepted capacity payloads).flatMap fun p => TrafficLog.line p.val
  lines : r.log.stop.1 = (TrafficLog.accepted capacity payloads).length
  dropped : r.log.stop.2.2.dropped + (TrafficLog.accepted capacity payloads).length = payloads.length
  ignores : ∀ late, r.log.stop.2.2.recordAll late = ([], r.log.stop.2.2)
  again : r.log.stop.2.2.stop = (0, [], r.log.stop.2.2)

end Recording

private theorem TrafficLog.recordAll_of_stopped {l : TrafficLog} (h : l.running = false) (payloads : List Bytes) :
    l.recordAll payloads = ([], l) := by
  induction payloads with
  | nil => rfl
  | cons p rest ih =>
    have hignored : l.record p = ([], l) := by
      unfold record put?
      simp only [h, Bool.false_eq_true, if_false]
    rw [recordAll, hignored]
    simp only [ih, List.append_nil]

namespace Recording

variable {capacity : Nat} {file : Bytes} {payloads : List Slice} {r : Recording}

/-- With no call waiting, the queue holds all that the file does not have yet. -/
theorem Tracks.complete (h : r.Tracks capacity file payloads) (hwaiting : r.waiting = []) :
    r.Complete capacity file payloads := by
  obtain ⟨done, hpayloads, hkeeps⟩ := h
  rw [hwaiting, List.append_nil] at hpayloads
  subst hpayloads
  obtain ⟨queue, hqueues, hlines, hfile⟩ := hkeeps.queued
  obtain ⟨limit, hlimit, hwrite⟩ := r.log.exists_write_eq
  have htakes := TrafficLog.takes hqueues limit
  -- one round of writing takes all that is there
  have hall : queue.take limit = queue :=
    List.take_of_length_le (Nat.le_trans (Nat.le_of_lt (TrafficLog.length_lt_round hqueues)) hlimit)
  have hstop : r.log.stop = ((TrafficLog.takeLines limit r.log).2.lines, (TrafficLog.takeLines limit r.log).1,
      { (TrafficLog.takeLines limit r.log).2 with running := false }) := by
    unfold TrafficLog.stop
    rw [if_pos hkeeps.running, hwrite]
  have hwritten := htakes.written
  have hmore := htakes.lines
  have hdropped := htakes.dropped
  rw [hall] at hwritten hmore
  generalize TrafficLog.takeLines limit r.log = taken at *
  refine ⟨?_, ?_, ?_, ?_, ?_⟩
  · rw [hstop, hwritten]
    exact hfile
  · rw [hstop, hmore]
    exact hlines
  · rw [hstop, ← hkeeps.dropped]
    exact congrArg (· + _) hdropped
  · rw [hstop]
    exact TrafficLog.recordAll_of_stopped rfl
  · rw [hstop]
    rfl

end Recording

end MarketFeed
