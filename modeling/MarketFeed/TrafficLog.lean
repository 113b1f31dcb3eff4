import MarketFeed.Relay.Ring

/-!
# TrafficLog — what came in, line by line

The client's data log. Every payload is put on a queue of its own and written to a file by
somebody else, who from time to time takes all that is there and puts a line end behind
each payload. A recorder that finds the queue full waits for that. A payload too large for
the queue is dropped and counted. Stopping writes what is left; what is recorded later is
ignored.

- the queue is the relay ring, in its rejecting form; `put?` is one attempt of `record`,
  and `none` is where the recorder tries again;
- the writer is not a thread of its own here. `write` is one round of it, and rounds can
  be put anywhere between other operations;
- `record` is a recorder alone with a writer: one round of writing makes room for any
  payload that is not too large.

The operations give the bytes that go to the end of the file; who runs them keeps the
file. That a payload may itself contain line ends is not looked at: it is written as it
came.
-/

namespace MarketFeed

/-- The queue before the file, the payloads dropped, the lines written, and whether it still records. -/
structure TrafficLog where
  ring : Relay.Ring
  dropped : Nat
  lines : Nat
  running : Bool

namespace TrafficLog

/-- A log that starts recording. -/
def start (capacity : Nat) : TrafficLog :=
  ⟨(Relay.Ring.ofSizing ⟨capacity, .reject⟩).takeReader.2, 0, 0, true⟩

/-- A payload as it stands in the file. -/
def line (payload : Bytes) : Bytes := payload ++ ['\n'.toUInt8]

/-- Takes payloads off the queue, at most `fuel` of them. -/
def takeLines : (fuel : Nat) → TrafficLog → Bytes × TrafficLog
  | 0, l => ([], l)
  | fuel + 1, l =>
    match l.ring.next with
    | (none, ring) => ([], { l with ring })
    | (some reading, ring) =>
      let (rest, l) := takeLines fuel { l with ring, lines := l.lines + 1 }
      (line reading.payload ++ rest, l)

/-- One round of writing: all that is on the queue. Every payload takes a word there at least. -/
def write (l : TrafficLog) : Bytes × TrafficLog := takeLines (l.ring.used / Relay.headerWidth + 1) l

/-- Puts a payload on the queue if there is room; `none` when there is not. -/
def put? (l : TrafficLog) (payload : Bytes) : Option TrafficLog :=
  if l.running then
    match l.ring.reserve payload.length with
    | .granted grant ring => some { l with ring := ring.complete grant payload }
    | .refused (.tooLarge _ _) => some { l with dropped := l.dropped + 1 }
    | .refused (.full _ _ _) | .waits => none
    -- no string in memory is so long; the call would end there
    | .overflow => some l
  else some l

/-- Records a payload; when there is no room, a round of writing makes some. -/
def record (l : TrafficLog) (payload : Bytes) : Bytes × TrafficLog :=
  match l.put? payload with
  | some l => ([], l)
  | none =>
    let (written, l) := l.write
    (written, (l.put? payload).getD l)

/-- Stops recording and writes what is left; the answer is the number of lines written in all, and zero when it
was stopped before. -/
def stop (l : TrafficLog) : Nat × Bytes × TrafficLog :=
  if l.running then
    let (written, l) := l.write
    (l.lines, written, { l with running := false })
  else (0, [], l)

/-- Records payloads in turn. -/
def recordAll : TrafficLog → List Bytes → Bytes × TrafficLog
  | l, [] => ([], l)
  | l, payload :: rest =>
    let (written, l) := l.record payload
    let (more, l) := recordAll l rest
    (written ++ more, l)

end TrafficLog

end MarketFeed
