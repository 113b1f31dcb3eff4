import MarketFeed.Text.Blank
import MarketFeed.Text.Integer

/-!
# Calendar — instants as nanoseconds since 1970

The venue writes instants as `2023-02-09T20:32:50.714964855Z`; book ordering compares them
as integers. This module reads that form: a proleptic Gregorian date, a time of day with
up to nanosecond precision and an offset from universal time. A second numbered 60 is a
leap second, one second after number 59.

- digits behind the ninth of a fraction are read and dropped;
- an instant has to fit in 64 bits as a number of nanoseconds, which is the case from 1677
  to 2262; others are refused as texts that are no instants are;
- an empty text is an instant that is not set, which is zero;
- the offset may be written with the minus sign of typography too (`minusSigns`).

> `daysBefore_succ`: the closed form for the days before a year grows by that year's
> length.

Nothing is read from the clock here: instants come in messages only, and are never
compared with the time of the client.
-/

namespace MarketFeed.Calendar

open MarketFeed.Text

/-! ## Dates -/

/-- Whether a year has a 29th of February. -/
def isLeap (year : Nat) : Bool := year % 4 == 0 && (year % 100 != 0 || year % 400 == 0)

def daysInMonth (year month : Nat) : Nat :=
  match month with
  | 2 => if isLeap year then 29 else 28
  | 4 | 6 | 9 | 11 => 30
  | _ => 31

/-- The days from the start of year 0 to the start of `year`. -/
def daysBefore (year : Nat) : Nat :=
  365 * year + (year + 3) / 4 - (year + 99) / 100 + (year + 399) / 400

/-- The closed form counts each year at its length. -/
theorem daysBefore_succ (year : Nat) :
    daysBefore (year + 1) = daysBefore year + (if isLeap year then 366 else 365) := by
  -- each rounded quotient moves on exactly behind a multiple of its divisor
  have h₄ : (year + 1 + 3) / 4 = (year + 3) / 4 + (if year % 4 = 0 then 1 else 0) := by
    split <;> omega
  have h₁₀₀ : (year + 1 + 99) / 100 = (year + 99) / 100 + (if year % 100 = 0 then 1 else 0) := by
    split <;> omega
  have h₄₀₀ : (year + 1 + 399) / 400 = (year + 399) / 400 + (if year % 400 = 0 then 1 else 0) := by
    split <;> omega
  have hle : (year + 99) / 100 ≤ 365 * year + (year + 3) / 4 := by omega
  simp only [daysBefore, h₄, h₁₀₀, h₄₀₀]
  by_cases a : year % 400 = 0
  · have b : year % 100 = 0 := by omega
    have c : year % 4 = 0 := by omega
    have hleap : isLeap year = true := by simp [isLeap, a, c]
    rw [if_pos a, if_pos b, if_pos c, if_pos hleap]
    omega
  · by_cases b : year % 100 = 0
    · have c : year % 4 = 0 := by omega
      have hleap : ¬ isLeap year = true := by simp [isLeap, a, b]
      rw [if_neg a, if_pos b, if_pos c, if_neg hleap]
      omega
    · by_cases c : year % 4 = 0
      · have hleap : isLeap year = true := by simp [isLeap, b, c]
        rw [if_neg a, if_neg b, if_pos c, if_pos hleap]
        omega
      · have hleap : ¬ isLeap year = true := by simp [isLeap, c]
        rw [if_neg a, if_neg b, if_neg c, if_neg hleap]
        omega

/-- The days from the start of the year to the start of a month. -/
def daysBeforeMonth (year : Nat) : Nat → Nat
  | 0 => 0
  | 1 => 0
  | m + 2 => daysBeforeMonth year (m + 1) + daysInMonth year (m + 1)

/-- The day 1970-01-01, counted from the start of year 0. -/
def epochDay : Nat := daysBefore 1970

/-- Days from 1970-01-01 to a date, if there is such a date. -/
def day? (year month day : Nat) : Option Int :=
  if 1 ≤ month ∧ month ≤ 12 ∧ 1 ≤ day ∧ day ≤ daysInMonth year month then
    some ((daysBefore year + daysBeforeMonth year month + (day - 1) : Nat) - (epochDay : Int))
  else none

/-! ## Reading -/

/-- A number of exactly `n` digits, and the text behind it. -/
def fixed? (n : Nat) (cs : List Char) : Option (Nat × List Char) :=
  if cs.length < n then none else (digits? (cs.take n)).map (·, cs.drop n)

/-- A given character, and the text behind it. -/
def after? (allowed : List Char) : List Char → Option (List Char)
  | [] => none
  | c :: rest => if allowed.contains c then some rest else none

/-- The fraction of a second in nanoseconds, digits beyond the ninth dropped; none written is zero. -/
def fraction? : List Char → Option (Nat × List Char)
  | '.' :: rest =>
    let ds := rest.takeWhile (fun c => (digit? c).isSome)
    let kept := ds.take 9
    (digits? kept).map (fun n => (n * tenTo (9 - kept.length), rest.drop ds.length))
  | cs => some (0, cs)

/-- Minus signs an offset may start with. -/
def minusSigns : List Char := ['-', '\u2212']

/-- The offset from universal time in seconds; it ends the text. -/
def offset? : List Char → Option Int
  | [c] => if c = 'Z' ∨ c = 'z' then some 0 else none
  | c :: rest => do
    let sign : Int ← if c = '+' then some 1 else if minusSigns.contains c then some (-1) else none
    let (hours, rest) ← fixed? 2 rest
    let rest ← after? [':'] rest
    let (minutes, rest) ← fixed? 2 rest
    if rest.isEmpty ∧ hours < 24 ∧ minutes < 60 then some (sign * (hours * 3600 + minutes * 60)) else none
  | [] => none

/-- An instant as nanoseconds since 1970, of any size. -/
def instant? (cs : List Char) : Option Int := do
  let (year, cs) ← fixed? 4 cs
  let cs ← after? ['-'] cs
  let (month, cs) ← fixed? 2 cs
  let cs ← after? ['-'] cs
  let (dayOfMonth, cs) ← fixed? 2 cs
  let cs ← after? ['T', 't', ' '] cs
  let (hour, cs) ← fixed? 2 cs
  let cs ← after? [':'] cs
  let (minute, cs) ← fixed? 2 cs
  let cs ← after? [':'] cs
  let (second, cs) ← fixed? 2 cs
  let (nanos, cs) ← fraction? cs
  let shift ← offset? cs
  let days ← day? year month dayOfMonth
  if hour < 24 ∧ minute < 60 ∧ second ≤ 60 then
    some ((days * 86400 + hour * 3600 + minute * 60 + second - shift) * 1000000000 + nanos)
  else none

/-- Instants are kept as signed 64-bit numbers. -/
def instantBound : Int := signedBound

/-- A timestamp field: trimmed, empty for unset (zero), and within 64 bits. -/
def read? (text : String) : Option Int :=
  match trim text.toList with
  | [] => some 0
  | cs => (instant? cs).filter (fun n => -instantBound ≤ n && n < instantBound)

end MarketFeed.Calendar
