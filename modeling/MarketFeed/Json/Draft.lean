import MarketFeed.Json.Value

/-!
# Json.Draft — a JSON text read for its structure

A reader that decodes while it reads reports the first fault it meets, and passes over
values it has no use for with a coarser eye. Both are kept apart from the decoding itself
here: a draft is the tree of a JSON text up to the point where the text breaks off, and a
fault is a leaf of that tree. A fault knows what is reported when the value is read and
whether it stops the reader when the value is skipped. A number too large, an ill-formed
string or a lone surrogate is a fault only when read; a missing bracket is one in both
cases.

`settle` turns a draft without faults into a value: members in the order of their names,
the last of equal names winning, and no deeper nesting than a reader allows.

Reading goes byte by byte, with one function for each kind of thing and the bytes that are
left as a part of its answer. Their bounds count down from the length of the text. Since a
level of nesting and an item each take a byte at least, a bound is never reached before
the text ends.
-/

namespace MarketFeed.Json

/-- How a text fails to be JSON. -/
inductive Flaw where
  /-- The text has something that does not belong there. -/
  | malformed
  /-- The text ends too early. -/
  | truncated
deriving DecidableEq, Repr

/-- What a flawed value reports when read, what, if anything, when skipped, and what at its first character, to a
reader that wants something that starts differently. -/
structure Fault where
  read : Flaw
  skipped : Option Flaw
  start : Flaw := .malformed
deriving DecidableEq, Repr

namespace Fault

/-- The text ends before a value or a closing bracket. -/
def absent : Fault := ⟨.truncated, some .truncated, .truncated⟩

/-- The text ends inside a value, or behind a comma. -/
def truncated : Fault := ⟨.truncated, some .truncated, .malformed⟩

/-- The text goes on with something else. -/
def malformed : Fault := ⟨.malformed, some .malformed, .malformed⟩

/-- Only a reader that needs the value minds. -/
def unreadable : Fault := ⟨.malformed, none, .malformed⟩

end Fault

/-- The tree of a text; `ending` is the fault in place of a closing bracket. A member whose name is not
well-formed has none. -/
inductive Draft where
  | null
  | bool (value : Bool)
  | number (value : Number)
  | string (value : String)
  | array (items : List Draft) (ending : Option Fault)
  | object (members : List (Option String × Draft)) (ending : Option Fault)
  | flawed (fault : Fault)
deriving Repr

namespace Draft

instance : Inhabited Draft := ⟨null⟩

/-- Bytes of a text still to be read. -/
abbrev Bytes := List UInt8

/-! ## Characters -/

/-- Blanks between tokens. -/
def isBlank (b : UInt8) : Bool := b == 0x20 || b == 0x09 || b == 0x0A || b == 0x0D

/-- The text without blanks in front. -/
def skipBlanks (s : Bytes) : Bytes := s.dropWhile isBlank

def byte (c : Char) : UInt8 := c.toNat.toUInt8

def digit? (b : UInt8) : Option Nat := if 0x30 ≤ b ∧ b ≤ 0x39 then some (b.toNat - 0x30) else none

def hexDigit? (b : UInt8) : Option Nat :=
  if 0x30 ≤ b ∧ b ≤ 0x39 then some (b.toNat - 0x30)
  else if 0x61 ≤ b ∧ b ≤ 0x66 then some (b.toNat - 0x61 + 10)
  else if 0x41 ≤ b ∧ b ≤ 0x46 then some (b.toNat - 0x41 + 10)
  else none

/-- A fixed word; the text may break off inside it. -/
def word : Bytes → Bytes → Except Flaw Bytes
  | [], s => .ok s
  | _ :: _, [] => .error .truncated
  | w :: ws, b :: s => if w = b then word ws s else .error .malformed

/-! ## Strings -/

/-- The four digits of a code unit. -/
def codeUnit : Bytes → Except Flaw (Nat × Bytes)
  | a :: b :: c :: d :: s =>
    match hexDigit? a, hexDigit? b, hexDigit? c, hexDigit? d with
    | some a, some b, some c, some d => .ok (((a * 16 + b) * 16 + c) * 16 + d, s)
    | _, _, _, _ => .error .malformed
  | _ => .error .truncated

/-- The byte a one-letter escape stands for. -/
def shortEscape? (b : UInt8) : Option UInt8 :=
  if b = byte '"' then some (byte '"')
  else if b = byte '\\' then some (byte '\\')
  else if b = byte '/' then some (byte '/')
  else if b = byte 'b' then some 0x08
  else if b = byte 'f' then some 0x0C
  else if b = byte 'n' then some 0x0A
  else if b = byte 'r' then some 0x0D
  else if b = byte 't' then some 0x09
  else none

/-- Passes over the rest of a string, looking at escapes only for their shape. -/
def skipString : (fuel : Nat) → Bytes → Except Flaw Bytes
  | 0, _ => .error .truncated
  | _ + 1, [] => .error .truncated
  | fuel + 1, b :: s =>
    if b = byte '"' then .ok s
    else if b < 0x20 then .error .malformed
    else if b = byte '\\' then
      match s with
      | [] => .error .truncated
      | e :: s =>
        if e = byte 'u' then (codeUnit s).bind (fun r => skipString fuel r.2)
        else if (shortEscape? e).isSome then skipString fuel s
        else .error .malformed
    else skipString fuel s

/-- A code point from one code unit or a pair of surrogates. -/
def codePoint (s : Bytes) : Except Flaw (Nat × Bytes) := do
  let (n, s) ← codeUnit s
  if 0xDC00 ≤ n ∧ n ≤ 0xDFFF then .error .malformed
  else if n < 0xD800 ∨ 0xDBFF < n then .ok (n, s)
  else
    let s ← word [byte '\\', byte 'u'] s
    let (m, s) ← codeUnit s
    if m < 0xDC00 ∨ 0xDFFF < m then .error .malformed
    else .ok ((n - 0xD800) * 0x400 + (m - 0xDC00) + 0x10000, s)

/-- The bytes of the rest of a string, escapes replaced, and the text behind it. -/
def stringBytes : (fuel : Nat) → Bytes → Except Flaw (Bytes × Bytes)
  | 0, _ => .error .truncated
  | _ + 1, [] => .error .truncated
  | fuel + 1, b :: s =>
    if b = byte '"' then .ok ([], s)
    else if b < 0x20 then .error .malformed
    else if b = byte '\\' then
      match s with
      | [] => .error .truncated
      | e :: s =>
        if e = byte 'u' then do
          let (n, s) ← codePoint s
          let (bytes, s) ← stringBytes fuel s
          .ok (String.utf8EncodeChar (Char.ofNat n) ++ bytes, s)
        else match shortEscape? e with
          | some x => (stringBytes fuel s).map (fun r => (x :: r.1, r.2))
          | none => .error .malformed
    else (stringBytes fuel s).map (fun r => (b :: r.1, r.2))

/-- The rest of a string as text. -/
def readString (fuel : Nat) (s : Bytes) : Except Flaw String :=
  (stringBytes fuel s).bind fun r =>
    match Text.Utf8.decode? r.1 with
    | some t => .ok t
    | none => .error .malformed

/-! ## Numbers -/

/-- The digits in front, and the text behind them. -/
def digits : Bytes → List Nat × Bytes
  | [] => ([], [])
  | b :: s =>
    match digit? b with
    | some d => let (ds, s') := digits s; (d :: ds, s')
    | none => ([], b :: s)

/-- A digit is missing: a reader sees the end of the text as such, one that skips does not. -/
def digitMissing (s : Bytes) : Fault :=
  if s.isEmpty then ⟨.truncated, some .malformed, .malformed⟩ else .malformed

def someDigits (s : Bytes) : Except Fault (List Nat × Bytes) :=
  let (ds, s') := digits s
  if ds.isEmpty then .error (digitMissing s) else .ok (ds, s')

/-- The part behind a point, if there is one. -/
def fraction : Bytes → Except Fault (Option (List Nat) × Bytes)
  | b :: s => if b = byte '.' then (someDigits s).map (fun r => (some r.1, r.2)) else .ok (none, b :: s)
  | [] => .ok (none, [])

/-- The exponent, if there is one. -/
def exponent : Bytes → Except Fault (Option (Bool × List Nat) × Bytes)
  | b :: s =>
    if b = byte 'e' ∨ b = byte 'E' then
      let (negative, s) := match s with
        | c :: r => if c = byte '-' then (true, r) else if c = byte '+' then (false, r) else (false, c :: r)
        | [] => (false, [])
      (someDigits s).map (fun r => (some (negative, r.1), r.2))
    else .ok (none, b :: s)
  | [] => .ok (none, [])

/-- The integer digits: a leading zero stands alone. -/
def wholeDigits (s : Bytes) : Except Fault (List Nat × Bytes) := do
  let (ds, rest) ← someDigits s
  if ds.head? = some 0 ∧ 1 < ds.length then .error .malformed else .ok (ds, rest)

/-- An unsigned numeral, and the text behind it. -/
def numeral (negative : Bool) (s : Bytes) : Except Fault (Numeral × Bytes) := do
  let (whole, s) ← wholeDigits s
  let (frac, s) ← fraction s
  let (exp, s) ← exponent s
  .ok (⟨negative, whole, frac, exp⟩, s)

/-- A number, and the text behind it. -/
def readNumber (negative : Bool) (s : Bytes) : Draft × Option Bytes :=
  match numeral negative s with
  | .ok (x, rest) =>
    match x.value? with
    | some n => (.number n, some rest)
    | none => (.flawed .unreadable, some rest)
  | .error fault => (.flawed fault, none)

/-! ## Values -/

/-- A leaf and what follows it, or the fault that ends the text. -/
def leaf (value : Draft) : Except Flaw Bytes → Draft × Option Bytes
  | .ok rest => (value, some rest)
  | .error flaw => (.flawed ⟨flaw, some flaw, .malformed⟩, none)

/-- A string value, the opening quote already read; a reader of names reads it to its end. -/
def stringValue (fuel : Nat) (s : Bytes) : Draft × Option Bytes :=
  match skipString fuel s, readString fuel s with
  | .ok rest, .ok text => (.string text, some rest)
  | .ok rest, .error flaw => (.flawed ⟨flaw, none, flaw⟩, some rest)
  | .error skipped, .error flaw => (.flawed ⟨flaw, some skipped, flaw⟩, none)
  | .error skipped, .ok _ => (.flawed ⟨skipped, some skipped, skipped⟩, none)

/-- A member name, the opening quote already read; `none` for one that is not well-formed. -/
def memberName (fuel : Nat) (s : Bytes) : Except Fault (Option String × Bytes) :=
  match stringValue fuel s with
  | (.string name, some rest) => .ok (some name, rest)
  | (.flawed _, some rest) => .ok (none, rest)
  | (.flawed fault, none) => .error { fault with start := .malformed }
  | _ => .error .malformed

mutual

/-- The value in front of a text, and the text behind it unless it broke off. -/
def value : (fuel : Nat) → Bytes → Draft × Option Bytes
  | 0, _ => (.flawed .absent, none)
  | fuel + 1, s =>
    match skipBlanks s with
    | [] => (.flawed .absent, none)
    | b :: s =>
      if b = byte '"' then stringValue fuel s
      else if b = byte '[' then
        let (items, ending, rest) := items fuel true s
        (.array items ending, rest)
      else if b = byte '\x7b' then
        let (members, ending, rest) := members fuel true s
        (.object members ending, rest)
      else if b = byte 'n' then leaf .null (word [byte 'u', byte 'l', byte 'l'] s)
      else if b = byte 't' then leaf (.bool true) (word [byte 'r', byte 'u', byte 'e'] s)
      else if b = byte 'f' then leaf (.bool false) (word [byte 'a', byte 'l', byte 's', byte 'e'] s)
      else if b = byte '-' then readNumber true s
      else if (digit? b).isSome then readNumber false (b :: s)
      else (.flawed .malformed, none)

/-- The items of an array, the fault in place of its bracket, and the text behind it. -/
def items : (fuel : Nat) → (first : Bool) → Bytes → List Draft × Option Fault × Option Bytes
  | 0, _, _ => ([], some .absent, none)
  | fuel + 1, first, s =>
    match skipBlanks s with
    | [] => ([], some .absent, none)
    | b :: s =>
      if b = byte ']' then ([], none, some s)
      else if first = false ∧ b ≠ byte ',' then ([], some .malformed, none)
      else
        -- behind a comma there has to be an item, and a bracket is none
        match value fuel (if first then b :: s else s) with
        | (item, some rest) =>
          let (more, ending, rest) := items fuel false rest
          (item :: more, ending, rest)
        | (item, none) => ([item], none, none)

/-- The members of an object, the fault in place of its brace, and the text behind it. -/
def members : (fuel : Nat) → (first : Bool) → Bytes →
    List (Option String × Draft) × Option Fault × Option Bytes
  | 0, _, _ => ([], some .absent, none)
  | fuel + 1, first, s =>
    match skipBlanks s with
    | [] => ([], some .absent, none)
    | b :: s =>
      if b = byte '\x7d' then ([], none, some s)
      else if first = false ∧ b ≠ byte ',' then ([], some .malformed, none)
      else
        match skipBlanks (if first then b :: s else s) with
        | [] => ([], some .truncated, none)
        | q :: s =>
          if q ≠ byte '"' then ([], some .malformed, none)
          else
            match memberName fuel s with
            | .error fault => ([], some fault, none)
            | .ok (name, s) =>
              match skipBlanks s with
              | [] => ([(name, .flawed .absent)], none, none)
              | c :: s =>
                if c ≠ byte ':' then ([(name, .flawed .malformed)], none, none)
                else
                  match value fuel s with
                  | (item, some rest) =>
                    let (more, ending, rest) := members fuel false rest
                    ((name, item) :: more, ending, rest)
                  | (item, none) => ([(name, item)], none, none)

end

/-- A text as the draft of its value and whether anything but blanks follows. -/
def ofBytes (s : Bytes) : Draft × Bool :=
  match value (2 * s.length + 2) s with
  | (draft, some rest) => (draft, !(skipBlanks rest).isEmpty)
  | (draft, none) => (draft, false)

/-! ## Skipping -/

mutual

/-- The first fault that stops a reader passing over the value. -/
def skip : Draft → Except Flaw Unit
  | .array items ending => do
    skipItems items
    skipEnding ending
  | .object members ending => do
    skipMembers members
    skipEnding ending
  | .flawed ⟨_, some flaw, _⟩ => .error flaw
  | _ => .ok ()

def skipItems : List Draft → Except Flaw Unit
  | [] => .ok ()
  | d :: rest => do
    skip d
    skipItems rest

def skipMembers : List (Option String × Draft) → Except Flaw Unit
  | [] => .ok ()
  | (_, d) :: rest => do
    skip d
    skipMembers rest

/-- Passes over a closing bracket. -/
def skipEnding : Option Fault → Except Flaw Unit
  | some ⟨_, some flaw, _⟩ => .error flaw
  | _ => .ok ()

end

/-! ## Settling -/

/-- Arrays and objects nested deeper than this are refused. -/
def maxDepth : Nat := 127

/-- A closing bracket that has to be there. -/
def close : Option Fault → Except Flaw Unit
  | some fault => .error fault.read
  | none => .ok ()

/-- A closing bracket that has to come next, before any comma. -/
def closeNext : Option Fault → Except Flaw Unit
  | some fault => .error fault.start
  | none => .ok ()

/-- Puts a member at the place of its name; an earlier one of the same name gives way. -/
def putMember (name : String) (v : Json) : List (String × Json) → List (String × Json)
  | [] => [(name, v)]
  | (other, w) :: rest =>
    match compare name other with
    | .lt => (name, v) :: (other, w) :: rest
    | .eq => (name, v) :: rest
    | .gt => (other, w) :: putMember name v rest

mutual

/-- The value of a draft read in full, `depth` brackets being open around it. -/
def settle (depth : Nat) : Draft → Except Flaw Json
  | .null => .ok .null
  | .bool b => .ok (.bool b)
  | .number n => .ok (.number n)
  | .string s => .ok (.string s)
  | .array items ending =>
    if maxDepth ≤ depth then .error .malformed
    else do
      let vs ← settleItems (depth + 1) items
      close ending
      .ok (.array vs)
  | .object members ending =>
    if maxDepth ≤ depth then .error .malformed
    else do
      let ms ← settleMembers (depth + 1) members
      close ending
      .ok (.object (ms.foldl (fun acc m => putMember m.1 m.2 acc) []))
  | .flawed fault => .error fault.read

def settleItems (depth : Nat) : List Draft → Except Flaw (List Json)
  | [] => .ok []
  | d :: rest => do
    let v ← settle depth d
    let vs ← settleItems depth rest
    .ok (v :: vs)

/-- The members in turn; a name that is not well-formed is a fault. -/
def settleMembers (depth : Nat) : List (Option String × Draft) → Except Flaw (List (String × Json))
  | [] => .ok []
  | (name, d) :: rest =>
    match name with
    | none => .error .malformed
    | some name => do
      let v ← settle depth d
      let ms ← settleMembers depth rest
      .ok ((name, v) :: ms)

end

mutual

/-- The draft of a value that has been read before. -/
def ofValue : Json → Draft
  | .null => .null
  | .bool b => .bool b
  | .number n => .number n
  | .string s => .string s
  | .array items => .array (ofItems items) none
  | .object members => .object (ofMembers members) none

def ofItems : List Json → List Draft
  | [] => []
  | v :: rest => ofValue v :: ofItems rest

def ofMembers : List (String × Json) → List (Option String × Draft)
  | [] => []
  | (name, v) :: rest => (some name, ofValue v) :: ofMembers rest

end

end Draft

def parse (bytes : List UInt8) : Except Flaw Json :=
  match Draft.ofBytes bytes with
  | (draft, trailing) => do
    let v ← draft.settle 0
    if trailing then .error .malformed else .ok v

end MarketFeed.Json
