import MarketFeed.Calendar
import MarketFeed.Decimal.Text
import MarketFeed.Decode.Failure

/-!
# Decode.Scalar — strict and tolerant readings of single values

The strict readings take one JSON type and refuse the rest. The tolerant ones follow the
venue's habits: a number may come as text, as a number or as null, an unset one as the
empty text; a flag may be text; an absent string may be null.

These are the lenient field adapters `decimal`, `integer`, `string` and `flag`
(`stringOrNull` for the third), and `timestamp`, which takes text only. A decimal from a
floating point number goes through the shortest text of that number. What an adapter
refuses is said with what it expected, and that is a text of the adapter and not of the
type: "a decimal string or number".

A decoder reads a draft and not a value (`Json.Draft`), since what is reported first
depends on where the text breaks off.
-/

namespace MarketFeed.Decode

open MarketFeed.Json MarketFeed.Text

/-- Where a draft comes from: straight from a text, from a value read before, or from a value set aside while
the tag of a variant was looked for. -/
inductive Source where
  | text
  | value
  | setAside
deriving DecidableEq, Repr

/-- A reading of a draft. -/
abbrev Decoder (α : Type) := Source → Draft → Except Failure α

/-- The reading of a value. -/
def ofValue {α : Type} (decode : Decoder α) (v : Json) : Except Failure α := decode .value (.ofValue v)

/-- The reading of a text, behind which there may be blanks and nothing else. -/
def ofText {α : Type} (decode : Decoder α) (bytes : List UInt8) : Except Failure α := do
  let (draft, trailing) := Draft.ofBytes bytes
  let a ← decode .text draft
  if trailing then .error (.flaw .malformed) else .ok a

/-! ## Strict readings -/

def string : Decoder String
  | _, .string s => .ok s
  | _, d => .error (refuse "a string" d)

def boolean : Decoder Bool
  | _, .bool b => .ok b
  | _, d => .error (refuse "a boolean" d)

/-- A whole number from `low` up to but not including `high`. -/
def wholeIn (low high : Int) (wanted : String) : Decoder Int
  | _, .number (.whole n) =>
    if low ≤ n ∧ n < high then .ok n else .error (.invalidValue (.number (.whole n)) wanted)
  | _, d => .error (refuse wanted d)

/-- A signed 64-bit number. -/
def int64 : Decoder Int := wholeIn (-signedBound) signedBound "i64"

/-- An unsigned 32-bit number. -/
def nat32 : Decoder Nat := fun src d => (wholeIn 0 UInt32.size "u32" src d).map Int.toNat

/-- A size in memory. -/
def size : Decoder Nat := fun src d => (wholeIn 0 UInt64.size "usize" src d).map Int.toNat

/-- A value or null. -/
def optional {α : Type} (inner : Decoder α) : Decoder (Option α)
  | _, .null => .ok none
  | src, d => (inner src d).map some

/-- Items in turn. -/
def listItems {α : Type} (inner : Decoder α) (src : Source) : List Draft → Except Failure (List α)
  | [] => .ok []
  | d :: rest => do
    let a ← inner src d
    let as ← listItems inner src rest
    .ok (a :: as)

/-- A list of values of one kind. -/
def list {α : Type} (inner : Decoder α) : Decoder (List α)
  | src, .array items ending => do
    let as ← listItems inner src items
    flawless (Draft.close ending)
    .ok as
  | _, d => .error (refuse "a sequence" d)

/-- Any value, read in full; `depth` brackets are open around it. -/
def any (depth : Nat) : Decoder Json := fun _ d => flawless (d.settle depth)

/-! ## Variants -/

def lookUp {α : Type} (variants : List (String × α)) (name : String) : Except Failure α :=
  match variants.find? (·.1 == name) with
  | some v => .ok v.2
  | none => .error (.unknownVariant name (variants.map (·.1)))

def unit : Decoder Unit
  | _, .null => .ok ()
  | _, d => .error (refuse "unit" d)

/-- One of a few names, or a map from the name to nothing. A reader of a text sees from the first character that
a value is neither, and from the first member that a map has to end there. -/
def variant {α : Type} (variants : List (String × α)) : Decoder α
  | _, .string name => lookUp variants name
  | .text, .object members ending =>
    match members with
    | [] => .error (.flaw ((ending.map (·.read)).getD .malformed))
    | (none, _) :: _ => .error (.flaw .malformed)
    | (some name, d) :: rest => do
      let v ← lookUp variants name
      unit .text d
      if rest.isEmpty then flawless (Draft.closeNext ending) else .error (.flaw .malformed)
      .ok v
  | src, .object members _ =>
    match members with
    | [(some name, d)] => do
      let v ← lookUp variants name
      unit src d
      .ok v
    | _ => .error (.invalidValue .map "map with a single key")
  | .text, .flawed fault => .error (.flaw fault.start)
  | .text, _ => .error (.flaw .malformed)
  | _, d => .error (refuse "string or map" d)

/-! ## Tolerant readings -/

/-- A text, null being the empty one. -/
def stringOrNull : Decoder String := fun src d => (optional string src d).map (·.getD "")

/-- A decimal as text, number or null; the empty text and null are zero. -/
def decimal : Decoder Decimal
  | _, .string s =>
    match Decimal.read? s with
    | some d => .ok d
    | none => .error (.invalidValue (.string s) "a decimal string, number or null")
  | _, .number (.whole n) =>
    match Decimal.ofInt? n with
    | some d => .ok d
    | none => .error (.invalidValue (.number (.whole n)) "a decimal string, number or null")
  | _, .number (.binary x) =>
    match Decimal.readChars? x.renderChars with
    | some d => .ok d
    | none => .error (.invalidValue (.number (.binary x)) "a decimal string, number or null")
  | _, .null => .ok Decimal.zero
  | _, d => .error (refuse "a decimal string, number or null" d)

/-- A whole number as text, number or null; the empty text and null are zero. -/
def integer : Decoder Int
  | _, .string s =>
    match trim s.toList with
    | [] => .ok 0
    | cs =>
      match int? signedBound cs with
      | some n => .ok n
      | none => .error (.invalidValue (.string s) "an integer string, number or null")
  | _, .number (.whole n) =>
    if n < signedBound then .ok n
    else .error (.invalidValue (.number (.whole n)) "an integer string, number or null")
  | _, .null => .ok 0
  | _, d => .error (refuse "an integer string, number or null" d)

/-- ASCII letters in lower case. -/
def asciiLower (cs : List Char) : List Char :=
  cs.map (fun c => if 'A' ≤ c ∧ c ≤ 'Z' then Char.ofNat (c.toNat + 32) else c)

/-- Whether two texts differ at most in the case of ASCII letters. -/
def sameIgnoringCase (a b : List Char) : Bool := asciiLower a == asciiLower b

/-- A truth value as itself, as text or as null; the empty text and null are false. -/
def flag : Decoder Bool
  | _, .bool b => .ok b
  | _, .string s =>
    let t := trim s.toList
    if t.isEmpty ∨ sameIgnoringCase t ['f', 'a', 'l', 's', 'e'] then .ok false
    else if sameIgnoringCase t ['t', 'r', 'u', 'e'] then .ok true
    else .error (.invalidValue (.string s) "a boolean, boolean string or null")
  | _, .null => .ok false
  | _, d => .error (refuse "a boolean, boolean string or null" d)

/-- An instant as text; the empty text and null are zero. -/
def timestamp : Decoder Int := fun src d => do
  match ← optional string src d with
  | none => .ok 0
  | some text =>
    match Calendar.read? text with
    | some n => .ok n
    | none => .error (.invalidTimestamp text)

end MarketFeed.Decode
