import MarketFeed.Json.Draft
import MarketFeed.Text.Quoted

/-!
# Decode.Failure — why a JSON value is not what was asked for

A decoder stops at the first thing it cannot use and says what it found and what it
wanted. The wording is in `message`; everything before that is a cause, so that a theorem
can say why a value is refused without quoting a text.

What was found is described by its kind (`Found`), numbers and texts also by what they
are. Where one of several words was wanted, all of them are listed (`choices`). A fault in
the JSON text itself is told apart from a value of another kind (`describeFlaw`).
-/

namespace MarketFeed.Decode

open MarketFeed.Json MarketFeed.Text

/-- What a decoder found, as far as a message shows it. -/
inductive Found where
  | null
  | bool (value : Bool)
  | number (value : Number)
  | string (value : String)
  | sequence
  | map
deriving DecidableEq, Repr

/-- Why decoding failed. -/
inductive Failure where
  /-- The text is not JSON. -/
  | flaw (flaw : Flaw)
  | missingField (name : String)
  | duplicateField (name : String)
  | unknownVariant (name : String) (known : List String)
  | invalidLength (length : Nat) (wanted : String)
  | invalidType (found : Found) (wanted : String)
  | invalidValue (found : Found) (wanted : String)
  | invalidTimestamp (text : String)
  | unrecognisedSide (text : String)
deriving DecidableEq, Repr

/-- A number as a message shows it. -/
def describeNumber : Number → String
  | .whole n => "integer `" ++ toString n ++ "`"
  | .binary x => "floating point `" ++ String.ofList x.displayChars ++ "`"

def Found.describe : Found → String
  | .null => "null"
  | .bool b => "boolean `" ++ (if b then "true" else "false") ++ "`"
  | .number n => describeNumber n
  | .string s => "string " ++ quote s
  | .sequence => "sequence"
  | .map => "map"

/-- Names in backquotes, with commas between them. -/
def backquoted (names : List String) : String :=
  ", ".intercalate (names.map (fun n => "`" ++ n ++ "`"))

/-- The choices of a variant. -/
def choices : List String → String
  | [a, b] => "`" ++ a ++ "` or `" ++ b ++ "`"
  | names => "one of " ++ backquoted names

/-- A text that is not JSON is reported without detail. -/
def describeFlaw : Flaw → String
  | .malformed => "<syntax>"
  | .truncated => "<eof>"

def Failure.message : Failure → String
  | .flaw f => describeFlaw f
  | .missingField name => "missing field `" ++ name ++ "`"
  | .duplicateField name => "duplicate field `" ++ name ++ "`"
  | .unknownVariant name known => "unknown variant `" ++ name ++ "`, expected " ++ choices known
  | .invalidLength n wanted => "invalid length " ++ toString n ++ ", expected " ++ wanted
  | .invalidType found wanted => "invalid type: " ++ found.describe ++ ", expected " ++ wanted
  | .invalidValue found wanted => "invalid value: " ++ found.describe ++ ", expected " ++ wanted
  | .invalidTimestamp text => "Invalid timestamp: " ++ quote text
  | .unrecognisedSide text => "Unrecognised side: " ++ quote text

/-- What a draft shows at a glance; a flawed one shows its flaw. -/
def look : Draft → Except Failure Found
  | .null => .ok .null
  | .bool b => .ok (.bool b)
  | .number n => .ok (.number n)
  | .string s => .ok (.string s)
  | .array _ _ => .ok .sequence
  | .object _ _ => .ok .map
  | .flawed fault => .error (.flaw fault.read)

/-- The failure of a draft that is not of the wanted type. -/
def refuse (wanted : String) (d : Draft) : Failure :=
  match look d with
  | .ok found => .invalidType found wanted
  | .error failure => failure

/-- A flaw as a failure. -/
def flawless {α : Type} (r : Except Flaw α) : Except Failure α := r.mapError .flaw

@[simp] theorem flawless_ok {α : Type} (a : α) : flawless (.ok a) = .ok a := rfl

end MarketFeed.Decode
