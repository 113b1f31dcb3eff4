import MarketFeed.Json.Number
import MarketFeed.Text.Utf8

/-!
# Json.Value — JSON values and their compact text

An object is a list of members, so the order in which a writer puts them is kept. The text
has no blanks; strings escape quotes, backslashes and control characters and nothing else,
so other characters stand in it as themselves.

Looking up a member finds the last of its name. Values that were read have no two of one
name, so this matters only for values that were built.
-/

namespace MarketFeed

/-- A JSON value. -/
inductive Json where
  | null
  | bool (value : Bool)
  | number (value : Json.Number)
  | string (value : String)
  | array (items : List Json)
  | object (members : List (String × Json))
deriving Repr

namespace Json

instance : Inhabited Json := ⟨null⟩

def int (n : Int) : Json := number (.whole n)

/-- A value or null. -/
def ofOption : Option Json → Json
  | some v => v
  | none => null

/-- The member of an object; the last one of that name. -/
def member? (name : String) : Json → Option Json
  | object members => (members.reverse.find? (·.1 == name)).map (·.2)
  | _ => none

def text? : Json → Option String
  | string s => some s
  | _ => none

def items? : Json → Option (List Json)
  | array items => some items
  | _ => none

/-! ## Text -/

def escape (c : Char) : List Char :=
  match c with
  | '"' => ['\\', '"']
  | '\\' => ['\\', '\\']
  | '\n' => ['\\', 'n']
  | '\r' => ['\\', 'r']
  | '\t' => ['\\', 't']
  | '\x08' => ['\\', 'b']
  | '\x0c' => ['\\', 'f']
  | _ =>
    if c.toNat < 0x20 then
      ['\\', 'u', '0', '0', Nat.digitChar (c.toNat / 16), Nat.digitChar (c.toNat % 16)]
    else [c]

def renderString (s : String) : List Char := '"' :: s.toList.flatMap escape ++ ['"']

mutual

def renderChars : Json → List Char
  | null => ['n', 'u', 'l', 'l']
  | bool true => ['t', 'r', 'u', 'e']
  | bool false => ['f', 'a', 'l', 's', 'e']
  | number n => n.renderChars
  | string s => renderString s
  | array items => '[' :: renderItems items
  | object members => '\x7b' :: renderMembers members

/-- Items with commas between them, and the closing bracket. -/
def renderItems : List Json → List Char
  | [] => [']']
  | [v] => renderChars v ++ [']']
  | v :: rest => renderChars v ++ ',' :: renderItems rest

/-- Members with commas between them, and the closing brace. -/
def renderMembers : List (String × Json) → List Char
  | [] => ['\x7d']
  | [(name, v)] => renderString name ++ ':' :: renderChars v ++ ['\x7d']
  | (name, v) :: rest => renderString name ++ ':' :: renderChars v ++ ',' :: renderMembers rest

end

def render (v : Json) : String := String.ofList v.renderChars

end Json

end MarketFeed
