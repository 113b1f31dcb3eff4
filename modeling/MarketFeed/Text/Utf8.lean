/-!
# Text.Utf8 — characters from bytes

A character takes one to four bytes, and its first byte says how many and narrows the
second. `next` reads one character or steps over the longest run that no further byte
could complete, so both readings of a byte string come from it: `decode?` refuses
ill-formed bytes, `decodeLossy` puts one replacement character for each such run.

The text of an error that came through the queue is read lossily, so it is a text whatever
the bytes are. The strings of a message have to be well formed.
-/

namespace MarketFeed.Text.Utf8

/-- What the front of a byte string holds: a character, or bytes that begin none. -/
inductive Step where
  | char (c : Char) (rest : List UInt8)
  | illFormed (rest : List UInt8)

/-- Whether a byte continues a character. -/
def isTail (b : UInt8) : Bool := 0x80 ≤ b && b ≤ 0xBF

/-- The last six bits of a continuing byte. -/
def payload (b : UInt8) : Nat := b.toNat % 64

/-- Least and greatest second byte of a three-byte character. -/
def secondOfThree (b : UInt8) : UInt8 × UInt8 :=
  if b = 0xE0 then (0xA0, 0xBF) else if b = 0xED then (0x80, 0x9F) else (0x80, 0xBF)

/-- Least and greatest second byte of a four-byte character. -/
def secondOfFour (b : UInt8) : UInt8 × UInt8 :=
  if b = 0xF0 then (0x90, 0xBF) else if b = 0xF4 then (0x80, 0x8F) else (0x80, 0xBF)

/-- Reads the front of a byte string whose first byte is `b`. -/
def next (b : UInt8) (rest : List UInt8) : Step :=
  if b < 0x80 then .char (Char.ofNat b.toNat) rest
  else if 0xC2 ≤ b ∧ b ≤ 0xDF then
    match rest with
    | c :: rest' =>
      if isTail c then .char (Char.ofNat (b.toNat % 32 * 64 + payload c)) rest' else .illFormed rest
    | [] => .illFormed []
  else if 0xE0 ≤ b ∧ b ≤ 0xEF then
    match rest with
    | c :: rest' =>
      if (secondOfThree b).1 ≤ c ∧ c ≤ (secondOfThree b).2 then
        match rest' with
        | d :: rest'' =>
          if isTail d then .char (Char.ofNat (b.toNat % 16 * 4096 + payload c * 64 + payload d)) rest''
          else .illFormed rest'
        | [] => .illFormed []
      else .illFormed rest
    | [] => .illFormed []
  else if 0xF0 ≤ b ∧ b ≤ 0xF4 then
    match rest with
    | c :: rest' =>
      if (secondOfFour b).1 ≤ c ∧ c ≤ (secondOfFour b).2 then
        match rest' with
        | d :: rest'' =>
          if isTail d then
            match rest'' with
            | e :: rest''' =>
              if isTail e then
                .char (Char.ofNat
                  (b.toNat % 8 * 262144 + payload c * 4096 + payload d * 64 + payload e)) rest'''
              else .illFormed rest''
            | [] => .illFormed []
          else .illFormed rest'
        | [] => .illFormed []
      else .illFormed rest
    | [] => .illFormed []
  else .illFormed rest

/-- The characters of a byte string, `none` standing for an ill-formed run; `fuel` bounds their number. -/
def scan : (fuel : Nat) → List UInt8 → List (Option Char)
  | 0, _ => []
  | _ + 1, [] => []
  | fuel + 1, b :: rest =>
    match next b rest with
    | .char c rest' => some c :: scan fuel rest'
    | .illFormed rest' => none :: scan fuel rest'

/-- The text of well-formed bytes. -/
def decode? (bytes : List UInt8) : Option String :=
  ((scan bytes.length bytes).mapM id).map String.ofList

/-- The text of any bytes, with U+FFFD for each ill-formed run. -/
def decodeLossy (bytes : List UInt8) : String :=
  String.ofList ((scan bytes.length bytes).map (·.getD '\uFFFD'))

def encode (text : String) : List UInt8 := text.toList.flatMap String.utf8EncodeChar

end MarketFeed.Text.Utf8
