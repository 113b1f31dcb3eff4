import MarketFeed.Decode.Scalar

/-!
# Decode.Record — records from objects and from arrays

A record is a list of fields, each with a name, a reading, a writing and what stands in
for it when it is absent. From an object the members are taken in the order of the text:
unknown names are passed over, a name that comes twice is refused, and fields that are
missing count only after all members have been read. From an array the fields are taken by
position.

Writing and reading share one description of the record (`Shape`), so that what is written
is read back is one statement about `Shape` and not one for each record; it is in
`Proofs.Decode.Records`.

- `Slots` are the fields that have been filled so far and `Row` is all of them, both typed
  by the list of the fields' types, so a field cannot be read as another one;
- a field may be left out in writing, as the optional ones of a request are;
- the source matters: a text is decoded while it is read, so faults in it are met in the
  order of the text, and a value has been read in full before (`Source`).
-/

namespace MarketFeed.Decode

open MarketFeed.Json

/-! ## Fields -/

/-- One field of a record. `absent` stands in for it in an object, `short` at the end of an array; `encode`
leaves it out where it gives nothing. -/
structure FieldCodec (α : Type) where
  name : String
  decode : Decoder α
  encode : α → Option Json
  absent : Option α
  short : Option α

/-- The fields of a record, in the order of its declaration. -/
inductive Fields : List Type → Type 1 where
  | nil : Fields []
  | cons {α : Type} {αs : List Type} (field : FieldCodec α) (rest : Fields αs) : Fields (α :: αs)

/-- A value for each field. -/
@[reducible] def Row : List Type → Type
  | [] => Unit
  | α :: αs => α × Row αs

/-- The values read so far. -/
@[reducible] def Slots : List Type → Type
  | [] => Unit
  | α :: αs => Option α × Slots αs

namespace Fields

def blank : {αs : List Type} → Fields αs → Slots αs
  | _, nil => ()
  | _, cons _ rest => (none, rest.blank)

def count : {αs : List Type} → Fields αs → Nat
  | _, nil => 0
  | _, cons _ rest => rest.count + 1

def names : {αs : List Type} → Fields αs → List String
  | _, nil => []
  | _, cons field rest => field.name :: rest.names

/-- Offers a member to the field of its name; `none` when no field has it. -/
def offer (src : Source) (name : String) (d : Draft) :
    {αs : List Type} → Fields αs → Slots αs → Except Failure (Option (Slots αs))
  | _, nil, () => .ok none
  | _, cons field rest, (slot, slots) =>
    if field.name = name then
      if slot.isSome then .error (.duplicateField name)
      else (field.decode src d).map (fun a => some (some a, slots))
    else (rest.offer src name d slots).map (fun r => r.map (fun s => (slot, s)))

def takeMembers {αs : List Type} (fields : Fields αs) (src : Source) :
    List (Option String × Draft) → Slots αs → Except Failure (Slots αs)
  | [], slots => .ok slots
  | (none, _) :: _, _ => .error (.flaw .malformed)
  | (some name, d) :: rest, slots => do
    match ← fields.offer src name d slots with
    | some slots => fields.takeMembers src rest slots
    | none =>
      flawless d.skip
      fields.takeMembers src rest slots

/-- Fills what was not read, or names the first field that must not be missing. -/
def finish : {αs : List Type} → Fields αs → Slots αs → Except Failure (Row αs)
  | _, nil, () => .ok ()
  | _, cons field rest, (slot, slots) =>
    match slot.or field.absent with
    | none => .error (.missingField field.name)
    | some a => (rest.finish slots).map (fun row => (a, row))

/-- Takes items by position; `wanted` describes the whole record, `index` counts the items taken. -/
def takeItems (src : Source) (wanted : String) (ending : Option Fault) :
    {αs : List Type} → Fields αs → (index : Nat) → List Draft → Except Failure (Row αs × List Draft)
  | _, nil, _, items => .ok ((), items)
  | _, cons field rest, index, d :: items => do
    let a ← field.decode src d
    let (row, left) ← rest.takeItems src wanted ending (index + 1) items
    .ok ((a, row), left)
  | _, cons field rest, index, [] => do
    flawless (Draft.close ending)
    match field.short with
    | none => .error (.invalidLength index wanted)
    | some a =>
      let (row, left) ← rest.takeItems src wanted ending (index + 1) []
      .ok ((a, row), left)

/-- The members of a row. -/
def members : {αs : List Type} → Fields αs → Row αs → List (String × Json)
  | _, nil, () => []
  | _, cons field rest, (a, row) =>
    match field.encode a with
    | some v => (field.name, v) :: rest.members row
    | none => rest.members row

end Fields

/-! ## Shapes -/

/-- A record type: its name, its fields, and how a row of field values is a record. -/
structure Shape (α : Type) where
  name : String
  types : List Type
  fields : Fields types
  make : Row types → α
  row : α → Row types

namespace Shape

variable {α : Type}

/-- What a decoder of the record asks for. -/
def wanted (shape : Shape α) : String := "struct " ++ shape.name

/-- The record and its length. -/
def wantedLength (shape : Shape α) : String :=
  shape.wanted ++ " with " ++ toString shape.fields.count ++
    (if shape.fields.count = 1 then " element" else " elements")

/-- The failure of an array with items left over. -/
def excess : Source → (taken left : Nat) → Failure
  | .text, _, _ => .flaw .malformed
  | .value, taken, left => .invalidLength (taken + left) "fewer elements in array"
  | .setAside, taken, left =>
    .invalidLength (taken + left)
      (if taken = 1 then "1 element in sequence" else toString taken ++ " elements in sequence")

/-- A record from the members of an object. -/
def fromMembers (shape : Shape α) (src : Source) (members : List (Option String × Draft))
    (ending : Option Fault) : Except Failure α := do
  let slots ← shape.fields.takeMembers src members shape.fields.blank
  flawless (Draft.close ending)
  (shape.fields.finish slots).map shape.make

/-- A record from the items of an array; `wantedLength` is how a message describes it. -/
def fromItems (shape : Shape α) (src : Source) (wantedLength : String) (items : List Draft)
    (ending : Option Fault) : Except Failure α := do
  let (row, left) ← shape.fields.takeItems src wantedLength ending 0 items
  if left.isEmpty then flawless (Draft.close ending)
  else .error (excess src shape.fields.count left.length)
  .ok (shape.make row)

/-- A record from an object or an array. -/
def decode (shape : Shape α) : Decoder α
  | src, .object members ending => shape.fromMembers src members ending
  | src, .array items ending => shape.fromItems src shape.wantedLength items ending
  | _, d => .error (refuse shape.wanted d)

/-- A record as an object, its members in the order of the fields. -/
def encode (shape : Shape α) (a : α) : Json := .object (shape.fields.members (shape.row a))

end Shape

/-! ## Common fields -/

def required {α : Type} (name : String) (decode : Decoder α) (encode : α → Json) : FieldCodec α :=
  ⟨name, decode, fun a => some (encode a), none, none⟩

/-- A field that may be missing. -/
def defaulted {α : Type} (name : String) (decode : Decoder α) (encode : α → Json) (value : α) : FieldCodec α :=
  ⟨name, decode, fun a => some (encode a), some value, some value⟩

end MarketFeed.Decode
