import Mathlib.Data.List.Basic
import MarketFeed.Decode.Record

/-!
# Decode.Given — where the fields of a record come from

Each field of a record that has been read is what its decoder makes of the value given for
it, or what stands in for it when none is given:

> `Shape.of_ofValue`: of a record that is read from a value, every field was given and
> read, or not given and filled in.

In an object the value given for a field is the member of its name, in an array the item
at its place (`Json.given?`). Members of an object are followed one by one: the one that
has the name of a field fills its slot (`At.offer_self`), all others pass it by
(`At.offer_other`), and a second one of the same name ends the reading, so it does not
matter which of the two counts.

A record is described by the list of its fields, each of another type, so a field is
pointed at by where it stands in the list (`Fields.At`), which also says where it is found
in a row of values and in the slots that are being filled. All lemmas are inductions on
that.

This direction takes a record that was read, and tells its fields. The other one, that
what is written of a record is read back, is the matter of `Decode.Records`.
-/

namespace MarketFeed

/-- The value given for a field: the member of its name, or the item at its place. -/
def Json.given? (names : List String) (name : String) : Json → Option Json
  | .array items => items[names.idxOf name]?
  | v => v.member? name

private theorem Json.member?_cons (name : String) (m : String × Json) (ms : List (String × Json)) :
    (object (m :: ms)).member? name = ((object ms).member? name).or (if m.1 = name then some m.2 else none) := by
  simp only [member?, List.reverse_cons, List.find?_append]
  cases ms.reverse.find? (·.1 == name) with
  | some found => rfl
  | none => by_cases hname : m.1 = name <;> simp [hname]

namespace Decode

open MarketFeed.Json

variable {α β : Type}

/-- What is made of an outcome succeeds only if the outcome does. -/
theorem exists_of_map_eq_ok {r : Except Failure α} {f : α → β} {b : β} (h : r.map f = .ok b) :
    ∃ a, r = .ok a ∧ f a = b := by
  cases r with
  | error failure => cases h
  | ok a => exact ⟨a, rfl, Except.ok.inj h⟩

/-- One step and then another succeed only if both do. -/
theorem exists_of_bind_eq_ok {r : Except Failure α} {next : α → Except Failure β} {b : β}
    (h : (r >>= next) = .ok b) : ∃ a, r = .ok a ∧ next a = .ok b := by
  cases r with
  | error failure => cases h
  | ok a => exact ⟨a, rfl, h⟩

namespace Fields

/-- That a field is one of the fields of a record, and where it is found in a row and in the slots. -/
inductive At (field : FieldCodec β) :
    {αs : List Type} → Fields αs → (Row αs → β) → (Slots αs → Option β) → Prop where
  | here {αs : List Type} {rest : Fields αs} : At field (cons field rest) Prod.fst Prod.fst
  | later {α : Type} {αs : List Type} {other : FieldCodec α} {rest : Fields αs} {get : Row αs → β}
      {slot : Slots αs → Option β} (h : At field rest get slot) :
      At field (cons other rest) (fun row => get row.2) (fun slots => slot slots.2)

variable {αs : List Type} {fields : Fields αs} {field : FieldCodec β} {get : Row αs → β} {slot : Slots αs → Option β}
  {src : Source}

private theorem At.name_mem (h : fields.At field get slot) : field.name ∈ fields.names := by
  induction h with
  | here => exact List.mem_cons_self
  | later _ ih => exact List.mem_cons_of_mem _ ih

/-! ## Members -/

/-- The member of a field's name is read into its slot, which was empty. -/
theorem At.offer_self (h : fields.At field get slot) (hnames : fields.names.Nodup) {d : Draft} {slots : Slots αs}
    {r : Option (Slots αs)} (hoffer : fields.offer src field.name d slots = .ok r) :
    slot slots = none ∧ ∃ a slots', field.decode src d = .ok a ∧ r = some slots' ∧ slot slots' = some a := by
  induction h with
  | here =>
    obtain ⟨before, slots⟩ := slots
    simp only [offer, if_pos] at hoffer
    cases before with
    | some _ => cases hoffer
    | none =>
      obtain ⟨a, hread, rfl⟩ := exists_of_map_eq_ok hoffer
      exact ⟨rfl, a, (some a, slots), hread, rfl, rfl⟩
  | @later _ _ other _ _ _ h ih =>
    obtain ⟨hnot, hnodup⟩ := List.nodup_cons.1 hnames
    have hne : other.name ≠ field.name := fun heq => hnot (heq ▸ h.name_mem)
    obtain ⟨before, slots⟩ := slots
    simp only [offer, if_neg hne] at hoffer
    obtain ⟨taken, htaken, rfl⟩ := exists_of_map_eq_ok hoffer
    obtain ⟨hempty, a, slots', hread, rfl, hfilled⟩ := ih hnodup htaken
    exact ⟨hempty, a, (before, slots'), hread, rfl, hfilled⟩

/-- Members of other names pass a slot by. -/
theorem At.offer_other (h : fields.At field get slot) {name : String} (hne : name ≠ field.name) {d : Draft}
    {slots slots' : Slots αs} (hoffer : fields.offer src name d slots = .ok (some slots')) :
    slot slots' = slot slots := by
  induction h with
  | here =>
    obtain ⟨before, slots⟩ := slots
    simp only [offer, if_neg hne.symm] at hoffer
    obtain ⟨taken, -, hfilled⟩ := exists_of_map_eq_ok hoffer
    obtain ⟨more, -, rfl⟩ := Option.map_eq_some_iff.1 hfilled
    rfl
  | @later _ _ other _ _ _ _ ih =>
    obtain ⟨before, slots⟩ := slots
    by_cases hother : other.name = name
    · -- the other field takes the member
      simp only [offer, if_pos hother] at hoffer
      split at hoffer
      next => cases hoffer
      next =>
        obtain ⟨a, -, hfilled⟩ := exists_of_map_eq_ok hoffer
        cases hfilled
        rfl
    · simp only [offer, if_neg hother] at hoffer
      obtain ⟨taken, htaken, hfilled⟩ := exists_of_map_eq_ok hoffer
      obtain ⟨more, rfl, rfl⟩ := Option.map_eq_some_iff.1 hfilled
      exact ih htaken

/-- What a slot holds once members have been taken: what the member of its name gave, or what it held. -/
theorem At.takeMembers (h : fields.At field get slot) (hnames : fields.names.Nodup) {ms : List (String × Json)}
    {slots out : Slots αs} (htake : fields.takeMembers src (Draft.ofMembers ms) slots = .ok out) :
    match (object ms).member? field.name with
    | none => slot out = slot slots
    | some v => slot slots = none ∧ ∃ a, field.decode src (Draft.ofValue v) = .ok a ∧ slot out = some a := by
  induction ms generalizing slots with
  | nil =>
    cases htake
    rfl
  | cons m ms ih =>
    rw [member?_cons]
    simp only [Draft.ofMembers, Fields.takeMembers] at htake
    obtain ⟨r, hoffer, htake⟩ := exists_of_bind_eq_ok htake
    by_cases hname : m.1 = field.name
    · rw [hname] at hoffer
      obtain ⟨hempty, a, slots', hread, rfl, hfilled⟩ := h.offer_self hnames hoffer
      have hrest := ih htake
      rw [if_pos hname]
      cases hmember : (object ms).member? field.name with
      | some v =>
        -- the slot is full, so there is no second member of the name
        rw [hmember] at hrest
        rw [hrest.1] at hfilled
        cases hfilled
      | none =>
        rw [hmember] at hrest
        exact ⟨hempty, a, hread, hrest.trans hfilled⟩
    · rw [if_neg hname, Option.or_none]
      cases r with
      | some slots' =>
        have hrest := ih htake
        rw [h.offer_other hname hoffer] at hrest
        exact hrest
      | none =>
        obtain ⟨-, -, htake⟩ := exists_of_bind_eq_ok htake
        exact ih htake

/-- At first a slot is empty. -/
theorem At.blank (h : fields.At field get slot) : slot fields.blank = none := by
  induction h with
  | here => rfl
  | later _ ih => exact ih

/-- At the end a field is what its slot holds, or what stands in for it. -/
theorem At.finish (h : fields.At field get slot) {slots : Slots αs} {row : Row αs}
    (hfinish : fields.finish slots = .ok row) : (slot slots).or field.absent = some (get row) := by
  induction h with
  | here =>
    obtain ⟨before, slots⟩ := slots
    simp only [Fields.finish] at hfinish
    split at hfinish
    next => cases hfinish
    next a ha =>
      obtain ⟨more, -, rfl⟩ := exists_of_map_eq_ok hfinish
      exact ha
  | later _ ih =>
    obtain ⟨before, slots⟩ := slots
    simp only [Fields.finish] at hfinish
    split at hfinish
    next => cases hfinish
    next =>
      obtain ⟨more, hmore, rfl⟩ := exists_of_map_eq_ok hfinish
      exact ih hmore

/-! ## Items -/

/-- Of an array, a field is read from the item at its place. -/
theorem At.takeItems (h : fields.At field get slot) (hnames : fields.names.Nodup) {wanted : String} {index : Nat}
    {items : List Json} {row : Row αs} {left : List Draft}
    (htake : fields.takeItems src wanted none index (Draft.ofItems items) = .ok (row, left)) :
    match items[fields.names.idxOf field.name]? with
    | none => field.short = some (get row)
    | some v => field.decode src (Draft.ofValue v) = .ok (get row) := by
  induction h generalizing index items with
  | @here _ rest =>
    rw [names, List.idxOf_cons_self]
    cases items with
    -- a list that is too short is filled up with what stands in for the fields
    | nil =>
      simp only [Draft.ofItems, Fields.takeItems] at htake
      obtain ⟨-, -, htake⟩ := exists_of_bind_eq_ok htake
      cases hshort : field.short with
      | none =>
        rw [hshort] at htake
        cases htake
      | some a =>
        rw [hshort] at htake
        obtain ⟨more, -, htake⟩ := exists_of_bind_eq_ok htake
        cases htake
        rfl
    | cons v items =>
      simp only [Draft.ofItems, Fields.takeItems] at htake
      obtain ⟨a, hread, htake⟩ := exists_of_bind_eq_ok htake
      obtain ⟨more, -, htake⟩ := exists_of_bind_eq_ok htake
      cases htake
      exact hread
  | @later _ _ other rest _ _ h ih =>
    obtain ⟨hnot, hnodup⟩ := List.nodup_cons.1 hnames
    have hne : other.name ≠ field.name := fun heq => hnot (heq ▸ h.name_mem)
    rw [names, List.idxOf_cons_ne _ hne]
    cases items with
    | nil =>
      simp only [Draft.ofItems, Fields.takeItems] at htake
      obtain ⟨-, -, htake⟩ := exists_of_bind_eq_ok htake
      cases hshort : other.short with
      | none =>
        rw [hshort] at htake
        cases htake
      | some a =>
        rw [hshort] at htake
        obtain ⟨more, hmore, htake⟩ := exists_of_bind_eq_ok htake
        cases htake
        have hnothing : rest.takeItems src wanted none (index + 1) (Draft.ofItems []) = .ok more := hmore
        exact ih hnodup hnothing
    | cons v items =>
      simp only [Draft.ofItems, Fields.takeItems] at htake
      obtain ⟨a, -, htake⟩ := exists_of_bind_eq_ok htake
      obtain ⟨more, hmore, htake⟩ := exists_of_bind_eq_ok htake
      cases htake
      exact ih hnodup hmore

end Fields

/-! ## Records -/

/-- Each field of a record that has been read is what was given for it, or what stands in for it. -/
theorem Shape.of_ofValue (shape : Shape α) {field : FieldCodec β} {get : Row shape.types → β}
    {slot : Slots shape.types → Option β} (hat : shape.fields.At field get slot) (hnames : shape.fields.names.Nodup)
    {v : Json} {a : α} (h : ofValue shape.decode v = .ok a) : ∃ row, a = shape.make row ∧
      match v.given? shape.fields.names field.name with
      | none => field.absent = some (get row) ∨ field.short = some (get row)
      | some w => ofValue field.decode w = .ok (get row) := by
  cases v with
  | object ms =>
    simp only [ofValue, Draft.ofValue, decode, fromMembers] at h
    obtain ⟨slots, htake, h⟩ := exists_of_bind_eq_ok h
    obtain ⟨-, -, h⟩ := exists_of_bind_eq_ok h
    obtain ⟨row, hfinish, rfl⟩ := exists_of_map_eq_ok h
    refine ⟨row, rfl, ?_⟩
    -- what the members left open is filled in behind them
    have hmember := hat.takeMembers hnames htake
    have hrow := hat.finish hfinish
    simp only [given?]
    split
    next hnone =>
      rw [hnone] at hmember
      rw [hmember, hat.blank, Option.none_or] at hrow
      exact .inl hrow
    next w hsome =>
      rw [hsome] at hmember
      obtain ⟨-, b, hread, hfilled⟩ := hmember
      rw [hfilled, Option.some_or] at hrow
      exact hread.trans (congrArg Except.ok (Option.some.inj hrow))
  | array items =>
    simp only [ofValue, Draft.ofValue, decode, fromItems] at h
    obtain ⟨⟨row, left⟩, htake, h⟩ := exists_of_bind_eq_ok h
    have hmake : shape.make row = a := by
      simp only at h
      split at h
      next => exact Except.ok.inj h
      next => cases h
    refine ⟨row, hmake.symm, ?_⟩
    have hitem := hat.takeItems hnames htake
    simp only [given?]
    split
    next hnone =>
      rw [hnone] at hitem
      exact .inr hitem
    next w hsome =>
      rw [hsome] at hitem
      exact hitem
  | null => cases h
  | bool b => cases h
  | number n => cases h
  | string s => cases h

end Decode

end MarketFeed
