import MarketFeed.Decode.Record
import MarketFeed.Proofs.Json.Rendering

/-!
# Decode.Records — what is written of a record is read back

A record is written as an object with a member for each field, and read by offering each
member to the field of its name. If the fields have different names, a member reaches the
field that it was written from, and no other field sees it. So a record is read back if
each of its fields is, and if one is not, the record fails as this field does:

> `Shape.rereads`: a record is read back field by field.
>
> `Shape.yields_error`: a record fails as the one field that is not read back.
>
> `Shape.rereads_withMember`: with a value in the place of that field that can be read,
> the record is read back.

It makes no difference whether the value is at hand or its text: a decoder is shown to
make something of a value wherever the value is from (`Yields`), and then it makes the
same of its text as well (`Yields.gives`, from `Json.Rendering`), provided that the
numbers in it are whole or written as texts.

A field may be written and read, or left out and filled in when it is missing
(`FieldCodec.Rereads`); the members that a row is written as then give the row back
(`Fields.Reads`). The last two results are about a row of which all fields but one are
read back (`Fields.AllBut`), as instants are that cannot be written as they are read
(`Wire.Instants`).
-/

namespace MarketFeed

namespace Json

/-- The members with another value for those of a name. -/
def replace (name : String) (v : Json) (ms : List (String × Json)) : List (String × Json) :=
  ms.map fun m => if m.1 = name then (m.1, v) else m

/-- The object with another value for the members of a name. -/
def withMember (j : Json) (name : String) (v : Json) : Json :=
  match j with
  | .object ms => .object (replace name v ms)
  | other => other

private theorem replace_of_forall {name : String} {v : Json} {ms : List (String × Json)} (h : ∀ m ∈ ms, m.1 ≠ name) :
    replace name v ms = ms :=
  (List.map_congr_left fun m hm => if_neg (h m hm)).trans (List.map_id ms)

/-- A whole number of 64 bits, with or without a sign. -/
theorem whole_int {n : Int} (h : -signedBound ≤ n ∧ n < signedBound) : (int n).Whole :=
  ⟨h.1, Int.lt_trans h.2 (by decide)⟩

/-- A list whose items are whole is whole. -/
theorem wholeItems_map {α : Type} {f : α → Json} {as : List α} (h : ∀ a ∈ as, (f a).Whole) : WholeItems (as.map f) := by
  induction as with
  | nil => trivial
  | cons a as ih => exact ⟨h a List.mem_cons_self, ih fun a ha => h a (List.mem_cons_of_mem _ ha)⟩

end Json

namespace Decode

open MarketFeed.Json

variable {α : Type}

/-- What a decoder makes of a value, and of its text. -/
structure Gives (decode : Decoder α) (v : Json) (outcome : Except Failure α) : Prop where
  value : ofValue decode v = outcome
  text : ofText decode (Text.Utf8.encode v.render) = outcome

/-- That a decoder makes this of a value wherever the value is from. -/
def Yields (decode : Decoder α) (v : Json) (outcome : Except Failure α) : Prop :=
  v.Whole ∧ ∀ src, decode src (Draft.ofValue v) = outcome

/-- A text is read as its value is, if it makes no difference where the value is from. -/
theorem Yields.gives {decode : Decoder α} {v : Json} {outcome : Except Failure α} (h : Yields decode v outcome) :
    Gives decode v outcome where
  value := h.2 .value
  text := by
    rw [ofText, Draft.ofBytes_render v h.1]
    show ((decode .text (Draft.ofValue v)).bind fun a => if false = true then .error (.flaw .malformed) else .ok a) = outcome
    rw [h.2 .text]
    cases outcome <;> rfl

/-- What is made of an outcome does not depend on where the value is from either. -/
theorem Yields.map {β : Type} {decode : Decoder α} {v : Json} {outcome : Except Failure α} (h : Yields decode v outcome)
    (f : α → β) : Yields (fun src d => (decode src d).map f) v (outcome.map f) :=
  ⟨h.1, fun src => congrArg (Except.map f) (h.2 src)⟩

/-- That what is written of `a` is read back as `b`. -/
def Rereads (decode : Decoder α) (encode : α → Json) (a b : α) : Prop := Yields decode (encode a) (.ok b)

/-! ## Lists -/

private theorem listItems_map {inner : Decoder α} {encode : α → Json} {as : List α}
    (h : ∀ a ∈ as, Rereads inner encode a a)
    (src : Source) : listItems inner src (Draft.ofItems (as.map encode)) = .ok as := by
  induction as with
  | nil => rfl
  | cons a as ih =>
    have hrest := ih fun a ha => h a (List.mem_cons_of_mem _ ha)
    simp only [List.map_cons, Draft.ofItems, listItems, (h a List.mem_cons_self).2, hrest, bind, Except.bind]

/-- A list is read back item by item. -/
theorem rereads_list {inner : Decoder α} {encode : α → Json} {as : List α} (h : ∀ a ∈ as, Rereads inner encode a a) :
    Rereads (list inner) (fun as => .array (as.map encode)) as as :=
  ⟨wholeItems_map fun a ha => (h a ha).1, fun src => by
    simp only [Draft.ofValue, list, listItems_map h, bind, Except.bind, Draft.close, flawless_ok]⟩

/-- A list fails as its first item does. -/
theorem yields_list_error {inner : Decoder α} {v : Json} {vs : List Json} {e : Failure} (h : Yields inner v (.error e))
    (hvs : WholeItems vs) : Yields (list inner) (.array (v :: vs)) (.error e) :=
  ⟨⟨h.1, hvs⟩, fun src => by simp only [Draft.ofValue, Draft.ofItems, list, listItems, h.2, bind, Except.bind]⟩

/-! ## Fields -/

namespace Fields

variable {αs : List Type} {fields : Fields αs} {ms : List (String × Json)}

/-- That members give a row: each field is read from its member, or may be missing. -/
inductive Reads : {αs : List Type} → Fields αs → List (String × Json) → Row αs → Prop where
  | nil : Reads nil [] ()
  | read {α : Type} {αs : List Type} {field : FieldCodec α} {rest : Fields αs} {v : Json} {a : α}
      {ms : List (String × Json)} {row : Row αs} (h : ∀ src, field.decode src (Draft.ofValue v) = .ok a)
      (hrest : Reads rest ms row) : Reads (cons field rest) ((field.name, v) :: ms) (a, row)
  | absent {α : Type} {αs : List Type} {field : FieldCodec α} {rest : Fields αs} {a : α}
      {ms : List (String × Json)} {row : Row αs} (h : field.absent = some a) (hrest : Reads rest ms row) :
      Reads (cons field rest) ms (a, row)

/-- Members that give a row are members of its fields. -/
theorem Reads.name_mem {row : Row αs} (h : fields.Reads ms row) : ∀ m ∈ ms, m.1 ∈ fields.names := by
  induction h with
  | nil => exact fun m hm => absurd hm List.not_mem_nil
  | read _ _ ih =>
    intro m hm
    rcases List.mem_cons.1 hm with rfl | hmore
    · exact List.mem_cons_self
    · exact List.mem_cons_of_mem _ (ih m hmore)
  | absent _ _ ih => exact fun m hm => List.mem_cons_of_mem _ (ih m hm)

private theorem members_name_mem (fields : Fields αs) (row : Row αs) :
    ∀ m ∈ fields.members row, m.1 ∈ fields.names := by
  induction fields with
  | nil => exact fun m hm => absurd hm List.not_mem_nil
  | cons field rest ih =>
    obtain ⟨a, row⟩ := row
    intro m hm
    simp only [members] at hm
    split at hm
    · rcases List.mem_cons.1 hm with rfl | hmore
      · exact List.mem_cons_self
      · exact List.mem_cons_of_mem _ (ih row m hmore)
    · exact List.mem_cons_of_mem _ (ih row m hm)

/-- Members of other names pass a field by. -/
theorem takeMembers_cons {α : Type} {field : FieldCodec α} (rest : Fields αs) (src : Source) (slot : Option α)
    (hms : ∀ m ∈ ms, m.1 ≠ field.name) (slots : Slots αs) :
    (cons field rest).takeMembers src (Draft.ofMembers ms) (slot, slots) =
      (rest.takeMembers src (Draft.ofMembers ms) slots).map fun out => (slot, out) := by
  induction ms generalizing slots with
  | nil => rfl
  | cons m ms ih =>
    have hne : field.name ≠ m.1 := (hms m List.mem_cons_self).symm
    have hrest := ih fun m hm => hms m (List.mem_cons_of_mem _ hm)
    simp only [Draft.ofMembers, takeMembers, offer, if_neg hne]
    cases rest.offer src m.1 (Draft.ofValue m.2) slots with
    | error e => rfl
    | ok taken =>
      cases taken with
      | some slots => exact hrest slots
      | none =>
        simp only [Except.map, Option.map, bind, Except.bind]
        cases flawless (Draft.ofValue m.2).skip with
        | error e => rfl
        | ok _ => exact hrest slots

/-- The member of the first field fills its slot, if it can be read. -/
theorem takeMembers_first {α : Type} {field : FieldCodec α} (rest : Fields αs) (src : Source) (v : Json)
    (hms : ∀ m ∈ ms, m.1 ≠ field.name) (slots : Slots αs) :
    (cons field rest).takeMembers src (Draft.ofMembers ((field.name, v) :: ms)) (none, slots) =
      (field.decode src (Draft.ofValue v)).bind fun a =>
        (rest.takeMembers src (Draft.ofMembers ms) slots).map fun out => (some a, out) := by
  simp only [Draft.ofMembers, takeMembers, offer, if_pos, Option.isSome_none, Bool.false_eq_true, if_false]
  cases field.decode src (Draft.ofValue v) with
  | error e => rfl
  | ok a => exact takeMembers_cons rest src (some a) hms slots

/-- Members that give a row fill all slots that need it. -/
theorem Reads.takeMembers {row : Row αs} (h : fields.Reads ms row) (hnames : fields.names.Nodup) (src : Source) :
    ∃ slots, fields.takeMembers src (Draft.ofMembers ms) fields.blank = .ok slots ∧ fields.finish slots = .ok row := by
  induction h with
  | nil => exact ⟨(), rfl, rfl⟩
  | @read α αs field rest v a ms row h hrest ih =>
    obtain ⟨hnot, hnodup⟩ := List.nodup_cons.1 hnames
    obtain ⟨slots, htake, hfinish⟩ := ih hnodup
    refine ⟨(some a, slots), ?_, ?_⟩
    · rw [blank, takeMembers_first _ src _ (fun m hm heq => hnot (heq ▸ hrest.name_mem m hm)), h src, htake]
      rfl
    · simp only [finish, Option.some_or, hfinish]
      rfl
  | absent h hrest ih =>
    obtain ⟨hnot, hnodup⟩ := List.nodup_cons.1 hnames
    obtain ⟨slots, htake, hfinish⟩ := ih hnodup
    refine ⟨(none, slots), ?_, ?_⟩
    · rw [blank, takeMembers_cons _ src none (fun m hm heq => hnot (heq ▸ hrest.name_mem m hm)), htake]
      rfl
    · simp only [finish, Option.none_or, h, hfinish]
      rfl

end Fields

/-! ## Records -/

/-- That a field is read back, or left out and filled in. -/
def FieldCodec.Rereads (field : FieldCodec α) (a b : α) : Prop :=
  (∃ v, field.encode a = some v ∧ Yields field.decode v (.ok b)) ∨ (field.encode a = none ∧ field.absent = some b)

/-- A field that must be there is read back if its value is. -/
theorem Rereads.required {decode : Decoder α} {encode : α → Json} {a b : α} (h : Rereads decode encode a b)
    (name : String) : (required name decode encode).Rereads a b := Or.inl ⟨encode a, rfl, h⟩

/-- So is one that may be missing, since it is always written. -/
theorem Rereads.defaulted {decode : Decoder α} {encode : α → Json} {a b : α} (h : Rereads decode encode a b)
    (name : String) (value : α) : (defaulted name decode encode value).Rereads a b := Or.inl ⟨encode a, rfl, h⟩

namespace Fields

/-- That every field of a row is read back. -/
def Rereads : {αs : List Type} → Fields αs → Row αs → Row αs → Prop
  | _, nil, (), () => True
  | _, cons field rest, (a, row), (b, row') => field.Rereads a b ∧ rest.Rereads row row'

/-- A row whose fields are read back is given by its own members. -/
theorem Rereads.reads {αs : List Type} {fields : Fields αs} {row row' : Row αs} (h : fields.Rereads row row') :
    fields.Reads (fields.members row) row' ∧ WholeMembers (fields.members row) := by
  induction fields with
  | nil => exact ⟨.nil, trivial⟩
  | cons field rest ih =>
    obtain ⟨a, row⟩ := row
    obtain ⟨b, row'⟩ := row'
    obtain ⟨hfield, hrest⟩ := h
    obtain ⟨hreads, hwhole⟩ := ih hrest
    rw [members]
    rcases hfield with ⟨v, hencode, hv, hread⟩ | ⟨hencode, habsent⟩
    · rw [hencode]
      exact ⟨.read hread hreads, hv, hwhole⟩
    · rw [hencode]
      exact ⟨.absent habsent hreads, hwhole⟩

end Fields

/-- A record is read from members that give its fields. -/
theorem Shape.decode_of_reads (shape : Shape α) {ms : List (String × Json)} {row : Row shape.types}
    (hnames : shape.fields.names.Nodup) (h : shape.fields.Reads ms row) (src : Source) :
    shape.decode src (Draft.ofValue (.object ms)) = .ok (shape.make row) := by
  obtain ⟨slots, htake, hfinish⟩ := h.takeMembers hnames src
  simp only [Draft.ofValue, decode, fromMembers, htake, bind, Except.bind, Draft.close, flawless_ok, hfinish, Except.map]

/-- A record is read back field by field. -/
theorem Shape.rereads (shape : Shape α) {a b : α} (hnames : shape.fields.names.Nodup)
    (h : shape.fields.Rereads (shape.row a) (shape.row b)) (hmake : shape.make (shape.row b) = b) :
    Rereads shape.decode shape.encode a b :=
  ⟨h.reads.2, fun src => hmake ▸ shape.decode_of_reads hnames h.reads.1 src⟩

/-! ## One field that differs -/

namespace Fields

variable {β : Type} {field : FieldCodec β} {a b : β}

/-- That every field of a row is read back, leaving one aside. -/
inductive AllBut (field : FieldCodec β) (a b : β) : {αs : List Type} → Fields αs → Row αs → Row αs → Prop where
  | here {αs : List Type} {rest : Fields αs} {row row' : Row αs} (hrest : rest.Rereads row row') :
      AllBut field a b (cons field rest) (a, row) (b, row')
  | later {α : Type} {αs : List Type} {other : FieldCodec α} {rest : Fields αs} {c d : α} {row row' : Row αs}
      (h : other.Rereads c d) (hrest : AllBut field a b rest row row') :
      AllBut field a b (cons other rest) (c, row) (d, row')

variable {αs : List Type} {fields : Fields αs} {row row' : Row αs}

/-- The numbers of a row are whole if those of the field are. -/
theorem AllBut.whole (h : fields.AllBut field a b row row') {v : Json} (hencode : field.encode a = some v)
    (hv : v.Whole) : WholeMembers (fields.members row) := by
  induction h with
  | here hrest =>
    simp only [members, hencode]
    exact ⟨hv, hrest.reads.2⟩
  | later h _ ih =>
    rcases h with ⟨w, hw, hwhole, -⟩ | ⟨hw, -⟩
    · simp only [members, hw]
      exact ⟨hwhole, ih⟩
    · simp only [members, hw]
      exact ih

private theorem AllBut.mem_names (h : fields.AllBut field a b row row') : field.name ∈ fields.names := by
  induction h with
  | here _ => exact List.mem_cons_self
  | later _ _ ih => exact List.mem_cons_of_mem _ ih

/-- If that field cannot be read, the record fails as it does. -/
theorem AllBut.takeMembers (h : fields.AllBut field a b row row') (hnames : fields.names.Nodup) {v : Json} {e : Failure}
    (hencode : field.encode a = some v) {src : Source} (hread : field.decode src (Draft.ofValue v) = .error e) :
    fields.takeMembers src (Draft.ofMembers (fields.members row)) fields.blank = .error e := by
  induction h with
  | @here αs rest row row' hrest =>
    obtain ⟨hnot, -⟩ := List.nodup_cons.1 hnames
    have hother : ∀ m ∈ rest.members row, m.1 ≠ field.name := fun m hm heq => hnot (heq ▸ members_name_mem rest row m hm)
    simp only [members, hencode, blank, takeMembers_first rest src v hother, hread]
    rfl
  | @later α αs other rest c d row row' h hrest ih =>
    obtain ⟨hnot, hnodup⟩ := List.nodup_cons.1 hnames
    have hother : ∀ m ∈ rest.members row, m.1 ≠ other.name := fun m hm heq => hnot (heq ▸ members_name_mem rest row m hm)
    rcases h with ⟨w, hw, -, hread'⟩ | ⟨hw, -⟩
    · simp only [members, hw, blank, takeMembers_first rest src w hother, hread', ih hnodup]
      rfl
    · simp only [members, hw, blank, takeMembers_cons rest src none hother, ih hnodup]
      rfl

/-- With a value in its place that can be read, the row is read back. -/
theorem AllBut.reads (h : fields.AllBut field a b row row') (hnames : fields.names.Nodup) {v w : Json}
    (hencode : field.encode a = some v) (hread : Yields field.decode w (.ok b)) :
    fields.Reads (replace field.name w (fields.members row)) row' ∧
      WholeMembers (replace field.name w (fields.members row)) := by
  induction h with
  | @here αs rest row row' hrest =>
    obtain ⟨hnot, -⟩ := List.nodup_cons.1 hnames
    obtain ⟨hreads, hwhole⟩ := hrest.reads
    have hkept : replace field.name w (rest.members row) = rest.members row :=
      replace_of_forall fun m hm heq => hnot (heq ▸ members_name_mem rest row m hm)
    have hms : replace field.name w ((cons field rest).members (a, row)) = (field.name, w) :: rest.members row := by
      simp only [members, hencode]
      rw [replace, List.map_cons, if_pos rfl, ← replace, hkept]
    rw [hms]
    exact ⟨.read hread.2 hreads, hread.1, hwhole⟩
  | @later α αs other rest c d row row' h hrest ih =>
    obtain ⟨hnot, hnodup⟩ := List.nodup_cons.1 hnames
    obtain ⟨hreads, hwhole⟩ := ih hnodup
    have hne : other.name ≠ field.name := fun heq => hnot (heq ▸ hrest.mem_names)
    rcases h with ⟨u, hu, huwhole, hread'⟩ | ⟨hnone, habsent⟩
    · have hms : replace field.name w ((cons other rest).members (c, row)) =
          (other.name, u) :: replace field.name w (rest.members row) := by
        simp only [members, hu]
        rw [replace, List.map_cons, if_neg hne, ← replace]
      rw [hms]
      exact ⟨.read hread' hreads, huwhole, hwhole⟩
    · have hms : replace field.name w ((cons other rest).members (c, row)) = replace field.name w (rest.members row) := by
        simp only [members, hnone]
      rw [hms]
      exact ⟨.absent habsent hreads, hwhole⟩

end Fields

/-- A record fails as the one field that is not read back. -/
theorem Shape.yields_error (shape : Shape α) {β : Type} {field : FieldCodec β} {a : α} {c d : β} {row : Row shape.types}
    (hnames : shape.fields.names.Nodup) (h : shape.fields.AllBut field c d (shape.row a) row) {v : Json} {e : Failure}
    (hencode : field.encode c = some v) (hread : Yields field.decode v (.error e)) :
    Yields shape.decode (shape.encode a) (.error e) :=
  ⟨h.whole hencode hread.1, fun src => by
    simp only [encode, Draft.ofValue, decode, fromMembers, h.takeMembers hnames hencode (hread.2 src), bind, Except.bind]⟩

/-- With a value in the place of that field that can be read, the record is read back. -/
theorem Shape.rereads_withMember (shape : Shape α) {β : Type} {field : FieldCodec β} {a b : α} {c d : β}
    (hnames : shape.fields.names.Nodup) (h : shape.fields.AllBut field c d (shape.row a) (shape.row b))
    (hmake : shape.make (shape.row b) = b) {v w : Json} (hencode : field.encode c = some v)
    (hread : Yields field.decode w (.ok d)) :
    Rereads shape.decode (fun a => (shape.encode a).withMember field.name w) a b := by
  obtain ⟨hreads, hwhole⟩ := h.reads hnames hencode hread
  exact ⟨hwhole, fun src => hmake ▸ shape.decode_of_reads hnames hreads src⟩

end Decode

end MarketFeed
