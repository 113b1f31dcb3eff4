/-!
# SortedMap — a finite map kept in key order

Book sides, the shelf of books, subscriptions and the sequence table are all read out in
the order of their keys, so the order is part of the value: a map is its list of entries,
strictly ascending by key. Two maps that answer every look-up alike are therefore equal,
not just equivalent.

The key order is core's `compare`; the operations ask only for its laws (`Std.TransOrd`,
`Std.LawfulEqOrd`). What each operation does to a look-up is in `Proofs.SortedMap`; here
is only what makes the result a map again, which is that an entry is put where its key
belongs.
-/

namespace MarketFeed

variable {κ : Type} {ν : Type}

/-- A finite map as its entries in strictly ascending key order. -/
structure SortedMap (κ ν : Type) [Ord κ] where
  entries : List (κ × ν)
  ascending : entries.Pairwise (fun a b => compare a.1 b.1 = .lt)

namespace SortedMap

variable [Ord κ]

/-- The map with no entry. -/
def empty : SortedMap κ ν := ⟨[], List.Pairwise.nil⟩

instance : EmptyCollection (SortedMap κ ν) := ⟨empty⟩
instance : Inhabited (SortedMap κ ν) := ⟨empty⟩

instance [DecidableEq κ] [DecidableEq ν] : DecidableEq (SortedMap κ ν) := fun a b =>
  match decEq a.entries b.entries with
  | .isTrue h => .isTrue (by cases a; cases b; simp_all)
  | .isFalse h => .isFalse (fun e => h (congrArg entries e))

/-! ## Reading -/

/-- The value stored under `k`. -/
def get? (m : SortedMap κ ν) (k : κ) : Option ν :=
  (m.entries.find? (fun e => compare k e.1 == .eq)).map (·.2)

def contains (m : SortedMap κ ν) (k : κ) : Bool := (m.get? k).isSome

/-- The keys, ascending. -/
def keys (m : SortedMap κ ν) : List κ := m.entries.map (·.1)

/-- The values in key order. -/
def values (m : SortedMap κ ν) : List ν := m.entries.map (·.2)

def size (m : SortedMap κ ν) : Nat := m.entries.length

def isEmpty (m : SortedMap κ ν) : Bool := m.entries.isEmpty

/-- The entry with the least key. -/
def first? (m : SortedMap κ ν) : Option (κ × ν) := m.entries.head?

/-- The entry with the greatest key. -/
def last? (m : SortedMap κ ν) : Option (κ × ν) := m.entries.getLast?

/-! ## Writing -/

/-- Puts an entry at its place; an entry with the same key gives way. -/
def insertEntry (k : κ) (v : ν) : List (κ × ν) → List (κ × ν)
  | [] => [(k, v)]
  | e :: rest =>
    match compare k e.1 with
    | .lt => (k, v) :: e :: rest
    | .eq => (k, v) :: rest
    | .gt => e :: insertEntry k v rest

/-- What is in the list afterwards is the new entry or was there before. -/
theorem mem_insertEntry {k : κ} {v : ν} {e : κ × ν} {l : List (κ × ν)}
    (h : e ∈ insertEntry k v l) : e = (k, v) ∨ e ∈ l := by
  induction l with
  | nil => simpa [insertEntry] using h
  | cons a l ih =>
    simp only [insertEntry] at h
    split at h
    · simpa using h
    · rcases List.mem_cons.1 h with h | h
      · exact Or.inl h
      · exact Or.inr (List.mem_cons_of_mem _ h)
    · rcases List.mem_cons.1 h with h | h
      · exact Or.inr (h ▸ List.mem_cons_self)
      · rcases ih h with h | h
        · exact Or.inl h
        · exact Or.inr (List.mem_cons_of_mem _ h)

/-- An entry is put in front of the first greater key, so the list stays in order. -/
theorem pairwise_insertEntry [Std.TransOrd κ] (k : κ) (v : ν) {l : List (κ × ν)}
    (h : l.Pairwise (fun a b => compare a.1 b.1 = .lt)) :
    (insertEntry k v l).Pairwise (fun a b => compare a.1 b.1 = .lt) := by
  induction l with
  | nil => simp [insertEntry]
  | cons a l ih =>
    obtain ⟨ha, hl⟩ := List.pairwise_cons.1 h
    simp only [insertEntry]
    split
    next hk =>
      refine List.pairwise_cons.2 ⟨fun b hb => ?_, h⟩
      rcases List.mem_cons.1 hb with hb | hb
      · exact hb ▸ hk
      · exact Std.TransCmp.lt_trans hk (ha b hb)
    next hk =>
      exact List.pairwise_cons.2 ⟨fun b hb => Std.TransCmp.lt_of_eq_of_lt hk (ha b hb), hl⟩
    next hk =>
      refine List.pairwise_cons.2 ⟨fun b hb => ?_, ih hl⟩
      rcases mem_insertEntry hb with hb | hb
      · subst hb
        exact Std.OrientedCmp.lt_of_gt hk
      · exact ha b hb

/-- Stores `v` under `k`, in place of what was there. -/
def insert [Std.TransOrd κ] (m : SortedMap κ ν) (k : κ) (v : ν) : SortedMap κ ν :=
  ⟨insertEntry k v m.entries, pairwise_insertEntry k v m.ascending⟩

/-- Drops the entry of `k`, if there is one. -/
def erase (m : SortedMap κ ν) (k : κ) : SortedMap κ ν :=
  ⟨m.entries.filter (fun e => compare k e.1 != .eq), m.ascending.filter _⟩

/-- Replaces the value under `k`, if there is one. -/
def modify (m : SortedMap κ ν) (k : κ) (f : ν → ν) : SortedMap κ ν :=
  ⟨m.entries.map (fun e => if compare k e.1 == .eq then (e.1, f e.2) else e), by
    refine List.pairwise_map.2 (m.ascending.imp ?_)
    intro a b h
    split <;> split <;> exact h⟩

/-- Collects a list of entries, later ones winning. -/
def ofList [Std.TransOrd κ] (l : List (κ × ν)) : SortedMap κ ν :=
  l.foldl (fun m e => m.insert e.1 e.2) empty

end SortedMap

/-- A finite set in ascending order. -/
abbrev SortedSet (κ : Type) [Ord κ] := SortedMap κ Unit

namespace SortedSet

variable [Ord κ]

/-- The members, ascending. -/
def toList (s : SortedSet κ) : List κ := s.entries.map (·.1)

/-- Collects a list, each member once. -/
def ofList [Std.TransOrd κ] (l : List κ) : SortedSet κ :=
  l.foldl (fun s k => s.insert k ()) SortedMap.empty

end SortedSet

end MarketFeed
