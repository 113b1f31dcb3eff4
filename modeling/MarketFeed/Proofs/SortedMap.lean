import Mathlib.Data.List.Pairwise
import Mathlib.Data.List.Sort
import MarketFeed.SortedMap

/-!
# SortedMap — the laws of look-up

The books, the roster, the tracker and the sets of subscriptions are all ordered maps
(`SortedMap`): a list of entries with ascending keys. Nothing about the list should be
needed outside of this module, so a map is read through `get?`, and storing and dropping
an entry are one equation each:

> `get?_insert`, `get?_erase`: the entry of the key is replaced or gone, the others are as
> they were.
>
> `ext_get?`: two maps that answer every look-up alike are the same.

From these follow the laws that the other modules rewrite with: storing what is there
already and dropping what is not there change nothing (`insert_self`,
`erase_of_not_contains`).

A map whose entries are stored one by one in ascending order is made of just these entries
(`entries_foldl_insert`). That is how a set of subscriptions is built up again from its
own listing, and why an entry with the greatest key so far goes to the end
(`entries_insert_of_last`).

The lemmas assume of the order of the keys only that it is transitive and agrees with
equality. All the key types of the client come with such an order (`KeyOrder`).
-/

namespace MarketFeed

open Std

variable {κ ν : Type} [Ord κ]

namespace SortedMap

/-! ## Look-up -/

section

variable [DecidableEq κ] [LawfulEqOrd κ]

omit [DecidableEq κ] in
private theorem compare_beq_eq {a b : κ} : (compare a b == Ordering.eq) = true ↔ a = b := by
  rw [beq_iff_eq]
  exact LawfulEqCmp.compare_eq_iff_eq

private theorem find?_cons (j : κ) (a : κ × ν) (l : List (κ × ν)) :
    (a :: l).find? (fun e => compare j e.1 == .eq) =
      if j = a.1 then some a else l.find? (fun e => compare j e.1 == .eq) := by
  rw [List.find?_cons]
  by_cases hj : j = a.1
  · rw [if_pos hj, compare_beq_eq.2 hj]
  · rw [if_neg hj, Bool.eq_false_iff.2 fun h => hj (compare_beq_eq.1 h)]

private theorem find?_insertEntry (k : κ) (v : ν) (j : κ) (l : List (κ × ν)) :
    (insertEntry k v l).find? (fun e => compare j e.1 == .eq) =
      if j = k then some (k, v) else l.find? (fun e => compare j e.1 == .eq) := by
  induction l with
  | nil => exact find?_cons j (k, v) []
  | cons a rest ih =>
    rw [insertEntry]
    split
    next => exact find?_cons j (k, v) (a :: rest)
    next hk =>
      -- the entry that gives way has the same key
      have hka : k = a.1 := LawfulEqCmp.compare_eq_iff_eq.1 hk
      rw [find?_cons, find?_cons, ← hka]
      by_cases hj : j = k
      · rw [if_pos hj, if_pos hj]
      · rw [if_neg hj, if_neg hj, if_neg hj]
    next hk =>
      rw [find?_cons, find?_cons, ih]
      by_cases hja : j = a.1
      · have hjk : j ≠ k := by
          rintro rfl
          have heq : compare j a.1 = .eq := LawfulEqCmp.compare_eq_iff_eq.2 hja
          rw [heq] at hk
          cases hk
        rw [if_pos hja, if_neg hjk, if_pos hja]
      · rw [if_neg hja, if_neg hja]

/-- An entry that is stored replaces the one of its key, and no other. -/
theorem get?_insert [TransOrd κ] (m : SortedMap κ ν) (k : κ) (v : ν) (j : κ) :
    (m.insert k v).get? j = if j = k then some v else m.get? j := by
  unfold get? insert
  simp only
  rw [find?_insertEntry]
  split <;> rfl

/-- An entry that is dropped is gone, and no other. -/
theorem get?_erase (m : SortedMap κ ν) (k j : κ) :
    (m.erase k).get? j = if j = k then none else m.get? j := by
  unfold get? erase
  simp only
  rw [List.find?_filter]
  by_cases hj : j = k
  · subst hj
    rw [if_pos rfl, List.find?_eq_none.2, Option.map_none]
    intro e _ h
    simp only [bne_iff_ne, beq_iff_eq, decide_eq_true_eq] at h
    exact h.1 h.2
  · rw [if_neg hj]
    congr 2
    funext e
    by_cases he : j = e.1
    · -- what is looked for stays
      have hke : k ≠ e.1 := fun h => hj (he.trans h.symm)
      have hne : compare k e.1 ≠ .eq := fun h => hke (LawfulEqCmp.compare_eq_iff_eq.1 h)
      simp [hne, he]
    · simp [LawfulEqCmp.compare_eq_iff_eq, he]

omit [DecidableEq κ] in
/-- What a look-up finds is among the entries. -/
theorem mem_of_get? {m : SortedMap κ ν} {k : κ} {v : ν} (h : m.get? k = some v) : (k, v) ∈ m.entries := by
  obtain ⟨e, he, rfl⟩ := Option.map_eq_some_iff.1 h
  have hfound : (compare k e.1 == Ordering.eq) = true :=
    List.find?_some (p := fun d : κ × ν => compare k d.1 == Ordering.eq) he
  rw [compare_beq_eq.1 hfound]
  exact List.mem_of_find?_eq_some he

omit [DecidableEq κ] in
/-- The keys of the entries are there. -/
theorem contains_of_mem {m : SortedMap κ ν} {e : κ × ν} (h : e ∈ m.entries) : m.contains e.1 = true := by
  have hfound : (m.entries.find? (fun d => compare e.1 d.1 == .eq)).isSome := by
    rw [List.find?_isSome]
    exact ⟨e, h, compare_beq_eq.2 rfl⟩
  unfold contains get?
  rw [Option.isSome_map]
  exact hfound

/-- Storing an entry adds its key. -/
theorem contains_insert [TransOrd κ] (m : SortedMap κ ν) (k : κ) (v : ν) (j : κ) :
    (m.insert k v).contains j = (decide (j = k) || m.contains j) := by
  unfold contains
  rw [get?_insert]
  by_cases hj : j = k
  · rw [if_pos hj, decide_eq_true hj, Bool.true_or]
    rfl
  · rw [if_neg hj, decide_eq_false hj, Bool.false_or]

/-- Dropping an entry takes its key away. -/
theorem contains_erase (m : SortedMap κ ν) (k j : κ) :
    (m.erase k).contains j = (decide (j ≠ k) && m.contains j) := by
  unfold contains
  rw [get?_erase]
  by_cases hj : j = k
  · rw [if_pos hj, decide_eq_false (fun h => h hj), Bool.false_and]
    rfl
  · rw [if_neg hj, decide_eq_true hj, Bool.true_and]

end

/-! ## Entries -/

/-- A map is its entries, since the proof of their order carries no data. -/
theorem ext_entries {m n : SortedMap κ ν} (h : m.entries = n.entries) : m = n := by
  cases m
  cases n
  simp only at h
  subst h
  rfl

section

variable [LawfulEqOrd κ]

/-- Each key stands in one entry. -/
theorem mem_entries_iff {m : SortedMap κ ν} {k : κ} {v : ν} : (k, v) ∈ m.entries ↔ m.get? k = some v := by
  refine ⟨fun h => ?_, mem_of_get?⟩
  obtain ⟨w, hw⟩ := Option.isSome_iff_exists.1 (contains_of_mem h)
  let apart (a b : κ × ν) : Prop := a.1 ≠ b.1
  have hdistinct : m.entries.Pairwise apart :=
    m.ascending.imp fun {a b} (hlt : compare a.1 b.1 = .lt) heq => by
      have heq' : compare a.1 b.1 = .eq := LawfulEqCmp.compare_eq_iff_eq.2 heq
      rw [heq'] at hlt
      cases hlt
  have hsymm : Std.Symm apart := ⟨fun _ _ h => h.symm⟩
  by_contra hne
  have hother : (k, v) ≠ (k, w) := fun hsame => hne (hw.trans (congrArg (some ·.2) hsame).symm)
  exact hdistinct.forall h (mem_of_get? hw) hother rfl

/-- A map is what look-ups find in it. -/
theorem ext_get? [TransOrd κ] {m n : SortedMap κ ν} (h : ∀ k, m.get? k = n.get? k) : m = n := by
  let before (a b : κ × ν) : Prop := compare a.1 b.1 = .lt
  have hirrefl : Std.Irrefl before := ⟨fun a hlt => by
    have hself : compare a.1 a.1 = .eq := compare_self
    rw [show compare a.1 a.1 = .lt from hlt] at hself
    cases hself⟩
  have hantisymm : Std.Antisymm before := ⟨fun a b hab hba => absurd (TransCmp.lt_trans hab hba) (hirrefl.irrefl a)⟩
  refine ext_entries (m.ascending.eq_of_mem_iff (r := before) n.ascending fun e => ?_)
  rw [show e = (e.1, e.2) from rfl, mem_entries_iff, mem_entries_iff, h]

variable [DecidableEq κ] [TransOrd κ]

/-- Storing what is there already changes nothing. -/
theorem insert_self {m : SortedMap κ ν} {k : κ} {v : ν} (h : m.get? k = some v) : m.insert k v = m := by
  refine ext_get? fun j => ?_
  rw [get?_insert]
  split
  next hj => rw [hj, h]
  next => rfl

/-- Dropping what is not there changes nothing. -/
theorem erase_of_not_contains {m : SortedMap κ ν} {k : κ} (h : m.contains k = false) : m.erase k = m := by
  refine ext_get? fun j => ?_
  rw [get?_erase]
  split
  next hj => rw [hj, Option.isSome_eq_false_iff.1 h |> Option.isNone_iff_eq_none.1]
  next => rfl

end

/-- A key behind all others is not there. -/
theorem get?_of_last [LawfulEqOrd κ] {m : SortedMap κ ν} {k : κ} (h : ∀ e ∈ m.entries, compare e.1 k = .lt) :
    m.get? k = none := by
  rw [Option.eq_none_iff_forall_ne_some]
  intro v hv
  have hself : compare k k = .lt := h (k, v) (mem_of_get? hv)
  have heq : compare k k = .eq := compare_self
  rw [heq] at hself
  cases hself

private theorem insertEntry_of_last [TransOrd κ] {k : κ} {v : ν} {l : List (κ × ν)}
    (h : ∀ e ∈ l, compare e.1 k = .lt) : insertEntry k v l = l ++ [(k, v)] := by
  induction l with
  | nil => rfl
  | cons a rest ih =>
    have hgt : compare k a.1 = .gt := OrientedCmp.gt_of_lt (h a List.mem_cons_self)
    rw [insertEntry, hgt]
    simp only
    rw [ih (fun e he => h e (List.mem_cons_of_mem _ he))]
    rfl

/-- An entry behind all others is put at the end. -/
theorem entries_insert_of_last [TransOrd κ] {m : SortedMap κ ν} {k : κ} {v : ν}
    (h : ∀ e ∈ m.entries, compare e.1 k = .lt) : (m.insert k v).entries = m.entries ++ [(k, v)] :=
  insertEntry_of_last h

/-- Entries that come in ascending order are all put at the end. -/
theorem entries_foldl_insert [TransOrd κ] {l : List (κ × ν)} {m : SortedMap κ ν}
    (h : (m.entries ++ l).Pairwise (fun a b => compare a.1 b.1 = .lt)) :
    (l.foldl (fun m e => m.insert e.1 e.2) m).entries = m.entries ++ l := by
  induction l generalizing m with
  | nil => rw [List.foldl_nil, List.append_nil]
  | cons e rest ih =>
    have hbefore : ∀ d ∈ m.entries, compare d.1 e.1 = .lt :=
      fun d hd => (List.pairwise_append.1 h).2.2 d hd e List.mem_cons_self
    have hentries := entries_insert_of_last (v := e.2) hbefore
    rw [List.foldl_cons, ih, hentries, List.append_assoc]
    · rfl
    · rw [hentries, List.append_assoc]
      exact h

end SortedMap

end MarketFeed
