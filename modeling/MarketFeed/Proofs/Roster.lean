import Mathlib.Data.List.Induction
import MarketFeed.Proofs.Interleaving
import MarketFeed.Proofs.SortedMap
import MarketFeed.Roster

/-!
# Roster — the newest opening of each slot

A slot is opened again and again, and each opening gets the next number. The numbers have
no end, but a connection carries its number only up to the wrap at 2³²: that is its
generation. The roster keeps the newest generation of each slot and calls a connection
retired if it is older on the circle of 2³² (`isOlder`).

As long as what arrives is less than half the circle away from the newest opening seen of
its slot (`Opening.Near`), that is enough to tell openings apart, however often the count
has wrapped:

> `newest?_seen`: the generation on the roster is the one of the latest opening.
>
> `isRetired_seen`: a connection is retired exactly if a later opening of its slot was
> seen.

The first is the invariant of the second, by induction on the openings from the last one.
Both rest on one fact about the circle, that less than half of it apart counts are in the
order of their places on it (`isOlder_ofNat`).

Slots do not disturb each other: to accept a connection looks at its own slot only
(`staysAt_accept`).
-/

namespace MarketFeed

namespace Roster

/-! ## Single connections -/

private theorem newest?_accept (r : Roster) (c : Connection) (slot : UInt32) : (r.accept c).2.newest? slot =
    if slot = c.slot then (if r.isRetired c then r.newest? slot else some c.generation) else r.newest? slot := by
  unfold accept
  split
  next => rw [ite_self]
  next => exact SortedMap.get?_insert r.generations c.slot c.generation slot

/-- A connection is looked up and put down at its own slot only. -/
theorem staysAt_accept (c : Connection) : StaysAt newest? (· = c.slot) fun r => r.accept c := by
  have hretired {r r' : Roster} (h : Alike newest? (· = c.slot) r r') : r.isRetired c = r'.isRetired c := by
    unfold isRetired
    rw [h c.slot rfl]
  refine ⟨?_, ?_, ?_⟩
  · intro r r' h
    unfold accept
    rw [hretired h]
    split <;> rfl
  · intro r r' h slot hslot
    rw [newest?_accept, newest?_accept, hretired h, h slot hslot]
  · intro slot hslot r
    rw [newest?_accept, if_neg hslot]

/-- Less than half the circle apart, counts are in the order of their places on it. -/
theorem isOlder_ofNat {m n : Nat} (hm : m < n + UInt32.size / 2) (hn : n < m + UInt32.size / 2) :
    isOlder (.ofNat m) (.ofNat n) = decide (m < n) := by
  have hdistance : distance (.ofNat m) (.ofNat n) =
      (UInt32.size - m % UInt32.size + n % UInt32.size) % UInt32.size := by
    rw [distance, UInt32.toNat_sub, UInt32.toNat_ofNat', UInt32.toNat_ofNat']
  unfold isOlder
  rw [hdistance, ← Bool.decide_and]
  refine decide_eq_decide.2 ?_
  unfold UInt32.size at *
  omega

end Roster

/-! ## Openings -/

/-- One opening of a slot, by its number. -/
structure Opening where
  slot : UInt32
  number : Nat
deriving DecidableEq

namespace Opening

/-- The connection carries the number as far as it has room. -/
def connection (o : Opening) : Connection := ⟨o.slot, .ofNat o.number⟩

/-- The greatest number of a slot. -/
def latest? (slot : UInt32) (os : List Opening) : Option Nat :=
  ((os.filter (·.slot = slot)).map (·.number)).max?

/-- That every opening that arrives is less than half the circle away from the latest of its slot before it. -/
def Near (os : List Opening) : Prop :=
  ∀ front o back, os = front ++ o :: back → ∀ m ∈ latest? o.slot front,
    o.number < m + UInt32.size / 2 ∧ m < o.number + UInt32.size / 2

variable {slot : UInt32} {os : List Opening} {o : Opening} {m : Nat}

private theorem latest?_eq_some_iff : latest? slot os = some m ↔
    (∃ o ∈ os, o.slot = slot ∧ o.number = m) ∧ ∀ o ∈ os, o.slot = slot → o.number ≤ m := by
  rw [latest?, List.max?_eq_some_iff]
  simp only [List.mem_map, List.mem_filter, decide_eq_true_eq, and_assoc, forall_exists_index, and_imp]
  refine and_congr_right fun _ => ⟨fun h o ho hslot => h _ o ho hslot rfl, ?_⟩
  rintro h _ o ho hslot rfl
  exact h o ho hslot

/-- A slot without a latest number was never opened. -/
theorem latest?_eq_none_iff : latest? slot os = none ↔ ∀ o ∈ os, o.slot ≠ slot := by
  rw [latest?, List.max?_eq_none_iff, List.map_eq_nil_iff, List.filter_eq_nil_iff]
  simp only [decide_eq_true_eq, ne_eq]

private theorem latest?_concat (slot : UInt32) (os : List Opening) (o : Opening) : latest? slot (os ++ [o]) =
    if o.slot = slot then some (max ((latest? slot os).getD 0) o.number) else latest? slot os := by
  have hone : [o].filter (·.slot = slot) = if o.slot = slot then [o] else [] := by
    rw [List.filter_singleton, Bool.cond_decide]
  unfold latest?
  rw [List.filter_append, List.map_append, hone]
  split
  next =>
    cases (os.filter (·.slot = slot)).map (·.number) with
    | nil => exact congrArg some (Nat.zero_max o.number).symm
    | cons n ns =>
      show some ((ns ++ [o.number]).foldl max n) = some (max (ns.foldl max n) o.number)
      rw [List.foldl_append]
      rfl
  next => exact congrArg List.max? (List.append_nil _)

/-- Nothing has arrived yet that could be far away. -/
theorem near_nil : Near [] := fun _ _ _ h => absurd h.symm (List.append_ne_nil_of_right_ne_nil _ (List.cons_ne_nil _ _))

/-- What is near all along is near up to any point. -/
theorem Near.of_append {os : List Opening} (later : List Opening) (h : Near (os ++ later)) : Near os := by
  rintro front o back rfl
  exact h front o (back ++ later) (by rw [List.append_assoc, List.cons_append])

/-- Only the last arrival is to be compared with what was there before it. -/
theorem near_concat_iff : Near (os ++ [o]) ↔
    Near os ∧ ∀ m ∈ latest? o.slot os, o.number < m + UInt32.size / 2 ∧ m < o.number + UInt32.size / 2 := by
  constructor
  · intro h
    exact ⟨h.of_append [o], h os o [] rfl⟩
  · rintro ⟨h, hlast⟩ front o' back hsplit
    rcases List.eq_nil_or_concat' back with rfl | ⟨back, b, rfl⟩
    · obtain ⟨rfl, ho⟩ := List.append_inj' hsplit rfl
      obtain rfl := (List.cons.inj ho).1
      exact hlast
    · rw [← List.cons_append, ← List.append_assoc] at hsplit
      exact h front o' back (List.append_inj' hsplit rfl).1

end Opening

namespace Roster

open Opening

/-- The roster when openings have been seen in turn. -/
def seen (os : List Opening) : Roster := os.foldl (fun r o => (r.accept o.connection).2) .empty

variable {os : List Opening} {o : Opening}

/-- A connection is older than the latest of its slot if its number is. -/
theorem isRetired_of_newest? {r : Roster} (hnewest : r.newest? o.slot = (latest? o.slot os).map UInt32.ofNat)
    (hnear : ∀ m ∈ latest? o.slot os, o.number < m + UInt32.size / 2 ∧ m < o.number + UInt32.size / 2) :
    r.isRetired o.connection = decide (o.number < (latest? o.slot os).getD 0) := by
  have hslot : o.connection.slot = o.slot := rfl
  unfold isRetired
  rw [hslot, hnewest]
  cases hlatest : latest? o.slot os with
  | none => exact (decide_eq_false (Nat.not_lt_zero o.number)).symm
  | some m =>
    obtain ⟨hm, hn⟩ := hnear m hlatest
    exact isOlder_ofNat hm hn

/-- The roster holds the latest opening of each slot. -/
theorem newest?_seen (h : Near os) (slot : UInt32) :
    (seen os).newest? slot = (latest? slot os).map UInt32.ofNat := by
  induction os using List.reverseRecOn generalizing slot with
  | nil => rfl
  | append_singleton os o ih =>
    obtain ⟨hfront, hnear⟩ := near_concat_iff.1 h
    have hretired := isRetired_of_newest? (ih hfront o.slot) hnear
    have hseen : seen (os ++ [o]) = ((seen os).accept o.connection).2 := List.foldl_append
    rw [hseen, newest?_accept, hretired, latest?_concat, ih hfront]
    by_cases hslot : o.slot = slot
    · subst hslot
      have hsame : o.slot = o.connection.slot := rfl
      rw [if_pos hsame, if_pos rfl]
      cases latest? o.slot os with
      | none => exact congrArg (fun n => some (UInt32.ofNat n)) (Nat.zero_max o.number).symm
      | some m =>
        by_cases hlt : o.number < m
        · rw [Option.getD_some, if_pos (decide_eq_true hlt), Nat.max_eq_left (Nat.le_of_lt hlt)]
        · rw [Option.getD_some, if_neg (by rwa [decide_eq_true_iff]), Nat.max_eq_right (Nat.le_of_not_lt hlt)]
          rfl
    · have hother : ¬ slot = o.connection.slot := Ne.symm hslot
      rw [if_neg hother, if_neg hslot]

/-- A connection is retired if a later opening of its slot was seen. -/
theorem isRetired_seen (h : Near (os ++ [o])) :
    (seen os).isRetired o.connection = true ↔ ∃ o' ∈ os, o'.slot = o.slot ∧ o.number < o'.number := by
  obtain ⟨hfront, hnear⟩ := near_concat_iff.1 h
  rw [isRetired_of_newest? (newest?_seen hfront o.slot) hnear, decide_eq_true_iff]
  cases hlatest : latest? o.slot os with
  | none =>
    have hnone := latest?_eq_none_iff.1 hlatest
    refine iff_of_false (Nat.not_lt_zero _) ?_
    rintro ⟨o', ho', hslot, -⟩
    exact hnone o' ho' hslot
  | some m =>
    obtain ⟨⟨o', ho', hslot, rfl⟩, hle⟩ := latest?_eq_some_iff.1 hlatest
    constructor
    · intro hlt
      exact ⟨o', ho', hslot, hlt⟩
    · rintro ⟨o'', ho'', hslot', hlt⟩
      exact Nat.lt_of_lt_of_le hlt (hle o'' ho'' hslot')

end Roster

end MarketFeed
