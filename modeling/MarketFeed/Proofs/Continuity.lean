import Mathlib.Data.List.Induction
import MarketFeed.Continuity
import MarketFeed.Proofs.Interleaving
import MarketFeed.Proofs.SortedMap

/-!
# Continuity — the verdicts of a whole run

The tracker remembers the last accepted number of each origin, accepts its successor, and
calls any other number a gap (`Continuity.check`); a lost connection is forgotten
(`Continuity.reset`). Two things about whole runs of such queries are proved.

What is checked and reset for one origin makes no difference to the others:

> `own_answers`: the answers to the queries about one origin are the answers that these
> queries get when they are put alone.

And for one origin, the rule of the successor comes to this: of the numbers checked since
the last reset, accepted are the first one and then its successors, as far as they come in
order somewhere behind it (`LeadsTo`). So the last accepted number is the first one plus
the length of the longest such ascent (`ascent_sublist_iff`: taking each successor as soon
as it comes gets as far as any choice of them), and the verdict on a number follows from
the numbers before it, without the tracker:

> `answers_judged`: in every run, the verdict on a number is what the numbers checked
> before it for the same origin since its last reset say (`Judges`).

The step from the tracker to the numbers is `last?_eq_reached`, by induction on the run
from its end. Numbers are integers here: the greatest number of 64 bits has a successor,
but none that could be checked, and so every number behind it is a gap until the origin is
reset.
-/

namespace MarketFeed

/-! ## Counting on -/

/-- The next `m` numbers behind `x`. -/
def ascent (x : Int) : (m : Nat) → List Int
  | 0 => []
  | m + 1 => (x + 1) :: ascent (x + 1) m

/-- How far numbers count on from `x`, others passed over. -/
def climb (x : Int) : List Int → Nat
  | [] => 0
  | n :: rest => if n = x + 1 then climb (x + 1) rest + 1 else climb x rest

/-- Taking each successor as soon as it comes gets as far as any choice of them. -/
theorem ascent_sublist_iff {x : Int} {m : Nat} {ns : List Int} : (ascent x m).Sublist ns ↔ m ≤ climb x ns := by
  induction ns generalizing x m with
  | nil =>
    cases m with
    | zero => exact ⟨fun _ => Nat.le_refl 0, fun _ => List.Sublist.refl []⟩
    | succ m => exact iff_of_false (fun h => nomatch h) (Nat.not_succ_le_zero m)
  | cons n rest ih =>
    cases m with
    | zero => exact ⟨fun _ => Nat.zero_le _, fun _ => List.nil_sublist _⟩
    | succ m =>
      rw [climb, ascent]
      split
      next hn => rw [hn, List.cons_sublist_cons, ih, Nat.succ_le_succ_iff]
      next hn =>
        rw [← ih (x := x) (m := m + 1), ascent]
        exact ⟨fun h => h.of_cons_of_ne (Ne.symm hn), fun h => h.cons n⟩

/-- Numbers go on counting where the numbers before them have got to. -/
theorem climb_append (x : Int) (ns later : List Int) :
    climb x (ns ++ later) = climb x ns + climb (x + climb x ns) later := by
  induction ns generalizing x with
  | nil => simp only [List.nil_append, climb, Nat.zero_add, Int.natCast_zero, Int.add_zero]
  | cons n rest ih =>
    rw [List.cons_append, climb, climb]
    split
    next =>
      have hx : x + ((climb (x + 1) rest + 1 : Nat) : Int) = x + 1 + climb (x + 1) rest := by omega
      rw [ih, hx]
      omega
    next => exact ih x

/-- Numbers lead nowhere without the next one. -/
theorem climb_of_not_mem {x : Int} {ns : List Int} (h : x + 1 ∉ ns) : climb x ns = 0 := by
  induction ns with
  | nil => rfl
  | cons n rest ih =>
    have hn : x + 1 ≠ n := List.ne_of_not_mem_cons h
    rw [climb, if_neg hn.symm, ih (List.not_mem_of_not_mem_cons h)]

/-- Where numbers lead to lies below any number that is missing. -/
theorem add_climb_lt {x y : Int} {ns : List Int} (hxy : x < y) (hy : y ∉ ns) : x + climb x ns < y := by
  induction ns generalizing x with
  | nil =>
    rw [climb]
    omega
  | cons n rest ih =>
    have hn : y ≠ n := List.ne_of_not_mem_cons hy
    have hrest : y ∉ rest := List.not_mem_of_not_mem_cons hy
    rw [climb]
    split
    next hnext =>
      have hbelow := ih (x := x + 1) (by omega) hrest
      omega
    next => exact ih hxy hrest

private theorem climb_le_length (x : Int) (ns : List Int) : climb x ns ≤ ns.length := by
  induction ns generalizing x with
  | nil => exact Nat.le_refl 0
  | cons n rest ih =>
    rw [climb, List.length_cons]
    split
    next => exact Nat.succ_le_succ (ih _)
    next => exact Nat.le_succ_of_le (ih x)

private theorem length_ascent (x : Int) (m : Nat) : (ascent x m).length = m := by
  induction m generalizing x with
  | zero => rfl
  | succ m ih => rw [ascent, List.length_cons, ih]

private theorem climb_ascent (x : Int) (m : Nat) : climb x (ascent x m) = m := by
  induction m generalizing x with
  | zero => rfl
  | succ m ih => rw [ascent, climb, if_pos rfl, ih]

namespace Continuity

/-- A reset forgets its own origin and no other. -/
theorem last?_reset (k : Continuity) (o o' : Origin) :
    (k.reset o).last? o' = if o' = o then none else k.last? o' := SortedMap.get?_erase k.last o o'

/-- A reset looks at its own origin only. -/
theorem staysAt_reset (o : Origin) : StaysAt last? (· = o) fun k => (none (α := Verdict), k.reset o) := by
  refine ⟨fun _ => rfl, ?_, ?_⟩
  · intro k k' _ o' ho'
    rw [last?_reset, last?_reset, if_pos ho', if_pos ho']
  · intro o' ho' k
    rw [last?_reset, if_neg ho']

/-- A number counts for its origin only. -/
theorem last?_check (k : Continuity) (o : Origin) (n : Int) (o' : Origin) : (k.check o n).2.last? o' =
    if o' = o then (if (k.check o n).1 = .accepted then some n else k.last? o) else k.last? o' := by
  have hinsert : (Continuity.mk (k.last.insert o n)).last? o' = if o' = o then some n else k.last? o' :=
    SortedMap.get?_insert k.last o n o'
  unfold check
  split
  next => rw [hinsert, if_pos rfl]
  next last hlast =>
    split
    next => rw [hinsert, if_pos rfl]
    next =>
      have hgap : Verdict.gap last n ≠ .accepted := Verdict.noConfusion
      rw [if_neg hgap]
      split
      next ho' => rw [ho']
      next => rfl

/-- A check looks at what is remembered of its own origin only. -/
theorem staysAt_check (o : Origin) (n : Int) : StaysAt last? (· = o) fun k => k.check o n := by
  have hverdict {k k' : Continuity} (h : Alike last? (· = o) k k') : (k.check o n).1 = (k'.check o n).1 := by
    unfold check
    rw [h o rfl]
    split
    next => rfl
    next => split <;> rfl
  refine ⟨hverdict, ?_, ?_⟩
  · intro k k' h o' ho'
    rw [last?_check, last?_check, hverdict h, h o rfl, h o' ho']
  · intro o' ho' k
    rw [last?_check, if_neg ho']

/-! ## Runs -/

/-- What is asked about the numbers of an origin. -/
inductive Query where
  | check (o : Origin) (n : Int)
  | reset (o : Origin)
deriving DecidableEq

namespace Query

def origin : Query → Origin
  | check o _ => o
  | reset o => o

/-- The answer, and what is remembered. -/
def put : Query → Continuity → Option Verdict × Continuity
  | check o n, k => (some (k.check o n).1, (k.check o n).2)
  | reset o, k => (none, k.reset o)

/-- So does every query, whatever it asks. -/
theorem staysAt_put (q : Query) : StaysAt last? (· = q.origin) q.put := by
  cases q with
  | check o n => exact (staysAt_check o n).map some
  | reset o => exact staysAt_reset o

end Query

/-- The answers to the queries about one origin. -/
def ownAnswers (o : Origin) (qs : List Query) (k : Continuity) : List (Option Verdict) :=
  ((qs.zip (answers Query.put qs k)).filter (·.1.origin = o)).map (·.2)

/-- The numbers of an origin that were checked since it was last reset. -/
def numbers (o : Origin) (qs : List Query) : List Int :=
  qs.foldl (fun ns q => if q.origin = o then (match q with | .check _ n => ns ++ [n] | .reset _ => []) else ns) []

variable {o : Origin} {qs front back : List Query} {before : List Int} {n last : Int}

private theorem ownAnswers_cons (o : Origin) (q : Query) (rest : List Query) (k : Continuity) :
    ownAnswers o (q :: rest) k =
      if q.origin = o then (q.put k).1 :: ownAnswers o rest (q.put k).2 else ownAnswers o rest (q.put k).2 := by
  unfold ownAnswers
  rw [answers, List.zip_cons_cons, List.filter_cons]
  by_cases ho : q.origin = o <;> simp only [ho, decide_true, decide_false, if_true, if_false, List.map_cons,
    Bool.false_eq_true]

/-- Queries about other origins can be left out. -/
theorem own_answers {k k' : Continuity} (h : k.last? o = k'.last? o) :
    ownAnswers o qs k = answers Query.put (qs.filter (·.origin = o)) k' := by
  induction qs generalizing k k' with
  | nil => rfl
  | cons q rest ih =>
    have hq := q.staysAt_put
    rw [ownAnswers_cons, List.filter_cons]
    by_cases ho : q.origin = o
    · have halike : Alike last? (· = q.origin) k k' := fun o' ho' => by rw [ho', ho, h]
      rw [if_pos ho, if_pos (decide_eq_true ho), answers, hq.answer halike, ih (hq.writes halike o ho.symm)]
    · rw [if_neg ho, if_neg (by rwa [decide_eq_true_iff]), ih ((hq.frame (Ne.symm ho) k).trans h)]

/-! ## Verdicts from the numbers before -/

/-- That numbers lead up to a last one: it is the first one plus the length of the longest ascent from there that the
others contain in order. -/
def LeadsTo (ns : List Int) (last : Int) : Prop :=
  ∃ x rest m, ns = x :: rest ∧ last = x + (m : Nat) ∧ ∀ k, (ascent x k).Sublist rest ↔ k ≤ m

/-- The number that numbers lead up to, if there are any. -/
def reached : List Int → Option Int
  | [] => none
  | x :: rest => some (x + climb x rest)

/-- Counting on from the first number gets to the end of the longest ascent. -/
theorem leadsTo_iff : LeadsTo before last ↔ reached before = some last := by
  constructor
  · rintro ⟨x, rest, m, rfl, rfl, hm⟩
    -- both are the length of the longest ascent
    have hle : m ≤ climb x rest := ascent_sublist_iff.1 ((hm m).2 (Nat.le_refl m))
    have hge : climb x rest ≤ m := (hm _).1 (ascent_sublist_iff.2 (Nat.le_refl _))
    rw [reached, Nat.le_antisymm hge hle]
  · intro h
    cases before with
    | nil => cases h
    | cons x rest => exact ⟨x, rest, climb x rest, rfl, (Option.some.inj h).symm, fun _ => ascent_sublist_iff⟩

/-- The verdict on a number behind others. -/
def verdictBehind (before : List Int) (n : Int) : Verdict :=
  match reached before with
  | none => .accepted
  | some last => if n = last + 1 then .accepted else .gap last n

private theorem reached_concat (before : List Int) (n : Int) :
    reached (before ++ [n]) = if verdictBehind before n = .accepted then some n else reached before := by
  cases before with
  | nil => exact congrArg some (Int.add_zero n)
  | cons x rest =>
    have hone : climb (x + climb x rest) [n] = if n = x + climb x rest + 1 then 1 else 0 := by
      rw [climb, climb, climb]
    rw [List.cons_append, reached, climb_append, hone, verdictBehind, reached]
    dsimp only
    split
    next hn => rw [if_pos rfl, hn, Int.natCast_add, Int.add_assoc, Int.natCast_one]
    next => rw [if_neg Verdict.noConfusion, Nat.add_zero]

private theorem check_eq (k : Continuity) (h : k.last? o = reached before) :
    (k.check o n).1 = verdictBehind before n := by
  unfold check verdictBehind
  rw [h]
  cases reached before with
  | none => rfl
  | some last =>
    dsimp only
    split <;> rfl

private theorem numbers_concat (o : Origin) (qs : List Query) (q : Query) : numbers o (qs ++ [q]) =
    if q.origin = o then (match q with | .check _ n => numbers o qs ++ [n] | .reset _ => []) else numbers o qs := by
  rw [numbers, List.foldl_append]
  rfl

/-- What is remembered of an origin is what the numbers since its last reset lead up to. -/
theorem last?_eq_reached (qs : List Query) (o : Origin) :
    (stateAfter Query.put qs .empty).last? o = reached (numbers o qs) := by
  induction qs using List.reverseRecOn with
  | nil => rfl
  | append_singleton qs q ih =>
    rw [stateAfter_append, numbers_concat]
    show (q.put (stateAfter Query.put qs .empty)).2.last? o = _
    split
    next ho =>
      cases q with
      | check o' n =>
        obtain rfl : o' = o := ho
        show ((stateAfter Query.put qs .empty).check o' n).2.last? o' = reached (numbers o' qs ++ [n])
        rw [last?_check, if_pos rfl, reached_concat, check_eq _ ih, ih]
      | reset o' =>
        obtain rfl : o' = o := ho
        show ((stateAfter Query.put qs .empty).reset o').last? o' = none
        rw [last?_reset, if_pos rfl]
    next ho => rw [q.staysAt_put.frame (Ne.symm ho), ih]

/-- What a verdict on a number has to do with the numbers before it. -/
structure Judges (before : List Int) (n : Int) (verdict : Verdict) : Prop where
  accepted_iff : verdict = .accepted ↔ before = [] ∨ ∃ last, LeadsTo before last ∧ n = last + 1
  gap : ∀ last, LeadsTo before last → n ≠ last + 1 → verdict = .gap last n
  /-- No gap is reported while no number is missing. -/
  complete : ∀ x m, before ++ [n] = x :: ascent x m → verdict = .accepted
  /-- Every number above one that is missing is reported. -/
  missing : ∀ x rest y, before = x :: rest → x < y → y ∉ rest → y < n → ∃ last, last < y ∧ verdict = .gap last n
  /-- So is every one that comes while the next number does not. -/
  lost : ∀ sooner later last, before = sooner ++ later → LeadsTo sooner last → last + 1 ∉ later → n ≠ last + 1 →
    verdict = .gap last n

private theorem verdictBehind_of_reached (h : reached before = some last) (n : Int) :
    verdictBehind before n = if n = last + 1 then .accepted else .gap last n := by
  rw [verdictBehind, h]

private theorem gap_of_leadsTo (h : LeadsTo before last) (hn : n ≠ last + 1) :
    verdictBehind before n = .gap last n := by
  rw [verdictBehind_of_reached (leadsTo_iff.1 h), if_neg hn]

/-- Numbers that do not contain the next one lead no further. -/
theorem LeadsTo.append {later : List Int} (h : LeadsTo before last) (hlater : last + 1 ∉ later) :
    LeadsTo (before ++ later) last := by
  rw [leadsTo_iff] at h ⊢
  cases before with
  | nil => cases h
  | cons x rest =>
    obtain rfl := Option.some.inj h
    rw [List.cons_append, reached, climb_append, climb_of_not_mem hlater, Nat.add_zero]

/-- The last of numbers that follow each other is the successor of what those before it lead up to. -/
theorem accepted_of_ascent {x : Int} {m : Nat} (h : before ++ [n] = x :: ascent x m) :
    verdictBehind before n = .accepted := by
  cases before with
  | nil => rfl
  | cons y rest =>
    rw [List.cons_append] at h
    obtain ⟨rfl, hrest⟩ := List.cons.inj h
    have hclimb := climb_append y rest [n]
    have hlength := congrArg List.length hrest
    have hle := climb_le_length y rest
    rw [hrest, climb_ascent, climb, climb, climb] at hclimb
    rw [length_ascent, List.length_append, List.length_singleton] at hlength
    rw [verdictBehind_of_reached rfl]
    split
    next => rfl
    next hn =>
      rw [if_neg hn] at hclimb
      omega

/-- What counting on says about a number is what was promised of the verdict. -/
theorem judges_verdictBehind (before : List Int) (n : Int) : Judges before n (verdictBehind before n) where
  accepted_iff := by
    cases before with
    | nil => exact iff_of_true rfl (Or.inl rfl)
    | cons x rest =>
      have hreached : reached (x :: rest) = some (x + climb x rest) := rfl
      rw [verdictBehind_of_reached hreached]
      split
      next hn => exact iff_of_true rfl (Or.inr ⟨_, leadsTo_iff.2 hreached, hn⟩)
      next hn =>
        refine iff_of_false Verdict.noConfusion ?_
        rintro (hnil | ⟨last, hlast, hnext⟩)
        · cases hnil
        · rw [leadsTo_iff, hreached] at hlast
          exact hn (Option.some.inj hlast ▸ hnext)
  gap _ h hn := gap_of_leadsTo h hn
  complete _ _ h := accepted_of_ascent h
  missing := by
    rintro x rest y rfl hxy hy hn
    have hbelow := add_climb_lt hxy hy
    exact ⟨_, hbelow, gap_of_leadsTo (leadsTo_iff.2 rfl) (by omega)⟩
  lost := by
    rintro sooner later last rfl h hlater hn
    exact gap_of_leadsTo (h.append hlater) hn

/-- In every run, what is answered for an origin depends on its own queries only; what is remembered is what the numbers
since the last reset lead up to; and the verdict on a number follows from the numbers before it. -/
theorem answers_judged (qs : List Query) (o : Origin) :
    ownAnswers o qs .empty = answers Query.put (qs.filter (·.origin = o)) .empty ∧
    (∀ last, (stateAfter Query.put qs .empty).last? o = some last ↔ LeadsTo (numbers o qs) last) ∧
    ∀ front n back, qs = front ++ .check o n :: back → ∃ verdict,
      (answers Query.put qs .empty)[front.length]? = some (some verdict) ∧ Judges (numbers o front) n verdict := by
  refine ⟨own_answers rfl, ?_, ?_⟩
  · intro last
    rw [last?_eq_reached, leadsTo_iff]
  · rintro front n back rfl
    refine ⟨verdictBehind (numbers o front) n, ?_, judges_verdictBehind _ n⟩
    rw [getElem?_answers]
    exact congrArg (fun v => some (some v)) (check_eq _ (last?_eq_reached front o))

/-- Behind the greatest number of 64 bits every number is a gap, until the origin is reset. -/
example : answers Query.put [.check default (2 ^ 63 - 1), .check default (-2 ^ 63), .reset default,
    .check default (-2 ^ 63)] .empty =
      [some .accepted, some (.gap (2 ^ 63 - 1) (-2 ^ 63)), none, some .accepted] := by decide

end Continuity

end MarketFeed
