import Mathlib.Data.List.Induction
import MarketFeed.Proofs.Books.Fates
import MarketFeed.Proofs.Books.Ladders
import MarketFeed.Proofs.Books.Reach

/-!
# Books.Products — each product for itself

Edits of many products come mixed, and a batch of trades may be mixed in itself. Still the
book of a product is what its own part of the edits makes of it (`Edit.part?`):

> `edited_part`: the parts of edits come to their ends if the edits do, and leave the
> product the same book.

The step is `apply_part`: as far as one product goes, an edit does to any books what its
part does to books that agree on that product. It is stated for two sets of books because
the part leaves out edits of other products, so the two runs differ in all other books.
This is so as long as no batch of trades ends early, for then the trades behind the break
are lost for all products (`Finish`).

No batch makes a book or removes one. So a product has a book exactly from a snapshot of
it until it is dropped:

> `isSome_get?_edited_iff`: there is a book if some snapshot of its product has nothing
> behind it that drops it.

And the entries of a batch that count as unknown are those that find no book when their
turn comes (`Accounts`), which the fates of the entries tell (`Books.Fates`). All of it
together is `separate_edited`.
-/

namespace MarketFeed

namespace Books

variable {bs bs' : Books} {p : Product} {t : Trade} {o : BatchOutcome} {e : Edit} {edits : List Edit}
  {trades : List Trade}

/-! ## The part of one product -/

/-- What of an edit concerns a product. -/
def Edit.part? (p : Product) : Edit → Option Edit
  | .snapshot q changes => if q = p then some (.snapshot q changes) else none
  | .change q changes => if q = p then some (.change q changes) else none
  | .trade trades => some (.trade (trades.filter (·.product = p)))
  | .remove q => if q = p then some (.remove q) else none
  | .clear => some .clear

/-- That an edit comes to its end: no quantity that a trade leaves is out of range. -/
def Edit.Finishes (bs : Books) : Edit → Prop
  | .trade trades => (bs.trade trades).1 ≠ none
  | _ => True

instance (bs : Books) : (e : Edit) → Decidable (e.Finishes bs)
  | .trade trades => inferInstanceAs (Decidable ((bs.trade trades).1 ≠ none))
  | .snapshot _ _ | .change _ _ | .remove _ | .clear => .isTrue trivial

/-- That all edits of a run come to their ends. -/
def Finish (bs : Books) : List Edit → Prop
  | [] => True
  | e :: rest => e.Finishes bs ∧ (e.apply bs).Finish rest

instance decidableFinish (bs : Books) : (edits : List Edit) → Decidable (bs.Finish edits)
  | [] => .isTrue trivial
  | e :: rest =>
    have := decidableFinish (e.apply bs) rest
    inferInstanceAs (Decidable (e.Finishes bs ∧ (e.apply bs).Finish rest))

/-- A trade does the same to two books of its product that are the same, whatever has been counted before. -/
theorem trade?_of_get? (h : bs.get? t.product = bs'.get? t.product) {r : BatchOutcome × Books}
    (hr : bs.trade? o t = some r) (o' : BatchOutcome) :
    ∃ r', bs'.trade? o' t = some r' ∧ r.2.get? t.product = r'.2.get? t.product := by
  unfold trade? at hr ⊢
  rw [← h]
  split at hr
  next hnone =>
    obtain rfl := Option.some.inj hr
    exact ⟨(o'.countUnknown, bs'), rfl, h⟩
  next b hb =>
    obtain ⟨⟨effect, b'⟩, hb', rfl⟩ := Option.map_eq_some_iff.1 hr
    refine ⟨(o'.count effect, bs'.put t.product b'), by simp only [hb', Option.map_some], ?_⟩
    rw [get?_put, get?_put, if_pos rfl, if_pos rfl]

private theorem get?_trade?_of_ne {r : BatchOutcome × Books} (hr : bs.trade? o t = some r) (hne : p ≠ t.product) :
    r.2.get? p = bs.get? p := by
  have hframe := (staysAt_tradeStep t o).frame hne bs
  rwa [tradeStep, hr] at hframe

/-- What a batch does to the book of a product, the trades of the product alone do to the same book. -/
theorem tradeAll_part (h : bs.get? p = bs'.get? p) (hend : (tradeAll bs o trades).1 ≠ none) (o' : BatchOutcome) :
    (tradeAll bs' o' (trades.filter (·.product = p))).1 ≠ none ∧
      (tradeAll bs o trades).2.get? p = (tradeAll bs' o' (trades.filter (·.product = p))).2.get? p := by
  -- the counters run apart, as the part counts its own trades only
  induction trades generalizing bs bs' o o' with
  | nil => exact ⟨Option.some_ne_none _, h⟩
  | cons t rest ih =>
    unfold tradeAll at hend
    split at hend
    next => exact absurd rfl hend
    next o₁ bs₁ hr =>
      rw [tradeAll, hr, List.filter_cons]
      by_cases ht : t.product = p
      · subst ht
        obtain ⟨⟨o₁', bs₁'⟩, hr', hbook⟩ := trade?_of_get? h hr o'
        rw [if_pos (decide_eq_true rfl), tradeAll, hr']
        exact ih hbook hend o₁'
      · rw [if_neg (by rwa [decide_eq_true_iff])]
        exact ih ((get?_trade?_of_ne hr (Ne.symm ht)).trans h) hend o'

/-- A removal looks at its product only. -/
theorem staysAt_remove (q : Product) : StaysAt get? (· = q) fun bs => ((), bs.remove q) := by
  refine ⟨fun _ => rfl, ?_, ?_⟩
  · intro bs bs' _ r hr
    rw [get?_remove, get?_remove, if_pos hr, if_pos hr]
  · intro r hr bs
    rw [get?_remove, if_neg hr]

/-- An edit of one product is its own part for this product, and has none for the others. -/
theorem apply_part_of_staysAt {q : Product} (hpart : e.part? p = if q = p then some e else none)
    (hend : ∀ bs, e.Finishes bs) (hstays : StaysAt get? (· = q) fun bs => ((), e.apply bs))
    (h : bs.get? p = bs'.get? p) :
    bs'.Finish (e.part? p).toList ∧ (e.apply bs).get? p = (bs'.edited (e.part? p).toList).get? p := by
  rw [hpart]
  by_cases hq : q = p
  · subst hq
    rw [if_pos rfl]
    exact ⟨⟨hend bs', trivial⟩, hstays.writes (fun r hr => hr ▸ h) q rfl⟩
  · rw [if_neg hq]
    exact ⟨trivial, (hstays.frame (Ne.symm hq) bs).trans h⟩

/-- The step: on books that agree on a product, the part of an edit does to it what the edit does. -/
theorem apply_part (h : bs.get? p = bs'.get? p) (hend : e.Finishes bs) :
    bs'.Finish (e.part? p).toList ∧ (e.apply bs).get? p = (bs'.edited (e.part? p).toList).get? p := by
  cases e with
  | snapshot q changes => exact apply_part_of_staysAt rfl (fun _ => trivial) (staysAt_snapshot q changes) h
  | change q changes =>
    exact apply_part_of_staysAt rfl (fun _ => trivial) ((staysAt_change q changes).map fun _ => ()) h
  | trade trades =>
    obtain ⟨hpart, hbook⟩ := tradeAll_part h hend .zero
    exact ⟨⟨hpart, trivial⟩, hbook⟩
  | remove q => exact apply_part_of_staysAt rfl (fun _ => trivial) (staysAt_remove q) h
  | clear => exact ⟨⟨trivial, trivial⟩, rfl⟩

/-- The run: the parts of edits come to their ends if the edits do, and leave the product the same book. -/
theorem edited_part (h : bs.get? p = bs'.get? p) (hend : bs.Finish edits) :
    bs'.Finish (edits.filterMap (Edit.part? p)) ∧
      (bs.edited edits).get? p = (bs'.edited (edits.filterMap (Edit.part? p))).get? p := by
  -- `bs` and `bs'` agree on `p` and on nothing else: the edits of the other products never reach `bs'`
  induction edits generalizing bs bs' with
  | nil => exact ⟨trivial, h⟩
  | cons e rest ih =>
    obtain ⟨he, hrest⟩ := hend
    obtain ⟨hpart, hbook⟩ := apply_part h he
    obtain ⟨hlater, hlast⟩ := ih hbook hrest
    rw [List.filterMap_cons]
    cases hp : e.part? p with
    | none =>
      rw [hp] at hlater hlast
      exact ⟨hlater, hlast⟩
    | some part =>
      rw [hp] at hpart hlater hlast
      exact ⟨⟨hpart.1, hlater⟩, hlast⟩

/-! ## Which products have a book -/

/-- That an edit drops the book of a product, if there is one. -/
def Edit.Drops (p : Product) (e : Edit) : Prop := e = .remove p ∨ e = .clear

private theorem isSome_get?_put {b : Book} (h : bs.get? p = some b) (b' : Book) (q : Product) :
    ((bs.put p b').get? q).isSome = (bs.get? q).isSome := by
  rw [get?_put]
  split
  next hq => rw [hq, h]; rfl
  next => rfl

private theorem isSome_get?_change (bs : Books) (p : Product) (changes : List LevelChange) (q : Product) :
    ((bs.change p changes).2.get? q).isSome = (bs.get? q).isSome := by
  unfold change
  split
  next => rfl
  next b hb => exact isSome_get?_put hb _ q

private theorem isSome_get?_trade? {r : BatchOutcome × Books} (hr : bs.trade? o t = some r) (q : Product) :
    (r.2.get? q).isSome = (bs.get? q).isSome := by
  unfold trade? at hr
  split at hr
  next =>
    obtain rfl := Option.some.inj hr
    rfl
  next b hb =>
    obtain ⟨⟨effect, b'⟩, -, rfl⟩ := Option.map_eq_some_iff.1 hr
    exact isSome_get?_put hb b' q

private theorem isSome_get?_tradeAll (bs : Books) (o : BatchOutcome) (trades : List Trade) (q : Product) :
    ((tradeAll bs o trades).2.get? q).isSome = (bs.get? q).isSome := by
  induction trades generalizing bs o with
  | nil => rfl
  | cons t rest ih =>
    unfold tradeAll
    split
    next => rfl
    next o₁ bs₁ hr => rw [ih, isSome_get?_trade? hr]

/-- The step: a snapshot makes a book of its product, and only dropping it takes one away. -/
theorem isSome_get?_apply_iff (bs : Books) (e : Edit) (p : Product) : ((e.apply bs).get? p).isSome = true ↔
    (∃ changes, e = .snapshot p changes) ∨ (bs.get? p).isSome = true ∧ ¬ e.Drops p := by
  unfold Edit.Drops
  cases e with
  | snapshot q changes =>
    show ((bs.put q _).get? p).isSome = true ↔ _
    rw [get?_put]
    rcases eq_or_ne p q with rfl | hne
    · simp
    · simp [hne, hne.symm]
  | change q changes => simp [Edit.apply, isSome_get?_change]
  | trade trades => simp [Edit.apply, trade, isSome_get?_tradeAll]
  | remove q =>
    simp only [Edit.apply, get?_remove]
    rcases eq_or_ne p q with rfl | hne
    · simp
    · simp [hne, hne.symm]
  | clear => simp [Edit.apply, empty, get?, SortedMap.get?, SortedMap.empty]

/-- A product has a book from a snapshot on, until it is dropped. -/
theorem isSome_get?_edited_iff (edits : List Edit) (p : Product) : ((empty.edited edits).get? p).isSome = true ↔
    ∃ front changes back, edits = front ++ .snapshot p changes :: back ∧ ∀ e ∈ back, ¬ e.Drops p := by
  -- from the back, since the last edit that makes or drops the book decides
  induction edits using List.reverseRecOn with
  | nil => exact iff_of_false Bool.false_ne_true fun ⟨front, changes, back, heq, _⟩ => by simp at heq
  | append_singleton before e ih =>
    have hlast : empty.edited (before ++ [e]) = e.apply (empty.edited before) := edited_append _ before [e]
    rw [hlast, isSome_get?_apply_iff, ih]
    constructor
    · rintro (⟨changes, rfl⟩ | ⟨⟨front, changes, back, rfl, hback⟩, hkeeps⟩)
      · exact ⟨before, changes, [], rfl, fun e he => (List.not_mem_nil he).elim⟩
      · refine ⟨front, changes, back ++ [e], by simp, ?_⟩
        rw [List.forall_mem_append, List.forall_mem_singleton]
        exact ⟨hback, hkeeps⟩
    · rintro ⟨front, changes, back, heq, hback⟩
      rcases List.eq_nil_or_concat' back with rfl | ⟨back, e', rfl⟩
      · obtain ⟨-, rfl⟩ := List.append_singleton_inj.1 heq
        exact Or.inl ⟨changes, rfl⟩
      · rw [← List.cons_append, ← List.append_assoc] at heq
        obtain ⟨rfl, rfl⟩ := List.append_singleton_inj.1 heq
        rw [List.forall_mem_append, List.forall_mem_singleton] at hback
        exact Or.inr ⟨⟨front, changes, back, rfl, hback.1⟩, hback.2⟩

/-! ## The entries of a batch -/

def Item.product : Item → Product
  | change p _ => p
  | trade t => t.product

/-- How many of some entries find no book of their product when their turn comes. -/
def strangers : List Item → Books → Nat
  | [], _ => 0
  | x :: rest, bs => (if (bs.get? x.product).isNone then 1 else 0) + strangers rest (x.apply bs)

/-- That an outcome accounts for all entries of a batch, and those that find no book are its unknown ones. -/
structure Accounts (bs : Books) (items : List Item) (o : BatchOutcome) : Prop where
  total : o.applied + o.stale + o.unknown = items.length
  unknown : o.unknown = strangers items bs

/-- That every entry in turn has an effect if it finds a book. -/
def Effective : List Item → Books → Prop
  | [], _ => True
  | x :: rest, bs => (x.fate bs = none → bs.get? x.product = none) ∧ Effective rest (x.apply bs)

private theorem Item.fate_of_none {x : Item} (h : bs.get? x.product = none) : x.fate bs = none := by
  cases x with
  | change p c => rw [fate, show bs.get? p = none from h]; rfl
  | trade t => rw [fate, show bs.get? t.product = none from h]; rfl

private theorem accounts_ofFates {items : List Item} (h : Effective items bs) :
    Accounts bs items (.ofFates (fates items bs)) := by
  have htotal := BatchOutcome.total_ofFates (fates items bs)
  rw [length_fates] at htotal
  refine ⟨by omega, ?_⟩
  show (fates items bs).count none = strangers items bs
  clear htotal
  induction items generalizing bs with
  | nil => rfl
  | cons x rest ih =>
    obtain ⟨hx, hrest⟩ := h
    have hiff : x.fate bs = none ↔ (bs.get? x.product).isNone = true :=
      ⟨fun hfate => Option.isNone_iff_eq_none.2 (hx hfate),
        fun hnone => Item.fate_of_none (Option.isNone_iff_eq_none.1 hnone)⟩
    rw [fates, strangers, List.count_cons, ih hrest, Nat.add_comm]
    simp only [beq_iff_eq, hiff]

private theorem effective_changes (bs : Books) (p : Product) (changes : List LevelChange) :
    Effective (changes.map (Item.change p)) bs := by
  induction changes generalizing bs with
  | nil => trivial
  | cons c rest ih => exact ⟨Option.map_eq_none_iff.1, ih _⟩

/-- A batch of trades that comes to its end has an effect with each of its trades that finds a book. -/
theorem effective_trades (hend : (tradeAll bs o trades).1 ≠ none) : Effective (trades.map Item.trade) bs := by
  induction trades generalizing bs o with
  | nil => trivial
  | cons t rest ih =>
    unfold tradeAll at hend
    split at hend
    next => exact absurd rfl hend
    next o₁ bs₁ hr =>
      -- a trade without a fate is one that found no book, as none of the batch is out of range
      have hnext : bs₁ = (Item.trade t).apply bs := congrArg (·.2) (trade?_eq hr)
      refine ⟨fun hfate => ?_, hnext ▸ ih hend⟩
      unfold trade? at hr
      split at hr
      next hnone => exact hnone
      next b hb =>
        obtain ⟨r, hsome, -⟩ := Option.map_eq_some_iff.1 hr
        rw [Item.fate, hb, Option.bind_some, hsome] at hfate
        cases hfate

/-- Of a batch of changes all are unknown, or none is. -/
theorem accounts_change (bs : Books) (p : Product) (changes : List LevelChange) :
    Accounts bs (changes.map (Item.change p)) (bs.change p changes).1 := by
  rw [change_eq_ofFates]
  exact accounts_ofFates (effective_changes bs p changes)

/-- A batch of trades that is reported accounts for all its trades. -/
theorem accounts_trade (h : (bs.trade trades).1 = some o) : Accounts bs (trades.map Item.trade) o := by
  rw [trade_eq_ofFates h]
  refine accounts_ofFates (effective_trades (o := .zero) ?_)
  rw [show (tradeAll bs .zero trades).1 = some o from h]
  exact Option.some_ne_none o

/-! ## Runs of edits -/

private theorem Finish.finishes {front back : List Edit} (h : bs.Finish (front ++ e :: back)) :
    e.Finishes (bs.edited front) := by
  induction front generalizing bs with
  | nil => exact h.1
  | cons first rest ih => exact ih h.2

/-- That a product keeps to itself in a run of edits, and that every batch of the run is accounted for. -/
structure Separate (edits : List Edit) (p : Product) : Prop where
  /-- The part of the product comes to its end as well. -/
  finish : empty.Finish (edits.filterMap (Edit.part? p))
  book : (empty.edited edits).get? p = (empty.edited (edits.filterMap (Edit.part? p))).get? p
  /-- There is a book from a snapshot on until it is dropped. -/
  present : ((empty.edited edits).get? p).isSome = true ↔
    ∃ front changes back, edits = front ++ .snapshot p changes :: back ∧ ∀ e ∈ back, ¬ e.Drops p
  changes : ∀ front q changes back, edits = front ++ .change q changes :: back →
    Accounts (empty.edited front) (changes.map (Item.change q)) ((empty.edited front).change q changes).1
  trades : ∀ front trades back, edits = front ++ .trade trades :: back → ∃ o,
    ((empty.edited front).trade trades).1 = some o ∧ Accounts (empty.edited front) (trades.map Item.trade) o

/-- Whatever the edits, as long as no quantity gets out of range: every product has the book that its own part of the
edits gives it, and has one exactly from a snapshot until it is dropped; and every batch accounts for all its entries.
-/
theorem separate_edited (h : empty.Finish edits) (p : Product) : Separate edits p where
  finish := (edited_part rfl h).1
  book := (edited_part rfl h).2
  present := isSome_get?_edited_iff edits p
  changes := fun front q changes _ _ => accounts_change (empty.edited front) q changes
  trades := by
    rintro front trades back rfl
    obtain ⟨o, ho⟩ := Option.ne_none_iff_exists'.1 h.finishes
    exact ⟨o, ho, accounts_trade ho⟩

/-- Two products with a bid each. A batch mixes their trades with one of a third product, and has one that is too late;
then one of the two is dropped, and a batch for both follows. -/
def mixedUp : List Edit :=
  let entry (time price quantity : Int) : LevelChange :=
    ⟨.buy, time, .ofDecimal (amount price 0), .ofDecimal (amount quantity 0)⟩
  let trade (name : String) (size time : Int) : Trade :=
    ⟨"", ⟨name⟩, .ofDecimal (amount 100 0), .ofDecimal (amount size 0), .buy, time⟩
  [.snapshot ⟨"A"⟩ [entry 10 100 5], .snapshot ⟨"B"⟩ [entry 20 100 7],
    .trade [trade "A" 1 30, trade "C" 1 30, trade "B" 1 40, trade "A" 1 35, trade "A" 1 34],
    .change ⟨"C"⟩ [entry 50 99 1, entry 51 98 1], .remove ⟨"B"⟩, .trade [trade "B" 1 60, trade "A" 1 61]]

/-- The trades of the one product took three units in all, and the other has no book. -/
theorem separate_edited_mixedUp : empty.Finish mixedUp ∧ Separate mixedUp ⟨"A"⟩ ∧ Separate mixedUp ⟨"B"⟩ ∧
    ((empty.edited mixedUp).get? ⟨"A"⟩).map (·.bidLevels) =
      some [⟨.ofDecimal (amount 100 0), .ofDecimal (amount 2 0)⟩] ∧
    (empty.edited mixedUp).get? ⟨"B"⟩ = none := by
  have hfinish : empty.Finish mixedUp := by decide +kernel
  exact ⟨hfinish, separate_edited hfinish ⟨"A"⟩, separate_edited hfinish ⟨"B"⟩, by decide +kernel, by decide +kernel⟩

end Books

end MarketFeed
