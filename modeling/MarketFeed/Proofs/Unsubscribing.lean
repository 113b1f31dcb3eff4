import Mathlib.Data.List.Induction
import MarketFeed.Proofs.Subscriptions

/-!
# Unsubscribing — what a history of calls leaves, and what another call takes away

What a set records (`Subscriptions`) is told by the history of the calls that made it. A
product is subscribed if the last call that named it was one to add it, where a call to
remove a whole channel names all its products:

> `contains_made_iff`: subscribed on a channel is what the last call that was about it
> added.

Removing products of which none is subscribed should leave the set alone, and does, with
one exception: a channel that is recorded without products (`Bare`), as channels are that
have none, has none left after the call and goes, as if the whole channel had been named.

> `remove_eq_self_iff`: such a call leaves a set as it is exactly if the channel is not
> bare.

Both are properties of every history (`made_recorded`). The first is an induction from the
last call; the second looks into the set that is recorded for the channel, since
`contains` does not tell a channel without products from one that is not there. A channel
that was recorded bare by `subscribe` with no product is the input on which the exception
shows (`not_kept_status`).
-/

namespace MarketFeed.Subscriptions

/-! ## Histories -/

/-- A call on a set. -/
inductive Change where
  | add (c : Channel) (ps : List Product)
  | remove (c : Channel) (ps : List Product)
deriving DecidableEq

namespace Change

def apply (set : Subscriptions) : Change → Subscriptions
  | add c ps => (set.add c ps).1
  | remove c ps => set.remove c ps

/-- Whether a call is about a product of a channel; the removal of a channel is about all of them. -/
def names (c : Channel) (p : Product) : Change → Bool
  | add d ps => decide (c = d ∧ p ∈ ps)
  | remove d ps => decide (c = d ∧ (ps = [] ∨ p ∈ ps))

def isAdd : Change → Bool
  | add _ _ => true
  | remove _ _ => false

end Change

/-- What calls in turn make of nothing. -/
def made (history : List Change) : Subscriptions := history.foldl Change.apply empty

/-- The last call that was about a product of a channel. -/
def lastNaming? (history : List Change) (c : Channel) (p : Product) : Option Change :=
  (history.filter (Change.names c p)).getLast?

variable {set : Subscriptions} {c : Channel} {ps : List Product}

private theorem made_append_singleton (history : List Change) (change : Change) :
    made (history ++ [change]) = change.apply (made history) := by
  unfold made
  rw [List.foldl_concat]

private theorem lastNaming?_append_singleton (history : List Change) (change : Change) (c : Channel) (p : Product) :
    lastNaming? (history ++ [change]) c p =
      if change.names c p = true then some change else lastNaming? history c p := by
  unfold lastNaming?
  rw [List.filter_append]
  by_cases hnames : change.names c p = true
  · rw [if_pos hnames, List.filter_cons_of_pos hnames]
    exact List.getLast?_concat
  · rw [if_neg hnames, List.filter_cons_of_neg hnames, List.filter_nil, List.append_nil]

private theorem contains_remove_nil (set : Subscriptions) (c j : Channel) (p : Product) :
    (set.remove c []).contains j p = (decide (j ≠ c) && set.contains j p) := by
  unfold contains
  rw [show set.remove c [] = ⟨set.channels.erase c⟩ from rfl, products_erase]
  by_cases hj : j = c
  · rw [if_pos hj, decide_eq_false (fun h => h hj), Bool.false_and]
    rfl
  · rw [if_neg hj, decide_eq_true hj, Bool.true_and]

/-- A call decides on the products that it names, and leaves the others alone. -/
theorem contains_apply (set : Subscriptions) (change : Change) (c : Channel) (p : Product) :
    (change.apply set).contains c p = if change.names c p = true then change.isAdd else set.contains c p := by
  cases change with
  | add d ps =>
    rw [Change.apply, Change.names, Change.isAdd, contains_add]
    cases decide (c = d ∧ p ∈ ps) <;> rfl
  | remove d ps =>
    rw [Change.apply, Change.names, Change.isAdd]
    by_cases hps : ps = []
    · subst hps
      rw [contains_remove_nil]
      by_cases hd : c = d <;> simp [hd]
    · rw [contains_remove hps]
      by_cases hnamed : c = d ∧ p ∈ ps
      · simp [hnamed]
      · simp [hps, hnamed]

/-- Subscribed is what the last call about it added. -/
theorem contains_made_iff (history : List Change) (c : Channel) (p : Product) :
    (made history).contains c p = true ↔ ∃ change, lastNaming? history c p = some change ∧ change.isAdd = true := by
  induction history using List.reverseRecOn with
  | nil =>
    refine iff_of_false Bool.noConfusion ?_
    rintro ⟨change, hnone, -⟩
    cases hnone
  | append_singleton history change ih =>
    rw [made_append_singleton, contains_apply, lastNaming?_append_singleton]
    split
    next =>
      constructor
      · exact fun hadd => ⟨change, rfl, hadd⟩
      · rintro ⟨last, hlast, hadd⟩
        rw [Option.some.inj hlast]
        exact hadd
    next => exact ih

/-! ## Removing what is not subscribed -/

/-- That a channel is recorded, with no product. -/
def Bare (set : Subscriptions) (c : Channel) : Prop := set.hasChannel c = true ∧ ∀ p, set.contains c p = false

private theorem foldl_erase_of_not_contains {products : SortedSet Product} (h : ∀ p ∈ ps, products.contains p = false) :
    ps.foldl (fun set p => set.erase p) products = products := by
  induction ps with
  | nil => rfl
  | cons p rest ih =>
    rw [List.foldl_cons, SortedMap.erase_of_not_contains (h p List.mem_cons_self)]
    exact ih fun q hq => h q (List.mem_cons_of_mem _ hq)

private theorem contains_of_get? {found : SortedSet Product} (hfound : set.channels.get? c = some found) (p : Product) :
    set.contains c p = found.contains p := by
  unfold contains products
  rw [hfound]
  rfl

private theorem bare_iff_of_get? {found : SortedSet Product} (hfound : set.channels.get? c = some found) :
    set.Bare c ↔ found.isEmpty = true := by
  have hchannel : set.hasChannel c = true := by
    unfold hasChannel SortedMap.contains
    rw [hfound]
    rfl
  constructor
  · rintro ⟨-, hnone⟩
    apply List.isEmpty_iff.2
    apply List.eq_nil_iff_forall_not_mem.2
    intro e he
    have hthere := SortedMap.contains_of_mem he
    rw [← contains_of_get? hfound, hnone] at hthere
    cases hthere
  · intro hempty
    refine ⟨hchannel, fun p => ?_⟩
    rw [contains_of_get? hfound]
    unfold SortedMap.contains SortedMap.get?
    rw [List.isEmpty_iff.1 hempty]
    rfl

private theorem remove_of_not_hasChannel (h : set.hasChannel c = false) : set.remove c ps = set := by
  have hget : set.channels.get? c = none := Option.isNone_iff_eq_none.1 (Option.isSome_eq_false_iff.1 h)
  unfold remove
  split
  next => exact congrArg mk (SortedMap.erase_of_not_contains h)
  next => rw [hget]

/-- With nothing to take away, a channel goes if it was without products, and is stored again as it was if not. -/
theorem remove_of_get? {found : SortedSet Product} (hfound : set.channels.get? c = some found) (hps : ps ≠ [])
    (hnone : ∀ p ∈ ps, set.contains c p = false) :
    set.remove c ps = if found.isEmpty = true then set.remove c [] else set := by
  have hleft : ps.foldl (fun set p => set.erase p) found = found :=
    foldl_erase_of_not_contains fun p hp => (contains_of_get? hfound p).symm.trans (hnone p hp)
  unfold remove
  rw [if_neg (by simpa using hps), hfound]
  simp only
  rw [hleft]
  split
  next => rfl
  next => exact congrArg mk (SortedMap.insert_self hfound)

/-- A bare channel goes with any product that is removed from it. -/
theorem remove_of_bare (hbare : set.Bare c) (hps : ps ≠ []) : set.remove c ps = set.remove c [] := by
  obtain ⟨found, hfound⟩ := Option.isSome_iff_exists.1 hbare.1
  rw [remove_of_get? hfound hps fun p _ => hbare.2 p, if_pos ((bare_iff_of_get? hfound).1 hbare)]

/-- Removing what is not subscribed leaves a set alone unless the channel is bare. -/
theorem remove_eq_self_iff (hps : ps ≠ []) (hnone : ∀ p ∈ ps, set.contains c p = false) :
    set.remove c ps = set ↔ ¬ set.Bare c := by
  constructor
  · intro hsame hbare
    have hgone : (set.remove c ps).hasChannel c = false := by
      rw [remove_of_bare hbare hps, hasChannel_remove_nil, decide_eq_false (fun h => h rfl), Bool.false_and]
    rw [hsame, hbare.1] at hgone
    cases hgone
  · intro hbare
    cases hget : set.channels.get? c with
    | none =>
      apply remove_of_not_hasChannel
      unfold hasChannel SortedMap.contains
      rw [hget]
      rfl
    | some found =>
      rw [remove_of_get? hget hps hnone, if_neg fun hempty => hbare ((bare_iff_of_get? hget).2 hempty)]

/-- After any history, subscribed is what was last added; and removing products that are not subscribed changes the
set just if the channel is recorded without products: then the channel goes. -/
theorem made_recorded (history : List Change) :
    (∀ c p, (made history).contains c p = true ↔
      ∃ change, lastNaming? history c p = some change ∧ change.isAdd = true) ∧
    ∀ c ps, ps ≠ [] → (∀ p ∈ ps, (made history).contains c p = false) →
      ((made history).remove c ps = made history ↔ ¬ (made history).Bare c) ∧
      ((made history).Bare c → (made history).remove c ps = (made history).remove c []) := by
  refine ⟨contains_made_iff history, ?_⟩
  intro c ps hps hnone
  exact ⟨remove_eq_self_iff hps hnone, fun hbare => remove_of_bare hbare hps⟩

/-- Products added and removed one by one, and a channel without products. -/
def mixed : List Change :=
  [.add .ticker [⟨"BTC-USD"⟩, ⟨"ETH-USD"⟩], .add .status [], .remove .ticker [⟨"ETH-USD"⟩], .add .ticker []]

/-- The product removed before is removed again, beside one that stays. -/
theorem made_recorded_mixed : (made mixed).contains .ticker ⟨"BTC-USD"⟩ = true ∧
    (made mixed).remove .ticker [⟨"ETH-USD"⟩] = made mixed := by
  obtain ⟨hcontains, hremove⟩ := made_recorded mixed
  have hthere : (made mixed).contains .ticker ⟨"BTC-USD"⟩ = true :=
    (hcontains .ticker ⟨"BTC-USD"⟩).2 ⟨.add .ticker [⟨"BTC-USD"⟩, ⟨"ETH-USD"⟩], by decide, rfl⟩
  refine ⟨hthere, (hremove .ticker [⟨"ETH-USD"⟩] (List.cons_ne_nil _ _) (by decide)).1.2 fun hbare => ?_⟩
  rw [hbare.2] at hthere
  cases hthere

/-- A channel recorded without products goes with a product that it never had. -/
theorem not_kept_status : ¬ ∀ (history : List Change) (c : Channel) (ps : List Product), ps ≠ [] →
    (∀ p ∈ ps, (made history).contains c p = false) → (made history).remove c ps = made history := by
  intro h
  have hkept := h [.add .status []] .status [⟨"BTC-USD"⟩] (List.cons_ne_nil _ _) (by decide)
  exact absurd hkept (by decide)

end MarketFeed.Subscriptions
