import MarketFeed.Proofs.SortedMap
import MarketFeed.Subscriptions

/-!
# Subscriptions — what a set records, and how it is built up again

A set records for each channel of a feed the products that are subscribed on it. Adding
and removing are described by what is asked of a set afterwards, `hasChannel` and
`contains`, so that the maps behind a set are opened here and nowhere else.

Three kinds of facts come from that:

- A subscription that was added stays when more is added (`Records`), and one that was
  removed stays away when more is removed (`Lacks`). Calls that name several channels go
  through them one by one (`records_foldl_add`, `lacks_foldl_remove`).
- A set to which only channels of one feed are added has no channel of the other
  (`Within`).
- Requests act on a set the way the venue takes them (`Subscriptions.take`), and the set
  is what requests for all that it lists come to, made upon nothing:

> `foldl_add_toList`: a set is made of what it lists, channels without products included.

The last one is what subscribing again on a fresh connection relies on. It needs that a
list of products in ascending order is added in that order (`entries_addNew`), which is a
fact about ordered maps.

What a set holds after any history of calls, and what it takes from a set to remove
products of which none is subscribed, is the matter of `Unsubscribing`.
-/

namespace MarketFeed

/-- A channel is known by its name. -/
theorem Channel.ofName?_name (c : Channel) : Channel.ofName? c.name = some c := by
  cases c <;> decide

namespace Subscriptions

variable {set : Subscriptions} {c : Channel} {ps : List Product}

/-! ## Adding -/

private theorem contains_addNew (ps : List Product) (set : SortedSet Product) (p : Product) :
    (addNew ps set).1.contains p = (decide (p ∈ ps) || set.contains p) := by
  induction ps generalizing set with
  | nil => rfl
  | cons q rest ih =>
    unfold addNew
    by_cases hq : set.contains q = true
    · rw [if_pos hq, ih]
      by_cases hpq : p = q
      · subst hpq
        rw [hq, Bool.or_true, Bool.or_true]
      · simp only [List.mem_cons, hpq, false_or]
    · rw [if_neg hq]
      simp only
      rw [ih, SortedMap.contains_insert]
      by_cases hpq : p = q
      · subst hpq
        simp
      · simp [hpq]

private theorem products_add (set : Subscriptions) (c : Channel) (ps : List Product) (j : Channel) :
    (set.add c ps).1.products j = if j = c then (addNew ps (set.products c)).1 else set.products j := by
  unfold add products
  simp only
  rw [SortedMap.get?_insert]
  split <;> rfl

private theorem hasChannel_add (set : Subscriptions) (c : Channel) (ps : List Product) (j : Channel) :
    (set.add c ps).1.hasChannel j = (decide (j = c) || set.hasChannel j) :=
  SortedMap.contains_insert set.channels c _ j

/-- Adding products to a channel adds just these to it. -/
theorem contains_add (set : Subscriptions) (c : Channel) (ps : List Product) (j : Channel) (p : Product) :
    (set.add c ps).1.contains j p = (decide (j = c ∧ p ∈ ps) || set.contains j p) := by
  unfold contains
  rw [products_add]
  by_cases hj : j = c
  · subst hj
    rw [if_pos rfl, contains_addNew]
    simp
  · rw [if_neg hj]
    simp [hj]

/-! ## Removing -/

private theorem contains_foldl_erase (ps : List Product) (set : SortedSet Product) (p : Product) :
    (ps.foldl (fun set p => set.erase p) set).contains p = (decide (p ∉ ps) && set.contains p) := by
  induction ps generalizing set with
  | nil => rfl
  | cons q rest ih =>
    rw [List.foldl_cons, ih, SortedMap.contains_erase]
    by_cases hpq : p = q
    · subst hpq
      simp
    · simp [hpq]

/-- Without its entry a channel has no products. -/
theorem products_erase (set : Subscriptions) (c j : Channel) :
    products ⟨set.channels.erase c⟩ j = if j = c then .empty else set.products j := by
  unfold products
  rw [SortedMap.get?_erase]
  split <;> rfl

/-- Removing products takes just these from the channel, whether or not the channel goes with the last of them. -/
theorem contains_remove (hps : ps ≠ []) (set : Subscriptions) (c j : Channel) (p : Product) :
    (set.remove c ps).contains j p = (decide (¬ (j = c ∧ p ∈ ps)) && set.contains j p) := by
  unfold contains remove
  rw [if_neg (by simpa using hps)]
  split
  next hnone =>
    by_cases hj : j = c
    · subst hj
      have hempty : set.products j = .empty := by
        unfold products
        rw [hnone]
        rfl
      rw [hempty]
      exact (Bool.and_false _).symm
    · simp [hj]
  next found hfound =>
    have hproducts : set.products c = found := by
      unfold products
      rw [hfound]
      rfl
    have hleft := contains_foldl_erase ps found p
    simp only
    generalize ps.foldl (fun set p => SortedMap.erase set p) found = left at *
    by_cases hj : j = c
    · subst hj
      split
      next hnothing =>
        -- nothing is left of the channel, so nothing of its products
        have hleft' : left.contains p = false := by
          unfold SortedMap.contains SortedMap.get?
          rw [List.isEmpty_iff.1 hnothing]
          rfl
        rw [products_erase, if_pos rfl, hproducts]
        simp only [true_and]
        exact hleft'.symm.trans hleft
      next =>
        unfold products
        rw [SortedMap.get?_insert, if_pos rfl]
        show left.contains p = _
        rw [hleft]
        show _ = (_ && (set.products j).contains p)
        rw [hproducts]
        simp
    · split
      next =>
        rw [products_erase, if_neg hj]
        simp [hj]
      next =>
        unfold products
        rw [SortedMap.get?_insert, if_neg hj]
        simp [hj]

/-- Removing no product in particular removes the whole channel. -/
theorem hasChannel_remove_nil (set : Subscriptions) (c j : Channel) :
    (set.remove c []).hasChannel j = (decide (j ≠ c) && set.hasChannel j) :=
  SortedMap.contains_erase set.channels c j

/-- Removing adds no channel. -/
theorem hasChannel_of_remove {j : Channel} (h : (set.remove c ps).hasChannel j = true) : set.hasChannel j = true := by
  have herase (hj : hasChannel ⟨set.channels.erase c⟩ j = true) : set.hasChannel j = true := by
    unfold hasChannel at hj
    rw [SortedMap.contains_erase] at hj
    exact (Bool.and_eq_true_iff.1 hj).2
  unfold remove at h
  split at h
  next => exact herase h
  next =>
    split at h
    next => exact h
    next found hfound =>
      simp only at h
      split at h
      next => exact herase h
      next =>
        unfold hasChannel at h ⊢
        rw [SortedMap.contains_insert] at h
        by_cases hj : j = c
        · subst hj
          unfold SortedMap.contains
          rw [hfound]
          rfl
        · simpa [hj] using h

/-! ## What stays recorded -/

/-- That a channel is subscribed, with these products among others. -/
def Records (set : Subscriptions) (ps : List Product) (c : Channel) : Prop :=
  set.hasChannel c = true ∧ ∀ p ∈ ps, set.contains c p = true

/-- That these products are not subscribed on a channel, or the channel is not when none is named. -/
def Lacks (set : Subscriptions) (ps : List Product) (c : Channel) : Prop :=
  (ps = [] → set.hasChannel c = false) ∧ ∀ p ∈ ps, set.contains c p = false

instance (set : Subscriptions) (ps : List Product) (c : Channel) : Decidable (set.Records ps c) :=
  inferInstanceAs (Decidable (_ ∧ _))

instance (set : Subscriptions) (ps : List Product) (c : Channel) : Decidable (set.Lacks ps c) :=
  inferInstanceAs (Decidable (_ ∧ _))

/-- What is added is recorded. -/
theorem records_add (set : Subscriptions) (c : Channel) (ps : List Product) : (set.add c ps).1.Records ps c := by
  refine ⟨?_, ?_⟩
  · rw [hasChannel_add, decide_eq_true rfl, Bool.true_or]
  · intro p hp
    rw [contains_add, decide_eq_true ⟨rfl, hp⟩, Bool.true_or]

/-- What is recorded stays so when more is added, on whatever channel. -/
theorem Records.add {d : Channel} (h : set.Records ps c) (qs : List Product) : (set.add d qs).1.Records ps c := by
  refine ⟨?_, ?_⟩
  · rw [hasChannel_add, h.1, Bool.or_true]
  · intro p hp
    rw [contains_add, h.2 p hp, Bool.or_true]

/-- It stays so when products are added to several channels. -/
theorem Records.foldl_add {channels : List Channel} (h : set.Records ps c) :
    (channels.foldl (fun set d => (set.add d ps).1) set).Records ps c := by
  induction channels generalizing set with
  | nil => exact h
  | cons d rest ih => exact ih (h.add ps)

/-- Every channel that products are added to in turn records them in the end. -/
theorem records_foldl_add {channels : List Channel} (hc : c ∈ channels) (set : Subscriptions) :
    (channels.foldl (fun set d => (set.add d ps).1) set).Records ps c := by
  induction channels generalizing set with
  | nil => cases hc
  | cons d rest ih =>
    rcases List.mem_cons.1 hc with rfl | hrest
    · exact (records_add set c ps).foldl_add
    · exact ih hrest _

/-- What is removed is not subscribed any more. -/
theorem lacks_remove (set : Subscriptions) (c : Channel) (ps : List Product) : (set.remove c ps).Lacks ps c := by
  refine ⟨?_, ?_⟩
  · rintro rfl
    rw [hasChannel_remove_nil, decide_eq_false (fun h => h rfl), Bool.false_and]
  · intro p hp
    rw [contains_remove (List.ne_nil_of_mem hp), decide_eq_false (fun h => h ⟨rfl, hp⟩), Bool.false_and]

/-- What is not subscribed stays so when more is removed, on whatever channel. -/
theorem Lacks.remove {d : Channel} (h : set.Lacks ps c) : (set.remove d ps).Lacks ps c := by
  refine ⟨?_, ?_⟩
  · intro hps
    rw [Bool.eq_false_iff]
    intro hleft
    have hbefore := hasChannel_of_remove hleft
    rw [h.1 hps] at hbefore
    cases hbefore
  · intro p hp
    rw [contains_remove (List.ne_nil_of_mem hp), h.2 p hp, Bool.and_false]

/-- It stays so when products are removed from several channels. -/
theorem Lacks.foldl_remove {channels : List Channel} (h : set.Lacks ps c) :
    (channels.foldl (fun set d => set.remove d ps) set).Lacks ps c := by
  induction channels generalizing set with
  | nil => exact h
  | cons d rest ih => exact ih h.remove

/-- No channel that products are removed from in turn has them in the end. -/
theorem lacks_foldl_remove {channels : List Channel} (hc : c ∈ channels) (set : Subscriptions) :
    (channels.foldl (fun set d => set.remove d ps) set).Lacks ps c := by
  induction channels generalizing set with
  | nil => cases hc
  | cons d rest ih =>
    rcases List.mem_cons.1 hc with rfl | hrest
    · exact (lacks_remove set c ps).foldl_remove
    · exact ih hrest _

/-! ## Sets of one feed -/

/-- That all subscribed channels belong to a feed. -/
def Within (set : Subscriptions) (f : Feed) : Prop := ∀ c, set.hasChannel c = true → c.feed = f

/-- Nothing belongs to either feed. -/
theorem within_empty (f : Feed) : empty.Within f := by
  intro c h
  cases h

/-- A set stays within a feed if only channels of the feed are added. -/
theorem Within.foldl_add {f : Feed} {channels : List Channel} (h : set.Within f) (hc : ∀ c ∈ channels, c.feed = f) :
    (channels.foldl (fun set d => (set.add d ps).1) set).Within f := by
  induction channels generalizing set with
  | nil => exact h
  | cons d rest ih =>
    refine ih ?_ fun c hrest => hc c (List.mem_cons_of_mem _ hrest)
    intro c hadded
    rw [hasChannel_add, Bool.or_eq_true, decide_eq_true_iff] at hadded
    rcases hadded with rfl | hbefore
    · exact hc c List.mem_cons_self
    · exact h c hbefore

/-- Removing takes no set out of its feed. -/
theorem Within.foldl_remove {f : Feed} {channels : List Channel} (h : set.Within f) :
    (channels.foldl (fun set d => set.remove d ps) set).Within f := by
  induction channels generalizing set with
  | nil => exact h
  | cons d rest ih => exact ih fun c hleft => h c (hasChannel_of_remove hleft)

/-- What a set of a feed lists are channels of the feed. -/
theorem Within.mem_toList {f : Feed} (h : set.Within f) {e : Channel × List Product} (he : e ∈ set.toList) :
    e.1.feed = f := by
  obtain ⟨d, hd, rfl⟩ := List.mem_map.1 he
  exact h d.1 (SortedMap.contains_of_mem hd)

/-! ## Requests -/

/-- A set after a request; one for a channel that nobody knows changes nothing. -/
def take (set : Subscriptions) (r : Request) : Subscriptions :=
  match Channel.ofName? r.channel, r.kind with
  | none, _ => set
  | some c, .subscribe => (set.add c r.products).1
  | some c, .unsubscribe => set.remove c r.products

/-- What requests come to that are made in turn upon nothing. -/
def ofRequests (requests : List Request) : Subscriptions := requests.foldl take empty

/-- A request to subscribe adds its products. -/
theorem take_subscribe (set : Subscriptions) (c : Channel) (ps : List Product) (token : Option String) :
    set.take (.ofChannel .subscribe c ps token) = (set.add c ps).1 := by
  unfold take Request.ofChannel
  simp only [Channel.ofName?_name]

/-- A request to unsubscribe removes its products, or its channel. -/
theorem take_unsubscribe (set : Subscriptions) (c : Channel) (ps : List Product) (token : Option String) :
    set.take (.ofChannel .unsubscribe c ps token) = set.remove c ps := by
  unfold take Request.ofChannel
  simp only [Channel.ofName?_name]

/-- Later requests act on what earlier ones came to. -/
theorem ofRequests_append (before after : List Request) :
    ofRequests (before ++ after) = after.foldl take (ofRequests before) :=
  List.foldl_append

/-- Products in ascending order that are added behind those there are. -/
theorem entries_addNew {ps : List Product} {set : SortedSet Product}
    (h : (set.entries ++ ps.map (·, ())).Pairwise (fun a b => compare a.1 b.1 = .lt)) :
    (addNew ps set).1.entries = set.entries ++ ps.map (·, ()) := by
  induction ps generalizing set with
  | nil => exact (List.append_nil _).symm
  | cons p rest ih =>
    have hbefore : ∀ e ∈ set.entries, compare e.1 p = .lt :=
      fun e he => (List.pairwise_append.1 h).2.2 e he (p, ()) List.mem_cons_self
    have hnew : ¬ set.contains p = true := by
      unfold SortedMap.contains
      rw [SortedMap.get?_of_last hbefore]
      exact Bool.noConfusion
    have hentries := SortedMap.entries_insert_of_last (v := ()) hbefore
    unfold addNew
    rw [if_neg hnew]
    simp only
    rw [ih, hentries, List.append_assoc]
    · rfl
    · rw [hentries, List.append_assoc]
      exact h

private theorem addNew_toList (set : SortedSet Product) : (addNew (SortedSet.toList set) .empty).1 = set := by
  have hunits : (SortedSet.toList set).map (·, ()) = set.entries := by
    unfold SortedSet.toList
    rw [List.map_map]
    exact List.map_id set.entries
  apply SortedMap.ext_entries
  rw [entries_addNew]
  · exact hunits
  · rw [hunits]
    exact set.ascending

/-- A set is made of what it lists. -/
theorem foldl_add_toList (set : Subscriptions) :
    set.toList.foldl (fun set e => (set.add e.1 e.2).1) empty = set := by
  have hbuild (l : List (Channel × SortedSet Product)) (acc : Subscriptions)
      (h : (acc.channels.entries ++ l).Pairwise (fun a b => compare a.1 b.1 = .lt)) :
      (l.map fun e => (e.1, SortedSet.toList e.2)).foldl (fun set e => (set.add e.1 e.2).1) acc =
        ⟨l.foldl (fun m e => m.insert e.1 e.2) acc.channels⟩ := by
    induction l generalizing acc with
    | nil => rfl
    | cons e rest ih =>
      have hbefore : ∀ d ∈ acc.channels.entries, compare d.1 e.1 = .lt :=
        fun d hd => (List.pairwise_append.1 h).2.2 d hd e List.mem_cons_self
      have hnew := SortedMap.get?_of_last hbefore
      -- the channel is new, so it gets just the products listed
      have hadd : (acc.add e.1 (SortedSet.toList e.2)).1 = ⟨acc.channels.insert e.1 e.2⟩ := by
        unfold add products
        rw [hnew]
        simp only [Option.getD_none]
        rw [addNew_toList]
      rw [List.map_cons, List.foldl_cons, List.foldl_cons, hadd]
      apply ih
      simp only
      rw [SortedMap.entries_insert_of_last hbefore, List.append_assoc]
      exact h
  unfold toList
  rw [hbuild set.channels.entries empty set.channels.ascending]
  have hentries := SortedMap.entries_foldl_insert (m := .empty) set.channels.ascending
  cases set
  exact congrArg Subscriptions.mk (SortedMap.ext_entries hentries)

end Subscriptions

end MarketFeed
