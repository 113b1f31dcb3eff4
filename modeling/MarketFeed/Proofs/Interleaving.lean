import Mathlib.Data.List.Perm.Basic

/-!
# Interleaving — steps that do not meet

Two sequences of steps can be mixed in many ways. When a step of the one neither looks at
nor changes the places where a step of the other is, then the order of the two does not
matter. So each step answers as it would without the other sequence, and the state in the
end is the same for all mixes:

> `Interleaves.steps`: a mix of two sequences that are apart leaves what one after the
> other leaves, and answers a mix of what each alone answers.

Where a step is, is said by what can be looked up in the state, place by place
(`StaysAt`). A step is a function that returns an answer and the next state, so the notion
composes like programs do: a step that only answers (`pure`), a changed answer (`map`),
one step after another that may depend on its answer (`next`). The development looks at
what a tracker remembers of an origin, at the opening of a slot that the roster holds, and
at the book of a product. For each of them it is enough to show where single steps are.

Nothing here knows of feeds. The statements are about any state, any look and any steps,
provided that a state is determined by what can be looked up in it (`hlook`).
-/

namespace MarketFeed

variable {α β γ σ κ ω : Type}

/-! ## Mixes -/

/-- That a list is a mix of two others, each of which keeps its order. -/
inductive Interleaves : List α → List α → List α → Prop
  | nil : Interleaves [] [] []
  | left (x : α) {xs ys zs : List α} (h : Interleaves xs ys zs) : Interleaves (x :: xs) ys (x :: zs)
  | right (y : α) {xs ys zs : List α} (h : Interleaves xs ys zs) : Interleaves xs (y :: ys) (y :: zs)

namespace Interleaves

variable {xs ys zs : List α}

/-- Which of the two lists comes first does not matter. -/
theorem symm (h : Interleaves xs ys zs) : Interleaves ys xs zs := by
  induction h with
  | nil => exact .nil
  | left x _ ih => exact .right x ih
  | right y _ ih => exact .left y ih

/-- A mix has the elements of both lists. -/
theorem perm (h : Interleaves xs ys zs) : zs.Perm (xs ++ ys) := by
  induction h with
  | nil => exact .refl []
  | left x _ ih => exact ih.cons x
  | right y _ ih => exact (ih.cons y).trans List.perm_middle.symm

/-- A mix of what is made of two lists is made of a mix of them. -/
theorem map (f : α → β) (h : Interleaves xs ys zs) : Interleaves (xs.map f) (ys.map f) (zs.map f) := by
  induction h with
  | nil => exact .nil
  | left x _ ih => exact .left (f x) ih
  | right y _ ih => exact .right (f y) ih

/-- What is only in one of two lists is in the mix as it is there. -/
theorem filter_left {p : α → Bool} (h : Interleaves xs ys zs) (hys : ∀ y ∈ ys, p y = false) :
    zs.filter p = xs.filter p := by
  induction h with
  | nil => rfl
  | left x _ ih => rw [List.filter_cons, List.filter_cons, ih hys]
  | right y _ ih =>
    obtain ⟨hy, hrest⟩ := List.forall_mem_cons.1 hys
    rw [List.filter_cons, hy, ih hrest]
    rfl

end Interleaves

/-! ## Places -/

/-- That two states look the same at some places. -/
def Alike (look : σ → κ → ω) (places : κ → Prop) (s t : σ) : Prop := ∀ k, places k → look s k = look t k

/-- That a step with an answer looks at some places only and changes nothing elsewhere. -/
structure StaysAt (look : σ → κ → ω) (places : κ → Prop) (step : σ → β × σ) : Prop where
  answer : ∀ {s t}, Alike look places s t → (step s).1 = (step t).1
  writes : ∀ {s t}, Alike look places s t → Alike look places (step s).2 (step t).2
  frame : ∀ {k}, ¬ places k → ∀ s, look (step s).2 k = look s k

namespace StaysAt

variable {look : σ → κ → ω} {here there : κ → Prop} {f : σ → β × σ} {g : σ → γ × σ}

/-- What only answers is nowhere. -/
theorem pure (look : σ → κ → ω) (places : κ → Prop) (b : β) : StaysAt look places fun s => (b, s) :=
  ⟨fun _ => rfl, fun h => h, fun _ _ => rfl⟩

/-- What is made of an answer does not count for where a step is. -/
theorem map (h : StaysAt look here f) (change : β → γ) : StaysAt look here fun s => (change (f s).1, (f s).2) :=
  ⟨fun hst => congrArg change (h.answer hst), h.writes, h.frame⟩

/-- One step and then another, which may depend on the answer. -/
theorem next (h : StaysAt look here f) {g : β → σ → γ × σ} (hg : ∀ b, StaysAt look here (g b)) :
    StaysAt look here fun s => g (f s).1 (f s).2 := by
  refine ⟨?_, ?_, ?_⟩
  · intro s t hst
    rw [h.answer hst]
    exact (hg _).answer (h.writes hst)
  · intro s t hst
    rw [h.answer hst]
    exact (hg _).writes (h.writes hst)
  · intro k hk s
    exact ((hg _).frame hk _).trans (h.frame hk s)

/-- A step that is at some places is at more places too. -/
theorem mono (h : StaysAt look here f) (hsub : ∀ k, here k → there k) : StaysAt look there f := by
  refine ⟨?_, ?_, ?_⟩
  · exact fun hst => h.answer fun k hk => hst k (hsub k hk)
  · intro s t hst k hk
    by_cases hin : here k
    · exact h.writes (fun j hj => hst j (hsub j hj)) k hin
    · rw [h.frame hin, h.frame hin]
      exact hst k hk
  · exact fun hk => h.frame fun hin => hk (hsub _ hin)

/-- What a step elsewhere leaves looks the same here. -/
theorem alike (hg : StaysAt look there g) (hapart : ∀ k, here k → ¬ there k) (s : σ) :
    Alike look here (g s).2 s := fun k hk => hg.frame (hapart k hk) s

/-- Two steps at different places can be taken in either order. -/
theorem comm (hlook : ∀ s t, (∀ k, look s k = look t k) → s = t) (hf : StaysAt look here f)
    (hg : StaysAt look there g) (hapart : ∀ k, here k → ¬ there k) (s : σ) : (g (f s).2).2 = (f (g s).2).2 := by
  refine hlook _ _ fun k => ?_
  by_cases hk : here k
  · rw [hg.frame (hapart k hk)]
    exact (hf.writes (hg.alike hapart s) k hk).symm
  · rw [hf.frame hk]
    by_cases hk' : there k
    · exact hg.writes (hf.alike (fun j hj hj' => hapart j hj' hj) s) k hk'
    · rw [hg.frame hk', hg.frame hk', hf.frame hk]

end StaysAt

/-! ## Runs -/

/-- What steps answer in turn. -/
def answers (step : α → σ → β × σ) : List α → σ → List β
  | [], _ => []
  | x :: rest, s => (step x s).1 :: answers step rest (step x s).2

/-- The state after steps in turn. -/
def stateAfter (step : α → σ → β × σ) : List α → σ → σ
  | [], s => s
  | x :: rest, s => stateAfter step rest (step x s).2

section

variable {step : α → σ → β × σ}

/-- Steps go on from where the steps before them ended. -/
theorem stateAfter_append (xs ys : List α) (s : σ) :
    stateAfter step (xs ++ ys) s = stateAfter step ys (stateAfter step xs s) := by
  induction xs generalizing s with
  | nil => rfl
  | cons x rest ih => exact ih (step x s).2

/-- The answer to a step is the one after the steps before it. -/
theorem getElem?_answers (front : List α) (x : α) (back : List α) (s : σ) :
    (answers step (front ++ x :: back) s)[front.length]? = some (step x (stateAfter step front s)).1 := by
  induction front generalizing s with
  | nil => rfl
  | cons y rest ih => exact ih (step y s).2

end

section

variable {look : σ → κ → ω} {step : α → σ → β × σ} {places : α → κ → Prop} {x : α} {xs ys zs : List α}

/-- Steps at other places answer the same with a step in front of them. -/
theorem answers_after (hstep : ∀ x, StaysAt look (places x) (step x))
    (hlook : ∀ s t, (∀ k, look s k = look t k) → s = t)
    (hapart : ∀ y ∈ ys, ∀ k, places y k → ¬ places x k) (s : σ) :
    answers step ys (step x s).2 = answers step ys s := by
  induction ys generalizing s with
  | nil => rfl
  | cons y rest ih =>
    obtain ⟨hy, hrest⟩ := List.forall_mem_cons.1 hapart
    have hswap := (hstep y).comm hlook (hstep x) hy s
    rw [answers, answers, (hstep y).answer ((hstep x).alike hy s), ← hswap, ih hrest]

/-- A step commutes with all the steps at other places. -/
theorem stateAfter_after (hstep : ∀ x, StaysAt look (places x) (step x))
    (hlook : ∀ s t, (∀ k, look s k = look t k) → s = t)
    (hapart : ∀ y ∈ ys, ∀ k, places y k → ¬ places x k) (s : σ) :
    stateAfter step ys (step x s).2 = (step x (stateAfter step ys s)).2 := by
  induction ys generalizing s with
  | nil => rfl
  | cons y rest ih =>
    obtain ⟨hy, hrest⟩ := List.forall_mem_cons.1 hapart
    have hswap := (hstep y).comm hlook (hstep x) hy s
    rw [stateAfter, stateAfter, ← hswap, ih hrest]

/-- A mix of two sequences that are apart leaves what one after the other leaves, and answers a mix of what each alone
answers. -/
theorem Interleaves.steps (h : Interleaves xs ys zs) (hstep : ∀ x, StaysAt look (places x) (step x))
    (hlook : ∀ s t, (∀ k, look s k = look t k) → s = t)
    (hapart : ∀ x ∈ xs, ∀ y ∈ ys, ∀ k, places x k → ¬ places y k) (s : σ) :
    stateAfter step zs s = stateAfter step ys (stateAfter step xs s) ∧
      Interleaves (answers step xs s) (answers step ys s) (answers step zs s) := by
  induction h generalizing s with
  | nil => exact ⟨rfl, .nil⟩
  | @left x xs ys zs h ih =>
    obtain ⟨hx, hrest⟩ := List.forall_mem_cons.1 hapart
    obtain ⟨hstate, hanswers⟩ := ih hrest (step x s).2
    rw [answers_after hstep hlook fun y hy k hk hk' => hx y hy k hk' hk] at hanswers
    exact ⟨hstate, .left _ hanswers⟩
  | @right y xs ys zs h ih =>
    have hy : ∀ x ∈ xs, ∀ k, places x k → ¬ places y k := fun x hx => hapart x hx y List.mem_cons_self
    obtain ⟨hstate, hanswers⟩ := ih (fun x hx z hz => hapart x hx z (List.mem_cons_of_mem y hz)) (step y s).2
    rw [answers_after hstep hlook hy] at hanswers
    rw [stateAfter_after hstep hlook hy] at hstate
    exact ⟨hstate, .right _ hanswers⟩

end

end MarketFeed
