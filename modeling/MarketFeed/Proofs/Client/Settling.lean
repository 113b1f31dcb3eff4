import MarketFeed.Proofs.Client.Parting

/-!
# Client.Settling — how a shutdown settles the feeds

A shutdown asks both feeds to close, and then waits for each of them until it has no
connection any more or the deadline has passed. Meanwhile transports report what they
like, and timers go off. A report has two halves: one goes to the client and one to the
dispatch, which may let it wait for room. The loss of a connection goes to the dispatch
first and everything else to the client first, and anything may happen in between. All of
that are the happenings of a `Settling`, in any order; when the deadlines pass is left
open.

> `settles_begin`: whatever happens, the shutdown returns once the deadlines have passed,
> and then `Settles` holds: both feeds are down and stay so, with their subscriptions, and
> the answer is whether each feed that had a connection let go of it because its loss was
> reported, which the dispatch had heard of by then.

Each happening is one of five things to the client (`Passes`), which is the inversion
lemma that the invariants are read off:

- a feed that is awaited has its connection unless the client was told of its loss
  (`Tracks`, from `Client.Parting`);
- the answer is right as far as waits have ended (`Answers`), because a wait ends well
  exactly if the feed has lost its connection by then (`Tracks.confirmed_iff`);
- of every loss that the client is told of the dispatch has heard (`Informs`);
- feeds sink and stay down (`Sinking`, from `Client.Overtaking`).

That calls may still be under way when a shutdown begins is the matter of
`Client.Overtaking`; here none goes on. A shutdown as a stage of clients makes it is one
course of these, which is shown in `Client.Shutdown`.
-/

namespace MarketFeed.Client

private theorem Scene.step_halt {sc : Scene} {halt : Halt} {rest : List Halt} (h : sc.halts = halt :: rest) :
    sc.step .halt = { sc with session := halt.act.apply sc.session, halts := rest } := by
  simp only [Scene.step, h]

/-! ## Shutdowns among callbacks -/

open Pipeline

/-- A client that shuts down while its transports report. -/
structure Settling where
  scene : Scene
  dispatch : Dispatch
  /-- Whether all feeds had confirmed whose wait has ended: the answer, once the shutdown has returned. -/
  clean : Bool
  /-- The callbacks that have their second half to go. -/
  midway : List Callback
  /-- The callbacks that the dispatch took since the shutdown began, and the losses of which the client was still to be
  told then. -/
  heard : List Callback
  /-- The callbacks that the client was told of since then. -/
  handled : List Callback

/-- What happens while a client shuts down, and when it is down. -/
inductive Happening where
  /-- The shutdown goes on, if it can. The deadline of a wait may have passed by then, or not. -/
  | halt (late : Bool)
  /-- A transport begins to report something, be it in use or not. -/
  | begins (c : Callback)
  /-- A callback gets to its second half. -/
  | resumes (number : Nat)
  /-- A timer goes off. -/
  | timer (t : Timer)
  /-- A transport changes its state. -/
  | status (number : Nat) (state : Status)
  /-- The dispatch works for others, or on its queue. -/
  | dispatch (d : Dispatch)

/-- That the shutdown goes on behind the deadline of any wait. -/
def Happening.late : Happening → Bool
  | halt late => late
  | _ => false

namespace Settling

/-- A shutdown that has just been announced, with callbacks that are under way. -/
def begin (scene : Scene) (dispatch : Dispatch) (midway : List Callback) : Settling where
  scene := scene.step .halt
  dispatch := dispatch
  clean := true
  midway := midway
  heard := midway.filter (·.signal = .disconnected)
  handled := []

/-- Tells the dispatch of a callback; `none` when it has to wait for room. -/
def hear? (c : Callback) (sc : Settling) : Option Settling :=
  (sc.dispatch.take? c).map fun o => { sc with dispatch := o.state, heard := sc.heard ++ [c] }

/-- Tells the client of a callback. -/
def handle (c : Callback) (sc : Settling) : Settling :=
  { sc with scene := sc.scene.step (.event (.callback c)), handled := sc.handled ++ [c] }

def firstHalf? (c : Callback) (sc : Settling) : Option Settling :=
  if c.signal = .disconnected then sc.hear? c else some (sc.handle c)

def secondHalf? (c : Callback) (sc : Settling) : Option Settling :=
  if c.signal = .disconnected then some (sc.handle c) else sc.hear? c

/-- The next step of the shutdown. The wait for a feed goes on until the feed has confirmed its close, or the deadline
has passed. -/
def proceed (sc : Settling) (late : Bool) : Settling :=
  match sc.scene.halts with
  | [] => sc
  | .settle f :: _ =>
    if late || sc.scene.session.confirmed f then
      { sc with scene := sc.scene.step .halt, clean := sc.clean && (sc.scene.session.settleLine f).1 }
    else sc
  | _ => { sc with scene := sc.scene.step .halt }

def step (sc : Settling) : Happening → Settling
  | .halt late => sc.proceed late
  | .begins c =>
    match sc.firstHalf? c with
    | some sc => { sc with midway := sc.midway ++ [c] }
    | none => sc
  | .resumes k =>
    match sc.midway[k]? with
    | none => sc
    | some c =>
      match sc.secondHalf? c with
      | some sc => { sc with midway := sc.midway.eraseIdx k }
      | none => sc
  | .timer t => { sc with scene := sc.scene.step (.event (.timer t)) }
  | .status number state => { sc with scene := sc.scene.step (.event (.status number state)) }
  | .dispatch d => { sc with dispatch := d }

def run (sc : Settling) (happenings : List Happening) : Settling := happenings.foldl step sc

def line (sc : Settling) (f : Feed) : Line := sc.scene.session.line f

/-- That the shutdown has returned. -/
def Returned (sc : Settling) : Prop := sc.scene.halts = []

instance (sc : Settling) : Decidable sc.Returned := inferInstanceAs (Decidable (sc.scene.halts = []))

/-- That the dispatch heard of the loss of a connection. -/
def Heard (sc : Settling) (f : Feed) (d : Connection) : Prop := ∃ c ∈ sc.heard, c.Loses f d

/-- That the client was told of the loss of a connection. -/
def Handled (sc : Settling) (f : Feed) (d : Connection) : Prop := ∃ c ∈ sc.handled, c.Loses f d

/-- That the client was told of the loss of a connection before the wait for its feed ended. -/
def InTime (sc : Settling) (happenings : List Happening) (f : Feed) (d : Connection) : Prop :=
  ∃ before, before <+: happenings ∧ ¬ (sc.run before).scene.Settled f ∧ (sc.run before).Handled f d

/-- What becomes of a shutdown that returns. -/
structure Settles (sc : Settling) (happenings : List Happening) : Prop where
  answer : (sc.run happenings).clean = true ↔
    ∀ f d, (sc.line f).connection = some d → sc.InTime happenings f d
  heard : ∀ before, before <+: happenings → ∀ f d, (sc.run before).Handled f d → (sc.run before).Heard f d
  closed : ∀ f, ((sc.run happenings).line f).phase = .closed
  connection : ∀ f, ((sc.run happenings).line f).connection = none
  transport : ∀ f, ((sc.run happenings).line f).transport = none
  subscriptions : ∀ f, ((sc.run happenings).line f).subscriptions = (sc.line f).subscriptions
  still : ∀ later, Session.Still (sc.run happenings).scene.session ((sc.run happenings).run later).scene.session

variable {sc sc' start : Settling} {f g : Feed} {d : Connection} {c : Callback} {happenings : List Happening}

/-! ## Each happening -/

/-- What a happening can do: nothing to the client, to tell it of a callback, or something that no feed notices once the
client is shutting down; or the shutdown goes on, and a wait ends or not. -/
inductive Passes (sc sc' : Settling) : Prop
  | idle : sc'.scene = sc.scene → sc'.handled = sc.handled → sc'.clean = sc.clean → Passes sc sc'
  | told (c : Callback) : sc'.scene = sc.scene.step (.event (.callback c)) → sc'.handled = sc.handled ++ [c] →
    sc'.clean = sc.clean → Passes sc sc'
  | apart (e : Event) :
    (sc.scene.session.client.shuttingDown = true → sc.scene.session.Still (e.apply sc.scene.session)) →
    sc'.scene = sc.scene.step (.event e) → sc'.handled = sc.handled → sc'.clean = sc.clean → Passes sc sc'
  | asked (halt : Halt) (rest : List Halt) : (∀ f, halt ≠ .settle f) → sc.scene.halts = halt :: rest →
    sc'.scene = sc.scene.step .halt → sc'.handled = sc.handled → sc'.clean = sc.clean → Passes sc sc'
  | ended (f : Feed) (rest : List Halt) : sc.scene.halts = .settle f :: rest → sc'.scene = sc.scene.step .halt →
    sc'.handled = sc.handled → sc'.clean = (sc.clean && sc.scene.session.confirmed f) → Passes sc sc'

/-- Which callbacks have halves to go is no matter. -/
private theorem Passes.with_midway (h : Passes sc sc') (midway : List Callback) : Passes sc { sc' with midway } := by
  cases h with
  | idle hscene hhandled hclean => exact .idle hscene hhandled hclean
  | told c hscene hhandled hclean => exact .told c hscene hhandled hclean
  | apart e hstill hscene hhandled hclean => exact .apart e hstill hscene hhandled hclean
  | asked halt rest hne hhalts hscene hhandled hclean => exact .asked halt rest hne hhalts hscene hhandled hclean
  | ended f rest hhalts hscene hhandled hclean => exact .ended f rest hhalts hscene hhandled hclean

private theorem passes_of_hear? (h : sc.hear? c = some sc') : Passes sc sc' := by
  obtain ⟨o, -, rfl⟩ := Option.map_eq_some_iff.1 h
  exact .idle rfl rfl rfl

private theorem passes_handle (c : Callback) (sc : Settling) : Passes sc (sc.handle c) := .told c rfl rfl rfl

private theorem passes_of_firstHalf? (h : sc.firstHalf? c = some sc') : Passes sc sc' := by
  unfold firstHalf? at h
  split at h
  · exact passes_of_hear? h
  · cases h
    exact passes_handle c sc

private theorem passes_of_secondHalf? (h : sc.secondHalf? c = some sc') : Passes sc sc' := by
  unfold secondHalf? at h
  split at h
  · cases h
    exact passes_handle c sc
  · exact passes_of_hear? h

/-- The shutdown goes on by a step that ends no wait, or ends one. -/
theorem passes_proceed (sc : Settling) (late : Bool) : Passes sc (sc.proceed late) := by
  unfold proceed
  split
  next => exact .idle rfl rfl rfl
  next f rest hhalts =>
    split
    next => exact .ended f rest hhalts rfl rfl (by rw [Session.fst_settleLine])
    next => exact .idle rfl rfl rfl
  next hnone hne =>
    cases hhalts : sc.scene.halts with
    | nil => exact absurd hhalts hnone
    | cons halt rest => exact .asked halt rest (fun f hf => hne f rest (hf ▸ hhalts)) hhalts rfl rfl rfl

/-- Every happening is one of these. -/
theorem passes_step (sc : Settling) (h : Happening) : Passes sc (sc.step h) := by
  cases h with
  | halt late => exact passes_proceed sc late
  | begins c =>
    simp only [step]
    split
    next sc' h => exact (passes_of_firstHalf? h).with_midway _
    next => exact .idle rfl rfl rfl
  | resumes k =>
    simp only [step]
    split
    next => exact .idle rfl rfl rfl
    next c _ =>
      split
      next sc' h => exact (passes_of_secondHalf? h).with_midway _
      next => exact .idle rfl rfl rfl
  | timer t => exact .apart (.timer t) (fun hdown => Session.still_fire hdown t) rfl rfl rfl
  | status number state => exact .apart (.status number state) (fun _ => ⟨fun _ => rfl, rfl, rfl⟩) rfl rfl rfl
  | dispatch d => exact .idle rfl rfl rfl

/-! ## On the way down -/

/-- What holds of every client that is shutting down. -/
structure Sinking (sc : Settling) : Prop where
  orderly : sc.scene.Orderly
  sunk : sc.scene.Sunk
  announced : .announce ∉ sc.scene.halts

/-- A client that sinks is shutting down. -/
theorem Sinking.down (h : sc.Sinking) : sc.scene.session.client.shuttingDown = true := h.orderly.announced.1 h.announced

/-- To the scene, a happening is a move of none of its calls, if it is one at all. -/
private theorem Passes.scene (h : Passes sc sc') :
    sc'.scene = sc.scene ∨ ∃ m, sc.scene.InTime m ∧ sc'.scene = sc.scene.step m := by
  cases h with
  | idle hscene => exact Or.inl hscene
  | told c hscene => exact Or.inr ⟨.event (.callback c), trivial, hscene⟩
  | apart e _ hscene => exact Or.inr ⟨.event e, trivial, hscene⟩
  | asked _ _ _ _ hscene => exact Or.inr ⟨.halt, trivial, hscene⟩
  | ended _ _ _ hscene => exact Or.inr ⟨.halt, trivial, hscene⟩

/-- A happening leaves the shutdown where it is, or takes it one step on. -/
theorem Passes.halts (h : Passes sc sc') : sc'.scene.halts <:+ sc.scene.halts := by
  rcases h.scene with hscene | ⟨m, -, hscene⟩
  · rw [hscene]
  · rw [hscene]
    exact sc.scene.halts_step m

/-- A feed that is still awaited was so before. -/
theorem Passes.awaited (h : Passes sc sc') (hawaited : ¬ sc'.scene.Settled f) : ¬ sc.scene.Settled f :=
  fun hsettled => hawaited fun hmem => hsettled (h.halts.subset hmem)

/-- The step: whatever happens, the client stays on its way down. -/
theorem Sinking.step (hs : sc.Sinking) (h : Passes sc sc') : sc'.Sinking := by
  have hannounced : .announce ∉ sc'.scene.halts := fun hmem => hs.announced (h.halts.subset hmem)
  rcases h.scene with hscene | ⟨m, htime, hscene⟩
  · exact ⟨hscene ▸ hs.orderly, hscene ▸ hs.sunk, hannounced⟩
  · exact ⟨hscene ▸ hs.orderly.step m, hscene ▸ hs.sunk.step hs.orderly ((hs.orderly.quiet_iff m).2 htime), hannounced⟩

/-- What holds when a shutdown was just announced. -/
structure Begun (sc : Settling) : Prop extends Sinking sc where
  awaited : ∀ f, ¬ sc.scene.Settled f
  clean : sc.clean = true
  handled : sc.handled = []
  heard : ∀ c ∈ sc.midway, c.signal = .disconnected → c ∈ sc.heard

private theorem halts_begin {scene : Scene} (hhalts : scene.halts = Halt.all) (dispatch : Dispatch)
    (midway : List Callback) :
    (begin scene dispatch midway).scene.halts = Halt.all.tail := by
  rw [begin, Scene.step_halt hhalts]
  rfl

/-- When a shutdown was announced nothing has happened to it yet. -/
theorem begun_begin {scene : Scene} (h : scene.Orderly) (hhalts : scene.halts = Halt.all) (dispatch : Dispatch)
    (midway : List Callback) : (begin scene dispatch midway).Begun := by
  have hleft := halts_begin hhalts dispatch midway
  have hshut (f : Feed) : ¬ (begin scene dispatch midway).scene.Shut f := by
    rw [Scene.Shut, hleft]
    cases f <;> decide
  have hawaited (f : Feed) : ¬ (begin scene dispatch midway).scene.Settled f := by
    rw [Scene.Settled, hleft]
    cases f <;> decide
  refine ⟨⟨h.step .halt, ?_, ?_⟩, hawaited, rfl, rfl, fun c hc hsignal => ?_⟩
  · exact ⟨fun f hf => absurd hf (hshut f), fun f hf => absurd hf (hawaited f)⟩
  · rw [hleft]
    decide
  · exact List.mem_filter.2 ⟨hc, decide_eq_true hsignal⟩

/-! ## Connections and subscriptions -/

/-- What becomes of the feeds from one state to another: while a feed is awaited, it has the connection that it had
unless the client was told of its loss; and subscriptions stay. -/
structure Tracks (start sc : Settling) : Prop where
  connection : ∀ f d, ¬ sc.scene.Settled f →
    ((sc.line f).connection = some d ↔ (start.line f).connection = some d ∧ ¬ sc.Handled f d)
  subscriptions : ∀ f, (sc.line f).subscriptions = (start.line f).subscriptions

private theorem handled_congr (h : sc'.handled = sc.handled) (f : Feed) (d : Connection) :
    sc'.Handled f d ↔ sc.Handled f d := by
  rw [Handled, Handled, h]

private theorem handled_told (h : sc'.handled = sc.handled ++ [c]) (f : Feed) (d : Connection) :
    sc'.Handled f d ↔ sc.Handled f d ∨ c.Loses f d := by
  simp only [Handled, h, List.mem_append, List.mem_singleton, or_and_right, exists_or, exists_eq_left]

/-- A step that spares the feeds which are still awaited. -/
theorem Tracks.spared (h : Tracks start sc) (hbefore : ∀ f, ¬ sc'.scene.Settled f → ¬ sc.scene.Settled f)
    (hhandled : sc'.handled = sc.handled)
    (hspared : ∀ f, ¬ sc'.scene.Settled f → (sc'.line f).connection = (sc.line f).connection)
    (hsubscriptions : ∀ f, (sc'.line f).subscriptions = (sc.line f).subscriptions) : Tracks start sc' := by
  refine ⟨fun f d hawaited => ?_, fun f => (hsubscriptions f).trans (h.subscriptions f)⟩
  rw [hspared f hawaited, handled_congr hhandled, h.connection f d (hbefore f hawaited)]

/-- The step: connections are lost by what the client is told, and by nothing else. -/
theorem Tracks.step (h : Tracks start sc) (hs : sc.Sinking) (hp : Passes sc sc') : Tracks start sc' := by
  have hbefore (f : Feed) (hawaited : ¬ sc'.scene.Settled f) := hp.awaited hawaited
  have hall (hhandled : sc'.handled = sc.handled) (hline : ∀ f, sc'.line f = sc.line f) : Tracks start sc' :=
    h.spared hbefore hhandled (fun f _ => congrArg _ (hline f)) fun f => congrArg _ (hline f)
  cases hp with
  | idle hscene hhandled => exact hall hhandled fun f => by rw [line, hscene, line]
  | told c hscene hhandled =>
    have hloosens (f : Feed) : Session.Loosens f (c.Loses f) sc.scene.session sc'.scene.session := by
      rw [hscene]
      exact Session.loosens_react c sc.scene.session f
    refine ⟨fun f d hawaited => ?_, fun f => (hloosens f).subscriptions.trans (h.subscriptions f)⟩
    rw [line, (hloosens f).connection, handled_told hhandled, not_or, ← and_assoc]
    exact and_congr_left' (h.connection f d (hbefore f hawaited))
  | apart e hstill hscene hhandled =>
    refine hall hhandled fun f => ?_
    rw [line, hscene]
    exact (hstill hs.down).line f
  | asked halt rest hne hhead hscene hhandled =>
    have hspares (f : Feed) : Session.Spares f sc.scene.session sc'.scene.session := by
      rw [hscene, Scene.step_halt hhead]
      exact Session.spares_halt (hne f) sc.scene.session
    exact h.spared hbefore hhandled (fun f _ => (hspares f).connection) fun f => (hspares f).subscriptions
  | ended g rest hhead hscene hhandled =>
    have hstep := Scene.step_halt hhead
    refine h.spared hbefore hhandled (fun f hawaited => ?_) fun f => ?_
    · -- the wait that ends is for the other feed
      have hne : Halt.settle g ≠ .settle f := by
        intro hsame
        refine hawaited ?_
        rw [Scene.Settled, hscene, hstep]
        exact hsame ▸ Halt.not_mem_rest (hhead ▸ hs.orderly.halts)
      rw [line, hscene, hstep]
      exact (Session.spares_halt hne sc.scene.session).connection
    · rw [line, hscene, hstep]
      exact Session.subscriptions_halt (.settle g) sc.scene.session f

/-! ## Whole runs -/

private theorem run_concat (sc : Settling) (happenings : List Happening) (h : Happening) :
    sc.run (happenings ++ [h]) = (sc.run happenings).step h := List.foldl_append

/-- So it does in every run. -/
theorem Sinking.run (hs : sc.Sinking) (happenings : List Happening) : (sc.run happenings).Sinking := by
  induction happenings generalizing sc with
  | nil => exact hs
  | cons h rest ih => exact ih (hs.step (passes_step sc h))

/-- So they are in every run. -/
theorem Tracks.run (h : Tracks start sc) (hs : sc.Sinking) (happenings : List Happening) :
    Tracks start (sc.run happenings) := by
  induction happenings generalizing sc with
  | nil => exact h
  | cons head rest ih => exact ih (h.step hs (passes_step sc head)) (hs.step (passes_step sc head))

/-- What the client was told it stays told. -/
theorem Passes.handled (h : Passes sc sc') (hbefore : sc.Handled f d) : sc'.Handled f d := by
  cases h with
  | told c _ hhandled => exact (handled_told hhandled f d).2 (Or.inl hbefore)
  | idle _ hhandled => exact (handled_congr hhandled f d).2 hbefore
  | apart _ _ _ hhandled => exact (handled_congr hhandled f d).2 hbefore
  | asked _ _ _ _ _ hhandled => exact (handled_congr hhandled f d).2 hbefore
  | ended _ _ _ _ hhandled => exact (handled_congr hhandled f d).2 hbefore

private theorem handled_run (h : sc.Handled f d) (happenings : List Happening) : (sc.run happenings).Handled f d := by
  induction happenings generalizing sc with
  | nil => exact h
  | cons head rest ih => exact ih ((passes_step sc head).handled h)

private theorem not_handled (h : sc.Begun) (f : Feed) (d : Connection) : ¬ sc.Handled f d := by
  rintro ⟨c, hc, -⟩
  rw [h.handled] at hc
  cases hc

private theorem Begun.tracks (h : sc.Begun) (happenings : List Happening) : Tracks sc (sc.run happenings) := by
  have hstart : Tracks sc sc := ⟨fun f d _ => (and_iff_left (not_handled h f d)).symm, fun _ => rfl⟩
  exact hstart.run h.toSinking happenings

/-! ## The answer -/

/-- An awaited feed has confirmed when the client was told of the loss of the connection that it had. -/
theorem Tracks.confirmed_iff (h : Tracks start sc) (hawaited : ¬ sc.scene.Settled f) :
    sc.scene.session.confirmed f = true ↔ ∀ d, (start.line f).connection = some d → sc.Handled f d := by
  rw [Session.confirmed, Option.isNone_iff_eq_none, Option.eq_none_iff_forall_ne_some]
  refine forall_congr' fun d => ?_
  rw [← not_and_not_right, ← h.connection f d hawaited]
  exact Iff.rfl

/-- While a feed is awaited, what the client was told of it was in time. -/
theorem inTime_iff_of_awaited (hawaited : ¬ (sc.run happenings).scene.Settled f) :
    sc.InTime happenings f d ↔ (sc.run happenings).Handled f d := by
  refine ⟨?_, fun h => ⟨happenings, List.prefix_refl _, hawaited, h⟩⟩
  rintro ⟨before, ⟨rest, rfl⟩, -, h⟩
  rw [run, List.foldl_append]
  exact handled_run h rest

/-- What comes when the wait for a feed has ended is not in time for it. -/
theorem inTime_concat_iff {h : Happening} (hsettled : (sc.run (happenings ++ [h])).scene.Settled f) :
    sc.InTime (happenings ++ [h]) f d ↔ sc.InTime happenings f d := by
  constructor
  · rintro ⟨before, hbefore, hawaited, hhandled⟩
    rcases List.prefix_concat_iff.1 hbefore with rfl | hbefore
    · exact absurd hsettled hawaited
    · exact ⟨before, hbefore, hawaited, hhandled⟩
  · rintro ⟨before, hbefore, hin⟩
    exact ⟨before, hbefore.trans (List.prefix_append _ _), hin⟩

/-- That the answer is right as far as waits have ended: whether the losses were handled in time. -/
def Answers (sc : Settling) (happenings : List Happening) : Prop :=
  (sc.run happenings).clean = true ↔ ∀ f, (sc.run happenings).scene.Settled f →
    ∀ d, (sc.line f).connection = some d → sc.InTime happenings f d

/-- No wait ends. -/
theorem Answers.kept (h : sc.Answers happenings) {last : Happening}
    (hclean : (sc.run (happenings ++ [last])).clean = (sc.run happenings).clean)
    (hsettled : ∀ f, (sc.run (happenings ++ [last])).scene.Settled f ↔ (sc.run happenings).scene.Settled f) :
    sc.Answers (happenings ++ [last]) := by
  unfold Answers at h ⊢
  rw [hclean, h]
  refine forall_congr' fun f => ?_
  rw [hsettled]
  exact forall_congr' fun hf => forall₂_congr fun d _ => (inTime_concat_iff ((hsettled f).2 hf)).symm

/-- A wait ends. -/
theorem Answers.ended (h : sc.Answers happenings) {last : Happening}
    (hclean : (sc.run (happenings ++ [last])).clean =
      ((sc.run happenings).clean && (sc.run happenings).scene.session.confirmed g))
    (htracks : Tracks sc (sc.run happenings)) (hawaited : ¬ (sc.run happenings).scene.Settled g)
    (hsettled : ∀ f, (sc.run (happenings ++ [last])).scene.Settled f ↔ f = g ∨ (sc.run happenings).scene.Settled f) :
    sc.Answers (happenings ++ [last]) := by
  unfold Answers at h ⊢
  rw [hclean, Bool.and_eq_true, h, htracks.confirmed_iff hawaited]
  constructor
  · rintro ⟨hothers, hown⟩ f hf d hd
    refine (inTime_concat_iff hf).2 ?_
    rcases (hsettled f).1 hf with rfl | hearlier
    · exact (inTime_iff_of_awaited hawaited).2 (hown d hd)
    · exact hothers f hearlier d hd
  · intro hall
    have hbefore (f : Feed) (hf : f = g ∨ (sc.run happenings).scene.Settled f) {d : Connection}
        (hd : (sc.line f).connection = some d) : sc.InTime happenings f d := by
      have hlast := (hsettled f).2 hf
      exact (inTime_concat_iff hlast).1 (hall f hlast d hd)
    exact ⟨fun f hf d hd => hbefore f (Or.inr hf) hd,
      fun d hd => (inTime_iff_of_awaited hawaited).1 (hbefore g (Or.inl rfl) hd)⟩

/-- Along every run the answer is right as far as waits have ended. -/
theorem Begun.answers (h : sc.Begun) (happenings : List Happening) : sc.Answers happenings := by
  -- from the last happening backwards: a wait ended with it, or none did
  induction happenings using List.reverseRecOn with
  | nil => exact ⟨fun _ f hsettled => absurd hsettled (h.awaited f), fun _ => h.clean⟩
  | append_singleton happenings last ih =>
    have hp := passes_step (sc.run happenings) last
    rw [← run_concat] at hp
    cases hp with
    | idle hscene _ hclean => exact ih.kept hclean fun f => by rw [hscene]
    | told c hscene _ hclean => exact ih.kept hclean fun f => by rw [hscene]; exact Iff.rfl
    | apart e _ hscene _ hclean => exact ih.kept hclean fun f => by rw [hscene]; exact Iff.rfl
    | asked halt rest hne hhead hscene _ hclean =>
      refine ih.kept hclean fun f => ?_
      rw [hscene, Scene.step_halt hhead, Scene.Settled, Scene.Settled, hhead, List.mem_cons, not_or]
      exact (and_iff_right (hne f).symm).symm
    | ended g rest hhead hscene _ hclean =>
      have hnot := Halt.not_mem_rest (hhead ▸ (h.toSinking.run happenings).orderly.halts)
      refine ih.ended hclean (h.tracks happenings) ?_ fun f => ?_
      · rw [Scene.Settled, hhead, not_not]
        exact List.mem_cons_self
      · rw [hscene, Scene.step_halt hhead, Scene.Settled, Scene.Settled, hhead, List.mem_cons, not_or]
        by_cases hf : f = g
        · subst hf
          exact iff_of_true hnot (Or.inl rfl)
        · refine Iff.trans ?_ (or_iff_right hf).symm
          exact (and_iff_right fun hsame => hf (Halt.settle.inj hsame)).symm

/-! ## What the dispatch hears -/

/-- That the dispatch heard of every loss that the client was told of or is to be told of. -/
def Informs (sc : Settling) : Prop := ∀ c, c.signal = .disconnected → c ∈ sc.midway ∨ c ∈ sc.handled → c ∈ sc.heard

private theorem Informs.with_midway (h : sc.Informs) {midway : List Callback}
    (hmidway : ∀ c ∈ midway, c.signal = .disconnected → c ∈ sc.heard) : Informs { sc with midway } := by
  intro c hsignal hc
  exact hc.elim (fun hc => hmidway c hc hsignal) fun hc => h c hsignal (Or.inr hc)

/-- What the dispatch takes it has heard. -/
theorem Informs.hear? (h : sc.Informs) (hheard : sc.hear? c = some sc') :
    sc'.Informs ∧ c ∈ sc'.heard ∧ sc'.midway = sc.midway := by
  obtain ⟨o, -, rfl⟩ := Option.map_eq_some_iff.1 hheard
  refine ⟨fun e hsignal he => List.mem_append_left _ (h e hsignal he), ?_, rfl⟩
  exact List.mem_append_right _ (List.mem_singleton_self c)

/-- The client may be told of what the dispatch has heard. -/
theorem Informs.handle (h : sc.Informs) (hc : c.signal = .disconnected → c ∈ sc.heard) : (sc.handle c).Informs := by
  intro e hsignal he
  rcases he with he | he
  · exact h e hsignal (Or.inl he)
  · rcases List.mem_append.1 he with he | he
    · exact h e hsignal (Or.inr he)
    · obtain rfl := List.mem_singleton.1 he
      exact hc hsignal

/-- Of a loss the dispatch hears in the first half. -/
theorem Informs.firstHalf? (h : sc.Informs) (hfirst : sc.firstHalf? c = some sc') :
    sc'.Informs ∧ (c.signal = .disconnected → c ∈ sc'.heard) ∧ sc'.midway = sc.midway := by
  unfold Settling.firstHalf? at hfirst
  split at hfirst
  next =>
    obtain ⟨hinforms, hc, hmidway⟩ := h.hear? hfirst
    exact ⟨hinforms, fun _ => hc, hmidway⟩
  next hsignal =>
    cases hfirst
    exact ⟨h.handle fun hlost => absurd hlost hsignal, fun hlost => absurd hlost hsignal, rfl⟩

/-- In the second half it has heard of it. -/
theorem Informs.secondHalf? (h : sc.Informs) (hc : c ∈ sc.midway) (hsecond : sc.secondHalf? c = some sc') :
    sc'.Informs ∧ sc'.midway = sc.midway := by
  unfold Settling.secondHalf? at hsecond
  split at hsecond
  next =>
    cases hsecond
    exact ⟨h.handle fun hsignal => h c hsignal (Or.inl hc), rfl⟩
  next =>
    obtain ⟨hinforms, -, hmidway⟩ := h.hear? hsecond
    exact ⟨hinforms, hmidway⟩

/-- The step: the dispatch hears of a loss before the client does. -/
theorem Informs.step (h : sc.Informs) (what : Happening) : (sc.step what).Informs := by
  cases what with
  | halt late =>
    simp only [Settling.step, proceed]
    split
    · exact h
    · split <;> exact h
    · exact h
  -- a callback is midway only once its first half is done, which for a loss is the dispatch
  | begins c =>
    simp only [Settling.step]
    split
    next sc' hfirst =>
      obtain ⟨hinforms, hc, -⟩ := h.firstHalf? hfirst
      refine hinforms.with_midway fun e he hsignal => ?_
      rcases List.mem_append.1 he with he | he
      · exact hinforms e hsignal (Or.inl he)
      · obtain rfl := List.mem_singleton.1 he
        exact hc hsignal
    next => exact h
  | resumes k =>
    simp only [Settling.step]
    split
    next => exact h
    next c hc =>
      split
      next sc' hsecond =>
        obtain ⟨hinforms, hmidway⟩ := h.secondHalf? (List.mem_of_getElem? hc) hsecond
        refine hinforms.with_midway fun e he hsignal => hinforms e hsignal (Or.inl ?_)
        exact List.mem_of_mem_eraseIdx he
      next => exact h
  | timer t => exact h
  | status number state => exact h
  | dispatch d => exact h

private theorem Begun.informs (h : sc.Begun) : sc.Informs := by
  intro c hsignal hc
  rcases hc with hc | hc
  · exact h.heard c hc hsignal
  · rw [h.handled] at hc
    cases hc

/-- So it does in every run. -/
theorem Informs.run (h : sc.Informs) (happenings : List Happening) : (sc.run happenings).Informs := by
  induction happenings generalizing sc with
  | nil => exact h
  | cons head rest ih => exact ih (h.step head)

/-- Of what the client was told the dispatch has heard. -/
theorem Informs.heard (h : sc.Informs) (hhandled : sc.Handled f d) : sc.Heard f d := by
  obtain ⟨c, hc, hloses⟩ := hhandled
  exact ⟨c, h c hloses.signal (Or.inr hc), hloses⟩

/-! ## When the shutdown has returned -/

/-- When a shutdown has returned, both feeds are closed. -/
theorem Sinking.closed (h : sc.Sinking) (hreturned : sc.Returned) (f : Feed) : (sc.line f).phase = .closed := by
  refine h.sunk.closed f ?_
  rw [Scene.Settled, hreturned]
  exact List.not_mem_nil

/-- They have no connection. -/
theorem Sinking.connection (h : sc.Sinking) (hreturned : sc.Returned) (f : Feed) : (sc.line f).connection = none :=
  (h.orderly.sound.stands f).connection_of_closed (h.closed hreturned f)

/-- They have no transport either. -/
theorem Sinking.transport (h : sc.Sinking) (hreturned : sc.Returned) (f : Feed) : (sc.line f).transport = none := by
  have hlinked := (h.orderly.sound.stands f).linked
  have hnone : (sc.scene.session.line f).connection = none := h.connection hreturned f
  rw [hnone] at hlinked
  exact Option.not_isSome_iff_eq_none.1 fun hsome => Bool.false_ne_true (hlinked.1 hsome)

/-- Nothing that happens later changes a feed. -/
theorem Passes.still (h : Passes sc sc') (hs : sc.Sinking) (hreturned : sc.Returned) :
    sc.scene.session.Still sc'.scene.session ∧ sc'.Returned := by
  have hover {halt : Halt} {rest : List Halt} (hhead : sc.scene.halts = halt :: rest) : False :=
    List.cons_ne_nil halt rest (hhead.symm.trans hreturned)
  cases h with
  | idle hscene =>
    rw [Returned, hscene]
    exact ⟨⟨fun _ => rfl, rfl, rfl⟩, hreturned⟩
  | told c hscene =>
    rw [Returned, hscene]
    exact ⟨Session.still_react (hs.connection hreturned) c, hreturned⟩
  | apart e hstill hscene =>
    rw [Returned, hscene]
    exact ⟨hstill hs.down, hreturned⟩
  | asked _ _ _ hhead => exact (hover hhead).elim
  | ended _ _ hhead => exact (hover hhead).elim

/-- So the feeds are as they were, however much happens. -/
theorem Sinking.still (h : sc.Sinking) (hreturned : sc.Returned) (later : List Happening) :
    sc.scene.session.Still (sc.run later).scene.session := by
  induction later generalizing sc with
  | nil => exact ⟨fun _ => rfl, rfl, rfl⟩
  | cons head rest ih =>
    obtain ⟨hstill, hstep⟩ := (passes_step sc head).still h hreturned
    exact hstill.trans (ih (h.step (passes_step sc head)) hstep)

/-- What is promised of a shutdown holds whenever it has returned. -/
theorem Begun.settles (h : sc.Begun) (hreturned : (sc.run happenings).Returned) : sc.Settles happenings := by
  have hs := h.toSinking.run happenings
  refine ⟨?_, ?_, hs.closed hreturned, hs.connection hreturned, hs.transport hreturned,
    (h.tracks happenings).subscriptions, hs.still hreturned⟩
  · refine (h.answers happenings).trans (forall_congr' fun f => forall_prop_of_true ?_)
    rw [Scene.Settled, hreturned]
    exact List.not_mem_nil
  · exact fun before _ f d hhandled => (h.informs.run before).heard hhandled

/-! ## Shutdowns return -/

private theorem halts_late (sc : Settling) : (sc.step (.halt true)).scene.halts = sc.scene.halts.tail := by
  simp only [step, proceed, Bool.true_or, if_true]
  cases hhalts : sc.scene.halts with
  | nil => exact hhalts
  | cons halt rest => cases halt <;> exact congrArg Scene.halts (Scene.step_halt hhalts)

private theorem length_halts_run (sc : Settling) (happenings : List Happening) :
    (sc.run happenings).scene.halts.length ≤ sc.scene.halts.length - happenings.countP Happening.late := by
  induction happenings generalizing sc with
  | nil => exact Nat.le_refl _
  | cons head rest ih =>
    have hrest : (sc.run (head :: rest)).scene.halts.length ≤
        (sc.step head).scene.halts.length - rest.countP Happening.late := ih (sc.step head)
    cases hlate : head.late with
    | false =>
      have hstep := (passes_step sc head).halts.length_le
      rw [List.countP_cons_of_neg (Bool.eq_false_iff.1 hlate)]
      omega
    | true =>
      obtain rfl : head = .halt true := by
        cases head with
        | halt late => exact congrArg Happening.halt hlate
        | _ => cases hlate
      rw [halts_late, List.length_tail] at hrest
      rw [List.countP_cons_of_pos hlate]
      omega

/-- A shutdown returns when the deadlines have passed, whatever the transports do. -/
theorem returned_of_late (h : sc.scene.halts.length ≤ happenings.countP Happening.late) :
    (sc.run happenings).Returned := by
  refine List.eq_nil_of_length_eq_zero (Nat.le_zero.1 ?_)
  exact Nat.sub_eq_zero_of_le h ▸ length_halts_run sc happenings

/-- Whatever state a client is in when its shutdown begins, and whatever its transports and timers do meanwhile: the
shutdown returns once the deadlines have passed, with the right answer, and the feeds are settled. -/
theorem settles_begin (plan : Plan) (id : Nat) (settings : Settings) (credential : Option Credential)
    (market user : UInt32) {before : List Move}
    (hbegins : ((Scene.fresh plan id settings credential market user).run before).halts = Halt.all)
    (dispatch : Dispatch) (midway : List Callback) (happenings : List Happening) :
    let sc := begin ((Scene.fresh plan id settings credential market user).run before) dispatch midway
    (Halt.all.tail.length ≤ happenings.countP Happening.late → (sc.run happenings).Returned) ∧
      ((sc.run happenings).Returned → sc.Settles happenings) := by
  have horderly := (Scene.orderly_fresh plan id settings credential market user).run before
  have hbegun := begun_begin horderly hbegins dispatch midway
  refine ⟨fun hlate => returned_of_late ?_, hbegun.settles⟩
  rw [halts_begin hbegins]
  exact hlate

/-- Both feeds have a connection and the shutdown begins. -/
def connecting : List Move := [.event (.subscribe [⟨"BTC-USD"⟩] [.level2, .user])]

/-- The market feed confirms its close while it is waited for; the user feed does so when its deadline has passed. -/
def slow : List Happening :=
  [.halt false, .begins (.disconnected ⟨⟨0, 1⟩, .market⟩), .halt false, .halt false, .resumes 0, .halt false,
    .halt false, .halt true, .halt false, .begins (.disconnected ⟨⟨1, 1⟩, .user⟩), .resumes 0]

/-- One feed is confirmed in time and the other is not, so the answer is no. -/
theorem settles_begin_slow :
    let client := Scene.fresh .smooth 0 .usual none 0 1
    let sc := begin (client.run connecting) (.ofRoute (.bare .empty)) []
    (client.run connecting).halts = Halt.all ∧ (sc.run slow).Returned ∧ (sc.run slow).clean = false ∧
      (∀ f, (sc.line f).connection.isSome) ∧ sc.Settles slow := by
  intro client sc
  have hbegins : (client.run connecting).halts = Halt.all := by decide +kernel
  have hreturned : (sc.run slow).Returned := by decide +kernel
  have hlive : ∀ f, (sc.line f).connection.isSome := by
    intro f
    cases f <;> decide +kernel
  exact ⟨hbegins, hreturned, by decide +kernel, hlive,
    (settles_begin .smooth 0 .usual none 0 1 hbegins (.ofRoute (.bare .empty)) [] slow).2 hreturned⟩

end Settling

end MarketFeed.Client
