import Mathlib.Data.List.Destutter
import MarketFeed.Proofs.Client.Ownership
import MarketFeed.Proofs.Client.Strands

/-!
# Client.Isolation — what does not concern a feed does not disturb it

A callback counts for a feed only when it comes from the connection that the feed has at
that moment. All others, of earlier connections and of the other feed, can be struck from
a run (`Session.purge`): as long as transports refuse nothing, the feed takes the same
course (`Session.course`). They go on to the dispatch nevertheless, each in its place.

> `Session.isolated`: the course and the last sight of a feed are those of the purged run;
> and on a stage, whose transports make their callbacks by `Stage.signal`, the dispatch is
> given every callback in turn, those that are struck among them.

The first half compares two runs of one client. `Client.Strands` has what a feed is apart
from the other one, so both runs are followed feed by feed: a stray callback leaves the
strand alone (`Tame.strand_stray`), every other act does the same to both. Courses are
compared without their repetitions, because an act that is struck is a moment less to look
at the feed.

The second half follows a stage and is about the dispatch alone: what it is given does not
depend on the client (`handOverAll`). A dispatch whose queue is full takes a callback
later; the callback waits, and if it is a loss, so does the client (`reaching`). With a
dispatch that never lets anybody wait, all callbacks are taken and the client is told of
them all. Calls, timers and the parts of a shutdown are acts of the client; which
callbacks come in, and from where, is left open.

That the callbacks of a stage's transport reach the client of this stage and no other
needs that its transports are its own (`Client.Ownership`).
-/

namespace MarketFeed.Client

open Pipeline

/-- What can be seen of a feed. -/
structure Sight where
  phase : Phase
  connection : Option Connection
  retries : Nat
  subscriptions : Subscriptions
  /-- The requests that were sent in turn, each with its connection. -/
  traffic : List (Connection × Request)
deriving DecidableEq

def Strand.sight (x : Strand) : Sight := ⟨x.phase, x.connection, x.retries, x.subscriptions, x.traffic⟩

/-- A callback of another connection does nothing. -/
theorem Strand.react_of_ne {x : Strand} {c : Callback} (h : x.connection ≠ some c.origin.connection) (f : Feed) :
    x.react f c = x := by
  unfold Strand.react
  split
  · exact if_neg fun hcurrent => h hcurrent.1
  · exact if_neg h
  · exact if_neg fun hcurrent => h hcurrent.1
  · rfl

/-- The callback that an act is. -/
def Act.callback? : Act → Option Callback
  | .event (.callback c) => some c
  | _ => none

private theorem Act.eq_of_callback? {a : Act} {c : Callback} (h : a.callback? = some c) : a = .event (.callback c) := by
  unfold callback? at h
  split at h
  · rw [Option.some.inj h]
  · cases h

/-- The callbacks of a run. -/
def callbacks (acts : List Act) : List Callback := acts.filterMap Act.callback?

namespace Session

def sight (s : Session) (f : Feed) : Sight := (s.strand f).sight

/-- Whether a callback comes from the connection that a feed has. -/
def Owns (s : Session) (f : Feed) (c : Callback) : Prop :=
  c.origin.feed = f ∧ (s.line f).connection = some c.origin.connection

instance (s : Session) (f : Feed) (c : Callback) : Decidable (s.Owns f c) := inferInstanceAs (Decidable (_ ∧ _))

/-- The callback that an act is, if it does not count for a feed. -/
def stray? (s : Session) (f : Feed) : Act → Option Callback
  | .event (.callback c) => if s.Owns f c then none else some c
  | _ => none

/-- A run without the callbacks that do not count for a feed when they come. -/
def purge (s : Session) (f : Feed) : List Act → List Act
  | [] => []
  | a :: rest =>
    let later := (a.apply s).purge f rest
    if (s.stray? f a).isSome then later else a :: later

/-- The callbacks that are struck. -/
def strays (s : Session) (f : Feed) : List Act → List Callback
  | [] => []
  | a :: rest => (s.stray? f a).toList ++ (a.apply s).strays f rest

/-- How a feed is seen before a run and after each of its acts. -/
def course (s : Session) (f : Feed) : List Act → List Sight
  | [] => [s.sight f]
  | a :: rest => s.sight f :: (a.apply s).course f rest

variable {f : Feed} {s t : Session} {a : Act}

/-! ## Two runs -/

private theorem stray?_eq_some {c : Callback} (h : s.stray? f a = some c) :
    a = .event (.callback c) ∧ ¬ s.Owns f c := by
  unfold stray? at h
  split at h
  next d =>
    split at h
    next => cases h
    next howns => exact Option.some.inj h ▸ ⟨rfl, howns⟩
  next => cases h

/-- A stray callback does nothing to the feed. -/
theorem Tame.strand_stray (h : s.Tame) (hstray : (s.stray? f a).isSome) : (a.apply s).strand f = s.strand f := by
  obtain ⟨c, hc⟩ := Option.isSome_iff_exists.1 hstray
  obtain ⟨rfl, howns⟩ := stray?_eq_some hc
  rw [h.strand_apply]
  show (if c.origin.feed = f then (s.strand f).react f c else s.strand f) = s.strand f
  split
  next hfeed => exact Strand.react_of_ne (fun hconnection => howns ⟨hfeed, hconnection⟩) f
  next => rfl

/-- Feeds that are alike stay alike when one run is purged. -/
theorem strand_perform_purge (hs : s.Tame) (ht : t.Tame) (hst : s.strand f = t.strand f) (acts : List Act) :
    (s.perform acts).strand f = (t.perform (s.purge f acts)).strand f := by
  induction acts generalizing s t with
  | nil => exact hst
  | cons a rest ih =>
    by_cases hstray : (s.stray? f a).isSome
    · rw [purge, if_pos hstray]
      exact ih (hs.apply a) ht ((hs.strand_stray hstray).trans hst)
    · rw [purge, if_neg hstray]
      exact ih (hs.apply a) (ht.apply a) (by rw [hs.strand_apply, ht.strand_apply, hst])

/-- A course begins with what is seen. -/
theorem destutter_course (v : Sight) (s : Session) (f : Feed) (acts : List Act) :
    (v :: s.course f acts).destutter (· ≠ ·) = if v = s.sight f then (s.course f acts).destutter (· ≠ ·)
      else v :: (s.course f acts).destutter (· ≠ ·) := by
  have hcourse : ∃ later, s.course f acts = s.sight f :: later := by
    cases acts <;> exact ⟨_, rfl⟩
  obtain ⟨later, hlater⟩ := hcourse
  rw [hlater, List.destutter_cons_cons]
  by_cases hv : v = s.sight f
  · rw [if_pos hv, if_neg (not_not_intro hv), hv]
    rfl
  · rw [if_neg hv, if_pos hv]
    rfl

private theorem sight_congr (h : s.strand f = t.strand f) : s.sight f = t.sight f := congrArg Strand.sight h

/-- They take the same course, apart from acts that change nothing. -/
theorem destutter_course_purge (hs : s.Tame) (ht : t.Tame) (hst : s.strand f = t.strand f) (acts : List Act) :
    (s.course f acts).destutter (· ≠ ·) = (t.course f (s.purge f acts)).destutter (· ≠ ·) := by
  induction acts generalizing s t with
  | nil => rw [purge, course, course, sight_congr hst]
  | cons a rest ih =>
    rw [course, destutter_course]
    by_cases hstray : (s.stray? f a).isSome
    · have hstay := hs.strand_stray hstray
      rw [purge, if_pos hstray, if_pos (sight_congr hstay.symm)]
      exact ih (hs.apply a) ht (hstay.trans hst)
    · have hnext : (a.apply s).strand f = (a.apply t).strand f := by rw [hs.strand_apply, ht.strand_apply, hst]
      rw [purge, if_neg hstray, course, destutter_course, ih (hs.apply a) (ht.apply a) hnext, sight_congr hst,
        sight_congr hnext]

end Session

/-! ## What goes on to the dispatch -/

/-- What came of giving callbacks to a dispatch: what was told, the dispatch after it, and the callbacks that wait for
room. -/
structure Handed where
  deliveries : List Delivery
  dispatch : Dispatch
  waiting : List Callback

/-- Gives a callback to a dispatch, which takes it or lets it wait. -/
def handOver (d : Dispatch) (c : Callback) : Handed :=
  match d.take? c with
  | some o => ⟨o.deliveries, o.state, []⟩
  | none => ⟨[], d, [c]⟩

/-- Gives callbacks to a dispatch in turn. -/
def handOverAll : List Callback → Dispatch → Handed
  | [], d => ⟨[], d, []⟩
  | c :: rest, d =>
    let first := handOver d c
    let later := handOverAll rest first.dispatch
    ⟨first.deliveries ++ later.deliveries, later.dispatch, first.waiting ++ later.waiting⟩

/-- That a callback is a loss which the dispatch lets wait, so that its client does not know of it yet. -/
def Withheld (d : Dispatch) (c : Callback) : Prop := c.signal = .disconnected ∧ (d.take? c).isNone

instance (d : Dispatch) (c : Callback) : Decidable (Withheld d c) := inferInstanceAs (Decidable (_ ∧ _))

/-- What reaches the client of a run: everything but the losses that the dispatch lets wait. -/
def reaching (d : Dispatch) : List Act → List Act
  | [] => []
  | a :: rest =>
    match a.callback? with
    | none => a :: reaching d rest
    | some c =>
      let later := reaching (handOver d c).dispatch rest
      if Withheld d c then later else a :: later

/-- The callbacks of two runs are those of the one and then of the other. -/
theorem callbacks_append (acts more : List Act) : callbacks (acts ++ more) = callbacks acts ++ callbacks more :=
  List.filterMap_append

/-- What is handed over later meets the dispatch as what came first has left it. -/
theorem handOverAll_append (first later : List Callback) (d : Dispatch) :
    handOverAll (first ++ later) d =
      ⟨(handOverAll first d).deliveries ++ (handOverAll later (handOverAll first d).dispatch).deliveries,
        (handOverAll later (handOverAll first d).dispatch).dispatch,
        (handOverAll first d).waiting ++ (handOverAll later (handOverAll first d).dispatch).waiting⟩ := by
  induction first generalizing d with
  | nil => rfl
  | cons c rest ih =>
    rw [List.cons_append, handOverAll, ih]
    simp only [handOverAll, List.append_assoc]

/-- What reaches the client later depends on how the dispatch was left. -/
theorem reaching_append (acts more : List Act) (d : Dispatch) : reaching d (acts ++ more) =
    reaching d acts ++ reaching (handOverAll (callbacks acts) d).dispatch more := by
  induction acts generalizing d with
  | nil => rfl
  | cons a rest ih =>
    rw [List.cons_append, reaching, reaching, callbacks]
    cases hc : a.callback? with
    | none =>
      rw [List.filterMap_cons_none hc]
      exact congrArg (a :: ·) (ih d)
    | some c =>
      rw [List.filterMap_cons_some hc]
      simp only [ih, callbacks, handOverAll]
      split
      · rfl
      · rfl

/-- What reaches the client is a part of the run, in its order. -/
theorem reaching_sublist (d : Dispatch) (acts : List Act) : (reaching d acts).Sublist acts := by
  induction acts generalizing d with
  | nil => exact .slnil
  | cons a rest ih =>
    rw [reaching]
    split
    next => exact (ih d).cons_cons a
    next c _ =>
      simp only
      split
      · exact (ih _).cons a
      · exact (ih _).cons_cons a

/-- When nobody has to wait, everything does. -/
theorem reaching_of_none_waiting {d : Dispatch} {acts : List Act}
    (h : (handOverAll (callbacks acts) d).waiting = []) : reaching d acts = acts := by
  induction acts generalizing d with
  | nil => rfl
  | cons a rest ih =>
    rw [callbacks] at h
    rw [reaching]
    cases hc : a.callback? with
    | none =>
      rw [List.filterMap_cons_none hc] at h
      exact congrArg (a :: ·) (ih h)
    | some c =>
      rw [List.filterMap_cons_some hc] at h
      obtain ⟨hfirst, hlater⟩ := List.append_eq_nil_iff.1 h
      have htaken : ¬ Withheld d c := by
        rintro ⟨-, hnone⟩
        rw [handOver, Option.isNone_iff_eq_none.1 hnone] at hfirst
        cases hfirst
      simp only [if_neg htaken]
      exact congrArg (a :: ·) (ih hlater)

/-- What happens on a stage that concerns one of its clients. -/
inductive Turn where
  /-- The client acts, or some callback is made for it, be its transport on the stage or not. -/
  | act (a : Act)
  /-- A transport of the stage makes a callback. -/
  | signal (number : Nat) (signal : Signal) (payload : Bytes)

namespace Stage

/-- A client acts; a callback is reported to it and to the dispatch. -/
def enact (k : Nat) (st : Stage) (a : Act) : Outcome Stage :=
  match a.callback? with
  | some c => st.report k c
  | none => ⟨[], st.act k fun s => a.apply s, .finished⟩

def turn (k : Nat) (st : Stage) : Turn → Outcome Stage
  | .act a => st.enact k a
  | .signal number signal payload => st.signal number signal payload

def play (k : Nat) : List Turn → Stage → Outcome Stage
  | [], st => ⟨[], st, .finished⟩
  | t :: rest, st =>
    let o := st.turn k t
    (play k rest o.state).after o.deliveries

/-- What a turn is to the client. A transport that makes a callback changes its own state first. -/
def actsOf (st : Stage) : Turn → List Act
  | .act a => [a]
  | .signal number signal payload =>
    match st.world.links[number]? with
    | none => []
    | some link => [.event (.status number (statusAfter signal link.status)),
        .event (.callback ⟨link.origin, signal, payload⟩)]

/-- What turns are to the client, one after the other. -/
def acts (k : Nat) : List Turn → Stage → List Act
  | [], _ => []
  | t :: rest, st => st.actsOf t ++ acts k rest (st.turn k t).state

variable {st : Stage} {k : Nat} {s : Session} {o o' : Outcome Stage}

/-- To act on a client of a stage is to put another session in its place. -/
theorem act_eq (h : st.session? k = some s) (f : Session → Session) : st.act k f = st.putSession k (f s) := by
  unfold act
  rw [h]

/-- The session that is put in a place is found there. -/
theorem session?_putSession (h : st.session? k = some s) (s' : Session) :
    (st.putSession k s').session? k = some s' := by
  obtain ⟨c, hc, -⟩ := Option.map_eq_some_iff.1 h
  have hk : k < st.clients.length := (List.getElem?_eq_some_iff.1 hc).1
  show ((st.clients.set k s'.client)[k]?).map _ = _
  rw [List.getElem?_set_self hk]
  rfl

/-- Acts of a client do not concern the dispatch. -/
theorem dispatch_act (st : Stage) (k : Nat) (f : Session → Session) : (st.act k f).dispatch = st.dispatch := by
  unfold act
  split <;> rfl

private theorem waiting_act (st : Stage) (k : Nat) (f : Session → Session) : (st.act k f).waiting = st.waiting := by
  unfold act
  split <;> rfl

/-- What the dispatch gets of a callback does not depend on the client. -/
theorem pass_hands (st : Stage) (k : Nat) (c : Callback) :
    (st.pass k c).deliveries = (handOver st.dispatch c).deliveries ∧
      (st.pass k c).state.dispatch = (handOver st.dispatch c).dispatch ∧
      (st.pass k c).state.waiting = st.waiting ++ (handOver st.dispatch c).waiting.map (k, ·) := by
  unfold pass hand? handOver
  cases st.dispatch.take? c with
  | none => exact ⟨rfl, rfl, rfl⟩
  | some o =>
    simp only [Option.map_some, Option.getD_some, Outcome.map, List.map_nil, List.append_nil, true_and]
    split
    · exact ⟨dispatch_act _ _ _, waiting_act _ _ _⟩
    · exact ⟨rfl, rfl⟩

/-- Nor does it depend on who is told first. -/
theorem report_hands (st : Stage) (k : Nat) (c : Callback) :
    (st.report k c).deliveries = (handOver st.dispatch c).deliveries ∧
      (st.report k c).state.dispatch = (handOver st.dispatch c).dispatch ∧
      (st.report k c).state.waiting = st.waiting ++ (handOver st.dispatch c).waiting.map (k, ·) := by
  unfold report
  split
  · exact st.pass_hands k c
  · have hpass := (st.act k (.react c)).pass_hands k c
    rw [dispatch_act, waiting_act] at hpass
    exact hpass

/-- The client is told of a callback, unless it is a loss that waits. -/
theorem session?_report (h : st.session? k = some s) (c : Callback) :
    (st.report k c).state.session? k = some (if Withheld st.dispatch c then s else Session.react c s) := by
  unfold report pass hand?
  by_cases hloss : c.signal = .disconnected
  · simp only [if_pos hloss]
    cases htake : st.dispatch.take? c with
    | none =>
      have hheld : Withheld st.dispatch c := ⟨hloss, Option.isNone_iff_eq_none.2 htake⟩
      rw [if_pos hheld]
      exact h
    | some o =>
      have hreached : ¬ Withheld st.dispatch c := by
        rintro ⟨-, hnone⟩
        rw [htake] at hnone
        cases hnone
      have hnext : ({ st with dispatch := o.state } : Stage).session? k = some s := h
      simp only [Option.map_some, Option.getD_some, Outcome.map, act_eq hnext, if_neg hreached]
      exact session?_putSession hnext _
  · have htold := session?_putSession h (Session.react c s)
    have hreached : ¬ Withheld st.dispatch c := fun hheld => hloss hheld.1
    simp only [if_neg hloss, if_neg hreached, act_eq h]
    cases (st.putSession k (Session.react c s)).dispatch.take? c <;> exact htold

/-- That acts of a client on a stage have this outcome: the client acts as far as it is reached, and the callbacks are
handed over to the dispatch. -/
structure Enacts (k : Nat) (st : Stage) (s : Session) (acts : List Act) (o : Outcome Stage) : Prop where
  session : o.state.session? k = some (s.perform (reaching st.dispatch acts))
  deliveries : o.deliveries = (handOverAll (callbacks acts) st.dispatch).deliveries
  dispatch : o.state.dispatch = (handOverAll (callbacks acts) st.dispatch).dispatch
  waiting : o.state.waiting = st.waiting ++ (handOverAll (callbacks acts) st.dispatch).waiting.map (k, ·)

/-- Acts that are no callbacks do not concern the dispatch. -/
theorem enacts_of_session {acts : List Act} {st' : Stage} (hacts : callbacks acts = [])
    (hreaching : reaching st.dispatch acts = acts) (h : st'.session? k = some (s.perform acts))
    (hdispatch : st'.dispatch = st.dispatch) (hwaiting : st'.waiting = st.waiting) :
    Enacts k st s acts ⟨[], st', .finished⟩ := by
  refine ⟨?_, ?_, ?_, ?_⟩
  · rw [hreaching]
    exact h
  · rw [hacts]
    rfl
  · rw [hacts]
    exact hdispatch
  · rw [hacts]
    exact hwaiting.trans (List.append_nil _).symm

/-- What is enacted in turn is enacted as a whole. -/
theorem Enacts.append {acts more : List Act} (h : Enacts k st s acts o)
    (h' : Enacts k o.state (s.perform (reaching st.dispatch acts)) more o') :
    Enacts k st s (acts ++ more) (o'.after o.deliveries) := by
  have hmore := h.dispatch
  refine ⟨?_, ?_, ?_, ?_⟩
  · rw [reaching_append, ← hmore, Session.perform, List.foldl_append]
    exact h'.session
  · rw [callbacks_append, handOverAll_append, ← hmore, ← h.deliveries, ← h'.deliveries]
    rfl
  · rw [callbacks_append, handOverAll_append, ← hmore, ← h'.dispatch]
    rfl
  · rw [callbacks_append, handOverAll_append, ← hmore, List.map_append, ← List.append_assoc, ← h.waiting, ← h'.waiting]
    rfl

/-- A callback that is reported reaches the client unless it is withheld, and the dispatch in any case. -/
theorem enacts_report (h : st.session? k = some s) (c : Callback) :
    Enacts k st s [.event (.callback c)] (st.report k c) := by
  have hone : handOverAll (callbacks [.event (.callback c)]) st.dispatch = handOver st.dispatch c := by
    show (⟨(handOver st.dispatch c).deliveries ++ [], (handOver st.dispatch c).dispatch,
      (handOver st.dispatch c).waiting ++ []⟩ : Handed) = _
    rw [List.append_nil, List.append_nil]
  obtain ⟨hdeliveries, hdispatch, hwaiting⟩ := st.report_hands k c
  rw [← hone] at hdeliveries hdispatch hwaiting
  refine ⟨?_, hdeliveries, hdispatch, hwaiting⟩
  rw [session?_report h, show reaching st.dispatch [.event (.callback c)] =
    if Withheld st.dispatch c then [] else [.event (.callback c)] from rfl]
  split <;> rfl

/-- An act on a stage. -/
theorem enacts_enact (h : st.session? k = some s) (a : Act) : Enacts k st s [a] (st.enact k a) := by
  unfold enact
  cases hc : a.callback? with
  | none =>
    have hcallbacks : callbacks [a] = [] := by rw [callbacks, List.filterMap_cons_none hc, List.filterMap_nil]
    have hreaching : reaching st.dispatch [a] = [a] := by
      rw [reaching, hc]
      rfl
    simp only [act_eq h]
    exact enacts_of_session hcallbacks hreaching (session?_putSession h _) rfl rfl
  | some c =>
    obtain rfl := Act.eq_of_callback? hc
    exact enacts_report h c

/-- A transport of the client makes a callback: it changes its own state, and the callback is reported. -/
theorem enacts_signal (h : st.session? k = some s) (howned : s.Owned k) (number : Nat) (signal : Signal)
    (payload : Bytes) :
    Enacts k st s (st.actsOf (.signal number signal payload)) (st.signal number signal payload) := by
  obtain ⟨client, hclient, rfl⟩ := Option.map_eq_some_iff.1 h
  simp only [actsOf, Stage.signal]
  cases hlink : st.world.links[number]? with
  | none => exact enacts_of_session rfl rfl h rfl rfl
  | some link =>
    have hown : link.client = k :=
      howned.owners link.client (List.mem_map_of_mem (List.mem_of_getElem? hlink))
    simp only [hown]
    generalize hst : ({ st with
      world := st.world.setStatus number (statusAfter signal link.status) } : Stage) = st'
    have hsession : st'.session? k = some ⟨client, st.world.setStatus number (statusAfter signal link.status)⟩ := by
      rw [← hst]
      show (st.clients[k]?).map _ = _
      rw [hclient]
      rfl
    have hstatus : Enacts k st ⟨client, st.world⟩ [.event (.status number (statusAfter signal link.status))]
        ⟨[], st', .finished⟩ := by
      refine enacts_of_session rfl rfl hsession ?_ ?_
      · rw [← hst]
      · rw [← hst]
    exact hstatus.append (enacts_report hsession _)

/-- Whatever happens on a stage is one or two acts to the client. -/
theorem enacts_turn (h : st.session? k = some s) (howned : s.Owned k) (t : Turn) :
    Enacts k st s (st.actsOf t) (st.turn k t) := by
  cases t with
  | act a => exact enacts_enact h a
  | signal number signal payload => exact enacts_signal h howned number signal payload

/-- On the whole, a client whose transports are its own acts on a stage as it would by itself, as far as it is
reached. -/
theorem enacts_play (h : st.session? k = some s) (howned : s.Owned k) (turns : List Turn) :
    Enacts k st s (st.acts k turns) (st.play k turns) := by
  induction turns generalizing st s with
  | nil => exact enacts_of_session rfl rfl h rfl rfl
  | cons t rest ih =>
    have hturn := enacts_turn h howned t
    exact hturn.append (ih hturn.session (howned.perform _))

end Stage

namespace Session

/-- The callbacks that are struck are some of those of the run, in its order. -/
theorem strays_sublist (s : Session) (f : Feed) (acts : List Act) : (s.strays f acts).Sublist (callbacks acts) := by
  induction acts generalizing s with
  | nil => exact .slnil
  | cons a rest ih =>
    rw [strays, callbacks]
    cases hc : s.stray? f a with
    | none =>
      refine (ih (a.apply s)).trans ?_
      exact (List.sublist_cons_self a rest).filterMap Act.callback?
    | some c =>
      obtain ⟨rfl, -⟩ := stray?_eq_some hc
      exact (ih _).cons_cons c

/-- While transports refuse nothing, a feed takes the same course when all callbacks are struck from a run that do not
come from its connection of that moment, be they of an earlier connection or of the other feed. But on a stage, where
transports make their callbacks among the client's acts, the dispatch is given all of them, in turn and as they are: it
takes them or lets them wait. The client runs through its acts as they come, except that it is not told of a loss as
long as the dispatch lets it wait; where nobody has to wait, nothing is left out. -/
theorem isolated (others : List Client) (settings : Settings) (credential : Option Credential) (market user : UInt32)
    (dispatch : Dispatch) (confirming : Bool) (f : Feed) :
    let s := fresh .smooth others.length settings credential market user
    let st : Stage := ⟨s.world, others ++ [s.client], dispatch, confirming, 0, []⟩
    (∀ acts, (s.course f acts).destutter (· ≠ ·) = (s.course f (s.purge f acts)).destutter (· ≠ ·) ∧
      (s.perform acts).sight f = (s.perform (s.purge f acts)).sight f ∧
      (s.strays f acts).Sublist (callbacks acts)) ∧
    ∀ turns,
      let acts := st.acts others.length turns
      let o := st.play others.length turns
      let handed := handOverAll (callbacks acts) dispatch
      o.state.session? others.length = some (s.perform (reaching dispatch acts)) ∧
      o.deliveries = handed.deliveries ∧ o.state.dispatch = handed.dispatch ∧
      o.state.waiting = handed.waiting.map (others.length, ·) ∧
      (s.strays f (reaching dispatch acts)).Sublist (callbacks acts) ∧
      (handed.waiting = [] → reaching dispatch acts = acts) := by
  intro s st
  have htame : s.Tame := ⟨sound_fresh .smooth others.length settings credential market user, rfl⟩
  constructor
  · intro acts
    exact ⟨destutter_course_purge htame htame rfl acts, sight_congr (strand_perform_purge htame htame rfl acts),
      strays_sublist s f acts⟩
  · intro turns acts o handed
    have hsession : st.session? others.length = some s := by
      show ((others ++ [s.client])[others.length]?).map _ = _
      rw [List.getElem?_concat_length]
      rfl
    have howned := owned_fresh .smooth others.length settings credential market user
    -- the transports of the client are its own, so the stage tells it and no other
    have henacts := Stage.enacts_play hsession howned turns
    refine ⟨henacts.session, henacts.deliveries, henacts.dispatch, henacts.waiting, ?_, reaching_of_none_waiting⟩
    exact (strays_sublist s f _).trans ((reaching_sublist dispatch acts).filterMap Act.callback?)

/-- What the first connection of the market feed reports when it has been replaced is struck, and so is what the user
feed reports. -/
example :
    (fresh .smooth 0 .usual none 0 1).strays .market
      [.event (.subscribe [] [.status, .user]), .event (.callback (.connected ⟨⟨0, 1⟩, .market⟩)),
        .event (.reconnect .market), .event (.callback (.disconnected ⟨⟨0, 1⟩, .market⟩)),
        .event (.callback (.connected ⟨⟨0, 2⟩, .market⟩)), .event (.callback (.connected ⟨⟨1, 1⟩, .user⟩))] =
      [.disconnected ⟨⟨0, 1⟩, .market⟩, .connected ⟨⟨1, 1⟩, .user⟩] := by
  decide +kernel

end Session

end MarketFeed.Client
