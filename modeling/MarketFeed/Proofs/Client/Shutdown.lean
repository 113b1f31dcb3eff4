import MarketFeed.Proofs.Client.Isolation
import MarketFeed.Proofs.Client.Settling

/-!
# Client.Shutdown — the shutdown of a stage settles the feeds

`Client.Settling` is about every course that a shutdown can take among callbacks, timers
and the work of the dispatch. A stage takes one of them (`Stage.shutdown`): both feeds are
asked to close, transports confirm their closes if they do so at all, some more may hang
up, and then the waits end.

> `Stage.shutdown_settles`: what `Stage.shutdown` answers and leaves behind is what a run
> of `Settling` from the same client and dispatch answers and leaves behind when it has
> returned; so all that `Settles` says is true of it.

The two are followed step by step (`Settling.Plays`). A transport that hangs up on the
stage is three happenings of the settling: it changes its state, its report begins, and
the report goes on. Where the dispatch has no room, the report waits on the stage and has
not begun in the settling, which comes to the same for the client: it still has its
connection when the waits end, and the answer is no.

While transports hang up the shutdown does not go on (`Settling.Pauses`), so its steps
stand at both ends of the course: two at first (`run_shut`), and three at last, all of
them behind their deadlines (`run_settle`). A deadline that has passed is no restriction
there: a wait for a feed that has confirmed ends well, late or not.
-/

namespace MarketFeed.Client

open Pipeline

namespace Settling

/-- That a client and the dispatch are on a stage as they are in a settling. -/
structure Plays (k : Nat) (st : Stage) (sc : Settling) : Prop where
  session : st.session? k = some sc.scene.session
  dispatch : st.dispatch = sc.dispatch
  owned : sc.scene.session.Owned k

/-- That the shutdown does not go on from one state to another, and no report is left half done. -/
structure Pauses (sc sc' : Settling) : Prop where
  halts : sc'.scene.halts = sc.scene.halts
  clean : sc'.clean = sc.clean
  midway : sc'.midway = sc.midway

/-- Two parts of a course in which the shutdown does not go on are one. -/
theorem Pauses.trans {sc sc' sc'' : Settling} (h : Pauses sc sc') (h' : Pauses sc' sc'') : Pauses sc sc'' :=
  ⟨h'.halts.trans h.halts, h'.clean.trans h.clean, h'.midway.trans h.midway⟩

variable {k : Nat} {st : Stage} {sc : Settling} {c : Callback}

private theorem run_append (sc : Settling) (first later : List Happening) :
    sc.run (first ++ later) = (sc.run first).run later :=
  List.foldl_append

/-! ## Transports hang up -/

/-- A loss for which the dispatch has room is heard, and then the client is told. -/
theorem run_loss_of_some {o : Outcome Dispatch} (hloss : c.signal = .disconnected)
    (htake : sc.dispatch.take? c = some o) :
    sc.run [.begins c, .resumes sc.midway.length] =
      handle c { sc with dispatch := o.state, heard := sc.heard ++ [c] } := by
  have hlast : (sc.midway ++ [c])[sc.midway.length]? = some c := List.getElem?_concat_length
  have herase : (sc.midway ++ [c]).eraseIdx sc.midway.length = sc.midway := by
    rw [List.eraseIdx_append_of_length_le (Nat.le_refl _), Nat.sub_self]
    exact List.append_nil _
  simp only [run, List.foldl_cons, List.foldl_nil, step, firstHalf?, secondHalf?, if_pos hloss, hear?, htake,
    Option.map_some, hlast, handle, herase]

/-- A loss without room at the dispatch does not begin. -/
theorem run_loss_of_none (hloss : c.signal = .disconnected) (htake : sc.dispatch.take? c = none) :
    sc.run [.begins c, .resumes sc.midway.length] = sc := by
  have hlast : sc.midway[sc.midway.length]? = none := List.getElem?_eq_none (Nat.le_refl _)
  simp only [run, List.foldl_cons, List.foldl_nil, step, firstHalf?, if_pos hloss, hear?, htake, Option.map_none, hlast]

/-- A loss that is reported on the stage is reported in the settling. -/
theorem Plays.report (h : Plays k st sc) (hloss : c.signal = .disconnected) :
    Plays k (st.report k c).state (sc.run [.begins c, .resumes sc.midway.length]) ∧
      Pauses sc (sc.run [.begins c, .resumes sc.midway.length]) := by
  have hsession := Stage.session?_report h.session c
  have hdispatch := (st.report_hands k c).2.1
  rw [handOver, h.dispatch] at hdispatch
  cases htake : sc.dispatch.take? c with
  | none =>
    have hheld : Withheld st.dispatch c := ⟨hloss, by rw [h.dispatch, htake]; rfl⟩
    rw [if_pos hheld] at hsession
    rw [htake] at hdispatch
    rw [run_loss_of_none hloss htake]
    exact ⟨⟨hsession, hdispatch, h.owned⟩, rfl, rfl, rfl⟩
  | some o =>
    have htold : ¬ Withheld st.dispatch c := by
      rintro ⟨-, hnone⟩
      rw [h.dispatch, htake] at hnone
      cases hnone
    rw [if_neg htold] at hsession
    rw [htake] at hdispatch
    rw [run_loss_of_some hloss htake]
    exact ⟨⟨hsession, hdispatch, Act.owned_apply h.owned (.event (.callback c))⟩, rfl, rfl, rfl⟩

/-- A transport changes its state. -/
theorem Plays.status (h : Plays k st sc) (number : Nat) (state : Status) :
    Plays k { st with world := st.world.setStatus number state } (sc.step (.status number state)) := by
  obtain ⟨client, hclient, hsession⟩ := Option.map_eq_some_iff.1 h.session
  refine ⟨?_, h.dispatch, Act.owned_apply h.owned (.event (.status number state))⟩
  show (st.clients[k]?).map _ = some { sc.scene.session with world := sc.scene.session.world.setStatus number state }
  rw [hclient, ← hsession]
  rfl

/-- A transport hangs up. -/
theorem Plays.hangUp (h : Plays k st sc) (number : Nat) : ∃ happenings,
    Plays k (st.signal number .disconnected []).state (sc.run happenings) ∧ Pauses sc (sc.run happenings) := by
  unfold Stage.signal
  cases hlink : st.world.links[number]? with
  | none => exact ⟨[], h, rfl, rfl, rfl⟩
  | some link =>
    have hworld : st.world = sc.scene.session.world := by
      obtain ⟨client, -, hsession⟩ := Option.map_eq_some_iff.1 h.session
      rw [← hsession]
    have hown : link.client = k :=
      h.owned.owners link.client (hworld ▸ List.mem_map_of_mem (List.mem_of_getElem? hlink))
    have hstatus := h.status number (Stage.statusAfter .disconnected link.status)
    obtain ⟨hplays, hpauses⟩ := hstatus.report (c := ⟨link.origin, .disconnected, []⟩) rfl
    refine ⟨.status number (Stage.statusAfter .disconnected link.status) ::
      [.begins ⟨link.origin, .disconnected, []⟩, .resumes sc.midway.length], ?_, hpauses.halts, hpauses.clean,
      hpauses.midway⟩
    simp only [hown]
    exact hplays

/-- Transports hang up in turn. -/
theorem Plays.hangUpEach (h : Plays k st sc) (numbers : List Nat) : ∃ happenings,
    Plays k (Stage.signalEach .disconnected numbers st).state (sc.run happenings) ∧ Pauses sc (sc.run happenings) := by
  induction numbers generalizing st sc with
  | nil => exact ⟨[], h, rfl, rfl, rfl⟩
  | cons number rest ih =>
    obtain ⟨first, hfirst, hpauses⟩ := h.hangUp number
    obtain ⟨later, hlater, hpauses'⟩ := ih hfirst
    refine ⟨first ++ later, ?_, ?_⟩
    · rw [run_append]
      exact hlater
    · rw [run_append]
      exact hpauses.trans hpauses'

/-- Transports confirm their closes, or do not. -/
theorem Plays.confirm (h : Plays k st sc) : ∃ happenings,
    Plays k st.confirm.state (sc.run happenings) ∧ Pauses sc (sc.run happenings) := by
  unfold Stage.confirm
  split
  next =>
    have hcount : Plays k { st with confirmations := st.world.closings.length } sc := ⟨h.session, h.dispatch, h.owned⟩
    exact hcount.hangUpEach _
  next => exact ⟨[], h, rfl, rfl, rfl⟩

/-! ## The shutdown goes on -/

/-- The feeds are asked to close one after the other. -/
theorem run_shut {scene : Scene} (hhalts : scene.halts = Halt.all) (dispatch : Dispatch) (midway : List Callback) :
    ((begin scene dispatch midway).run [.halt false, .halt false]).scene =
        ⟨scene.session.beginClosing, scene.calls, [.settle .market, .settle .user, .stopLog]⟩ ∧
      ((begin scene dispatch midway).run [.halt false, .halt false]).dispatch = dispatch ∧
      ((begin scene dispatch midway).run [.halt false, .halt false]).clean = true := by
  obtain ⟨session, calls, halts⟩ := scene
  obtain rfl : halts = Halt.all := hhalts
  rw [Session.beginClosing_eq]
  exact ⟨rfl, rfl, rfl⟩

/-- When both feeds have been asked to close, the stage and the settling agree. -/
theorem plays_beginClosing {scene : Scene} (hhalts : scene.halts = Halt.all)
    (hsession : st.session? k = some scene.session) (howned : scene.session.Owned k) (midway : List Callback) :
    Plays k (st.act k .beginClosing) ((begin scene st.dispatch midway).run [.halt false, .halt false]) := by
  obtain ⟨hscene, hdispatch, -⟩ := run_shut hhalts st.dispatch midway
  have hperform : scene.session.beginClosing.Owned k := by
    rw [Session.beginClosing_eq]
    exact howned.perform _
  refine ⟨?_, (Stage.dispatch_act st k _).trans hdispatch.symm, ?_⟩
  · rw [Stage.act_eq hsession, hscene]
    exact Stage.session?_putSession hsession _
  · rw [hscene]
    exact hperform

/-- The waits for both feeds end behind their deadlines, and the log stops. -/
theorem run_settle (hhalts : sc.scene.halts = [.settle .market, .settle .user, .stopLog])
    (hdown : sc.scene.session.client.shuttingDown = true) :
    (sc.run (List.replicate 3 (.halt true))).Returned ∧
      (sc.run (List.replicate 3 (.halt true))).scene.session = sc.scene.session.endClosing.2 ∧
      (sc.run (List.replicate 3 (.halt true))).clean = (sc.clean && sc.scene.session.endClosing.1) ∧
      (sc.run (List.replicate 3 (.halt true))).dispatch = sc.dispatch := by
  obtain ⟨⟨session, calls, halts⟩, dispatch, clean, midway, heard, handled⟩ := sc
  obtain rfl : halts = [.settle .market, .settle .user, .stopLog] := hhalts
  have hmarket : Act.apply session (.settle .market) = (Session.settleLine .market session).2 := if_pos hdown
  refine ⟨rfl, (Session.endClosing_eq session hdown).symm, ?_, rfl⟩
  show (clean && (Session.settleLine .market session).1 &&
    (Session.settleLine .user (Act.apply session (.settle .market))).1) = _
  rw [hmarket, Bool.and_assoc]
  rfl

end Settling

open Settling

/-- The shutdown of a stage is a settling: from any state of a client whose transports are its own, and with any
callbacks half done, it takes a course of `Settling` that returns, and answers and leaves what that leaves. -/
theorem Stage.shutdown_settles {k : Nat} {st : Stage} {scene : Scene} (horderly : scene.Orderly)
    (hhalts : scene.halts = Halt.all) (hsession : st.session? k = some scene.session)
    (howned : scene.session.Owned k) (midway : List Callback) (hangUps : List Nat) :
    let sc := begin scene st.dispatch midway
    ∃ happenings, (sc.run happenings).Returned ∧ sc.Settles happenings ∧
      (st.shutdown k hangUps).1 = (sc.run happenings).clean ∧
      (st.shutdown k hangUps).2.state.session? k = some (sc.run happenings).scene.session ∧
      (st.shutdown k hangUps).2.state.dispatch = (sc.run happenings).dispatch := by
  intro sc
  have hbegun : sc.Begun := begun_begin horderly hhalts st.dispatch midway
  -- both feeds are asked to close, and transports confirm that and hang up
  obtain ⟨hshut, -, hclosing⟩ := run_shut hhalts st.dispatch midway
  have hplays := plays_beginClosing hhalts hsession howned midway
  obtain ⟨confirming, hconfirmed, hpauses⟩ := hplays.confirm
  obtain ⟨leaving, hgone, hpauses'⟩ := hconfirmed.hangUpEach hangUps
  have hpaused := hpauses.trans hpauses'
  rw [← run_append, ← run_append] at hgone hpaused
  generalize [.halt false, .halt false] ++ (confirming ++ leaving) = meanwhile at hgone hpaused
  -- the waits end
  have hawaited : (sc.run meanwhile).scene.halts = [.settle .market, .settle .user, .stopLog] :=
    hpaused.halts.trans (congrArg Scene.halts hshut)
  have hanswer : (sc.run meanwhile).clean = true := hpaused.clean.trans hclosing
  obtain ⟨hreturned, hend, hclean, hdispatch⟩ := run_settle hawaited (hbegun.toSinking.run meanwhile).down
  rw [← run_append] at hreturned hend hclean hdispatch
  rw [hanswer, Bool.true_and] at hclean
  have hup : ¬ ((st.clients[k]?.map (·.shuttingDown)).getD true) = true := by
    obtain ⟨client, hclient, hmade⟩ := Option.map_eq_some_iff.1 hsession
    have hannounced : ¬ scene.session.client.shuttingDown = true := by
      rw [← horderly.announced, hhalts, not_not]
      exact List.mem_cons_self
    rw [hclient]
    rwa [← hmade] at hannounced
  refine ⟨meanwhile ++ List.replicate 3 (.halt true), hreturned, hbegun.settles hreturned, ?_, ?_, ?_⟩
  all_goals simp only [Stage.shutdown, if_neg hup, Stage.endShutdown, hgone.session]
  · exact hclean.symm
  · rw [hend]
    exact Stage.session?_putSession hgone.session _
  · rw [hdispatch]
    exact hgone.dispatch

end MarketFeed.Client
