import MarketFeed.Proofs.Client.Overtaking

/-!
# Client.Parting — what takes a connection from its feed

A feed lets go of its connection when a callback reports that this connection is lost, or
when a shutdown does not wait for it any longer. Neither touches what is subscribed:

> `loosens_react`: a callback takes a connection from its feed if it reports that this
> connection is lost, and in no other case.
>
> `spares_halt`: a step of a shutdown leaves a feed with its connection, unless the wait
> for this feed ends.

So it can be read off a run which of the two it was: a feed that is without its connection
before its wait ends has lost it, and one that still has it then is given up. That is what
the answer of a shutdown tells (`Client.Settling`).

A client whose feeds have no connections and that is shutting down stays as it is,
whatever its transports report and whichever timers go off (`still_react`, `still_fire`):
it neither asks for a transport nor sends anything. What the log takes in is not looked
at.

Steps are described one feed at a time, as sparing it (`Spares`) or as loosening its
connections that satisfy a condition (`Loosens`); both compose, and only a callback of a
lost connection loosens anything.
-/

namespace MarketFeed

/-- That a callback reports the loss of a connection of a feed. -/
structure Callback.Loses (c : Callback) (f : Feed) (d : Connection) : Prop where
  signal : c.signal = .disconnected
  origin : c.origin = ⟨d, f⟩

namespace Client

/-! ## What lets go of a connection -/

namespace Session

variable {f g : Feed} {s s' s'' : Session}

/-- That a step leaves a feed with its connection and its subscriptions. -/
structure Spares (f : Feed) (s s' : Session) : Prop where
  connection : (s'.line f).connection = (s.line f).connection
  subscriptions : (s'.line f).subscriptions = (s.line f).subscriptions

private theorem spares_of_line (h : s'.line f = s.line f) : Spares f s s' := ⟨congrArg _ h, congrArg _ h⟩

/-- What is spared twice is spared. -/
theorem Spares.trans (h : Spares f s s') (h' : Spares f s' s'') : Spares f s s'' :=
  ⟨h'.connection.trans h.connection, h'.subscriptions.trans h.subscriptions⟩

private theorem spares_setLine {l : Line} (hconnection : l.connection = (s.line g).connection)
    (hsubscriptions : l.subscriptions = (s.line g).subscriptions) (f : Feed) : Spares f s (s.setLine g l) := by
  by_cases hf : f = g
  · subst hf
    exact ⟨by rw [line_setLine, hconnection], by rw [line_setLine, hsubscriptions]⟩
  · exact spares_of_line (line_setLine_of_ne s l hf)

private theorem spares_scheduleReopening (g : Feed) (s : Session) (f : Feed) : Spares f s (scheduleReopening g s) := by
  unfold scheduleReopening
  simp only
  split
  next => exact spares_of_line rfl
  next delay _ =>
    have htimers := (aside_timers s (s.client.timers ++ [⟨g, s.world.clock + delay⟩]) s.world.clock).line
    refine (spares_of_line (htimers f)).trans (spares_setLine ?_ ?_ f)
    · rw [htimers]
    · rw [htimers]

/-- That a connection is established takes none away. -/
theorem spares_connected (o : Origin) (s : Session) (f : Feed) : Spares f s (connected o s) := by
  unfold connected
  simp only
  split
  next =>
    refine Spares.trans ?_ (spares_of_line (line_congr (client_subscribeAll _ _ _) f))
    exact spares_setLine (by rfl) (by rfl) f
  next => exact spares_of_line rfl

/-- That a connection fails does not take it away. -/
theorem spares_failed (o : Origin) (s : Session) (f : Feed) : Spares f s (failed o s) := by
  unfold failed
  simp only
  split
  next => exact spares_setLine (by rfl) (by rfl) f
  next => exact spares_of_line rfl

/-- That a step leaves a feed with its connection unless that is lost, and in any case with its subscriptions. -/
structure Loosens (f : Feed) (lost : Connection → Prop) (s s' : Session) : Prop where
  connection : ∀ d, (s'.line f).connection = some d ↔ (s.line f).connection = some d ∧ ¬ lost d
  subscriptions : (s'.line f).subscriptions = (s.line f).subscriptions

private theorem Spares.loosens (h : Spares f s s') {lost : Connection → Prop} (hlost : ∀ d, ¬ lost d) :
    Loosens f lost s s' := by
  refine ⟨fun d => ?_, h.subscriptions⟩
  rw [h.connection]
  exact (and_iff_left (hlost d)).symm

/-- A reported loss takes away the connection that it is about. -/
theorem loosens_disconnected (o : Origin) (s : Session) (f : Feed) :
    Loosens f (fun d => o = ⟨d, f⟩) s (disconnected o s) := by
  unfold disconnected
  simp only
  split
  next hcurrent =>
    generalize hl : ({ s.line o.feed with phase := _, connection := none, transport := none } : Line) = l
    generalize ((s.line o.feed).phase == .closing || s.client.shuttingDown) = closing
    -- a timer that is set behind it takes no connection away
    have hrest : Spares f (s.setLine o.feed l) (if closing = true then s.setLine o.feed l else
        scheduleReopening o.feed (s.setLine o.feed l)) := by
      split
      · exact spares_of_line rfl
      · exact spares_scheduleReopening _ _ f
    by_cases hf : f = o.feed
    · subst hf
      refine ⟨fun d => ?_, ?_⟩
      · rw [hrest.connection, line_setLine, ← hl, hcurrent]
        refine ⟨fun hnone => ?_, fun hstill => absurd ?_ hstill.2⟩
        · cases hnone
        · rw [← Option.some.inj hstill.1]
      · rw [hrest.subscriptions, line_setLine, ← hl]
    · refine ((spares_of_line (line_setLine_of_ne s l hf)).trans hrest).loosens fun d => ?_
      rintro rfl
      exact hf rfl
  next hother =>
    refine ⟨fun d => (and_iff_left_of_imp ?_).symm, rfl⟩
    rintro hd rfl
    exact hother hd

/-- A callback takes a connection from its feed if it reports that this connection is lost, and in no other case. -/
theorem loosens_react (c : Callback) (s : Session) (f : Feed) : Loosens f (c.Loses f) s (react c s) := by
  have hspared (hsignal : c.signal ≠ .disconnected) (h : Spares f s (react c s)) :
      Loosens f (c.Loses f) s (react c s) := h.loosens fun _ hloses => hsignal hloses.signal
  obtain ⟨o, signal, payload⟩ := c
  cases signal with
  | connected => exact hspared Signal.noConfusion (spares_connected o s f)
  | disconnected =>
    have hloses : Callback.Loses ⟨o, .disconnected, payload⟩ f = fun d => o = ⟨d, f⟩ :=
      funext fun d => propext ⟨Callback.Loses.origin, fun ho => ⟨rfl, ho⟩⟩
    rw [hloses]
    exact loosens_disconnected o s f
  | error => exact hspared Signal.noConfusion (spares_failed o s f)
  | data => exact hspared Signal.noConfusion (spares_of_line ((aside_logged payload s).line f))

/-! ## Steps of a shutdown -/

/-- To ask a feed to close does not take its connection away. -/
theorem spares_shutLine (g : Feed) (s : Session) (f : Feed) : Spares f s (shutLine g s) := by
  unfold shutLine
  simp only
  split
  next =>
    refine Spares.trans ?_ (spares_of_line (line_congr (client_closeTransport _ _) f))
    exact spares_setLine (by rfl) (by rfl) f
  next => exact spares_setLine (by rfl) (by rfl) f

/-- The wait for a feed ends well if the loss of its connection was confirmed. -/
theorem fst_settleLine (f : Feed) (s : Session) : (settleLine f s).1 = s.confirmed f := by
  unfold settleLine
  split
  next h => exact h.symm
  next h => exact (Bool.eq_false_iff.2 h).symm

private theorem line_settleLine_of_ne (s : Session) (h : f ≠ g) : (settleLine g s).2.line f = s.line f := by
  unfold settleLine
  split
  next => rfl
  next => exact line_setLine_of_ne s _ h

private theorem subscriptions_settleLine (g : Feed) (s : Session) (f : Feed) :
    ((settleLine g s).2.line f).subscriptions = (s.line f).subscriptions := by
  by_cases hf : f = g
  · subst hf
    unfold settleLine
    split
    next => rfl
    next => rw [line_setLine]
  · rw [line_settleLine_of_ne s hf]

/-- A step of a shutdown leaves a feed with its connection, unless the wait for this feed ends. -/
theorem spares_halt {halt : Halt} (h : halt ≠ .settle f) (s : Session) : Spares f s (halt.act.apply s) := by
  cases halt with
  | announce => exact spares_of_line (by cases f <;> rfl)
  | shut g =>
    simp only [Halt.act, Act.apply]
    split
    · exact spares_shutLine g s f
    · exact spares_of_line rfl
  | settle g =>
    simp only [Halt.act, Act.apply]
    split
    · exact spares_of_line (line_settleLine_of_ne s fun hf => h (hf ▸ rfl))
    · exact spares_of_line rfl
  | stopLog => exact spares_of_line ((aside_stopLog s).line f)

/-- No step of a shutdown changes what is subscribed. -/
theorem subscriptions_halt (halt : Halt) (s : Session) (f : Feed) :
    ((halt.act.apply s).line f).subscriptions = (s.line f).subscriptions := by
  by_cases h : halt = .settle f
  · subst h
    simp only [Halt.act, Act.apply]
    split
    · exact subscriptions_settleLine f s f
    · rfl
  · exact (spares_halt h s).subscriptions

/-- What a client that is down for good still does: its feeds stay as they are, and it neither asks for a transport nor
sends anything. -/
structure Still (s s' : Session) : Prop where
  line : ∀ f, s'.line f = s.line f
  creations : s'.world.creations = s.world.creations
  sends : s'.world.sends = s.world.sends

/-- What stands still twice stands still. -/
theorem Still.trans (h : Still s s') (h' : Still s' s'') : Still s s'' where
  line f := (h'.line f).trans (h.line f)
  creations := h'.creations.trans h.creations
  sends := h'.sends.trans h.sends

/-- While the client is shutting down, timers go off for nothing. -/
theorem still_fire (hdown : s.client.shuttingDown = true) (t : Timer) : Still s (Stage.fire t s) := by
  unfold Stage.fire reopen
  simp only [hdown, Bool.true_or, if_true]
  exact ⟨fun f => by cases f <;> rfl, rfl, rfl⟩

private theorem still_logged (payload : Bytes) (s : Session) : Still s (logged payload s) := by
  refine ⟨(aside_logged payload s).line, ?_, ?_⟩ <;>
  · unfold logged
    split
    next => rfl
    next =>
      simp only
      rfl

/-- Callbacks do not concern a feed without a connection. -/
theorem still_react (hdown : ∀ f, (s.line f).connection = none) (c : Callback) : Still s (react c s) := by
  have hstale (o : Origin) : (s.line o.feed).connection ≠ some o.connection := by
    rw [hdown]
    exact (Option.some_ne_none _).symm
  unfold react
  split
  · rw [connected, if_neg fun hcurrent => hstale _ hcurrent.1]
    exact ⟨fun _ => rfl, rfl, rfl⟩
  · rw [disconnected, if_neg (hstale _)]
    exact ⟨fun _ => rfl, rfl, rfl⟩
  · rw [failed, if_neg fun hcurrent => hstale _ hcurrent.1]
    exact ⟨fun _ => rfl, rfl, rfl⟩
  · exact still_logged c.payload s

end Session

end Client

end MarketFeed
