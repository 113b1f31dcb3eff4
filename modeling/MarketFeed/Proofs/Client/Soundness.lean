import Mathlib.Data.List.Chain
import Mathlib.Data.List.Induction
import MarketFeed.Proofs.Client.Acts

/-!
# Client.Soundness — what holds of each feed at any time

Whatever calls, timers and callbacks come in whatever order, and whatever the transports
refuse, a feed either has no connection, or it has its present connection and the last
transport that was made for it (`Line.Stands`). It is open only since its own connection
was established (`Session.OpenSince`), and closing only in a shutdown.

> `Sound.perform`: every act keeps a session sound, so every run does.
>
> `upheld_fresh`: in every run of a new client each feed can be relied upon (`Upheld`),
> and the factory is asked for the connections of the feeds in turn and for no others.

The step is the inversion of `Client.Acts`: an act takes each feed through one change, and
a change keeps a line standing that fits it (`Sound.stands_apply`), while the line of the
other feed stands as before (`Sound.stands_ask`), because its transport is still the last
one of its feed when the factory is asked for another.

The second part follows the factory. A feed is opened when its generation goes up, and
then for the next connection (`launch_eq`). So the connections that are asked for in a run
are one generation after the other (`exists_asked_eq`), without a gap and whether or not a
transport is made, and it takes 2³² requests for one to come again (`nodup_of_infix`).
Feeds with slots of their own do not share connections either.
-/

namespace MarketFeed.Client

/-- The connection of a line's present generation. -/
def Line.present (l : Line) : Connection := ⟨l.slot, l.generation⟩

/-- How a line stands to what the factory made. -/
inductive Line.Stands (made : Factory) (f : Feed) (l : Line) : Prop
  | down : l.phase = .closed ∨ l.phase = .errored → l.connection = none → l.transport = none → Stands made f l
  | up (i : Nat) : l.phase ≠ .closed → l.connection = some l.present → l.transport = some i →
    made.Last i ⟨l.present, f⟩ → Stands made f l

private theorem Line.stands_frame {made : Factory} {f : Feed} {l : Line} : l.frame.Stands made f ↔ l.Stands made f := by
  constructor <;> intro h <;> cases h
  case mp.down hphase hconnection htransport => exact .down hphase hconnection htransport
  case mp.up i hphase hconnection htransport hlast => exact .up i hphase hconnection htransport hlast
  case mpr.down hphase hconnection htransport => exact .down hphase hconnection htransport
  case mpr.up i hphase hconnection htransport hlast => exact .up i hphase hconnection htransport hlast

namespace Line.Stands

variable {made : Factory} {f : Feed} {l : Line}

/-- A line has a transport just when it has a connection. -/
theorem linked (h : l.Stands made f) : l.transport.isSome ↔ l.connection.isSome := by
  cases h with
  | down _ hconnection htransport => exact (by rw [hconnection, htransport]; exact Iff.rfl)
  | up _ _ hconnection htransport _ => exact (by rw [hconnection, htransport]; exact Iff.rfl)

/-- A closed line has no connection. -/
theorem connection_of_closed (h : l.Stands made f) (hclosed : l.phase = .closed) : l.connection = none := by
  cases h with
  | down _ hconnection _ => exact hconnection
  | up _ hphase _ _ _ => exact absurd hclosed hphase

/-- A line that is not closed or in error has its connection. -/
theorem connection_of_live (h : l.Stands made f) (hlive : ¬ (l.phase = .closed ∨ l.phase = .errored)) :
    l.connection = some l.present := by
  cases h with
  | down hphase _ _ => exact absurd hphase hlive
  | up _ _ hconnection _ _ => exact hconnection

private theorem eq_present (h : l.Stands made f) {c : Connection} (hc : l.connection = some c) : c = l.present := by
  cases h with
  | down _ hconnection _ => exact absurd (hc.symm.trans hconnection) (Option.some_ne_none c)
  | up _ _ hconnection _ _ => exact Option.some.inj (hc.symm.trans hconnection)

end Line.Stands

/-- Whether a change asks for a transport. -/
def Change.launches : Change → Bool
  | launched _ => true
  | _ => false

private theorem Change.frame_apply (l : Line) (change : Change) : (change.apply l).frame = change.apply l.frame := by
  cases change with
  | launched transport => cases transport <;> rfl
  | _ => rfl

namespace Session

variable {f g : Feed} {s s' s₁ : Session} {change : Change} {a : Act}

/-- What every session keeps to. -/
structure Sound (s : Session) : Prop where
  wired : s.Wired
  stands : ∀ f, (s.line f).Stands s.world.factory f
  closing : ∀ f, (s.line f).phase = .closing → s.client.shuttingDown = true

/-! ## Each change -/

/-- A line that is not closed or in error is up. -/
theorem Sound.up (h : s.Sound) (hphase : ¬ ((s.line f).phase = .closed ∨ (s.line f).phase = .errored)) :
    ∃ i, (s.line f).connection = some (s.line f).present ∧ (s.line f).transport = some i ∧
      s.world.factory.Last i ⟨(s.line f).present, f⟩ := by
  cases h.stands f with
  | down hdown => exact absurd hdown hphase
  | up i _ hconnection htransport hlast => exact ⟨i, hconnection, htransport, hlast⟩

/-- The line of a feed that goes through a change stands as before or anew. -/
theorem Sound.stands_apply (h : s.Sound) (hfits : change.Fits s f) :
    (change.apply (s.line f)).Stands (change.ask s f) f := by
  cases change with
  | kept => exact h.stands f
  | opened =>
    have hphase : (s.line f).phase = .connecting := hfits
    obtain ⟨i, hconnection, htransport, hlast⟩ := h.up (by rw [hphase]; decide)
    exact .up i Phase.noConfusion hconnection htransport hlast
  | failed =>
    have hlive : ¬ ((s.line f).phase = .closed ∨ (s.line f).phase = .errored) := by
      rcases hfits with hphase | hphase <;> rw [hphase] <;> decide
    obtain ⟨i, hconnection, htransport, hlast⟩ := h.up hlive
    exact .up i Phase.noConfusion hconnection htransport hlast
  | lost errored =>
    cases errored with
    | false => exact .down (Or.inl rfl) rfl rfl
    | true => exact .down (Or.inr rfl) rfl rfl
  -- a feed that is asked to close keeps its connection until the loss is reported
  | closing =>
    obtain ⟨-, hlive, -⟩ := hfits
    cases h.stands f with
    | down _ _ htransport =>
      rw [htransport] at hlive
      cases hlive
    | up i _ hconnection htransport hlast => exact .up i Phase.noConfusion hconnection htransport hlast
  | closed =>
    cases h.stands f with
    | down _ hconnection htransport => exact .down (Or.inl rfl) hconnection htransport
    | up i _ hconnection htransport _ =>
      exact absurd (And.intro (htransport ▸ rfl) (hconnection ▸ rfl)) hfits
  | launched transport =>
    have hanswer : transport = s.world.factory.answer s.world.plan := hfits
    cases transport with
    | none => exact .down (Or.inr rfl) rfl rfl
    | some i => exact .up i Phase.noConfusion rfl rfl (Factory.last_of_answer hanswer.symm _)

/-- The other feed's line stands as before. -/
theorem Sound.stands_ask (h : s.Sound) (hg : g ≠ f) (change : Change) :
    (s.line g).Stands (change.ask s f) g := by
  cases change with
  | launched transport =>
    cases h.stands g with
    | down hphase hconnection htransport => exact .down hphase hconnection htransport
    | up i hphase hconnection htransport hlast =>
      exact .up i hphase hconnection htransport (hlast.ask (Ne.symm hg))
  | _ => exact h.stands g

/-- A feed only starts to close when the client is shutting down. -/
theorem Does.closing (h : Does f change s s') (hclosing : (s'.line f).phase = .closing) :
    (s.line f).phase = .closing ∨ s.client.shuttingDown = true := by
  have hphase : (s'.line f).phase = (change.apply (s.line f).frame).phase := (congrArg Line.phase h.frame :)
  have hfits := h.fits
  rw [hclosing] at hphase
  cases change with
  | kept => exact Or.inl hphase.symm
  | closing => exact Or.inr hfits.1
  | lost errored => cases errored <;> cases hphase
  | launched transport => cases transport <;> cases hphase
  | _ => cases hphase

/-- The step: a change of one feed keeps both standing. -/
theorem Sound.does (h : s.Sound) (hdoes : Does f change s s') : s'.Sound := by
  refine ⟨hdoes.wired, ?_, ?_⟩
  · intro g
    rw [hdoes.factory]
    by_cases hg : g = f
    · subst hg
      rw [← Line.stands_frame, hdoes.frame, ← Change.frame_apply, Line.stands_frame]
      exact h.stands_apply hdoes.fits
    · rw [hdoes.line g hg]
      exact h.stands_ask hg change
  · intro g hclosing
    rw [hdoes.shuttingDown]
    by_cases hg : g = f
    · subst hg
      exact (hdoes.closing hclosing).elim (h.closing g) fun hdown => hdown
    · rw [hdoes.line g hg] at hclosing
      exact h.closing g hclosing

/-! ## Each act -/

/-- Every act keeps a session sound. -/
theorem Sound.apply (h : s.Sound) (a : Act) : (a.apply s).Sound := by
  rcases Act.divides_apply h.wired a with rfl | ⟨s₁, market, user, hmarket, huser, -⟩
  · exact ⟨h.wired, h.stands, fun _ _ => rfl⟩
  · exact (h.does hmarket).does huser

/-- So does every run. -/
theorem Sound.perform (h : s.Sound) (acts : List Act) : (s.perform acts).Sound := by
  induction acts generalizing s with
  | nil => exact h
  | cons a rest ih => exact ih (h.apply a)

/-- What an act makes of a feed. -/
theorem divides_frame (h : a.Divides s s') (f : Feed) : ∃ change : Change,
    (s'.line f).frame = change.apply (s.line f).frame ∧
      (change = .opened → (s.line f).phase = .connecting ∧ a.Connects s f) := by
  obtain ⟨s₁, market, user, hmarket, huser, hconnects⟩ := h
  cases f with
  | market =>
    refine ⟨market, ?_, ?_⟩
    · rw [huser.line .market Feed.noConfusion, hmarket.frame]
    · rintro rfl
      exact ⟨hmarket.fits, hconnects.1 rfl⟩
  | user =>
    have hline : s₁.line .user = s.line .user := hmarket.line .user Feed.noConfusion
    refine ⟨user, ?_, ?_⟩
    · rw [huser.frame, hline]
    · rintro rfl
      have hfits : (s₁.line .user).phase = .connecting := huser.fits
      exact ⟨hline ▸ hfits, hconnects.2 rfl⟩

/-- What takes feeds through changes announces no shutdown. -/
theorem divides_shuttingDown (h : a.Divides s s') : s'.client.shuttingDown = s.client.shuttingDown := by
  obtain ⟨s₁, market, user, hmarket, huser, -⟩ := h
  exact huser.shuttingDown.trans hmarket.shuttingDown

/-- A feed that an act leaves open was open with the same connection, or it has just been opened. -/
theorem opened_of_apply (h : s.Wired) (a : Act) (hopen : ((a.apply s).line f).phase = .open) :
    ((a.apply s).line f).connection = (s.line f).connection ∧
      ((s.line f).phase = .open ∨ (s.line f).phase = .connecting ∧ a.Connects s f) := by
  rcases Act.divides_apply h a with rfl | hdivides
  · exact ⟨rfl, Or.inl hopen⟩
  · obtain ⟨change, hframe, hconnects⟩ := divides_frame hdivides f
    have hphase : ((a.apply s).line f).phase = (change.apply (s.line f).frame).phase :=
      (congrArg Line.phase hframe :)
    have hconnection : ((a.apply s).line f).connection = (change.apply (s.line f).frame).connection :=
      (congrArg Line.connection hframe :)
    rw [hopen] at hphase
    cases change with
    | kept => exact ⟨hconnection, Or.inl hphase.symm⟩
    | opened => exact ⟨hconnection, Or.inr (hconnects rfl)⟩
    | lost errored => cases errored <;> cases hphase
    | launched transport => cases transport <;> cases hphase
    | _ => cases hphase

/-! ## Runs -/

/-- That a feed is open with a connection since the callback that this connection was established. -/
def OpenSince (s : Session) (acts : List Act) (f : Feed) (c : Connection) : Prop :=
  ∃ before payload later, acts = before ++ .event (.callback ⟨⟨c, f⟩, .connected, payload⟩) :: later ∧
    ((s.perform before).line f).phase = .connecting ∧ ((s.perform before).line f).connection = some c ∧
    ∀ since, since <+: later →
      ((s.perform (before ++ .event (.callback ⟨⟨c, f⟩, .connected, payload⟩) :: since)).line f).phase = .open ∧
      ((s.perform (before ++ .event (.callback ⟨⟨c, f⟩, .connected, payload⟩) :: since)).line f).connection = some c

private theorem perform_append (s : Session) (acts acts' : List Act) :
    s.perform (acts ++ acts') = (s.perform acts).perform acts' := List.foldl_append

private theorem perform_concat (s : Session) (acts : List Act) (a : Act) :
    s.perform (acts ++ [a]) = a.apply (s.perform acts) :=
  perform_append s acts [a]

variable {acts : List Act} {c : Connection}

/-- It goes on as long as the feed stays open with the connection. -/
theorem OpenSince.concat (h : s.OpenSince acts f c) (hopen : ((s.perform (acts ++ [a])).line f).phase = .open)
    (hconnection : ((s.perform (acts ++ [a])).line f).connection = some c) : s.OpenSince (acts ++ [a]) f c := by
  obtain ⟨before, payload, later, rfl, hphase, hcurrent, hsince⟩ := h
  refine ⟨before, payload, later ++ [a], by rw [List.append_assoc, List.cons_append], hphase, hcurrent, ?_⟩
  intro since hle
  rcases List.prefix_concat_iff.1 hle with rfl | hle
  · rw [List.append_assoc, List.cons_append] at hopen hconnection
    exact ⟨hopen, hconnection⟩
  · exact hsince since hle

/-- An open feed is open since its connection was established. -/
theorem exists_openSince (h : s.Sound) (hstart : (s.line f).phase ≠ .open) (acts : List Act)
    (hopen : ((s.perform acts).line f).phase = .open) :
    ∃ c, ((s.perform acts).line f).connection = some c ∧ s.OpenSince acts f c := by
  -- from the last act backwards: the feed was open before it, or this act opened it
  induction acts using List.reverseRecOn with
  | nil => exact absurd hopen hstart
  | append_singleton acts a ih =>
    have hnow := hopen
    rw [perform_concat] at hopen ⊢
    obtain ⟨hconnection, hbefore⟩ := opened_of_apply (h.perform acts).wired a hopen
    rcases hbefore with hbefore | ⟨hphase, c, payload, rfl, hcurrent⟩
    · obtain ⟨c, hc, hsince⟩ := ih hbefore
      have hstill := hconnection.trans hc
      exact ⟨c, hstill, hsince.concat hnow (by rw [perform_concat]; exact hstill)⟩
    · have hstill := hconnection.trans hcurrent
      refine ⟨c, hstill, acts, payload, [], rfl, hphase, hcurrent, ?_⟩
      intro since hle
      rw [List.prefix_nil.1 hle, perform_concat]
      exact ⟨hopen, hstill⟩

/-- A client shuts down only when that was announced. -/
theorem announced (h : s.Sound) (hstart : s.client.shuttingDown = false) (acts : List Act)
    (hdown : (s.perform acts).client.shuttingDown = true) : .beginShutdown ∈ acts := by
  induction acts generalizing s with
  | nil => exact absurd (hstart.symm.trans hdown) Bool.false_ne_true
  | cons a rest ih =>
    rcases Act.divides_apply h.wired a with rfl | hdivides
    · exact List.mem_cons_self
    · exact List.mem_cons_of_mem a (ih (h.apply a) ((divides_shuttingDown hdivides).trans hstart) hdown)

/-! ## What is asked of the factory -/

/-- The connection that a transport is asked for when a feed is opened. -/
def launch (s s' : Session) (f : Feed) : List Origin :=
  if (s'.line f).generation = (s.line f).generation then [] else [⟨(s'.line f).present, f⟩]

/-- The connections that transports are asked for in a run, act for act. That the factory is asked for these and no
others is `factory_perform`. -/
def asked (s : Session) : List Act → List Origin
  | [] => []
  | a :: rest => s.launch (a.apply s) .market ++ s.launch (a.apply s) .user ++ (a.apply s).asked rest

/-- A feed is opened when its generation goes up, and then for the next connection. -/
theorem launch_eq (h : (s'.line f).frame = change.apply (s.line f).frame) :
    s.launch s' f = if change.launches then [⟨(s.line f).next, f⟩] else [] := by
  have hpresent : (s'.line f).present = (change.apply (s.line f).frame).present := (congrArg Line.present h :)
  have hgeneration : (s'.line f).generation = (change.apply (s.line f).frame).generation :=
    (congrArg Line.generation h :)
  have hnext : (s.line f).generation + 1 ≠ (s.line f).generation :=
    fun hsame => absurd (UInt32.add_eq_left.1 hsame) (by decide)
  rw [launch, hpresent, hgeneration]
  cases change with
  | launched transport => cases transport <;> exact if_neg hnext
  | _ => exact if_pos rfl

private theorem Does.factory_eq (h : Does f change s s') :
    s'.world.factory = (s.launch s' f).foldl (Factory.ask s.world.plan) s.world.factory := by
  rw [h.factory, launch_eq h.frame]
  cases change <;> rfl

/-- What will be refused is not changed by acts. -/
theorem plan_apply (h : s.Wired) (a : Act) : (a.apply s).world.plan = s.world.plan := by
  rcases Act.divides_apply h a with rfl | ⟨s₁, market, user, hmarket, huser, -⟩
  · rfl
  · exact huser.plan.trans hmarket.plan

/-- The factory is asked for the connections that the feeds are opened for. -/
theorem factory_apply (h : s.Wired) (a : Act) :
    (a.apply s).world.factory = (s.launch (a.apply s) .market ++ s.launch (a.apply s) .user).foldl
      (Factory.ask s.world.plan) s.world.factory := by
  rcases Act.divides_apply h a with rfl | ⟨s₁, market, user, hmarket, huser, -⟩
  · have hnone (f : Feed) : s.launch (Act.beginShutdown.apply s) f = [] := if_pos rfl
    rw [hnone, hnone]
    rfl
  · have hm : s.launch s₁ .market = s.launch (a.apply s) .market := by
      rw [launch, launch, huser.line .market Feed.noConfusion]
    have hu : s₁.launch (a.apply s) .user = s.launch (a.apply s) .user := by
      rw [launch, launch, hmarket.line .user Feed.noConfusion]
    rw [List.foldl_append, huser.factory_eq, hmarket.factory_eq, hmarket.plan, hm, hu]

private theorem factory_perform (h : s.Sound) (acts : List Act) :
    (s.perform acts).world.factory = (s.asked acts).foldl (Factory.ask s.world.plan) s.world.factory := by
  induction acts generalizing s with
  | nil => rfl
  | cons a rest ih =>
    rw [asked, List.foldl_append, ← factory_apply h.wired, ← plan_apply h.wired a]
    exact ih (h.apply a)

/-- An act opens a feed for its next connection, or leaves it with the one that it has. -/
theorem launch_apply (h : s.Wired) (a : Act) (f : Feed) :
    ((a.apply s).line f).slot = (s.line f).slot ∧
      (((a.apply s).line f).generation = (s.line f).generation ∧ s.launch (a.apply s) f = [] ∨
        ((a.apply s).line f).generation = (s.line f).generation + 1 ∧
          s.launch (a.apply s) f = [⟨(s.line f).next, f⟩]) := by
  rcases Act.divides_apply h a with rfl | hdivides
  · exact ⟨rfl, Or.inl ⟨rfl, if_pos rfl⟩⟩
  · obtain ⟨change, hframe, -⟩ := divides_frame hdivides f
    have hslot : ((a.apply s).line f).slot = (change.apply (s.line f).frame).slot :=
      (congrArg Line.slot hframe :)
    have hgeneration : ((a.apply s).line f).generation = (change.apply (s.line f).frame).generation :=
      (congrArg Line.generation hframe :)
    rw [hslot, hgeneration, launch_eq hframe]
    cases change with
    | launched transport => cases transport <;> exact ⟨rfl, Or.inr ⟨rfl, rfl⟩⟩
    | _ => exact ⟨rfl, Or.inl ⟨rfl, rfl⟩⟩

private theorem filter_launch (s s' : Session) (f : Feed) :
    (s.launch s' .market ++ s.launch s' .user).filter (·.feed = f) = s.launch s' f := by
  have hown (g : Feed) : (s.launch s' g).filter (·.feed = f) = if g = f then s.launch s' g else [] := by
    have hfeed : ∀ o ∈ s.launch s' g, o.feed = g := by
      intro o ho
      unfold launch at ho
      split at ho
      next => cases ho
      next => rw [List.mem_singleton.1 ho]
    split
    next hg => exact List.filter_eq_self.2 fun o ho => decide_eq_true ((hfeed o ho).trans hg)
    next hg => exact List.filter_eq_nil_iff.2 fun o ho heq => hg ((hfeed o ho).symm.trans (of_decide_eq_true heq))
  rw [List.filter_append, hown, hown]
  cases f
  · exact List.append_nil _
  · rfl

/-- For each feed the factory is asked for one generation after the other. -/
theorem exists_asked_eq (h : s.Sound) (f : Feed) {n : Nat} (hn : (s.line f).generation = .ofNat n)
    (acts : List Act) : ∃ count, (s.asked acts).filter (·.feed = f) =
      (List.range' n count).map fun k => ⟨⟨(s.line f).slot, .ofNat (k + 1)⟩, f⟩ := by
  induction acts generalizing s n with
  | nil => exact ⟨0, rfl⟩
  | cons a rest ih =>
    obtain ⟨hslot, hlaunch⟩ := launch_apply h.wired a f
    rw [asked, List.filter_append, filter_launch]
    rcases hlaunch with ⟨hgeneration, hnone⟩ | ⟨hgeneration, hsome⟩
    · obtain ⟨count, hcount⟩ := ih (h.apply a) (hgeneration.trans hn)
      exact ⟨count, by rw [hnone, hcount, hslot]; rfl⟩
    · have hnext : (s.line f).generation + 1 = .ofNat (n + 1) := by
        rw [hn, UInt32.ofNat_add]
        rfl
      obtain ⟨count, hcount⟩ := ih (h.apply a) (hgeneration.trans hnext)
      refine ⟨count + 1, ?_⟩
      rw [hsome, hcount, hslot, List.range'_succ, List.map_cons, Line.next, hnext]
      rfl

/-- The connections of a feed that transports are asked for in a run. -/
def connections (s : Session) (acts : List Act) (f : Feed) : List Connection :=
  ((s.asked acts).filter (·.feed = f)).map (·.connection)

private theorem exists_connections_eq (h : s.Sound) (f : Feed) {n : Nat} (hn : (s.line f).generation = .ofNat n)
    (acts : List Act) : ∃ count, s.connections acts f =
      (List.range' n count).map fun k => ⟨(s.line f).slot, .ofNat (k + 1)⟩ := by
  obtain ⟨count, hcount⟩ := exists_asked_eq h f hn acts
  refine ⟨count, ?_⟩
  rw [connections, hcount, List.map_map]
  rfl

/-- A generation comes again after 2³² others. -/
theorem nodup_of_infix {slot : UInt32} {n count : Nat} {window : List Connection}
    (h : window <:+: (List.range' n count).map fun k => (⟨slot, .ofNat (k + 1)⟩ : Connection))
    (hlength : window.length ≤ UInt32.size) : window.Nodup := by
  obtain ⟨k, hk, hwindow⟩ := List.infix_iff_getElem?.1 h
  rw [List.length_map, List.length_range'] at hk
  have hget (i : Nat) (hi : i < window.length) : window[i] = ⟨slot, .ofNat (n + (i + k) + 1)⟩ := by
    have hsome := hwindow i hi
    rw [List.getElem?_map, List.getElem?_range' (by omega), Option.map_some, Nat.one_mul] at hsome
    exact (Option.some.inj hsome).symm
  rw [List.nodup_iff_pairwise_ne, List.pairwise_iff_getElem]
  intro i j hi hj hij hsame
  rw [hget i hi, hget j hj] at hsame
  -- two numbers less than 2³² apart leave different remainders
  have hgeneration := congrArg (fun c => c.generation.toNat) hsame
  simp only [UInt32.toNat_ofNat'] at hgeneration
  have hsize : UInt32.size = 2 ^ 32 := rfl
  omega

/-- Each connection is the next generation of the one before. -/
theorem isChain_connections (h : s.Sound) (f : Feed) {n : Nat} (hn : (s.line f).generation = .ofNat n)
    (acts : List Act) : (s.connections acts f).IsChain fun c d => d = ⟨c.slot, c.generation + 1⟩ := by
  obtain ⟨count, hcount⟩ := exists_connections_eq h f hn acts
  rw [hcount, List.isChain_map]
  refine (List.isChain_range' n count 1).imp ?_
  rintro j k rfl
  rw [UInt32.ofNat_add]
  rfl

private theorem nodup_connections (h : s.Sound) (f : Feed) {n : Nat} (hn : (s.line f).generation = .ofNat n)
    (acts : List Act) {window : List Connection} (hwindow : window <:+: s.connections acts f)
    (hlength : window.length ≤ UInt32.size) : window.Nodup := by
  obtain ⟨count, hcount⟩ := exists_connections_eq h f hn acts
  exact nodup_of_infix (hcount ▸ hwindow) hlength

/-- Feeds with slots of their own do not share connections either. -/
theorem nodup_asked (h : s.Sound) (hn : ∀ f, (s.line f).generation = .ofNat n)
    (hslots : (s.line .market).slot ≠ (s.line .user).slot) (acts : List Act) {window : List Origin}
    (hwindow : window <:+: s.asked acts) (hlength : window.length ≤ UInt32.size) :
    (window.map (·.connection)).Nodup := by
  have hown (f : Feed) : window.Pairwise fun o d =>
      decide (o.feed = f) = true → decide (d.feed = f) = true → o.connection ≠ d.connection := by
    rw [← List.pairwise_filter, ← List.pairwise_map, ← List.nodup_iff_pairwise_ne]
    refine nodup_connections h f (hn f) acts ((hwindow.filter _).map _) ?_
    rw [List.length_map]
    exact Nat.le_trans (List.length_filter_le _ _) hlength
  have hslot : ∀ o ∈ window, o.connection.slot = (s.line o.feed).slot := by
    intro o ho
    obtain ⟨count, hcount⟩ := exists_asked_eq h o.feed (hn o.feed) acts
    have hmem : o ∈ (s.asked acts).filter (·.feed = o.feed) :=
      List.mem_filter.2 ⟨hwindow.subset ho, decide_eq_true rfl⟩
    rw [hcount] at hmem
    obtain ⟨k, -, hk⟩ := List.mem_map.1 hmem
    rw [← hk]
  rw [List.nodup_iff_pairwise_ne, List.pairwise_map]
  refine ((hown .market).and (hown .user)).imp_of_mem ?_
  rintro o d ho hd ⟨hmarket, huser⟩ hsame
  have hslots' := (hslot o ho).symm.trans ((congrArg Connection.slot hsame).trans (hslot d hd))
  cases hof : o.feed <;> cases hdf : d.feed <;> rw [hof, hdf] at hslots'
  · exact hmarket (decide_eq_true hof) (decide_eq_true hdf) hsame
  · exact hslots hslots'
  · exact hslots hslots'.symm
  · exact huser (decide_eq_true hof) (decide_eq_true hdf) hsame

/-- A new client is sound: both feeds are down. -/
theorem sound_fresh (plan : Plan) (id : Nat) (settings : Settings) (credential : Option Credential)
    (market user : UInt32) : (fresh plan id settings credential market user).Sound := by
  refine ⟨?_, ?_, ?_⟩
  · intro f i hi
    cases f <;> cases hi
  · intro f
    cases f <;> exact .down (Or.inl rfl) rfl rfl
  · intro f hclosing
    cases f <;> cases hclosing

private theorem slot_perform (h : s.Sound) (acts : List Act) (f : Feed) :
    ((s.perform acts).line f).slot = (s.line f).slot := by
  induction acts generalizing s with
  | nil => rfl
  | cons a rest ih => exact (ih (h.apply a)).trans (launch_apply h.wired a f).1

/-- What can be relied upon for a feed in any run. -/
structure Upheld (s : Session) (acts : List Act) (f : Feed) : Prop where
  linked : ((s.perform acts).line f).transport.isSome ↔ ((s.perform acts).line f).connection.isSome
  closed : ((s.perform acts).line f).phase = .closed → ((s.perform acts).line f).connection = none
  live : ((s.perform acts).line f).phase = .connecting ∨ ((s.perform acts).line f).phase = .open ∨
    ((s.perform acts).line f).phase = .closing → ((s.perform acts).line f).connection.isSome
  current : ∀ c, ((s.perform acts).line f).connection = some c →
    c = ⟨(s.line f).slot, ((s.perform acts).line f).generation⟩
  opened : ((s.perform acts).line f).phase = .open →
    ∃ c, ((s.perform acts).line f).connection = some c ∧ s.OpenSince acts f c
  closing : ((s.perform acts).line f).phase = .closing → .beginShutdown ∈ acts
  successive : (s.connections acts f).IsChain fun c d => d = ⟨c.slot, c.generation + 1⟩
  unrepeated : ∀ window, window <:+: s.connections acts f → window.length ≤ UInt32.size → window.Nodup

/-- From any sound state in which the feed is not open, a run upholds all of it. -/
theorem Sound.upheld (h : s.Sound) (hphase : (s.line f).phase ≠ .open) (hdown : s.client.shuttingDown = false)
    {n : Nat} (hn : (s.line f).generation = .ofNat n) (acts : List Act) : s.Upheld acts f := by
  have hstands := (h.perform acts).stands f
  refine ⟨hstands.linked, hstands.connection_of_closed, ?_, ?_, exists_openSince h hphase acts, ?_,
    isChain_connections h f hn acts, fun _ => nodup_connections h f hn acts⟩
  · intro hlive
    rw [hstands.connection_of_live (by rcases hlive with hlive | hlive | hlive <;> rw [hlive] <;> decide)]
    rfl
  · intro c hc
    rw [hstands.eq_present hc, Line.present, slot_perform h acts f]
  · exact fun hclosing => announced h hdown acts ((h.perform acts).closing f hclosing)

/-- In every run of a new client each feed can be relied upon, whatever its transports refuse; and if the feeds have
slots of their own, the factory is asked for a connection again only after 2³² others. -/
theorem upheld_fresh (plan : Plan) (id : Nat) (settings : Settings) (credential : Option Credential)
    (market user : UInt32) (acts : List Act) :
    (∀ f, (fresh plan id settings credential market user).Upheld acts f) ∧
      ((fresh plan id settings credential market user).perform acts).world.factory =
        ((fresh plan id settings credential market user).asked acts).foldl (Factory.ask plan) ⟨0, []⟩ ∧
      (market ≠ user → ∀ window, window <:+: (fresh plan id settings credential market user).asked acts →
        window.length ≤ UInt32.size → (window.map (·.connection)).Nodup) := by
  have hsound := sound_fresh plan id settings credential market user
  have hzero (f : Feed) : ((fresh plan id settings credential market user).line f).generation = .ofNat 0 := by
    cases f <;> rfl
  refine ⟨?_, factory_perform hsound acts, fun hslots window => nodup_asked hsound hzero hslots acts⟩
  intro f
  refine hsound.upheld ?_ rfl (hzero f) acts
  cases f <;> exact Phase.noConfusion

/-- A connection that gets no transport is used up like any other. -/
example :
    (fresh ⟨fun n => n = 0, fun _ => false, fun _ => false⟩ 0 .usual none 0 1).connections
      [.event (.subscribe [] [.status]), .event (.reconnect .market)] .market = [⟨0, 1⟩, ⟨0, 2⟩] := by
  decide +kernel

end Session

end MarketFeed.Client
