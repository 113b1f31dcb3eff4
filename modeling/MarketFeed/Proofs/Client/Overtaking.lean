import Mathlib.Data.List.Infix
import MarketFeed.Proofs.Client.Sinking

/-!
# Client.Overtaking — calls that a shutdown gets ahead of

A call that may open feeds checks once that the client is running, and then goes through
the feeds, each under its lock. It does not check again, as a timer does when it goes off.
So a shutdown can begin and even end behind the check, and the call opens a feed that is
down for good (`not_rests_overtaken`).

There is no other way. Calls and a shutdown on threads of their own are a `Scene`, and
whatever some thread does next is a `Move`: a call begins or goes on with its next part,
the shutdown takes its next step, or a timer or a transport is heard. The order is free.

> `rests_iff`: a feed that was asked to close is not opened any more, and is closed
> without a connection at the end, exactly if no part of such a call is left that finds
> the feed down, or is to reconnect it (`Punctual`).
>
> `rests_of_idle`: if no call is under way when the shutdown begins, nothing is opened
> behind it, whatever is called later.

Each move is an act or a step of the shutdown (`Scene.step_cases`), so what `Client.Acts`
and `Client.Sinking` say of acts carries over: a feed that is shut sinks unless it is
launched, and only a part of a call launches it (`Orderly.quiet_iff`). What holds of every
scene is that its session is sound and that the steps of the shutdown come in their order
(`Orderly`).
-/

namespace MarketFeed.Client

/-! ## Calls in parts -/

/-- A part of a call that may open a feed, under the lock of this feed. -/
inductive Part where
  | subscribing (products : List Product) (channels : List Channel) (f : Feed)
  | reconnecting (f : Feed)

/-- A call that may open feeds. -/
inductive Call where
  | subscribe (products : List Product) (channels : List Channel)
  | reconnect (f : Feed)

namespace Part

def feed : Part → Feed
  | subscribing _ _ f => f
  | reconnecting f => f

def run : Part → Session → Session.Result
  | subscribing products channels f => Session.subscribeLine products channels f
  | reconnecting f => Session.reconnectLine f

/-- The rest of a call, if nothing comes in between. -/
def runAll : List Part → Session → Session.Result
  | [], s => (.ok (), s)
  | p :: rest, s => Session.andThen (p.run s) (runAll rest)

/-- When a part opens its feed. -/
def Opens (s : Session) : Part → Prop
  | subscribing _ channels f =>
    Session.owned f channels ≠ [] ∧ ((s.line f).phase = .closed ∨ (s.line f).phase = .errored)
  | reconnecting _ => True

end Part

namespace Call

/-- What a call does behind its check. -/
def parts : Call → List Part
  | subscribe products channels => [.subscribing products channels .market, .subscribing products channels .user]
  | reconnect f => [.reconnecting f]

def run : Call → Session → Session.Result
  | subscribe products channels => Session.subscribe products channels
  | reconnect f => Session.reconnect f

/-- A call that nothing comes in between of is its check and its parts. -/
theorem run_eq (c : Call) (s : Session) : c.run s = Session.andThen s.ensureRunning (Part.runAll c.parts) := by
  have hall (r : Session.Result) : Session.andThen r (fun s => (.ok (), s)) = r := by
    obtain ⟨result, s'⟩ := r
    cases result <;> rfl
  cases c with
  | subscribe products channels =>
    refine congrArg (Session.andThen s.ensureRunning) (funext fun s₁ => ?_)
    refine congrArg (Session.andThen (Session.subscribeLine products channels .market s₁)) (funext fun s₂ => ?_)
    exact (hall _).symm
  | reconnect f => exact congrArg (Session.andThen s.ensureRunning) (funext fun s₁ => (hall _).symm)

end Call

/-- A step of a shutdown. -/
inductive Halt where
  | announce
  | shut (f : Feed)
  | settle (f : Feed)
  | stopLog
deriving DecidableEq

namespace Halt

def act : Halt → Act
  | announce => .beginShutdown
  | shut f => .shut f
  | settle f => .settle f
  | stopLog => .stopLog

/-- The steps of a shutdown in order: both feeds are asked to close before either is waited for. -/
def all : List Halt := [announce, shut .market, shut .user, settle .market, settle .user, stopLog]

end Halt

/-! ## Threads -/

/-- A client with calls and a shutdown on threads of their own. -/
structure Scene where
  session : Session
  /-- What is left of each call. -/
  calls : List (List Part)
  /-- What is left of the shutdown. -/
  halts : List Halt

/-- What some thread does next. -/
inductive Move where
  /-- A call begins with its check. -/
  | call (c : Call)
  /-- A call goes on with its next part; one that failed has nothing left. -/
  | part (number : Nat)
  | halt
  /-- Something happens in one piece, such as a timer that goes off or what a transport reports. -/
  | event (e : Event)

namespace Scene

def step (sc : Scene) : Move → Scene
  | .call c =>
    match sc.session.ensureRunning.1 with
    | .ok () => { sc with calls := sc.calls ++ [c.parts] }
    | .error _ => sc
  | .part k =>
    match sc.calls[k]? with
    | some (p :: rest) =>
      let (result, session) := p.run sc.session
      { sc with session, calls := sc.calls.set k (if result.isOk then rest else []) }
    | _ => sc
  | .halt =>
    match sc.halts with
    | h :: rest => { sc with session := h.act.apply sc.session, halts := rest }
    | [] => sc
  | .event e => { sc with session := e.apply sc.session }

def run (sc : Scene) (moves : List Move) : Scene := moves.foldl step sc

/-- A client that was just created, before any call and before the shutdown. -/
def fresh (plan : Plan) (id : Nat) (settings : Settings) (credential : Option Credential) (market user : UInt32) :
    Scene :=
  ⟨.fresh plan id settings credential market user, [], Halt.all⟩

/-- That a feed was asked to close, or found down. -/
def Shut (sc : Scene) (f : Feed) : Prop := .shut f ∉ sc.halts

/-- That the wait for a feed has ended. -/
def Settled (sc : Scene) (f : Feed) : Prop := .settle f ∉ sc.halts

/-- That no call is under way. -/
def Idle (sc : Scene) : Prop := ∀ parts ∈ sc.calls, parts = []

instance (sc : Scene) : Decidable sc.Idle := inferInstanceAs (Decidable (∀ parts ∈ sc.calls, parts = []))

/-- That a move asks for no transport for a feed that is shut. -/
def Quiet (sc : Scene) (m : Move) : Prop := ∀ f, sc.Shut f → sc.session.launch (sc.step m).session f = []

/-- That no move of a run does. -/
def Quietly : Scene → List Move → Prop
  | _, [] => True
  | sc, m :: rest => sc.Quiet m ∧ (sc.step m).Quietly rest

/-- That nothing is opened behind the shutdown: no feed that is shut is opened, and when the shutdown and all calls have
ended, both feeds are closed and have no connection. -/
structure Rests (sc : Scene) (moves : List Move) : Prop where
  quietly : sc.Quietly moves
  down : (sc.run moves).halts = [] → (sc.run moves).Idle →
    ∀ f, ((sc.run moves).session.line f).phase = .closed ∧ ((sc.run moves).session.line f).connection = none

/-- That a move is no part of a call which opens a feed that is shut. -/
def InTime (sc : Scene) : Move → Prop
  | .part k => ∀ p rest, sc.calls[k]? = some (p :: rest) → sc.Shut p.feed → ¬ p.Opens sc.session
  | _ => True

def Punctual : Scene → List Move → Prop
  | _, [] => True
  | sc, m :: rest => sc.InTime m ∧ (sc.step m).Punctual rest

end Scene

/-! ## What opens a feed -/

/-- No step of a shutdown opens a feed. -/
theorem Halt.steady {s : Session} (h : s.Wired) (halt : Halt) : s.Steady (halt.act.apply s) := by
  cases halt with
  | announce => exact fun f => by cases f <;> rfl
  | shut f =>
    simp only [act, Act.apply]
    split
    · exact Session.steady_shutLine f s
    · exact fun _ => rfl
  | settle f =>
    simp only [act, Act.apply]
    split
    · exact Session.steady_settleLine f s
    · exact fun _ => rfl
  | stopLog => exact (Session.does_stopLog (f := .market) h).steady

namespace Part

variable {s : Session}

/-- A part of a call as an act. -/
def act : Part → Act
  | subscribing products channels f => .subscribing products channels f
  | reconnecting f => .reconnecting f

private theorem apply_act (p : Part) (s : Session) : p.act.apply s = (p.run s).2 := by
  cases p <;> rfl

private theorem exists_does_run (h : s.Wired) (p : Part) :
    ∃ change : Change, Session.Does p.feed change s (p.run s).2 ∧ (change.launches = true ↔ p.Opens s) := by
  cases p with
  | reconnecting f => exact ⟨_, Session.does_reconnectLine h, fun _ => trivial, fun _ => rfl⟩
  | subscribing products channels f =>
    show ∃ change : Change, Session.Does f change s (Session.subscribeLine products channels f s).2 ∧
      (change.launches = true ↔ Session.owned f channels ≠ [] ∧ _)
    unfold Session.subscribeLine
    split
    next hnone => exact ⟨.kept, Session.does_kept h, fun h => Bool.noConfusion h, fun hopens => absurd hnone hopens.1⟩
    next mine hsome =>
      simp only
      generalize hs : s.onSubscriptions f _ = s'
      have hset : Session.Does f .kept s s' := hs ▸ Session.does_onSubscriptions h _
      have hframe : (s'.line f).frame = (s.line f).frame := hset.frame
      have hphase : (s'.line f).phase = (s.line f).phase := (congrArg Line.phase hframe :)
      -- recording the subscriptions comes first and does not change the state that decides
      have hopens : (subscribing products channels f).Opens s ↔
          (s'.line f).phase = .closed ∨ (s'.line f).phase = .errored := by
        rw [hphase]
        exact and_iff_right hsome
      have hkept {s'' : Session} (hsent : Session.Does f .kept s' s'')
          (hup : ¬ ((s'.line f).phase = .closed ∨ (s'.line f).phase = .errored)) :
          ∃ change : Change, Session.Does f change s s'' ∧
            (change.launches = true ↔ (subscribing products channels f).Opens s) :=
        ⟨.kept, hset.after_kept hsent, fun h => Bool.noConfusion h, fun h => absurd (hopens.1 h) hup⟩
      have hopened := hset.after_kept (Session.does_openLine hset.wired)
      split
      next hopen => exact hkept (Session.does_sendEach hset.wired _ _ _) (by rw [hopen]; decide)
      next hconnecting => exact hkept (Session.does_kept hset.wired) (by rw [hconnecting]; decide)
      next hclosing => exact hkept (Session.does_kept hset.wired) (by rw [hclosing]; decide)
      next hclosed => exact ⟨_, hopened, fun _ => hopens.2 (Or.inl hclosed), fun _ => rfl⟩
      next herrored => exact ⟨_, hopened, fun _ => hopens.2 (Or.inr herrored), fun _ => rfl⟩

/-- A part asks for a transport exactly if it opens its feed. -/
theorem launch_run_iff (h : s.Wired) (p : Part) (f : Feed) :
    s.launch (p.run s).2 f = [] ↔ ¬ (f = p.feed ∧ p.Opens s) := by
  obtain ⟨change, hdoes, hopens⟩ := p.exists_does_run h
  rw [hdoes.launch f, ← hopens]
  split
  next hboth => exact ⟨fun hnil => absurd hnil (List.cons_ne_nil _ _), fun hnot => absurd hboth hnot⟩
  next hnot => exact ⟨fun _ => hnot, fun _ => rfl⟩

end Part

/-! ## Moves -/

namespace Halt

variable {halts : List Halt}

private theorem mem_all (halt : Halt) : halt ∈ all := by
  cases halt with
  | announce => decide
  | shut f => cases f <;> decide
  | settle f => cases f <;> decide
  | stopLog => decide

/-- The steps of a shutdown come in order. -/
theorem order (h : halts <:+ all) (f : Feed) :
    (shut f ∉ halts → announce ∉ halts) ∧ (settle f ∉ halts → shut f ∉ halts) := by
  have hall : ∀ halts ∈ all.tails,
      (shut f ∉ halts → announce ∉ halts) ∧ (settle f ∉ halts → shut f ∉ halts) := by
    cases f <;> decide
  exact hall halts ((List.mem_tails halts all).2 h)

/-- A step that has been made is not left. -/
theorem not_mem_rest {halt : Halt} (h : halt :: halts <:+ all) : halt ∉ halts :=
  (List.nodup_cons.1 (h.sublist.nodup (by decide))).1

end Halt

namespace Scene

variable {sc : Scene} {m : Move} {f : Feed}

/-- What a move can do: nothing to the session, an act that leaves the shutdown where it is, or its next step. -/
theorem step_cases (sc : Scene) (m : Move) :
    ((sc.step m).session = sc.session ∧ (sc.step m).halts = sc.halts) ∨
      (∃ a : Act, a ≠ .beginShutdown ∧ (sc.step m).session = a.apply sc.session ∧ (sc.step m).halts = sc.halts) ∨
      ∃ h rest, sc.halts = h :: rest ∧ (sc.step m).session = h.act.apply sc.session ∧ (sc.step m).halts = rest := by
  cases m with
  | call c =>
    refine Or.inl ?_
    unfold step
    simp only
    split <;> exact ⟨rfl, rfl⟩
  | part k =>
    unfold step
    simp only
    split
    next p rest _ =>
      refine Or.inr (Or.inl ⟨p.act, ?_, (p.apply_act sc.session).symm, rfl⟩)
      cases p <;> exact Act.noConfusion
    next => exact Or.inl ⟨rfl, rfl⟩
  | halt =>
    unfold step
    simp only
    split
    next h rest hhalts => exact Or.inr (Or.inr ⟨h, rest, hhalts, rfl, rfl⟩)
    next => exact Or.inl ⟨rfl, rfl⟩
  | event e => exact Or.inr (Or.inl ⟨.event e, Act.noConfusion, rfl, rfl⟩)

/-- A step of the shutdown that is not left was made before the move, or is the move. -/
theorem gone_step {halt : Halt} (h : halt ∉ (sc.step m).halts) :
    halt ∉ sc.halts ∨ sc.halts = halt :: (sc.step m).halts ∧ (sc.step m).session = halt.act.apply sc.session := by
  rcases sc.step_cases m with ⟨-, hhalts⟩ | ⟨-, -, -, hhalts⟩ | ⟨head, rest, hhead, hsession, hhalts⟩
  · exact Or.inl (hhalts ▸ h)
  · exact Or.inl (hhalts ▸ h)
  · by_cases hsame : halt = head
    · subst hsame
      exact Or.inr ⟨hhalts ▸ hhead, hsession⟩
    · refine Or.inl fun hmem => ?_
      rw [hhead, List.mem_cons] at hmem
      exact hmem.elim hsame (hhalts ▸ h)

/-- What holds of every client whatever its threads do. -/
structure Orderly (sc : Scene) : Prop where
  sound : sc.session.Sound
  halts : sc.halts <:+ Halt.all
  announced : .announce ∉ sc.halts ↔ sc.session.client.shuttingDown = true

/-- A new client is in order. -/
theorem orderly_fresh (plan : Plan) (id : Nat) (settings : Settings) (credential : Option Credential)
    (market user : UInt32) : (fresh plan id settings credential market user).Orderly where
  sound := Session.sound_fresh plan id settings credential market user
  halts := List.suffix_refl _
  announced := by
    refine ⟨fun hannounced => absurd ?_ hannounced, fun hdown => Bool.noConfusion hdown⟩
    exact List.mem_cons_self

/-- The step: whatever a thread does, the client stays in order. -/
theorem Orderly.step (h : sc.Orderly) (m : Move) : (sc.step m).Orderly := by
  have hannounced := h.announced
  rcases sc.step_cases m with ⟨hsession, hhalts⟩ | ⟨a, ha, hsession, hhalts⟩ | ⟨halt, rest, hhead, hsession, hhalts⟩
  · exact ⟨hsession ▸ h.sound, hhalts ▸ h.halts, by rw [hsession, hhalts, hannounced]⟩
  · have hdown := Session.shuttingDown_of_ne h.sound.wired ha
    exact ⟨hsession ▸ h.sound.apply a, hhalts ▸ h.halts, by rw [hsession, hhalts, hdown, hannounced]⟩
  · have hleft : halt :: rest <:+ Halt.all := hhead ▸ h.halts
    refine ⟨hsession ▸ h.sound.apply halt.act, hhalts ▸ (List.suffix_cons halt rest).trans hleft, ?_⟩
    rw [hsession, hhalts]
    by_cases hfirst : halt = .announce
    · subst hfirst
      exact ⟨fun _ => rfl, fun _ => Halt.not_mem_rest hleft⟩
    · have hact : halt.act ≠ .beginShutdown := by cases halt <;> first | exact Act.noConfusion | exact absurd rfl hfirst
      rw [Session.shuttingDown_of_ne h.sound.wired hact, ← hannounced, hhead, List.mem_cons]
      exact ⟨fun hrest hmem => hmem.elim (Ne.symm hfirst) hrest, fun hall hrest => hall (Or.inr hrest)⟩

/-- A feed that is shut is shut in a shutdown. -/
theorem Orderly.down (h : sc.Orderly) (hshut : sc.Shut f) : sc.session.client.shuttingDown = true :=
  h.announced.1 ((Halt.order h.halts f).1 hshut)

private theorem Orderly.shut_of_settled (h : sc.Orderly) (hsettled : sc.Settled f) : sc.Shut f :=
  (Halt.order h.halts f).2 hsettled

/-- So it does in every run. -/
theorem Orderly.run (h : sc.Orderly) (moves : List Move) : (sc.run moves).Orderly := by
  induction moves generalizing sc with
  | nil => exact h
  | cons m rest ih => exact ih (h.step m)

/-! ## What opens a feed too late -/

/-- Only a part of a call opens a feed that is shut. -/
theorem Orderly.quiet_iff (h : sc.Orderly) (m : Move) : sc.Quiet m ↔ sc.InTime m := by
  have hsteady {s : Session} (hs : sc.session.Steady s) : ∀ f, sc.Shut f → sc.session.launch s f = [] :=
    fun f _ => hs.launch f
  cases m with
  | call c =>
    refine ⟨fun _ => trivial, fun _ => hsteady ?_⟩
    simp only [Scene.step]
    split <;> exact fun _ => rfl
  | event e => exact ⟨fun _ => trivial, fun _ f hshut => (Session.steady_event h.sound.wired (h.down hshut) e).launch f⟩
  | halt =>
    refine ⟨fun _ => trivial, fun _ => hsteady ?_⟩
    simp only [Scene.step]
    split
    next halt rest _ => exact halt.steady h.sound.wired
    next => exact fun _ => rfl
  | part k =>
    -- a part of a call does not ask again whether there is a shutdown, so it opens whatever is down
    simp only [Quiet, InTime, Scene.step]
    split
    next p rest hp =>
      simp only [p.launch_run_iff h.sound.wired]
      constructor
      · intro hquiet q rest' hq hshut hopens
        rw [hp] at hq
        cases hq
        exact hquiet p.feed hshut ⟨rfl, hopens⟩
      · rintro htime f hshut ⟨rfl, hopens⟩
        exact htime p rest hp hshut hopens
    next hnone => exact ⟨fun _ p rest hp => absurd hp (hnone p rest), fun _ => hsteady fun _ => rfl⟩

/-- A run opens no feed that is shut exactly if its calls are in time. -/
theorem Orderly.quietly_iff (h : sc.Orderly) (moves : List Move) : sc.Quietly moves ↔ sc.Punctual moves := by
  induction moves generalizing sc with
  | nil => exact Iff.rfl
  | cons m rest ih => exact and_congr (h.quiet_iff m) (ih (h.step m))

/-! ## What becomes of the feeds -/

/-- That a feed which is shut is on its way down, and closed when the wait for it has ended. -/
structure Sunk (sc : Scene) : Prop where
  sinks : ∀ f, sc.Shut f → sc.session.Sinks f
  closed : ∀ f, sc.Settled f → (sc.session.line f).phase = .closed

private theorem Orderly.lowers_step (h : sc.Orderly) (hquiet : sc.Quiet m) (hshut : sc.Shut f) :
    Session.Lowers f sc.session (sc.step m).session := by
  have hlaunch := hquiet f hshut
  rcases sc.step_cases m with ⟨hsession, -⟩ | ⟨a, -, hsession, -⟩ | ⟨halt, -, -, hsession, -⟩
  · exact Session.lowers_of_line (by rw [hsession])
  · rw [hsession] at hlaunch ⊢
    exact Session.lowers_apply h.sound a hlaunch
  · rw [hsession] at hlaunch ⊢
    exact Session.lowers_apply h.sound halt.act hlaunch

/-- A move that opens no feed which is shut keeps it so. -/
theorem Sunk.step (h : sc.Sunk) (horderly : sc.Orderly) (hquiet : sc.Quiet m) : (sc.step m).Sunk := by
  have hafter := horderly.step m
  refine ⟨fun f hshut => ?_, fun f hsettled => ?_⟩
  · rcases gone_step hshut with hbefore | ⟨-, hsession⟩
    · exact (horderly.lowers_step hquiet hbefore).1 (h.sinks f hbefore)
    · have hdown := hafter.down hshut
      rw [hsession, Session.shuttingDown_of_ne horderly.sound.wired Act.noConfusion] at hdown
      rw [hsession]
      simp only [Halt.act, Act.apply, hdown, if_true]
      exact Session.sinks_shutLine f sc.session
  · rcases gone_step hsettled with hbefore | ⟨hhead, hsession⟩
    · exact (horderly.lowers_step hquiet (horderly.shut_of_settled hbefore)).2 (h.closed f hbefore)
    · have hshut : sc.Shut f := by
        rw [Shut, hhead, List.mem_cons]
        exact fun hmem => hmem.elim Halt.noConfusion (hafter.shut_of_settled hsettled)
      rw [hsession]
      simp only [Halt.act, Act.apply, horderly.down hshut, if_true]
      exact Session.closed_settleLine horderly.sound (h.sinks f hshut)

/-- Nor does a run that opens no feed which is shut. -/
theorem Sunk.run (h : sc.Sunk) (horderly : sc.Orderly) {moves : List Move} (hquiet : sc.Quietly moves) :
    (sc.run moves).Sunk := by
  induction moves generalizing sc with
  | nil => exact h
  | cons m rest ih => exact ih (h.step horderly hquiet.1) (horderly.step m) hquiet.2

private theorem sunk_fresh (plan : Plan) (id : Nat) (settings : Settings) (credential : Option Credential)
    (market user : UInt32) : (fresh plan id settings credential market user).Sunk := by
  exact ⟨fun f hshut => absurd (Halt.mem_all (.shut f)) hshut, fun f hsettled => absurd (Halt.mem_all (.settle f)) hsettled⟩

/-- Whatever calls, timers, transports and a shutdown do on threads of their own: no feed is opened behind the step of
the shutdown for it, and both are closed without a connection at the end, exactly if no part of a call that was checked
before the shutdown finds such a feed down, or is to reconnect it. -/
theorem rests_iff (plan : Plan) (id : Nat) (settings : Settings) (credential : Option Credential)
    (market user : UInt32) (moves : List Move) :
    (fresh plan id settings credential market user).Rests moves ↔
      (fresh plan id settings credential market user).Punctual moves := by
  have horderly := orderly_fresh plan id settings credential market user
  have hsunk := sunk_fresh plan id settings credential market user
  rw [← horderly.quietly_iff]
  refine ⟨Rests.quietly, fun hquiet => ⟨hquiet, fun hhalts _ f => ?_⟩⟩
  have hclosed := (hsunk.run horderly hquiet).closed f (by rw [Settled, hhalts]; exact List.not_mem_nil)
  exact ⟨hclosed, ((horderly.run moves).sound.stands f).connection_of_closed hclosed⟩

/-- A call that was checked before the shutdown opens the market feed when the shutdown has ended. -/
def overtaken : List Move :=
  [.call (.subscribe [] [.level2]), .halt, .halt, .halt, .halt, .halt, .halt, .part 0, .part 0]

/-- The market feed is on its way again, with the shutdown and the call both at their end. -/
theorem not_rests_overtaken :
    let start := fresh .smooth 0 .usual none 0 1
    let last := start.run overtaken
    ¬ start.Rests overtaken ∧ last.halts = [] ∧ last.Idle ∧
      (last.session.line .market).phase = .connecting ∧ (last.session.line .market).connection = some ⟨0, 1⟩ := by
  intro start last
  have hlast : last.halts = [] ∧ last.Idle ∧ (last.session.line .market).phase = .connecting ∧
      (last.session.line .market).connection = some ⟨0, 1⟩ := by decide +kernel
  refine ⟨fun hrests => ?_, hlast⟩
  obtain ⟨hhalts, hidle, hconnecting, -⟩ := hlast
  have hclosed := (hrests.down hhalts hidle .market).1
  rw [hconnecting] at hclosed
  cases hclosed

/-! ## Shutdowns without calls under way -/

/-- A move leaves the shutdown where it is, or takes it one step on. -/
theorem halts_step (sc : Scene) (m : Move) : (sc.step m).halts <:+ sc.halts := by
  rcases sc.step_cases m with ⟨-, hhalts⟩ | ⟨-, -, -, hhalts⟩ | ⟨head, rest, hhead, -, hhalts⟩
  · rw [hhalts]
  · rw [hhalts]
  · rw [hhead, hhalts]
    exact List.suffix_cons head rest

private theorem halts_run (sc : Scene) (moves : List Move) : (sc.run moves).halts <:+ sc.halts := by
  induction moves generalizing sc with
  | nil => exact List.suffix_refl _
  | cons m rest ih => exact (ih (sc.step m)).trans (sc.halts_step m)

private theorem punctual_append (before after : List Move) :
    sc.Punctual (before ++ after) ↔ sc.Punctual before ∧ (sc.run before).Punctual after := by
  induction before generalizing sc with
  | nil => exact (iff_of_eq (true_and _)).symm
  | cons m rest ih => exact (and_congr_right fun _ => ih).trans and_assoc.symm

/-- Before the shutdown begins, every call is in time. -/
theorem Orderly.punctual_before (h : sc.Orderly) {moves : List Move} (hhalts : (sc.run moves).halts = Halt.all) :
    sc.Punctual moves := by
  induction moves generalizing sc with
  | nil => trivial
  | cons m rest ih =>
    have hall : sc.halts = Halt.all := h.halts.eq_of_length_le (hhalts ▸ (sc.halts_run (m :: rest)).length_le)
    refine ⟨?_, ih (h.step m) hhalts⟩
    cases m with
    | part k => exact fun p _ _ hshut => absurd (hall ▸ Halt.mem_all (.shut p.feed)) hshut
    | _ => trivial

/-- While the client is shutting down, no call gets under way. -/
theorem Orderly.idle_step (h : sc.Orderly) (hdown : sc.session.client.shuttingDown = true) (hidle : sc.Idle)
    (m : Move) :
    (sc.step m).session.client.shuttingDown = true ∧ (sc.step m).Idle := by
  have hannounced := h.announced.2 hdown
  refine ⟨(h.step m).announced.1 fun hmem => hannounced ((sc.halts_step m).subset hmem), ?_⟩
  cases m with
  | call c =>
    simp only [Scene.step, Session.ensureRunning, hdown, if_true]
    exact hidle
  | part k =>
    simp only [Scene.step]
    split
    next p rest hp => exact absurd (hidle _ (List.mem_of_getElem? hp)) (List.cons_ne_nil p rest)
    next => exact hidle
  | halt =>
    simp only [Scene.step]
    split <;> exact hidle
  | event e => exact hidle

/-- With no call under way, none will be, and so every run is in time. -/
theorem Orderly.punctual_of_idle (h : sc.Orderly) (hdown : sc.session.client.shuttingDown = true) (hidle : sc.Idle)
    (moves : List Move) : sc.Punctual moves := by
  induction moves generalizing sc with
  | nil => trivial
  | cons m rest ih =>
    obtain ⟨hdown', hidle'⟩ := h.idle_step hdown hidle m
    refine ⟨?_, ih (h.step m) hdown' hidle'⟩
    cases m with
    | part k => exact fun p rest hp => absurd (hidle _ (List.mem_of_getElem? hp)) (List.cons_ne_nil p rest)
    | _ => trivial

/-- If no call is under way when the shutdown begins, nothing is opened behind it, whatever is called later. -/
theorem rests_of_idle (plan : Plan) (id : Nat) (settings : Settings) (credential : Option Credential)
    (market user : UInt32) {before : List Move}
    (hbegins : ((fresh plan id settings credential market user).run before).halts = Halt.all)
    (hidle : ((fresh plan id settings credential market user).run before).Idle) (after : List Move) :
    (fresh plan id settings credential market user).Rests (before ++ .halt :: after) := by
  have horderly := orderly_fresh plan id settings credential market user
  have hnow := horderly.run before
  refine (rests_iff plan id settings credential market user _).2 ((punctual_append before _).2 ?_)
  have hdown : (((fresh plan id settings credential market user).run before).step .halt).session.client.shuttingDown =
      true := by
    simp only [step, hbegins, Halt.all]
    rfl
  have hstill : (((fresh plan id settings credential market user).run before).step .halt).Idle := by
    simp only [step, hbegins, Halt.all]
    exact hidle
  exact ⟨horderly.punctual_before hbegins, trivial, (hnow.step .halt).punctual_of_idle hdown hstill after⟩

end Scene

end MarketFeed.Client
