import MarketFeed.Proofs.Client.Links

/-!
# Client.Factory — what was asked of the transports

The factory is asked for one transport after the other, each for a connection of a feed;
the plan lays down whether it makes one and whether that opens. What matters of the world
to a feed is told by two views of it:

> `World.factory`: how often the factory was asked, and the origins of the transports that
> it made, in their order.
>
> `World.traffic`: what was sent for a feed over all its connections, each request with
> its connection.

Each operation of the world is an equation for these views. Closing changes neither
(`factory_close`, `history_close`). Opening asks the factory once more (`factory_connect`,
`connect_answer`), and a connection that is new has no requests yet (`traffic_connect`).
Sending leaves the factory alone, and where nothing is refused it puts the request behind
all that was sent for the feed (`traffic_send`), provided that the transport is the last
one of its feed (`Factory.Last`); nothing is sent for the other feed by it
(`traffic_send_of_ne`).

`Client.Links` looks at one transport by its number. Here all transports of a feed are
strung together, which is what a whole run is compared by: two runs are alike for a feed
if their traffic is the same, though the transports of the other feed have shifted the
numbers.
-/

namespace MarketFeed.Client

/-- How often a factory was asked for a transport, and the origins of those that it made. -/
structure Factory where
  attempts : Nat
  origins : List Origin
deriving DecidableEq

namespace Factory

/-- The factory after one more request. -/
def ask (plan : Plan) (made : Factory) (o : Origin) : Factory :=
  ⟨made.attempts + 1, if plan.refusesCreate made.attempts then made.origins else made.origins ++ [o]⟩

/-- The number of the transport that the next request brings, if it is made and opens. -/
def answer (plan : Plan) (made : Factory) : Option Nat :=
  if plan.refusesCreate made.attempts then none
  else if plan.refusesOpen made.attempts then none
  else some made.origins.length

/-- That a transport is the last one of its feed, made for an origin. -/
def Last (made : Factory) (i : Nat) (o : Origin) : Prop :=
  ∃ before later, made.origins = before ++ o :: later ∧ before.length = i ∧ ∀ d ∈ later, d.feed ≠ o.feed

variable {plan : Plan} {made : Factory} {i : Nat} {o d : Origin}

private theorem Last.getElem? (h : made.Last i o) : made.origins[i]? = some o := by
  obtain ⟨before, later, horigins, hlength, -⟩ := h
  rw [horigins, List.getElem?_append_right (Nat.le_of_eq hlength), hlength, Nat.sub_self]
  rfl

/-- Requests for the other feed do not matter. -/
theorem Last.ask (h : made.Last i o) (hd : d.feed ≠ o.feed) : (made.ask plan d).Last i o := by
  obtain ⟨before, later, horigins, hlength, hlater⟩ := h
  unfold Factory.ask
  split
  next => exact ⟨before, later, horigins, hlength, hlater⟩
  next =>
    refine ⟨before, later ++ [d], ?_, hlength, ?_⟩
    · rw [horigins, List.append_assoc, List.cons_append]
    · intro e he
      rcases List.mem_append.1 he with he | he
      · exact hlater e he
      · rw [List.mem_singleton.1 he]
        exact hd

/-- A transport that opens is the last one. -/
theorem last_of_answer (h : made.answer plan = some i) (o : Origin) : (made.ask plan o).Last i o := by
  unfold answer at h
  split at h
  next => cases h
  next hcreate =>
    split at h
    next => cases h
    next =>
      refine ⟨made.origins, [], ?_, Option.some.inj h, fun d hd => absurd hd List.not_mem_nil⟩
      rw [Factory.ask, if_neg hcreate]

end Factory

namespace World

/-- The origin of each transport, and what was sent on it. -/
def history (w : World) : List (Origin × List Request) := w.links.map fun l => (l.origin, l.sent)

/-- What was asked of the factory. -/
def factory (w : World) : Factory := ⟨w.creations, w.history.map (·.1)⟩

/-- What was sent on a transport, if it is one of the feed. -/
def share (f : Feed) (e : Origin × List Request) : List (Connection × Request) :=
  if e.1.feed = f then e.2.map (e.1.connection, ·) else []

/-- The requests that were sent for a feed in turn, each with its connection. -/
def traffic (w : World) (f : Feed) : List (Connection × Request) := w.history.flatMap (share f)

variable {w : World} {i : Nat} {o : Origin}

private theorem origin?_eq (w : World) (i : Nat) : w.origin? i = w.factory.origins[i]? := by
  simp only [factory, history, origin?, List.getElem?_map, Option.map_map]
  rfl

/-- The traffic of a feed is read off the history. -/
theorem traffic_congr {v : World} (h : v.history = w.history) (f : Feed) : v.traffic f = w.traffic f := by
  unfold traffic
  rw [h]

private theorem history_onLink {f : Link → Link} (hf : ∀ l, ((f l).origin, (f l).sent) = (l.origin, l.sent)) (w : World)
    (i : Nat) : (w.onLink i f).history = w.history := by
  have hsame : (fun l => (l.origin, l.sent)) ∘ f = fun l => (l.origin, l.sent) := funext hf
  refine List.ext_getElem? fun j => ?_
  simp only [history, List.getElem?_map, getElem?_onLink]
  split
  next => rw [Option.map_map, hsame]
  next => rfl

/-- The states of transports are not part of the history. -/
theorem history_setStatus (w : World) (i : Nat) (status : Status) : (w.setStatus i status).history = w.history :=
  history_onLink (f := fun l => { l with status }) (fun _ => rfl) w i

/-! ## Closing and opening -/

/-- Nor is what they are asked for. -/
theorem history_close (w : World) (i : Nat) : (w.close i).history = w.history := by
  unfold close
  split
  · rfl
  · exact history_setStatus w i .disconnecting

private theorem creations_close (w : World) (i : Nat) : (w.close i).creations = w.creations := by
  unfold close
  split <;> rfl

/-- To close a transport asks nothing of the factory. -/
theorem factory_close (w : World) (i : Nat) : (w.close i).factory = w.factory := by
  rw [factory, factory, history_close, creations_close]

/-- A transport that is made is the last one, and nothing has been sent on it. -/
theorem history_connect (w : World) (client : Nat) (o : Origin) (url : String) :
    (w.connect client o url).2.history =
      if w.plan.refusesCreate w.creations then w.history else w.history ++ [(o, [])] := by
  have hlast (creations : Nat) : (World.history { w with
      creations, links := w.links ++ [⟨client, o, url, .disconnected, []⟩] }) = w.history ++ [(o, [])] :=
    List.map_append
  simp only [connect]
  split
  next => rfl
  next =>
    split
    next => exact hlast _
    next => exact (history_setStatus _ _ _).trans (hlast _)

private theorem creations_connect (w : World) (client : Nat) (o : Origin) (url : String) :
    (w.connect client o url).2.creations = w.creations + 1 := by
  simp only [connect]
  split
  next => rfl
  next => split <;> rfl

/-- To open a transport asks the factory once. -/
theorem factory_connect (w : World) (client : Nat) (o : Origin) (url : String) :
    (w.connect client o url).2.factory = w.factory.ask w.plan o := by
  rw [factory, history_connect, creations_connect, Factory.ask, factory]
  simp only
  split
  next => rfl
  next => rw [List.map_append]; rfl

/-- A transport is opened as the factory answers. -/
theorem connect_answer (w : World) (client : Nat) (o : Origin) (url : String) :
    (w.connect client o url).1.toOption = w.factory.answer w.plan := by
  have hlength : w.factory.origins.length = w.links.length := by simp only [factory, history, List.length_map]
  have hattempts : w.factory.attempts = w.creations := rfl
  rw [Factory.answer, hlength, hattempts]
  simp only [connect]
  split
  next => rfl
  next => split <;> rfl

/-- A new connection has no requests yet. -/
theorem traffic_connect (w : World) (client : Nat) (o : Origin) (url : String) (f : Feed) :
    (w.connect client o url).2.traffic f = w.traffic f := by
  have hnone : share f (o, []) = [] := by
    unfold share
    split <;> rfl
  rw [traffic, history_connect]
  split
  next => rfl
  next => rw [List.flatMap_append, List.flatMap_singleton, hnone, List.append_nil, traffic]

/-! ## Sending -/

private theorem history_send (w : World) (i : Nat) (r : Request) : (w.send i r).2.history =
    if w.plan.refusesSend w.sends then w.history else w.history.modify i fun e => (e.1, e.2 ++ [r]) := by
  simp only [send]
  split
  next => rfl
  next =>
    refine List.ext_getElem? fun j => ?_
    simp only [history, List.getElem?_map, getElem?_onLink, List.getElem?_modify]
    by_cases hij : i = j
    · simp only [if_pos hij, Option.map_eq_map, Option.map_map]
      rfl
    · simp only [if_neg hij, Option.map_eq_map, Option.map_id_fun', id_eq]

/-- To send asks nothing of the factory. -/
theorem factory_send (w : World) (i : Nat) (r : Request) : (w.send i r).2.factory = w.factory := by
  have hcreations : (w.send i r).2.creations = w.creations := by
    simp only [send]
    split <;> rfl
  rw [factory, history_send, hcreations, factory]
  split
  next => rfl
  next =>
    congr 1
    refine List.ext_getElem? fun j => ?_
    simp only [List.getElem?_map, List.getElem?_modify]
    by_cases hij : i = j
    · simp only [if_pos hij, Option.map_eq_map, Option.map_map]
      rfl
    · simp only [if_neg hij, Option.map_eq_map, Option.map_id_fun', id_eq]

private theorem exists_history_send (h : w.origin? i = some o) (r : Request) :
    ∃ before sent later, w.history = before ++ (o, sent) :: later ∧ before.length = i ∧
      (w.send i r).2.history = if w.plan.refusesSend w.sends then w.history
        else before ++ (o, sent ++ [r]) :: later := by
  have hi : i < w.history.length := by
    rw [history, List.length_map]
    exact lt_of_origin? h
  obtain ⟨before, e, later, hsplit, hlength, hmodify⟩ :=
    List.exists_of_modify (fun e : Origin × List Request => (e.1, e.2 ++ [r])) hi
  -- the entry at the number is the one with the origin
  have ho : e.1 = o := by
    rw [origin?_eq, factory, hsplit, List.map_append, List.getElem?_append_right (by simp [hlength])] at h
    simp only [List.length_map, hlength, Nat.sub_self, List.map_cons, List.getElem?_cons_zero] at h
    exact Option.some.inj h
  refine ⟨before, e.2, later, ?_, hlength, ?_⟩
  · rw [← ho]
    exact hsplit
  · rw [history_send, hmodify, ← ho]

/-- Nothing is sent for the other feed. -/
theorem traffic_send_of_ne {f : Feed} (h : w.origin? i = some o) (hf : o.feed ≠ f) (r : Request) :
    (w.send i r).2.traffic f = w.traffic f := by
  obtain ⟨before, sent, later, hsplit, -, hsend⟩ := exists_history_send h r
  rw [traffic, hsend, traffic]
  split
  next => rfl
  next =>
    rw [hsplit, List.flatMap_append, List.flatMap_append, List.flatMap_cons, List.flatMap_cons]
    simp only [share, if_neg hf]

/-- What is sent on the last transport of a feed comes behind all that was sent for the feed. -/
theorem traffic_send (hplan : w.plan = .smooth) (h : w.factory.Last i o) (r : Request) :
    (w.send i r).2.traffic o.feed = w.traffic o.feed ++ [(o.connection, r)] := by
  have ho : w.origin? i = some o := (origin?_eq w i).trans h.getElem?
  obtain ⟨earlier, after, horigins, hearlier, hafter⟩ := h
  have hgranted : ¬ w.plan.refusesSend w.sends = true := by
    rw [hplan]
    exact Bool.false_ne_true
  obtain ⟨before, sent, later, hsplit, hbefore, hsend⟩ := exists_history_send ho r
  rw [if_neg hgranted] at hsend
  have hlater : later.flatMap (share o.feed) = [] := by
    rw [factory, hsplit, List.map_append, List.map_cons] at horigins
    have hsame := (List.append_inj horigins (by rw [List.length_map, hbefore, hearlier])).2
    rw [List.cons.injEq] at hsame
    refine List.flatMap_eq_nil_iff.2 fun e he => if_neg (hafter e.1 ?_)
    rw [← hsame.2]
    exact List.mem_map_of_mem he
  rw [traffic, traffic, hsend, hsplit]
  simp only [List.flatMap_append, List.flatMap_cons, hlater, List.append_nil, share, if_true, List.map_append,
    List.map_cons, List.map_nil, List.append_assoc]

end World

end MarketFeed.Client
