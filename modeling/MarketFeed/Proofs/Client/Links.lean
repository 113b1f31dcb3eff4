import MarketFeed.Client.Session

/-!
# Client.Links — what happens to the transports

A transport keeps its origin and its client for good, and what was sent on it only grows.
Each operation of the world is described by these views of its transports, by the
connection and the feed that a transport was created for (`World.origin?`), by the
requests that were sent on it (`World.sent`), and by the clients that the transports
belong to (`World.owners`):

- asking for a close, and a change of state, change none of them;
- a new transport comes behind those that there are, with the origin and the client it was
  asked for and no requests, even if it then refuses to open (`origin?_of_connect`,
  `sent_connect_of_none`, `mem_owners_connect`);
- sending adds one request to one transport, or none if the send is refused
  (`mem_sent_send`, `sent_send`).

So later modules never look at the list of transports itself. Whether an operation
succeeds is a matter of the plan of refusals; with the smooth plan every one does
(`connect_smooth`, `send_smooth`).

Transports are numbered in the order of their creation, and a line holds the number of the
one in use. A number is never used again, so an old transport can still report something,
or be hung up, without being taken for a new one.
-/

namespace MarketFeed.Client

namespace World

/-- The connection and the feed that a transport was created for. -/
def origin? (w : World) (i : Nat) : Option Origin := w.links[i]?.map (·.origin)

/-- The requests that were sent on a transport. -/
def sent (w : World) (i : Nat) : List Request := (w.links[i]?.map (·.sent)).getD []

variable {w : World} {i : Nat} {o : Origin}

/-- A transport with an origin is among those there are. -/
theorem lt_of_origin? (h : w.origin? i = some o) : i < w.links.length := by
  obtain ⟨l, hl, -⟩ := Option.map_eq_some_iff.1 h
  exact (List.getElem?_eq_some_iff.1 hl).1

/-- What is done to one transport leaves the others alone. -/
theorem getElem?_onLink (w : World) (i j : Nat) (f : Link → Link) :
    (w.onLink j f).links[i]? = if j = i then (w.links[i]?).map f else w.links[i]? := by
  show (w.links.modify j f)[i]? = _
  rw [List.getElem?_modify]
  by_cases hij : j = i
  · simp only [if_pos hij]
    rfl
  · simp only [if_neg hij]
    exact Option.map_id_apply

private theorem origin?_onLink {f : Link → Link} (hf : ∀ l, (f l).origin = l.origin) (w : World) (i j : Nat) :
    (w.onLink j f).origin? i = w.origin? i := by
  rw [origin?, origin?, getElem?_onLink]
  split
  · rw [Option.map_map]
    exact congrArg (fun g => (w.links[i]?).map g) (funext hf)
  · rfl

private theorem sent_onLink {f : Link → Link} (hf : ∀ l, (f l).sent = l.sent) (w : World) (i j : Nat) :
    (w.onLink j f).sent i = w.sent i := by
  rw [sent, sent, getElem?_onLink]
  split
  · rw [Option.map_map]
    exact congrArg (fun g => ((w.links[i]?).map g).getD []) (funext hf)
  · rfl

private theorem sent_onLink_of_ne {f : Link → Link} {j : Nat} (hij : j ≠ i) : (w.onLink j f).sent i = w.sent i := by
  rw [sent, sent, getElem?_onLink, if_neg hij]

/-- The client that each transport was created for. -/
def owners (w : World) : List Nat := w.links.map (·.client)

private theorem owners_onLink {f : Link → Link} (hf : ∀ l, (f l).client = l.client) (w : World) (i : Nat) :
    (w.onLink i f).owners = w.owners := by
  have hsame : Link.client ∘ f = Link.client := funext hf
  refine List.ext_getElem? fun j => ?_
  simp only [owners, List.getElem?_map, getElem?_onLink]
  split
  next => rw [Option.map_map, hsame]
  next => rfl

/-! ## Closing -/

/-- A change of state gives no transport to another client. -/
theorem owners_setStatus (w : World) (i : Nat) (status : Status) : (w.setStatus i status).owners = w.owners :=
  owners_onLink (f := fun l => { l with status }) (fun _ => rfl) w i

/-- Nor does a close that is asked for. -/
theorem owners_close (w : World) (i : Nat) : (w.close i).owners = w.owners := by
  unfold close
  split
  · rfl
  · exact owners_setStatus w i .disconnecting

/-- A change of state leaves the origins alone. -/
theorem origin?_setStatus (w : World) (i j : Nat) (status : Status) :
    (w.setStatus j status).origin? i = w.origin? i := by
  rw [setStatus, origin?_onLink]
  exact fun _ => rfl

/-- It leaves what was sent alone. -/
theorem sent_setStatus (w : World) (i j : Nat) (status : Status) : (w.setStatus j status).sent i = w.sent i := by
  rw [setStatus, sent_onLink]
  exact fun _ => rfl

/-- To ask for a close leaves the origins alone. -/
theorem origin?_close (w : World) (i j : Nat) : (w.close j).origin? i = w.origin? i := by
  unfold close
  split
  · rfl
  · exact origin?_setStatus w i j .disconnecting

/-- It leaves what was sent alone. -/
theorem sent_close (w : World) (i j : Nat) : (w.close j).sent i = w.sent i := by
  unfold close
  split
  · rfl
  · exact sent_setStatus w i j .disconnecting

/-- What will be refused is not changed by closing. -/
theorem plan_close (w : World) (j : Nat) : (w.close j).plan = w.plan := by
  unfold close
  split <;> rfl

/-! ## Opening -/

variable {client : Nat} {url : String}

/-- What will be refused is not changed by opening. -/
theorem plan_connect (w : World) (client : Nat) (o : Origin) (url : String) :
    (w.connect client o url).2.plan = w.plan := by
  simp only [connect]
  split
  · rfl
  · split <;> rfl

/-- The transports there are keep their numbers. -/
theorem getElem?_connect (hi : i < w.links.length) : ((w.connect client o url).2.links)[i]? = w.links[i]? := by
  have happend (l : Link) : (w.links ++ [l])[i]? = w.links[i]? := List.getElem?_append_left hi
  simp only [connect]
  split
  · rfl
  · split
    · exact happend _
    · rw [setStatus, getElem?_onLink, if_neg (Nat.ne_of_gt hi)]
      exact happend _

/-- The transports there are keep their origins when another is opened. -/
theorem origin?_connect {d : Origin} (h : w.origin? i = some d) :
    (w.connect client o url).2.origin? i = some d := by
  rw [origin?, getElem?_connect (lt_of_origin? h)]
  exact h

/-- They keep what was sent on them. -/
theorem sent_connect {d : Origin} (h : w.origin? i = some d) :
    (w.connect client o url).2.sent i = w.sent i := by
  rw [sent, getElem?_connect (lt_of_origin? h)]
  rfl

/-- A new transport belongs to the connection that it was asked for. -/
theorem origin?_of_connect (h : (w.connect client o url).1 = .ok i) :
    (w.connect client o url).2.origin? i = some o := by
  simp only [connect] at h ⊢
  split at h
  next => cases h
  next hcreate =>
    split at h
    next => cases h
    next hopen =>
      obtain rfl := Except.ok.inj h
      rw [if_neg hcreate, if_neg hopen]
      rw [origin?_setStatus]
      -- it is the last one, behind those that there were
      show ((w.links ++ [_])[w.links.length]?).map (·.origin) = some o
      rw [List.getElem?_append_right (Nat.le_refl _), Nat.sub_self]
      rfl

/-- Nothing has been sent on a new transport. -/
theorem sent_connect_of_none (h : w.origin? i = none) : (w.connect client o url).2.sent i = [] := by
  have hi : w.links.length ≤ i := List.getElem?_eq_none_iff.1 (Option.map_eq_none_iff.1 h)
  have hlast (status : Status) :
      (((w.links ++ [⟨client, o, url, status, []⟩])[i]?).map (·.sent)).getD [] = [] := by
    rw [List.getElem?_append_right hi]
    cases i - w.links.length <;> rfl
  simp only [connect]
  split
  · show ((w.links[i]?).map (·.sent)).getD [] = []
    rw [List.getElem?_eq_none hi]
    rfl
  · split
    · exact hlast .disconnected
    · rw [sent_setStatus]
      exact hlast .disconnected

/-- A new transport belongs to the client that asked for it. -/
theorem mem_owners_connect {k : Nat} (h : k ∈ (w.connect client o url).2.owners) : k ∈ w.owners ∨ k = client := by
  have hlast {links : List Link} {status : Status} (hlinks : links = w.links ++ [⟨client, o, url, status, []⟩])
      (hk : k ∈ links.map (·.client)) : k ∈ w.owners ∨ k = client := by
    rw [hlinks, List.map_append, List.mem_append] at hk
    exact hk.imp_right List.mem_singleton.1
  simp only [connect] at h
  split at h
  · exact Or.inl h
  · split at h
    · exact hlast rfl h
    · rw [owners_setStatus] at h
      exact hlast rfl h

/-- With nothing refused a transport is opened, with the next number. -/
theorem connect_smooth (hplan : w.plan = .smooth) (client : Nat) (o : Origin) (url : String) :
    (w.connect client o url).1 = .ok w.links.length := by
  have hcreate : w.plan.refusesCreate = fun _ => false := by rw [hplan]; rfl
  have hopen : w.plan.refusesOpen = fun _ => false := by rw [hplan]; rfl
  simp only [connect, hcreate, hopen, Bool.false_eq_true, if_false]

/-- The next number is not in use. -/
theorem origin?_length (w : World) : w.origin? w.links.length = none := by
  rw [origin?, List.getElem?_eq_none (Nat.le_refl _)]
  rfl

/-! ## Sending -/

/-- Only what is sent on a transport is added to its requests. -/
theorem mem_sent_send {j : Nat} {r d : Request} (h : d ∈ (w.send j r).2.sent i) :
    d ∈ w.sent i ∨ j = i ∧ d = r := by
  simp only [send] at h
  split at h
  next => exact Or.inl h
  next =>
    simp only at h
    by_cases hij : j = i
    · rw [sent, getElem?_onLink, if_pos hij] at h
      cases hlink : w.links[i]? with
      | none =>
        rw [hlink] at h
        cases h
      | some l =>
        rw [hlink] at h
        rcases List.mem_append.1 h with hd | hd
        · refine Or.inl ?_
          rw [sent, hlink]
          exact hd
        · exact Or.inr ⟨hij, List.mem_singleton.1 hd⟩
    · rw [sent_onLink_of_ne hij] at h
      exact Or.inl h

/-- Sending gives no transport to another client. -/
theorem owners_send (w : World) (j : Nat) (r : Request) : (w.send j r).2.owners = w.owners := by
  simp only [send]
  split
  · rfl
  · exact owners_onLink (f := fun l => { l with sent := l.sent ++ [r] }) (fun _ => rfl) { w with sends := w.sends + 1 } j

/-- What will be refused is not changed by sending. -/
theorem plan_send (w : World) (j : Nat) (r : Request) : (w.send j r).2.plan = w.plan := by
  simp only [send]
  split <;> rfl

/-- Sending leaves the origins alone. -/
theorem origin?_send (w : World) (i j : Nat) (r : Request) : (w.send j r).2.origin? i = w.origin? i := by
  simp only [send]
  split
  · rfl
  · simp only
    rw [origin?_onLink (by exact fun _ => rfl)]
    rfl

/-- What is sent on one transport is not sent on another. -/
theorem sent_send_of_ne {j : Nat} (hij : j ≠ i) (r : Request) : (w.send j r).2.sent i = w.sent i := by
  simp only [send]
  split
  · rfl
  · exact sent_onLink_of_ne (w := { w with sends := w.sends + 1 }) hij

/-- With nothing refused every request is sent. -/
theorem send_smooth (hplan : w.plan = .smooth) (i : Nat) (r : Request) : (w.send i r).1 = .ok () := by
  have hsend : w.plan.refusesSend = fun _ => false := by rw [hplan]; rfl
  simp only [send, hsend, Bool.false_eq_true, if_false]

/-- With nothing refused a request is put behind those that were sent. -/
theorem sent_send (hplan : w.plan = .smooth) (h : w.origin? i = some o) (r : Request) :
    (w.send i r).2.sent i = w.sent i ++ [r] := by
  have hsend : w.plan.refusesSend = fun _ => false := by rw [hplan]; rfl
  obtain ⟨l, hl, -⟩ := Option.map_eq_some_iff.1 h
  simp only [send, hsend, Bool.false_eq_true, if_false]
  rw [sent, sent, getElem?_onLink, if_pos rfl]
  show (((w.links[i]?).map _).map _).getD [] = _
  rw [hl]
  rfl

end World

end MarketFeed.Client
