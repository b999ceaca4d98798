import AgentControl.Races

/-!
# Status Events in a Deployment of Several Processes

Several server processes share the store and the `agent_events` channel; each has its own
registry of observers. A control request publishes its `*_requested` (or
`canary_promoted`) event on `agent_events`, which every observer's relay forwards, but it
sends `agent_status_changed` and `agent_config_updated` only through
`broadcast_websocket_message`, to the registry of the process serving the request. An
observer connected to another process never receives them.

The proof is an invariant of the whole deployment (`Sys.Inv`), kept by every step of every
coroutine:

* every coroutine's remaining code publishes no status event on `agent_events`, sends
  none on its own websocket, and subscribes only to `agent_events` (`Task.Local`);
* the channel and every subscription queue hold no status event;
* every registry entry, and every send a broadcast has in flight, is a websocket served by
  a coroutine of the registry's process;
* every status event in an inbox was sent by a thread of a process serving that inbox.

## Main results

* `Request.route_local`, `websocketAgentEvents_local`: the footprints of the routes.
* `Sys.Inv.step`: one step of any coroutine keeps the invariant.
* `statusEvents_stay_in_process`: **in every run of every deployment, no status event is
  published on `agent_events`, and an observer receives status events only from its own
  process.**
* `remote_observer_misses_status`: an observer of another process misses a `pause`.
-/

namespace AgentControl

/-! ### Status events -/

/-- The `type` of a message, when it is a document whose `type` is a string. -/
def JVal.eventType : JVal → Option String
  | .obj d => match Dict.get? d "type" with
    | some (.str t) => some t
    | _ => none
  | _ => none

/-- The events a control request sends only through `broadcast_websocket_message`. -/
def IsStatusEvent (m : JVal) : Prop :=
  m.eventType = some "agent_status_changed" ∨ m.eventType = some "agent_config_updated"

instance (m : JVal) : Decidable (IsStatusEvent m) := inferInstanceAs (Decidable (_ ∨ _))

/-- A payload of the channel that decodes to a status event. -/
def Bytes.CarriesStatus (p : Bytes) : Prop := ∃ m, p.loads = .ok m ∧ IsStatusEvent m

theorem Dict.get?_update_of_forall_ne {d data : Dict} {k : String} (h : ∀ e ∈ data, e.1 ≠ k) :
    (d.update data).get? k = d.get? k := by
  induction data generalizing d with
  | nil => rfl
  | cons e data ih =>
    rw [List.forall_mem_cons] at h
    exact (ih (d := Dict.set d e.1 e.2) h.2).trans (Dict.get?_set_of_ne d e.2 h.1)

theorem eventType_agentEvent {eventType agentId : String} {data : Dict} {t : ℕ}
    (hd : ∀ e ∈ data, e.1 ≠ "type") :
    (agentEvent eventType agentId data t).eventType = some eventType := by
  simp only [agentEvent]
  split <;> simp [JVal.eventType, Dict.get?_update_of_forall_ne hd, Dict.get?_cons]

/-- An event of `publish_agent_event` is a status event only by its type. -/
theorem not_carriesStatus_agentEvent {eventType agentId : String} {data : Dict} {t : ℕ}
    (he : eventType ≠ "agent_status_changed" ∧ eventType ≠ "agent_config_updated")
    (hd : ∀ e ∈ data, e.1 ≠ "type") :
    ¬ (Bytes.dumps (agentEvent eventType agentId data t)).CarriesStatus := by
  rintro ⟨m, hm, hs⟩
  rw [Bytes.loads_dumps, Except.ok.injEq] at hm
  subst hm
  rw [IsStatusEvent, eventType_agentEvent hd, Option.some.injEq, Option.some.injEq] at hs
  exact hs.elim he.1 he.2

theorem not_isStatusEvent_errorNotice (e : PyErr) : ¬ IsStatusEvent (errorNotice e) := by
  simp [IsStatusEvent, errorNotice, JVal.eventType, Dict.get?_cons]

theorem not_isStatusEvent_connectionEstablished (clientId : ℕ) :
    ¬ IsStatusEvent (connectionEstablished clientId) := by
  simp [IsStatusEvent, connectionEstablished, JVal.eventType, Dict.get?_cons]

/-- The relay forwards a status event only if its subscription delivered one. -/
theorem not_isStatusEvent_relayDecode {p : Bytes} (h : ¬ p.CarriesStatus) :
    ¬ IsStatusEvent (relayDecode p).1 ∧ ∀ n ∈ (relayDecode p).2, ¬ IsStatusEvent n := by
  unfold relayDecode
  split
  · next m hm => exact ⟨fun hs => h ⟨m, hm, hs⟩, by simp [not_isStatusEvent_errorNotice]⟩
  · exact ⟨not_isStatusEvent_errorNotice _, by simp⟩

/-! ### Footprints of the routes -/

/-- An effect that publishes no status event on `agent_events`, sends none on the
coroutine's own websocket, and subscribes only to `agent_events`. -/
def Op.Local : Op → Prop
  | .publish channel payload => channel = agentEvents → ¬ payload.CarriesStatus
  | .subscribe channel => channel = agentEvents
  | .sendJson message => ¬ IsStatusEvent message
  | _ => True

theorem Op.Reads.local {o : Op} (h : o.Reads) : o.Local := by
  cases o <;> trivial

theorem lifecycleCommand_local {event command state reply agentId : String}
    (he : event ≠ "agent_status_changed" ∧ event ≠ "agent_config_updated") :
    (lifecycleCommand event command state reply agentId).All Op.Local fun _ => True := by
  simp only [lifecycleCommand, publishAgentEvent, Prog.bind_def, Prog.bind_assoc,
    Prog.redisExists, Prog.redisPublish, Prog.redisSet, Prog.now, Prog.pure_def]
  repeat' first
    | exact .pure _
    | exact .raise _
    | refine Prog.all_call_bind ?_ fun _ => ?_
    | refine Prog.all_broadcast_bind trivial fun _ => ?_
    | split
    | exact fun _ => not_carriesStatus_agentEvent he (by simp)
    | exact fun h => absurd h (agentKey_ne_agentEvents _ _)
    | trivial

theorem injectConfig_local (u : AgentConfigUpdate) :
    (injectConfig u).All Op.Local fun _ => True := by
  simp only [injectConfig, publishAgentEvent, Prog.bind_def, Prog.bind_assoc, Prog.redisGet,
    Prog.redisPublish, Prog.redisSet, Prog.now, Prog.pure_def]
  repeat' first
    | exact .pure _
    | exact .raise _
    | refine Prog.all_call_bind ?_ fun _ => ?_
    | refine Prog.all_broadcast_bind trivial fun _ => ?_
    | refine Prog.all_liftExcept_bind fun _ => ?_
    | split
    | exact fun _ => not_carriesStatus_agentEvent ⟨by decide, by decide⟩ (by simp)
    | exact fun h => absurd h (agentKey_ne_agentEvents _ _)
    | trivial

theorem promoteCanary_local (agentId : String) :
    (promoteCanary agentId).All Op.Local fun _ => True := by
  simp only [promoteCanary, publishAgentEvent, Prog.bind_def, Prog.bind_assoc, Prog.redisGet,
    Prog.redisPublish, Prog.redisSet, Prog.now, Prog.pure_def]
  repeat' first
    | exact .pure _
    | exact .raise _
    | refine Prog.all_call_bind ?_ fun _ => ?_
    | refine Prog.all_broadcast_bind trivial fun _ => ?_
    | refine Prog.all_liftExcept_bind fun _ => ?_
    | split
    | exact fun _ => not_carriesStatus_agentEvent ⟨by decide, by decide⟩ (by simp)
    | exact fun h => absurd h (agentKey_ne_agentEvents _ _)
    | trivial

theorem collectPanels_reads (regKeys : List String) :
    (collectPanels regKeys).All Op.Reads fun _ => False := by
  induction regKeys with
  | nil => exact .pure _
  | cons regKey rest ih =>
    exact ((agentPanel_reads regKey).tryCatch fun _ => .pure _).bind fun _ =>
      ih.bind fun _ => .pure _

theorem listAgents_reads : listAgents.All Op.Reads fun _ => False := by
  simp only [listAgents, Prog.bind_def, Prog.redisKeys, Prog.pure_def]
  exact Prog.all_call_bind trivial fun regKeys =>
    (collectPanels_reads regKeys).bind fun _ => .pure _

theorem Request.route_local (rq : Request) : rq.route.All Op.Local fun _ => True := by
  cases rq with
  | pause a | resume a | restart a => exact lifecycleCommand_local ⟨by decide, by decide⟩
  | injectConfig u => exact injectConfig_local u
  | promoteCanary a => exact promoteCanary_local a
  | getConfig a => exact (getAgentConfig_reads a).mono (fun _ => Op.Reads.local) fun _ _ => trivial
  | list => exact listAgents_reads.mono (fun _ => Op.Reads.local) fun _ _ => trivial

theorem websocketAgentEvents_local : websocketAgentEvents.All Op.Local fun _ => True := by
  simp only [websocketAgentEvents, Prog.bind_def, Prog.bind_assoc, Prog.pure_def]
  repeat' first
    | exact .pure _
    | exact .raise _
    | refine Prog.all_call_bind ?_ fun _ => ?_
    | refine Prog.All.tryCatch ?_ fun _ => ?_
    | exact Empty.elim ‹Empty›
    | exact not_isStatusEvent_connectionEstablished _
    | rfl
    | trivial

/-! ### The invariant of the world -/

/-- What the world owes to the coroutines' footprints, where `S proc ws` says that a
coroutine of the process `proc` serves the websocket `ws`, and `T tid ws` that the thread
`tid` runs in such a process. -/
structure World.Inv (S T : ℕ → ℕ → Prop) (w : World) : Prop where
  published : ∀ e ∈ w.published, e.2.1 = agentEvents → ¬ e.2.2.CarriesStatus
  subs : ∀ sub ∈ w.subs, sub.channel = agentEvents ∧ ∀ p ∈ sub.queue, ¬ p.CarriesStatus
  registry : ∀ proc, ∀ cl ∈ (w.registry proc).live, S proc cl.2
  inbox : ∀ ws, ∀ e ∈ w.inbox ws, IsStatusEvent e.2 → T e.1 ws

theorem forall_mem_modify {α : Type} {P : α → Prop} {f : α → α} (hf : ∀ a, P a → P (f a))
    (n : ℕ) (l : List α) (hl : ∀ a ∈ l, P a) : ∀ a ∈ l.modify f n, P a := by
  induction l generalizing n with
  | nil => cases n <;> simp [List.modify, List.modifyHead]
  | cons x l ih =>
    rw [List.forall_mem_cons] at hl
    cases n with
    | zero => simpa [List.modify, List.modifyHead, hf x hl.1] using hl.2
    | succ n => simpa [List.modify, hl.1] using ih n hl.2

namespace World.Inv

variable {S T : ℕ → ℕ → Prop} {w : World}

theorem mono {S' T' : ℕ → ℕ → Prop} (h : w.Inv S T) (hS : ∀ p ws, S p ws → S' p ws)
    (hT : ∀ t ws, T t ws → T' t ws) : w.Inv S' T' :=
  ⟨h.published, h.subs, fun p cl hc => hS _ _ (h.registry p cl hc),
    fun ws e he hs => hT _ _ (h.inbox ws e he hs)⟩

theorem deliver (h : w.Inv S T) {ws tid : ℕ} {m : JVal} (hm : IsStatusEvent m → T tid ws) :
    (w.deliver ws tid m).Inv S T := by
  refine ⟨h.published, h.subs, h.registry, fun ws' e he hs => ?_⟩
  simp only [World.deliver, Function.update_apply] at he
  split_ifs at he with hw
  · subst hw
    rcases List.mem_append.1 he with he | he
    · exact h.inbox _ e he hs
    · rw [List.mem_singleton] at he; subst he; exact hm hs
  · exact h.inbox ws' e he hs

theorem setRegistry (h : w.Inv S T) {proc : ℕ} {r : Registry}
    (hr : ∀ cl ∈ r.live, S proc cl.2) : (w.setRegistry proc r).Inv S T := by
  refine ⟨h.published, h.subs, fun p cl hc => ?_, h.inbox⟩
  simp only [World.setRegistry, Function.update_apply] at hc
  split_ifs at hc with hp
  · subst hp; exact hr cl hc
  · exact h.registry p cl hc

theorem publish (h : w.Inv S T) {tid : ℕ} {channel : String} {payload : Bytes}
    (hp : channel = agentEvents → ¬ payload.CarriesStatus) :
    (w.publish tid channel payload).Inv S T := by
  refine ⟨fun e he => ?_, fun sub hsub => ?_, h.registry, h.inbox⟩
  · rcases List.mem_append.1 he with he | he
    · exact h.published e he
    · rw [List.mem_singleton] at he; subst he; exact hp
  · obtain ⟨s, hs, rfl⟩ := List.mem_map.1 hsub
    obtain ⟨hch, hq⟩ := h.subs s hs
    split_ifs with ha
    · refine ⟨hch, fun p hp' => ?_⟩
      rcases List.mem_append.1 hp' with hp' | hp'
      · exact hq p hp'
      · rw [List.mem_singleton] at hp'; subst hp'; exact hp (ha.2.symm.trans hch)
    · exact ⟨hch, hq⟩

/-- An effect within its footprint, by a coroutine of a process serving its websocket. -/
theorem perform (h : w.Inv S T) {c : Ctx} {ok : Bool} {clock : ℕ} {o : Op} (ho : o.Local)
    (hc : S c.proc c.ws) : (w.perform c ok clock o).1.Inv S T := by
  cases o <;> simp only [World.perform]
  case set => split; exacts [⟨h.1, h.2, h.3, h.4⟩, h]
  case publish => split; exacts [h.publish ho, h]
  case register =>
    have h' : (w.setRegistry c.proc ((w.registry c.proc).insert w.nextClient c.ws)).Inv S T :=
      h.setRegistry fun cl hcl => by
        rcases Registry.mem_live_insert hcl with rfl | hcl
        exacts [hc, h.registry _ cl hcl]
    exact ⟨h'.1, h'.2, h'.3, h'.4⟩
  case subscribe channel =>
    split
    · refine ⟨h.published, fun sub hsub => ?_, h.registry, h.inbox⟩
      rcases List.mem_append.1 hsub with hsub | hsub
      · exact h.subs sub hsub
      · rw [List.mem_singleton] at hsub; subst hsub; exact ⟨ho, by simp⟩
    · exact h
  case sendJson => split; exacts [h.deliver fun hs => (ho hs).elim, h]
  case unregister => exact h.setRegistry fun cl hcl => h.registry _ cl (Registry.mem_live_pop hcl)
  case unsubscribe sub =>
    split
    · exact ⟨h.published, forall_mem_modify (f := fun s => { s with active := false })
        (fun _ ha => ha) sub w.subs h.subs, h.registry, h.inbox⟩
    · exact h
  all_goals exact h

/-- The connection of a subscription is lost. -/
theorem dropSub (h : w.Inv S T) (sub : ℕ) : (w.dropSub sub).Inv S T :=
  ⟨h.published, forall_mem_modify (fun _ hs => ⟨hs.1, by simp⟩) sub w.subs h.subs, h.registry,
    h.inbox⟩

/-- The relay takes the first message of its subscription. -/
theorem take (h : w.Inv S T) {sub : ℕ} {s : Subscription} {p : Bytes} {rest : List Bytes}
    (hs : w.subs[sub]? = some s) (hq : s.queue = p :: rest) :
    ({ w with subs := w.subs.set sub { s with queue := rest } } : World).Inv S T := by
  obtain ⟨hch, hq'⟩ := h.subs s (List.getElem?_mem hs)
  refine ⟨h.published, fun x hx => ?_, h.registry, h.inbox⟩
  rcases List.mem_or_eq_of_mem_set hx with hx | rfl
  · exact h.subs x hx
  · exact ⟨hch, fun p' hp' => hq' p' (hq ▸ List.mem_cons_of_mem _ hp')⟩

end World.Inv

/-! ### The invariant of a coroutine -/

/-- The code a coroutine has left keeps to the footprint; a relay about to send sends no
status event. -/
def Task.Local : Task → Prop
  | .run p => p.All Op.Local fun _ => True
  | .bcast _ k => ∀ x, (k x).All Op.Local fun _ => True
  | .relay _ => True
  | .relaySend _ m notice => ¬ IsStatusEvent m ∧ ∀ n ∈ notice, ¬ IsStatusEvent n

/-- After a step of a coroutine of `proc`: the world keeps its invariant, the coroutine its
footprint, and a send it has in flight goes to a websocket served in `proc`. -/
def StepInv (S T : ℕ → ℕ → Prop) (proc : ℕ) (r : World × Task × List Thread) : Prop :=
  r.1.Inv S T ∧ r.2.1.Local ∧ ∀ b k, r.2.1 = .bcast b k → ∀ cl ∈ b.pending, S proc cl.2

section Step

variable {S T : ℕ → ℕ → Prop} {w : World}

/-- A resumption of the broadcast loop, or its entry. -/
theorem stepInv_resume (h : w.Inv S T) {proc : ℕ} {b : Bcast}
    {k : Except PyErr Unit → Prog Response} (hk : ∀ x, (k x).All Op.Local fun _ => True) :
    StepInv S T proc (w.afterAdvance proc (Bcast.advance (w.registry proc) b),
      resumeBcast k (Bcast.advance (w.registry proc) b), []) := by
  cases ha : Bcast.advance (w.registry proc) b with
  | raised e => exact ⟨h, hk _, fun _ _ h => Task.noConfusion h⟩
  | finished r =>
    exact ⟨h.setRegistry fun cl hcl => h.registry proc cl (Bcast.live_of_advance_finished ha hcl),
      hk _, fun _ _ h => Task.noConfusion h⟩
  | sending b' =>
    refine ⟨h, hk, fun b'' k' hb cl hcl => ?_⟩
    cases hb
    obtain ⟨c, hc, hp⟩ := Bcast.pending_of_advance ha
    rw [hp, Option.mem_def, Option.some.injEq] at hcl
    subst hcl
    exact h.registry proc c hc

/-- **One step of any coroutine** keeps the world's invariant and its own footprint. -/
theorem Thread.step_inv {tid : ℕ} {th : Thread} {ok : Bool} {clock : ℕ} (h : w.Inv S T)
    (hl : th.task.Local) (hp : ∀ b k, th.task = .bcast b k → ∀ cl ∈ b.pending, S th.proc cl.2)
    (hs : S th.proc th.ws) (ht : ∀ ws, S th.proc ws → T tid ws) :
    StepInv S T th.proc (th.step w tid ok clock) := by
  obtain ⟨proc, ws, task⟩ := th
  cases task with
  | run p =>
    cases p with
    | pure a => exact ⟨h, hl, hp⟩
    | raise e => exact ⟨h, hl, hp⟩
    | op o k =>
      cases hl with
      | op ho hk =>
        refine ⟨by rw [Thread.step_op_world]; exact h.perform ho hs, ?_⟩
        rcases Thread.step_op_task w tid proc ws o k ok clock with ⟨x, hx⟩ | hx <;> rw [hx]
        · exact ⟨hk x, fun _ _ h => Task.noConfusion h⟩
        · exact ⟨.op ho hk, fun _ _ h => Task.noConfusion h⟩
    | bcast m k =>
      cases hl with
      | bcast _ hk => exact stepInv_resume h hk
  | bcast b k =>
    rcases hpend : b.pending with _ | ⟨cid, ws'⟩
    · simp only [Thread.step, hpend]
      exact stepInv_resume h hl
    · simp only [Thread.step, hpend]
      have hsv : S proc ws' := hp b k rfl (cid, ws') hpend
      refine ⟨?_, hl, fun b' k' hb cl hcl => ?_⟩
      · split
        exacts [h.deliver fun _ => ht ws' hsv, h]
      · cases hb; simp at hcl
  | relay sub =>
    cases ok
    · rw [Thread.step_relay_fail]
      exact ⟨h.dropSub sub, .raise _, fun _ _ h => Task.noConfusion h⟩
    rcases hs' : w.subs[sub]? with _ | s
    · simp only [Thread.step, hs', ↓reduceIte]
      exact ⟨h, .pure _, fun _ _ h => Task.noConfusion h⟩
    · rcases hq : s.queue with _ | ⟨p, rest⟩
      · simp only [Thread.step, hs', hq, ↓reduceIte]
        split
        exacts [⟨h, hl, fun _ _ h => Task.noConfusion h⟩,
          ⟨h, .pure _, fun _ _ h => Task.noConfusion h⟩]
      · simp only [Thread.step, hs', hq, ↓reduceIte]
        have hp' := (h.subs s (List.getElem?_mem hs')).2 p
          (by rw [hq]; exact List.mem_cons_self _ _)
        exact ⟨h.take hs' hq, not_isStatusEvent_relayDecode hp', fun _ _ h => Task.noConfusion h⟩
  | relaySend sub m notice =>
    simp only [Thread.step]
    split
    · exact ⟨h.deliver fun hm => (hl.1 hm).elim, trivial, fun _ _ h => Task.noConfusion h⟩
    · rcases notice with _ | n
      · exact ⟨h, .raise _, fun _ _ h => Task.noConfusion h⟩
      · exact ⟨h, ⟨hl.2 n rfl, by simp⟩, fun _ _ h => Task.noConfusion h⟩

end Step

/-! ### The invariant of the deployment -/

/-- Some coroutine of the process `proc` serves the websocket `ws`. -/
def Sys.Serves (s : Sys) (proc ws : ℕ) : Prop := ∃ th ∈ s.threads, th.proc = proc ∧ th.ws = ws

/-- The thread `tid` runs in a process of which some coroutine serves `ws`. -/
def Sys.SentFrom (s : Sys) (tid ws : ℕ) : Prop :=
  ∃ th, s.threads[tid]? = some th ∧ s.Serves th.proc ws

/-- Every thread of `s` is still in `s'`, at the same index, in the same process, serving
the same websocket. -/
def Sys.Grows (s s' : Sys) : Prop :=
  ∀ (i : ℕ) (th : Thread), s.threads[i]? = some th →
    ∃ th', s'.threads[i]? = some th' ∧ th'.proc = th.proc ∧ th'.ws = th.ws

/-- Every thread of `s'` has the process and the websocket of a thread of `s`. -/
def Sys.Descends (s s' : Sys) : Prop :=
  ∀ th' ∈ s'.threads, ∃ th ∈ s.threads, th.proc = th'.proc ∧ th.ws = th'.ws

/-- The invariant of the deployment. -/
structure Sys.Inv (s : Sys) : Prop where
  tasks : ∀ th ∈ s.threads, th.task.Local
  pending : ∀ th ∈ s.threads, ∀ b k, th.task = .bcast b k → ∀ cl ∈ b.pending,
    s.Serves th.proc cl.2
  world : s.world.Inv s.Serves s.SentFrom

namespace Sys

theorem Grows.serves {s s' : Sys} (hg : s.Grows s') {proc ws : ℕ} (h : s.Serves proc ws) :
    s'.Serves proc ws := by
  obtain ⟨th, hth, rfl, rfl⟩ := h
  obtain ⟨i, hi⟩ := List.mem_iff_getElem?.1 hth
  obtain ⟨th', hi', hp, hw⟩ := hg i th hi
  exact ⟨th', List.getElem?_mem hi', hp, hw⟩

theorem Grows.sentFrom {s s' : Sys} (hg : s.Grows s') {tid ws : ℕ} (h : s.SentFrom tid ws) :
    s'.SentFrom tid ws := by
  obtain ⟨th, hth, hsv⟩ := h
  obtain ⟨th', hth', hp, -⟩ := hg tid th hth
  exact ⟨th', hth', hp ▸ hg.serves hsv⟩

theorem Descends.trans {s₁ s₂ s₃ : Sys} (h₁ : s₁.Descends s₂) (h₂ : s₂.Descends s₃) :
    s₁.Descends s₃ := by
  intro th₃ hth₃
  obtain ⟨th₂, hth₂, hp₂, hw₂⟩ := h₂ th₃ hth₃
  obtain ⟨th₁, hth₁, hp₁, hw₁⟩ := h₁ th₂ hth₂
  exact ⟨th₁, hth₁, hp₁.trans hp₂, hw₁.trans hw₂⟩

/-- The threads after a step of `th`: the others, `th` with its new task, what it spawned. -/
theorem mem_step_threads {threads : List Thread} {i : ℕ} {th' x : Thread}
    {spawned : List Thread} (hx : x ∈ threads.set i th' ++ spawned) :
    x ∈ threads ∨ x = th' ∨ x ∈ spawned := by
  rcases List.mem_append.1 hx with hx | hx
  · exact (List.mem_or_eq_of_mem_set hx).imp_right .inl
  · exact .inr (.inr hx)

/-- Threads are never removed and keep their process and websocket. -/
theorem grows_step (s : Sys) (ch : Choice) : s.Grows (s.step ch) := by
  intro j x hx
  rcases step_cases s ch with he | ⟨th, hth⟩
  · rw [he]; exact ⟨x, hx, rfl, rfl⟩
  · rw [step_of_resumes hth]
    have hj : j < (s.threads.set ch.thread { th with task := (th.step s.world ch.thread ch.ok
        ch.clock).2.1 }).length := by
      rw [List.length_set]; exact (List.getElem?_eq_some_iff.1 hx).1
    simp only [List.getElem?_append_left hj, List.getElem?_set]
    split_ifs with hij hl
    · subst hij; rw [hth.1, Option.some.injEq] at hx; subst hx; exact ⟨_, rfl, rfl, rfl⟩
    · exact absurd (List.getElem?_eq_some_iff.1 hx).1 (hij ▸ hl)
    · exact ⟨x, hx, rfl, rfl⟩

/-- Every thread has the process and websocket of one that was there before the step. -/
theorem descends_step (s : Sys) (ch : Choice) : s.Descends (s.step ch) := by
  intro x hx
  rcases step_cases s ch with he | ⟨th, hth⟩
  · rw [he] at hx; exact ⟨x, hx, rfl, rfl⟩
  · rw [step_of_resumes hth] at hx
    have hmem := List.getElem?_mem hth.1
    rcases mem_step_threads hx with hx | rfl | hx
    · exact ⟨x, hx, rfl, rfl⟩
    · exact ⟨th, hmem, rfl, rfl⟩
    · rcases Thread.step_spawned s.world ch.thread th ch.ok ch.clock with hsp | ⟨sub, hsp⟩ <;>
        rw [hsp] at hx
      · cases hx
      · rw [List.mem_singleton] at hx; subst hx; exact ⟨th, hmem, rfl, rfl⟩

theorem descends_run (s : Sys) (cs : List Choice) : s.Descends (s.run cs) := by
  induction cs generalizing s with
  | nil => exact fun th h => ⟨th, h, rfl, rfl⟩
  | cons ch cs ih => exact (descends_step s ch).trans (ih _)

/-- **The invariant is kept by every step of every coroutine.** -/
theorem Inv.step {s : Sys} (h : s.Inv) (ch : Choice) : (s.step ch).Inv := by
  have hg := grows_step s ch
  rcases step_cases s ch with he | ⟨th, hth⟩
  · rw [he]; exact h
  have hmem := List.getElem?_mem hth.1
  have hst := step_of_resumes hth
  have hlt := (List.getElem?_eq_some_iff.1 hth.1).1
  have hidx : (s.step ch).threads[ch.thread]? =
      some { th with task := (th.step s.world ch.thread ch.ok ch.clock).2.1 } := by
    rw [hst, List.getElem?_append_left (by rwa [List.length_set]), List.getElem?_set_self hlt]
  have hstep : StepInv (s.step ch).Serves (s.step ch).SentFrom
      th.proc (th.step s.world ch.thread ch.ok ch.clock) :=
    Thread.step_inv (h.world.mono (fun _ _ => hg.serves) fun _ _ => hg.sentFrom)
      (h.tasks th hmem) (fun b k hb cl hcl => hg.serves (h.pending th hmem b k hb cl hcl))
      ⟨_, List.getElem?_mem hidx, rfl, rfl⟩ fun ws hsv => ⟨_, hidx, hsv⟩
  obtain ⟨hw, hl, hp⟩ := hstep
  have hsp := Thread.step_spawned s.world ch.thread th ch.ok ch.clock
  have hworld : (s.step ch).world = (th.step s.world ch.thread ch.ok ch.clock).1 := by
    rw [hst]
  refine ⟨fun x hx => ?_, fun x hx b k hb cl hcl => ?_, by rw [hworld]; exact hw⟩
  · rw [hst] at hx
    rcases mem_step_threads hx with hx | rfl | hx
    · exact h.tasks x hx
    · exact hl
    · rcases hsp with hsp | ⟨sub, hsp⟩ <;> rw [hsp] at hx
      · cases hx
      · rw [List.mem_singleton] at hx; subst hx; trivial
  · rw [hst] at hx
    rcases mem_step_threads hx with hx | rfl | hx
    · exact hg.serves (h.pending x hx b k hb cl hcl)
    · exact hp b k hb cl hcl
    · rcases hsp with hsp | ⟨sub, hsp⟩ <;> rw [hsp] at hx
      · cases hx
      · rw [List.mem_singleton] at hx; subst hx; cases hb

theorem Inv.run {s : Sys} (h : s.Inv) (cs : List Choice) : (s.run cs).Inv := by
  induction cs generalizing s with
  | nil => exact h
  | cons ch cs ih => exact ih (h.step ch)

end Sys

/-! ### Deployments -/

/-- A coroutine a deployment starts with: a request to one of the HTTP routes, or an
observer's connection to `/ws/agents`. -/
def Thread.Serving (th : Thread) : Prop :=
  (∃ rq : Request, th.task = .run rq.route) ∨ th.task = .run websocketAgentEvents

theorem Thread.Serving.local {th : Thread} (h : th.Serving) : th.task.Local := by
  rcases h with ⟨rq, hr⟩ | hr <;> rw [hr]
  exacts [rq.route_local, websocketAgentEvents_local]

/-- A deployment that starts on any store, with any requests and observers, keeps the
invariant. -/
theorem Sys.inv_init (store : Store) {threads : List Thread} (h : ∀ th ∈ threads, th.Serving) :
    Sys.Inv ⟨World.init store, threads⟩ where
  tasks th hth := (h th hth).local
  pending th hth b k hb := by rcases h th hth with ⟨rq, hr⟩ | hr <;> rw [hr] at hb <;> cases hb
  world := ⟨by simp [World.init], by simp [World.init], by simp [World.init, Registry.empty,
    Registry.live], by simp [World.init]⟩

/-- **Status events stay in the process that served the request.** Start any number of
server processes on any store, with any requests and observer connections, each websocket
served by one process; then, under every interleaving and every pattern of failures, no
`agent_status_changed` or `agent_config_updated` event is ever published on
`agent_events`, and every such event an observer receives was sent by a coroutine of the
observer's own process. An observer connected to another process than the one that served
a control request receives none for it. -/
theorem statusEvents_stay_in_process {store : Store} {threads : List Thread}
    (hserve : ∀ th ∈ threads, th.Serving)
    (hws : ∀ th ∈ threads, ∀ th' ∈ threads, th.ws = th'.ws → th.proc = th'.proc)
    (cs : List Choice) :
    (∀ e ∈ (Sys.run ⟨World.init store, threads⟩ cs).world.published,
      e.2.1 = agentEvents → ¬ e.2.2.CarriesStatus) ∧
    ∀ ob ∈ threads, ∀ e ∈ (Sys.run ⟨World.init store, threads⟩ cs).world.inbox ob.ws,
      IsStatusEvent e.2 →
        ∃ th, (Sys.run ⟨World.init store, threads⟩ cs).threads[e.1]? = some th ∧
          th.proc = ob.proc := by
  have hi := (Sys.inv_init store hserve).run cs
  refine ⟨hi.world.published, fun ob hob e he hs => ?_⟩
  obtain ⟨th, hth, x, hx, hxp, hxw⟩ := hi.world.inbox ob.ws e he hs
  obtain ⟨y, hy, hyp, hyw⟩ := Sys.descends_run _ cs x hx
  exact ⟨th, hth, by rw [← hxp, ← hyp]; exact hws y hy ob hob (hyw.trans hxw)⟩

/-- An observer of process 1 on websocket 7, and `pause a1` served by process 0. -/
def crossDeployment : List Thread :=
  [⟨1, 7, .run websocketAgentEvents⟩, ⟨0, 0, .run (pauseAgent "a1")⟩]

/-- The observer connects and starts its relay (5 steps), `pause a1` runs to its end
(7 steps), and the relay forwards what the channel delivered (2 steps). -/
def crossSchedule : List Choice :=
  List.replicate 5 (stepOf 0) ++ List.replicate 7 (stepOf 1) ++ List.replicate 2 (stepOf 2)

theorem statusEvents_stay_in_process_cross :
    (∀ th ∈ crossDeployment, th.Serving) ∧
    (∀ th ∈ crossDeployment, ∀ th' ∈ crossDeployment, th.ws = th'.ws → th.proc = th'.proc) ∧
    ∀ ob ∈ crossDeployment, ∀ e ∈ (Sys.run ⟨alphaWorld, crossDeployment⟩ crossSchedule).world.inbox
      ob.ws, IsStatusEvent e.2 → ∃ th, (Sys.run ⟨alphaWorld, crossDeployment⟩
        crossSchedule).threads[e.1]? = some th ∧ th.proc = ob.proc := by
  have hserve : ∀ th ∈ crossDeployment, th.Serving := by
    simp only [crossDeployment, List.mem_cons, List.mem_singleton, List.not_mem_nil, or_false]
    rintro th (rfl | rfl)
    exacts [.inr rfl, .inl ⟨.pause "a1", rfl⟩]
  have hws : ∀ th ∈ crossDeployment, ∀ th' ∈ crossDeployment, th.ws = th'.ws →
      th.proc = th'.proc := by
    simp only [crossDeployment, List.mem_cons, List.mem_singleton, List.not_mem_nil, or_false]
    rintro th (rfl | rfl) th' (rfl | rfl) h <;> first | rfl | cases h
  exact ⟨hserve, hws, (statusEvents_stay_in_process hserve hws crossSchedule).2⟩

/-- `pause a1` succeeds in process 0 while the observer of process 1 is connected, and the
observer receives its greeting and the relayed `pause_requested`, but no
`agent_status_changed`. -/
theorem remote_observer_misses_status :
    (Sys.run ⟨alphaWorld, crossDeployment⟩ crossSchedule).threads.map (·.task.result) =
      [none, some (.ok (.status true "Agent a1 paused")), none] ∧
    (Sys.run ⟨alphaWorld, crossDeployment⟩ crossSchedule).world.inbox 7 =
      [(0, connectionEstablished 0), (2, agentEvent "pause_requested" "a1" [] 5)] :=
  ⟨rfl, rfl⟩

end AgentControl
