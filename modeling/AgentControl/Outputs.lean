import AgentControl.Progress
import AgentControl.Promotion

/-!
# What the API Writes, Publishes and Sends

The API never deletes a key, and all it does about an agent follows, on the same path of
the same request, a reply showing that the agent is registered: `pause_agent`,
`resume_agent` and `restart_agent` check with `EXISTS`, `inject_config` and
`promote_canary` read the registration with `GET`. Only then do they write the agent's raw
state or its registration, publish on `agent_events` and on the agent's command topic, and
broadcast to the observers. An observer's handler subscribes to `agent_events` and sends
its greeting, and its relay forwards what `agent_events` carries: events, in JSON.

`Prog.Guarded a found p` says what the code `p` may do, path by path: once it has `found`
the registration of `a`, write `a`'s registration (as a JSON document) or its state (as
`paused`, `running` or `initializing`), publish an event of `a` or a command to `a`, and
broadcast a change of `a`'s status or configuration; at any time, subscribe to
`agent_events` and send a greeting. `World.Guarded` says the same of what the world has
recorded: every write, publish and frame so far, and every message queued on a
subscription, is of an allowed kind for an agent registered in the store. The invariant
`Sys.Guarded` asks both, with each coroutine's `found` backed by the store.

## Main results

* `lifecycleCommand_guarded`, `injectConfig_guarded`, `promoteCanary_guarded`,
  `websocketAgentEvents_guarded`: the routes.
* `Thread.step_guarded`: one step of any coroutine keeps the invariant.
* `writes_guarded`: **every write is to the registration or the state of a registered
  agent; registrations are written as JSON documents, states as `paused`, `running` or
  `initializing`.**
* `publishes_guarded`: **every publish is an event of a registered agent on
  `agent_events`, or a command on one of its topics.**
* `frames_guarded`: **every frame an observer receives is its greeting, a status or
  configuration change or an event of a registered agent, or the notice of a failed
  send.**
* `store_guarded`: **the API neither registers nor unregisters an agent, and every key holds
  its initial value or a value the API may write.**
-/

namespace AgentControl

/-! ### The outputs the API may make -/

/-- The raw states the control requests write. -/
def stateValues : List String := ["paused", "running", "initializing"]

/-- The events the control requests publish on `agent_events`. -/
def eventTypes : List String :=
  ["pause_requested", "resume_requested", "restart_requested", "config_update_requested",
    "canary_promoted"]

/-- A write the API may make for the agent `a`: its registration, as a JSON document, or
its state, as one of `stateValues`. -/
def AgentWrite (a key : String) (value : Bytes) : Prop :=
  (key = agentKey a "registration" ∧ ∃ d, value = Bytes.dumps (.obj d)) ∨
    (key = agentKey a "state" ∧ ∃ st ∈ stateValues, value = .text st)

/-- An event of the agent `a`, as `publish_agent_event` builds it, with data that keeps its
type and its agent. -/
def AgentEvent (a : String) (m : JVal) : Prop :=
  ∃ ev ∈ eventTypes, ∃ data : Dict, ∃ timestamp,
    (∀ e ∈ data, e.1 ≠ "type" ∧ e.1 ≠ "agentId") ∧ m = agentEvent ev a data timestamp

/-- A publish the API may make for the agent `a`: an event of `a` on `agent_events`, an
empty command on `a`'s pause, resume or restart topic, or a document on its
`inject_config` topic. -/
def AgentPublish (a channel : String) (payload : Bytes) : Prop :=
  (channel = agentEvents ∧ ∃ m, AgentEvent a m ∧ payload = Bytes.dumps m) ∨
    (∃ kind ∈ ["pause", "resume", "restart"], channel = agentKey a kind ∧ payload = .text "") ∨
    (channel = agentKey a "inject_config" ∧ ∃ d, payload = Bytes.dumps (.obj d))

/-- A broadcast the API may make for the agent `a`: `agent_status_changed` to one of the
states it writes, or `agent_config_updated`. -/
def AgentBroadcast (a : String) (m : JVal) : Prop :=
  (∃ st ∈ stateValues, ∃ timestamp, m = statusChanged a st timestamp) ∨
    ∃ timestamp, m = configUpdated a timestamp

/-- A frame an observer may receive, `st` being the store: its greeting, a broadcast or an
event of an agent registered in `st`, or the notice a relay sends when a send fails. -/
def Frame (st : Store) (m : JVal) : Prop :=
  (∃ n, m = connectionEstablished n) ∨
    (∃ a, agentKey a "registration" ∈ st ∧ (AgentBroadcast a m ∨ AgentEvent a m)) ∨
    m = errorNotice .connectionClosed

theorem Frame.mono {st st' : Store} {m : JVal} (h : Frame st m) (hst : ∀ k ∈ st, k ∈ st') :
    Frame st' m := by
  rcases h with h | ⟨a, ha, h⟩ | h
  exacts [.inl h, .inr (.inl ⟨a, hst _ ha, h⟩), .inr (.inr h)]

namespace Op

/-- What an effect may be, in code that has `found` the registration of `a` or not: a write
or a publish only once the registration is found, and for `a`; a subscription only to
`agent_events`; a send only of a greeting. -/
def Allowed (a : String) (found : Bool) : Op → Prop
  | .set key value => found = true ∧ AgentWrite a key value
  | .publish channel payload => found = true ∧ AgentPublish a channel payload
  | .subscribe channel => channel = agentEvents
  | .sendJson m => ∃ n, m = connectionEstablished n
  | _ => True

/-- Whether a reply shows the registration of `a` in the store: an `EXISTS` of it that
answers `1`, or a `GET` of it that answers a value. -/
def finds (a : String) : (o : Op) → Except PyErr o.Reply → Bool
  | .existsKey key, .ok b => b && key == agentKey a "registration"
  | .get key, .ok v => v.isSome && key == agentKey a "registration"
  | _, _ => false

end Op

/-- What the code does, path by path: its effects as `Op.Allowed` allows, and broadcasts of
`a` once found, where the registration of `a` is found once a reply has shown it. -/
inductive Prog.Guarded {α : Type} (a : String) : Bool → Prog α → Prop where
  | pure {found : Bool} (x : α) : Guarded a found (.pure x)
  | raise {found : Bool} (e : PyErr) : Guarded a found (.raise e)
  | op {found : Bool} {o : Op} {k : Except PyErr o.Reply → Prog α} (ho : o.Allowed a found)
      (hk : ∀ x, Guarded a (found || o.finds a x) (k x)) : Guarded a found (.op o k)
  | bcast {found : Bool} {m : JVal} {k : Except PyErr Unit → Prog α}
      (hm : found = true ∧ AgentBroadcast a m) (hk : ∀ x, Guarded a found (k x)) :
      Guarded a found (.bcast m k)

namespace Prog

section Guarded

variable {α β : Type} {a : String} {found : Bool}

/-- Code allowed before the registration is found is allowed after. -/
theorem Guarded.mono {p : Prog α} {found' : Bool} (h : p.Guarded a found)
    (hle : found = true → found' = true) : p.Guarded a found' := by
  induction h generalizing found' with
  | pure x => exact .pure x
  | raise e => exact .raise e
  | @op found o k ho hk ih =>
    refine .op ?_ fun x => ih x ?_
    · cases o <;> first | exact ho | exact ⟨hle ho.1, ho.2⟩
    · simp only [Bool.or_eq_true]
      exact Or.imp_left hle
  | bcast hm hk ih => exact .bcast ⟨hle hm.1, hm.2⟩ fun x => ih x hle

/-- Code allowed before the registration is found that never broadcasts is allowed
whatever is found. -/
theorem All.guarded {p : Prog α} (h : p.All (Op.Allowed a false) fun _ => False)
    (found : Bool) : p.Guarded a found := by
  induction h generalizing found with
  | pure x => exact .pure x
  | raise e => exact .raise e
  | @op o k ho hk ih =>
    refine .op ?_ fun x => ih x _
    cases o <;> first | exact ho | exact absurd ho.1 Bool.false_ne_true
  | bcast hm => exact hm.elim

theorem guarded_orRaise {f : α → Prog β} (hf : ∀ x, (f x).Guarded a found)
    (x : Except PyErr α) : (orRaise f x).Guarded a found := by
  cases x with
  | ok x => exact hf x
  | error e => exact .raise e

theorem guarded_call_bind {o : Op} {f : o.Reply → Prog β} (ho : o.Allowed a found)
    (hf : ∀ x, (f x).Guarded a found) : ((call o).bind f).Guarded a found := by
  rw [call_bind]
  exact .op ho fun x => (guarded_orRaise hf x).mono (by simp_all)

/-- `EXISTS` of the registration: once it answers `1`, the registration is found. -/
theorem guarded_exists_bind {f : Bool → Prog β} (hf : ∀ b, (f b).Guarded a (found || b)) :
    ((call (.existsKey (agentKey a "registration"))).bind f).Guarded a found := by
  rw [call_bind]
  refine .op trivial fun x => ?_
  cases x with
  | ok b => simpa [Op.finds] using hf b
  | error e => exact .raise e

/-- `GET` of the registration: once it answers a value, the registration is found. -/
theorem guarded_get_bind {f : Option Bytes → Prog β}
    (hf : ∀ v, (f v).Guarded a (found || v.isSome)) :
    ((call (.get (agentKey a "registration"))).bind f).Guarded a found := by
  rw [call_bind]
  refine .op trivial fun x => ?_
  cases x with
  | ok v => simpa [Op.finds] using hf v
  | error e => exact .raise e

theorem guarded_set_bind {key : String} {value : Bytes} {f : Unit → Prog β}
    (hw : AgentWrite a key value) (hf : ∀ x, (f x).Guarded a true) :
    ((call (.set key value)).bind f).Guarded a true :=
  guarded_call_bind ⟨rfl, hw⟩ hf

theorem guarded_publish_bind {channel : String} {payload : Bytes} {f : Unit → Prog β}
    (hp : AgentPublish a channel payload) (hf : ∀ x, (f x).Guarded a true) :
    ((call (.publish channel payload)).bind f).Guarded a true :=
  guarded_call_bind ⟨rfl, hp⟩ hf

/-- `publish_agent_event` of one of the events the routes publish. -/
theorem guarded_publishAgentEvent_bind {ev : String} {data : Dict} {f : Unit → Prog β}
    (he : ev ∈ eventTypes) (hd : ∀ e ∈ data, e.1 ≠ "type" ∧ e.1 ≠ "agentId")
    (hf : ∀ x, (f x).Guarded a true) : ((publishAgentEvent ev a data).bind f).Guarded a true := by
  simp only [publishAgentEvent, bind_def, bind_assoc, Prog.now, Prog.redisPublish]
  exact guarded_call_bind trivial fun _ =>
    guarded_publish_bind (.inl ⟨rfl, _, ⟨ev, he, data, _, hd, rfl⟩, rfl⟩) hf

theorem guarded_broadcast_bind {m : JVal} {f : Unit → Prog β} (hm : AgentBroadcast a m)
    (hf : ∀ x, (f x).Guarded a true) : ((broadcast m).bind f).Guarded a true := by
  rw [broadcast_bind]
  exact .bcast ⟨rfl, hm⟩ (guarded_orRaise hf)

theorem guarded_liftExcept_bind {x : Except PyErr α} {f : α → Prog β}
    (hf : ∀ v, x = .ok v → (f v).Guarded a found) : ((liftExcept x).bind f).Guarded a found := by
  cases x with
  | ok v => exact hf v rfl
  | error e => exact .raise e

end Guarded

end Prog

/-! ### The routes -/

theorem lifecycleCommand_guarded {event command state reply agentId : String}
    (he : event ∈ eventTypes) (hc : command ∈ ["pause", "resume", "restart"])
    (hs : state ∈ stateValues) :
    (lifecycleCommand event command state reply agentId).Guarded agentId false := by
  simp only [lifecycleCommand, Prog.bind_def, Prog.bind_assoc, Prog.redisExists,
    Prog.redisPublish, Prog.redisSet, Prog.now, Prog.pure_def]
  refine Prog.guarded_exists_bind fun b => ?_
  cases b
  · exact .raise _
  · refine Prog.guarded_publishAgentEvent_bind he nofun fun _ => ?_
    refine Prog.guarded_publish_bind (.inr (.inl ⟨command, hc, rfl, rfl⟩)) fun _ => ?_
    refine Prog.guarded_set_bind (.inr ⟨rfl, _, hs, rfl⟩) fun _ => ?_
    refine Prog.guarded_call_bind trivial fun _ => ?_
    exact Prog.guarded_broadcast_bind (.inl ⟨state, hs, _, rfl⟩) fun _ => .pure _

/-- `json.dumps` of what `setItem` returns is the JSON of a document. -/
theorem JVal.setItem_eq_ok {x y v : JVal} {k : String} (h : x.setItem k v = .ok y) :
    ∃ d, y = .obj d := by
  cases x <;> simp only [JVal.setItem, reduceCtorEq, Except.ok.injEq] at h
  exact ⟨_, h.symm⟩

theorem injectedRegistration_doc {j reg : JVal} {u : Dict}
    (h : injectedRegistration j u = .ok reg) : ∃ d, reg = .obj d := by
  obtain ⟨_, -, h⟩ := except_bind_eq_ok.1 h
  dsimp only at h
  split at h <;> obtain ⟨_, -, h⟩ := except_bind_eq_ok.1 h <;>
    obtain ⟨_, -, h⟩ := except_bind_eq_ok.1 h <;> obtain ⟨_, -, h⟩ := except_bind_eq_ok.1 h <;>
    exact JVal.setItem_eq_ok h

theorem injectConfig_guarded (u : AgentConfigUpdate) :
    (injectConfig u).Guarded u.agentId false := by
  simp only [injectConfig, Prog.bind_def, Prog.bind_assoc, Prog.redisGet, Prog.redisPublish,
    Prog.redisSet, Prog.now, Prog.pure_def]
  refine Prog.guarded_get_bind fun v => ?_
  rcases v with _ | v
  · exact .raise _
  · simp only [Option.isSome_some, Bool.false_or]
    split
    · refine Prog.guarded_publishAgentEvent_bind (by decide) (by simp) fun _ => ?_
      refine Prog.guarded_publish_bind (.inr (.inr ⟨rfl, _, rfl⟩)) fun _ => ?_
      refine Prog.guarded_liftExcept_bind fun _ _ => Prog.guarded_liftExcept_bind fun reg hreg => ?_
      obtain ⟨d, rfl⟩ := injectedRegistration_doc hreg
      refine Prog.guarded_set_bind (.inl ⟨rfl, d, rfl⟩) fun _ => ?_
      refine Prog.guarded_call_bind trivial fun _ => ?_
      exact Prog.guarded_broadcast_bind (.inr ⟨_, rfl⟩) fun _ => .pure _
    · exact .raise _

theorem promoteCanary_guarded (agentId : String) :
    (promoteCanary agentId).Guarded agentId false := by
  simp only [promoteCanary, Prog.bind_def, Prog.bind_assoc, Prog.redisGet, Prog.redisPublish,
    Prog.redisSet, Prog.now, Prog.pure_def]
  refine Prog.guarded_get_bind fun v => ?_
  rcases v with _ | v
  · exact .raise _
  · simp only [Option.isSome_some, Bool.false_or]
    split
    · refine Prog.guarded_liftExcept_bind fun _ _ =>
        Prog.guarded_liftExcept_bind fun ⟨reg, execConfig⟩ hreg => ?_
      obtain ⟨d, -, -, -, -, rfl, -⟩ := promotedRegistration_eq_ok.1 hreg
      refine Prog.guarded_set_bind (.inl ⟨rfl, _, rfl⟩) fun _ => ?_
      refine Prog.guarded_publishAgentEvent_bind (by decide) (by simp) fun _ => ?_
      refine Prog.guarded_publish_bind (.inr (.inr ⟨rfl, _, rfl⟩)) fun _ => ?_
      refine Prog.guarded_call_bind trivial fun _ => ?_
      exact Prog.guarded_broadcast_bind (.inl ⟨"running", by decide, _, rfl⟩) fun _ => .pure _
    · exact .raise _

/-- The observer's handler subscribes to `agent_events`, sends its greeting, and does
nothing an agent's registration would be needed for. -/
theorem websocketAgentEvents_guarded :
    websocketAgentEvents.All (Op.Allowed "" false) fun _ => False := by
  simp only [websocketAgentEvents, Prog.bind_def, Prog.bind_assoc, Prog.pure_def]
  repeat' first
    | exact .pure _
    | exact .raise _
    | refine Prog.all_call_bind ?_ fun _ => ?_
    | refine Prog.All.tryCatch ?_ fun _ => ?_
    | exact Empty.elim ‹Empty›
    | exact ⟨_, rfl⟩
    | trivial

/-! ### The invariant of the world -/

/-- What the world has recorded is backed by the registrations of the store `st`: every
write and publish so far is allowed for an agent registered in `st`; every subscription is
to `agent_events` and has queued only events of such agents; every frame received is a
`Frame`. -/
structure World.Guarded (w : World) (st : Store) : Prop where
  writes : ∀ e ∈ w.writes, ∃ a, agentKey a "registration" ∈ st ∧ AgentWrite a e.2.1 e.2.2
  published : ∀ e ∈ w.published, ∃ a, agentKey a "registration" ∈ st ∧
    AgentPublish a e.2.1 e.2.2
  subs : ∀ sb ∈ w.subs, sb.channel = agentEvents ∧ ∀ p ∈ sb.queue, ∃ a,
    agentKey a "registration" ∈ st ∧ ∃ m, AgentEvent a m ∧ p = Bytes.dumps m
  inbox : ∀ ws, ∀ e ∈ w.inbox ws, Frame st e.2

namespace World.Guarded

variable {w : World} {st : Store}

theorem mono {st' : Store} (h : w.Guarded st) (hst : ∀ k ∈ st, k ∈ st') : w.Guarded st' := by
  refine ⟨fun e he => ?_, fun e he => ?_, fun sb hsb => ?_, fun ws e he => ?_⟩
  · obtain ⟨a, ha, hw⟩ := h.writes e he
    exact ⟨a, hst _ ha, hw⟩
  · obtain ⟨a, ha, hp⟩ := h.published e he
    exact ⟨a, hst _ ha, hp⟩
  · refine ⟨(h.subs sb hsb).1, fun p hp => ?_⟩
    obtain ⟨a, ha, hm⟩ := (h.subs sb hsb).2 p hp
    exact ⟨a, hst _ ha, hm⟩
  · exact (h.inbox ws e he).mono hst

theorem deliver (h : w.Guarded st) {ws tid : ℕ} {m : JVal} (hm : Frame st m) :
    (w.deliver ws tid m).Guarded st := by
  refine ⟨h.writes, h.published, h.subs, fun ws' e he => ?_⟩
  simp only [World.deliver, Function.update_apply] at he
  split_ifs at he
  · rcases List.mem_append.1 he with he | he
    · exact h.inbox _ e he
    · rw [List.mem_singleton.1 he]
      exact hm
  · exact h.inbox ws' e he

theorem afterAdvance (h : w.Guarded st) (proc : ℕ) (adv : Advance) :
    (w.afterAdvance proc adv).Guarded st := by
  cases adv <;> exact ⟨h.writes, h.published, h.subs, h.inbox⟩

theorem write (h : w.Guarded st) {tid : ℕ} {key : String} {value : Bytes}
    (hw : ∃ a, agentKey a "registration" ∈ st ∧ AgentWrite a key value) :
    (w.write tid key value).Guarded st := by
  refine ⟨fun e he => ?_, h.published, h.subs, h.inbox⟩
  rcases List.mem_append.1 he with he | he
  · exact h.writes e he
  · rw [List.mem_singleton.1 he]
    exact hw

theorem publish (h : w.Guarded st) {tid : ℕ} {channel : String} {payload : Bytes}
    (hp : ∃ a, agentKey a "registration" ∈ st ∧ AgentPublish a channel payload) :
    (w.publish tid channel payload).Guarded st := by
  refine ⟨h.writes, fun e he => ?_, fun sb hsb => ?_, h.inbox⟩
  · rcases List.mem_append.1 he with he | he
    · exact h.published e he
    · rw [List.mem_singleton.1 he]
      exact hp
  · obtain ⟨sb, hmem, rfl⟩ := List.mem_map.1 hsb
    obtain ⟨hch, hq⟩ := h.subs sb hmem
    split_ifs with hc
    · refine ⟨hch, fun p' hp' => ?_⟩
      rcases List.mem_append.1 hp' with hp' | hp'
      · exact hq p' hp'
      · -- a publish reaches a subscription of `agent_events` only if it is an event
        rw [List.mem_singleton.1 hp']
        have hev : channel = agentEvents := hc.2.symm.trans hch
        obtain ⟨a, ha, ⟨-, hm⟩ | ⟨_, -, hk, -⟩ | ⟨hk, -⟩⟩ := hp
        · exact ⟨a, ha, hm⟩
        · exact absurd (hk.symm.trans hev) (agentKey_ne_agentEvents _ _)
        · exact absurd (hk.symm.trans hev) (agentKey_ne_agentEvents _ _)
    · exact ⟨hch, hq⟩

/-- The relay takes the first message of its subscription. -/
theorem take (h : w.Guarded st) {j : ℕ} {sb : Subscription} {p : Bytes} {rest : List Bytes}
    (hs : w.subs[j]? = some sb) (hq : sb.queue = p :: rest) :
    ({ w with subs := w.subs.set j { sb with queue := rest } } : World).Guarded st := by
  obtain ⟨hch, hq'⟩ := h.subs sb (List.getElem?_mem hs)
  refine ⟨h.writes, h.published, fun x hx => ?_, h.inbox⟩
  rcases List.mem_or_eq_of_mem_set hx with hx | rfl
  · exact h.subs x hx
  · exact ⟨hch, fun p' hp' => hq' p' (hq ▸ List.mem_cons_of_mem _ hp')⟩

/-- A failed read drops what the subscription had queued. -/
theorem dropSub (h : w.Guarded st) (sub : ℕ) : (w.dropSub sub).Guarded st :=
  ⟨h.writes, h.published, forall_mem_modify (fun _ hs => ⟨hs.1, nofun⟩) sub w.subs h.subs,
    h.inbox⟩

/-- An allowed effect, by code whose `found` is backed by `st`. -/
theorem perform (h : w.Guarded st) {c : Ctx} {ok : Bool} {clock : ℕ} {o : Op} {a : String}
    {found : Bool} (ho : o.Allowed a found)
    (hf : found = true → agentKey a "registration" ∈ st) :
    (w.perform c ok clock o).1.Guarded st := by
  cases o <;> simp only [World.perform]
  case set => split; exacts [h.write ⟨a, hf ho.1, ho.2⟩, h]
  case publish => split; exacts [h.publish ⟨a, hf ho.1, ho.2⟩, h]
  case register => exact ⟨h.writes, h.published, h.subs, h.inbox⟩
  case subscribe =>
    split
    · refine ⟨h.writes, h.published, fun sb hsb => ?_, h.inbox⟩
      rcases List.mem_append.1 hsb with hsb | hsb
      · exact h.subs sb hsb
      · rw [List.mem_singleton.1 hsb]
        exact ⟨ho, nofun⟩
    · exact h
  case sendJson =>
    split
    exacts [h.deliver (.inl ho), h]
  case unregister => exact ⟨h.writes, h.published, h.subs, h.inbox⟩
  case unsubscribe sub =>
    split
    · exact ⟨h.writes, h.published, forall_mem_modify (f := fun s => { s with active := false })
        (fun _ ha => ha) sub w.subs h.subs, h.inbox⟩
    · exact h
  all_goals exact h

end World.Guarded

/-! ### The invariant of a coroutine -/

/-- What a task may still do: its code is `Prog.Guarded` for some agent `a`, registered in
the store `st` once found, and a broadcast in progress sends a `Frame`; a relay about to
send sends a `Frame`, and keeps in reserve only the notice of a failed send. -/
def Task.Guarded (st : Store) : Task → Prop
  | .run p => ∃ a found, (found = true → agentKey a "registration" ∈ st) ∧ p.Guarded a found
  | .bcast b k => ∃ a found, (found = true → agentKey a "registration" ∈ st) ∧
      (∀ x, (k x).Guarded a found) ∧ Frame st b.message
  | .relay _ => True
  | .relaySend _ m notice => Frame st m ∧ ∀ n ∈ notice, n = errorNotice .connectionClosed

theorem Task.Guarded.mono_store {st st' : Store} {t : Task} (h : t.Guarded st)
    (hst : ∀ key ∈ st, key ∈ st') : t.Guarded st' := by
  cases t with
  | run p => obtain ⟨a, found, hf, hp⟩ := h; exact ⟨a, found, fun h => hst _ (hf h), hp⟩
  | bcast b k =>
    obtain ⟨a, found, hf, hk, hm⟩ := h
    exact ⟨a, found, fun h => hst _ (hf h), hk, hm.mono hst⟩
  | relay j => trivial
  | relaySend j m n => exact ⟨h.1.mono hst, h.2⟩

theorem Bcast.message_of_advance {r : Registry} {b b' : Bcast} (h : advance r b = .sending b') :
    b'.message = b.message := by
  unfold advance at h
  split at h <;> cases h
  rfl

/-- A resumption of the broadcast loop, or its entry: the caller resumed, or a send of the
same message started. -/
theorem Task.Guarded.resume {st : Store} {a : String} {found : Bool}
    {k : Except PyErr Unit → Prog Response} (hf : found = true → agentKey a "registration" ∈ st)
    (hk : ∀ x, (k x).Guarded a found) {b : Bcast} (hm : Frame st b.message) (r : Registry) :
    (resumeBcast k (Bcast.advance r b)).Guarded st := by
  cases ha : Bcast.advance r b with
  | raised e => exact ⟨a, found, hf, hk _⟩
  | finished r' => exact ⟨a, found, hf, hk _⟩
  | sending b' => exact ⟨a, found, hf, hk, Bcast.message_of_advance ha ▸ hm⟩

/-! ### What a step does -/

/-- A reply that shows the registration of `a` comes from a store that holds it. -/
theorem World.mem_of_finds {w : World} {c : Ctx} {ok : Bool} {clock : ℕ} {o : Op} {a : String}
    (h : o.finds a (w.perform c ok clock o).2 = true) : agentKey a "registration" ∈ w.store := by
  cases o <;> simp only [World.perform, Op.finds, Bool.false_eq_true] at h
  case existsKey key =>
    cases ok <;> simp only [Op.finds, Bool.false_eq_true, if_false, if_true, Bool.and_eq_true,
      decide_eq_true_eq, beq_iff_eq] at h
    exact h.2 ▸ h.1
  case get key =>
    cases ok <;> simp only [Op.finds, Bool.false_eq_true, if_false, if_true, Bool.and_eq_true,
      beq_iff_eq, AList.lookup_isSome] at h
    exact h.2 ▸ h.1

/-- A step of a route coroutine continues it with the reply of its effect, or, for a
`receive` that has not raised, leaves it waiting. -/
theorem Thread.step_op_reply (w : World) (tid proc ws : ℕ) (o : Op)
    (k : Except PyErr o.Reply → Prog Response) (ok : Bool) (clock : ℕ) :
    (Thread.step w tid ⟨proc, ws, .run (.op o k)⟩ ok clock).2.1 =
        .run (k (w.perform ⟨tid, proc, ws⟩ ok clock o).2) ∨
      (Thread.step w tid ⟨proc, ws, .run (.op o k)⟩ ok clock).2.1 = .run (.op o k) := by
  cases o
  case receive => simp only [Thread.step, stepOp]; split; exacts [.inr rfl, .inl rfl]
  all_goals exact .inl rfl

@[simp] theorem World.afterAdvance_writes (w : World) (proc : ℕ) (a : Advance) :
    (w.afterAdvance proc a).writes = w.writes := by
  cases a <;> rfl

@[simp] theorem World.afterAdvance_store (w : World) (proc : ℕ) (a : Advance) :
    (w.afterAdvance proc a).store = w.store := by
  cases a <;> rfl

/-- A step writes nothing, or is a `SET` of the stepping coroutine, logged. -/
theorem Thread.step_writes (w : World) (tid : ℕ) (th : Thread) (ok : Bool) (clock : ℕ) :
    ((th.step w tid ok clock).1.writes = w.writes ∧ (th.step w tid ok clock).1.store = w.store) ∨
    ∃ key value k, th.task = .run (.op (.set key value) k) ∧
      (th.step w tid ok clock).1 = w.write tid key value := by
  obtain ⟨proc, ws, task⟩ := th
  cases task with
  | run p =>
    cases p with
    | op o k =>
      rw [Thread.step_op_world]
      cases o
      case set key value =>
        simp only [World.perform]
        split
        exacts [.inr ⟨key, value, k, rfl, rfl⟩, .inl ⟨rfl, rfl⟩]
      all_goals exact .inl (by cases ok <;> exact ⟨rfl, rfl⟩)
    | bcast m k => exact .inl ⟨World.afterAdvance_writes .., World.afterAdvance_store ..⟩
    | pure a | raise e => exact .inl ⟨rfl, rfl⟩
  | bcast b k =>
    simp only [Thread.step]
    split
    · split <;> exact .inl ⟨rfl, rfl⟩
    · exact .inl ⟨World.afterAdvance_writes .., World.afterAdvance_store ..⟩
  | relay j | relaySend j m n =>
    simp only [Thread.step]
    repeat' split
    all_goals exact .inl ⟨rfl, rfl⟩

/-- The store never loses a key. -/
theorem Thread.step_store_mono (w : World) (tid : ℕ) (th : Thread) (ok : Bool) (clock : ℕ)
    {key : String} (h : key ∈ w.store) : key ∈ (th.step w tid ok clock).1.store := by
  rcases Thread.step_writes w tid th ok clock with ⟨-, hs⟩ | ⟨_, _, _, -, he⟩
  · rwa [hs]
  · rw [he, World.write_store]
    exact (AList.mem_insert _).2 (.inr h)

/-- What the relay sends for a message of `agent_events`: the event, and in reserve the
notice of a failed send. -/
theorem relayDecode_event {st : Store} {p : Bytes}
    (h : ∃ a, agentKey a "registration" ∈ st ∧ ∃ m, AgentEvent a m ∧ p = Bytes.dumps m) :
    Frame st (relayDecode p).1 ∧ ∀ n ∈ (relayDecode p).2, n = errorNotice .connectionClosed := by
  obtain ⟨a, ha, m, hm, rfl⟩ := h
  exact ⟨.inr (.inl ⟨a, ha, .inr hm⟩), fun _ hn => (Option.mem_some_iff.1 hn).symm⟩

/-- **One step of any coroutine** keeps the world backed by the store before the step, and
the coroutine's task allowed in the store after it. -/
theorem Thread.step_guarded {w : World} {tid : ℕ} {th : Thread} {ok : Bool} {clock : ℕ}
    (hw : w.Guarded w.store) (ht : th.task.Guarded w.store) :
    (th.step w tid ok clock).1.Guarded w.store ∧
      (th.step w tid ok clock).2.1.Guarded w.store := by
  obtain ⟨proc, ws, task⟩ := th
  cases task with
  | run p =>
    obtain ⟨a, found, hf, hp⟩ := ht
    cases hp with
    | pure x => exact ⟨hw, a, found, hf, .pure x⟩
    | raise e => exact ⟨hw, a, found, hf, .raise e⟩
    | @op _ o k ho hk =>
      refine ⟨by rw [Thread.step_op_world]; exact hw.perform ho hf, ?_⟩
      rcases Thread.step_op_reply w tid proc ws o k ok clock with hx | hx <;> rw [hx]
      · refine ⟨a, _, fun h => ?_, hk _⟩
        rcases Bool.or_eq_true _ _ ▸ h with h | h
        exacts [hf h, World.mem_of_finds h]
      · exact ⟨a, found, hf, .op ho hk⟩
    | bcast hm hk =>
      exact ⟨hw.afterAdvance _ _,
        Task.Guarded.resume hf hk (.inr (.inl ⟨a, hf hm.1, .inl hm.2⟩)) _⟩
  | bcast b k =>
    obtain ⟨a, found, hf, hk, hm⟩ := ht
    simp only [Thread.step]
    split
    · refine ⟨?_, a, found, hf, hk, by rwa [Bcast.sent_message]⟩
      split
      exacts [hw.deliver hm, hw]
    · exact ⟨hw.afterAdvance _ _, Task.Guarded.resume hf hk hm _⟩
  | relay j =>
    cases ok
    · exact ⟨hw.dropSub j, "", false, nofun, .raise _⟩
    rcases hs : w.subs[j]? with _ | sb
    · simp only [Thread.step, hs, ↓reduceIte]
      exact ⟨hw, "", false, nofun, .pure _⟩
    · rcases hq : sb.queue with _ | ⟨p, rest⟩
      · simp only [Thread.step, hs, hq, ↓reduceIte]
        split
        exacts [⟨hw, trivial⟩, ⟨hw, "", false, nofun, .pure _⟩]
      · simp only [Thread.step, hs, hq, ↓reduceIte]
        exact ⟨hw.take hs hq, relayDecode_event
          ((hw.subs sb (List.getElem?_mem hs)).2 p (hq ▸ List.mem_cons_self _ _))⟩
  | relaySend j m notice =>
    obtain ⟨hm, hn⟩ := ht
    simp only [Thread.step]
    split
    · exact ⟨hw.deliver hm, trivial⟩
    · rcases notice with _ | n
      · exact ⟨hw, "", false, nofun, .raise _⟩
      · obtain rfl := hn n rfl
        exact ⟨hw, .inr (.inr rfl), nofun⟩

/-! ### The invariant of the deployment -/

/-- Every coroutine a deployment starts with is allowed what it does, for the agent it acts
on. -/
theorem Thread.Serving.guarded {th : Thread} (h : th.Serving) (st : Store) :
    th.task.Guarded st := by
  rcases h with ⟨rq, hr⟩ | hr <;> rw [hr]
  · cases rq with
    | pause a | resume a | restart a =>
      exact ⟨a, false, nofun, lifecycleCommand_guarded (by decide) (by decide) (by decide)⟩
    | injectConfig u => exact ⟨u.agentId, false, nofun, injectConfig_guarded u⟩
    | promoteCanary a => exact ⟨a, false, nofun, promoteCanary_guarded a⟩
    | getConfig a =>
      exact ⟨a, false, nofun,
        ((getAgentConfig_reads a).mono (fun o ho => by cases o <;> trivial)
          fun _ h => h).guarded false⟩
    | list =>
      exact ⟨"", false, nofun,
        (listAgents_reads.mono (fun o ho => by cases o <;> trivial)
          fun _ h => h).guarded false⟩
  · exact ⟨"", false, nofun, websocketAgentEvents_guarded.guarded false⟩

/-- **The invariant.** Every coroutine is allowed what it does, with what it has found
registered in the store, and all the world has recorded is backed by the store. -/
structure Sys.Guarded (s : Sys) : Prop where
  tasks : ∀ th ∈ s.threads, th.task.Guarded s.world.store
  world : s.world.Guarded s.world.store

theorem Sys.guarded_init (store : Store) {threads : List Thread}
    (h : ∀ th ∈ threads, th.Serving) : Sys.Guarded ⟨World.init store, threads⟩ :=
  ⟨fun th hth => (h th hth).guarded _, nofun, nofun, nofun, fun _ _ he => nomatch he⟩

theorem Sys.Guarded.step {s : Sys} (h : s.Guarded) (ch : Choice) : (s.step ch).Guarded := by
  rcases Sys.step_cases s ch with hst | ⟨th, hc⟩
  · rwa [hst]
  have hth : th ∈ s.threads := List.getElem?_mem hc.1
  have hw := Sys.step_world_of_resumes hc
  have hmono := fun key => @Thread.step_store_mono s.world ch.thread th ch.ok ch.clock key
  obtain ⟨hw', ht'⟩ :=
    @Thread.step_guarded s.world ch.thread th ch.ok ch.clock h.world (h.tasks th hth)
  refine ⟨fun th' hth' => ?_, hw ▸ hw'.mono hmono⟩
  rw [Sys.step_threads_of_resumes hc] at hth'
  rcases Sys.mem_step_threads hth' with hth' | rfl | hth'
  · exact hw ▸ (h.tasks th' hth').mono_store hmono
  · exact hw ▸ ht'.mono_store hmono
  · rcases Thread.step_spawned_cases s.world ch.thread th ch.ok ch.clock with
      hs | ⟨j, k, -, hs⟩ <;> rw [hs] at hth'
    · cases hth'
    · rw [List.mem_singleton.1 hth']
      trivial

theorem Sys.Guarded.run {s : Sys} (h : s.Guarded) (cs : List Choice) : (s.run cs).Guarded :=
  Sys.run_of_stable (fun _ ch h => h.step ch) h cs

/-! ### The agents registered -/

/-- The last write to a key is one of the writes to it. -/
theorem lastWrite_eq_some {log : List (ℕ × String × Bytes)} {key : String} {v : Bytes}
    (h : lastWrite log key = some v) : ∃ e ∈ log, e.2.1 = key ∧ e.2.2 = v := by
  induction log with
  | nil => cases h
  | cons e log ih =>
    obtain ⟨t, k, v'⟩ := e
    rw [lastWrite] at h
    rcases hl : lastWrite log key with _ | v''
    · rw [hl, Option.none_or] at h
      split_ifs at h with hk
      cases h
      exact ⟨_, List.mem_cons_self _ _, hk, rfl⟩
    · rw [hl] at h
      obtain ⟨e, he, hk, hv⟩ := ih (hl.trans h)
      exact ⟨e, List.mem_cons_of_mem _ he, hk, hv⟩

theorem Sys.mem_store_run {key : String} (s : Sys) (cs : List Choice)
    (h : key ∈ s.world.store) : key ∈ (s.run cs).world.store := by
  induction cs generalizing s with
  | nil => exact h
  | cons ch cs ih =>
    refine ih _ ?_
    rcases Sys.step_cases s ch with hst | ⟨th, hc⟩
    · rwa [hst]
    · rw [Sys.step_world_of_resumes hc]
      exact Thread.step_store_mono _ _ _ _ _ h

/-- **A step registers no agent**: the only registration it may write is that of an agent
found registered. -/
theorem Sys.Guarded.registered_of_step {s : Sys} (h : s.Guarded) (ch : Choice) {a : String}
    (ha : agentKey a "registration" ∈ (s.step ch).world.store) :
    agentKey a "registration" ∈ s.world.store := by
  rcases Sys.step_cases s ch with hst | ⟨th, hc⟩
  · rwa [hst] at ha
  rw [Sys.step_world_of_resumes hc] at ha
  rcases Thread.step_writes s.world ch.thread th ch.ok ch.clock with
    ⟨-, hs⟩ | ⟨key, value, k, ht, he⟩
  · rwa [hs] at ha
  rw [he, World.write_store] at ha
  rcases (AList.mem_insert _).1 ha with rfl | ha
  · have hg := h.tasks th (List.getElem?_mem hc.1)
    rw [ht] at hg
    obtain ⟨a', found, hf, hp⟩ := hg
    cases hp with
    | op ho _ =>
      rcases ho.2 with ⟨hk, -⟩ | ⟨hk, -⟩
      · obtain ⟨rfl, -⟩ := agentKey_inj (by decide) (by decide) hk
        exact hf ho.1
      · exact absurd (agentKey_inj (by decide) (by decide) hk).2 (by decide)
  · exact ha

theorem Sys.Guarded.registered_of_run {s : Sys} (h : s.Guarded) (cs : List Choice) {a : String}
    (ha : agentKey a "registration" ∈ (s.run cs).world.store) :
    agentKey a "registration" ∈ s.world.store := by
  induction cs generalizing s with
  | nil => exact ha
  | cons ch cs ih => exact h.registered_of_step ch (ih (h.step ch) ha)

/-! ### What every run has done -/

/-- **The API writes only what it has found.** Start any number of server processes on any
store, with any requests and observer connections. In every run, under every interleaving
and every pattern of failures, every write the API has made is to the registration or to the
state of an agent whose registration is in the store; it writes a registration only as a
JSON document, and a state only as `paused`, `running` or `initializing`. No request writes
a key of an agent it has not found registered, and nothing ever removes the registration it
found. -/
theorem writes_guarded {store : Store} {threads : List Thread}
    (hserve : ∀ th ∈ threads, th.Serving) (cs : List Choice) :
    ∀ e ∈ (Sys.run ⟨World.init store, threads⟩ cs).world.writes, ∃ a,
      agentKey a "registration" ∈ (Sys.run ⟨World.init store, threads⟩ cs).world.store ∧
      ((e.2.1 = agentKey a "registration" ∧ ∃ d, e.2.2 = Bytes.dumps (.obj d)) ∨
        (e.2.1 = agentKey a "state" ∧ ∃ st ∈ stateValues, e.2.2 = .text st)) :=
  ((Sys.guarded_init store hserve).run cs).world.writes

theorem writes_guarded_cross :
    (∀ th ∈ crossDeployment, th.Serving) ∧
    ∀ e ∈ (Sys.run ⟨alphaWorld, crossDeployment⟩ crossSchedule).world.writes, ∃ a,
      agentKey a "registration" ∈
        (Sys.run ⟨alphaWorld, crossDeployment⟩ crossSchedule).world.store ∧
      ((e.2.1 = agentKey a "registration" ∧ ∃ d, e.2.2 = Bytes.dumps (.obj d)) ∨
        (e.2.1 = agentKey a "state" ∧ ∃ st ∈ stateValues, e.2.2 = .text st)) :=
  ⟨crossDeployment_serving, writes_guarded crossDeployment_serving crossSchedule⟩

/-- **The API publishes only for agents it has found.** Start any number of server processes
on any store, with any requests and observer connections. In every run, under every
interleaving and every pattern of failures, every message the API has published is for an
agent whose registration is in the store: on `agent_events`, the JSON of one of its
`pause_requested`, `resume_requested`, `restart_requested`, `config_update_requested` or
`canary_promoted` events; on its `pause`, `resume` or `restart` topic, the empty command; on
its `inject_config` topic, the JSON of a document. -/
theorem publishes_guarded {store : Store} {threads : List Thread}
    (hserve : ∀ th ∈ threads, th.Serving) (cs : List Choice) :
    ∀ e ∈ (Sys.run ⟨World.init store, threads⟩ cs).world.published, ∃ a,
      agentKey a "registration" ∈ (Sys.run ⟨World.init store, threads⟩ cs).world.store ∧
      AgentPublish a e.2.1 e.2.2 :=
  ((Sys.guarded_init store hserve).run cs).world.published

theorem publishes_guarded_cross :
    (∀ th ∈ crossDeployment, th.Serving) ∧
    ∀ e ∈ (Sys.run ⟨alphaWorld, crossDeployment⟩ crossSchedule).world.published, ∃ a,
      agentKey a "registration" ∈
        (Sys.run ⟨alphaWorld, crossDeployment⟩ crossSchedule).world.store ∧
      AgentPublish a e.2.1 e.2.2 :=
  ⟨crossDeployment_serving, publishes_guarded crossDeployment_serving crossSchedule⟩

/-- **Observers receive only well-formed frames.** Start any number of server processes on
any store, with any requests and observer connections. In every run, under every
interleaving and every pattern of failures, every frame any websocket has received is a
`connection_established` greeting; an `agent_status_changed` (to `paused`, `running` or
`initializing`) or `agent_config_updated` broadcast, or an event relayed from
`agent_events`, of an agent whose registration is in the store; or the notice a relay sends
after a failed send. In particular no relay ever reports a message it could not decode. -/
theorem frames_guarded {store : Store} {threads : List Thread}
    (hserve : ∀ th ∈ threads, th.Serving) (cs : List Choice) :
    ∀ ws, ∀ e ∈ (Sys.run ⟨World.init store, threads⟩ cs).world.inbox ws,
      Frame (Sys.run ⟨World.init store, threads⟩ cs).world.store e.2 :=
  ((Sys.guarded_init store hserve).run cs).world.inbox

theorem frames_guarded_cross :
    (∀ th ∈ crossDeployment, th.Serving) ∧
    ∀ ws, ∀ e ∈ (Sys.run ⟨alphaWorld, crossDeployment⟩ crossSchedule).world.inbox ws,
      Frame (Sys.run ⟨alphaWorld, crossDeployment⟩ crossSchedule).world.store e.2 :=
  ⟨crossDeployment_serving, frames_guarded crossDeployment_serving crossSchedule⟩

/-- **The API neither registers nor unregisters an agent, and keeps the store
well-formed.** Start any number of server processes on any store, with any requests and
observer connections. In every run, under every interleaving and every pattern of failures,
the registration keys of the store are exactly those it started with; and every key holds
its value from before the run, or a value the API may write for an agent registered from the
start: a JSON document for its registration, `paused`, `running` or `initializing` for its
state. -/
theorem store_guarded {store : Store} {threads : List Thread}
    (hserve : ∀ th ∈ threads, th.Serving) (cs : List Choice) :
    (∀ a, agentKey a "registration" ∈ (Sys.run ⟨World.init store, threads⟩ cs).world.store ↔
      agentKey a "registration" ∈ store) ∧
    ∀ key, (Sys.run ⟨World.init store, threads⟩ cs).world.store.lookup key = store.lookup key ∨
      ∃ a value, agentKey a "registration" ∈ store ∧
        (Sys.run ⟨World.init store, threads⟩ cs).world.store.lookup key = some value ∧
        AgentWrite a key value := by
  have hg := Sys.guarded_init store hserve
  have hreg : ∀ a, agentKey a "registration" ∈
      (Sys.run ⟨World.init store, threads⟩ cs).world.store ↔ agentKey a "registration" ∈ store :=
    fun a => ⟨hg.registered_of_run cs, Sys.mem_store_run ⟨World.init store, threads⟩ cs⟩
  refine ⟨hreg, fun key => ?_⟩
  -- the store is the initial one overlaid with the last write to each key
  obtain ⟨new, hw, hs⟩ := Sys.run_logged ⟨World.init store, threads⟩ cs
  have hlookup : (Sys.run ⟨World.init store, threads⟩ cs).world.store.lookup key =
      (lastWrite new key).or (store.lookup key) := by
    rw [hs]
    exact lookup_replay store new key
  rcases hl : lastWrite new key with _ | v
  · rw [hl, Option.none_or] at hlookup
    exact .inl hlookup
  · obtain ⟨e, he, rfl, rfl⟩ := lastWrite_eq_some hl
    obtain ⟨a, ha, hwr⟩ := (hg.run cs).world.writes e (hw ▸ List.mem_append_right _ he)
    rw [hl] at hlookup
    exact .inr ⟨a, e.2.2, (hreg a).1 ha, hlookup, hwr⟩

theorem store_guarded_cross :
    (∀ th ∈ crossDeployment, th.Serving) ∧
    (∀ a, agentKey a "registration" ∈
        (Sys.run ⟨alphaWorld, crossDeployment⟩ crossSchedule).world.store ↔
      agentKey a "registration" ∈ alphaWorld.store) ∧
    ∀ key, (Sys.run ⟨alphaWorld, crossDeployment⟩ crossSchedule).world.store.lookup key =
        alphaWorld.store.lookup key ∨
      ∃ a value, agentKey a "registration" ∈ alphaWorld.store ∧
        (Sys.run ⟨alphaWorld, crossDeployment⟩ crossSchedule).world.store.lookup key =
          some value ∧ AgentWrite a key value :=
  ⟨crossDeployment_serving, store_guarded crossDeployment_serving crossSchedule⟩

end AgentControl
