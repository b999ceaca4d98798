import AgentControl.Config

/-!
# What a Control Request Touches

A control request on the agent `a` reads and writes only `a`'s registration and state,
and publishes only on `agent_events` and `a`'s command topics. Every route's footprint
is a `Prog.All` statement over all of its paths; `Exec.frame` turns it into a frame
condition on the world. Other agents are safe from it because the key scheme
`agent:{agentId}:{kind}` is injective for the kinds in use (`agentKey_inj`), whatever
the ids, `:` included; the pattern of `list_agents` matches registration keys only.

Within `a`'s registration, `inject_config` and `promote_canary` assign `config` and
nothing else (`injectedRegistration_eq_set`, `promotedRegistration_eq_set`).

## Main results

* `lifecycleCommand_within`, `injectConfig_within`, `promoteCanary_within`: footprints.
* `controlRequest_frame`: **a control request on `a` leaves every other key, every other
  agent and every field of `a`'s registration but `config` as it was.**
-/

namespace AgentControl

/-- The agent a control request acts on; the reading routes act on none. -/
def Request.target : Request → Option String
  | .pause a | .resume a | .restart a | .promoteCanary a => some a
  | .injectConfig u => some u.agentId
  | .getConfig _ | .list => none

/-- The store keys of the agent `agentId` a control request may read or write. -/
def ownKeys (agentId key : String) : Prop :=
  key = agentKey agentId "registration" ∨ key = agentKey agentId "state"

/-- The channels a control request on `agentId` may publish on. -/
def ownChannels (agentId channel : String) : Prop :=
  channel = agentEvents ∨ ∃ kind ∈ commandKinds, channel = agentKey agentId kind

/-! ### Footprints -/

theorem lifecycleCommand_within {event command state reply agentId : String}
    (hc : command ∈ commandKinds) :
    (lifecycleCommand event command state reply agentId).All
      (Op.Within (ownKeys agentId) (ownChannels agentId)) fun _ => True := by
  simp only [lifecycleCommand, publishAgentEvent, Prog.bind_def, Prog.bind_assoc,
    Prog.redisExists, Prog.redisPublish, Prog.redisSet, Prog.now, Prog.pure_def]
  repeat' first
    | exact .pure _
    | exact .raise _
    | refine Prog.all_call_bind ?_ fun _ => ?_
    | refine Prog.all_broadcast_bind trivial fun _ => ?_
    | split
    | simp [Op.Within, ownKeys, ownChannels]
    | exact .inr ⟨_, hc, rfl⟩

theorem injectConfig_within (u : AgentConfigUpdate) :
    (injectConfig u).All (Op.Within (ownKeys u.agentId) (ownChannels u.agentId)) fun _ => True := by
  simp only [injectConfig, publishAgentEvent, Prog.bind_def, Prog.bind_assoc, Prog.redisGet,
    Prog.redisPublish, Prog.redisSet, Prog.now, Prog.pure_def]
  repeat' first
    | exact .pure _
    | exact .raise _
    | refine Prog.all_call_bind ?_ fun _ => ?_
    | refine Prog.all_broadcast_bind trivial fun _ => ?_
    | refine Prog.all_liftExcept_bind fun _ => ?_
    | split
    | simp [Op.Within, ownKeys, ownChannels, commandKinds]

theorem promoteCanary_within (agentId : String) :
    (promoteCanary agentId).All (Op.Within (ownKeys agentId) (ownChannels agentId))
      fun _ => True := by
  simp only [promoteCanary, publishAgentEvent, Prog.bind_def, Prog.bind_assoc, Prog.redisGet,
    Prog.redisPublish, Prog.redisSet, Prog.now, Prog.pure_def]
  repeat' first
    | exact .pure _
    | exact .raise _
    | refine Prog.all_call_bind ?_ fun _ => ?_
    | refine Prog.all_broadcast_bind trivial fun _ => ?_
    | refine Prog.all_liftExcept_bind fun _ => ?_
    | split
    | simp [Op.Within, ownKeys, ownChannels, commandKinds]

theorem Request.within {rq : Request} {a : String} (ha : rq.target = some a) :
    rq.route.All (Op.Within (ownKeys a) (ownChannels a)) fun _ => True := by
  cases rq <;> simp only [Request.target, Option.some.injEq, reduceCtorEq] at ha <;> subst ha
  · exact lifecycleCommand_within (by decide)
  · exact lifecycleCommand_within (by decide)
  · exact lifecycleCommand_within (by decide)
  · exact injectConfig_within _
  · exact promoteCanary_within _

/-! ### The registration outside `config` -/

/-- `inject_config` assigns `config` and no other field. -/
theorem injectedRegistration_eq_set {d u : Dict} {reg : JVal}
    (h : injectedRegistration (.obj d) u = .ok reg) : ∃ x, reg = .obj (d.set "config" x) := by
  simp only [injectedRegistration, JVal.contains_obj, except_ok_bind, JVal.setItem_obj,
    except_bind_eq_ok] at h
  split at h <;> simp only [except_bind_eq_ok, JVal.setItem_obj, pure, Except.pure,
    Except.ok.injEq] at h
  · obtain ⟨-, -, x, -, rfl⟩ := h
    exact ⟨x, by simp⟩
  · obtain ⟨_, rfl, -, -, x, -, h⟩ := h
    simp only [JVal.setItem_obj, Except.ok.injEq] at h
    exact ⟨x, h.symm⟩

/-- `promote_canary` assigns `config` and no other field. -/
theorem promotedRegistration_eq_set {d : Dict} {reg execConfig : JVal}
    (h : promotedRegistration (.obj d) = .ok (reg, execConfig)) :
    ∃ x, reg = .obj (d.set "config" x) := by
  simp only [promotedRegistration, except_bind_eq_ok] at h
  obtain ⟨o, -, h⟩ := h
  rcases o with _ | e
  · cases h
  · simp only [except_bind_eq_ok] at h
    obtain ⟨b, -, h⟩ := h
    split at h
    · cases h
    · simp only [except_bind_eq_ok, JVal.setItem_obj, pure, Except.pure, Except.ok.injEq,
        Prod.mk.injEq] at h
      obtain ⟨-, -, -, -, -, -, -, -, x, -, _, rfl, rfl, -⟩ := h
      exact ⟨x, rfl⟩

/-- The registration of `agentId` keeps every field but `config` from `w` to `w'`. -/
def FieldsKept (agentId : String) (w w' : World) : Prop :=
  ∀ d d' : Dict, w.store.lookup (agentKey agentId "registration") = some (Bytes.dumps (.obj d)) →
    w'.store.lookup (agentKey agentId "registration") = some (Bytes.dumps (.obj d')) →
    ∀ field, field ≠ "config" → d'.get? field = d.get? field

theorem fieldsKept_of_lookup_eq {agentId : String} {w w' : World}
    (h : w'.store.lookup (agentKey agentId "registration") =
      w.store.lookup (agentKey agentId "registration")) : FieldsKept agentId w w' := by
  intro d d' hd hd' field _
  rw [h, hd] at hd'
  cases hd'
  rfl

/-- A registration read as `d` and written back with `config` assigned keeps the other
fields. -/
theorem fieldsKept_of_set {agentId : String} {w w' : World} {b : Bytes}
    (hb : (w.store.lookup (agentKey agentId "registration")).filter Bytes.truthy = some b)
    (hw : ∀ d : Dict, b = Bytes.dumps (.obj d) →
      ∃ x, w'.store.lookup (agentKey agentId "registration") =
        some (Bytes.dumps (.obj (d.set "config" x)))) : FieldsKept agentId w w' := by
  intro d d' hd hd' field hf
  simp only [hd, Option.filter, Bytes.truthy_dumps, if_true, Option.some.injEq] at hb
  obtain ⟨x, hx⟩ := hw d hb.symm
  rw [hx, Option.some.injEq] at hd'
  cases hd'
  exact Dict.get?_set_of_ne _ _ (Ne.symm hf)

section Frame

variable {c : Ctx} {w w' : World} {r : Except PyErr Response}

theorem fieldsKept_lifecycleCommand {event command state reply agentId : String}
    (h : Exec c w (lifecycleCommand event command state reply agentId) w' r) :
    FieldsKept agentId w w' := by
  refine fieldsKept_of_lookup_eq ?_
  rcases lifecycleCommand_store h with ⟨hs, -⟩ | ⟨-, hs⟩
  · rw [hs]
  · rw [hs, AList.lookup_insert_ne]
    intro he
    exact absurd (agentKey_inj (by decide) (by decide) he).2 (by decide)

theorem fieldsKept_injectConfig {u : AgentConfigUpdate} (h : Exec c w (injectConfig u) w' r) :
    FieldsKept u.agentId w w' := by
  rcases injectConfig_store h with ⟨hs, -⟩ | ⟨b, j, reg, hb, hj, hi, hs, -⟩
  · exact fieldsKept_of_lookup_eq (by rw [hs])
  · refine fieldsKept_of_set hb fun d hd => ?_
    subst hd
    obtain rfl : j = .obj d := by simpa using hj.symm
    obtain ⟨x, rfl⟩ := injectedRegistration_eq_set hi
    exact ⟨x, by simp [hs]⟩

theorem fieldsKept_promoteCanary {agentId : String} (h : Exec c w (promoteCanary agentId) w' r) :
    FieldsKept agentId w w' := by
  rcases promoteCanary_store h with ⟨hs, -⟩ | ⟨b, j, reg, execConfig, hb, hj, hi, hs⟩
  · exact fieldsKept_of_lookup_eq (by rw [hs])
  · refine fieldsKept_of_set hb fun d hd => ?_
    subst hd
    obtain rfl : j = .obj d := by simpa using hj.symm
    obtain ⟨x, rfl⟩ := promotedRegistration_eq_set hi
    exact ⟨x, by simp [hs]⟩

/-- **A control request on `a` touches only `a`.** Every path of `pause`, `resume`,
`restart`, `injectConfig` and `promoteCanary` on `a` reads and writes only `a`'s
registration and state and publishes only on `agent_events` and `a`'s command topics. So
a run of it leaves every other key as it was, in particular every document of every
other agent, whatever the ids; and it leaves every field of `a`'s registration but
`config` as it was. The pattern of `list_agents` matches the registration keys and no
other key of the scheme, and the scheme is injective over all ids. -/
theorem controlRequest_frame {rq : Request} {a : String} (ha : rq.target = some a)
    (h : Exec c w rq.route w' r) :
    rq.route.All (Op.Within (ownKeys a) (ownChannels a)) (fun _ => True) ∧
    (∀ key, ¬ ownKeys a key → w'.store.lookup key = w.store.lookup key) ∧
    (∀ b, b ≠ a → ∀ kind ∈ storeKinds,
      w'.store.lookup (agentKey b kind) = w.store.lookup (agentKey b kind)) ∧
    (∃ new, w'.published = w.published ++ new ∧ ∀ e ∈ new, ownChannels a e.2.1) ∧
    FieldsKept a w w' ∧
    (∀ b kind, kind ∈ storeKinds →
      (globMatch registrationPattern.data (agentKey b kind).data = true ↔ kind = "registration")) ∧
    (∀ b b' kind kind', (kind ∈ storeKinds ∨ kind ∈ commandKinds) →
      (kind' ∈ storeKinds ∨ kind' ∈ commandKinds) →
      agentKey b kind = agentKey b' kind' → b = b' ∧ kind = kind') := by
  have hw := Request.within ha
  obtain ⟨hkeys, hpub⟩ := h.frame hw
  refine ⟨hw, hkeys, fun b hb kind hk => hkeys _ ?_, hpub, ?_,
    fun b kind hk => globMatch_registrationPattern_agentKey (colon_not_mem_kind (.inl hk)),
    fun b b' kind kind' hk hk' => agentKey_inj (colon_not_mem_kind hk) (colon_not_mem_kind hk')⟩
  · rintro (he | he) <;> exact hb (agentKey_inj (colon_not_mem_kind (.inl hk)) (by decide) he).1
  · cases rq <;> simp only [Request.target, Option.some.injEq, reduceCtorEq] at ha <;> subst ha
    · exact fieldsKept_lifecycleCommand h
    · exact fieldsKept_lifecycleCommand h
    · exact fieldsKept_lifecycleCommand h
    · exact fieldsKept_injectConfig h
    · exact fieldsKept_promoteCanary h

/-- `pause a1` run alone by the scheduler on `riskWorld`. -/
def pauseRun : Sys :=
  Sys.run ⟨riskWorld, [⟨0, 0, .run (pauseAgent "a1")⟩]⟩ (List.replicate 7 ⟨0, true, 5, false⟩)

theorem controlRequest_frame_pause :
    (Request.pause "a1").target = some "a1" ∧
    Exec ⟨0, 0, 0⟩ riskWorld (Request.pause "a1").route pauseRun.world
      (.ok (.status true "Agent a1 paused")) ∧
    FieldsKept "a1" riskWorld pauseRun.world := by
  have ha : (Request.pause "a1").target = some "a1" := rfl
  have h : Exec ⟨0, 0, 0⟩ riskWorld (Request.pause "a1").route pauseRun.world
      (.ok (.status true "Agent a1 paused")) :=
    Sys.exec_of_run (List.replicate 7 ⟨0, true, 5, false⟩) .pure rfl
  exact ⟨ha, h, (controlRequest_frame ha h).2.2.2.2.1⟩

end Frame

end AgentControl
