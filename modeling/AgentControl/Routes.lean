import AgentControl.Exec

/-!
# The Routes Run Alone

One lemma per control route: every solo run of it, listed by where it stops, with the
world it leaves and what it returns or raises. A store or channel call can fail at any
await and the route then raises `ConnectionError` with the effects made so far; a
broadcast run alone never raises (`Loop.solo`), so a route that has written its document
returns.

What one request does, alone, is read off these lemmas: which effects a failure leaves
behind, what a success stores, and which keys and channels a route can touch.

## Main results

* `exec_lifecycleCommand`, `exec_injectConfig`, `exec_promoteCanary`: the solo runs of
  `pause`/`resume`/`restart`, `inject_config` and `promote_canary`.
* `exec_getAgentConfig`: `get_agent_config` changes nothing.
* `exec_listAgents`: `list_agents` is its `KEYS` call, then one panel run per key, each
  under its own `try`.
-/

namespace AgentControl

section Routes

variable {c : Ctx} {β : Type} {w w' : World}

@[simp] theorem exec_publishAgentEvent_bind {eventType agentId : String} {data : Dict}
    {f : Unit → Prog β} {r : Except PyErr β} :
    Exec c w ((publishAgentEvent eventType agentId data).bind f) w' r ↔
      ∃ t, (w' = w ∧ r = .error .connectionError) ∨
        Exec c (w.publish c.tid agentEvents (Bytes.dumps (agentEvent eventType agentId data t)))
          (f ()) w' r := by
  simp [publishAgentEvent]

/-! ### Pause, resume and restart -/

/-- **The solo runs of `pause`, `resume` and `restart`.** The call fails on the store and
changes nothing, or finds no registration and raises `404`; otherwise it publishes the
request event and the empty command and writes the raw state, failing on the store after
any prefix of these, or it broadcasts `agent_status_changed` and returns. -/
theorem exec_lifecycleCommand {event command state reply agentId : String}
    {r : Except PyErr Response}
    (h : Exec c w (lifecycleCommand event command state reply agentId) w' r) :
    (w' = w ∧ r = .error .connectionError) ∨
    (agentKey agentId "registration" ∉ w.store ∧ w' = w ∧
      r = .error (.httpException 404 "Agent not found")) ∨
    (agentKey agentId "registration" ∈ w.store ∧ ∃ t,
      let w₁ := w.publish c.tid agentEvents (Bytes.dumps (agentEvent event agentId [] t))
      let w₂ := w₁.publish c.tid (agentKey agentId command) (.text "")
      ((w' = w₁ ∨ w' = w₂) ∧ r = .error .connectionError) ∨
      ∃ t' oks, oks.length = (w.registry c.proc).live.length ∧
        w' = (Bcast.init (w.registry c.proc) (statusChanged agentId state t')).soloWorld c
          (w₂.write c.tid (agentKey agentId "state") (.text state)) oks ∧
        r = .ok (.status true ("Agent " ++ agentId ++ reply))) := by
  simp only [lifecycleCommand, Prog.bind_def, Prog.bind_assoc, exec_redisExists_bind,
    exec_publishAgentEvent_bind, exec_redisPublish_bind, exec_now_bind, exec_redisSet_bind,
    Prog.broadcast_bind, exec_broadcast_bind, Prog.pure_bind, Prog.pure_def] at h
  by_cases hk : agentKey agentId "registration" ∈ w.store
  · simp [hk] at h
    rcases h with h | ⟨t, h | h | h | h⟩
    · exact .inl h
    · exact .inl h
    · exact .inr (.inr ⟨hk, t, .inl ⟨.inl h.1, h.2⟩⟩)
    · exact .inr (.inr ⟨hk, t, .inl ⟨.inr h.1, h.2⟩⟩)
    · obtain ⟨t', oks, hlen, rfl, rfl⟩ := h
      exact .inr (.inr ⟨hk, t, .inr ⟨t', oks, hlen, rfl, rfl⟩⟩)
  · simp [hk] at h
    rcases h with h | h
    · exact .inl h
    · exact .inr (.inl ⟨hk, h⟩)

/-! ### Configuration -/

/-- **The solo runs of `inject_config`.** The call fails on the store and changes nothing,
or finds no registration and raises `404`; otherwise it publishes `config_update_requested`
and the raw patch, and only then decodes the registration and merges the patch into it,
raising with both publishes made when either fails; or it writes the merged registration,
broadcasts `agent_config_updated` and returns. -/
theorem exec_injectConfig {u : AgentConfigUpdate} {r : Except PyErr Response}
    (h : Exec c w (injectConfig u) w' r) :
    (w' = w ∧ r = .error .connectionError) ∨
    ((w.store.lookup (agentKey u.agentId "registration")).filter Bytes.truthy = none ∧ w' = w ∧
      r = .error (.httpException 404 "Agent not found")) ∨
    ∃ b, (w.store.lookup (agentKey u.agentId "registration")).filter Bytes.truthy = some b ∧ ∃ t,
      let w₁ := w.publish c.tid agentEvents
        (Bytes.dumps (agentEvent "config_update_requested" u.agentId [("config", .obj u.config)] t))
      let w₂ := w₁.publish c.tid (agentKey u.agentId "inject_config") (Bytes.dumps (.obj u.config))
      (w' = w₁ ∧ r = .error .connectionError) ∨
      (w' = w₂ ∧ ∃ e, r = .error e ∧ (e = .connectionError ∨ b.loads = .error e ∨
        ∃ j, b.loads = .ok j ∧ injectedRegistration j u.config = .error e)) ∨
      ∃ j reg, b.loads = .ok j ∧ injectedRegistration j u.config = .ok reg ∧ ∃ t' oks,
        oks.length = (w.registry c.proc).live.length ∧
        w' = (Bcast.init (w.registry c.proc) (configUpdated u.agentId t')).soloWorld c
          (w₂.write c.tid (agentKey u.agentId "registration") (Bytes.dumps reg)) oks ∧
        r = .ok (.status true ("Configuration injected into agent " ++ u.agentId)) := by
  simp only [injectConfig, Prog.bind_def, Prog.bind_assoc, exec_redisGet_bind] at h
  rcases h with h | h
  · exact .inl h
  cases hb : (w.store.lookup (agentKey u.agentId "registration")).filter Bytes.truthy with
  | none => simp [hb] at h; exact .inr (.inl ⟨rfl, h⟩)
  | some b =>
    cases hj : b.loads with
    | error e =>
      simp [hb, hj, Exec.Cont] at h
      obtain ⟨t, h | h | h⟩ := h
      · exact .inl h
      · exact .inr (.inr ⟨b, rfl, t, .inl h⟩)
      · exact .inr (.inr ⟨b, rfl, t, .inr (.inl ⟨h.1, e, h.2, .inr (.inl hj)⟩)⟩)
    | ok j =>
      cases hi : injectedRegistration j u.config with
      | error e =>
        simp [hb, hj, hi, Exec.Cont] at h
        obtain ⟨t, h | h | h⟩ := h
        · exact .inl h
        · exact .inr (.inr ⟨b, rfl, t, .inl h⟩)
        · exact .inr (.inr ⟨b, rfl, t, .inr (.inl ⟨h.1, e, h.2, .inr (.inr ⟨j, hj, hi⟩)⟩)⟩)
      | ok reg =>
        simp [hb, hj, hi, Exec.Cont] at h
        obtain ⟨t, h | h | h | h⟩ := h
        · exact .inl h
        · exact .inr (.inr ⟨b, rfl, t, .inl h⟩)
        · exact .inr (.inr ⟨b, rfl, t, .inr (.inl ⟨h.1, _, h.2, .inl rfl⟩)⟩)
        · obtain ⟨t', oks, hlen, rfl, rfl⟩ := h
          exact .inr (.inr ⟨b, rfl, t, .inr (.inr ⟨j, reg, hj, hi, t', oks, hlen, rfl, rfl⟩)⟩)

/-! ### Canary promotion -/

/-- **The solo runs of `promote_canary`.** The call fails on the store and changes
nothing, or raises `404`, or fails to decode, check or edit the registration and changes
nothing; or it writes the promoted registration, then publishes `canary_promoted` and
the new execution config, failing on the store after any prefix of these, or broadcasts
`agent_status_changed` with status `running` and returns. -/
theorem exec_promoteCanary {agentId : String} {r : Except PyErr Response}
    (h : Exec c w (promoteCanary agentId) w' r) :
    (w' = w ∧ r = .error .connectionError) ∨
    ((w.store.lookup (agentKey agentId "registration")).filter Bytes.truthy = none ∧ w' = w ∧
      r = .error (.httpException 404 "Agent not found")) ∨
    ∃ b, (w.store.lookup (agentKey agentId "registration")).filter Bytes.truthy = some b ∧
      ((w' = w ∧ ∃ e, r = .error e ∧ (e = .connectionError ∨ b.loads = .error e ∨
        ∃ j, b.loads = .ok j ∧ promotedRegistration j = .error e)) ∨
      ∃ j reg execConfig, b.loads = .ok j ∧ promotedRegistration j = .ok (reg, execConfig) ∧
        let w₁ := w.write c.tid (agentKey agentId "registration") (Bytes.dumps reg)
        ∃ t,
        let w₂ := w₁.publish c.tid agentEvents
          (Bytes.dumps (agentEvent "canary_promoted" agentId [("newMode", .str "live")] t))
        let w₃ := w₂.publish c.tid (agentKey agentId "inject_config")
          (Bytes.dumps (.obj [("executionConfig", execConfig)]))
        ((w' = w₁ ∨ w' = w₂) ∧ r = .error .connectionError) ∨
        ∃ t' oks, oks.length = (w.registry c.proc).live.length ∧
          w' = (Bcast.init (w.registry c.proc) (statusChanged agentId "running" t')).soloWorld c
            w₃ oks ∧
          r = .ok (.status true ("Agent " ++ agentId ++ " promoted from canary to live"))) := by
  simp only [promoteCanary, Prog.bind_def, Prog.bind_assoc, exec_redisGet_bind] at h
  rcases h with h | h
  · exact .inl h
  cases hb : (w.store.lookup (agentKey agentId "registration")).filter Bytes.truthy with
  | none => simp [hb] at h; exact .inr (.inl ⟨rfl, h⟩)
  | some b =>
    refine .inr (.inr ⟨b, rfl, ?_⟩)
    cases hj : b.loads with
    | error e =>
      simp [hb, hj, Exec.Cont] at h
      exact .inl ⟨h.1, e, h.2, .inr (.inl rfl)⟩
    | ok j =>
      cases hi : promotedRegistration j with
      | error e =>
        simp [hb, hj, hi, Exec.Cont] at h
        exact .inl ⟨h.1, e, h.2, .inr (.inr ⟨j, rfl, hi⟩)⟩
      | ok p =>
        obtain ⟨reg, execConfig⟩ := p
        simp [hb, hj, hi, Exec.Cont] at h
        rcases h with h | ⟨t, h | h | h⟩
        · exact .inl ⟨h.1, _, h.2, .inl rfl⟩
        · exact .inr ⟨j, reg, execConfig, rfl, hi, t, .inl ⟨.inl h.1, h.2⟩⟩
        · exact .inr ⟨j, reg, execConfig, rfl, hi, t, .inl ⟨.inr h.1, h.2⟩⟩
        · obtain ⟨t', oks, hlen, rfl, rfl⟩ := h
          exact .inr ⟨j, reg, execConfig, rfl, hi, t, .inr ⟨t', oks, hlen, rfl, rfl⟩⟩

/-- When the registration is there and the patch merges into it, `inject_config` can
return: every call succeeds. -/
theorem injectConfig_succeeds {u : AgentConfigUpdate} {b : Bytes} {j reg : JVal}
    (hb : (w.store.lookup (agentKey u.agentId "registration")).filter Bytes.truthy = some b)
    (hj : b.loads = .ok j) (hi : injectedRegistration j u.config = .ok reg) :
    ∃ w', Exec c w (injectConfig u) w'
      (.ok (.status true ("Configuration injected into agent " ++ u.agentId))) := by
  simp only [injectConfig, Prog.bind_def, Prog.bind_assoc, exec_redisGet_bind, hb]
  simp only [reduceCtorEq, and_false, hj, Prog.liftExcept_ok, Prog.pure_def, Prog.broadcast_bind,
    Prog.pure_bind, hi, exec_publishAgentEvent_bind, exec_redisPublish_bind, exec_redisSet_bind,
    exec_now_bind, exec_broadcast_bind, World.write_registry, World.publish_registry, exec_pure_iff,
    and_true, false_or]
  exact ⟨_, 0, 0, List.replicate (w.registry c.proc).live.length true, by simp, rfl⟩

/-! ### What the control routes leave in the store -/

/-- `pause`, `resume` and `restart` leave the store as it was, or with the raw state
written; they return only after writing it. -/
theorem lifecycleCommand_store {event command state reply agentId : String}
    {r : Except PyErr Response}
    (h : Exec c w (lifecycleCommand event command state reply agentId) w' r) :
    (w'.store = w.store ∧ ∀ resp, r ≠ .ok resp) ∨
    (agentKey agentId "registration" ∈ w.store ∧
      w'.store = w.store.insert (agentKey agentId "state") (.text state)) := by
  rcases exec_lifecycleCommand h with ⟨rfl, rfl⟩ | ⟨-, rfl, rfl⟩ |
    ⟨hk, t, ⟨rfl | rfl, rfl⟩ | ⟨t', oks, -, rfl, rfl⟩⟩
  iterate 4 exact .inl ⟨by simp, fun _ => Except.noConfusion⟩
  exact .inr ⟨hk, by simp⟩

/-- `inject_config` leaves the store as it was and raises, or writes the merged
registration and returns. -/
theorem injectConfig_store {u : AgentConfigUpdate} {r : Except PyErr Response}
    (h : Exec c w (injectConfig u) w' r) :
    (w'.store = w.store ∧ ∀ resp, r ≠ .ok resp) ∨
    ∃ b j reg, (w.store.lookup (agentKey u.agentId "registration")).filter Bytes.truthy = some b ∧
      b.loads = .ok j ∧ injectedRegistration j u.config = .ok reg ∧
      w'.store = w.store.insert (agentKey u.agentId "registration") (Bytes.dumps reg) ∧
      r = .ok (.status true ("Configuration injected into agent " ++ u.agentId)) := by
  rcases exec_injectConfig h with ⟨rfl, rfl⟩ | ⟨-, rfl, rfl⟩ |
    ⟨b, hb, t, ⟨rfl, rfl⟩ | ⟨rfl, e, rfl, -⟩ | ⟨j, reg, hj, hi, t', oks, -, rfl, rfl⟩⟩
  iterate 4 exact .inl ⟨by simp, fun _ => Except.noConfusion⟩
  exact .inr ⟨b, j, reg, hb, hj, hi, by simp, rfl⟩

/-- `promote_canary` leaves the store as it was, or with the promoted registration
written; it returns only after writing it. -/
theorem promoteCanary_store {agentId : String} {r : Except PyErr Response}
    (h : Exec c w (promoteCanary agentId) w' r) :
    (w'.store = w.store ∧ ∀ resp, r ≠ .ok resp) ∨
    ∃ b j reg execConfig,
      (w.store.lookup (agentKey agentId "registration")).filter Bytes.truthy = some b ∧
      b.loads = .ok j ∧ promotedRegistration j = .ok (reg, execConfig) ∧
      w'.store = w.store.insert (agentKey agentId "registration") (Bytes.dumps reg) := by
  rcases exec_promoteCanary h with ⟨rfl, rfl⟩ | ⟨-, rfl, rfl⟩ |
    ⟨b, hb, ⟨rfl, e, rfl, -⟩ | ⟨j, reg, ec, hj, hi, t, ⟨rfl | rfl, rfl⟩ | ⟨t', oks, -, rfl, rfl⟩⟩⟩
  iterate 3 exact .inl ⟨by simp, fun _ => Except.noConfusion⟩
  all_goals exact .inr ⟨b, j, reg, ec, hb, hj, hi, by simp⟩

/-! ### Reading routes -/

theorem getAgentConfig_reads (agentId : String) :
    (getAgentConfig agentId).All Op.Reads fun _ => False := by
  simp only [getAgentConfig, Prog.bind_def, Prog.redisGet, Prog.pure_def]
  repeat' first
    | exact .pure _
    | exact .raise _
    | refine Prog.all_call_bind trivial fun _ => ?_
    | refine Prog.all_liftExcept_bind fun _ => ?_
    | split

theorem agentPanel_reads (regKey : String) : (agentPanel regKey).All Op.Reads fun _ => False := by
  simp only [agentPanel, Prog.bind_def, Prog.redisGet, Prog.now, Prog.pure_def]
  repeat' first
    | exact .pure _
    | exact .raise _
    | refine Prog.all_call_bind trivial fun _ => ?_
    | refine Prog.all_liftExcept_bind fun _ => ?_
    | refine Prog.All.bind ?_ fun _ => ?_
    | split

/-- `get_agent_config` changes nothing. -/
theorem exec_getAgentConfig {agentId : String} {r : Except PyErr Response}
    (h : Exec c w (getAgentConfig agentId) w' r) : w' = w :=
  h.eq_of_reads (getAgentConfig_reads agentId)

/-- The loop of `list_agents` run alone: it changes nothing and never raises; it returns,
in key order, the panel of each key whose body returned one. A body that raised, on a
malformed document or on a failed read alike, contributes nothing. -/
theorem exec_collectPanels {regKeys : List String} {r : Except PyErr (List AgentPanelState)} :
    Exec c w (collectPanels regKeys) w' r ↔ w' = w ∧ ∃ outs,
      List.Forall₂ (fun regKey out => Exec c w (agentPanel regKey) w out) regKeys outs ∧
      r = .ok (outs.filterMap fun out => out.toOption.join) := by
  induction regKeys generalizing w' r with
  | nil => simp [collectPanels, eq_comm]
  | cons regKey rest ih =>
    simp only [collectPanels, Prog.bind_def, exec_bind, exec_tryCatch]
    constructor
    · rintro ⟨w₁, r₁, ⟨w₂, r₂, hp, hh⟩, hc⟩
      have hw₂ := hp.eq_of_reads (agentPanel_reads regKey)
      subst hw₂
      obtain ⟨rfl, rfl⟩ : w₁ = w₂ ∧ r₁ = .ok r₂.toOption.join := by
        cases r₂ <;> simpa [Exec.Handle, Except.toOption] using hh
      simp only [Exec.Cont, exec_bind] at hc
      obtain ⟨w₃, r₃, hr, hc⟩ := hc
      obtain ⟨rfl, outs, hf, rfl⟩ := ih.1 hr
      simp only [Exec.Cont, Prog.pure_def, exec_pure_iff] at hc
      refine ⟨hc.1, r₂ :: outs, .cons hp hf, ?_⟩
      rw [hc.2]
      cases r₂ with
      | error e => rfl
      | ok v => cases v <;> rfl
    · rintro ⟨rfl, _ | ⟨out, outs⟩, hf, rfl⟩
      · cases hf
      obtain ⟨hp, hf⟩ := List.forall₂_cons.1 hf
      refine ⟨w', .ok out.toOption.join, ⟨w', out, hp, ?_⟩, ?_⟩
      · cases out <;> simp [Exec.Handle, Except.toOption]
      · simp only [Exec.Cont, exec_bind]
        refine ⟨w', _, ih.2 ⟨rfl, outs, hf, rfl⟩, ?_⟩
        simp only [Exec.Cont, Prog.pure_def, exec_pure_iff, true_and]
        cases out with
        | error e => rfl
        | ok v => cases v <;> rfl

/-- **`list_agents` run alone** changes nothing. It raises exactly when its `KEYS` call
fails; otherwise it returns, in enumeration order, the panels of the registration keys
whose body returned one, and skips every key whose body raised, whatever it raised. -/
theorem exec_listAgents {r : Except PyErr Response} :
    Exec c w listAgents w' r ↔ w' = w ∧ (r = .error .connectionError ∨ ∃ outs,
      List.Forall₂ (fun regKey out => Exec c w (agentPanel regKey) w out)
        (w.matching registrationPattern) outs ∧
      r = .ok (.panels (outs.filterMap fun out => out.toOption.join))) := by
  simp only [listAgents, Prog.bind_def, Prog.bind_assoc, exec_redisKeys_bind, Prog.pure_def]
  simp only [exec_bind, exec_collectPanels]
  constructor
  · rintro (⟨rfl, rfl⟩ | ⟨w₁, r₁, ⟨rfl, outs, hf, rfl⟩, hc⟩)
    · exact ⟨rfl, .inl rfl⟩
    · simp only [Exec.Cont, exec_pure_iff] at hc
      exact ⟨hc.1, .inr ⟨outs, hf, hc.2⟩⟩
  · rintro ⟨rfl, rfl | ⟨outs, hf, rfl⟩⟩
    · exact .inl ⟨rfl, rfl⟩
    · exact .inr ⟨_, _, ⟨rfl, outs, hf, rfl⟩, by simp [Exec.Cont]⟩

end Routes

end AgentControl
