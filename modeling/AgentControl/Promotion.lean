import AgentControl.Listing

/-!
# Promoting a Canary

`promote_canary` and the loop of `list_agents` run the same canary test on a
registration: its `config.executionConfig` is a document whose `mode` is `canary` or
whose `canaryMode`, `False` when absent, is truthy (`executionConfigOf`, then
`signalsCanary`). Promotion writes back the registration with `mode` set to `live` and
`canaryMode` to `False`, which is exactly what makes the test fail: after one successful
promotion, `list_agents` stops showing the agent as a canary and a second promotion
raises `400`.

Every other shape of the registration makes promotion raise before its first effect: a
value that is not a document rejects the subscripts and `get` of the source, a missing key
is caught by its `in` tests.

## Main results

* `promotedRegistration_eq_ok`: the pure part of the route returns exactly on a
  `CanaryRegistration`, and returns the `promotedDoc` and the `liveConfig`.
* `agentPanel_not_canary`: a registration whose canary test does not hold is never
  listed as `canary`, nor offered `promote`.
* `agentPanel_agentId`: a panel shows the `agentId` field of its registration.
* `canaryPanel_promotable`: **an agent listed as `canary` can be promoted under the id its
  panel shows, when its registration names its own key**; the two routes agree on what a
  canary is.
* `promoteCanary_not_canary`, `promoteCanary_raises_not_canary`: promotion of such a
  registration changes nothing, and raises `400` when the store answers.
* `promoteCanary_promotes_once`: **promotion succeeds exactly on a canary registration;
  it stores the same registration with `mode` and `canaryMode` switched, after which
  `list_agents` no longer sees a canary and a second promotion fails.**
-/

namespace AgentControl

/-! ### The canary test -/

/-- `exec_config.get("mode") == "canary" or exec_config.get("canaryMode", False)`, on an
execution config that is a document. -/
def CanaryConfig (ec : Dict) : Prop :=
  Dict.get? ec "mode" = some (.str "canary") ∨
    ((Dict.get? ec "canaryMode").getD (.bool false)).truthy = true

instance : DecidablePred CanaryConfig := fun ec => by unfold CanaryConfig; infer_instance

theorem signalsCanary_obj (ec : Dict) :
    signalsCanary (.obj ec) = .ok (decide (CanaryConfig ec)) := by
  have hm : ∀ o : Option JVal,
      (o.getD .null == .str "canary") = decide (o = some (.str "canary")) := by
    intro o; cases o <;> simp [Bool.beq_eq_decide_eq]
  simp only [signalsCanary, JVal.getOr_obj, except_ok_bind, hm, CanaryConfig]
  by_cases h : Dict.get? ec "mode" = some (.str "canary") <;> simp [h, pure, Except.pure]

/-- `get` is a dict method: the test raises on anything else. -/
theorem obj_of_signalsCanary {v : JVal} {b : Bool} (h : signalsCanary v = .ok b) :
    ∃ ec, v = .obj ec := by
  cases v <;> first | exact ⟨_, rfl⟩ | cases h

/-- The execution config is found exactly when the registration is a document whose
`config` is a document holding `executionConfig`. A `config` of another type either
fails the `in` test (a list, a string) or rejects the subscript. -/
theorem executionConfigOf_eq_some {j v : JVal} :
    executionConfigOf j = .ok (some v) ↔
      ∃ d cfg : Dict, j = .obj d ∧ Dict.get? d "config" = some (.obj cfg) ∧
        Dict.get? cfg "executionConfig" = some v := by
  constructor
  · intro h
    obtain ⟨b, -, h₁⟩ := except_bind_eq_ok.1 h
    cases b
    · cases h₁
    obtain ⟨config, hc, h₂⟩ := except_bind_eq_ok.1 h₁
    obtain ⟨b, -, h₃⟩ := except_bind_eq_ok.1 h₂
    cases b
    · cases h₃
    obtain ⟨d, rfl, hd⟩ := JVal.getItem_eq_ok.1 hc
    cases he : config.getItem "executionConfig" with
    | error e => rw [if_pos rfl, he] at h₃; cases h₃
    | ok v' =>
      rw [if_pos rfl, he] at h₃
      cases h₃
      obtain ⟨cfg, rfl, hcfg⟩ := JVal.getItem_eq_ok.1 he
      exact ⟨d, cfg, rfl, hd, hcfg⟩
  · rintro ⟨d, cfg, rfl, hc, he⟩
    simp [executionConfigOf, Dict.mem_keys_iff, hc, he, JVal.getItem_obj]

/-! ### The promoted registration -/

/-- A registration `d` that promotion accepts, with its `config` document `cfg` and
execution config `ec`. -/
structure CanaryRegistration (d cfg ec : Dict) : Prop where
  config : Dict.get? d "config" = some (.obj cfg)
  executionConfig : Dict.get? cfg "executionConfig" = some (.obj ec)
  canary : CanaryConfig ec

/-- The execution config `ec` with `mode` set to `live`, then `canaryMode` to `False`. -/
def liveConfig (ec : Dict) : Dict :=
  Dict.set (Dict.set ec "mode" (.str "live")) "canaryMode" (.bool false)

/-- The registration `d` with only its execution config replaced by `liveConfig ec`. -/
def promotedDoc (d cfg ec : Dict) : Dict :=
  Dict.set d "config" (.obj (Dict.set cfg "executionConfig" (.obj (liveConfig ec))))

theorem not_canaryConfig_liveConfig (ec : Dict) : ¬ CanaryConfig (liveConfig ec) := by
  simp [CanaryConfig, liveConfig, Dict.get?_set, JVal.truthy]

/-- The promoted registration is found with its live execution config. -/
theorem executionConfigOf_promotedDoc (d cfg ec : Dict) :
    executionConfigOf (.obj (promotedDoc d cfg ec)) = .ok (some (.obj (liveConfig ec))) :=
  executionConfigOf_eq_some.2
    ⟨_, Dict.set cfg "executionConfig" (.obj (liveConfig ec)), rfl, by simp [promotedDoc], by simp⟩

/-- **What promotion computes**: it returns exactly on a canary registration, with the
registration and the execution config it then writes and publishes. -/
theorem promotedRegistration_eq_ok {j reg execConfig : JVal} :
    promotedRegistration j = .ok (reg, execConfig) ↔
      ∃ d cfg ec, j = .obj d ∧ CanaryRegistration d cfg ec ∧
        reg = .obj (promotedDoc d cfg ec) ∧ execConfig = .obj (liveConfig ec) := by
  constructor
  · intro h
    obtain ⟨o, ho, h₁⟩ := except_bind_eq_ok.1 h
    rcases o with _ | v
    · cases h₁
    obtain ⟨d, cfg, rfl, hc, hv⟩ := executionConfigOf_eq_some.1 ho
    obtain ⟨b, hb, h₂⟩ := except_bind_eq_ok.1 h₁
    obtain ⟨ec, rfl⟩ := obj_of_signalsCanary hb
    cases b
    · cases h₂
    simp only [Bool.not_true, Bool.false_eq_true, reduceIte, JVal.setItem_obj, JVal.getItem_obj,
      hc, bind_pure_comp, Except.map_ok, except_ok_bind, pure_bind, Except.ok.injEq,
      Prod.mk.injEq] at h₂
    rw [signalsCanary_obj] at hb
    obtain ⟨rfl, rfl⟩ := h₂
    exact ⟨d, cfg, ec, rfl, ⟨hc, hv, of_decide_eq_true (Except.ok.inj hb)⟩, rfl, rfl⟩
  · rintro ⟨d, cfg, ec, rfl, ⟨hc, he, hm⟩, rfl, rfl⟩
    have ho := executionConfigOf_eq_some.2 ⟨d, cfg, rfl, hc, he⟩
    simp [promotedRegistration, ho, signalsCanary_obj, hm, hc, JVal.getItem_obj, promotedDoc,
      liveConfig]

theorem promotedRegistration_not_canary {j : JVal} {ec : Dict}
    (he : executionConfigOf j = .ok (some (.obj ec))) (hn : ¬ CanaryConfig ec) :
    promotedRegistration j = .error (.httpException 400 "Agent is not in canary mode") := by
  simp only [promotedRegistration, he, Bool.not_eq_eq_eq_not, Bool.not_true, bind_pure_comp,
    pure_bind, except_ok_bind, signalsCanary_obj, hn, decide_False, reduceIte]
  rfl

/-! ### The canary test of `list_agents` -/

/-- A panel carries the status and the actions it was validated with. -/
theorem validate_status {agentId name : JVal} {status : String} {lastSignal : ℤ}
    {pnl24h : JVal} {actions : List String} {tags : List JVal} {lastUpdated : ℕ}
    {p : AgentPanelState}
    (h : AgentPanelState.validate agentId name status lastSignal pnl24h actions tags
      lastUpdated = .ok p) :
    p.status = status ∧ p.actions = actions := by
  simp only [AgentPanelState.validate, except_bind_eq_ok] at h
  obtain ⟨_, -, _, -, _, -, _, -, h⟩ := h
  cases h
  exact ⟨rfl, rfl⟩

/-- A panel shows the id it was validated with. -/
theorem validate_agentId {agentId name : JVal} {status : String} {lastSignal : ℤ}
    {pnl24h : JVal} {actions : List String} {tags : List JVal} {lastUpdated : ℕ}
    {p : AgentPanelState}
    (h : AgentPanelState.validate agentId name status lastSignal pnl24h actions tags
      lastUpdated = .ok p) :
    agentId = .str p.agentId := by
  simp only [AgentPanelState.validate, except_bind_eq_ok] at h
  obtain ⟨s, hs, _, -, _, -, _, -, h⟩ := h
  cases h
  cases agentId <;> simp only [validateStr, reduceCtorEq, Except.ok.injEq] at hs
  rw [hs]

/-- Without the canary test, the status is `paused` or `running`, and `promote` is not
offered. -/
theorem agentStatus_not_canary (state : String) :
    agentStatus state false ≠ "canary" ∧ "promote" ∉ statusActions (agentStatus state false) := by
  simp only [agentStatus, Bool.false_eq_true, if_false]
  split_ifs <;> decide

section Runs

variable {c : Ctx} {w w' : World}

theorem lookup_of_filter_loads {o : Option Bytes} {b : Bytes} {v : JVal}
    (hb : o.filter Bytes.truthy = some b) (hv : b.loads = .ok v) : o = some (Bytes.dumps v) := by
  obtain ⟨hb, -⟩ := Option.filter_eq_some.1 hb
  rw [Option.mem_def.1 hb, Bytes.loads_eq_ok.1 hv]

/-- A panel is built only from a registration that decodes. -/
theorem agentPanel_registration {regKey : String} {panel : AgentPanelState}
    (h : Exec c w (agentPanel regKey) w' (.ok (some panel))) :
    ∃ j, w.store.lookup regKey = some (Bytes.dumps j) := by
  simp only [agentPanel, Prog.bind_def, exec_redisGet_bind, reduceCtorEq, and_false,
    false_or] at h
  cases hb : (w.store.lookup regKey).filter Bytes.truthy with
  | none =>
    simp only [hb, Prog.pure_def, exec_pure_iff, Except.ok.injEq, reduceCtorEq, and_false] at h
  | some b =>
    cases hj : b.loads with
    | error e =>
      simp only [hb, hj, exec_liftExcept_bind, Exec.Cont, exec_raise_iff, reduceCtorEq,
        and_false] at h
    | ok j => exact ⟨j, lookup_of_filter_loads hb hj⟩

/-- A panel shows the `agentId` field of the registration it was built from, which need
not name the agent of the key. -/
theorem agentPanel_agentId {regKey : String} {panel : AgentPanelState}
    (h : Exec c w (agentPanel regKey) w' (.ok (some panel))) :
    ∃ j, w.store.lookup regKey = some (Bytes.dumps j) ∧
      j.getOr "agentId" (.str "unknown") = .ok (.str panel.agentId) := by
  obtain ⟨j, hs⟩ := agentPanel_registration h
  refine ⟨j, hs, ?_⟩
  simp only [agentPanel, Prog.bind_def, exec_redisGet_bind, hs, reduceCtorEq, and_false,
    false_or] at h
  refine h.returns (?_ : Prog.Returns
    (fun o => ∀ p, o = some p → j.getOr "agentId" (.str "unknown") = .ok (.str p.agentId)) _)
    panel rfl
  simp only [Bytes.truthy_dumps, Option.filter_some, if_true, Bytes.loads_dumps,
    Prog.liftExcept_ok, Prog.pure_bind, Prog.pure_def, Prog.redisGet, Prog.now, Prog.map_def]
  rcases hid : j.getOr "agentId" (.str "unknown") with e | v
  · exact .raise _
  simp only [Prog.liftExcept_ok, Prog.pure_bind]
  repeat' first
    | refine Prog.returns_liftExcept_bind fun p hp => ?_
    | refine Prog.returns_call_bind fun _ => ?_
    | refine .pure fun _ hq => ?_
    | exact .raise _
    | split
  all_goals
    cases hq
    rw [validate_agentId hp]

/-- **A registration whose canary test does not hold is not listed as a canary**: every
panel the loop of `list_agents` builds for it, whatever its state, metrics and last
signal, has a status other than `canary` and does not offer `promote`. -/
theorem agentPanel_not_canary {regKey : String} {j : JVal} {panel : AgentPanelState}
    (hs : w.store.lookup regKey = some (Bytes.dumps j))
    (hn : ∀ e, executionConfigOf j = .ok (some e) → signalsCanary e ≠ .ok true)
    (h : Exec c w (agentPanel regKey) w' (.ok (some panel))) :
    panel.status ≠ "canary" ∧ "promote" ∉ panel.actions := by
  simp only [agentPanel, Prog.bind_def, exec_redisGet_bind, hs, reduceCtorEq, and_false,
    false_or] at h
  refine h.returns (?_ : Prog.Returns
    (fun o => ∀ p, o = some p → p.status ≠ "canary" ∧ "promote" ∉ p.actions) _) panel rfl
  simp only [Bytes.truthy_dumps, Option.filter_some, if_true, Bytes.loads_dumps,
    Prog.liftExcept_ok, Prog.pure_bind, Prog.pure_def, Prog.redisGet, Prog.now, Prog.map_def]
  -- the test raises, finds no execution config, or returns `False`
  rcases hx : executionConfigOf j with e | _ | e
  case' ok.some =>
    simp only [Prog.liftExcept_ok, Prog.pure_bind]
    rcases hy : signalsCanary e with e' | _ | _
    case ok.true => exact absurd hy (hn e hx)
  all_goals
    simp only [Prog.liftExcept_ok, Prog.liftExcept_error, Prog.pure_bind, Prog.raise_bind]
    repeat' first
      | refine Prog.returns_liftExcept_bind fun p hp => ?_
      | refine Prog.returns_call_bind fun _ => ?_
      | refine .pure fun _ hq => ?_
      | exact .raise _
      | split
  all_goals
    cases hq
    rw [(validate_status hp).1, (validate_status hp).2]
    exact agentStatus_not_canary _

/-! ### Promotion, solo -/

/-- Every successful promotion read a canary registration and wrote it back promoted. -/
theorem promoteCanary_ok {agentId : String} {resp : Response}
    (h : Exec c w (promoteCanary agentId) w' (.ok resp)) :
    ∃ d cfg ec, w.store.lookup (agentKey agentId "registration") = some (Bytes.dumps (.obj d)) ∧
      CanaryRegistration d cfg ec ∧
      w'.store = w.store.insert (agentKey agentId "registration")
        (Bytes.dumps (.obj (promotedDoc d cfg ec))) := by
  rcases promoteCanary_store h with ⟨-, hr⟩ | ⟨b, j, reg, ec', hb, hj, hi, hs⟩
  · exact absurd rfl (hr resp)
  obtain ⟨d, cfg, ec, rfl, hc, rfl, -⟩ := promotedRegistration_eq_ok.1 hi
  exact ⟨d, cfg, ec, lookup_of_filter_loads hb hj, hc, hs⟩

/-- On a canary registration, promotion can return: every call succeeds. -/
theorem promoteCanary_succeeds {agentId : String} {d cfg ec : Dict}
    (hs : w.store.lookup (agentKey agentId "registration") = some (Bytes.dumps (.obj d)))
    (hc : CanaryRegistration d cfg ec) :
    ∃ w', Exec c w (promoteCanary agentId) w'
      (.ok (.status true ("Agent " ++ agentId ++ " promoted from canary to live"))) := by
  have hi := promotedRegistration_eq_ok.2 ⟨d, cfg, ec, rfl, hc, rfl, rfl⟩
  simp only [promoteCanary, Prog.bind_def, Prog.bind_assoc, exec_redisGet_bind, hs,
    Option.filter_some, Bytes.truthy_dumps, if_true]
  simp only [reduceCtorEq, and_false, Bytes.loads_dumps, Prog.liftExcept_ok, Prog.pure_def,
    Prog.broadcast_bind, Prog.pure_bind, hi, exec_redisSet_bind, exec_publishAgentEvent_bind,
    exec_redisPublish_bind, exec_now_bind, exec_broadcast_bind, World.publish_registry,
    World.write_registry, exec_pure_iff, and_true, false_or]
  exact ⟨_, 0, 0, List.replicate (w.registry c.proc).live.length true, by simp, rfl⟩

/-- **Promotion of an agent that is not a canary** changes nothing: it fails on the store
or raises `400`. -/
theorem promoteCanary_not_canary {agentId : String} {d ec : Dict} {r : Except PyErr Response}
    (hs : w.store.lookup (agentKey agentId "registration") = some (Bytes.dumps (.obj d)))
    (he : executionConfigOf (.obj d) = .ok (some (.obj ec))) (hn : ¬ CanaryConfig ec)
    (h : Exec c w (promoteCanary agentId) w' r) :
    w' = w ∧
      (r = .error .connectionError ∨
        r = .error (.httpException 400 "Agent is not in canary mode")) := by
  have hi := promotedRegistration_not_canary he hn
  rcases exec_promoteCanary h with ⟨rfl, rfl⟩ | ⟨hb, -⟩ |
    ⟨b, hb, ⟨rfl, e, rfl, he'⟩ | ⟨j, reg, ec', hj, hi', -⟩⟩
  · exact ⟨rfl, .inl rfl⟩
  · simp [hs] at hb
  all_goals
    simp only [hs, Option.filter_some, Bytes.truthy_dumps, if_true, Option.some.injEq] at hb
    subst hb
  · rcases he' with rfl | he' | ⟨j, hj, he'⟩
    · exact ⟨rfl, .inl rfl⟩
    · cases he'
    · cases hj
      cases hi.symm.trans he'
      exact ⟨rfl, .inr rfl⟩
  · cases hj
    cases hi.symm.trans hi'

/-- When the store answers, promotion of an agent that is not a canary raises `400`. -/
theorem promoteCanary_raises_not_canary {agentId : String} {d ec : Dict}
    (hs : w.store.lookup (agentKey agentId "registration") = some (Bytes.dumps (.obj d)))
    (he : executionConfigOf (.obj d) = .ok (some (.obj ec))) (hn : ¬ CanaryConfig ec) :
    Exec c w (promoteCanary agentId) w
      (.error (.httpException 400 "Agent is not in canary mode")) := by
  simp only [promoteCanary, Prog.bind_def, Prog.bind_assoc, exec_redisGet_bind, hs,
    Option.filter_some, Bytes.truthy_dumps, if_true]
  simp [promotedRegistration_not_canary he hn, Exec.Cont]

/-- **`list_agents` and `promote_canary` agree on what a canary is**: a panel that
`list_agents` builds for the registration of `agentId` shows the `agentId` field of that
registration; when the field names the agent of the key and the panel shows `canary` or
offers `promote`, `promote_canary` of the id the panel shows can succeed from the same
world. -/
theorem canaryPanel_promotable {agentId : String} {panel : AgentPanelState}
    (h : Exec c w (agentPanel (agentKey agentId "registration")) w' (.ok (some panel)))
    (hp : panel.status = "canary" ∨ "promote" ∈ panel.actions) :
    (∃ j, w.store.lookup (agentKey agentId "registration") = some (Bytes.dumps j) ∧
      j.getOr "agentId" (.str "unknown") = .ok (.str panel.agentId)) ∧
    (panel.agentId = agentId →
      ∃ w'' resp, Exec c w (promoteCanary panel.agentId) w'' (.ok resp)) := by
  refine ⟨agentPanel_agentId h, fun hid => ?_⟩
  rw [hid]
  obtain ⟨j, hs⟩ := agentPanel_registration h
  obtain ⟨e, he, hc⟩ : ∃ e, executionConfigOf j = .ok (some e) ∧ signalsCanary e = .ok true := by
    by_contra hn
    push_neg at hn
    have hnc := agentPanel_not_canary hs hn h
    exact hp.elim hnc.1 hnc.2
  obtain ⟨ec, rfl⟩ := obj_of_signalsCanary hc
  obtain ⟨d, cfg, rfl, hcfg, hec⟩ := executionConfigOf_eq_some.1 he
  rw [signalsCanary_obj] at hc
  exact (promoteCanary_succeeds hs ⟨hcfg, hec, of_decide_eq_true (Except.ok.inj hc)⟩).imp
    fun _ h => ⟨_, h⟩

/-- The panel of `c1` on `canaryWorld` shows `canary` and the id `c1`, and `c1` can be
promoted. -/
theorem canaryPanel_promotable_c1 :
    Exec ⟨0, 0, 0⟩ canaryWorld (agentPanel (agentKey "c1" "registration")) canaryWorld
      (.ok (some ⟨"c1", some "Canary", "canary", 0, 0, ["promote", "pause", "restart"],
        ["canary"], 9⟩)) ∧
    ∃ w'' resp, Exec ⟨0, 0, 0⟩ canaryWorld (promoteCanary "c1") w'' (.ok resp) :=
  have h : Exec ⟨0, 0, 0⟩ canaryWorld (agentPanel (agentKey "c1" "registration")) canaryWorld
      (.ok (some ⟨"c1", some "Canary", "canary", 0, 0, ["promote", "pause", "restart"],
        ["canary"], 9⟩)) :=
    .op true 9 <| .op true 9 <| .op true 9 <| .op true 9 <| .op true 9 .pure
  ⟨h, (canaryPanel_promotable h (.inl rfl)).2 rfl⟩

end Runs

/-- **Promotion succeeds exactly once.** From any world, `promote_canary a` can return
exactly when the stored registration of `a` decodes to a document whose
`config.executionConfig` is a document with `mode` `canary` or a truthy `canaryMode`.
Every run that returns stored that registration with only `mode` set to `live` and
`canaryMode` to `False`. On it the canary test of `list_agents` fails, so no panel built
for it is `canary` or offers `promote`; and a second `promote_canary a` from there, with
no write in between, changes nothing and fails, with `400` when the store answers. -/
theorem promoteCanary_promotes_once (c : Ctx) (w : World) (agentId : String) :
    ((∃ w' resp, Exec c w (promoteCanary agentId) w' (.ok resp)) ↔
      ∃ d cfg ec, w.store.lookup (agentKey agentId "registration") = some (Bytes.dumps (.obj d)) ∧
        CanaryRegistration d cfg ec) ∧
    ∀ w' resp, Exec c w (promoteCanary agentId) w' (.ok resp) →
      ∃ d cfg ec, w.store.lookup (agentKey agentId "registration") = some (Bytes.dumps (.obj d)) ∧
        CanaryRegistration d cfg ec ∧
        w'.store = w.store.insert (agentKey agentId "registration")
          (Bytes.dumps (.obj (promotedDoc d cfg ec))) ∧
        executionConfigOf (.obj (promotedDoc d cfg ec)) = .ok (some (.obj (liveConfig ec))) ∧
        signalsCanary (.obj (liveConfig ec)) = .ok false ∧
        (∀ (c' : Ctx) w'' panel, Exec c' w' (agentPanel (agentKey agentId "registration")) w''
          (.ok (some panel)) → panel.status ≠ "canary" ∧ "promote" ∉ panel.actions) ∧
        (∀ (c' : Ctx) w'' r, Exec c' w' (promoteCanary agentId) w'' r → w'' = w' ∧
          (r = .error .connectionError ∨
            r = .error (.httpException 400 "Agent is not in canary mode"))) ∧
        ∀ c' : Ctx, Exec c' w' (promoteCanary agentId) w'
          (.error (.httpException 400 "Agent is not in canary mode")) := by
  refine ⟨⟨fun ⟨w', resp, h⟩ => ?_, fun ⟨d, cfg, ec, hs, hc⟩ => ?_⟩, fun w' resp h => ?_⟩
  · obtain ⟨d, cfg, ec, hs, hc, -⟩ := promoteCanary_ok h
    exact ⟨d, cfg, ec, hs, hc⟩
  · exact (promoteCanary_succeeds hs hc).imp fun _ h => ⟨_, h⟩
  obtain ⟨d, cfg, ec, hs, hc, hst⟩ := promoteCanary_ok h
  have hs' : w'.store.lookup (agentKey agentId "registration") =
      some (Bytes.dumps (.obj (promotedDoc d cfg ec))) := by
    rw [hst]; exact AList.lookup_insert _
  have he := executionConfigOf_promotedDoc d cfg ec
  have hn : signalsCanary (.obj (liveConfig ec)) = .ok false := by
    rw [signalsCanary_obj, decide_eq_false (not_canaryConfig_liveConfig ec)]
  have hn' : ∀ e, executionConfigOf (.obj (promotedDoc d cfg ec)) = .ok (some e) →
      signalsCanary e ≠ .ok true := by
    intro e he' hy
    cases he.symm.trans he'
    cases hn.symm.trans hy
  refine ⟨d, cfg, ec, hs, hc, hst, he, hn, fun c' w'' panel hp => agentPanel_not_canary hs' hn' hp,
    fun c' w'' r hr => promoteCanary_not_canary hs' he (not_canaryConfig_liveConfig ec) hr,
    fun c' => promoteCanary_raises_not_canary hs' he (not_canaryConfig_liveConfig ec)⟩

/-- The agent `c1` of `canaryWorld`, whose `mode` is `canary`, can be promoted. -/
theorem promoteCanary_promotes_once_c1 :
    ∃ w' resp, Exec ⟨0, 0, 0⟩ canaryWorld (promoteCanary "c1") w' (.ok resp) :=
  (promoteCanary_promotes_once ⟨0, 0, 0⟩ canaryWorld "c1").1.2
    ⟨_, _, _, rfl, ⟨rfl, rfl, .inl rfl⟩⟩

end AgentControl
