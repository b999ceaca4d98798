import AgentControl.Observers

/-!
# Failed Requests

A request that fails for any reason but the store leaves the world as it was, with one
exception: `inject_config` publishes `config_update_requested` and the raw patch before it
decodes the registration and merges the patch into it, so a registration that does not
decode, or whose `config` is not a document, makes the call fail after both publishes. Its
sibling `promote_canary` decodes and checks the registration before its first effect.

## Main results

* `failedRequest_unchanged`: **every solo run that raises something other than
  `ConnectionError` leaves the world unchanged**, but an `inject_config` that failed to
  decode or merge, which leaves exactly its two publishes.
* `injectConfig_publishes_then_fails`: a registration whose `config` is a list.
-/

namespace AgentControl

section Failures

variable {c : Ctx} {w w' : World} {e : PyErr}

/-- **A request that fails without a store failure changes nothing**, not even an
observer's inbox; the one exception is `inject_config` once its registration is found:
when decoding the registration or merging the patch raises, the call has published
`config_update_requested` and the raw patch, and nothing else. -/
theorem failedRequest_unchanged {rq : Request} (h : Exec c w rq.route w' (.error e))
    (he : e ≠ .connectionError) :
    w' = w ∨ ∃ u b t, rq = .injectConfig u ∧
      (w.store.lookup (agentKey u.agentId "registration")).filter Bytes.truthy = some b ∧
      (b.loads = .error e ∨ ∃ j, b.loads = .ok j ∧ injectedRegistration j u.config = .error e) ∧
      w' = (w.publish c.tid agentEvents (Bytes.dumps (agentEvent "config_update_requested"
          u.agentId [("config", .obj u.config)] t))).publish c.tid
        (agentKey u.agentId "inject_config") (Bytes.dumps (.obj u.config)) := by
  have hne : (Except.error e : Except PyErr Response) ≠ .error .connectionError :=
    fun h => he (Except.error.inj h)
  cases rq with
  | pause a | resume a | restart a =>
    rcases exec_lifecycleCommand h with ⟨-, hr⟩ | ⟨-, rfl, -⟩ | ⟨-, t, ⟨-, hr⟩ | ⟨-, -, -, -, hr⟩⟩
    · exact absurd hr hne
    · exact .inl rfl
    · exact absurd hr hne
    · exact Except.noConfusion hr
  | injectConfig u =>
    rcases exec_injectConfig h with ⟨-, hr⟩ | ⟨-, rfl, -⟩ |
      ⟨b, hb, t, ⟨-, hr⟩ | ⟨rfl, e', hr, he'⟩ | ⟨-, -, -, -, -, -, -, -, hr⟩⟩
    · exact absurd hr hne
    · exact .inl rfl
    · exact absurd hr hne
    · obtain rfl := Except.error.inj hr
      rcases he' with rfl | he' | he'
      · exact absurd rfl he
      · exact .inr ⟨u, b, t, rfl, hb, .inl he', rfl⟩
      · exact .inr ⟨u, b, t, rfl, hb, .inr he', rfl⟩
    · exact Except.noConfusion hr
  | promoteCanary a =>
    rcases exec_promoteCanary h with ⟨-, hr⟩ | ⟨-, rfl, -⟩ |
      ⟨b, -, ⟨rfl, -⟩ | ⟨-, -, -, -, -, t, ⟨-, hr⟩ | ⟨-, -, -, -, hr⟩⟩⟩
    · exact absurd hr hne
    · exact .inl rfl
    · exact .inl rfl
    · exact absurd hr hne
    · exact Except.noConfusion hr
  | getConfig a => exact .inl (exec_getAgentConfig h)
  | list => exact .inl (exec_listAgents.1 h).1

end Failures

/-- `pause` of an agent that is not registered raises `404`, and changes nothing. -/
theorem failedRequest_unchanged_unknown :
    Exec ⟨0, 0, 0⟩ alphaWorld (Request.pause "b2").route alphaWorld
        (.error (.httpException 404 "Agent not found")) ∧
    (alphaWorld = alphaWorld ∨ ∃ u b t, Request.pause "b2" = .injectConfig u ∧
      (alphaWorld.store.lookup (agentKey u.agentId "registration")).filter Bytes.truthy = some b ∧
      (b.loads = .error (.httpException 404 "Agent not found") ∨ ∃ j, b.loads = .ok j ∧
        injectedRegistration j u.config = .error (.httpException 404 "Agent not found")) ∧
      alphaWorld = (alphaWorld.publish 0 agentEvents (Bytes.dumps (agentEvent
          "config_update_requested" u.agentId [("config", .obj u.config)] t))).publish 0
        (agentKey u.agentId "inject_config") (Bytes.dumps (.obj u.config))) :=
  have h : Exec ⟨0, 0, 0⟩ alphaWorld (Request.pause "b2").route alphaWorld
      (.error (.httpException 404 "Agent not found")) :=
    Sys.exec_of_run [stepOf 0] .raise rfl
  ⟨h, failedRequest_unchanged h fun he => PyErr.noConfusion he⟩

/-- The agent `a1`, registered with a `config` that is a list, not a document. -/
def listConfigWorld : World :=
  World.init ((∅ : Store).insert (agentKey "a1" "registration")
    (Bytes.dumps (.obj [("agentId", .str "a1"), ("config", .arr [.num 1])])))

/-- `inject_config` with the patch `{riskLevel: 2}` on `a1`, and `promote_canary a1`,
each run to its end. -/
def listConfigRun : Sys :=
  Sys.run ⟨listConfigWorld, [⟨0, 0, .run (injectConfig riskPatch)⟩,
    ⟨0, 0, .run (promoteCanary "a1")⟩]⟩ (List.replicate 4 (stepOf 0) ++ [stepOf 1])

/-- `inject_config` raises `TypeError` in `deep_update`, with the store unchanged but
`config_update_requested` and the patch already published, the patch on the agent's own
command topic; `promote_canary` fails on the same registration before any effect. -/
theorem injectConfig_publishes_then_fails :
    listConfigRun.threads.map (·.task.result) =
      [some (.error .typeError),
       some (.error (.httpException 400 "Agent does not have execution configuration"))] ∧
    listConfigRun.world.store = listConfigWorld.store ∧
    listConfigRun.world.published =
      [(0, agentEvents, Bytes.dumps (agentEvent "config_update_requested" "a1"
          [("config", .obj [("riskLevel", .num 2)])] 5)),
       (0, agentKey "a1" "inject_config", Bytes.dumps (.obj [("riskLevel", .num 2)]))] :=
  ⟨rfl, rfl, rfl⟩

end AgentControl
