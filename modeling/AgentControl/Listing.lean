import AgentControl.Frame

/-!
# Listing the Agents

`list_agents` enumerates the registration keys, then builds one panel per key inside a
`try` whose `except Exception` logs and moves on. The `except` does not tell a malformed
document from a failed store read: both drop the agent from a response that succeeds.

The display status is decided in two steps: the raw state maps to `paused` or `running`,
and then the canary test, when it holds, overwrites the status with `canary`. A paused
canary agent is therefore listed as `canary`, offered `promote` and not `resume`.

## Main results

* `listAgents_views`: **what `list_agents` returns**, for every store and every pattern
  of failed reads: it raises only when its `KEYS` call fails, and otherwise skips every
  key whose body raised, a failed read included.
* `listAgents_drops_failed_read`: one failed read drops a well-formed agent.
* `listAgents_paused_canary`: a paused canary agent is listed as `canary`.
-/

namespace AgentControl

/-! ### Failed reads -/

/-- **What `list_agents` returns.** A solo run changes nothing. It raises exactly when
its `KEYS` call fails; otherwise it returns, in enumeration order, the panels of the keys
whose body returned one, each body run on its own, and skips every key whose body raised.
A body raises on a malformed document and on a failed store read alike: every body can
fail on its first read. -/
theorem listAgents_views {c : Ctx} {w w' : World} {r : Except PyErr Response} :
    (Exec c w listAgents w' r ↔ w' = w ∧ (r = .error .connectionError ∨ ∃ outs,
      List.Forall₂ (fun regKey out => Exec c w (agentPanel regKey) w out)
        (w.matching registrationPattern) outs ∧
      r = .ok (.panels (outs.filterMap fun out => out.toOption.join)))) ∧
    ∀ regKey, Exec c w (agentPanel regKey) w (.error .connectionError) := by
  refine ⟨exec_listAgents, fun regKey => ?_⟩
  simp [agentPanel]

/-- The registration of a well-formed agent `a1`, and its raw state. -/
def alphaWorld : World :=
  World.init (((∅ : Store).insert (agentKey "a1" "registration")
    (Bytes.dumps (.obj [("agentId", .str "a1"), ("name", .str "Alpha")]))).insert
      (agentKey "a1" "state") (.text "running"))

/-- `list_agents` alone on `alphaWorld`, the clock reading 3. -/
def alphaList (oks : List Bool) : Sys :=
  Sys.run ⟨alphaWorld, [⟨0, 0, .run listAgents⟩]⟩ (oks.map fun ok => ⟨0, ok, 3, false⟩)

/-- With every read answered, `list_agents` lists `a1`; when only the read of its state
fails, the call still succeeds, without `a1`. -/
theorem listAgents_drops_failed_read :
    (alphaList [true, true, true, true, true, true]).threads.map (·.task.result) =
      [some (.ok (.panels [⟨"a1", some "Alpha", "running", 0, 0, ["pause", "restart"], [], 3⟩]))] ∧
    (alphaList [true, true, false]).threads.map (·.task.result) = [some (.ok (.panels []))] :=
  ⟨rfl, rfl⟩

/-! ### The status of a paused canary -/

/-- A canary agent `c1`, running. -/
def canaryWorld : World :=
  World.init (((∅ : Store).insert (agentKey "c1" "registration")
    (Bytes.dumps (.obj [("agentId", .str "c1"), ("name", .str "Canary"),
      ("config", .obj [("executionConfig", .obj [("mode", .str "canary")])])]))).insert
        (agentKey "c1" "state") (.text "running"))

/-- `pause c1` run to its end, then `list_agents`. -/
def pausedCanaryRun : Sys :=
  Sys.run ⟨canaryWorld, [⟨0, 0, .run (pauseAgent "c1")⟩, ⟨0, 0, .run listAgents⟩]⟩
    (List.replicate 7 ⟨0, true, 5, false⟩ ++ List.replicate 6 ⟨1, true, 9, false⟩)

/-- Right after a successful `pause c1`, which wrote the raw state `paused`, `list_agents`
reports `c1` as `canary`, offering `promote` and no `resume`. -/
theorem listAgents_paused_canary :
    pausedCanaryRun.threads.map (·.task.result) =
      [some (.ok (.status true "Agent c1 paused")),
       some (.ok (.panels [⟨"c1", some "Canary", "canary", 0, 0, ["promote", "pause", "restart"],
         ["canary"], 9⟩]))] ∧
    pausedCanaryRun.world.store.lookup (agentKey "c1" "state") = some (.text "paused") :=
  ⟨rfl, rfl⟩

end AgentControl
