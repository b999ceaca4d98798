import AgentControl.Routes

/-!
# Configuration Injection

`inject_config` merges the patch of the request into the `config` of the stored
registration with `deep_update`, creating `config` empty when it is absent. On a
registration whose `config` is a dict, `deep_update` is `merge` of
`AgentControl.DeepUpdate`, and the route writes the registration back with `config`
replaced by the merge and every other field as it was.

## Main results

* `injectedRegistration_obj`: the registration the route writes back.
* `injectConfig_stores_merge`: **a successful `inject_config` stores the merge**, which
  is defined key by key; every path the patch does not reach keeps its value and every
  non-dict value of the patch lands at its own path.
* `injectConfig_idempotent`: **injecting the same patch twice is injecting it once.**
-/

namespace AgentControl

/-- On a registration whose `config` is a dict, or absent and then read as `{}`,
`inject_config` writes back the registration with `config` replaced by the merge. -/
theorem injectedRegistration_obj {d cfg : Dict}
    (hcfg : d.get? "config" = some (.obj cfg) ∨ d.get? "config" = none ∧ cfg = []) (u : Dict) :
    injectedRegistration (.obj d) u = .ok (.obj (d.set "config" (.obj (merge cfg u)))) := by
  rcases hcfg with h | ⟨h, rfl⟩
  · have hk : "config" ∈ Dict.keys d := Dict.mem_keys_iff.2 (by simp [h])
    simp [injectedRegistration, hk, JVal.getItem_obj, h, deepUpdate_obj]
  · have hk : "config" ∉ Dict.keys d := Dict.get?_eq_none_iff.1 h
    simp [injectedRegistration, hk, JVal.getItem_obj, deepUpdate_obj]

section Injection

variable {c : Ctx} {w w' : World} {u : AgentConfigUpdate} {d cfg : Dict}

/-- A run of `inject_config` on such a registration leaves the store as it was and
raises, or stores the merged registration and returns. -/
theorem injectConfig_store_obj {r : Except PyErr Response}
    (hreg : w.store.lookup (agentKey u.agentId "registration") = some (Bytes.dumps (.obj d)))
    (hcfg : d.get? "config" = some (.obj cfg) ∨ d.get? "config" = none ∧ cfg = [])
    (h : Exec c w (injectConfig u) w' r) :
    (w'.store = w.store ∧ ∀ resp, r ≠ .ok resp) ∨
    (w'.store = w.store.insert (agentKey u.agentId "registration")
        (Bytes.dumps (.obj (d.set "config" (.obj (merge cfg u.config))))) ∧
      r = .ok (.status true ("Configuration injected into agent " ++ u.agentId))) := by
  rcases injectConfig_store h with h | ⟨b, j, reg, hb, hj, hi, hs, hr⟩
  · exact .inl h
  · simp only [hreg, Option.filter, Bytes.truthy_dumps, if_true, Option.some.injEq] at hb
    subst hb
    obtain rfl : j = .obj d := by simpa using hj.symm
    rw [injectedRegistration_obj hcfg, Except.ok.injEq] at hi
    exact .inr ⟨hi ▸ hs, hr⟩

/-- **A successful `inject_config` stores the merge.** On a registration whose `config` is
a dict or absent, the call can succeed, and every successful run stores the registration
with `config` replaced by `merge cfg u`. The merge holds the keys of both sides; a key of
the patch holds `mergeValue` of both values (their merge when both are dicts, the patch
value otherwise) and any other key keeps its value; every key path the patch does not
reach keeps its value, and every non-dict value of the patch lands at its own path. -/
theorem injectConfig_stores_merge
    (hreg : w.store.lookup (agentKey u.agentId "registration") = some (Bytes.dumps (.obj d)))
    (hcfg : d.get? "config" = some (.obj cfg) ∨ d.get? "config" = none ∧ cfg = []) :
    (∃ w' resp, Exec c w (injectConfig u) w' (.ok resp)) ∧
    (∀ w' resp, Exec c w (injectConfig u) w' (.ok resp) →
      w'.store.lookup (agentKey u.agentId "registration") =
        some (Bytes.dumps (.obj (d.set "config" (.obj (merge cfg u.config)))))) ∧
    (∀ k, k ∈ Dict.keys (merge cfg u.config) ↔ k ∈ Dict.keys cfg ∨ k ∈ Dict.keys u.config) ∧
    (∀ k, Dict.get? (merge cfg u.config) k = match Dict.get? u.config k with
      | some v => some (mergeValue (Dict.get? cfg k) v)
      | none => Dict.get? cfg k) ∧
    (∀ p, ¬ Reaches u.config p → getPath (.obj (merge cfg u.config)) p = getPath (.obj cfg) p) ∧
    (∀ p v, getPath (.obj u.config) p = some v → v.isDict = false →
      getPath (.obj (merge cfg u.config)) p = some v) := by
  refine ⟨?_, fun w' resp h => ?_, mem_keys_merge cfg u.config, get?_merge u.wf.keys_nodup cfg,
    fun p hp => getPath_merge_of_not_reaches u.wf hp cfg,
    fun p v hp hv => getPath_merge_of_not_isDict u.wf hp hv cfg⟩
  · obtain ⟨w', h⟩ := injectConfig_succeeds (c := c) (w := w) (by simp [hreg]) (Bytes.loads_dumps _)
      (injectedRegistration_obj hcfg u.config)
    exact ⟨w', _, h⟩
  · rcases injectConfig_store_obj hreg hcfg h with ⟨-, hne⟩ | ⟨hs, -⟩
    · exact (hne resp rfl).elim
    · simp [hs]

/-- The registration of the agent `a1`, with risk level 1. -/
def riskRegistration : Dict := [("agentId", .str "a1"), ("config", .obj [("riskLevel", .num 1)])]

/-- A deployment where `a1` is registered as `riskRegistration`. -/
def riskWorld : World :=
  World.init ((∅ : Store).insert (agentKey "a1" "registration")
    (Bytes.dumps (.obj riskRegistration)))

/-- A request raising the risk level of `a1` to 2. -/
def riskPatch : AgentConfigUpdate :=
  ⟨"a1", [("riskLevel", .num 2)], .obj (List.nodup_singleton _) fun e he => by
    rw [List.mem_singleton] at he; subst he; exact .num 2⟩

theorem injectConfig_stores_merge_riskPatch :
    riskWorld.store.lookup (agentKey riskPatch.agentId "registration") =
      some (Bytes.dumps (.obj riskRegistration)) ∧
    riskRegistration.get? "config" = some (.obj [("riskLevel", .num 1)]) ∧
    ∃ w' resp, Exec ⟨0, 0, 0⟩ riskWorld (injectConfig riskPatch) w' (.ok resp) := by
  have hreg : riskWorld.store.lookup (agentKey riskPatch.agentId "registration") =
      some (Bytes.dumps (.obj riskRegistration)) := by decide
  have hcfg : riskRegistration.get? "config" = some (.obj [("riskLevel", .num 1)]) := by decide
  exact ⟨hreg, hcfg, (injectConfig_stores_merge hreg (.inl hcfg)).1⟩

example : merge [("riskLevel", .num 1)] riskPatch.config = [("riskLevel", .num 2)] := by decide

/-- **Injecting the same patch twice is injecting it once.** After a successful
`inject_config` on a registration whose `config` is a dict or absent, a second
`inject_config` with the same patch and no write in between leaves the registration as
the first left it, whatever the second run does; the merge is idempotent for every
stored config, and a patch merged into itself is unchanged. -/
theorem injectConfig_idempotent {c₁ c₂ : Ctx} {w₁ w₂ : World} {resp : Response}
    {r₂ : Except PyErr Response}
    (hreg : w.store.lookup (agentKey u.agentId "registration") = some (Bytes.dumps (.obj d)))
    (hcfg : d.get? "config" = some (.obj cfg) ∨ d.get? "config" = none ∧ cfg = [])
    (h₁ : Exec c₁ w (injectConfig u) w₁ (.ok resp)) (h₂ : Exec c₂ w₁ (injectConfig u) w₂ r₂) :
    w₂.store.lookup (agentKey u.agentId "registration") =
      w₁.store.lookup (agentKey u.agentId "registration") ∧
    (∀ d' : Dict, merge (merge d' u.config) u.config = merge d' u.config) ∧
    merge u.config u.config = u.config := by
  refine ⟨?_, merge_merge u.wf, merge_self u.wf⟩
  rcases injectConfig_store_obj hreg hcfg h₁ with ⟨-, hne⟩ | ⟨hs₁, -⟩
  · exact (hne resp rfl).elim
  have hreg₁ : w₁.store.lookup (agentKey u.agentId "registration") =
      some (Bytes.dumps (.obj (d.set "config" (.obj (merge cfg u.config))))) := by simp [hs₁]
  rcases injectConfig_store_obj hreg₁ (.inl (Dict.get?_set_self _ _ _)) h₂ with ⟨hs₂, -⟩ | ⟨hs₂, -⟩
  · rw [hs₂]
  · rw [hs₂, hreg₁, merge_merge u.wf, Dict.set_set, AList.lookup_insert]

/-- `inject_config riskPatch` run twice by the scheduler, each run alone. -/
def riskRuns : Sys × Sys :=
  let s₁ := Sys.run ⟨riskWorld, [⟨0, 0, .run (injectConfig riskPatch)⟩]⟩
    (List.replicate 7 ⟨0, true, 5, false⟩)
  (s₁, Sys.run ⟨s₁.world, [⟨0, 0, .run (injectConfig riskPatch)⟩]⟩
    (List.replicate 7 ⟨0, true, 6, false⟩))

theorem injectConfig_idempotent_riskPatch :
    riskWorld.store.lookup (agentKey riskPatch.agentId "registration") =
      some (Bytes.dumps (.obj riskRegistration)) ∧
    riskRegistration.get? "config" = some (.obj [("riskLevel", .num 1)]) ∧
    Exec ⟨0, 0, 0⟩ riskWorld (injectConfig riskPatch) riskRuns.1.world
      (.ok (.status true "Configuration injected into agent a1")) ∧
    Exec ⟨0, 0, 0⟩ riskRuns.1.world (injectConfig riskPatch) riskRuns.2.world
      (.ok (.status true "Configuration injected into agent a1")) ∧
    riskRuns.2.world.store.lookup (agentKey riskPatch.agentId "registration") =
      riskRuns.1.world.store.lookup (agentKey riskPatch.agentId "registration") := by
  have hreg : riskWorld.store.lookup (agentKey riskPatch.agentId "registration") =
      some (Bytes.dumps (.obj riskRegistration)) := by decide
  have hcfg : riskRegistration.get? "config" = some (.obj [("riskLevel", .num 1)]) := by decide
  have h₁ : Exec ⟨0, 0, 0⟩ riskWorld (injectConfig riskPatch) riskRuns.1.world
      (.ok (.status true "Configuration injected into agent a1")) :=
    Sys.exec_of_run (List.replicate 7 ⟨0, true, 5, false⟩) .pure rfl
  have h₂ : Exec ⟨0, 0, 0⟩ riskRuns.1.world (injectConfig riskPatch) riskRuns.2.world
      (.ok (.status true "Configuration injected into agent a1")) :=
    Sys.exec_of_run (List.replicate 7 ⟨0, true, 6, false⟩) .pure rfl
  exact ⟨hreg, hcfg, h₁, h₂, (injectConfig_idempotent hreg (.inl hcfg) h₁ h₂).1⟩

end Injection

end AgentControl
