import AgentControl.Progress

/-!
# A Broadcast Sends Once to Each Client

`broadcast_websocket_message` iterates the live dict `active_connections` while the other
coroutines of its process register and unregister observers. A change of the dict's size
makes the iterator raise (`Bcast.advance_of_used_ne`); a change that keeps the size, one
observer leaving and another joining between two sends, does not, and the loop goes on
over the dict as it now is. Even then it never sends twice to one client: the iterator only
moves forward over the entry array, a client id occupies at most one live entry, and a
client id, drawn fresh from the counter at registration, is never registered again once it
is popped.

## Convention

`Bcast.attempted` is the ghost list of the clients a send was started for. A loop is
*fresh* (`Bcast.Fresh`) when that list has no repetition, holds only ids already drawn, and
none of its ids sits ahead of the iterator; a registry is fresh (`Registry.Fresh`) when no
two of its live entries share an id and every id was drawn.

## Main results

* `Registry.next_eq_some`: the iterator returns the first live entry ahead of it and moves
  past it.
* `Registry.liveFrom_pop`, `Registry.mem_liveFrom_insert_of_fresh`: what a pop and a fresh
  insertion do to the live entries ahead of an iterator.
* `Thread.step_registryStep`: a step registers one fresh client, or pops clients, in the
  registry of the stepping coroutine's own process, and touches no other registry.
* `Sys.Fresh.step`, `Sys.Fresh.run`: every step of every coroutine keeps every loop fresh.
* `broadcast_sends_once`: **in every run of a deployment, every broadcast loop has started
  its sends for pairwise distinct clients.**
-/

namespace AgentControl

namespace Registry

/-- The iterator returns the first live entry at its position or later, and resumes
after it. -/
theorem next_eq_some {r : Registry} {it it' : DictIter} {c : Client}
    (h : r.next it = .ok (some (c, it'))) : r.liveFrom it.pos = c :: r.liveFrom it'.pos := by
  unfold next at h
  split at h
  · cases h
  · split at h
    · cases h
    · next i c' hs =>
      split at h
      · cases h
      · cases h
        exact scan_eq_some hs

theorem liveFrom_sublist (r : Registry) (pos : ℕ) : (r.liveFrom pos).Sublist r.live :=
  (List.drop_sublist _ _).filterMap _

/-- A pop removes that client from the live entries ahead of any position, and nothing
else. -/
theorem liveFrom_pop (r : Registry) (clientId pos : ℕ) :
    (r.pop clientId).liveFrom pos = (r.liveFrom pos).filter fun c => c.1 ≠ clientId := by
  simp only [liveFrom, pop, ← List.map_drop]
  induction r.slots.drop pos with
  | nil => rfl
  | cons s ss ih =>
    rcases s with _ | c
    · simpa using ih
    · by_cases hc : c.1 = clientId <;> simp [hc, ih]

theorem liveFrom_foldl_pop (r : Registry) (ids : List ℕ) (pos : ℕ) :
    ((ids.foldl pop r).liveFrom pos).Sublist (r.liveFrom pos) := by
  induction ids generalizing r with
  | nil => exact List.Sublist.refl _
  | cons i ids ih => exact (ih (r.pop i)).trans (liveFrom_pop r i pos ▸ List.filter_sublist _)

/-- Inserting a client id that no live entry holds appends a slot. -/
theorem insert_of_fresh {r : Registry} {clientId ws : ℕ} (h : ∀ c ∈ r.live, c.1 ≠ clientId) :
    r.insert clientId ws = ⟨r.slots ++ [some (clientId, ws)]⟩ :=
  if_neg (by simpa using fun x hx => h (clientId, x) hx rfl)

/-- A fresh insertion adds only its own entry ahead of any position. -/
theorem mem_liveFrom_insert_of_fresh {r : Registry} {clientId ws pos : ℕ} {c : Client}
    (h : ∀ c ∈ r.live, c.1 ≠ clientId) (hc : c ∈ (r.insert clientId ws).liveFrom pos) :
    c ∈ r.liveFrom pos ∨ c = (clientId, ws) := by
  simp only [insert_of_fresh h, liveFrom, List.drop_append_eq_append_drop,
    List.filterMap_append, List.mem_append] at hc
  refine hc.imp_right fun hc => ?_
  simpa using ((List.drop_sublist _ _).filterMap id).subset hc

/-- No two live entries share a client id, and every client id was drawn before `n`. -/
structure Fresh (r : Registry) (n : ℕ) : Prop where
  nodup : (r.live.map Prod.fst).Nodup
  lt : ∀ c ∈ r.live, c.1 < n

namespace Fresh

variable {r : Registry} {n : ℕ}

theorem mono (h : r.Fresh n) {n' : ℕ} (hn : n ≤ n') : r.Fresh n' :=
  ⟨h.nodup, fun c hc => (h.lt c hc).trans_le hn⟩

/-- Registering the next fresh client. -/
theorem insert (h : r.Fresh n) (ws : ℕ) : (r.insert n ws).Fresh (n + 1) := by
  have hn : ∀ c ∈ r.live, c.1 ≠ n := fun c hc => (h.lt c hc).ne
  have hl : (r.insert n ws).live = r.live ++ [(n, ws)] := by simp [insert_of_fresh hn, live]
  refine ⟨?_, fun c hc => ?_⟩
  · simp only [hl, List.map_append, List.map_cons, List.map_nil]
    refine h.nodup.append (List.nodup_singleton n) (List.disjoint_singleton.2 fun hm => ?_)
    obtain ⟨c, hc, he⟩ := List.mem_map.1 hm
    exact hn c hc he
  · rcases List.mem_append.1 (hl ▸ hc) with hc | hc
    · exact (h.lt c hc).trans (Nat.lt_succ_self n)
    · simp [List.mem_singleton.1 hc]

theorem foldl_pop (h : r.Fresh n) (ids : List ℕ) : (ids.foldl pop r).Fresh n :=
  have hs := liveFrom_foldl_pop r ids 0
  ⟨h.nodup.sublist (hs.map _), fun c hc => h.lt c (hs.subset hc)⟩

end Fresh

theorem fresh_empty (n : ℕ) : empty.Fresh n := ⟨List.nodup_nil, nofun⟩

end Registry

/-! ### Broadcast loops in step with their registry -/

/-- The broadcast loop has started its sends for distinct clients drawn before `n`, and
none of them is a live entry of `r` ahead of its iterator. -/
structure Bcast.Fresh (r : Registry) (n : ℕ) (b : Bcast) : Prop where
  nodup : b.attempted.Nodup
  lt : ∀ id ∈ b.attempted, id < n
  behind : ∀ c ∈ r.liveFrom b.iter.pos, c.1 ∉ b.attempted

namespace Bcast

theorem fresh_init (r : Registry) (m : JVal) (n : ℕ) : (init r m).Fresh r n :=
  ⟨List.nodup_nil, nofun, fun _ _ => List.not_mem_nil _⟩

namespace Fresh

variable {r : Registry} {n : ℕ} {b : Bcast}

theorem sent (h : b.Fresh r n) (ok : Bool) : (b.sent ok).Fresh r n := by
  obtain ⟨hd, hl, hb⟩ := h
  exact ⟨by rwa [sent_attempted], by rwa [sent_attempted], by rwa [sent_attempted, sent_iter]⟩

/-- A registration elsewhere in the process: the new client is not one the loop has sent
to, whether or not the iterator reaches it. -/
theorem insert (h : b.Fresh r n) (hr : r.Fresh n) (ws : ℕ) : b.Fresh (r.insert n ws) (n + 1) := by
  refine ⟨h.nodup, fun id hid => (h.lt id hid).trans (Nat.lt_succ_self n), fun c hc hca => ?_⟩
  rcases Registry.mem_liveFrom_insert_of_fresh (fun c hc => (hr.lt c hc).ne) hc with hc | rfl
  exacts [h.behind c hc hca, (h.lt n hca).false]

theorem foldl_pop (h : b.Fresh r n) (ids : List ℕ) : b.Fresh (ids.foldl Registry.pop r) n :=
  ⟨h.nodup, h.lt, fun c hc => h.behind c ((Registry.liveFrom_foldl_pop r ids _).subset hc)⟩

theorem mono (h : b.Fresh r n) {n' : ℕ} (hn : n ≤ n') : b.Fresh r n' :=
  ⟨h.nodup, fun id hid => (h.lt id hid).trans_le hn, h.behind⟩

/-- **The step of the loop.** The iterator hands out the first live entry ahead of it,
whose client the loop has not sent to, and moves past it; the entries now ahead are the
ones behind it in the array, none of which holds the same client. -/
theorem advance (h : b.Fresh r n) (hr : r.Fresh n) {b' : Bcast} (ha : advance r b = .sending b') :
    b'.Fresh r n := by
  unfold Bcast.advance at ha
  split at ha
  · cases ha
  · cases ha
  · next cid ws it hn =>
    cases ha
    have hl := Registry.next_eq_some hn
    have hc : (cid, ws) ∈ r.liveFrom b.iter.pos := hl ▸ List.mem_cons_self _ _
    have hnd := hr.nodup.sublist ((Registry.liveFrom_sublist r b.iter.pos).map Prod.fst)
    rw [hl, List.map_cons, List.nodup_cons] at hnd
    refine ⟨List.nodup_append.2 ⟨h.nodup, List.nodup_singleton _, ?_⟩, fun id hid => ?_,
      fun c hc' hca => ?_⟩
    · exact List.disjoint_singleton.2 (h.behind _ hc)
    · rcases List.mem_append.1 hid with hid | hid
      · exact h.lt id hid
      · exact List.mem_singleton.1 hid ▸ hr.lt _ ((Registry.liveFrom_sublist r _).subset hc)
    · have hc'' : c ∈ r.liveFrom b.iter.pos := hl ▸ List.mem_cons_of_mem _ hc'
      rcases List.mem_append.1 hca with hca | hca
      · exact h.behind c hc'' hca
      · exact hnd.1 (List.mem_map.2 ⟨c, hc', List.mem_singleton.1 hca⟩)

end Fresh

/-- The pruning that ends a loop only pops. -/
theorem advance_finished {r r' : Registry} {b : Bcast} (h : advance r b = .finished r') :
    r' = b.disconnected.foldl Registry.pop r := by
  unfold advance at h
  split at h <;> cases h
  rfl

end Bcast

/-! ### What a step does to the registries -/

/-- A change of the registries and of the client counter: the next fresh client registered
in the process `proc`, or clients popped from the registry of `proc`. -/
def World.RegistryStep (w w' : World) (proc : ℕ) : Prop :=
  (∃ ws, w'.registry = Function.update w.registry proc ((w.registry proc).insert w.nextClient ws) ∧
      w'.nextClient = w.nextClient + 1) ∨
    ∃ ids : List ℕ,
      w'.registry = Function.update w.registry proc (ids.foldl Registry.pop (w.registry proc)) ∧
      w'.nextClient = w.nextClient

theorem World.registryStep_of_eq {w w' : World} {proc : ℕ} (hr : w'.registry = w.registry)
    (hn : w'.nextClient = w.nextClient) : w.RegistryStep w' proc :=
  .inr ⟨[], by simp [hr], hn⟩

theorem World.registryStep_afterAdvance (w : World) (proc : ℕ) (b : Bcast) :
    w.RegistryStep (w.afterAdvance proc (Bcast.advance (w.registry proc) b)) proc := by
  rcases ha : Bcast.advance (w.registry proc) b with e | r | b'
  · exact World.registryStep_of_eq rfl rfl
  · exact .inr ⟨b.disconnected, by rw [Bcast.advance_finished ha]; rfl, rfl⟩
  · exact World.registryStep_of_eq rfl rfl

/-- **What a step does to the registries.** Only `register` and `unregister` of a route
and the pruning at the end of a broadcast touch them, and only the registry of the
stepping coroutine's own process. -/
theorem Thread.step_registryStep (w : World) (tid : ℕ) (th : Thread) (ok : Bool) (clock : ℕ) :
    w.RegistryStep (th.step w tid ok clock).1 th.proc := by
  obtain ⟨proc, ws, task⟩ := th
  cases task with
  | run p =>
    cases p with
    | op o k =>
      rw [Thread.step_op_world]
      cases o
      case register => exact .inl ⟨ws, rfl, rfl⟩
      case unregister clientId => exact .inr ⟨[clientId], rfl, rfl⟩
      all_goals exact World.registryStep_of_eq (by cases ok <;> rfl) (by cases ok <;> rfl)
    | bcast m k => exact World.registryStep_afterAdvance w proc _
    | pure a | raise e => exact World.registryStep_of_eq rfl rfl
  | bcast b k =>
    simp only [Thread.step]
    split
    · exact World.registryStep_of_eq (by split <;> rfl) (by split <;> rfl)
    · exact World.registryStep_afterAdvance w proc b
  | relay j | relaySend j m n =>
    simp only [Thread.step]
    repeat' split
    all_goals exact World.registryStep_of_eq rfl rfl

/-! ### The invariant -/

/-- Every registry is fresh under the client counter. -/
def World.Fresh (w : World) : Prop := ∀ proc, (w.registry proc).Fresh w.nextClient

/-- The broadcast loop a task is in, if any, is fresh. -/
def Task.Fresh (r : Registry) (n : ℕ) : Task → Prop
  | .bcast b _ => b.Fresh r n
  | _ => True

theorem World.Fresh.registryStep {w w' : World} {proc : ℕ} (hw : w.Fresh)
    (hs : w.RegistryStep w' proc) : w'.Fresh := by
  intro p
  rcases hs with ⟨ws, hr, hn⟩ | ⟨ids, hr, hn⟩ <;> rw [hr, hn, Function.update_apply] <;> split
  · next hp => exact hp ▸ (hw proc).insert ws
  · exact (hw p).mono (Nat.le_succ _)
  · next hp => exact hp ▸ (hw proc).foldl_pop ids
  · exact hw p

/-- A loop stays fresh across any change of the registries a step can make, its own
process's included. -/
theorem Task.Fresh.registryStep {w w' : World} {proc p : ℕ} {t : Task}
    (ht : t.Fresh (w.registry p) w.nextClient) (hw : w.Fresh) (hs : w.RegistryStep w' proc) :
    t.Fresh (w'.registry p) w'.nextClient := by
  cases t with
  | bcast b k =>
    change b.Fresh _ _ at ht
    change b.Fresh _ _
    rcases hs with ⟨ws, hr, hn⟩ | ⟨ids, hr, hn⟩ <;> rw [hr, hn, Function.update_apply] <;> split
    · next hp => subst hp; exact ht.insert (hw _) ws
    · exact ht.mono (Nat.le_succ _)
    · next hp => subst hp; exact ht.foldl_pop ids
    · exact ht
  | _ => trivial

theorem Task.fresh_resumeBcast {r : Registry} {n : ℕ} (k : Except PyErr Unit → Prog Response)
    {a : Advance} (h : ∀ b, a = .sending b → b.Fresh r n) : (resumeBcast k a).Fresh r n := by
  cases a
  case sending b => exact h b rfl
  all_goals trivial

/-- **One step of a coroutine** keeps its own loop fresh, against the registries before
the step. -/
theorem Thread.step_fresh {w : World} {tid : ℕ} {th : Thread} {ok : Bool} {clock : ℕ}
    (hw : w.Fresh) (ht : th.task.Fresh (w.registry th.proc) w.nextClient) :
    (th.step w tid ok clock).2.1.Fresh (w.registry th.proc) w.nextClient := by
  obtain ⟨proc, ws, task⟩ := th
  cases task with
  | run p =>
    cases p with
    | op o k =>
      rcases Thread.step_op_task w tid proc ws o k ok clock with ⟨x, hx⟩ | hx <;> rw [hx] <;>
        trivial
    | bcast m k =>
      exact Task.fresh_resumeBcast k fun b hb => (Bcast.fresh_init _ m _).advance (hw proc) hb
    | pure a | raise e => trivial
  | bcast b k =>
    simp only [Thread.step]
    split
    · exact Bcast.Fresh.sent ht ok
    · exact Task.fresh_resumeBcast k fun b' hb => Bcast.Fresh.advance ht (hw proc) hb
  | relay j | relaySend j m n =>
    simp only [Thread.step]
    repeat' split
    all_goals trivial

/-- **The invariant of the deployment.** Every registry and every broadcast loop is
fresh. -/
structure Sys.Fresh (s : Sys) : Prop where
  world : s.world.Fresh
  tasks : ∀ th ∈ s.threads, th.task.Fresh (s.world.registry th.proc) s.world.nextClient

theorem Sys.fresh_init (store : Store) {threads : List Thread}
    (h : ∀ th ∈ threads, th.Serving) : Sys.Fresh ⟨World.init store, threads⟩ := by
  refine ⟨fun _ => Registry.fresh_empty 0, fun th hth => ?_⟩
  rcases h th hth with ⟨rq, hr⟩ | hr <;> rw [hr] <;> trivial

theorem Sys.Fresh.step {s : Sys} (h : s.Fresh) (ch : Choice) : (s.step ch).Fresh := by
  rcases Sys.step_cases s ch with hst | ⟨th, hc⟩
  · rwa [hst]
  have hs := Thread.step_registryStep s.world ch.thread th ch.ok ch.clock
  have hw := Sys.step_world_of_resumes hc
  refine ⟨hw ▸ h.world.registryStep hs, fun th' hth' => ?_⟩
  rw [hw]
  rw [Sys.step_threads_of_resumes hc] at hth'
  rcases Sys.mem_step_threads hth' with hth' | rfl | hth'
  · exact (h.tasks th' hth').registryStep h.world hs
  · exact (Thread.step_fresh h.world (h.tasks th (List.getElem?_mem hc.1))).registryStep h.world hs
  · rcases Thread.step_spawned_cases s.world ch.thread th ch.ok ch.clock with
      hs | ⟨j, k, -, hs⟩ <;> rw [hs] at hth'
    · cases hth'
    · rw [List.mem_singleton.1 hth']
      trivial

theorem Sys.Fresh.run {s : Sys} (h : s.Fresh) (cs : List Choice) : (s.run cs).Fresh :=
  Sys.run_of_stable (fun _ ch h => h.step ch) h cs

/-- **A broadcast sends once to each client.** In every run of a deployment, under any
interleaving of its coroutines, every broadcast loop in progress has started its sends for
pairwise distinct clients, though observers may join and leave between its sends. -/
theorem broadcast_sends_once {store : Store} {threads : List Thread}
    (hserve : ∀ th ∈ threads, th.Serving) (cs : List Choice) :
    ∀ th ∈ (Sys.run ⟨World.init store, threads⟩ cs).threads, ∀ b k,
      th.task = .bcast b k → b.attempted.Nodup := by
  intro th hth b k hb
  have ht := ((Sys.fresh_init store hserve).run cs).tasks th hth
  rw [hb] at ht
  exact ht.nodup

theorem broadcast_sends_once_cross :
    (∀ th ∈ crossDeployment, th.Serving) ∧
    ∀ th ∈ (Sys.run ⟨alphaWorld, crossDeployment⟩ crossSchedule).threads, ∀ b k,
      th.task = .bcast b k → b.attempted.Nodup :=
  ⟨crossDeployment_serving, broadcast_sends_once crossDeployment_serving crossSchedule⟩

end AgentControl
