import AgentControl.Delivery

/-!
# Releasing an Observer on Disconnect

When the websocket of an observer disconnects, the `except` clauses of
`websocket_agent_events` pop its client id from `active_connections`, unsubscribe its
`pubsub` and close the client. The relay task is not cancelled; it stops receiving because
its subscription is gone.

The handler goes through stages (`Stage`): not registered yet, registered as `c`,
subscribed to `j`, and then, in its `except` clause, unregistered and unsubscribed.
`Prog.Releases` says which effects move it from one stage to the next; a path of the
handler returns only once it has done both. The invariant `Sys.Releasing` ties the stage
of the handler of a websocket `ws` to the world: the only registry entry for `ws` is the
handler's own, while it is registered; the only relays of `ws` are relays of its
subscription; and the subscription is inactive once it has unsubscribed.

Two exits leave resources behind, and the theorem does not speak of them: a handler whose
`pubsub.subscribe` raises ends with its client still registered (the registration is
before the `try`), and one whose `pubsub.unsubscribe` raises ends with its subscription
still active.

## Main results

* `Sys.Releasing.step`: one step of any coroutine keeps the stage of a handler consistent
  with the world.
* `disconnect_releases`: **once the handler of a websocket has returned, no process lists
  the websocket in `active_connections`, and every relay of the websocket reads a
  subscription that is unsubscribed.**
-/

namespace AgentControl

/-! ### Stages of a handler -/

/-- An effect that neither registers, subscribes nor starts a relay. -/
def Op.Benign : Op → Prop
  | .register | .subscribe _ | .spawnRelay _ => False
  | _ => True

theorem Op.Within.benign {K C : String → Prop} {o : Op} (h : o.Within K C) : o.Benign := by
  cases o <;> trivial

theorem Op.Reads.benign {o : Op} (h : o.Reads) : o.Benign := by
  cases o <;> trivial

/-- A control request or a read never registers, subscribes or starts a relay. -/
theorem Request.route_benign (rq : Request) : rq.route.All Op.Benign fun _ => True := by
  cases h : rq.target with
  | some a => exact (Request.within h).mono (fun _ => Op.Within.benign) fun _ _ => trivial
  | none =>
    cases rq <;> simp only [Request.target, reduceCtorEq] at h
    · exact (getAgentConfig_reads _).mono (fun _ => Op.Reads.benign) fun _ h => h.elim
    · exact listAgents_reads.mono (fun _ => Op.Reads.benign) fun _ h => h.elim

/-- Where the handler of an observer is: not registered yet; registered as `c`; subscribed
to `j`, having popped its client id (`unreg`) and unsubscribed (`unsub`) or not. -/
inductive Stage where
  | start
  | registered (c : ℕ)
  | subscribed (c j : ℕ) (unreg unsub : Bool)

namespace Prog

/-- How a handler registers, subscribes and releases, stage by stage. Other effects leave
the stage as it is; a path returns only from the last stage, and may raise anywhere. -/
inductive Releases {α : Type} : Stage → Prog α → Prop where
  | pure {c j : ℕ} (a : α) : Releases (.subscribed c j true true) (.pure a)
  | raise {st : Stage} (e : PyErr) : Releases st (.raise e)
  | op {st : Stage} {o : Op} {k : Except PyErr o.Reply → Prog α} (ho : o.Benign)
      (hk : ∀ x, Releases st (k x)) : Releases st (.op o k)
  | register {k : Except PyErr ℕ → Prog α} (hk : ∀ c, Releases (.registered c) (k (.ok c)))
      (herr : ∀ e, Releases .start (k (.error e))) : Releases .start (.op .register k)
  | subscribe {c : ℕ} {channel : String} {k : Except PyErr ℕ → Prog α}
      (hok : ∀ j, Releases (.subscribed c j false false) (k (.ok j)))
      (herr : ∀ e, Releases (.registered c) (k (.error e))) :
      Releases (.registered c) (.op (.subscribe channel) k)
  | spawn {c j : ℕ} {u v : Bool} {k : Except PyErr Unit → Prog α}
      (hk : ∀ x, Releases (.subscribed c j u v) (k x)) :
      Releases (.subscribed c j u v) (.op (.spawnRelay j) k)
  | unregister {c j : ℕ} {u v : Bool} {k : Except PyErr Unit → Prog α}
      (hk : ∀ x, Releases (.subscribed c j true v) (k x)) :
      Releases (.subscribed c j u v) (.op (.unregister c) k)
  | unsubscribe {c j : ℕ} {u v : Bool} {k : Except PyErr Unit → Prog α}
      (hok : Releases (.subscribed c j u true) (k (.ok ())))
      (herr : ∀ e, Releases (.subscribed c j u v) (k (.error e))) :
      Releases (.subscribed c j u v) (.op (.unsubscribe j) k)

section Releases

variable {α β : Type} {st : Stage}

theorem releases_orRaise {st : Stage} {f : α → Prog β} (hf : ∀ a, (f a).Releases st)
    (x : Except PyErr α) : (orRaise f x).Releases st := by
  cases x with
  | ok a => exact hf a
  | error e => exact .raise e

theorem releases_call_bind {o : Op} {f : o.Reply → Prog β} (ho : o.Benign)
    (hf : ∀ a, (f a).Releases st) : ((call o).bind f).Releases st := by
  rw [call_bind]; exact .op ho (releases_orRaise hf)

theorem releases_register_bind {f : ℕ → Prog β} (hf : ∀ c, (f c).Releases (.registered c)) :
    ((call .register).bind f).Releases .start := by
  rw [call_bind]; exact .register hf fun e => .raise e

theorem releases_subscribe_bind {c : ℕ} {channel : String} {f : ℕ → Prog β}
    (hf : ∀ j, (f j).Releases (.subscribed c j false false)) :
    ((call (.subscribe channel)).bind f).Releases (.registered c) := by
  rw [call_bind]; exact .subscribe hf fun e => .raise e

theorem releases_unregister_bind {c j : ℕ} {u v : Bool} {f : Unit → Prog β}
    (hf : ∀ a, (f a).Releases (.subscribed c j true v)) :
    ((call (.unregister c)).bind f).Releases (.subscribed c j u v) := by
  rw [call_bind]; exact .unregister (releases_orRaise hf)

theorem releases_unsubscribe_bind {c j : ℕ} {u v : Bool} {f : Unit → Prog β}
    (hf : ∀ a, (f a).Releases (.subscribed c j u true)) :
    ((call (.unsubscribe j)).bind f).Releases (.subscribed c j u v) := by
  rw [call_bind]; exact .unsubscribe (hf ()) fun e => .raise e

/-- An effect inside the `try` of a handler, whose `except` clause releases from the stage
the `try` runs at. -/
theorem releases_call_bind_tryCatch {c j : ℕ} {u v : Bool} {o : Op} {f : o.Reply → Prog β}
    {h : PyErr → Prog β} (ho : o.Benign ∨ o = .spawnRelay j)
    (hf : ∀ a, ((f a).tryCatch h).Releases (.subscribed c j u v))
    (hh : ∀ e, (h e).Releases (.subscribed c j u v)) :
    (((call o).bind f).tryCatch h).Releases (.subscribed c j u v) := by
  have hk : ∀ x, ((orRaise f x).tryCatch h).Releases (.subscribed c j u v) := by
    intro x
    cases x with
    | ok a => exact hf a
    | error e => exact hh e
  rw [call_bind, op_tryCatch]
  rcases ho with ho | rfl
  exacts [.op ho hk, .spawn hk]

end Releases

end Prog

/-- **The handler of an observer registers, subscribes, and returns only once it has popped
its client id and unsubscribed.** -/
theorem websocketAgentEvents_releases : websocketAgentEvents.Releases .start := by
  simp only [websocketAgentEvents, Prog.bind_def, Prog.bind_assoc, Prog.pure_def]
  refine Prog.releases_call_bind trivial fun _ => Prog.releases_register_bind fun c =>
    Prog.releases_subscribe_bind fun j => ?_
  have hh : ∀ e : PyErr, (Prog.bind (Prog.call (.unregister c)) fun _ =>
      Prog.bind (Prog.call (.unsubscribe j)) fun _ =>
        Prog.bind (Prog.call .close) fun _ => Prog.pure Response.none).Releases
      (.subscribed c j false false) := fun _ =>
    Prog.releases_unregister_bind fun _ => Prog.releases_unsubscribe_bind fun _ =>
      Prog.releases_call_bind trivial fun _ => .pure _
  exact Prog.releases_call_bind_tryCatch (.inl trivial) (fun _ =>
    Prog.releases_call_bind_tryCatch (.inr rfl) (fun _ =>
      Prog.releases_call_bind_tryCatch (.inl trivial) (fun never => Empty.elim never) hh) hh) hh

/-! ### What a step does to the registries and the subscriptions -/

/-- A `pop` leaves no entry of the client it pops. -/
theorem Registry.fst_ne_of_mem_live_pop {r : Registry} {clientId : ℕ} {cl : Client}
    (h : cl ∈ (r.pop clientId).live) : cl.1 ≠ clientId := by
  simp only [Registry.pop, Registry.live, List.mem_filterMap, List.mem_map, id] at h
  obtain ⟨_, ⟨s, -, rfl⟩, h⟩ := h
  cases s with
  | none => cases h
  | some c =>
    simp only [Option.some_bind] at h
    split at h
    · cases h
    · cases h; assumption

/-- An effect adds to the registries only the entry of a `register`. -/
theorem World.mem_live_perform {w : World} {c : Ctx} {ok : Bool} {clock : ℕ} {o : Op} {q : ℕ}
    {cl : Client} (h : cl ∈ ((w.perform c ok clock o).1.registry q).live) :
    cl ∈ (w.registry q).live ∨ (o = .register ∧ q = c.proc ∧ cl = (w.nextClient, c.ws)) := by
  cases o
  case register =>
    by_cases hq : q = c.proc
    · subst hq
      simp only [World.perform, World.setRegistry, Function.update_same] at h
      rcases Registry.mem_live_insert h with rfl | h
      exacts [.inr ⟨rfl, rfl, rfl⟩, .inl h]
    · simp only [World.perform, World.setRegistry, Function.update_noteq hq] at h
      exact .inl h
  case unregister clientId =>
    by_cases hq : q = c.proc
    · subst hq
      simp only [World.perform, World.setRegistry, Function.update_same] at h
      exact .inl (Registry.mem_live_pop h)
    · simp only [World.perform, World.setRegistry, Function.update_noteq hq] at h
      exact .inl h
  all_goals simp only [World.perform] at h; (try split at h) <;> exact .inl h

/-- A resumption of a broadcast loop only prunes. -/
theorem World.mem_live_afterAdvance {w : World} {proc : ℕ} {a : Advance} {q : ℕ} {cl : Client}
    (ha : ∀ r, a = .finished r → ∀ cl ∈ r.live, cl ∈ (w.registry proc).live)
    (h : cl ∈ ((w.afterAdvance proc a).registry q).live) : cl ∈ (w.registry q).live := by
  cases a with
  | finished r =>
    by_cases hq : q = proc
    · subst hq
      simp only [World.afterAdvance, World.setRegistry, Function.update_same] at h
      exact ha r rfl cl h
    · simpa only [World.afterAdvance, World.setRegistry, Function.update_noteq hq] using h
  | _ => exact h

/-- **What a step can add to the registries**: the entry of a `register` by the stepping
thread, for its own websocket, in its own process. -/
theorem Thread.mem_live_step {w : World} {tid : ℕ} {th : Thread} {ok : Bool} {clock q : ℕ}
    {cl : Client} (h : cl ∈ ((th.step w tid ok clock).1.registry q).live) :
    cl ∈ (w.registry q).live ∨ ((∃ k, th.task = .run (.op .register k)) ∧ q = th.proc ∧
      cl = (w.nextClient, th.ws)) := by
  obtain ⟨proc, ws, task⟩ := th
  cases task with
  | run p =>
    cases p with
    | op o k =>
      rw [Thread.step_op_world] at h
      rcases World.mem_live_perform h with h | ⟨rfl, rfl, rfl⟩
      exacts [.inl h, .inr ⟨⟨k, rfl⟩, rfl, rfl⟩]
    | bcast m k =>
      exact .inl (World.mem_live_afterAdvance
        (fun _ hr _ hcl => Bcast.live_of_advance_finished hr hcl) h)
    | _ => exact .inl h
  | bcast b k =>
    simp only [Thread.step] at h
    split at h
    · split at h <;> exact .inl h
    · exact .inl (World.mem_live_afterAdvance
        (fun _ hr _ hcl => Bcast.live_of_advance_finished hr hcl) h)
  | relay j =>
    simp only [Thread.step] at h
    repeat' split at h
    all_goals exact .inl h
  | relaySend j m notice =>
    simp only [Thread.step] at h
    repeat' split at h
    all_goals exact .inl h

/-- A step keeps every subscription, and an inactive one inactive, with no more queued:
nothing is published to it any more. -/
theorem Thread.step_subs {w : World} {tid : ℕ} {th : Thread} {ok : Bool} {clock : ℕ} {j : ℕ}
    {sb : Subscription} (hs : w.subs[j]? = some sb) :
    ∃ sb', (th.step w tid ok clock).1.subs[j]? = some sb' ∧
      (sb.active = false → sb'.active = false ∧ sb'.queue.length ≤ sb.queue.length) := by
  have hj := (List.getElem?_eq_some_iff.1 hs).1
  have hkeep := fun h : sb.active = false => And.intro h (le_refl sb.queue.length)
  rcases Thread.step_world_cases w tid th ok clock with
    ⟨-, -, ⟨o, he⟩ | ⟨a, he⟩ | ⟨ws, m, he⟩ | he⟩ | ⟨j', s, p, rest, -, -, hs', hq, he⟩ |
      ⟨j', -, -, he⟩ <;> rw [he]
  · cases o <;> simp only [World.perform] <;> (try split) <;>
      simp [World.publish, World.write, World.setRegistry, World.deliver, hs,
        List.getElem?_append_left hj, List.getElem?_modify]
    all_goals intro h; split <;> simp_all
  · cases a <;> exact ⟨sb, hs, hkeep⟩
  · exact ⟨sb, hs, hkeep⟩
  · exact ⟨sb, hs, hkeep⟩
  · by_cases hjj : j' = j
    · subst hjj
      obtain rfl : s = sb := Option.some.inj (hs'.symm.trans hs)
      refine ⟨_, List.getElem?_set_self hj, fun h => ⟨h, ?_⟩⟩
      simp [hq]
    · exact ⟨sb, by rw [← hs]; exact List.getElem?_set_ne hjj, hkeep⟩
  · by_cases hjj : j' = j
    · subst hjj
      exact ⟨{ sb with queue := [], active := false }, by simp [World.dropSub, hs],
        fun _ => ⟨rfl, Nat.zero_le _⟩⟩
    · exact ⟨sb, by simp [World.dropSub, List.getElem?_modify, hs, hjj], hkeep⟩

/-- **Which thread sits at an index after a step that resumes `th`**: `th` with its new
task, another thread unchanged, or a thread the step started. -/
theorem Sys.step_threads_cases {s : Sys} {ch : Choice} {th : Thread} (hres : s.Resumes ch th)
    {i : ℕ} {th' : Thread} (h : (s.step ch).threads[i]? = some th') :
    (i = ch.thread ∧ th' = { th with task := (th.step s.world ch.thread ch.ok ch.clock).2.1 }) ∨
    (i ≠ ch.thread ∧ s.threads[i]? = some th') ∨
    th' ∈ (th.step s.world ch.thread ch.ok ch.clock).2.2 := by
  by_cases hi : i < s.threads.length
  · obtain ⟨th₀, h₀⟩ : ∃ th₀, s.threads[i]? = some th₀ := ⟨_, List.getElem?_eq_getElem hi⟩
    by_cases he : ch.thread = i
    · subst he
      rw [Sys.step_getElem?_self hres] at h
      exact .inl ⟨rfl, (Option.some.inj h).symm⟩
    · rw [Sys.step_getElem?_of_ne h₀ he] at h
      exact .inr (.inl ⟨Ne.symm he, h₀.trans h⟩)
  · rw [Sys.step_threads_of_resumes hres, List.getElem?_append_right (by simpa using hi)] at h
    exact .inr (.inr (List.getElem?_mem h))

/-! ### The invariant -/

/-- The registry entry for the websocket `ws` that the stage of its handler, in the process
`proc`, allows: its own, while it is registered. -/
def Stage.Entry (proc ws : ℕ) : Stage → ℕ → Client → Prop
  | .registered c, q, cl | .subscribed c _ false _, q, cl => q = proc ∧ cl = (c, ws)
  | _, _, _ => False

/-- The subscriptions a relay of the websocket may read at this stage: the handler's. -/
def Stage.Relays : Stage → ℕ → Prop
  | .subscribed _ j _ _, j' => j' = j
  | _, _ => False

/-- What the stage says of the handler's subscription: it exists, and is inactive once the
handler has unsubscribed. -/
def Stage.Subscribed (w : World) : Stage → Prop
  | .subscribed _ j _ unsub => ∃ sb, w.subs[j]? = some sb ∧ (unsub = true → sb.active = false)
  | _ => True

/-- Another coroutine of the websocket of a handler: a request, which never registers,
subscribes or starts a relay, or a relay of a subscription the stage allows. -/
def Task.Bystander (st : Stage) : Task → Prop
  | .run p => p.All Op.Benign fun _ => True
  | .bcast _ k => ∀ x, (k x).All Op.Benign fun _ => True
  | .relay j | .relaySend j _ _ => st.Relays j

/-- A bystander stays one, whatever its step. -/
theorem Task.Bystander.step {st : Stage} {w : World} {tid : ℕ} {th : Thread} {ok : Bool}
    {clock : ℕ} (h : th.task.Bystander st) : (th.step w tid ok clock).2.1.Bystander st := by
  obtain ⟨proc, ws, task⟩ := th
  have hres : ∀ (k : Except PyErr Unit → Prog Response) (a : Advance),
      (∀ x, (k x).All Op.Benign fun _ => True) → (resumeBcast k a).Bystander st := by
    intro k a hk
    cases a <;> first | exact hk _ | exact hk
  cases task with
  | run p =>
    cases h with
    | pure a => exact .pure a
    | raise e => exact .raise e
    | @op o k ho hk =>
      rcases Thread.step_op_task w tid proc ws o k ok clock with ⟨x, hx⟩ | hx <;> rw [hx]
      exacts [hk x, .op ho hk]
    | bcast _ hk => exact hres _ _ hk
  | bcast b k =>
    simp only [Thread.step]
    split
    · exact h
    · exact hres _ _ h
  | relay j | relaySend j m notice =>
    simp only [Thread.step]
    repeat' split
    all_goals first | exact h | exact Prog.All.pure _ | exact Prog.All.raise _

/-- The handler `tid`, in the process `proc` and serving the websocket `ws`, is at the stage
`st`, and the world agrees with it. -/
structure Sys.Releasing (tid proc ws : ℕ) (st : Stage) (s : Sys) : Prop where
  handler : ∃ p, s.threads[tid]? = some ⟨proc, ws, .run p⟩ ∧ p.Releases st
  entries : ∀ q cl, cl ∈ (s.world.registry q).live → cl.2 = ws → st.Entry proc ws q cl
  others : ∀ i th, s.threads[i]? = some th → i ≠ tid → th.ws = ws → th.task.Bystander st
  subscribed : st.Subscribed s.world

theorem Task.Bystander.mono {st st' : Stage} {t : Task} (h : t.Bystander st)
    (hr : ∀ j, st.Relays j → st'.Relays j) : t.Bystander st' := by
  cases t with
  | relay j => exact hr j h
  | relaySend j m n => exact hr j h
  | _ => exact h

theorem Stage.Subscribed.step {st : Stage} {w : World} (h : st.Subscribed w) (th : Thread)
    (tid : ℕ) (ok : Bool) (clock : ℕ) : st.Subscribed (th.step w tid ok clock).1 := by
  cases st with
  | subscribed c j u v =>
    obtain ⟨sb, hsb, hact⟩ := h
    obtain ⟨sb', hsb', hact'⟩ : ∃ sb', (th.step w tid ok clock).1.subs[j]? = some sb' ∧
        (sb.active = false → sb'.active = false ∧ sb'.queue.length ≤ sb.queue.length) :=
      Thread.step_subs hsb
    exact ⟨sb', hsb', fun hv => (hact' (hact hv)).1⟩
  | _ => trivial

namespace Sys.Releasing

variable {tid proc ws : ℕ} {st : Stage} {s : Sys}

/-- A step of another coroutine keeps the handler at its stage. -/
theorem step_other (h : s.Releasing tid proc ws st) {ch : Choice} (he : ch.thread ≠ tid) :
    (s.step ch).Releasing tid proc ws st := by
  obtain ⟨p, hth, hp⟩ := h.handler
  rcases Sys.step_cases s ch with hst | ⟨th, hres⟩
  · rwa [hst]
  have hc := hres.1
  have hw := Sys.step_world_of_resumes hres
  have hreg : ∀ k, th.ws = ws → th.task ≠ .run (.op .register k) := by
    intro k hws hk
    have hb := h.others _ th hc he hws
    rw [hk] at hb
    cases hb with | op ho _ => exact ho
  refine ⟨⟨p, ?_, hp⟩, fun q cl hcl hws => ?_, fun i th' hi hne hws => ?_, ?_⟩
  · rw [Sys.step_getElem?_of_ne hth he]
  · rw [hw] at hcl
    rcases Thread.mem_live_step hcl with hcl | ⟨⟨k, hk⟩, -, rfl⟩
    exacts [h.entries q cl hcl hws, (hreg k hws hk).elim]
  · rcases Sys.step_threads_cases hres hi with ⟨rfl, rfl⟩ | ⟨-, h₀⟩ | hmem
    · exact (h.others _ th hc he hws).step
    · exact h.others i th' h₀ hne hws
    · rcases Thread.step_spawned_cases s.world ch.thread th ch.ok ch.clock with
        hs | ⟨j, k, hk, hs⟩ <;> rw [hs] at hmem
      · cases hmem
      · rw [List.mem_singleton] at hmem
        subst hmem
        have hb := h.others _ th hc he hws
        rw [hk] at hb
        cases hb with | op ho _ => exact ho.elim
  · rw [hw]
    exact h.subscribed.step th ch.thread ch.ok ch.clock

/-- A step of the handler keeps the invariant at the stage `st'` when what the step does
agrees with `st'`: the handler goes on at `st'`, the entries of `ws` it leaves are those
`st'` allows, `st'` allows every relay `st` allows, and what it starts is a bystander. -/
theorem step_handler_of (h : s.Releasing tid proc ws st) {ch : Choice} (he : ch.thread = tid)
    {p p' : Prog Response} (hth : s.threads[tid]? = some ⟨proc, ws, .run p⟩)
    (hb : (ch.blocked && (Task.run p).sending) = false) {spawned : List Thread} {st' : Stage}
    (hstep : (Thread.step s.world tid ⟨proc, ws, .run p⟩ ch.ok ch.clock).2 = (.run p', spawned))
    (hp' : p'.Releases st')
    (hentries : ∀ q cl,
      cl ∈ ((Thread.step s.world tid ⟨proc, ws, .run p⟩ ch.ok ch.clock).1.registry q).live →
        cl.2 = ws → st'.Entry proc ws q cl)
    (hrelays : ∀ j, st.Relays j → st'.Relays j) (hspawn : ∀ th ∈ spawned, th.task.Bystander st')
    (hsub : st'.Subscribed (Thread.step s.world tid ⟨proc, ws, .run p⟩ ch.ok ch.clock).1) :
    (s.step ch).Releasing tid proc ws st' := by
  subst he
  have hres : s.Resumes ch ⟨proc, ws, .run p⟩ := ⟨hth, hb⟩
  have hw := Sys.step_world_of_resumes hres
  refine ⟨⟨p', ?_, hp'⟩, fun q cl hcl hws => hentries q cl (hw ▸ hcl) hws,
    fun i th hi hne hws => ?_, hw ▸ hsub⟩
  · rw [Sys.step_getElem?_self hres, hstep]
  · rcases Sys.step_threads_cases hres hi with ⟨rfl, -⟩ | ⟨-, h₀⟩ | hmem
    · exact absurd rfl hne
    · exact (h.others i th h₀ hne hws).mono hrelays
    · rw [hstep] at hmem
      exact hspawn th hmem

/-- **The handler's step**: whatever it does, the invariant holds at the stage it reaches. -/
theorem step_handler (h : s.Releasing tid proc ws st) {ch : Choice} (he : ch.thread = tid) :
    ∃ st', (s.step ch).Releasing tid proc ws st' := by
  obtain ⟨p, hth, hp⟩ := h.handler
  rcases Sys.step_self_cases (by rw [he]; exact hth) with ⟨-, hst, -⟩ | hres
  · exact ⟨st, by rw [hst]; exact h⟩
  have hb := hres.2
  have hnil : ∀ {st'}, ∀ th ∈ ([] : List Thread), th.task.Bystander st' := fun _ h => nomatch h
  obtain ⟨t, ok, clock, blocked⟩ := ch
  obtain rfl : t = tid := he
  cases hp with
  | pure a => exact ⟨_, h.step_handler_of rfl hth hb rfl (.pure a) h.entries (fun _ => id) hnil
      h.subscribed⟩
  | raise e => exact ⟨_, h.step_handler_of rfl hth hb rfl (.raise e) h.entries (fun _ => id) hnil
      h.subscribed⟩
  | @op _ o k ho hk =>
    have hentries : ∀ q cl, cl ∈ ((Thread.step s.world t ⟨proc, ws, .run (.op o k)⟩
        ok clock).1.registry q).live → cl.2 = ws → st.Entry proc ws q cl := by
      intro q cl hcl hws
      rcases Thread.mem_live_step hcl with hcl | ⟨⟨k', hk'⟩, -⟩
      · exact h.entries q cl hcl hws
      · cases hk'
        exact ho.elim
    have hspawned : (Thread.step s.world t ⟨proc, ws, .run (.op o k)⟩ ok clock).2.2 = [] := by
      rcases Thread.step_spawned_cases s.world t ⟨proc, ws, .run (.op o k)⟩ ok clock with
        hs | ⟨j, k', hk', -⟩
      · exact hs
      · cases hk'
        exact ho.elim
    refine ⟨st, ?_⟩
    rcases Thread.step_op_task s.world t proc ws o k ok clock with ⟨x, hx⟩ | hx
    · exact h.step_handler_of rfl hth hb (Prod.ext hx hspawned) (hk x) hentries (fun _ => id) hnil
        (h.subscribed.step _ _ _ _)
    · exact h.step_handler_of rfl hth hb (Prod.ext hx hspawned) (.op ho hk) hentries (fun _ => id)
        hnil (h.subscribed.step _ _ _ _)
  | register hk herr =>
    refine ⟨_, h.step_handler_of rfl hth hb rfl (hk _) (fun q cl hcl hws => ?_)
      (fun _ => False.elim) hnil trivial⟩
    rcases Thread.mem_live_step hcl with hcl | ⟨-, rfl, rfl⟩
    exacts [(h.entries q cl hcl hws).elim, ⟨rfl, rfl⟩]
  | @subscribe c channel k hok herr =>
    cases ok
    · exact ⟨_, h.step_handler_of rfl hth hb rfl (herr _) h.entries (fun _ => id) hnil trivial⟩
    · exact ⟨_, h.step_handler_of rfl hth hb rfl (hok _) h.entries (fun _ => False.elim) hnil
        ⟨⟨channel, [], true⟩, List.getElem?_concat_length _ _, nofun⟩⟩
  | @spawn c j u v k hk =>
    exact ⟨_, h.step_handler_of rfl hth hb rfl (hk _) h.entries (fun _ => id)
      (fun th hth => by rw [List.mem_singleton.1 hth]; exact rfl) h.subscribed⟩
  | @unregister c j u v k hk =>
    refine ⟨_, h.step_handler_of rfl hth hb rfl (hk _) (fun q cl hcl hws => ?_) (fun _ => id) hnil
      h.subscribed⟩
    change cl ∈ ((s.world.setRegistry proc ((s.world.registry proc).pop c)).registry q).live
      at hcl
    have hentry : ∀ {q}, cl ∈ (s.world.registry q).live → q = proc ∧ cl.1 = c := by
      intro q hcl
      cases u
      · obtain ⟨rfl, rfl⟩ := h.entries q cl hcl hws
        exact ⟨rfl, rfl⟩
      · exact (h.entries q cl hcl hws).elim
    by_cases hq : q = proc
    · subst hq
      simp only [World.setRegistry, Function.update_same] at hcl
      exact Registry.fst_ne_of_mem_live_pop hcl (hentry (Registry.mem_live_pop hcl)).2
    · simp only [World.setRegistry, Function.update_noteq hq] at hcl
      exact hq (hentry hcl).1
  | @unsubscribe c j u v k hok herr =>
    cases ok
    · exact ⟨_, h.step_handler_of rfl hth hb rfl (herr _) h.entries (fun _ => id) hnil h.subscribed⟩
    · obtain ⟨sb, hsb, -⟩ := h.subscribed
      refine ⟨_, h.step_handler_of rfl hth hb rfl hok
        (fun q cl hcl hws => by cases u <;> exact h.entries q cl hcl hws) (fun _ => id) hnil
        ⟨{ sb with active := false }, ?_, fun _ => rfl⟩⟩
      show (s.world.subs.modify _ j)[j]? = _
      rw [List.getElem?_modify_eq, hsb]
      rfl

/-- **Step lemma**: a step of any coroutine keeps the invariant, at the stage the handler
reaches. -/
theorem step (h : s.Releasing tid proc ws st) (ch : Choice) :
    ∃ st', (s.step ch).Releasing tid proc ws st' := by
  by_cases he : ch.thread = tid
  exacts [h.step_handler he, ⟨st, h.step_other he⟩]

/-- **Run lemma**: so does a run, under any interleaving and any pattern of failures. -/
theorem run (h : s.Releasing tid proc ws st) (cs : List Choice) :
    ∃ st', (s.run cs).Releasing tid proc ws st' := by
  induction cs generalizing s st with
  | nil => exact ⟨st, h⟩
  | cons ch cs ih =>
    obtain ⟨st', h'⟩ := h.step ch
    exact ih h'

/-- At the start of a deployment, the handler of an observer connection, the only one of its
websocket, is at its first stage. -/
theorem init (store : Store) {threads : List Thread} (hserve : ∀ th ∈ threads, th.Serving)
    (hh : threads[tid]? = some ⟨proc, ws, .run websocketAgentEvents⟩)
    (huniq : ∀ i th, threads[i]? = some th → th.task = .run websocketAgentEvents →
      th.ws = ws → i = tid) :
    Sys.Releasing tid proc ws .start ⟨World.init store, threads⟩ where
  handler := ⟨_, hh, websocketAgentEvents_releases⟩
  entries q cl hcl := by simp [World.init, Registry.empty, Registry.live] at hcl
  others i th hi hne hws := by
    rcases hserve th (List.getElem?_mem hi) with ⟨rq, hr⟩ | hr
    · rw [hr]
      exact rq.route_benign
    · exact absurd (huniq i th hi hr hws) hne
  subscribed := trivial

/-- Once the handler has returned, it has unregistered and unsubscribed: no process lists its
websocket, and every relay of the websocket reads an inactive subscription. -/
theorem released (h : s.Releasing tid proc ws st) {r : Response}
    (hret : s.threads[tid]? = some ⟨proc, ws, .run (.pure r)⟩) :
    (∀ q cl, cl ∈ (s.world.registry q).live → cl.2 ≠ ws) ∧
    ∀ (i : ℕ) (th : Thread) (j : ℕ), s.threads[i]? = some th → th.ws = ws →
      (th.task = .relay j ∨ ∃ m n, th.task = .relaySend j m n) →
      ∃ sb, s.world.subs[j]? = some sb ∧ sb.active = false := by
  obtain ⟨p, hp, hrel⟩ := h.handler
  rw [hret] at hp
  cases hp
  -- the handler returns only once it has unregistered and unsubscribed
  obtain ⟨c, j, rfl⟩ : ∃ c j, st = .subscribed c j true true := by cases hrel; exact ⟨_, _, rfl⟩
  refine ⟨h.entries, fun i th j' hi hws hj => ?_⟩
  have hb : th.task.Bystander (.subscribed c j true true) := by
    by_cases hi' : i = tid
    · subst hi'
      rw [hret] at hi
      cases hi
      rcases hj with hj | ⟨_, _, hj⟩ <;> cases hj
    · exact h.others i th hi hi' hws
  obtain rfl : j' = j := by rcases hj with hj | ⟨_, _, hj⟩ <;> rw [hj] at hb <;> exact hb
  obtain ⟨sb, hsb, hact⟩ := h.subscribed
  exact ⟨sb, hsb, hact rfl⟩

end Sys.Releasing

/-! ### Disconnecting -/

/-- **The handler of an observer releases what it took.** Start any number of server
processes on any store, with any requests and observer connections, and take the handler of
one observer connection, the only one of its websocket. Under every interleaving and every
pattern of failures, once the handler has returned, no process lists the websocket in
`active_connections`, and every relay of the websocket reads a subscription that is
unsubscribed, so that it stops once it has forwarded what is queued. -/
theorem disconnect_releases {store : Store} {threads : List Thread}
    (hserve : ∀ th ∈ threads, th.Serving) {tid proc ws : ℕ}
    (hh : threads[tid]? = some ⟨proc, ws, .run websocketAgentEvents⟩)
    (huniq : ∀ i th, threads[i]? = some th → th.task = .run websocketAgentEvents →
      th.ws = ws → i = tid)
    (cs : List Choice) {r : Response}
    (hret : (Sys.run ⟨World.init store, threads⟩ cs).threads[tid]? =
      some ⟨proc, ws, .run (.pure r)⟩) :
    (∀ q cl, cl ∈ ((Sys.run ⟨World.init store, threads⟩ cs).world.registry q).live →
      cl.2 ≠ ws) ∧
    ∀ (i : ℕ) (th : Thread) (j : ℕ), (Sys.run ⟨World.init store, threads⟩ cs).threads[i]? =
      some th → th.ws = ws → (th.task = .relay j ∨ ∃ m n, th.task = .relaySend j m n) →
      ∃ sb, (Sys.run ⟨World.init store, threads⟩ cs).world.subs[j]? = some sb ∧
        sb.active = false := by
  obtain ⟨st, h⟩ := (Sys.Releasing.init store hserve hh huniq).run cs
  exact h.released hret

/-- The observer of `crossDeployment` connects (5 steps) while `pause a1` runs to its end
(7 steps); then its websocket disconnects, and its handler unregisters, unsubscribes and
closes (4 steps). -/
def crossDisconnect : List Choice :=
  List.replicate 5 (stepOf 0) ++ List.replicate 7 (stepOf 1) ++ ⟨0, false, 5, false⟩ ::
    List.replicate 3 (stepOf 0)

/-- The deployment of `crossDeployment` after `crossDisconnect`. -/
def crossDisconnected : Sys := Sys.run ⟨alphaWorld, crossDeployment⟩ crossDisconnect

/-- The observer of `crossDeployment` is the only one of websocket 7. -/
theorem crossDeployment_observer_unique : ∀ i (th : Thread), crossDeployment[i]? = some th →
    th.task = .run websocketAgentEvents → th.ws = 7 → i = 0 := by
  intro i th hi _ hws
  match i, hi with
  | 0, _ => rfl
  | 1, hi => cases hi; cases hws
  | _ + 2, hi => cases hi

theorem disconnect_releases_cross :
    crossDeployment[0]? = some ⟨1, 7, .run websocketAgentEvents⟩ ∧
    (∀ i (th : Thread), crossDeployment[i]? = some th → th.task = .run websocketAgentEvents →
      th.ws = 7 → i = 0) ∧
    crossDisconnected.threads[0]? = some ⟨1, 7, .run (.pure .none)⟩ ∧
    (∀ q cl, cl ∈ (crossDisconnected.world.registry q).live → cl.2 ≠ 7) ∧
    ∀ (i : ℕ) (th : Thread) (j : ℕ), crossDisconnected.threads[i]? = some th → th.ws = 7 →
      (th.task = .relay j ∨ ∃ m n, th.task = .relaySend j m n) →
      ∃ sb, crossDisconnected.world.subs[j]? = some sb ∧ sb.active = false := by
  have hret : crossDisconnected.threads[0]? = some ⟨1, 7, .run (.pure .none)⟩ := rfl
  exact ⟨rfl, crossDeployment_observer_unique, hret, disconnect_releases crossDeployment_serving
    rfl crossDeployment_observer_unique _ hret⟩

end AgentControl
