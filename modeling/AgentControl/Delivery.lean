import AgentControl.Deployment
import AgentControl.Relay

/-!
# What an Observer Receives

An observer's connection subscribes to `agent_events` once and starts one relay for that
subscription; no other coroutine subscribes or starts a relay. So in every deployment each
subscription has one owner: the coroutine that subscribed, until it starts the relay, and
the relay from then on. Only the owner takes messages from the subscription. With the
FIFO law of a subscription and the forwarding law of a relay (`AgentControl.Relay`), this
says what an observer receives from its relay.

The owner of each subscription is ghost data: a map, advanced by each step as
`Sys.nextOwner` says. The invariant `Sys.Owned` says that every thread keeps to it.

## Main results

* `Sys.Owned.step`: one step of any coroutine keeps the owners consistent.
* `Sys.taken_eq_takenBy`: the owner of a subscription is the only thread that takes from it.
* `observer_receives_events`: **an observer receives from its relay every event published
  on `agent_events` while it is subscribed, decoded, in publish order, and once**, as long
  as the relay's sends succeed.
* `relay_drains_backlog`: **no observer waits on another**: a relay delivers the `n` messages
  its subscription holds within `2 n` of its own steps, whatever the other coroutines do.
-/

namespace AgentControl

/-! ### Which coroutines subscribe and start relays -/

/-- An effect that neither subscribes nor starts a relay. -/
def Op.Quiet : Op → Prop
  | .subscribe _ | .spawnRelay _ => False
  | _ => True

theorem Op.Within.quiet {K C : String → Prop} {o : Op} (h : o.Within K C) : o.Quiet := by
  cases o <;> trivial

theorem Op.Reads.quiet {o : Op} (h : o.Reads) : o.Quiet := by
  cases o <;> trivial

namespace Prog

/-- How a coroutine subscribes and starts relays. `Relays none p`: on each path, `p`
subscribes at most once, and then starts at most one relay, of the subscription it got.
`Relays (some j) p`: `p` no longer subscribes, and starts at most one relay, of `j`. -/
inductive Relays {α : Type} : Option ℕ → Prog α → Prop where
  | pure {own : Option ℕ} (a : α) : Relays own (.pure a)
  | raise {own : Option ℕ} (e : PyErr) : Relays own (.raise e)
  | op {own : Option ℕ} {o : Op} {k : Except PyErr o.Reply → Prog α} (ho : o.Quiet)
      (hk : ∀ x, Relays own (k x)) : Relays own (.op o k)
  | bcast {own : Option ℕ} {m : JVal} {k : Except PyErr Unit → Prog α}
      (hk : ∀ x, Relays own (k x)) : Relays own (.bcast m k)
  | subscribe {channel : String} {k : Except PyErr ℕ → Prog α}
      (hok : ∀ j, Relays (some j) (k (.ok j))) (herr : ∀ e, Relays none (k (.error e))) :
      Relays none (.op (.subscribe channel) k)
  | spawn {j : ℕ} {k : Except PyErr Unit → Prog α}
      (hk : ∀ x, (k x).All Op.Quiet fun _ => True) : Relays (some j) (.op (.spawnRelay j) k)

section Relays

variable {α β : Type} {own : Option ℕ}

theorem Relays.of_quiet {B : JVal → Prop} {p : Prog α} (hp : p.All Op.Quiet B)
    (own : Option ℕ) : p.Relays own := by
  induction hp with
  | pure a => exact .pure a
  | raise e => exact .raise e
  | op ho _ ih => exact .op ho ih
  | bcast _ _ ih => exact .bcast ih

theorem Relays.tryCatch {p : Prog α} {h : PyErr → Prog α} (hp : p.Relays own)
    (hh : ∀ e, (h e).All Op.Quiet fun _ => True) : (p.tryCatch h).Relays own := by
  induction hp with
  | pure a => exact .pure a
  | raise e => exact .of_quiet (hh e) _
  | op ho _ ih => exact .op ho ih
  | bcast _ ih => exact .bcast ih
  | subscribe _ _ ih₁ ih₂ => exact .subscribe ih₁ ih₂
  | spawn hk => exact .spawn fun x => (hk x).tryCatch hh

theorem relays_call_bind {o : Op} {f : o.Reply → Prog β} (ho : o.Quiet)
    (hf : ∀ a, (f a).Relays own) : ((call o).bind f).Relays own := by
  rw [call_bind]
  refine .op ho fun x => ?_
  cases x with
  | ok a => exact hf a
  | error e => exact .raise e

theorem relays_subscribe_bind {channel : String} {f : ℕ → Prog β}
    (hf : ∀ j, (f j).Relays (some j)) : ((call (.subscribe channel)).bind f).Relays none := by
  rw [call_bind]
  exact .subscribe hf fun e => .raise e

theorem relays_spawn_bind {j : ℕ} {f : Unit → Prog β}
    (hf : ∀ a, (f a).All Op.Quiet fun _ => True) :
    ((call (.spawnRelay j)).bind f).Relays (some j) := by
  rw [call_bind]
  exact .spawn (all_orRaise hf)

end Relays

end Prog

/-- A control request or a read neither subscribes nor starts a relay. -/
theorem Request.route_quiet (rq : Request) : rq.route.All Op.Quiet fun _ => True := by
  cases h : rq.target with
  | some a => exact (Request.within h).mono (fun _ => Op.Within.quiet) fun _ _ => trivial
  | none =>
    cases rq <;> simp only [Request.target, reduceCtorEq] at h
    · exact (getAgentConfig_reads _).mono (fun _ => Op.Reads.quiet) fun _ h => h.elim
    · exact listAgents_reads.mono (fun _ => Op.Reads.quiet) fun _ h => h.elim

/-- The observer route subscribes once and starts one relay, of its subscription. -/
theorem websocketAgentEvents_relays : websocketAgentEvents.Relays none := by
  simp only [websocketAgentEvents, Prog.bind_def, Prog.bind_assoc, Prog.pure_def]
  repeat' first
    | exact .pure _
    | exact .raise _
    | refine Prog.relays_subscribe_bind fun _ => ?_
    | refine Prog.relays_spawn_bind fun _ => ?_
    | refine Prog.relays_call_bind trivial fun _ => ?_
    | refine Prog.Relays.tryCatch ?_ fun _ => ?_
    | refine Prog.all_call_bind trivial fun _ => ?_
    | exact Empty.elim ‹Empty›

theorem Thread.Serving.relays {th : Thread} (h : th.Serving) :
    ∃ p, th.task = .run p ∧ p.Relays none := by
  rcases h with ⟨rq, hr⟩ | hr
  exacts [⟨_, hr, .of_quiet rq.route_quiet none⟩, ⟨_, hr, websocketAgentEvents_relays⟩]

/-! ### Owners of subscriptions -/

/-- The task of the thread `i` subscribes and starts relays as `Prog.Relays` allows, and
every subscription it holds, or relays, is one that `owner` gives to `i`. -/
def Task.OwnedBy (owner : ℕ → Option ℕ) (i : ℕ) : Task → Prop
  | .run p => ∃ own, p.Relays own ∧ ∀ j ∈ own, owner j = some i
  | .bcast _ k => ∃ own, (∀ x, (k x).Relays own) ∧ ∀ j ∈ own, owner j = some i
  | .relay j | .relaySend j _ _ => owner j = some i

theorem Task.OwnedBy.mono {owner owner' : ℕ → Option ℕ} {i : ℕ} {t : Task}
    (h : t.OwnedBy owner i) (hc : ∀ j, owner j = some i → owner' j = some i) :
    t.OwnedBy owner' i := by
  cases t with
  | run p => obtain ⟨own, hp, ho⟩ := h; exact ⟨own, hp, fun j hj => hc j (ho j hj)⟩
  | bcast b k => obtain ⟨own, hk, ho⟩ := h; exact ⟨own, hk, fun j hj => hc j (ho j hj)⟩
  | relay j => exact hc j h
  | relaySend j m n => exact hc j h

/-- The owners are consistent with the deployment: a subscription with an owner exists, and
every thread keeps to the owners. -/
structure Sys.Owned (owner : ℕ → Option ℕ) (s : Sys) : Prop where
  fresh : ∀ j i, owner j = some i → j < s.world.subs.length
  tasks : ∀ (i : ℕ) (th : Thread), s.threads[i]? = some th → th.task.OwnedBy owner i

/-- Ghost: the owners after a step of `th`, the thread `i`, when a thread it starts gets the
index `n`: a new subscription goes to the thread that made it, and a subscription whose
relay starts goes to the relay. -/
def Thread.nextOwner (owner : ℕ → Option ℕ) (w : World) (n i : ℕ) (th : Thread) (ok : Bool) :
    ℕ → Option ℕ :=
  match th.task with
  | .run (.op (.subscribe _) _) =>
    if ok then Function.update owner w.subs.length (some i) else owner
  | .run (.op (.spawnRelay j) _) => Function.update owner j (some n)
  | _ => owner

/-- Ghost: the owners after the step `ch`. -/
def Sys.nextOwner (owner : ℕ → Option ℕ) (s : Sys) (ch : Choice) : ℕ → Option ℕ :=
  match s.threads[ch.thread]? with
  | some th => th.nextOwner owner s.world s.threads.length ch.thread ch.ok
  | none => owner

section Step

variable {owner : ℕ → Option ℕ} {w : World} {n i : ℕ} {th : Thread}

/-- What a step does to the owners: nothing, or a subscription made by the thread goes to
it, or the subscription of the relay it starts goes to the relay. -/
theorem Thread.nextOwner_cases (owner : ℕ → Option ℕ) (w : World) (n i : ℕ) (th : Thread)
    (ok : Bool) :
    th.nextOwner owner w n i ok = owner ∨
    (ok = true ∧ (∃ c k, th.task = .run (.op (.subscribe c) k)) ∧
      th.nextOwner owner w n i ok = Function.update owner w.subs.length (some i)) ∨
    ∃ j k, th.task = .run (.op (.spawnRelay j) k) ∧
      th.nextOwner owner w n i ok = Function.update owner j (some n) := by
  generalize hx : th.nextOwner owner w n i ok = x
  cases ok <;> simp only [Thread.nextOwner, Bool.false_eq_true, ↓reduceIte] at hx <;>
    split at hx <;> subst hx
  all_goals first
    | exact .inl rfl
    | exact .inr (.inl ⟨rfl, ⟨_, _, ‹_›⟩, rfl⟩)
    | exact .inr (.inr ⟨_, _, ‹_›, rfl⟩)

/-- A coroutine about to start a relay owns its subscription. -/
theorem Task.OwnedBy.spawn {j : ℕ} {k : Except PyErr Unit → Prog Response}
    (h : (Task.run (.op (.spawnRelay j) k)).OwnedBy owner i) : owner j = some i := by
  obtain ⟨own, hp, ho⟩ := h
  cases hp with
  | op hq _ => exact hq.elim
  | spawn _ => exact ho j rfl

/-- A step gives away no subscription owned by another thread. -/
theorem Thread.nextOwner_of_ne {i' j : ℕ} (h : th.task.OwnedBy owner i)
    (hfresh : ∀ j i', owner j = some i' → j < w.subs.length) (hj : owner j = some i')
    (hne : i' ≠ i) (ok : Bool) : th.nextOwner owner w n i ok j = owner j := by
  rcases Thread.nextOwner_cases owner w n i th ok with he | ⟨-, -, he⟩ | ⟨j', k, ht, he⟩ <;>
    rw [he]
  · exact Function.update_noteq (hfresh j i' hj).ne _ _
  · rw [ht] at h
    refine Function.update_noteq (fun hjj => hne ?_) _ _
    subst hjj
    exact Option.some.inj (hj.symm.trans h.spawn)

/-- Steps never remove a subscription. -/
theorem Thread.subs_length_le (w : World) (tid : ℕ) (th : Thread) (ok : Bool) (clock : ℕ) :
    w.subs.length ≤ (th.step w tid ok clock).1.subs.length := by
  rcases Thread.step_world_cases w tid th ok clock with
    ⟨-, -, ⟨o, he⟩ | ⟨a, he⟩ | ⟨ws, m, he⟩ | he⟩ | ⟨j, s, p, rest, -, -, -, -, he⟩ |
      ⟨j, -, -, he⟩ <;> rw [he] <;>
    first
    | exact le_rfl
    | exact (List.length_set ..).ge
    | exact (List.length_modify ..).ge
    | (cases a <;> exact le_rfl)
    | (cases o <;> simp only [World.perform] <;> (try split) <;> simp)

theorem Thread.nextOwner_of_quiet {o : Op} {k : Except PyErr o.Reply → Prog Response}
    (h : th.task = .run (.op o k)) (ho : o.Quiet) (ok : Bool) :
    th.nextOwner owner w n i ok = owner := by
  rcases Thread.nextOwner_cases owner w n i th ok with he | ⟨-, ⟨c, k', ht⟩, -⟩ | ⟨j, k', ht, -⟩
  · exact he
  all_goals
    obtain ⟨rfl, -⟩ := Prog.op.inj (Task.run.inj (h.symm.trans ht))
    exact ho.elim

/-- A thread waiting on a send hands over nothing. -/
theorem Thread.nextOwner_of_sending (h : th.task.sending = true) (ok : Bool) :
    th.nextOwner owner w n i ok = owner := by
  rcases Thread.nextOwner_cases owner w n i th ok with he | ⟨-, ⟨c, k, ht⟩, -⟩ | ⟨j, k, ht, -⟩
  · exact he
  all_goals rw [ht] at h; cases h

/-- A relay hands over nothing. -/
theorem Thread.nextOwner_of_relaying {sub : ℕ} (h : th.task.Relaying sub) (ok : Bool) :
    th.nextOwner owner w n i ok = owner := by
  rcases Thread.nextOwner_cases owner w n i th ok with he | ⟨-, ⟨c, k, ht⟩, -⟩ | ⟨j, k, ht, -⟩
  · exact he
  all_goals rw [ht] at h; exact h.elim

theorem Thread.nextOwner_fresh (h : th.task.OwnedBy owner i)
    (hfresh : ∀ j i', owner j = some i' → j < w.subs.length) (ok : Bool) (clock : ℕ) (j i' : ℕ)
    (hj : th.nextOwner owner w n i ok j = some i') :
    j < (th.step w i ok clock).1.subs.length := by
  have hle := Thread.subs_length_le w i th ok clock
  rcases Thread.nextOwner_cases owner w n i th ok with
    he | ⟨rfl, ⟨c, k, ht⟩, he⟩ | ⟨j', k, ht, he⟩ <;> rw [he] at hj
  · exact (hfresh j i' hj).trans_le hle
  · by_cases hjl : j = w.subs.length
    · have hlen : (th.step w i true clock).1.subs.length = w.subs.length + 1 := by
        obtain ⟨proc, ws, task⟩ := th
        simp only at ht
        subst ht
        simp [Thread.step, stepOp, World.perform]
      omega
    · rw [Function.update_noteq hjl] at hj
      exact (hfresh j i' hj).trans_le hle
  · by_cases hjj : j = j'
    · subst hjj
      rw [ht] at h
      exact (hfresh j i h.spawn).trans_le hle
    · rw [Function.update_noteq hjj] at hj
      exact (hfresh j i' hj).trans_le hle

/-- **The stepping thread keeps to the new owners.** -/
theorem Thread.step_ownedBy (h : th.task.OwnedBy owner i) (n : ℕ) (ok : Bool) (clock : ℕ) :
    (th.step w i ok clock).2.1.OwnedBy (th.nextOwner owner w n i ok) i := by
  obtain ⟨proc, ws, task⟩ := th
  cases task with
  | run p =>
    obtain ⟨own, hp, ho⟩ := h
    cases hp with
    | pure a => exact ⟨own, .pure a, ho⟩
    | raise e => exact ⟨own, .raise e, ho⟩
    | @op _ o k hq hk =>
      rw [Thread.nextOwner_of_quiet rfl hq]
      rcases Thread.step_op_task w i proc ws o k ok clock with ⟨x, hx⟩ | hx <;> rw [hx]
      · exact ⟨own, hk x, ho⟩
      · exact ⟨own, .op hq hk, ho⟩
    | bcast hk =>
      simp only [Thread.step]
      cases Bcast.start (w.registry proc) _ <;> first | exact ⟨own, hk _, ho⟩ | exact ⟨own, hk, ho⟩
    | subscribe hok herr =>
      cases ok
      · exact ⟨none, herr _, by simp⟩
      · exact ⟨some w.subs.length, hok _, by simp [Thread.nextOwner]⟩
    | spawn hk => exact ⟨none, .of_quiet (hk _) none, by simp⟩
  | bcast b k =>
    obtain ⟨own, hk, ho⟩ := h
    simp only [Thread.step]
    split
    · exact ⟨own, hk, ho⟩
    · cases Bcast.advance (w.registry proc) b <;>
        first | exact ⟨own, hk _, ho⟩ | exact ⟨own, hk, ho⟩
  | relay j | relaySend j m notice =>
    simp only [Thread.step]
    repeat' split
    all_goals first | exact h | exact ⟨none, .pure _, by simp⟩ | exact ⟨none, .raise _, by simp⟩

theorem Thread.step_spawned_cases (w : World) (tid : ℕ) (th : Thread) (ok : Bool) (clock : ℕ) :
    (th.step w tid ok clock).2.2 = [] ∨ ∃ j k, th.task = .run (.op (.spawnRelay j) k) ∧
      (th.step w tid ok clock).2.2 = [⟨th.proc, th.ws, .relay j⟩] := by
  obtain ⟨proc, ws, task⟩ := th
  cases task with
  | run p =>
    cases p with
    | op o k =>
      cases o
      case spawnRelay j => exact .inr ⟨j, k, rfl, rfl⟩
      case receive => simp only [Thread.step, stepOp]; split <;> exact .inl rfl
      all_goals exact .inl rfl
    | _ => exact .inl rfl
  | _ => simp only [Thread.step]; repeat' split
         all_goals exact .inl rfl

/-- **A relay the step starts, at index `n`, owns its subscription.** -/
theorem Thread.spawned_ownedBy (n : ℕ) (ok : Bool) (clock : ℕ) (m : ℕ) (th' : Thread)
    (hm : (th.step w i ok clock).2.2[m]? = some th') :
    th'.task.OwnedBy (th.nextOwner owner w n i ok) (n + m) := by
  rcases Thread.step_spawned_cases w i th ok clock with hs | ⟨j, k, ht, hs⟩ <;> rw [hs] at hm
  · simp at hm
  · cases m with
    | zero =>
      cases hm
      show th.nextOwner owner w n i ok j = some n
      simp [Thread.nextOwner, ht]
    | succ m => simp at hm

end Step

namespace Sys

/-- **One step of any coroutine keeps the owners consistent.** -/
theorem Owned.step {owner : ℕ → Option ℕ} {s : Sys} (h : s.Owned owner) (ch : Choice) :
    (s.step ch).Owned (s.nextOwner owner ch) := by
  rcases hth : s.threads[ch.thread]? with _ | th
  · rw [step_of_none hth]
    simpa only [nextOwner, hth] using h
  have hown := h.tasks _ _ hth
  simp only [nextOwner, hth]
  rcases step_self_cases hth with ⟨hb, hst, -⟩ | hres
  · rw [hst, Thread.nextOwner_of_sending (Bool.and_eq_true _ _ ▸ hb).2]
    exact h
  refine ⟨fun j i' hj => ?_, fun i' th' hth' => ?_⟩
  · rw [step_world_of_resumes hres]
    exact Thread.nextOwner_fresh hown h.fresh ch.ok ch.clock j i' hj
  · by_cases hi : i' < s.threads.length
    · obtain ⟨th₀, h₀⟩ : ∃ th₀, s.threads[i']? = some th₀ := ⟨_, List.getElem?_eq_getElem hi⟩
      by_cases he : ch.thread = i'
      · subst he
        obtain rfl : th₀ = th := Option.some.inj (h₀.symm.trans hth)
        rw [step_getElem?_self hres] at hth'
        cases hth'
        exact Thread.step_ownedBy hown _ _ _
      · rw [step_getElem?_of_ne h₀ he] at hth'
        cases hth'
        exact (h.tasks i' _ h₀).mono fun j hj =>
          (Thread.nextOwner_of_ne hown h.fresh hj (Ne.symm he) ch.ok).trans hj
    · rw [step_threads_of_resumes hres, List.getElem?_append_right (by simpa using hi)] at hth'
      have hs :
          th'.task.OwnedBy (th.nextOwner owner s.world s.threads.length ch.thread ch.ok) _ :=
        Thread.spawned_ownedBy s.threads.length ch.ok ch.clock _ th' hth'
      rwa [List.length_set, Nat.add_sub_cancel' (Nat.le_of_not_lt hi)] at hs

theorem Owned.run {owner : ℕ → Option ℕ} {s : Sys} (h : s.Owned owner) (cs : List Choice) :
    ∃ owner', (s.run cs).Owned owner' := by
  induction cs generalizing s owner with
  | nil => exact ⟨owner, h⟩
  | cons ch cs ih => exact ih (h.step ch)

/-- A deployment starts with no subscription and no owner. -/
theorem owned_init (store : Store) {threads : List Thread} (h : ∀ th ∈ threads, th.Serving) :
    Sys.Owned (fun _ => none) ⟨World.init store, threads⟩ where
  fresh _ _ h := Option.noConfusion h
  tasks _ th hth := by
    obtain ⟨p, hp, hr⟩ := (h th (List.getElem?_mem hth)).relays
    rw [hp]
    exact ⟨none, hr, by simp⟩

/-- Whoever takes from a subscription owns it. -/
theorem Owned.took {owner : ℕ → Option ℕ} {s : Sys} (h : s.Owned owner) {ch : Choice} {j : ℕ}
    {p : Bytes} (ht : s.took ch = some (j, p)) : owner j = some ch.thread := by
  rcases hth : s.threads[ch.thread]? with _ | th
  · rw [took_of_none hth] at ht
    cases ht
  · rw [took_of_some hth] at ht
    have hown := h.tasks _ _ hth
    rwa [(Thread.task_of_took ht).1] at hown

/-- Whoever drops from a subscription owns it, and its read failed. -/
theorem Owned.drops {owner : ℕ → Option ℕ} {s : Sys} (h : s.Owned owner) {ch : Choice}
    {sub : ℕ} (hd : s.drops ch sub ≠ []) : owner sub = some ch.thread ∧ ch.ok = false := by
  rcases hth : s.threads[ch.thread]? with _ | th
  · simp [Sys.drops, hth] at hd
  · rw [drops_of_some hth] at hd
    have hown := h.tasks _ _ hth
    rw [(Thread.task_of_drops hd).1] at hown
    exact ⟨hown, (Thread.task_of_drops hd).2⟩

/-- A relay keeps its subscription, whatever the step. -/
theorem Owned.nextOwner_relaying {owner : ℕ → Option ℕ} {s : Sys} {sub tid : ℕ} {th : Thread}
    (h : s.Owned owner) (ho : owner sub = some tid) (hth : s.threads[tid]? = some th)
    (hr : th.task.Relaying sub) (ch : Choice) : s.nextOwner owner ch sub = some tid := by
  rcases hc : s.threads[ch.thread]? with _ | th'
  · simpa [nextOwner, hc] using ho
  · simp only [nextOwner, hc]
    by_cases he : ch.thread = tid
    · subst he
      obtain rfl : th' = th := Option.some.inj (hc.symm.trans hth)
      rwa [Thread.nextOwner_of_relaying hr]
    · exact (Thread.nextOwner_of_ne (h.tasks _ _ hc) h.fresh ho (Ne.symm he) ch.ok).trans ho

/-- **The owner of a subscription is the only thread that takes from it**, whatever the
other coroutines do and whether its own sends succeed or not. -/
theorem taken_eq_takenBy {owner : ℕ → Option ℕ} {s : Sys} {sub tid : ℕ} {th : Thread}
    (h : s.Owned owner) (ho : owner sub = some tid) (hth : s.threads[tid]? = some th)
    (hr : th.task.Relaying sub) (cs : List Choice) : s.taken cs sub = s.takenBy cs tid := by
  induction cs generalizing s owner th with
  | nil => rfl
  | cons ch cs ih =>
    rw [taken_cons, takenBy_cons]
    have ho' := h.nextOwner_relaying ho hth hr ch
    congr 1
    · rcases ht : s.took ch with _ | ⟨j, p⟩
      · simp
      · by_cases he : ch.thread = tid
        · subst he
          rw [took_of_some hth] at ht
          have hj : j = sub := by
            have hr' := hr
            rwa [(Thread.task_of_took ht).1] at hr'
          simp [hj, Option.filter]
        · have hj : j ≠ sub := fun hjs => he (Option.some.inj ((h.took ht).symm.trans (hjs ▸ ho)))
          simp [Option.filter, hj, he]
    · by_cases he : ch.thread = tid
      · subst he
        rcases step_self_cases hth with ⟨-, hst, -⟩ | hres
        · rw [hst]
          exact ih h ho hth hr
        · exact ih (h.step ch) ho' (step_getElem?_self hres) (Thread.step_relaying_task _ _ hr _ _)
      · exact ih (h.step ch) ho' (step_getElem?_of_ne hth he) hr

/-- **Nothing is dropped from a subscription whose owner's reads succeed.** -/
theorem dropped_eq_nil {owner : ℕ → Option ℕ} {s : Sys} {sub tid : ℕ} {th : Thread}
    (h : s.Owned owner) (ho : owner sub = some tid) (hth : s.threads[tid]? = some th)
    (hr : th.task.Relaying sub) (cs : List Choice)
    (hok : ∀ ch ∈ cs, ch.thread = tid → ch.ok = true) : s.dropped cs sub = [] := by
  induction cs generalizing s owner th with
  | nil => rfl
  | cons ch cs ih =>
    rw [List.forall_mem_cons] at hok
    have hd : s.drops ch sub = [] := by
      by_contra hd
      obtain ⟨ho', hf⟩ := h.drops hd
      rw [hok.1 (Option.some.inj (ho'.symm.trans ho))] at hf
      cases hf
    rw [dropped, hd, List.nil_append]
    have ho' := h.nextOwner_relaying ho hth hr ch
    by_cases he : ch.thread = tid
    · subst he
      rcases step_self_cases hth with ⟨-, hst, -⟩ | hres
      · rw [hst]
        exact ih h ho hth hr hok.2
      · exact ih (h.step ch) ho' (step_getElem?_self hres)
          (Thread.step_relaying_task _ _ hr _ _) hok.2
    · exact ih (h.step ch) ho' (step_getElem?_of_ne hth he) hr hok.2

/-- A step of another coroutine keeps what a relay's subscription holds, at its front. -/
theorem Owned.step_queue_prefix {owner : ℕ → Option ℕ} {s : Sys} {sub tid : ℕ} {th : Thread}
    (h : s.Owned owner) (ho : owner sub = some tid) (hth : s.threads[tid]? = some th)
    (hr : th.task.Relaying sub) {ch : Choice} (he : ch.thread ≠ tid) {sb : Subscription}
    (hsb : s.world.subs[sub]? = some sb) :
    ∃ sb', (s.step ch).world.subs[sub]? = some sb' ∧ sb.queue <+: sb'.queue := by
  obtain ⟨sb', hsb', -, E₁, -, -, -, hq, -⟩ := run_accounts s [ch] (World.Accounts.start hsb)
  have hd : s.dropped [ch] sub = [] := by
    rw [dropped, dropped, List.append_nil]
    by_contra hd
    exact he (Option.some.inj ((h.drops hd).1.symm.trans ho))
  rw [taken_eq_takenBy h ho hth hr, takenBy_cons, if_neg he, hd] at hq
  exact ⟨sb', hsb', E₁, by simpa [takenBy, takes] using hq⟩

/-- **A relay drains its backlog in two of its own steps per message.** Take an owned relay,
with `q` at the front of its subscription, and run every coroutine; as long as the relay's
reads and sends succeed and it is resumed twice per message of `q`, and once more for a
message in flight, it sends that message and then `q`, decoded and in order. -/
theorem run_drains {owner : ℕ → Option ℕ} {tid sub : ℕ} (s : Sys) (cs : List Choice)
    (h : s.Owned owner) (ho : owner sub = some tid) {th : Thread}
    (hth : s.threads[tid]? = some th)
    (hl : th.task = .relay sub ∨ ∃ m n, th.task = .relaySend sub m n) {sb : Subscription}
    (hsb : s.world.subs[sub]? = some sb) {q : List Bytes} (hq : q <+: sb.queue)
    (hok : ∀ ch ∈ cs, ch.thread = tid → ch.ok = true)
    (hk : 2 * q.length + th.task.inFlight.length ≤ cs.countP (Choice.advances tid)) :
    s.world.sentBy tid th.ws ++ th.task.inFlight ++ q.map (fun p => (relayDecode p).1) <+:
      (s.run cs).world.sentBy tid th.ws := by
  induction cs generalizing s owner th sb q with
  | nil =>
    rw [List.countP_nil, Nat.le_zero, Nat.add_eq_zero] at hk
    rw [List.eq_nil_of_length_eq_zero (by omega : q.length = 0),
      List.eq_nil_of_length_eq_zero hk.2]
    simp
  | cons ch cs ih =>
    rw [List.forall_mem_cons] at hok
    have hrel : th.task.Relaying sub := by rcases hl with hr | ⟨m, n, hr⟩ <;> rw [hr] <;> rfl
    have ho' := h.nextOwner_relaying ho hth hrel ch
    rw [List.countP_cons] at hk
    by_cases he : ch.thread = tid
    · subst he
      rcases step_self_cases hth with ⟨hb, hst, -⟩ | hres
      · -- held back at its send: nothing happens, and the choice does not count
        rw [run_cons, hst]
        exact ih s h ho hth hl hsb hq hok.2
          (by simpa [Choice.advances, (Bool.and_eq_true _ _ ▸ hb).1] using hk)
      have hg := step_getElem?_self hres
      rw [hok.1 rfl] at hg
      have hk' : 2 * q.length + th.task.inFlight.length ≤
          cs.countP (Choice.advances ch.thread) + 1 := by
        simp only [Choice.advances, beq_self_eq_true, Bool.true_and] at hk
        split at hk <;> omega
      rcases hl with hr | ⟨m, n, hr⟩
      · -- waiting: with a backlog, the relay takes its head
        rcases q with _ | ⟨p, q⟩
        · simpa [hr, Task.inFlight] using run_sentBy_prefix s (ch :: cs) ch.thread th.ws
        · obtain ⟨t, ht⟩ := hq
          have hstep : th.step s.world ch.thread true ch.clock = _ :=
            Thread.step_relay_take hr hsb ht.symm ch.clock
          rw [hstep] at hg
          have hw : (s.step ch).world =
              { s.world with subs := s.world.subs.set sub { sb with queue := q ++ t } } := by
            rw [step_world_of_resumes hres, hok.1 rfl, hstep]; rfl
          have := ih (s.step ch) (h.step ch) ho' hg (.inr ⟨_, _, rfl⟩)
            (by rw [hw]; exact List.getElem?_set_self (List.getElem?_eq_some_iff.1 hsb).1)
            (List.prefix_append q t) hok.2
            (by simp only [hr, Task.inFlight, List.length_cons, List.length_nil] at hk' ⊢; omega)
          rw [hw] at this
          simpa [hr, Task.inFlight] using this
      · -- sending: the message in flight is delivered
        have hstep : th.step s.world ch.thread true ch.clock = _ :=
          Thread.step_relaySend hr ch.clock
        rw [hstep] at hg
        have hw : (s.step ch).world = s.world.deliver th.ws ch.thread m := by
          rw [step_world_of_resumes hres, hok.1 rfl, hstep]
        have := ih (s.step ch) (h.step ch) ho' hg (.inl rfl) (by rw [hw]; exact hsb) hq hok.2
          (by simp only [hr, Task.inFlight, List.length_cons, List.length_nil] at hk' ⊢; omega)
        rw [hw] at this
        simpa [hr, Task.inFlight] using this
    · replace hk : 2 * q.length + th.task.inFlight.length ≤ cs.countP (Choice.advances tid) := by
        simpa [Choice.advances, he] using hk
      obtain ⟨sb', hsb', hq'⟩ := h.step_queue_prefix ho hth hrel he hsb
      have := ih (s.step ch) (h.step ch) ho' (step_getElem?_of_ne hth he) hl hsb' (hq.trans hq')
        hok.2 hk
      rwa [run_cons, ← step_sentBy_of_ne he]

end Sys


/-! ### What an observer receives -/

/-- A state of a deployment: one that a run reaches from a start on some store, with any
requests and observer connections. -/
def Sys.Reachable (s : Sys) : Prop :=
  ∃ store threads cs, (∀ th ∈ threads, th.Serving) ∧ Sys.run ⟨World.init store, threads⟩ cs = s

/-- **What an observer receives.** In any state of a deployment, take the relay of an
observer, waiting on its subscription, and run every coroutine of every process in any
interleaving, with any failures but of the relay's own sends. The subscription is one to
`agent_events`; since then, `agent_events` has carried `E₁` while the subscription stayed
active and `E₂` after it was unsubscribed; and the observer has received from its relay
what the subscription held followed by `E₁`, decoded and in order, less the message the
relay has in flight and those still queued. Nothing is lost, duplicated or reordered, and
no other coroutine takes the observer's events. -/
theorem observer_receives_events {s : Sys} (hs : s.Reachable) (cs : List Choice) {tid sub : ℕ}
    {th : Thread} (hth : s.threads[tid]? = some th) (hr : th.task = .relay sub)
    (hok : ∀ ch ∈ cs, ch.thread = tid → ch.ok = true) :
    ∃ sb sb' th' E₁ E₂, s.world.subs[sub]? = some sb ∧ sb.channel = agentEvents ∧
      (s.run cs).world.subs[sub]? = some sb' ∧ (s.run cs).threads[tid]? = some th' ∧
      (s.run cs).world.history agentEvents = s.world.history agentEvents ++ E₁ ++ E₂ ∧
      (sb'.active → E₂ = []) ∧
      s.world.sentBy tid th.ws ++ (sb.queue ++ E₁).map (fun p => (relayDecode p).1) =
        (s.run cs).world.sentBy tid th.ws ++ th'.task.inFlight ++
          sb'.queue.map (fun p => (relayDecode p).1) := by
  obtain ⟨store, threads, cs₀, hserve, rfl⟩ := hs
  obtain ⟨owner, hown⟩ := (Sys.owned_init store hserve).run cs₀
  have hrel : th.task.Relaying sub := by rw [hr]; rfl
  have ho : owner sub = some tid := by
    have h := hown.tasks tid th hth
    rwa [hr] at h
  obtain ⟨sb, hsb⟩ : ∃ sb, (Sys.run ⟨World.init store, threads⟩ cs₀).world.subs[sub]? = some sb :=
    ⟨_, List.getElem?_eq_getElem (hown.fresh _ _ ho)⟩
  have hch := (((Sys.inv_init store hserve).run cs₀).world.subs sb (List.getElem?_mem hsb)).1
  obtain ⟨sb', hsb', -, E₁, E₂, hh, ha, hq, -⟩ :=
    Sys.run_accounts _ cs (World.Accounts.start hsb)
  obtain ⟨th', h₁, -, -, h₄⟩ := Sys.run_relaying _ cs hth hrel hok
  rw [Sys.taken_eq_takenBy hown ho hth hrel, Sys.dropped_eq_nil hown ho hth hrel cs hok,
    List.nil_append, List.nil_append, List.append_nil] at hq
  have hin : th.task.inFlight = [] := by rw [hr]; rfl
  rw [hin, List.append_nil] at h₄
  refine ⟨sb, sb', th', E₁, E₂, hsb, hch, hsb', h₁, by rw [← hch]; exact hh, ha, ?_⟩
  rw [hq, List.map_append, ← List.append_assoc, h₄]

/-- The deployment of `crossDeployment` once its observer has connected and started its
relay, thread 2 (5 steps). -/
def crossConnected : Sys := Sys.run ⟨alphaWorld, crossDeployment⟩ (List.replicate 5 (stepOf 0))

/-- `pause a1` runs to its end (7 steps), and the relay forwards what the channel
delivered (2 steps). -/
def crossRest : List Choice := List.replicate 7 (stepOf 1) ++ List.replicate 2 (stepOf 2)

/-- Every coroutine of `crossDeployment` serves a request or an observer. -/
theorem crossDeployment_serving : ∀ th ∈ crossDeployment, th.Serving := by
  simp only [crossDeployment, List.mem_cons, List.mem_singleton, List.not_mem_nil, or_false]
  rintro th (rfl | rfl)
  exacts [.inr rfl, .inl ⟨.pause "a1", rfl⟩]

theorem observer_receives_events_cross :
    crossConnected.Reachable ∧ crossConnected.threads[2]? = some ⟨1, 7, .relay 0⟩ ∧
    (∀ ch ∈ crossRest, ch.thread = 2 → ch.ok = true) ∧
    ∃ sb sb' th' E₁ E₂, crossConnected.world.subs[0]? = some sb ∧ sb.channel = agentEvents ∧
      (crossConnected.run crossRest).world.subs[0]? = some sb' ∧
      (crossConnected.run crossRest).threads[2]? = some th' ∧
      (crossConnected.run crossRest).world.history agentEvents =
        crossConnected.world.history agentEvents ++ E₁ ++ E₂ ∧
      (sb'.active → E₂ = []) ∧
      crossConnected.world.sentBy 2 7 ++ (sb.queue ++ E₁).map (fun p => (relayDecode p).1) =
        (crossConnected.run crossRest).world.sentBy 2 7 ++ th'.task.inFlight ++
          sb'.queue.map (fun p => (relayDecode p).1) := by
  have hs : crossConnected.Reachable := ⟨_, crossDeployment, _, crossDeployment_serving, rfl⟩
  have hth : crossConnected.threads[2]? = some ⟨1, 7, .relay 0⟩ := rfl
  have hok : ∀ ch ∈ crossRest, ch.thread = 2 → ch.ok = true := by decide
  exact ⟨hs, hth, hok, observer_receives_events hs crossRest hth rfl hok⟩

/-- **No observer waits on another.** In any state of a deployment, take the relay of an
observer, waiting on its subscription, which holds `n` messages. Once the relay has been
scheduled `2 n` times with its sends succeeding, it has sent all `n` to its observer,
decoded and in order, whatever every other coroutine of every process does in between:
other observers that never read, failing store calls, broadcasts and publishes. -/
theorem relay_drains_backlog {s : Sys} (hs : s.Reachable) (cs : List Choice) {tid sub : ℕ}
    {th : Thread} {sb : Subscription} (hth : s.threads[tid]? = some th)
    (hr : th.task = .relay sub) (hsb : s.world.subs[sub]? = some sb)
    (hok : ∀ ch ∈ cs, ch.thread = tid → ch.ok = true)
    (hk : 2 * sb.queue.length ≤ cs.countP (Choice.advances tid)) :
    s.world.sentBy tid th.ws ++ sb.queue.map (fun p => (relayDecode p).1) <+:
      (s.run cs).world.sentBy tid th.ws := by
  obtain ⟨store, threads, cs₀, hserve, rfl⟩ := hs
  obtain ⟨owner, hown⟩ := (Sys.owned_init store hserve).run cs₀
  have ho : owner sub = some tid := by simpa [hr] using hown.tasks tid th hth
  have hin : th.task.inFlight = [] := by rw [hr]; rfl
  simpa [hin] using Sys.run_drains _ cs hown ho hth (.inl hr) hsb List.prefix_rfl hok
    (by rwa [hin, List.length_nil, Nat.add_zero])

/-- The deployment of `crossDeployment` once `pause a1` has run to its end: the observer's
relay, thread 2, has its `pause_requested` event queued. -/
def crossPaused : Sys :=
  Sys.run ⟨alphaWorld, crossDeployment⟩ (List.replicate 5 (stepOf 0) ++ List.replicate 7 (stepOf 1))

theorem relay_drains_backlog_paused :
    crossPaused.Reachable ∧ crossPaused.threads[2]? = some ⟨1, 7, .relay 0⟩ ∧
    crossPaused.world.subs[0]? =
      some ⟨agentEvents, [Bytes.dumps (agentEvent "pause_requested" "a1" [] 5)], true⟩ ∧
    (∀ ch ∈ List.replicate 2 (stepOf 2), ch.thread = 2 → ch.ok = true) ∧
    2 * [Bytes.dumps (agentEvent "pause_requested" "a1" [] 5)].length ≤
      (List.replicate 2 (stepOf 2)).countP (Choice.advances 2) ∧
    crossPaused.world.sentBy 2 7 ++
        [Bytes.dumps (agentEvent "pause_requested" "a1" [] 5)].map (fun p => (relayDecode p).1) <+:
      (crossPaused.run (List.replicate 2 (stepOf 2))).world.sentBy 2 7 := by
  have hs : crossPaused.Reachable := ⟨_, crossDeployment, _, crossDeployment_serving, rfl⟩
  have hth : crossPaused.threads[2]? = some ⟨1, 7, .relay 0⟩ := rfl
  have hsb : crossPaused.world.subs[0]? =
      some ⟨agentEvents, [Bytes.dumps (agentEvent "pause_requested" "a1" [] 5)], true⟩ := rfl
  have hok : ∀ ch ∈ List.replicate 2 (stepOf 2), ch.thread = 2 → ch.ok = true := by decide
  have hk : 2 * [Bytes.dumps (agentEvent "pause_requested" "a1" [] 5)].length ≤
      (List.replicate 2 (stepOf 2)).countP (Choice.advances 2) := by decide
  exact ⟨hs, hth, hsb, hok, hk, relay_drains_backlog hs _ hth rfl hsb hok hk⟩

end AgentControl
