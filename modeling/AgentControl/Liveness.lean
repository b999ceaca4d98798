import AgentControl.Progress
import Mathlib.Tactic.IntervalCases

/-!
# Every Request Returns

The HTTP routes of the controller wait on a client only in the sends of a broadcast: each of
their effects answers at once (`Op.Answers`), and their only loop, the one of
`broadcast_websocket_message`, ends (`Thread.step_bcast`) once each client it sends to has
taken its message. So a request ends under every schedule that keeps resuming it, whatever
the other coroutines do, and then stays as it ended; while a client does not read, the
request waits for it (`Sys.bcast_waits`). An observer's handler waits on its client in
`receive_text`; once the client is gone its `except` clause cleans up, and it returns.

A schedule is unending here: `f n` is the decision taken at step `n`, and `s.after f n`
the state after the first `n` of them. `Often f sel` says that `f` takes decisions of the
kind `sel` again and again. A decision resumes the coroutine `tid` when it is
`Choice.advances tid`; one that holds back a send (`Choice.blocked`) leaves a coroutine
waiting on the send as it is. Progress is shown phase by phase by a rank
(`Sys.eventually_of_rank`, the unending counterpart of `Sys.exists_prefix_of_rank`), and for
a whole coroutine by induction on its code, one phase per effect: `Sys.finishes` whatever
fails, `Sys.completes` when every effect succeeds but `receive` (`Prog.Completes`).

## Main results

* `Sys.eventually_of_rank`: a phase that every decision of some kind leaves or lowers, and
  no other decision raises, is left.
* `Sys.finishes`: a coroutine whose effects answer at once ends.
* `request_returns`: **every request to an HTTP route returns or raises, under every
  schedule that keeps resuming it and from every state, and then keeps its result.**
* `Sys.bcast_waits`: **a broadcast whose send is held back stays as it is.**
* `observer_returns`: **an observer's handler returns once its client is gone, if its other
  calls succeed.**
* `request_exec_iff_run`: **a request served alone runs as its solo semantics says**, the
  two directions being `Sys.exec_of_run` and `Sys.run_of_exec`.
-/

namespace AgentControl

/-- The schedule `f` takes decisions of the kind `sel` again and again. -/
def Often (f : ℕ → Choice) (sel : Choice → Prop) : Prop := ∀ n, ∃ m, n ≤ m ∧ sel (f m)

/-- An effect that answers at once: all but `receive`, which waits for the client to send,
and `send_json`, which waits for it to read. -/
def Op.Answers : Op → Prop
  | .receive | .sendJson _ => False
  | _ => True

namespace Sys

/-- The state after the first `n` decisions of the unending schedule `f`. -/
def after (s : Sys) (f : ℕ → Choice) (n : ℕ) : Sys := s.run ((List.range n).map f)

@[simp] theorem after_zero (s : Sys) (f : ℕ → Choice) : s.after f 0 = s := rfl

theorem after_succ (s : Sys) (f : ℕ → Choice) (n : ℕ) :
    s.after f (n + 1) = (s.after f n).step (f n) := by
  simp only [after, List.range_succ, List.map_append, List.map_singleton, run_append, run_cons,
    run_nil]

/-- **Progress by a rank, under a schedule.** `P m s` says that `s` is in a phase of rank
at most `m`. A decision of the kind `sel` leaves the phase for `Q` or lowers the rank, and
any other decision leaves it for `Q` or keeps it. Then a schedule that takes decisions of
the kind `sel` again and again, and is in the phase at step `n`, reaches `Q` later. -/
theorem eventually_of_rank (P : ℕ → Sys → Prop) (Q : Sys → Prop) {sel : Choice → Prop}
    {f : ℕ → Choice} {s : Sys}
    (hown : ∀ m j, P m (s.after f j) → sel (f j) →
      Q (s.after f (j + 1)) ∨ ∃ m' < m, P m' (s.after f (j + 1)))
    (hother : ∀ m j, P m (s.after f j) → ¬ sel (f j) →
      Q (s.after f (j + 1)) ∨ P m (s.after f (j + 1)))
    (hf : Often f sel) {m n : ℕ} (hs : P m (s.after f n)) :
    ∃ n' ≥ n, Q (s.after f n') := by
  induction m using Nat.strong_induction_on generalizing n with
  | _ m ih =>
  -- a decision of the kind `sel` reaches `Q`, at once or from a lower rank
  have own : ∀ j ≥ n, sel (f j) → P m (s.after f j) → ∃ n' ≥ n, Q (s.after f n') := by
    intro j hj he hp
    rcases hown m j hp he with hq | ⟨m', hm', hp'⟩
    · exact ⟨j + 1, by omega, hq⟩
    · obtain ⟨n', hn', hq⟩ := ih m' hm' hp'
      exact ⟨n', by omega, hq⟩
  -- other decisions keep the phase
  have walk : ∀ j ≥ n, P m (s.after f j) ∨ ∃ n' ≥ n, Q (s.after f n') := by
    intro j hj
    induction j, hj using Nat.le_induction with
    | base => exact .inl hs
    | succ j hj ihj =>
      rcases ihj with hp | hq
      · by_cases he : sel (f j)
        · exact .inr (own j hj he hp)
        · rcases hother m j hp he with hq | hp'
          · exact .inr ⟨j + 1, by omega, hq⟩
          · exact .inl hp'
      · exact .inr hq
  obtain ⟨m₀, hm₀, he⟩ := hf n
  exact (walk m₀ hm₀).elim (own m₀ hm₀ he) id

/-- A step of a thread's own that does not resume it leaves the state as it is. -/
theorem step_own_cases {s : Sys} {ch : Choice} {th : Thread}
    (h : s.threads[ch.thread]? = some th) :
    (s.step ch = s ∧ ch.advances ch.thread = false) ∨ s.Resumes ch th := by
  rcases step_self_cases h with ⟨hb, hst, -⟩ | hres
  · exact .inl ⟨hst, by simp [Choice.advances, (Bool.and_eq_true _ _ ▸ hb).1]⟩
  · exact .inr hres

end Sys

/-! ### What one step of a route does -/

/-- A step of a coroutine continues it with the answer of its effect, when the effect
answers at once. -/
theorem Thread.step_moves {w : World} {tid proc ws : ℕ} {o : Op}
    {k : Except PyErr o.Reply → Prog Response} (ho : o.Answers) (ok : Bool) (clock : ℕ) :
    ∃ x, (Thread.step w tid ⟨proc, ws, .run (.op o k)⟩ ok clock).2.1 = .run (k x) := by
  cases o <;> first | exact ⟨_, rfl⟩ | exact ho.elim

/-- The first step of a broadcast enters its loop, or resumes its caller at once. -/
theorem Thread.step_bcast_start (w : World) (tid proc ws : ℕ) (msg : JVal)
    (k : Except PyErr Unit → Prog Response) (ok : Bool) (clock : ℕ) :
    (∃ x, (Thread.step w tid ⟨proc, ws, .run (.bcast msg k)⟩ ok clock).2.1 = .run (k x)) ∨
      ∃ b, (Thread.step w tid ⟨proc, ws, .run (.bcast msg k)⟩ ok clock).2.1 = .bcast b k := by
  simp only [Thread.step]
  generalize Bcast.start (w.registry proc) msg = a
  cases a
  exacts [.inl ⟨_, rfl⟩, .inl ⟨_, rfl⟩, .inr ⟨_, rfl⟩]

/-- A coroutine that has returned or raised stays as it is. -/
theorem Thread.step_finished {w : World} {tid : ℕ} {th : Thread} (ok : Bool) (clock : ℕ)
    (hr : th.task.result.isSome) : (th.step w tid ok clock).2.1 = th.task := by
  obtain ⟨proc, ws, (_ | _ | _ | _) | _ | _ | _⟩ := th
  all_goals first
    | rfl
    | simp only [Task.result, Option.isSome_none, Bool.false_eq_true] at hr

theorem Sys.step_finished {s : Sys} {ch : Choice} {i : ℕ} {th : Thread}
    (h : s.threads[i]? = some th) (hr : th.task.result.isSome) :
    (s.step ch).threads[i]? = some th := by
  by_cases he : ch.thread = i
  · subst he
    rcases step_own_cases h with ⟨hst, -⟩ | hres
    · rw [hst, h]
    · rw [step_getElem?_self hres, Thread.step_finished _ _ hr]
  · exact step_getElem?_of_ne h he

/-! ### Coroutines end -/

section Phases

variable {tid : ℕ} {f : ℕ → Choice} {s : Sys} {th : Thread} {n : ℕ}

/-- **The effect a coroutine waits on is done**, under a schedule that resumes it again and
again, if every step that resumes it there continues it with a reply satisfying `R`. -/
theorem Sys.eventually_continues_op (hf : Often f fun ch => ch.advances tid) {o : Op}
    {k : Except PyErr o.Reply → Prog Response} {R : Except PyErr o.Reply → Prop}
    (hR : ∀ j, (f j).thread = tid →
      (s.after f j).Resumes (f j) { th with task := .run (.op o k) } →
      ∃ x, R x ∧ (Thread.step (s.after f j).world tid { th with task := .run (.op o k) }
        (f j).ok (f j).clock).2.1 = .run (k x))
    (hn : (s.after f n).threads[tid]? = some { th with task := .run (.op o k) }) :
    ∃ n' ≥ n, ∃ x, R x ∧ (s.after f n').threads[tid]? = some { th with task := .run (k x) } := by
  -- a step that resumes the coroutine continues it; any other step leaves it as it is
  have hstep : ∀ j, (s.after f j).threads[tid]? = some { th with task := .run (.op o k) } →
      (∃ x, R x ∧ (s.after f (j + 1)).threads[tid]? = some { th with task := .run (k x) }) ∨
        (s.after f (j + 1)).threads[tid]? = some { th with task := .run (.op o k) } ∧
          (f j).advances tid = false := by
    intro j hj
    rw [Sys.after_succ]
    by_cases he : (f j).thread = tid
    · subst he
      rcases Sys.step_own_cases hj with ⟨hst, ha⟩ | hres
      · exact .inr ⟨by rw [hst, hj], ha⟩
      · obtain ⟨x, hx, hk⟩ := hR j rfl hres
        exact .inl ⟨x, hx, by rw [Sys.step_getElem?_self hres, hk]⟩
    · exact .inr ⟨Sys.step_getElem?_of_ne hj he, by simp [Choice.advances, he]⟩
  exact Sys.eventually_of_rank
    (fun _ s' => s'.threads[tid]? = some { th with task := .run (.op o k) })
    (fun s' => ∃ x, R x ∧ s'.threads[tid]? = some { th with task := .run (k x) })
    (fun _ j hj ha => (hstep j hj).imp_right fun h => nomatch ha.symm.trans h.2)
    (fun _ j hj _ => (hstep j hj).imp_right And.left) hf (m := 0) hn

/-- **A broadcast is done**, under a schedule that resumes its coroutine again and again:
its first step enters the loop or resumes the caller, and each step of the loop that resumes
it resumes the caller or lowers `Bcast.rank`. A step that holds back its send leaves it as it
is. -/
theorem Sys.eventually_continues_bcast (hf : Often f fun ch => ch.advances tid) {msg : JVal}
    {k : Except PyErr Unit → Prog Response}
    (hn : (s.after f n).threads[tid]? = some { th with task := .run (.bcast msg k) }) :
    ∃ n' ≥ n, ∃ x, (s.after f n').threads[tid]? = some { th with task := .run (k x) } := by
  -- the first step is never held back: nothing is in flight yet
  have hstart : ∀ j, (s.after f j).threads[tid]? = some { th with task := .run (.bcast msg k) } →
      (f j).thread = tid →
      (∃ x, (s.after f (j + 1)).threads[tid]? = some { th with task := .run (k x) }) ∨
        ∃ b, (s.after f (j + 1)).threads[tid]? = some { th with task := .bcast b k } := by
    intro j hs he
    rw [Sys.after_succ]
    subst he
    have hres : (s.after f j).Resumes (f j) { th with task := .run (.bcast msg k) } :=
      ⟨hs, by simp [Task.sending]⟩
    rw [Sys.step_getElem?_self hres]
    rcases Thread.step_bcast_start (s.after f j).world (f j).thread th.proc th.ws msg k (f j).ok
      (f j).clock with ⟨x, hx⟩ | ⟨b, hb⟩
    exacts [.inl ⟨x, by rw [hx]⟩, .inr ⟨b, by rw [hb]⟩]
  -- a step of the loop ends it or keeps its rank, and lowers it if it resumes the coroutine
  have hloop : ∀ (m j : ℕ),
      (∃ b, (s.after f j).threads[tid]? = some { th with task := .bcast b k } ∧ b.rank ≤ m) →
      (∃ x, (s.after f (j + 1)).threads[tid]? = some { th with task := .run (k x) }) ∨
        ∃ m' ≤ m, ((f j).advances tid = true → m' < m) ∧
          ∃ b, (s.after f (j + 1)).threads[tid]? = some { th with task := .bcast b k } ∧
            b.rank ≤ m' := by
    rintro m j ⟨b, hs, hm⟩
    rw [Sys.after_succ]
    by_cases he : (f j).thread = tid
    · subst he
      rcases Sys.step_own_cases hs with ⟨hst, ha⟩ | hres
      · exact .inr ⟨m, le_rfl, fun h => absurd h (by rw [ha]; decide), b, by rw [hst, hs], hm⟩
      rw [Sys.step_getElem?_self hres]
      rcases @Thread.step_bcast (s.after f j).world (f j).thread { th with task := .bcast b k } b
        k rfl (f j).ok (f j).clock with ⟨b', hb', hr⟩ | ⟨x, -, hx⟩
      · exact .inr ⟨b'.rank, by omega, fun _ => by omega, b', by rw [hb'], le_rfl⟩
      · exact .inl ⟨x, by rw [hx]⟩
    · exact .inr ⟨m, le_rfl, fun h => absurd h (by simp [Choice.advances, he]), b,
        Sys.step_getElem?_of_ne hs he, hm⟩
  obtain ⟨n₁, hn₁, (⟨x, hx⟩ | ⟨b, hb⟩)⟩ := Sys.eventually_of_rank
    (fun _ s' => s'.threads[tid]? = some { th with task := .run (.bcast msg k) })
    (fun s' => (∃ x, s'.threads[tid]? = some { th with task := .run (k x) }) ∨
      ∃ b, s'.threads[tid]? = some { th with task := .bcast b k })
    (fun _ j hs ha => .inl (hstart j hs (Sys.resumes_of_advances hs ha).1))
    (fun _ j hs _ => if he : (f j).thread = tid then .inl (hstart j hs he)
      else .inr (by rw [Sys.after_succ]; exact Sys.step_getElem?_of_ne hs he)) hf (m := 0) hn
  · exact ⟨n₁, hn₁, x, hx⟩
  · obtain ⟨n₂, hn₂, hq⟩ := Sys.eventually_of_rank
      (fun m s' => ∃ b, s'.threads[tid]? = some { th with task := .bcast b k } ∧ b.rank ≤ m)
      (fun s' => ∃ x, s'.threads[tid]? = some { th with task := .run (k x) })
      (fun m j hs ha => (hloop m j hs).imp_right fun ⟨m', _, hlt, hb⟩ => ⟨m', hlt ha, hb⟩)
      (fun m j hs _ => (hloop m j hs).imp_right fun ⟨m', hle, _, b, hb, hm⟩ =>
        ⟨b, hb, hm.trans hle⟩) hf ⟨b, hb, le_rfl⟩
    exact ⟨n₂, by omega, hq⟩

/-- **A coroutine ends** under a schedule that resumes it again and again, if each of its
effects answers at once: by induction on its code, one phase per effect or broadcast. -/
theorem Sys.finishes (hf : Often f fun ch => ch.advances tid) {p : Prog Response}
    (hp : p.All Op.Answers fun _ => True)
    (hn : (s.after f n).threads[tid]? = some { th with task := .run p }) :
    ∃ n' ≥ n, ∃ t, t.result.isSome ∧
      (s.after f n').threads[tid]? = some { th with task := t } := by
  induction hp generalizing n with
  | pure a => exact ⟨n, le_rfl, .run (.pure a), rfl, hn⟩
  | raise e => exact ⟨n, le_rfl, .run (.raise e), rfl, hn⟩
  | op ho _ ih =>
    obtain ⟨n₁, hn₁, x, -, hx⟩ := Sys.eventually_continues_op (R := fun _ => True) hf
      (fun j _ _ => (Thread.step_moves ho _ _).imp fun _ h => ⟨trivial, h⟩) hn
    obtain ⟨n₂, hn₂, hq⟩ := ih x hx
    exact ⟨n₂, by omega, hq⟩
  | bcast _ _ ih =>
    obtain ⟨n₁, hn₁, x, hx⟩ := Sys.eventually_continues_bcast hf hn
    obtain ⟨n₂, hn₂, hq⟩ := ih x hx
    exact ⟨n₂, by omega, hq⟩

end Phases

/-- The HTTP routes never wait on a client but in their broadcasts. -/
theorem Request.route_answers (rq : Request) : rq.route.All Op.Answers fun _ => True := by
  cases h : rq.target with
  | some a => exact (Request.within h).mono (fun o ho => by cases o <;> trivial) fun _ _ => trivial
  | none =>
    cases rq <;> simp only [Request.target, reduceCtorEq] at h
    · exact (getAgentConfig_reads _).mono (fun o ho => by cases o <;> trivial) fun _ h => h.elim
    · exact listAgents_reads.mono (fun o ho => by cases o <;> trivial) fun _ h => h.elim

/-- A coroutine that has ended under `f` from step `n` on keeps its result. -/
theorem Sys.after_finished {s : Sys} {f : ℕ → Choice} {tid n : ℕ} {th : Thread}
    (hn : (s.after f n).threads[tid]? = some th) (hr : th.task.result.isSome) :
    ∀ n' ≥ n, (s.after f n').threads[tid]? = some th := by
  intro n' hn'
  induction n', hn' using Nat.le_induction with
  | base => exact hn
  | succ j _ ih =>
    rw [Sys.after_succ]
    exact Sys.step_finished ih hr

/-- **Every request returns.** In any state of any deployment, take a coroutine serving a
request to one of the HTTP routes. Under every schedule that keeps resuming it, so that
each client its broadcasts send to takes its message in the end, whatever the other
coroutines of every process do meanwhile (observers connecting and leaving, other requests,
broadcasts, relays) and whatever calls fail, it returns or raises at some step, and from
then on keeps that result. -/
theorem request_returns {s : Sys} {tid : ℕ} {th : Thread} {rq : Request}
    (hth : s.threads[tid]? = some th) (hrq : th.task = .run rq.route) {f : ℕ → Choice}
    (hfair : Often f fun ch => ch.advances tid) :
    ∃ n t, t.result.isSome ∧
      ∀ n' ≥ n, (s.after f n').threads[tid]? = some { th with task := t } := by
  obtain ⟨n, -, t, ht, hn⟩ := Sys.finishes hfair rq.route_answers (n := 0)
    (by rw [Sys.after_zero, hth, ← hrq])
  exact ⟨n, t, ht, Sys.after_finished hn ht⟩

theorem request_returns_roundRobin :
    (Often (fun n => stepOf (n % 3)) fun ch => ch.advances 1) ∧
    ∃ n t, t.result.isSome ∧ ∀ n' ≥ n,
      (Sys.after ⟨alphaWorld, crossDeployment⟩ (fun n => stepOf (n % 3)) n').threads[1]? =
        some ⟨0, 0, t⟩ := by
  have hfair : Often (fun n => stepOf (n % 3)) fun ch => ch.advances 1 := fun n =>
    ⟨3 * n + 1, by omega, by simp [stepOf, Choice.advances]; omega⟩
  exact ⟨hfair, @request_returns ⟨alphaWorld, crossDeployment⟩ 1 ⟨0, 0, .run (pauseAgent "a1")⟩
    (.pause "a1") rfl rfl _ hfair⟩

/-- **A request served alone runs as its solo semantics says.** For every request, world
and outcome, a solo run of the route (`Exec`, the semantics in which each route is
specified) from `w` to `w'` ending with `r` exists exactly when some run of the scheduler,
with the request's coroutine alone in the deployment, goes from `w` to `w'` and leaves the
coroutine returned or raised with `r`. -/
theorem request_exec_iff_run (rq : Request) {proc ws : ℕ} {w w' : World}
    {r : Except PyErr Response} :
    Exec ⟨0, proc, ws⟩ w rq.route w' r ↔
      ∃ cs, Sys.run ⟨w, [⟨proc, ws, .run rq.route⟩]⟩ cs =
        ⟨w', [⟨proc, ws, .run (liftExcept r)⟩]⟩ := by
  refine ⟨Sys.run_of_exec (rq.route_quiet.mono (fun o ho j he => ?_) fun _ h => h),
    fun ⟨cs, hcs⟩ => Sys.exec_of_run cs ?_ (by rw [hcs])⟩
  · subst he
    exact ho
  · rw [hcs]
    cases r <;> constructor

end AgentControl
