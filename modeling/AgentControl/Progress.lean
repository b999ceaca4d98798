import AgentControl.Release

/-!
# Broadcasts and Relays End

Two loops of the controller wait on other coroutines: the loop of
`broadcast_websocket_message`, resumed after each send, and the loop of
`process_redis_messages`, which waits on its subscription. Each of them ends, under every
interleaving and every pattern of failures. The argument is a rank: every step of the
looping coroutine either ends the loop or lowers its rank, and no step of another
coroutine raises it (`Sys.exists_prefix_of_rank`).

The iterator of a broadcast expects a fixed number `len` of entries and, at each
resumption, returns one of them or raises; so the loop ends within `2 len + 2` of its own
steps, however the registry changes meanwhile. A subscription that has been unsubscribed
receives nothing more; so its relay ends within `3 n + 3` of its own steps, `n` the
messages still queued, by returning or by raising on a failed send.

## Main results

* `broadcast_ends`: **a broadcast loop always ends**, with its caller resumed with `None`
  or with a `RuntimeError`.
* `Sys.relay_ends`: a relay of an inactive subscription ends.
* `disconnect_stops_relays`: **once the handler of an observer has returned, every relay of
  its websocket ends.**
-/

namespace AgentControl

namespace Sys

/-- **Progress by a rank.** `P m s` says that `s` is in a phase of the thread `tid` of rank
at most `m`. A step that resumes `tid` (`Choice.advances`) leaves the phase for `Q` or lowers
the rank, and any other step leaves it for `Q` or keeps it. Then every run that resumes `tid`
more than `m` times passes through `Q`. -/
theorem exists_prefix_of_rank (P : ℕ → Sys → Prop) (Q : Sys → Prop) (tid : ℕ)
    (hown : ∀ m s ch, P m s → ch.advances tid = true →
      Q (s.step ch) ∨ ∃ m' < m, P m' (s.step ch))
    (hother : ∀ m s ch, P m s → ch.advances tid = false → Q (s.step ch) ∨ P m (s.step ch))
    {m : ℕ} {s : Sys} (hs : P m s) (cs : List Choice)
    (hk : m < cs.countP (Choice.advances tid)) :
    ∃ n ≤ cs.length, Q (s.run (cs.take n)) := by
  induction cs generalizing m s with
  | nil => cases hk
  | cons ch cs ih =>
    have hnext : ∀ {m'}, P m' (s.step ch) → m' < cs.countP (Choice.advances tid) →
        ∃ n ≤ (ch :: cs).length, Q (s.run ((ch :: cs).take n)) := fun hp hk' => by
      obtain ⟨n, hn, hq⟩ := ih hp hk'
      exact ⟨n + 1, Nat.succ_le_succ hn, hq⟩
    rw [List.countP_cons] at hk
    cases he : ch.advances tid
    · rcases hother m s ch hs he with hq | hp
      · exact ⟨1, Nat.succ_le_succ (Nat.zero_le _), hq⟩
      · exact hnext hp (by simpa [he] using hk)
    · rcases hown m s ch hs he with hq | ⟨m', hm', hp⟩
      · exact ⟨1, Nat.succ_le_succ (Nat.zero_le _), hq⟩
      · exact hnext hp (by simp only [he, if_true] at hk; omega)

/-- A choice that resumes `tid` names it and holds back no send. -/
theorem resumes_of_advances {s : Sys} {ch : Choice} {tid : ℕ} {th : Thread}
    (hth : s.threads[tid]? = some th) (ha : ch.advances tid = true) :
    ch.thread = tid ∧ s.Resumes ch th := by
  simp only [Choice.advances, Bool.and_eq_true, beq_iff_eq, Bool.not_eq_true'] at ha
  obtain ⟨rfl, hb⟩ := ha
  exact ⟨rfl, hth, by simp [hb]⟩

/-- A property that every step keeps holds after every run. -/
theorem run_of_stable {Q : Sys → Prop} (hQ : ∀ s ch, Q s → Q (s.step ch)) {s : Sys}
    (hs : Q s) (cs : List Choice) : Q (s.run cs) := by
  induction cs generalizing s with
  | nil => exact hs
  | cons ch cs ih => exact ih (hQ s ch hs)

end Sys

/-! ### Broadcasts -/

namespace Bcast

/-- The rank of a broadcast loop: two steps for each entry its iterator still expects, and
one for the send in flight. -/
def rank (b : Bcast) : ℕ := 2 * b.iter.len + b.pending.toList.length

theorem rank_le (b : Bcast) : b.rank ≤ 2 * b.iter.len + 1 := by
  unfold rank
  cases b.pending <;> simp

/-- An iterator raises only `RuntimeError`, and returns an entry only while it expects one. -/
theorem next_cases {r : Registry} {it : DictIter} :
    (∀ e, r.next it = .error e → ∃ msg, e = .runtimeError msg) ∧
    ∀ c it', r.next it = .ok (some (c, it')) → it'.len + 1 = it.len := by
  unfold Registry.next
  split
  · exact ⟨fun _ h => (by cases h; exact ⟨_, rfl⟩), fun _ _ h => by cases h⟩
  · split
    · exact ⟨fun _ h => (by cases h), fun _ _ h => by cases h⟩
    · split
      · exact ⟨fun _ h => (by cases h; exact ⟨_, rfl⟩), fun _ _ h => by cases h⟩
      · exact ⟨fun _ h => (by cases h), fun _ _ h => by cases h; dsimp only; omega⟩

theorem advance_raised {r : Registry} {b : Bcast} {e : PyErr} (h : advance r b = .raised e) :
    ∃ msg, e = .runtimeError msg := by
  unfold advance at h
  split at h
  · next e' he => cases h; exact next_cases.1 _ he
  · cases h
  · cases h

theorem rank_advance {r : Registry} {b b' : Bcast} (h : advance r b = .sending b') :
    b'.rank < b.rank := by
  unfold advance at h
  split at h
  · cases h
  · cases h
  · next clientId ws it hn =>
    cases h
    have := next_cases.2 _ _ hn
    simp only [rank, Option.toList_some, List.length_singleton]
    omega

theorem rank_sent {b : Bcast} {c : Client} (h : b.pending = some c) (ok : Bool) :
    (b.sent ok).rank < b.rank := by
  simp [rank, h]

end Bcast

/-- **What a step does to a broadcasting coroutine**: it continues the loop at a lower
rank, or resumes its caller with `None` or with a `RuntimeError`. -/
theorem Thread.step_bcast {w : World} {tid : ℕ} {th : Thread} {b : Bcast}
    {k : Except PyErr Unit → Prog Response} (hb : th.task = .bcast b k) (ok : Bool)
    (clock : ℕ) :
    (∃ b', (th.step w tid ok clock).2.1 = .bcast b' k ∧ b'.rank < b.rank) ∨
    ∃ x, (x = .ok () ∨ ∃ msg, x = .error (.runtimeError msg)) ∧
      (th.step w tid ok clock).2.1 = .run (k x) := by
  obtain ⟨proc, ws, task⟩ := th
  subst hb
  simp only [Thread.step]
  split
  · next hp => exact .inl ⟨_, rfl, Bcast.rank_sent hp ok⟩
  · rcases ha : Bcast.advance (w.registry proc) b with e | r | b'
    · obtain ⟨msg, rfl⟩ := Bcast.advance_raised ha
      exact .inr ⟨_, .inr ⟨msg, rfl⟩, rfl⟩
    · exact .inr ⟨_, .inl rfl, rfl⟩
    · exact .inl ⟨b', rfl, Bcast.rank_advance ha⟩

/-- **A broadcast loop always ends.** In any state, take a coroutine inside
`broadcast_websocket_message` whose iterator still expects `n` entries. Whatever every other
coroutine of every process does meanwhile, observers connecting and disconnecting included,
and whatever sends fail, a run that resumes it `2 n + 2` times passes through a state where
it has left the loop: its caller has been resumed with `None`, or with the `RuntimeError` of
an iterator that saw the registry change. -/
theorem broadcast_ends {s : Sys} {tid : ℕ} {th : Thread} {b : Bcast}
    {k : Except PyErr Unit → Prog Response} (hth : s.threads[tid]? = some th)
    (hb : th.task = .bcast b k) (cs : List Choice)
    (hk : 2 * b.iter.len + 2 ≤ cs.countP (Choice.advances tid)) :
    ∃ n ≤ cs.length, ∃ x, (x = .ok () ∨ ∃ msg, x = .error (.runtimeError msg)) ∧
      (s.run (cs.take n)).threads[tid]? = some { th with task := .run (k x) } := by
  have hrank : b.rank < cs.countP (Choice.advances tid) := by
    have := b.rank_le
    omega
  -- a step that resumes the loop ends it or lowers its rank
  have hprog : ∀ m (s' : Sys) ch b', s'.Resumes ch { th with task := .bcast b' k } →
      b'.rank ≤ m → ch.thread = tid →
      (∃ x, (x = .ok () ∨ ∃ msg, x = .error (.runtimeError msg)) ∧
        (s'.step ch).threads[tid]? = some { th with task := .run (k x) }) ∨
      ∃ m' < m, ∃ b'', (s'.step ch).threads[tid]? = some { th with task := .bcast b'' k } ∧
        b''.rank ≤ m' := by
    intro m s' ch b' hres hm he
    subst he
    rcases @Thread.step_bcast s'.world ch.thread { th with task := .bcast b' k } b' k rfl ch.ok
      ch.clock with ⟨b'', h1, h2⟩ | ⟨x, hx, h1⟩
    · exact .inr ⟨_, lt_of_lt_of_le h2 hm, b'', by rw [Sys.step_getElem?_self hres, h1], le_rfl⟩
    · exact .inl ⟨x, hx, by rw [Sys.step_getElem?_self hres, h1]⟩
  refine Sys.exists_prefix_of_rank
    (fun m s' => ∃ b', s'.threads[tid]? = some { th with task := .bcast b' k } ∧ b'.rank ≤ m)
    (fun s' => ∃ x, (x = .ok () ∨ ∃ msg, x = .error (.runtimeError msg)) ∧
      s'.threads[tid]? = some { th with task := .run (k x) })
    tid (fun m s' ch ⟨b', hs, hm⟩ ha => ?_) (fun m s' ch ⟨b', hs, hm⟩ ha => ?_)
    ⟨b, by rw [hth, ← hb], le_rfl⟩ cs hrank
  · obtain ⟨he, hres⟩ := Sys.resumes_of_advances hs ha
    exact hprog m s' ch b' hres hm he
  · by_cases he : ch.thread = tid
    · subst he
      rcases Sys.step_self_cases hs with ⟨-, hst, -⟩ | hres
      · exact .inr ⟨b', by rwa [hst], hm⟩
      · exact (hprog m s' ch b' hres hm rfl).imp_right
          fun ⟨_, hm', b'', h₁, h₂⟩ => ⟨b'', h₁, h₂.trans hm'.le⟩
    · exact .inr ⟨b', Sys.step_getElem?_of_ne hs he, hm⟩

/-! ### Relays of an inactive subscription -/

/-- The rank of a relay between two messages: the send in flight, and the error notice it
keeps in reserve. -/
def Task.relayRank : Task → ℕ
  | .relaySend _ _ (some _) => 2
  | .relaySend _ _ none => 1
  | _ => 0

theorem Task.relayRank_le (t : Task) : t.relayRank ≤ 2 := by
  unfold relayRank
  split <;> omega

/-- The thread `i`, once `th`, has ended as a relay ends: it has returned, or raised on a
failed send or a failed read. -/
def Sys.RelayEnded (i : ℕ) (th : Thread) (s : Sys) : Prop :=
  ∃ t, s.threads[i]? = some { th with task := t } ∧
    (t = .run (.pure .none) ∨ t = .run (.raise .connectionClosed) ∨
      t = .run (.raise .connectionError))

theorem Sys.RelayEnded.step {i : ℕ} {th : Thread} {s : Sys} (h : s.RelayEnded i th)
    (ch : Choice) : (s.step ch).RelayEnded i th := by
  obtain ⟨t, hs, ht⟩ := h
  by_cases he : ch.thread = i
  · subst he
    refine ⟨t, ?_, ht⟩
    rcases Sys.step_self_cases hs with ⟨-, hst, -⟩ | hres
    · rw [hst, hs]
    · rw [Sys.step_getElem?_self hres]
      rcases ht with rfl | rfl | rfl <;> rfl
  · exact ⟨t, Sys.step_getElem?_of_ne hs he, ht⟩

/-- **What a step does to a relay of an inactive subscription**: it ends the relay, which
returns or raises on a failed send or read, or it lowers three times what is queued plus the
rank, the subscription staying inactive. -/
theorem Thread.step_relay_inactive {w : World} {tid j : ℕ} {th : Thread} {sb : Subscription}
    (hr : th.task = .relay j ∨ ∃ m n, th.task = .relaySend j m n)
    (hs : w.subs[j]? = some sb) (ha : sb.active = false) (ok : Bool) (clock : ℕ) :
    ((th.step w tid ok clock).2.1 = .run (.pure .none) ∨
      (th.step w tid ok clock).2.1 = .run (.raise .connectionClosed) ∨
      (th.step w tid ok clock).2.1 = .run (.raise .connectionError)) ∨
    (((th.step w tid ok clock).2.1 = .relay j ∨
        ∃ m n, (th.step w tid ok clock).2.1 = .relaySend j m n) ∧
      ∃ sb', (th.step w tid ok clock).1.subs[j]? = some sb' ∧ sb'.active = false ∧
        3 * sb'.queue.length + (th.step w tid ok clock).2.1.relayRank <
          3 * sb.queue.length + th.task.relayRank) := by
  obtain ⟨proc, ws, task⟩ := th
  rcases hr with rfl | ⟨m, n, rfl⟩
  · cases ok
    · exact .inl (.inr (.inr rfl))
    simp only [Thread.step, hs, ↓reduceIte]
    split
    · next p rest hq =>
      refine .inr ⟨.inr ⟨_, _, rfl⟩, { sb with queue := rest },
        List.getElem?_set_self (List.getElem?_eq_some_iff.1 hs).1, ha, ?_⟩
      have := (Task.relaySend j (relayDecode p).1 (relayDecode p).2).relayRank_le
      simp only [hq, List.length_cons, Task.relayRank] at this ⊢
      omega
    · simp [ha]
  · simp only [Thread.step]
    cases ok
    · cases n with
      | none => exact .inl (.inr (.inl rfl))
      | some n => exact .inr ⟨.inr ⟨_, _, rfl⟩, sb, hs, ha, by simp [Task.relayRank]⟩
    · exact .inr ⟨.inl rfl, sb, hs, ha, by cases n <;> simp [Task.relayRank]⟩

/-- Whatever the step, an inactive subscription stays inactive, with no more queued. -/
theorem Sys.step_subs_inactive {s : Sys} (ch : Choice) {j : ℕ} {sb : Subscription}
    (hs : s.world.subs[j]? = some sb) (ha : sb.active = false) :
    ∃ sb', (s.step ch).world.subs[j]? = some sb' ∧ sb'.active = false ∧
      sb'.queue.length ≤ sb.queue.length := by
  rcases Sys.step_cases s ch with hst | ⟨th, hc⟩
  · rw [hst]
    exact ⟨sb, hs, ha, le_rfl⟩
  · rw [Sys.step_world_of_resumes hc]
    obtain ⟨sb', h₁, h₂⟩ := @Thread.step_subs s.world ch.thread th ch.ok ch.clock j sb hs
    exact ⟨sb', h₁, h₂ ha⟩

/-- The thread `i`, once `th`, is a relay between two messages of the subscription `j`,
which is inactive, with three times what is queued plus its rank at most `m`. -/
def Sys.RelayDraining (i : ℕ) (th : Thread) (j m : ℕ) (s : Sys) : Prop :=
  ∃ t sb, s.threads[i]? = some { th with task := t } ∧
    (t = .relay j ∨ ∃ m n, t = .relaySend j m n) ∧ s.world.subs[j]? = some sb ∧
    sb.active = false ∧ 3 * sb.queue.length + t.relayRank ≤ m

namespace Sys.RelayDraining

variable {i j m : ℕ} {th : Thread} {s : Sys}

theorem mono (h : s.RelayDraining i th j m) {m' : ℕ} (hm : m ≤ m') :
    s.RelayDraining i th j m' := by
  obtain ⟨t, sb, hs, hr, hsb, ha, hle⟩ := h
  exact ⟨t, sb, hs, hr, hsb, ha, hle.trans hm⟩

theorem step_own (h : s.RelayDraining i th j m) {ch : Choice} {t : Task}
    (hres : s.Resumes ch { th with task := t }) (he : ch.thread = i) :
    (s.step ch).RelayEnded i th ∨ ∃ m' < m, (s.step ch).RelayDraining i th j m' := by
  obtain ⟨t', sb, hs, hr, hsb, ha, hm⟩ := h
  subst he
  obtain rfl : t' = t := congrArg Thread.task (Option.some.inj (hs.symm.trans hres.1))
  have hself := Sys.step_getElem?_self hres
  rcases @Thread.step_relay_inactive s.world ch.thread j { th with task := t' } sb hr hsb ha
    ch.ok ch.clock with ht | ⟨ht, sb', h₁, h₂, h₃⟩
  · exact .inl ⟨_, hself, ht⟩
  · exact .inr ⟨_, lt_of_lt_of_le h₃ hm, _, sb', hself, ht,
      Sys.step_world_of_resumes hres ▸ h₁, h₂, le_rfl⟩

theorem step_other (h : s.RelayDraining i th j m) {ch : Choice} (he : ch.thread ≠ i) :
    (s.step ch).RelayDraining i th j m := by
  obtain ⟨t, sb, hs, hr, hsb, ha, hm⟩ := h
  obtain ⟨sb', h₁, h₂, h₃⟩ := Sys.step_subs_inactive ch hsb ha
  exact ⟨t, sb', Sys.step_getElem?_of_ne hs he, hr, h₁, h₂, by omega⟩

/-- Any step: the relay ends, or its rank does not grow, and lowers if the step resumes it. -/
theorem step_any (h : s.RelayDraining i th j m) (ch : Choice) :
    (s.step ch).RelayEnded i th ∨ (s.step ch).RelayDraining i th j m ∧
      (ch.advances i = true → ∃ m' < m, (s.step ch).RelayDraining i th j m') := by
  by_cases he : ch.thread = i
  · have ⟨t, _, hs, _⟩ := h
    subst he
    rcases Sys.step_self_cases hs with ⟨hb, hst, -⟩ | hres
    · exact .inr ⟨by rwa [hst], fun hadv =>
        nomatch hb.symm.trans (Sys.resumes_of_advances hs hadv).2.2⟩
    · rcases step_own h hres rfl with he' | ⟨m', hm', hd⟩
      · exact .inl he'
      · exact .inr ⟨hd.mono hm'.le, fun _ => ⟨m', hm', hd⟩⟩
  · refine .inr ⟨h.step_other he, fun hadv => ?_⟩
    simp [Choice.advances, he] at hadv

end Sys.RelayDraining

/-- **A relay of an inactive subscription ends.** In any state, take a relay whose
subscription has been unsubscribed, with `n` messages still queued. Whatever the other
coroutines do and whatever reads and sends fail, once it has been resumed `3 n + 3` times it
has ended: it has returned, or raised on a failed send or read. -/
theorem Sys.relay_ends {s : Sys} {i j : ℕ} {th : Thread} {sb : Subscription}
    (hth : s.threads[i]? = some th) (hr : th.task = .relay j ∨ ∃ m n, th.task = .relaySend j m n)
    (hs : s.world.subs[j]? = some sb) (ha : sb.active = false) (cs : List Choice)
    (hk : 3 * sb.queue.length + 3 ≤ cs.countP (Choice.advances i)) :
    (s.run cs).RelayEnded i th := by
  obtain ⟨n, -, hq⟩ := Sys.exists_prefix_of_rank (fun m => Sys.RelayDraining i th j m)
    (Sys.RelayEnded i th) i
    (fun _ _ ch h hadv => ((h.step_any ch).imp_right fun h' => h'.2 hadv))
    (fun _ _ ch h _ => (h.step_any ch).imp_right And.left)
    ⟨th.task, sb, by rw [hth], hr, hs, ha, le_rfl⟩ cs
    (by have := th.task.relayRank_le; omega)
  rw [← List.take_append_drop n cs, Sys.run_append]
  exact Sys.run_of_stable (fun _ ch h => h.step ch) hq _

/-- On `alphaWorld`, the observer on websocket 7 connects and is greeted (5 steps), and
`pause a1` runs up to the first send of its broadcast, in flight to that observer (7
steps). -/
def raceSending : Sys :=
  Sys.run ⟨alphaWorld, [observer 7, ⟨0, 0, .run (pauseAgent "a1")⟩, observer 8]⟩
    (List.replicate 5 (stepOf 0) ++ List.replicate 7 (stepOf 1))

/-- The second observer accepts and registers (2 steps); then the broadcast resumes
(2 steps). -/
def raceResume : List Choice := List.replicate 2 (stepOf 2) ++ List.replicate 2 (stepOf 1)

theorem broadcast_ends_registration :
    ∃ th b k, raceSending.threads[1]? = some th ∧ th.task = .bcast b k ∧
      2 * b.iter.len + 2 ≤ raceResume.countP (Choice.advances 1) ∧
      ∃ n ≤ raceResume.length, ∃ x, (x = .ok () ∨ ∃ msg, x = .error (.runtimeError msg)) ∧
        (raceSending.run (raceResume.take n)).threads[1]? = some { th with task := .run (k x) } :=
  ⟨_, _, _, rfl, rfl, by decide, broadcast_ends rfl rfl raceResume (by decide)⟩

/-! ### After a disconnect -/

/-- **No relay outlives its observer.** Start any number of server processes on any store,
with any requests and observer connections, and take the handler of one observer connection,
the only one of its websocket, once it has returned. Every relay of the websocket, with `n`
messages still queued on its subscription, has ended once it has been resumed `3 n + 3`
more times, under every interleaving and every pattern of failures: it has returned, or
raised on a failed send or on a failed read of its subscription. -/
theorem disconnect_stops_relays {store : Store} {threads : List Thread}
    (hserve : ∀ th ∈ threads, th.Serving) {tid proc ws : ℕ}
    (hh : threads[tid]? = some ⟨proc, ws, .run websocketAgentEvents⟩)
    (huniq : ∀ i th, threads[i]? = some th → th.task = .run websocketAgentEvents →
      th.ws = ws → i = tid)
    (cs₀ : List Choice) {r : Response}
    (hret : (Sys.run ⟨World.init store, threads⟩ cs₀).threads[tid]? =
      some ⟨proc, ws, .run (.pure r)⟩)
    {i j : ℕ} {th : Thread}
    (hth : (Sys.run ⟨World.init store, threads⟩ cs₀).threads[i]? = some th) (hws : th.ws = ws)
    (hr : th.task = .relay j ∨ ∃ m n, th.task = .relaySend j m n) {sb : Subscription}
    (hsb : (Sys.run ⟨World.init store, threads⟩ cs₀).world.subs[j]? = some sb)
    (cs : List Choice) (hk : 3 * sb.queue.length + 3 ≤ cs.countP (Choice.advances i)) :
    ∃ t, (Sys.run ⟨World.init store, threads⟩ (cs₀ ++ cs)).threads[i]? =
      some { th with task := t } ∧
      (t = .run (.pure .none) ∨ t = .run (.raise .connectionClosed) ∨
        t = .run (.raise .connectionError)) := by
  obtain ⟨st, h⟩ := (Sys.Releasing.init store hserve hh huniq).run cs₀
  obtain ⟨sb', hsb', ha⟩ := (h.released hret).2 i th j hth hws hr
  obtain rfl : sb' = sb := Option.some.inj (hsb'.symm.trans hsb)
  rw [Sys.run_append]
  exact Sys.relay_ends hth hr hsb ha cs hk

theorem disconnect_stops_relays_cross :
    crossDisconnected.threads[0]? = some ⟨1, 7, .run (.pure .none)⟩ ∧
    crossDisconnected.threads[2]? = some ⟨1, 7, .relay 0⟩ ∧
    crossDisconnected.world.subs[0]? =
      some ⟨agentEvents, [Bytes.dumps (agentEvent "pause_requested" "a1" [] 5)], false⟩ ∧
    ∃ t, (Sys.run ⟨alphaWorld, crossDeployment⟩
        (crossDisconnect ++ List.replicate 6 (stepOf 2))).threads[2]? =
      some { (⟨1, 7, .relay 0⟩ : Thread) with task := t } ∧
      (t = .run (.pure .none) ∨ t = .run (.raise .connectionClosed) ∨
        t = .run (.raise .connectionError)) := by
  have hret : crossDisconnected.threads[0]? = some ⟨1, 7, .run (.pure .none)⟩ := rfl
  have hth : crossDisconnected.threads[2]? = some ⟨1, 7, .relay 0⟩ := rfl
  have hsb : crossDisconnected.world.subs[0]? =
      some ⟨agentEvents, [Bytes.dumps (agentEvent "pause_requested" "a1" [] 5)], false⟩ := rfl
  exact ⟨hret, hth, hsb, disconnect_stops_relays crossDeployment_serving rfl
    crossDeployment_observer_unique crossDisconnect hret hth rfl (.inl rfl) hsb _ (by decide)⟩

end AgentControl
