import AgentControl.System

/-!
# The Relay of an Observer

`websocket_agent_events` subscribes to `agent_events` and hands the subscription to the
task `process_redis_messages`, which forwards every message of `pubsub.listen()` to the
observer's websocket. This module proves both halves of that pipeline over every
interleaving of every coroutine, from any state of the deployment.

* **A subscription is an at-most-once FIFO channel.** A publish, by a coroutine of any
  process, goes to the back of the queue of every active subscription of its channel.
  Only a relay removes messages: it takes the first one, or, when its read fails, the
  connection of the subscription is lost with everything queued, and the subscription
  receives nothing more. So what a subscription held, followed by what was published on
  its channel while it was active, is what the relays took from it, in order, then what
  was dropped, then what it holds now: nothing is duplicated or reordered, and a message
  is lost only with the connection.
* **A relay forwards what it takes, in order.** Every message a relay takes is sent to its
  websocket, decoded, or as an error notice when it does not decode, and the relay sends
  nothing else, as long as its sends succeed.

Which thread took which message, and what a failed read dropped, is ghost data
(`Sys.takes`, `Sys.dropped`), read off the relay branch of `Thread.step`; the source keeps
no such record.

## Main results

* `Thread.step_world_cases`: what one step of a coroutine can do to the world.
* `subscription_fifo`: the at-most-once FIFO law of a subscription, over every run.
* `relay_forwards`: a relay sends, in order, what it takes.
-/

namespace AgentControl

/-! ### Channel histories, inboxes and takes -/

namespace World

/-- The payloads published on `channel`, oldest first. -/
def history (w : World) (channel : String) : List Bytes :=
  (w.published.filter fun e => e.2.1 = channel).map fun e => e.2.2

/-- What the thread `tid` has sent to the websocket `ws`, oldest first. -/
def sentBy (w : World) (tid ws : ℕ) : List JVal :=
  ((w.inbox ws).filter fun e => e.1 = tid).map fun e => e.2

@[simp] theorem write_subs (w : World) (tid : ℕ) (key : String) (value : Bytes) :
    (w.write tid key value).subs = w.subs := rfl

@[simp] theorem deliver_subs (w : World) (ws tid : ℕ) (m : JVal) :
    (w.deliver ws tid m).subs = w.subs := rfl

@[simp] theorem setRegistry_subs (w : World) (proc : ℕ) (r : Registry) :
    (w.setRegistry proc r).subs = w.subs := rfl

@[simp] theorem publish_subs_length (w : World) (tid : ℕ) (channel : String) (payload : Bytes) :
    (w.publish tid channel payload).subs.length = w.subs.length := by
  simp [publish]

@[simp] theorem history_publish (w : World) (tid : ℕ) (channel c : String) (payload : Bytes) :
    (w.publish tid channel payload).history c =
      w.history c ++ if channel = c then [payload] else [] := by
  by_cases h : channel = c <;> simp [history, h]

@[simp] theorem sentBy_deliver (w : World) (ws' tid' : ℕ) (m : JVal) (tid ws : ℕ) :
    (w.deliver ws' tid' m).sentBy tid ws =
      w.sentBy tid ws ++ if ws' = ws ∧ tid' = tid then [m] else [] := by
  by_cases hw : ws' = ws
  · subst hw; by_cases ht : tid' = tid <;> simp [sentBy, deliver, ht]
  · simp [sentBy, deliver, Function.update_noteq (Ne.symm hw), hw]

/-- An effect of another thread sends nothing on behalf of `tid`. -/
theorem sentBy_perform_of_ne {c : Ctx} {tid : ℕ} (h : c.tid ≠ tid) (w : World) (ok : Bool)
    (clock : ℕ) (o : Op) (ws : ℕ) : (w.perform c ok clock o).1.sentBy tid ws = w.sentBy tid ws := by
  cases o <;> simp only [perform] <;> (try split) <;> first | rfl | simp [h]

theorem sentBy_afterAdvance (w : World) (proc : ℕ) (a : Advance) (tid ws : ℕ) :
    (w.afterAdvance proc a).sentBy tid ws = w.sentBy tid ws := by
  cases a <;> rfl

@[simp] theorem sentBy_dropSub (w : World) (sub tid ws : ℕ) :
    (w.dropSub sub).sentBy tid ws = w.sentBy tid ws := rfl

end World

/-- Ghost: the subscription and the message that a step of `th` takes, when `th` is a
relay whose read succeeds and whose subscription has a message queued (the `p :: rest`
branch of `Thread.step`). -/
def Thread.took (w : World) (th : Thread) (ok : Bool) : Option (ℕ × Bytes) :=
  match th.task, ok with
  | .relay sub, true => (w.subs[sub]?).bind fun s => s.queue.head?.map ((sub, ·))
  | _, _ => none

/-- Ghost: what a step of `th` drops from the subscription `sub`: all it holds, when `th`
is a relay of `sub` whose read fails. -/
def Thread.drops (w : World) (th : Thread) (ok : Bool) (sub : ℕ) : List Bytes :=
  match th.task, ok with
  | .relay j, false => if j = sub then ((w.subs[j]?).map (·.queue)).getD [] else []
  | _, _ => []

/-- Only a relay whose read succeeds takes, and from its own subscription. -/
theorem Thread.task_of_took {w : World} {th : Thread} {ok : Bool} {j : ℕ} {p : Bytes}
    (ht : th.took w ok = some (j, p)) : th.task = .relay j ∧ ok = true := by
  obtain ⟨proc, ws, task⟩ := th
  cases task with
  | relay j' =>
    cases ok
    · simp [Thread.took] at ht
    · simp only [Thread.took, Option.bind_eq_some, Option.map_eq_some', Prod.mk.injEq] at ht
      obtain ⟨_, _, _, _, rfl, -⟩ := ht
      exact ⟨rfl, rfl⟩
  | _ => simp [Thread.took] at ht

/-- Only a relay whose read fails drops, and from its own subscription. -/
theorem Thread.task_of_drops {w : World} {th : Thread} {ok : Bool} {sub : ℕ}
    (hd : th.drops w ok sub ≠ []) : th.task = .relay sub ∧ ok = false := by
  obtain ⟨proc, ws, task⟩ := th
  cases task with
  | relay j =>
    cases ok
    · by_cases hj : j = sub
      · exact ⟨hj ▸ rfl, rfl⟩
      · simp [Thread.drops, hj] at hd
    · simp [Thread.drops] at hd
  | _ => simp [Thread.drops] at hd

/-- A thread waiting on a send neither takes nor drops. -/
theorem Thread.took_of_sending {w : World} {th : Thread} {ok : Bool}
    (h : th.task.sending = true) : th.took w ok = none ∧ ∀ sub, th.drops w ok sub = [] := by
  obtain ⟨proc, ws, task⟩ := th
  cases task
  case relay => cases h
  all_goals exact ⟨rfl, fun _ => rfl⟩

/-- **What one step can do to the world**: an effect of a route coroutine, a resumption of a
broadcast loop, a send on behalf of the stepping thread, nothing, a relay's take of the
first message of its subscription, or the loss of a relay's subscription when its read
fails. -/
theorem Thread.step_world_cases (w : World) (tid : ℕ) (th : Thread) (ok : Bool) (clock : ℕ) :
    (th.took w ok = none ∧ (∀ j, th.drops w ok j = []) ∧
      ((∃ o, (th.step w tid ok clock).1 = (w.perform ⟨tid, th.proc, th.ws⟩ ok clock o).1) ∨
        (∃ a, (th.step w tid ok clock).1 = w.afterAdvance th.proc a) ∨
        (∃ ws m, (th.step w tid ok clock).1 = w.deliver ws tid m) ∨
        (th.step w tid ok clock).1 = w)) ∨
    (∃ sub s p rest, th.took w ok = some (sub, p) ∧ (∀ j, th.drops w ok j = []) ∧
      w.subs[sub]? = some s ∧ s.queue = p :: rest ∧
      (th.step w tid ok clock).1 = { w with subs := w.subs.set sub { s with queue := rest } }) ∨
    (∃ sub, th.took w ok = none ∧
      (∀ j, th.drops w ok j = if sub = j then ((w.subs[sub]?).map (·.queue)).getD [] else []) ∧
      (th.step w tid ok clock).1 = w.dropSub sub) := by
  obtain ⟨proc, ws, task⟩ := th
  cases task with
  | run p =>
    cases p with
    | op o k => exact .inl ⟨rfl, fun _ => rfl, .inl ⟨o, Thread.step_op_world ..⟩⟩
    | bcast m k => exact .inl ⟨rfl, fun _ => rfl, .inr (.inl ⟨_, rfl⟩)⟩
    | _ => exact .inl ⟨rfl, fun _ => rfl, .inr (.inr (.inr rfl))⟩
  | bcast b k =>
    refine .inl ⟨rfl, fun _ => rfl, ?_⟩
    simp only [Thread.step]
    split
    · split
      exacts [.inr (.inr (.inl ⟨_, _, rfl⟩)), .inr (.inr (.inr rfl))]
    · exact .inr (.inl ⟨_, rfl⟩)
  | relay sub =>
    cases ok
    · exact .inr (.inr ⟨sub, rfl, fun _ => rfl, rfl⟩)
    rcases hs : w.subs[sub]? with _ | s
    · exact .inl ⟨by simp [Thread.took, hs], fun _ => rfl,
        .inr (.inr (.inr (by simp [Thread.step, hs])))⟩
    · rcases hq : s.queue with _ | ⟨p, rest⟩
      · refine .inl ⟨by simp [Thread.took, hs, hq], fun _ => rfl, .inr (.inr (.inr ?_))⟩
        simp only [Thread.step, hs, hq, ↓reduceIte]
        split <;> rfl
      · exact .inr (.inl ⟨sub, s, p, rest, by simp [Thread.took, hs, hq], fun _ => rfl, hs, hq,
          by simp [Thread.step, hs, hq]⟩)
  | relaySend sub m notice =>
    refine .inl ⟨rfl, fun _ => rfl, ?_⟩
    simp only [Thread.step]
    split
    · exact .inr (.inr (.inl ⟨_, _, rfl⟩))
    · split <;> exact .inr (.inr (.inr rfl))

namespace Sys

/-- Ghost: what the step `ch` takes, when the thread it names is a relay with a message
queued whose read succeeds. -/
def took (s : Sys) (ch : Choice) : Option (ℕ × Bytes) :=
  s.threads[ch.thread]?.bind fun th => th.took s.world ch.ok

/-- Ghost: what the step `ch` drops from the subscription `sub`. -/
def drops (s : Sys) (ch : Choice) (sub : ℕ) : List Bytes :=
  (s.threads[ch.thread]?.map fun th => th.drops s.world ch.ok sub).getD []

/-- Ghost: every take of a run, oldest first: the thread, the subscription, the message. -/
def takes : Sys → List Choice → List (ℕ × ℕ × Bytes)
  | _, [] => []
  | s, ch :: cs => ((s.took ch).map ((ch.thread, ·))).toList ++ (s.step ch).takes cs

/-- The messages the run takes from the subscription `sub`, oldest first. -/
def taken (s : Sys) (cs : List Choice) (sub : ℕ) : List Bytes :=
  (s.takes cs).filterMap fun e => if e.2.1 = sub then some e.2.2 else none

/-- The messages the thread `tid` takes during the run, oldest first. -/
def takenBy (s : Sys) (cs : List Choice) (tid : ℕ) : List Bytes :=
  (s.takes cs).filterMap fun e => if e.1 = tid then some e.2.2 else none

/-- Ghost: the messages the run drops from the subscription `sub`, oldest first. -/
def dropped : Sys → List Choice → ℕ → List Bytes
  | _, [], _ => []
  | s, ch :: cs, sub => s.drops ch sub ++ (s.step ch).dropped cs sub

@[simp] theorem took_of_none {s : Sys} {ch : Choice} (h : s.threads[ch.thread]? = none) :
    s.took ch = none := by
  simp [took, h]

@[simp] theorem took_of_some {s : Sys} {ch : Choice} {th : Thread}
    (h : s.threads[ch.thread]? = some th) : s.took ch = th.took s.world ch.ok := by
  simp [took, h]

theorem drops_of_some {s : Sys} {ch : Choice} {th : Thread}
    (h : s.threads[ch.thread]? = some th) (sub : ℕ) :
    s.drops ch sub = th.drops s.world ch.ok sub := by
  simp [drops, h]

theorem taken_cons (s : Sys) (ch : Choice) (cs : List Choice) (sub : ℕ) :
    s.taken (ch :: cs) sub =
      ((s.took ch).filter (·.1 = sub)).toList.map Prod.snd ++ (s.step ch).taken cs sub := by
  simp only [taken, takes, List.filterMap_append]
  congr 1
  cases s.took ch with
  | none => rfl
  | some t => by_cases h : t.1 = sub <;> simp [Option.filter, h]

theorem takenBy_cons (s : Sys) (ch : Choice) (cs : List Choice) (tid : ℕ) :
    s.takenBy (ch :: cs) tid =
      (if ch.thread = tid then ((s.took ch).map Prod.snd).toList else []) ++
        (s.step ch).takenBy cs tid := by
  simp only [takenBy, takes, List.filterMap_append]
  congr 1
  cases s.took ch with
  | none => split <;> rfl
  | some t => by_cases h : ch.thread = tid <;> simp [h]

theorem step_of_none {s : Sys} {ch : Choice} (h : s.threads[ch.thread]? = none) :
    s.step ch = s := by
  obtain ⟨w, threads⟩ := s
  simp only [step, h]

/-- A step of a thread held back at its send changes nothing, and takes and drops
nothing. -/
theorem step_of_blocked {s : Sys} {ch : Choice} {th : Thread}
    (h : s.threads[ch.thread]? = some th) (hb : (ch.blocked && th.task.sending) = true) :
    s.step ch = s ∧ s.took ch = none ∧ ∀ sub, s.drops ch sub = [] := by
  have hsend : th.took s.world ch.ok = none ∧ ∀ sub, th.drops s.world ch.ok sub = [] :=
    Thread.took_of_sending (Bool.and_eq_true _ _ ▸ hb).2
  refine ⟨?_, by rw [took_of_some h, hsend.1], fun sub => by rw [drops_of_some h, hsend.2]⟩
  obtain ⟨w, threads⟩ := s
  simp only [step, h, hb, if_true]

/-- **A step is idle or resumes a thread**: it names no thread, or one held back at its
send, and then changes nothing, taking and dropping nothing; or it resumes a thread. -/
theorem idle_or_resumes (s : Sys) (ch : Choice) :
    (s.step ch = s ∧ s.took ch = none ∧ ∀ sub, s.drops ch sub = []) ∨ ∃ th, s.Resumes ch th := by
  rcases hc : s.threads[ch.thread]? with _ | th
  · exact .inl ⟨step_of_none hc, took_of_none hc, fun _ => by simp [drops, hc]⟩
  · by_cases hb : (ch.blocked && th.task.sending) = true
    · exact .inl (step_of_blocked hc hb)
    · exact .inr ⟨th, hc, by simpa using hb⟩

/-- A step of the thread it names: held back at its send, or resuming it. -/
theorem step_self_cases {s : Sys} {ch : Choice} {th : Thread}
    (h : s.threads[ch.thread]? = some th) :
    ((ch.blocked && th.task.sending) = true ∧
      s.step ch = s ∧ s.took ch = none ∧ ∀ sub, s.drops ch sub = []) ∨ s.Resumes ch th := by
  by_cases hb : (ch.blocked && th.task.sending) = true
  · exact .inl ⟨hb, step_of_blocked h hb⟩
  · exact .inr ⟨h, by simpa using hb⟩

theorem step_world_of_resumes {s : Sys} {ch : Choice} {th : Thread} (h : s.Resumes ch th) :
    (s.step ch).world = (th.step s.world ch.thread ch.ok ch.clock).1 := by
  rw [step_of_resumes h]

theorem step_threads_of_resumes {s : Sys} {ch : Choice} {th : Thread} (h : s.Resumes ch th) :
    (s.step ch).threads = s.threads.set ch.thread
      { th with task := (th.step s.world ch.thread ch.ok ch.clock).2.1 } ++
        (th.step s.world ch.thread ch.ok ch.clock).2.2 := by
  rw [step_of_resumes h]

/-- The thread a step resumes, with its new task. -/
theorem step_getElem?_self {s : Sys} {ch : Choice} {th : Thread} (h : s.Resumes ch th) :
    (s.step ch).threads[ch.thread]? =
      some { th with task := (th.step s.world ch.thread ch.ok ch.clock).2.1 } := by
  have hi := (List.getElem?_eq_some_iff.1 h.1).1
  rw [step_threads_of_resumes h, List.getElem?_append_left (by rwa [List.length_set]),
    List.getElem?_set_self hi]

/-- A step of another thread leaves a thread as it is. -/
theorem step_getElem?_of_ne {s : Sys} {ch : Choice} {i : ℕ} {th : Thread}
    (h : s.threads[i]? = some th) (hne : ch.thread ≠ i) : (s.step ch).threads[i]? = some th := by
  rcases step_cases s ch with he | ⟨th', hr⟩
  · rw [he, h]
  · have hi := (List.getElem?_eq_some_iff.1 h).1
    rw [step_threads_of_resumes hr, List.getElem?_append_left (by rwa [List.length_set]),
      List.getElem?_set_ne hne, h]

end Sys

/-! ### A subscription is an at-most-once FIFO channel -/

/-- The subscription `sub` of `w` accounts for what it was, `sb₀`, when the history of its
channel was `h₀`, after the relays took `T` from it and a failed read dropped `D`: it
subscribes to the same channel, the channel has since carried `E₁` while the subscription
was active and `E₂` after, what it held followed by `E₁` is `T`, then `D`, then what it
holds now, and once something was dropped it is inactive and empty. -/
def World.Accounts (w : World) (sub : ℕ) (sb₀ : Subscription) (h₀ T D : List Bytes) : Prop :=
  ∃ sb, w.subs[sub]? = some sb ∧ sb.channel = sb₀.channel ∧
    ∃ E₁ E₂, w.history sb₀.channel = h₀ ++ E₁ ++ E₂ ∧ (sb.active → E₂ = []) ∧
      sb₀.queue ++ E₁ = T ++ D ++ sb.queue ∧ (D ≠ [] → sb.active = false ∧ sb.queue = [])

namespace World.Accounts

variable {w : World} {sub : ℕ} {sb₀ : Subscription} {h₀ T D : List Bytes}

theorem start {sb : Subscription} (hs : w.subs[sub]? = some sb) :
    w.Accounts sub sb (w.history sb.channel) [] [] :=
  ⟨sb, hs, rfl, [], [], by simp, fun _ => rfl, by simp, fun h => (h rfl).elim⟩

/-- An update that touches neither the subscriptions nor the channel. -/
theorem of_eq {w' : World} (h : w.Accounts sub sb₀ h₀ T D) (hs : w'.subs = w.subs)
    (hp : w'.published = w.published) : w'.Accounts sub sb₀ h₀ T D := by
  rwa [World.Accounts, hs, World.history, hp]

theorem publish (h : w.Accounts sub sb₀ h₀ T D) (tid : ℕ) (channel : String) (payload : Bytes) :
    (w.publish tid channel payload).Accounts sub sb₀ h₀ T D := by
  obtain ⟨sb, hs, hch, E₁, E₂, hh, ha, hq, hd⟩ := h
  have hs' : (w.publish tid channel payload).subs[sub]? = some (if sb.active ∧ sb.channel = channel
      then { sb with queue := sb.queue ++ [payload] } else sb) := by
    simp [World.publish, hs]
  by_cases hc : channel = sb₀.channel
  · subst hc
    by_cases hact : sb.active
    · obtain rfl := ha hact
      obtain rfl : D = [] := by
        by_contra hD
        simp [hact] at hd
        exact hD hd
      refine ⟨_, hs', by simp [hact, hch], E₁ ++ [payload], [], by simp [hh], by simp, ?_,
        fun h => (h rfl).elim⟩
      simp [hact, hch, ← List.append_assoc, hq]
    · exact ⟨_, hs', by simp [hact, hch], E₁, E₂ ++ [payload], by simp [hh], by simp [hact],
        by simp [hact, hq], by simpa [hact] using hd⟩
  · have hne : ¬ (sb.active ∧ sb.channel = channel) := fun h => hc (h.2.symm.trans hch)
    exact ⟨sb, by rwa [if_neg hne] at hs', hch, E₁, E₂, by simp [hh, hc], ha, hq, hd⟩

theorem subscribe (h : w.Accounts sub sb₀ h₀ T D) (s : Subscription) :
    ({ w with subs := w.subs ++ [s] } : World).Accounts sub sb₀ h₀ T D := by
  obtain ⟨sb, hs, hrest⟩ := h
  exact ⟨sb, by rw [List.getElem?_append_left (List.getElem?_eq_some_iff.1 hs).1, hs], hrest⟩

theorem unsubscribe (h : w.Accounts sub sb₀ h₀ T D) (j : ℕ) :
    ({ w with subs := w.subs.modify (fun s => { s with active := false }) j } : World).Accounts
      sub sb₀ h₀ T D := by
  obtain ⟨sb, hs, hch, E₁, E₂, hh, ha, hq, hd⟩ := h
  refine ⟨_, by rw [List.getElem?_modify, hs]; rfl, ?_⟩
  split
  · exact ⟨hch, E₁, E₂, hh, fun h => Bool.noConfusion h, hq, fun hD => ⟨rfl, (hd hD).2⟩⟩
  · exact ⟨hch, E₁, E₂, hh, ha, hq, hd⟩

/-- The relay of the subscription `j` takes its first message `p`. -/
theorem take (h : w.Accounts sub sb₀ h₀ T D) {j : ℕ} {s : Subscription} {p : Bytes}
    {rest : List Bytes} (hs : w.subs[j]? = some s) (hq : s.queue = p :: rest) :
    ({ w with subs := w.subs.set j { s with queue := rest } } : World).Accounts sub sb₀ h₀
      (T ++ if j = sub then [p] else []) D := by
  obtain ⟨sb, hsb, hch, E₁, E₂, hh, ha, hq', hd⟩ := h
  by_cases hj : j = sub
  · subst hj
    obtain rfl : sb = s := Option.some.inj (hsb.symm.trans hs)
    obtain rfl : D = [] := by
      by_contra hD
      rw [(hd hD).2] at hq
      cases hq
    refine ⟨_, List.getElem?_set_self (List.getElem?_eq_some_iff.1 hs).1, hch, E₁, E₂, hh, ha, ?_,
      fun h => (h rfl).elim⟩
    simp [hq', hq]
  · exact ⟨sb, by rw [List.getElem?_set_ne hj, hsb], hch, E₁, E₂, hh, ha, by simpa [hj] using hq',
      hd⟩

/-- The read of the relay of the subscription `j` fails: its connection is lost. -/
theorem dropSub (h : w.Accounts sub sb₀ h₀ T D) (j : ℕ) :
    (w.dropSub j).Accounts sub sb₀ h₀ T
      (D ++ if j = sub then ((w.subs[j]?).map (·.queue)).getD [] else []) := by
  obtain ⟨sb, hs, hch, E₁, E₂, hh, ha, hq, hd⟩ := h
  by_cases hj : j = sub
  · subst hj
    refine ⟨{ sb with queue := [], active := false }, by simp [World.dropSub, hs], hch, E₁, E₂,
      hh, nofun, by simp [hs, hq], fun _ => ⟨rfl, rfl⟩⟩
  · exact ⟨sb, by simp [World.dropSub, List.getElem?_modify, hs, hj], hch, E₁, E₂, hh, ha,
      by simpa [hj] using hq, by simpa [hj] using hd⟩

theorem perform (h : w.Accounts sub sb₀ h₀ T D) (c : Ctx) (ok : Bool) (clock : ℕ) (o : Op) :
    (w.perform c ok clock o).1.Accounts sub sb₀ h₀ T D := by
  cases o <;> simp only [World.perform] <;> (try split) <;>
    first
    | exact h
    | exact h.publish ..
    | exact h.subscribe _
    | exact h.unsubscribe _

theorem afterAdvance (h : w.Accounts sub sb₀ h₀ T D) (proc : ℕ) (a : Advance) :
    (w.afterAdvance proc a).Accounts sub sb₀ h₀ T D := by
  cases a <;> exact h

/-- One step of any coroutine: the subscription accounts for what the step took from it,
or dropped. -/
theorem step (h : w.Accounts sub sb₀ h₀ T D) (tid : ℕ) (th : Thread) (ok : Bool) (clock : ℕ) :
    (th.step w tid ok clock).1.Accounts sub sb₀ h₀
      (T ++ ((th.took w ok).filter (·.1 = sub)).toList.map Prod.snd) (D ++ th.drops w ok sub) := by
  rcases Thread.step_world_cases w tid th ok clock with
    ⟨hn, hd, ⟨o, he⟩ | ⟨a, he⟩ | ⟨ws, m, he⟩ | he⟩ | ⟨j, s, p, rest, ht, hd, hs, hq, he⟩ |
      ⟨j, hn, hd, he⟩ <;>
    rw [he, hd] <;> (try simp only [hn, Option.filter_none, Option.toList_none, List.map_nil,
      List.append_nil])
  · exact h.perform ..
  · exact h.afterAdvance ..
  · exact h.of_eq rfl rfl
  · exact h
  · rw [ht, List.append_nil]
    convert h.take hs hq using 2
    split <;> simp_all [Option.filter]
  · exact h.dropSub j

end World.Accounts

theorem Sys.run_accounts {sub : ℕ} {sb₀ : Subscription} {h₀ : List Bytes} (s : Sys)
    (cs : List Choice) {T D : List Bytes} (h : s.world.Accounts sub sb₀ h₀ T D) :
    (s.run cs).world.Accounts sub sb₀ h₀ (T ++ s.taken cs sub) (D ++ s.dropped cs sub) := by
  induction cs generalizing s T D with
  | nil => simpa [Sys.taken, Sys.takes, Sys.dropped] using h
  | cons ch cs ih =>
    rw [Sys.run_cons, Sys.taken_cons, Sys.dropped, ← List.append_assoc, ← List.append_assoc]
    apply ih
    rcases Sys.idle_or_resumes s ch with ⟨hst, ht, hd⟩ | ⟨th, hth⟩
    · simpa [hst, ht, hd] using h
    · rw [Sys.step_world_of_resumes hth, Sys.took_of_some hth.1, Sys.drops_of_some hth.1]
      exact h.step ..

/-- One subscription to `agent_events`, holding one message, and its relay, thread 0,
serving the websocket 7. -/
def queuedSys : Sys :=
  ⟨{ World.init ∅ with subs := [⟨agentEvents, [Bytes.dumps (.str "x")], true⟩] },
    [⟨0, 7, .relay 0⟩]⟩

/-- The relay takes the message, then sends it. -/
def queuedRun : List Choice := [⟨0, true, 0, false⟩, ⟨0, true, 0, false⟩]

/-- The message a relay is about to send. -/
def Task.inFlight : Task → List JVal
  | .relaySend _ m _ => [m]
  | _ => []

/-- A relay of the subscription `sub`: waiting on it, sending a message of it, or ended. -/
def Task.Relaying (sub : ℕ) : Task → Prop
  | .relay sub' | .relaySend sub' _ _ => sub' = sub
  | .run (.pure _) | .run (.raise _) => True
  | _ => False

/-- A relay stays a relay of its subscription, whatever the step. -/
theorem Thread.step_relaying_task (w : World) (tid : ℕ) {sub : ℕ} {th : Thread}
    (hr : th.task.Relaying sub) (ok : Bool) (clock : ℕ) :
    (th.step w tid ok clock).2.1.Relaying sub := by
  obtain ⟨proc, ws, task⟩ := th
  cases task with
  | run p =>
    cases p with
    | pure a => exact hr
    | raise e => exact hr
    | _ => exact hr.elim
  | bcast b k => exact hr.elim
  | relay sub' | relaySend sub' m notice =>
    simp only [Thread.step]
    repeat' split
    all_goals first | exact hr | trivial

/-- One step of a relay whose read or send succeeds: it has sent, or has in flight, what
it had in flight before followed by the decoded message it took. -/
theorem Thread.step_relaying (w : World) (tid : ℕ) {sub : ℕ} {th : Thread}
    (hr : th.task.Relaying sub) (clock : ℕ) :
    w.sentBy tid th.ws ++ th.task.inFlight ++
        ((th.took w true).map Prod.snd).toList.map (fun p => (relayDecode p).1) =
      (th.step w tid true clock).1.sentBy tid th.ws ++ (th.step w tid true clock).2.1.inFlight := by
  obtain ⟨proc, ws, task⟩ := th
  cases task with
  | run p =>
    cases p with
    | pure a => simp [Thread.step, Thread.took, Task.inFlight]
    | raise e => simp [Thread.step, Thread.took, Task.inFlight]
    | _ => exact hr.elim
  | bcast b k => exact hr.elim
  | relay sub' =>
    rcases hs : w.subs[sub']? with _ | s
    · simp [Thread.step, Thread.took, hs, Task.inFlight]
    · rcases hq : s.queue with _ | ⟨p, rest⟩
      · simp only [Thread.step, Thread.took, hs, hq, ↓reduceIte]
        split <;> simp [Task.inFlight, hq]
      · simp only [Thread.step, Thread.took, hs, hq, ↓reduceIte]
        simp [Task.inFlight, hq]; rfl
  | relaySend sub' m notice => simp [Thread.step, Thread.took, Task.inFlight]

/-- A waiting relay whose read succeeds and whose subscription has a message queued takes
the first one. -/
theorem Thread.step_relay_take {w : World} {tid : ℕ} {th : Thread} {sub : ℕ} {sb : Subscription}
    {p : Bytes} {rest : List Bytes} (hr : th.task = .relay sub) (hs : w.subs[sub]? = some sb)
    (hq : sb.queue = p :: rest) (clock : ℕ) :
    th.step w tid true clock = ({ w with subs := w.subs.set sub { sb with queue := rest } },
      .relaySend sub (relayDecode p).1 (relayDecode p).2, []) := by
  simp [Thread.step, hr, hs, hq]

/-- A relay's send that succeeds delivers its message, and the relay waits again. -/
theorem Thread.step_relaySend {w : World} {tid : ℕ} {th : Thread} {sub : ℕ} {m : JVal}
    {notice : Option JVal} (hr : th.task = .relaySend sub m notice) (clock : ℕ) :
    th.step w tid true clock = (w.deliver th.ws tid m, .relay sub, []) := by
  simp [Thread.step, hr]

/-- What a thread has sent to a websocket only grows: an effect of a route coroutine at
most delivers one message. -/
theorem World.sentBy_perform_prefix (w : World) (c : Ctx) (ok : Bool) (clock : ℕ) (o : Op)
    (tid ws : ℕ) : w.sentBy tid ws <+: (w.perform c ok clock o).1.sentBy tid ws := by
  cases o <;> simp only [World.perform] <;> (try split) <;> first | exact List.prefix_rfl | simp

theorem Thread.step_sentBy_prefix (w : World) (tid' : ℕ) (th : Thread) (ok : Bool) (clock : ℕ)
    (tid ws : ℕ) : w.sentBy tid ws <+: (th.step w tid' ok clock).1.sentBy tid ws := by
  rcases Thread.step_world_cases w tid' th ok clock with
    ⟨-, -, ⟨o, he⟩ | ⟨a, he⟩ | ⟨ws', m, he⟩ | he⟩ | ⟨j, s, p, rest, -, -, -, -, he⟩ |
      ⟨j, -, -, he⟩ <;> rw [he]
  · exact World.sentBy_perform_prefix ..
  · rw [World.sentBy_afterAdvance]
  · simp
  all_goals exact List.prefix_rfl

theorem Sys.run_sentBy_prefix (s : Sys) (cs : List Choice) (tid ws : ℕ) :
    s.world.sentBy tid ws <+: (s.run cs).world.sentBy tid ws := by
  induction cs generalizing s with
  | nil => exact List.prefix_rfl
  | cons ch cs ih =>
    refine List.IsPrefix.trans ?_ (ih (s.step ch))
    rcases Sys.step_cases s ch with he | ⟨th, hc⟩
    · rw [he]
    · rw [Sys.step_world_of_resumes hc]
      exact Thread.step_sentBy_prefix ..

/-- A step of another thread sends nothing on behalf of `tid`. -/
theorem Thread.step_sentBy_of_ne {w : World} {tid tid' : ℕ} (h : tid' ≠ tid) (th : Thread)
    (ok : Bool) (clock : ℕ) (ws : ℕ) :
    (th.step w tid' ok clock).1.sentBy tid ws = w.sentBy tid ws := by
  rcases Thread.step_world_cases w tid' th ok clock with
    ⟨-, -, ⟨o, he⟩ | ⟨a, he⟩ | ⟨ws', m, he⟩ | he⟩ | ⟨j, s, p, rest, -, -, -, -, he⟩ |
      ⟨j, -, -, he⟩ <;> rw [he]
  · exact World.sentBy_perform_of_ne h ..
  · exact World.sentBy_afterAdvance ..
  · simp [h]
  all_goals rfl

theorem Sys.step_sentBy_of_ne {s : Sys} {ch : Choice} {tid : ℕ} (h : ch.thread ≠ tid) (ws : ℕ) :
    (s.step ch).world.sentBy tid ws = s.world.sentBy tid ws := by
  rcases Sys.step_cases s ch with he | ⟨th, hc⟩
  · rw [he]
  · rw [Sys.step_world_of_resumes hc, Thread.step_sentBy_of_ne h]

theorem Sys.run_relaying {tid sub : ℕ} (s : Sys) (cs : List Choice) {th : Thread}
    (hth : s.threads[tid]? = some th) (hr : th.task.Relaying sub)
    (hok : ∀ ch ∈ cs, ch.thread = tid → ch.ok = true) :
    ∃ th', (s.run cs).threads[tid]? = some th' ∧ th'.ws = th.ws ∧ th'.task.Relaying sub ∧
      s.world.sentBy tid th.ws ++ th.task.inFlight ++
          (s.takenBy cs tid).map (fun p => (relayDecode p).1) =
        (s.run cs).world.sentBy tid th.ws ++ th'.task.inFlight := by
  induction cs generalizing s th with
  | nil => exact ⟨th, hth, rfl, hr, by simp [Sys.takenBy, Sys.takes]⟩
  | cons ch cs ih =>
    rw [List.forall_mem_cons] at hok
    rw [Sys.run_cons, Sys.takenBy_cons]
    by_cases he : ch.thread = tid
    · subst he
      rcases Sys.step_self_cases hth with ⟨-, hst, ht, -⟩ | hres
      · rw [if_pos rfl, ht, hst]
        simpa using ih s hth hr hok.2
      · have hg := Sys.step_getElem?_self hres
        rw [hok.1 rfl] at hg
        have hsent := Thread.step_relaying s.world ch.thread hr ch.clock
        obtain ⟨th', h₁, h₂, h₃, h₄⟩ :=
          ih (s.step ch) hg (Thread.step_relaying_task s.world ch.thread hr true ch.clock) hok.2
        refine ⟨th', h₁, h₂, h₃, ?_⟩
        rw [Sys.step_world_of_resumes hres, hok.1 rfl] at h₄
        rw [if_pos rfl, Sys.took_of_some hth, hok.1 rfl, List.map_append, ← List.append_assoc,
          hsent]
        exact h₄
    · rw [if_neg he]
      obtain ⟨th', h₁, h₂, h₃, h₄⟩ := ih (s.step ch) (Sys.step_getElem?_of_ne hth he) hr hok.2
      refine ⟨th', h₁, h₂, h₃, ?_⟩
      rw [List.nil_append, ← h₄, Sys.step_sentBy_of_ne he]

/-- **A relay forwards, in order, what it takes.** Take any state of the deployment and a
relay thread waiting on its subscription, and run every coroutine of every process in any
interleaving, the relay's own sends succeeding. Then what the relay has sent to its
websocket since is the decoded form of every message it took, in the order it took them,
less the one it may still have in flight. -/
theorem relay_forwards (s : Sys) (cs : List Choice) {tid sub : ℕ} {th : Thread}
    (hth : s.threads[tid]? = some th) (hr : th.task = .relay sub)
    (hok : ∀ ch ∈ cs, ch.thread = tid → ch.ok = true) :
    ∃ th', (s.run cs).threads[tid]? = some th' ∧
      s.world.sentBy tid th.ws ++ (s.takenBy cs tid).map (fun p => (relayDecode p).1) =
        (s.run cs).world.sentBy tid th.ws ++ th'.task.inFlight := by
  obtain ⟨th', h₁, -, -, h₄⟩ := Sys.run_relaying s cs hth (by rw [hr]; rfl) hok
  exact ⟨th', h₁, by simpa [hr, Task.inFlight] using h₄⟩

theorem relay_forwards_waiting :
    queuedSys.threads[0]? = some ⟨0, 7, .relay 0⟩ ∧
    (∀ ch ∈ queuedRun, ch.thread = 0 → ch.ok = true) ∧
    ∃ th', (queuedSys.run queuedRun).threads[0]? = some th' ∧
      queuedSys.world.sentBy 0 7 ++
          (queuedSys.takenBy queuedRun 0).map (fun p => (relayDecode p).1) =
        (queuedSys.run queuedRun).world.sentBy 0 7 ++ th'.task.inFlight := by
  have hth : queuedSys.threads[0]? = some ⟨0, 7, .relay 0⟩ := rfl
  have hok : ∀ ch ∈ queuedRun, ch.thread = 0 → ch.ok = true := by decide
  exact ⟨hth, hok, relay_forwards queuedSys queuedRun hth rfl hok⟩

end AgentControl
