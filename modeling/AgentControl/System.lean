import AgentControl.Controller
import AgentControl.World

/-!
# Interleaved Execution of All Coroutines

A `Sys` is the shared `World` together with every coroutine of every server process, as
a list of threads. A step runs one thread up to its next await: the scheduler picks the
thread, and says whether the call it makes succeeds, what the clock reads, and whether the
client of a websocket the thread is sending to has still not read (`Choice`). Any list of
choices is a run (`Sys.run`), so a statement over every list of choices is a statement over
every interleaving, every failure pattern of the store, the channel and the websockets,
every clock and every client, the client that never reads included.

A thread is in one of four states (`Task`):

* `run p`: a route coroutine whose next effect is the head of `p`; a leaf is finished.
* `bcast b k`: inside `broadcast_websocket_message`. When a send is in flight
  (`b.pending`), the step performs it; otherwise the step is the resumption of the loop,
  `Bcast.advance` on the current registry of the thread's process, which either starts the
  next send or leaves the loop and resumes `k`.
* `relay sub`: the task `process_redis_messages` waiting in `pubsub.listen()`; the step
  takes the next message of its subscription and decodes it. The read is outside the
  task's `try`: when it fails, the connection of the subscription is lost, with the
  messages the server had not yet delivered (`World.dropSub`), and the task ends with
  `ConnectionError`.
* `relaySend sub m notice`: the same task sending `m`; if that send raises, it sends
  `notice` (the error notice of its `except` clause) and dies if that raises too.

A websocket send (`Task.sending`) completes only when its client reads: a choice with
`blocked` set leaves a thread waiting on a send as it is. `asyncio.create_task` appends a
relay thread; the loop `while True: receive_text()` makes no progress until the scheduler
lets it raise `WebSocketDisconnect`. Threads are never removed, so a thread id is its index
in the list.
-/

namespace AgentControl

/-- What a thread is doing. -/
inductive Task where
  | run (p : Prog Response)
  | bcast (b : Bcast) (k : Except PyErr Unit → Prog Response)
  | relay (sub : ℕ)
  | relaySend (sub : ℕ) (message : JVal) (notice : Option JVal)

/-- A coroutine of a server process; `ws` is the websocket it serves, if any. -/
structure Thread where
  proc : ℕ
  ws : ℕ
  task : Task

/-- The whole deployment: the shared world and every coroutine. -/
structure Sys where
  world : World
  threads : List Thread

/-- What a finished route thread returned or raised. -/
def Task.result : Task → Option (Except PyErr Response)
  | .run (.pure r) => some (.ok r)
  | .run (.raise e) => some (.error e)
  | _ => none

/-- One decision of the scheduler and the environment. -/
structure Choice where
  thread : ℕ
  /-- Whether the call the thread makes succeeds. -/
  ok : Bool
  /-- What the clock reads. -/
  clock : ℕ
  /-- Whether the client of the websocket the thread is sending to has still not read. -/
  blocked : Bool
  deriving DecidableEq, Repr

/-- The choice resumes the thread `tid`, whatever it waits on: it names `tid` and holds
back no send. -/
def Choice.advances (tid : ℕ) (ch : Choice) : Bool := ch.thread == tid && !ch.blocked

/-- The thread waits on a websocket send: its greeting, a send of its broadcast loop, or a
send of its relay. -/
def Task.sending : Task → Bool
  | .run (.op (.sendJson _) _) => true
  | .bcast b _ => b.pending.isSome
  | .relaySend .. => true
  | _ => false

/-- `str(e)`, as the relay's error notice shows it. -/
def PyErr.text : PyErr → String
  | .httpException code detail => toString code ++ ": " ++ detail
  | .connectionError => "Connection closed by server."
  | .jsonDecodeError => "Expecting value: line 1 column 1 (char 0)"
  | .unicodeDecodeError => "'utf-8' codec can't decode byte"
  | .valueError => "invalid literal for int() with base 10"
  | .typeError => "unsupported operand type"
  | .keyError k => "'" ++ k ++ "'"
  | .attributeError => "object has no attribute 'get'"
  | .runtimeError msg => msg
  | .validationError => "validation error for AgentPanelState"
  | .webSocketDisconnect => ""
  | .connectionClosed => "Cannot call \"send\" once a close message has been sent."

/-- `{"type": "error", "message": str(e)}`, sent by the relay when a message fails. -/
def errorNotice (e : PyErr) : JVal := .obj [("type", .str "error"), ("message", .str e.text)]

/-- The task of a broadcasting thread after a resumption of the loop. -/
def resumeBcast (k : Except PyErr Unit → Prog Response) : Advance → Task
  | .raised e => .run (k (.error e))
  | .finished _ => .run (k (.ok ()))
  | .sending b => .bcast b k

/-- The world after a resumption of the loop: the pruned registry once it finished. -/
def World.afterAdvance (w : World) (proc : ℕ) : Advance → World
  | .finished r => w.setRegistry proc r
  | _ => w

/-- One effect of a route coroutine: the new world, the new task, spawned threads. -/
def stepOp (w : World) (c : Ctx) (ok : Bool) (clock : ℕ) :
    (o : Op) → (Except PyErr o.Reply → Prog Response) → World × Task × List Thread
  | .receive, k =>
      if ok then (w, .run (.op .receive k), []) else (w, .run (k (.error .webSocketDisconnect)), [])
  | .spawnRelay sub, k => (w, .run (k (.ok ())), [⟨c.proc, c.ws, .relay sub⟩])
  | o, k => match w.perform c ok clock o with
    | (w', reply) => (w', .run (k reply), [])

/-- The message the relay takes from its subscription, decoded: what it sends, and what
it sends instead if that send raises. -/
def relayDecode (payload : Bytes) : JVal × Option JVal :=
  match payload.loads with
  | .ok m => (m, some (errorNotice .connectionClosed))
  | .error e => (errorNotice e, none)

/-- One step of the thread `tid`. -/
def Thread.step (w : World) (tid : ℕ) (th : Thread) (ok : Bool) (clock : ℕ) :
    World × Task × List Thread :=
  match th.task with
  | .run (.op o k) => stepOp w ⟨tid, th.proc, th.ws⟩ ok clock o k
  | .run (.bcast m k) =>
      match Bcast.start (w.registry th.proc) m with
      | a => (w.afterAdvance th.proc a, resumeBcast k a, [])
  | .run _ => (w, th.task, [])
  | .bcast b k =>
      match b.pending with
      | some (_, ws) => (if ok then w.deliver ws tid b.message else w, .bcast (b.sent ok) k, [])
      | none =>
          match Bcast.advance (w.registry th.proc) b with
          | a => (w.afterAdvance th.proc a, resumeBcast k a, [])
  | .relay sub =>
      if ok then
        match w.subs[sub]? with
        | some s =>
            match s.queue with
            | p :: rest =>
                ({ w with subs := w.subs.set sub { s with queue := rest } },
                  .relaySend sub (relayDecode p).1 (relayDecode p).2, [])
            | [] => if s.active then (w, th.task, []) else (w, .run (.pure Response.none), [])
        | none => (w, .run (.pure Response.none), [])
      else (w.dropSub sub, .run (.raise .connectionError), [])
  | .relaySend sub m notice =>
      if ok then (w.deliver th.ws tid m, .relay sub, [])
      else match notice with
        | some n => (w, .relaySend sub n none, [])
        | none => (w, .run (.raise .connectionClosed), [])

/-- Whatever the effect, the world after a step of a route coroutine is the world the
effect leaves. -/
@[simp] theorem Thread.step_op_world (w : World) (tid : ℕ) (proc ws : ℕ) (o : Op)
    (k : Except PyErr o.Reply → Prog Response) (ok : Bool) (clock : ℕ) :
    (Thread.step w tid ⟨proc, ws, .run (.op o k)⟩ ok clock).1 =
      (w.perform ⟨tid, proc, ws⟩ ok clock o).1 := by
  cases o <;> first | rfl | (simp only [Thread.step, stepOp]; split <;> rfl)

/-- A step of a route coroutine continues it with the effect's answer, or, for a
`receive` that has not raised, leaves it waiting. -/
theorem Thread.step_op_task (w : World) (tid : ℕ) (proc ws : ℕ) (o : Op)
    (k : Except PyErr o.Reply → Prog Response) (ok : Bool) (clock : ℕ) :
    (∃ x, (Thread.step w tid ⟨proc, ws, .run (.op o k)⟩ ok clock).2.1 = .run (k x)) ∨
      (Thread.step w tid ⟨proc, ws, .run (.op o k)⟩ ok clock).2.1 = .run (.op o k) := by
  cases o
  case receive => simp only [Thread.step, stepOp]; split; exacts [.inr rfl, .inl ⟨_, rfl⟩]
  all_goals exact .inl ⟨_, rfl⟩

/-- A relay whose read fails drops the connection of its subscription and ends. -/
@[simp] theorem Thread.step_relay_fail (w : World) (tid proc ws sub clock : ℕ) :
    Thread.step w tid ⟨proc, ws, .relay sub⟩ false clock =
      (w.dropSub sub, .run (.raise .connectionError), []) := rfl

/-- A step spawns nothing but, on `create_task`, a relay of the same process serving the
same websocket. -/
theorem Thread.step_spawned (w : World) (tid : ℕ) (th : Thread) (ok : Bool) (clock : ℕ) :
    (th.step w tid ok clock).2.2 = [] ∨
      ∃ sub, (th.step w tid ok clock).2.2 = [⟨th.proc, th.ws, .relay sub⟩] := by
  obtain ⟨proc, ws, task⟩ := th
  cases task with
  | run p =>
    cases p with
    | op o k =>
      cases o
      case spawnRelay sub => exact .inr ⟨sub, rfl⟩
      case receive => simp only [Thread.step, stepOp]; split <;> exact .inl rfl
      all_goals exact .inl rfl
    | _ => exact .inl rfl
  | _ => simp only [Thread.step]; repeat' split
         all_goals exact .inl rfl

namespace Sys

/-- One step of the deployment. A choice naming no thread changes nothing, and neither
does one that holds back the send its thread waits on. -/
def step : Sys → Choice → Sys
  | ⟨w, threads⟩, ch =>
    match threads[ch.thread]? with
    | none => ⟨w, threads⟩
    | some th =>
        if ch.blocked && th.task.sending then ⟨w, threads⟩ else
        match Thread.step w ch.thread th ch.ok ch.clock with
        | (w', task, spawned) => ⟨w', threads.set ch.thread { th with task := task } ++ spawned⟩

/-- The choice `ch` resumes the thread `th`: it names `th`, and does not hold back a send
`th` waits on. -/
def Resumes (s : Sys) (ch : Choice) (th : Thread) : Prop :=
  s.threads[ch.thread]? = some th ∧ (ch.blocked && th.task.sending) = false

/-- A step changes nothing, or resumes a thread. -/
theorem step_cases (s : Sys) (ch : Choice) : s.step ch = s ∨ ∃ th, s.Resumes ch th := by
  obtain ⟨w, threads⟩ := s
  rcases h : threads[ch.thread]? with _ | th
  · exact .inl (by simp only [step, h])
  · by_cases hb : (ch.blocked && th.task.sending) = true
    · exact .inl (by simp only [step, h, hb, if_true])
    · exact .inr ⟨th, h, by simpa using hb⟩

/-- A step of the thread `th`: the world it leaves, and `th` with its new task, followed by
what it spawned. -/
theorem step_of_resumes {s : Sys} {ch : Choice} {th : Thread} (h : s.Resumes ch th) :
    s.step ch = ⟨(th.step s.world ch.thread ch.ok ch.clock).1,
      s.threads.set ch.thread { th with task := (th.step s.world ch.thread ch.ok ch.clock).2.1 } ++
        (th.step s.world ch.thread ch.ok ch.clock).2.2⟩ := by
  obtain ⟨w, threads⟩ := s
  simp only [step, h.1, h.2, Bool.false_eq_true, if_false]

/-- A run: the choices taken in order. -/
def run (s : Sys) (cs : List Choice) : Sys := cs.foldl step s

@[simp] theorem run_nil (s : Sys) : s.run [] = s := rfl

@[simp] theorem run_cons (s : Sys) (c : Choice) (cs : List Choice) :
    s.run (c :: cs) = (s.step c).run cs := rfl

end Sys

end AgentControl
