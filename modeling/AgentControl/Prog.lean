import AgentControl.Json

/-!
# Coroutines as Effect Trees

Every route of the controller is an `async` coroutine that alternates pure Python with
calls on the store, the channel, a websocket or the process-wide registry of observers.
`Prog α` is such a coroutine as a tree: a leaf returns or raises, an inner node names one
effect `Op` and continues with whatever the effect answers, success or exception. The
coroutines are then written in `do` notation, line for line with the source, and the
schedulers of `AgentControl.System` and `AgentControl.Exec` give them a meaning.

An `Op` is one `await` of the source, or one synchronous access to the shared registry:
these are the points at which another coroutine can run. The node `Prog.bcast` stands for
the whole of `broadcast_websocket_message`, whose loop over the live registry is a small
machine of its own (`AgentControl.Registry`), with an await at every send. `Op.receive` is the loop
`while True: await websocket.receive_text()`, which ends only by raising.

`tryCatch` is Python's `try`/`except`: the handler is pushed into every continuation, so
an exception raised by any effect under the `try` reaches it.
-/

namespace AgentControl

/-- One effect of a coroutine. -/
inductive Op where
  /-- `await r.get(key)`. -/
  | get (key : String)
  /-- `await r.exists(key)`. -/
  | existsKey (key : String)
  /-- `await r.keys(pattern)`. -/
  | keys (pattern : String)
  /-- `await r.set(key, value)`. -/
  | set (key : String) (value : Bytes)
  /-- `await r.publish(channel, payload)`. -/
  | publish (channel : String) (payload : Bytes)
  /-- `int(datetime.now().timestamp() * 1000)`. -/
  | now
  /-- `await websocket.accept()`. -/
  | accept
  /-- `client_id = str(uuid.uuid4()); active_connections[client_id] = websocket`. -/
  | register
  /-- `await pubsub.subscribe(channel)`, on a fresh `pubsub` object. -/
  | subscribe (channel : String)
  /-- `await websocket.send_json(message)` on the coroutine's own websocket. -/
  | sendJson (message : JVal)
  /-- `asyncio.create_task(process_redis_messages())` for the subscription `sub`. -/
  | spawnRelay (sub : ℕ)
  /-- `while True: await websocket.receive_text()`. -/
  | receive
  /-- `active_connections.pop(client_id, None)`. -/
  | unregister (clientId : ℕ)
  /-- `await pubsub.unsubscribe(channel)` on the subscription `sub`. -/
  | unsubscribe (sub : ℕ)
  /-- `await redis_client.close()`. -/
  | close

/-- What an effect answers when it does not raise. -/
def Op.Reply : Op → Type
  | .get _ => Option Bytes
  | .existsKey _ => Bool
  | .keys _ => List String
  | .now => ℕ
  | .register => ℕ
  | .subscribe _ => ℕ
  | .receive => Empty
  | .set _ _ | .publish _ _ | .accept | .sendJson _ | .spawnRelay _ | .unregister _
  | .unsubscribe _ | .close => Unit

/-- A coroutine returning `α`, as the tree of its effects. -/
inductive Prog (α : Type) where
  | pure (a : α)
  | raise (e : PyErr)
  | op (o : Op) (k : Except PyErr o.Reply → Prog α)
  /-- `await broadcast_websocket_message(message)`, then `k`. -/
  | bcast (message : JVal) (k : Except PyErr Unit → Prog α)

namespace Prog

/-- Sequencing: run `p`, then `f` on its result; an exception skips `f`. -/
def bind {α β : Type} : Prog α → (α → Prog β) → Prog β
  | .pure a, f => f a
  | .raise e, _ => .raise e
  | .op o k, f => .op o fun r => (k r).bind f
  | .bcast m k, f => .bcast m fun r => (k r).bind f

/-- `try p except e: h(e)`. -/
def tryCatch {α : Type} : Prog α → (PyErr → Prog α) → Prog α
  | .pure a, _ => .pure a
  | .raise e, h => h e
  | .op o k, h => .op o fun r => (k r).tryCatch h
  | .bcast m k, h => .bcast m fun r => (k r).tryCatch h

instance : Monad Prog where
  pure := .pure
  bind := bind

instance : MonadExceptOf PyErr Prog where
  throw := .raise
  tryCatch := tryCatch

/-- Continue with `f` on a value; raise an exception in the coroutine. -/
def orRaise {α β : Type} (f : α → Prog β) : Except PyErr α → Prog β
  | .ok a => f a
  | .error e => .raise e

/-- Perform one effect; its exception, if any, is raised in the coroutine. -/
def call (o : Op) : Prog o.Reply := .op o (orRaise .pure)

/-- `await r.get(key)`. -/
def redisGet (key : String) : Prog (Option Bytes) := call (.get key)

/-- `await r.exists(key)`. -/
def redisExists (key : String) : Prog Bool := call (.existsKey key)

/-- `await r.keys(pattern)`. -/
def redisKeys (pattern : String) : Prog (List String) := call (.keys pattern)

/-- `await r.set(key, value)`. -/
def redisSet (key : String) (value : Bytes) : Prog Unit := call (.set key value)

/-- `await r.publish(channel, payload)`. -/
def redisPublish (channel : String) (payload : Bytes) : Prog Unit :=
  call (.publish channel payload)

/-- The clock, in milliseconds. -/
def now : Prog ℕ := call .now

/-- `await broadcast_websocket_message(message)`. -/
def broadcast (message : JVal) : Prog Unit := .bcast message (orRaise .pure)

/-- Run a pure Python computation that may raise. -/
def liftExcept {α : Type} : Except PyErr α → Prog α := orRaise .pure

@[simp] theorem pure_def {α : Type} (a : α) : (Pure.pure a : Prog α) = .pure a := rfl

@[simp] theorem bind_def {α β : Type} (p : Prog α) (f : α → Prog β) : p >>= f = p.bind f :=
  rfl

@[simp] theorem throw_def {α : Type} (e : PyErr) : (throw e : Prog α) = .raise e := rfl

theorem map_def {α β : Type} (f : α → β) (p : Prog α) : f <$> p = p.bind fun a => .pure (f a) :=
  rfl

@[simp] theorem pure_bind {α β : Type} (a : α) (f : α → Prog β) : (Prog.pure a).bind f = f a :=
  rfl

@[simp] theorem raise_bind {α β : Type} (e : PyErr) (f : α → Prog β) :
    (Prog.raise e).bind f = .raise e := rfl

@[simp] theorem op_bind {α β : Type} (o : Op) (k : Except PyErr o.Reply → Prog α)
    (f : α → Prog β) : (Prog.op o k).bind f = .op o fun r => (k r).bind f := rfl

@[simp] theorem bcast_bind {α β : Type} (m : JVal) (k : Except PyErr Unit → Prog α)
    (f : α → Prog β) : (Prog.bcast m k).bind f = .bcast m fun r => (k r).bind f := rfl

@[simp] theorem bind_assoc {α β γ : Type} (p : Prog α) (f : α → Prog β) (g : β → Prog γ) :
    (p.bind f).bind g = p.bind fun a => (f a).bind g := by
  induction p with
  | pure a => rfl
  | raise e => rfl
  | op o k ih => simp only [op_bind, ih]
  | bcast m k ih => simp only [bcast_bind, ih]

@[simp] theorem bind_pure {α : Type} (p : Prog α) : p.bind Prog.pure = p := by
  induction p with
  | pure a => rfl
  | raise e => rfl
  | op o k ih => simp only [op_bind, ih]
  | bcast m k ih => simp only [bcast_bind, ih]

theorem orRaise_pure_bind {α β : Type} (x : Except PyErr α) (f : α → Prog β) :
    (orRaise .pure x).bind f = orRaise f x := by
  cases x <;> rfl

@[simp] theorem call_bind {β : Type} (o : Op) (f : o.Reply → Prog β) :
    (call o).bind f = .op o (orRaise f) := by
  simp only [call, op_bind, orRaise_pure_bind]

@[simp] theorem broadcast_bind {β : Type} (m : JVal) (f : Unit → Prog β) :
    (broadcast m).bind f = .bcast m (orRaise f) := by
  simp only [broadcast, bcast_bind, orRaise_pure_bind]

@[simp] theorem liftExcept_ok {α : Type} (a : α) : liftExcept (.ok a : Except PyErr α) = .pure a :=
  rfl

@[simp] theorem liftExcept_error {α : Type} (e : PyErr) :
    liftExcept (.error e : Except PyErr α) = .raise e := rfl

@[simp] theorem pure_tryCatch {α : Type} (a : α) (h : PyErr → Prog α) :
    (Prog.pure a).tryCatch h = .pure a := rfl

@[simp] theorem raise_tryCatch {α : Type} (e : PyErr) (h : PyErr → Prog α) :
    (Prog.raise e).tryCatch h = h e := rfl

@[simp] theorem op_tryCatch {α : Type} (o : Op) (k : Except PyErr o.Reply → Prog α)
    (h : PyErr → Prog α) : (Prog.op o k).tryCatch h = .op o fun r => (k r).tryCatch h := rfl

@[simp] theorem bcast_tryCatch {α : Type} (m : JVal) (k : Except PyErr Unit → Prog α)
    (h : PyErr → Prog α) : (Prog.bcast m k).tryCatch h = .bcast m fun r => (k r).tryCatch h :=
  rfl

/-! ### Footprints -/

/-- Every effect on every path of `p` satisfies `P`, and every broadcast message `B`. -/
inductive All {α : Type} (P : Op → Prop) (B : JVal → Prop) : Prog α → Prop where
  | pure (a : α) : All P B (.pure a)
  | raise (e : PyErr) : All P B (.raise e)
  | op {o : Op} {k : Except PyErr o.Reply → Prog α} (ho : P o) (hk : ∀ x, All P B (k x)) :
      All P B (.op o k)
  | bcast {m : JVal} {k : Except PyErr Unit → Prog α} (hm : B m) (hk : ∀ x, All P B (k x)) :
      All P B (.bcast m k)

section All

variable {P : Op → Prop} {B : JVal → Prop} {α β : Type}

theorem All.bind {p : Prog α} {f : α → Prog β} (hp : p.All P B) (hf : ∀ a, (f a).All P B) :
    (p.bind f).All P B := by
  induction hp with
  | pure a => exact hf a
  | raise e => exact .raise e
  | op ho _ ih => exact .op ho ih
  | bcast hm _ ih => exact .bcast hm ih

theorem All.tryCatch {p : Prog α} {h : PyErr → Prog α} (hp : p.All P B) (hh : ∀ e, (h e).All P B) :
    (p.tryCatch h).All P B := by
  induction hp with
  | pure a => exact .pure a
  | raise e => exact hh e
  | op ho _ ih => exact .op ho ih
  | bcast hm _ ih => exact .bcast hm ih

theorem All.mono {Q : Op → Prop} {C : JVal → Prop} {p : Prog α} (hp : p.All P B)
    (hQ : ∀ o, P o → Q o) (hC : ∀ m, B m → C m) : p.All Q C := by
  induction hp with
  | pure a => exact .pure a
  | raise e => exact .raise e
  | op ho _ ih => exact .op (hQ _ ho) ih
  | bcast hm _ ih => exact .bcast (hC _ hm) ih

theorem all_orRaise {f : α → Prog β} (hf : ∀ a, (f a).All P B) (x : Except PyErr α) :
    (orRaise f x).All P B := by
  cases x with
  | ok a => exact hf a
  | error e => exact .raise e

theorem all_call_bind {o : Op} {f : o.Reply → Prog β} (ho : P o) (hf : ∀ a, (f a).All P B) :
    ((call o).bind f).All P B := by
  rw [call_bind]; exact .op ho (all_orRaise hf)

theorem all_broadcast_bind {m : JVal} {f : Unit → Prog β} (hm : B m) (hf : ∀ a, (f a).All P B) :
    ((broadcast m).bind f).All P B := by
  rw [broadcast_bind]; exact .bcast hm (all_orRaise hf)

theorem all_liftExcept_bind {x : Except PyErr α} {f : α → Prog β} (hf : ∀ a, (f a).All P B) :
    ((liftExcept x).bind f).All P B := by
  rw [liftExcept, orRaise_pure_bind]; exact all_orRaise hf x

end All

/-! ### Results -/

/-- Every value `p` returns satisfies `Q`, on every path, whatever its effects answer. -/
inductive Returns {α : Type} (Q : α → Prop) : Prog α → Prop where
  | pure {a : α} (ha : Q a) : Returns Q (.pure a)
  | raise (e : PyErr) : Returns Q (.raise e)
  | op {o : Op} {k : Except PyErr o.Reply → Prog α} (hk : ∀ x, Returns Q (k x)) :
      Returns Q (.op o k)
  | bcast {m : JVal} {k : Except PyErr Unit → Prog α} (hk : ∀ x, Returns Q (k x)) :
      Returns Q (.bcast m k)

section Returns

variable {α β : Type} {Q : β → Prop}

theorem returns_call_bind {o : Op} {f : o.Reply → Prog β} (hf : ∀ a, (f a).Returns Q) :
    ((call o).bind f).Returns Q := by
  rw [call_bind]
  refine .op fun x => ?_
  cases x with
  | ok a => exact hf a
  | error e => exact .raise e

/-- A pure computation continues only with the value it computed. -/
theorem returns_liftExcept_bind {x : Except PyErr α} {f : α → Prog β}
    (hf : ∀ a, x = .ok a → (f a).Returns Q) : ((liftExcept x).bind f).Returns Q := by
  cases x with
  | ok a => exact hf a rfl
  | error e => exact .raise e

end Returns

end Prog

end AgentControl
