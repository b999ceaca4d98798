import Mathlib.Data.List.AList
import AgentControl.Keys
import AgentControl.Prog
import AgentControl.Registry

/-!
# The Shared World

Everything the coroutines of all server processes share: the key-value store, the
publish/subscribe channel, the registry of observers of each process, and what each
observer's websocket has received.

* The store is an association list; `KEYS` answers the matching keys in its order, which
  is arbitrary because the store is.
* A publish is appended to `published`, tagged with the thread that made it, and to the
  queue of every active subscription of its channel, in every process: this is how
  `agent_events` crosses process boundaries.
* `inbox ws` lists what the observer at the websocket `ws` has received, each message
  tagged with the thread that sent it. `writes` lists every completed store write with
  its writer. Both tags are ghost data; the source has no thread ids.

`World.perform` is the effect of one `Op` issued by a coroutine, given whether the call
succeeds and what the clock reads. A failed store or channel call raises
`ConnectionError` and changes nothing. `register` and `unregister` are synchronous and
cannot fail; `receive` returns only by raising `WebSocketDisconnect`.
-/

namespace AgentControl

/-- The key-value store. -/
abbrev Store := AList (fun _ : String => Bytes)

/-- One `pubsub.subscribe(channel)`: the messages delivered to it and not yet read. -/
structure Subscription where
  channel : String
  queue : List Bytes
  active : Bool
  deriving DecidableEq, Repr

/-- Who is running an effect: the thread, its server process, and the websocket it
serves (for an observer route or its relay). -/
structure Ctx where
  tid : ℕ
  proc : ℕ
  ws : ℕ
  deriving DecidableEq, Repr

/-- The shared state of all processes. -/
structure World where
  store : Store
  /-- Every publish, oldest first: publisher thread, channel, payload. -/
  published : List (ℕ × String × Bytes)
  /-- Ghost: every completed store write, oldest first: writer thread, key, value. -/
  writes : List (ℕ × String × Bytes)
  subs : List Subscription
  /-- `active_connections` of each process. -/
  registry : ℕ → Registry
  /-- What each websocket has received, oldest first, with the sending thread. -/
  inbox : ℕ → List (ℕ × JVal)
  /-- The next fresh client id. -/
  nextClient : ℕ

namespace World

/-- A deployment that has just started on the store `store`: nothing published or
written yet, no subscription, no observer. -/
def init (store : Store) : World :=
  ⟨store, [], [], [], fun _ => Registry.empty, fun _ => [], 0⟩

/-- `r.publish(channel, payload)` by the thread `tid`. -/
def publish (w : World) (tid : ℕ) (channel : String) (payload : Bytes) : World :=
  { w with
    published := w.published ++ [(tid, channel, payload)]
    subs := w.subs.map fun s =>
      if s.active ∧ s.channel = channel then { s with queue := s.queue ++ [payload] } else s }

/-- `r.set(key, value)` by the thread `tid`. -/
def write (w : World) (tid : ℕ) (key : String) (value : Bytes) : World :=
  { w with store := w.store.insert key value, writes := w.writes ++ [(tid, key, value)] }

/-- A successful `send_json(message)` by the thread `tid` on the websocket `ws`. -/
def deliver (w : World) (ws tid : ℕ) (message : JVal) : World :=
  { w with inbox := Function.update w.inbox ws (w.inbox ws ++ [(tid, message)]) }

/-- Replace the registry of a process. -/
def setRegistry (w : World) (proc : ℕ) (r : Registry) : World :=
  { w with registry := Function.update w.registry proc r }

/-- The connection of the subscription `sub` is lost: the server drops the subscriber, and
the messages it had not yet delivered with it. -/
def dropSub (w : World) (sub : ℕ) : World :=
  { w with subs := w.subs.modify (fun s => { s with queue := [], active := false }) sub }

/-- The keys of the store that a `KEYS` pattern matches. -/
def matching (w : World) (pattern : String) : List String :=
  w.store.keys.filter fun k => globMatch pattern.data k.data

/-- The effect of one operation issued by `c`: `ok` says whether the call succeeds,
`clock` is what the clock reads. -/
def perform (w : World) (c : Ctx) (ok : Bool) (clock : ℕ) :
    (o : Op) → World × Except PyErr o.Reply
  | .get key => (w, if ok then .ok (w.store.lookup key) else .error .connectionError)
  | .existsKey key => (w, if ok then .ok (decide (key ∈ w.store)) else .error .connectionError)
  | .keys pattern => (w, if ok then .ok (w.matching pattern) else .error .connectionError)
  | .set key value => if ok then (w.write c.tid key value, .ok ()) else (w, .error .connectionError)
  | .publish channel payload =>
      if ok then (w.publish c.tid channel payload, .ok ()) else (w, .error .connectionError)
  | .now => (w, .ok clock)
  | .accept => (w, if ok then .ok () else .error .connectionClosed)
  | .register =>
      ({ w.setRegistry c.proc ((w.registry c.proc).insert w.nextClient c.ws) with
          nextClient := w.nextClient + 1 }, .ok w.nextClient)
  | .subscribe channel =>
      if ok then ({ w with subs := w.subs ++ [⟨channel, [], true⟩] }, .ok w.subs.length)
      else (w, .error .connectionError)
  | .sendJson message =>
      if ok then (w.deliver c.ws c.tid message, .ok ()) else (w, .error .connectionClosed)
  | .spawnRelay _ => (w, .ok ())
  | .receive => (w, .error .webSocketDisconnect)
  | .unregister clientId => (w.setRegistry c.proc ((w.registry c.proc).pop clientId), .ok ())
  | .unsubscribe sub =>
      if ok then ({ w with subs := w.subs.modify (fun s => { s with active := false }) sub },
        .ok ())
      else (w, .error .connectionError)
  | .close => (w, if ok then .ok () else .error .connectionError)

/-- The sends of a broadcast, in order, each with whether it succeeded: every successful
send delivers `m` from the thread `tid`. -/
def sendAll (w : World) (tid : ℕ) (m : JVal) : List (Client × Bool) → World
  | [] => w
  | ((_, ws), ok) :: sends => (if ok then w.deliver ws tid m else w).sendAll tid m sends

@[simp] theorem write_store (w : World) (tid : ℕ) (key : String) (value : Bytes) :
    (w.write tid key value).store = w.store.insert key value := rfl

@[simp] theorem write_published (w : World) (tid : ℕ) (key : String) (value : Bytes) :
    (w.write tid key value).published = w.published := rfl

@[simp] theorem write_inbox (w : World) (tid : ℕ) (key : String) (value : Bytes) :
    (w.write tid key value).inbox = w.inbox := rfl

@[simp] theorem write_registry (w : World) (tid : ℕ) (key : String) (value : Bytes) :
    (w.write tid key value).registry = w.registry := rfl

@[simp] theorem publish_store (w : World) (tid : ℕ) (channel : String) (payload : Bytes) :
    (w.publish tid channel payload).store = w.store := rfl

@[simp] theorem publish_writes (w : World) (tid : ℕ) (channel : String) (payload : Bytes) :
    (w.publish tid channel payload).writes = w.writes := rfl

@[simp] theorem publish_inbox (w : World) (tid : ℕ) (channel : String) (payload : Bytes) :
    (w.publish tid channel payload).inbox = w.inbox := rfl

@[simp] theorem publish_registry (w : World) (tid : ℕ) (channel : String) (payload : Bytes) :
    (w.publish tid channel payload).registry = w.registry := rfl

@[simp] theorem publish_published (w : World) (tid : ℕ) (channel : String) (payload : Bytes) :
    (w.publish tid channel payload).published = w.published ++ [(tid, channel, payload)] := rfl

@[simp] theorem deliver_store (w : World) (ws tid : ℕ) (m : JVal) :
    (w.deliver ws tid m).store = w.store := rfl

@[simp] theorem deliver_published (w : World) (ws tid : ℕ) (m : JVal) :
    (w.deliver ws tid m).published = w.published := rfl

@[simp] theorem deliver_writes (w : World) (ws tid : ℕ) (m : JVal) :
    (w.deliver ws tid m).writes = w.writes := rfl

@[simp] theorem deliver_registry (w : World) (ws tid : ℕ) (m : JVal) :
    (w.deliver ws tid m).registry = w.registry := rfl

@[simp] theorem setRegistry_store (w : World) (proc : ℕ) (r : Registry) :
    (w.setRegistry proc r).store = w.store := rfl

@[simp] theorem setRegistry_published (w : World) (proc : ℕ) (r : Registry) :
    (w.setRegistry proc r).published = w.published := rfl

@[simp] theorem setRegistry_writes (w : World) (proc : ℕ) (r : Registry) :
    (w.setRegistry proc r).writes = w.writes := rfl

@[simp] theorem setRegistry_inbox (w : World) (proc : ℕ) (r : Registry) :
    (w.setRegistry proc r).inbox = w.inbox := rfl

@[simp] theorem dropSub_store (w : World) (sub : ℕ) : (w.dropSub sub).store = w.store := rfl

@[simp] theorem dropSub_published (w : World) (sub : ℕ) :
    (w.dropSub sub).published = w.published := rfl

@[simp] theorem dropSub_writes (w : World) (sub : ℕ) : (w.dropSub sub).writes = w.writes := rfl

@[simp] theorem dropSub_inbox (w : World) (sub : ℕ) : (w.dropSub sub).inbox = w.inbox := rfl

@[simp] theorem dropSub_registry (w : World) (sub : ℕ) :
    (w.dropSub sub).registry = w.registry := rfl

@[simp] theorem dropSub_nextClient (w : World) (sub : ℕ) :
    (w.dropSub sub).nextClient = w.nextClient := rfl

@[simp] theorem sendAll_nil (w : World) (tid : ℕ) (m : JVal) : w.sendAll tid m [] = w := rfl

@[simp] theorem sendAll_cons (w : World) (tid : ℕ) (m : JVal) (c : Client) (ok : Bool)
    (sends : List (Client × Bool)) :
    w.sendAll tid m ((c, ok) :: sends) =
      (if ok then w.deliver c.2 tid m else w).sendAll tid m sends := rfl

@[simp] theorem sendAll_store (w : World) (tid : ℕ) (m : JVal) (sends : List (Client × Bool)) :
    (w.sendAll tid m sends).store = w.store := by
  induction sends generalizing w with
  | nil => rfl
  | cons s sends ih => obtain ⟨_, ok⟩ := s; cases ok <;> simp [ih]

@[simp] theorem sendAll_published (w : World) (tid : ℕ) (m : JVal) (sends : List (Client × Bool)) :
    (w.sendAll tid m sends).published = w.published := by
  induction sends generalizing w with
  | nil => rfl
  | cons s sends ih => obtain ⟨_, ok⟩ := s; cases ok <;> simp [ih]

@[simp] theorem sendAll_writes (w : World) (tid : ℕ) (m : JVal) (sends : List (Client × Bool)) :
    (w.sendAll tid m sends).writes = w.writes := by
  induction sends generalizing w with
  | nil => rfl
  | cons s sends ih => obtain ⟨_, ok⟩ := s; cases ok <;> simp [ih]

@[simp] theorem sendAll_registry (w : World) (tid : ℕ) (m : JVal) (sends : List (Client × Bool)) :
    (w.sendAll tid m sends).registry = w.registry := by
  induction sends generalizing w with
  | nil => rfl
  | cons s sends ih => obtain ⟨_, ok⟩ := s; cases ok <;> simp [ih]

end World

end AgentControl
