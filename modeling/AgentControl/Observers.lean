import AgentControl.Listing

/-!
# Observers Under Concurrent Control Requests

`broadcast_websocket_message` iterates the process's `active_connections` dict and
suspends at each `send_json`. Nothing stops another coroutine from inserting into the
dict or popping from it while the loop is suspended: the next step of the iterator then
raises `RuntimeError` (CPython's size check), outside the `try` around each send. Run
alone, the loop is well behaved (`Loop.solo`); in an interleaving it is not.

The observer handler registers its connection before it subscribes and greets, so a
broadcast that runs in between reaches the observer before `connection_established`.

## Main results

* `Thread.step_resized`: at every resumption, in every interleaving, a registry whose
  size changed since the loop started makes the loop raise.
* `broadcast_solo_or_raises`: **the broadcast run alone sends once to every live
  connection and never raises; a concurrent size change makes it raise.**
* `broadcast_raises_on_registration`: an observer connecting while `pause` broadcasts
  makes `pause` fail after it wrote the state and published its events, and an observer
  registered throughout misses the message.
* `handshake_status_first`: a `pause` between an observer's registration and its greeting
  reaches the observer first.
-/

namespace AgentControl

/-! ### The broadcast loop in an interleaving -/

/-- **A size change is caught at the next resumption**, in every interleaving: a thread
resuming its broadcast loop on a registry whose size is not the one recorded when the
loop started leaves the loop with `RuntimeError`; it sends nothing more, prunes nothing,
and its route continues with the exception. -/
theorem Thread.step_resized {w : World} {tid : ℕ} {th : Thread} {ok : Bool} {clock : ℕ}
    {b : Bcast} {k : Except PyErr Unit → Prog Response} (ht : th.task = .bcast b k)
    (hp : b.pending = none) (hu : (w.registry th.proc).used ≠ b.iter.used) :
    Thread.step w tid th ok clock =
      (w, .run (k (.error (.runtimeError "dictionary changed size during iteration"))), []) := by
  simp [Thread.step, ht, hp, Bcast.advance_of_used_ne hu, World.afterAdvance, resumeBcast]

/-- **The broadcast loop, alone and in an interleaving.** Run alone from its entry, the
loop of `broadcast_websocket_message(m)` never raises: it attempts one send to each
connection registered when it starts, in order, and then pops exactly the clients whose
send failed (`Bcast.soloWorld`). In an interleaving, a coroutine that changes the size of
the registry while the loop is suspended in a send makes the loop raise `RuntimeError` at
its next resumption, with no further send and no pruning; the route that broadcast then
raises it, after every write and publish it made before its broadcast. -/
theorem broadcast_solo_or_raises :
    (∀ (c : Ctx) (w w' : World) (m : JVal) (r : Except PyErr Unit),
      Loop c w (Bcast.init (w.registry c.proc) m) w' r ↔
        ∃ oks : List Bool, oks.length = (w.registry c.proc).live.length ∧ r = .ok () ∧
          w' = (Bcast.init (w.registry c.proc) m).soloWorld c w oks) ∧
    ∀ (w : World) (tid : ℕ) (th : Thread) (ok : Bool) (clock : ℕ) (b : Bcast)
      (f : Unit → Prog Response), th.task = .bcast b (Prog.orRaise f) → b.pending = none →
      (w.registry th.proc).used ≠ b.iter.used →
      Thread.step w tid th ok clock =
        (w, .run (.raise (.runtimeError "dictionary changed size during iteration")), []) :=
  ⟨fun _ _ _ _ _ => loop_init_iff, fun _ _ _ _ _ _ _ ht hp hu => Thread.step_resized ht hp hu⟩

/-- An observer of the process `0` on the websocket `ws`. -/
def observer (ws : ℕ) : Thread := ⟨0, ws, .run websocketAgentEvents⟩

/-- A step of the thread `tid` in which every call succeeds, the clock reading 5. -/
def stepOf (tid : ℕ) : Choice := ⟨tid, true, 5, false⟩

/-- On `alphaWorld`, the observer on websocket 7 connects and is greeted (5 steps), and the
observer on websocket 8 accepts and registers (2 steps); `pause a1` runs up to its
broadcast's first send, in flight to websocket 7 (7 steps); a third observer, on websocket
9, accepts and registers (2 steps); then the send returns and `pause` resumes its loop. -/
def registrationRace : Sys :=
  Sys.run ⟨alphaWorld, [observer 7, observer 8, ⟨0, 0, .run (pauseAgent "a1")⟩, observer 9]⟩
    (List.replicate 5 (stepOf 0) ++ List.replicate 2 (stepOf 1) ++ List.replicate 7 (stepOf 2) ++
      List.replicate 2 (stepOf 3) ++ List.replicate 2 (stepOf 2))

/-- `pause a1` fails with `RuntimeError` although every store, channel and websocket call
succeeded: it has written the state `paused` and published its two events, and its
broadcast reached websocket 7 only. Websocket 8, registered for the whole broadcast, never
receives `agent_status_changed`, and nothing is pruned. -/
theorem broadcast_raises_on_registration :
    registrationRace.threads.map (·.task.result) =
      [none, none, some (.error (.runtimeError "dictionary changed size during iteration")),
        none, none] ∧
    registrationRace.world.store.lookup (agentKey "a1" "state") = some (.text "paused") ∧
    registrationRace.world.published.map (·.2.1) = [agentEvents, agentKey "a1" "pause"] ∧
    registrationRace.world.inbox 7 =
      [(0, connectionEstablished 0), (2, statusChanged "a1" "paused" 5)] ∧
    registrationRace.world.inbox 8 = [] ∧
    (registrationRace.world.registry 0).live = [(0, 7), (1, 8), (2, 9)] :=
  ⟨rfl, rfl, rfl, rfl, rfl, rfl⟩

/-! ### The handshake -/

/-- On `alphaWorld`, the observer on websocket 7 accepts and registers (2 steps);
`pause a1` then runs to its end (9 steps); then the observer subscribes and greets. -/
def handshakeRace : Sys :=
  Sys.run ⟨alphaWorld, [observer 7, ⟨0, 0, .run (pauseAgent "a1")⟩]⟩
    (List.replicate 2 (stepOf 0) ++ List.replicate 9 (stepOf 1) ++ List.replicate 2 (stepOf 0))

/-- The first message the observer receives is `agent_status_changed`, sent by the
`pause` thread; its own `connection_established` comes second. -/
theorem handshake_status_first :
    handshakeRace.threads.map (·.task.result) =
      [none, some (.ok (.status true "Agent a1 paused"))] ∧
    handshakeRace.world.inbox 7 =
      [(1, statusChanged "a1" "paused" 5), (0, connectionEstablished 0)] :=
  ⟨rfl, rfl⟩

end AgentControl
