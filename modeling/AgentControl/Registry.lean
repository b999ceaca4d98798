import AgentControl.Json

/-!
# The Observer Registry and the Broadcast Loop

`active_connections` is a process-wide `dict` from client ids to websockets. CPython keeps
a dict's entries in an array in insertion order: an insertion appends a slot, a `pop`
empties the slot it hits and leaves the others where they are. `Registry` is that array;
`used` counts its live slots.

An iterator over `active_connections.items()` remembers the dict's size when it was
created (`DictIter.used`), the number of entries it still expects (`len`) and the next
slot to look at (`pos`). Each step first compares the dict's current size with the
remembered one and raises `RuntimeError("dictionary changed size during iteration")` when
they differ; otherwise it returns the next live slot, raising
`RuntimeError("dictionary keys changed during iteration")` if it finds one after it has
already returned as many entries as it expected (`Registry.next`). Compaction of the
array when a full dict grows is not modelled: it happens only on an insertion.

`broadcast_websocket_message` runs this iterator:

```
disconnected = []
for client_id, websocket in active_connections.items():
    try:
        await websocket.send_json(message)
    except Exception:
        disconnected.append(client_id)
for client_id in disconnected:
    active_connections.pop(client_id, None)
```

`Bcast` is the state of that loop between two resumptions, and `Bcast.advance` is the
synchronous code run at a resumption: one step of the iterator, and, when the iterator is
exhausted, the whole pruning loop. The send itself is an await, performed by the
scheduler between two calls of `advance`. `Bcast.attempted` is a ghost record of the
clients a send was started for.

## Main results

* `Bcast.advance_of_solo_nil`, `Bcast.advance_of_solo_cons`: when nothing else touches
  the registry, a resumption either ends the loop and pops the failed clients, or starts
  the send to the next live entry, in slot order (`Loop.solo` runs the whole loop).
* `Registry.mem_live_insert`, `Bcast.pending_of_advance`: the registry and the sends in
  flight only ever hold entries that some insertion put there.
* `Bcast.advance_of_used_ne`: at any resumption, a registry whose size differs from the
  size at the start of the loop makes it raise, before any further send and before any
  pruning.
-/

namespace AgentControl

/-- A client of the registry: its client id and its websocket. -/
abbrev Client := ℕ × ℕ

/-- The entry array of `active_connections`, in insertion order; `none` is a slot
emptied by `pop`. -/
structure Registry where
  slots : List (Option Client)
  deriving DecidableEq, Repr

namespace Registry

/-- The empty registry of a process that has just started. -/
def empty : Registry := ⟨[]⟩

/-- The live entries, in slot order. -/
def live (r : Registry) : List Client := r.slots.filterMap id

/-- `len(active_connections)`. -/
def used (r : Registry) : ℕ := r.live.length

/-- `active_connections[client_id] = websocket`: overwrite a live entry of that client in
place, or append a new slot. -/
def insert (r : Registry) (clientId ws : ℕ) : Registry :=
  if r.live.any (·.1 == clientId) then
    ⟨r.slots.map fun s => s.map fun c => if c.1 = clientId then (clientId, ws) else c⟩
  else ⟨r.slots ++ [some (clientId, ws)]⟩

/-- `active_connections.pop(client_id, None)`: empty the slot of that client, if any. -/
def pop (r : Registry) (clientId : ℕ) : Registry :=
  ⟨r.slots.map fun s => s.bind fun c => if c.1 = clientId then none else some c⟩

/-- The first live slot at index `pos` or later, with its index. -/
def scan : List (Option Client) → ℕ → Option (ℕ × Client)
  | [], _ => none
  | some c :: _, 0 => some (0, c)
  | none :: ss, 0 => (scan ss 0).map fun (i, c) => (i + 1, c)
  | _ :: ss, pos + 1 => (scan ss pos).map fun (i, c) => (i + 1, c)

/-- The live entries at slot `pos` or later, in slot order. -/
def liveFrom (r : Registry) (pos : ℕ) : List Client := (r.slots.drop pos).filterMap id

@[simp] theorem liveFrom_zero (r : Registry) : r.liveFrom 0 = r.live := rfl

/-- The scan finds nothing exactly when no live entry is left. -/
theorem scan_eq_none {ss : List (Option Client)} {pos : ℕ} :
    scan ss pos = none ↔ (ss.drop pos).filterMap id = [] := by
  induction ss, pos using scan.induct <;> simp_all [scan]

/-- A live entry found by the scan is the first live entry left, and the scan resumes
after it. -/
theorem scan_eq_some {ss : List (Option Client)} {pos i : ℕ} {c : Client}
    (h : scan ss pos = some (i, c)) :
    (ss.drop pos).filterMap id = c :: (ss.drop (i + 1)).filterMap id := by
  induction ss, pos using scan.induct generalizing i with
  | case1 => simp [scan] at h
  | case2 c' ss =>
    simp only [scan, Option.some.injEq, Prod.mk.injEq] at h; obtain ⟨rfl, rfl⟩ := h; rfl
  | case3 ss ih =>
    simp only [scan, Option.map_eq_some'] at h
    obtain ⟨⟨j, c'⟩, hj, he⟩ := h
    simp only [Prod.mk.injEq] at he; obtain ⟨rfl, rfl⟩ := he
    simpa using ih hj
  | case4 s ss pos ih =>
    simp only [scan, Option.map_eq_some'] at h
    obtain ⟨⟨j, c'⟩, hj, he⟩ := h
    simp only [Prod.mk.injEq] at he; obtain ⟨rfl, rfl⟩ := he
    simpa using ih hj

/-- An insertion adds at most its own entry. -/
theorem mem_live_insert {r : Registry} {clientId ws : ℕ} {cl : Client}
    (h : cl ∈ (r.insert clientId ws).live) : cl = (clientId, ws) ∨ cl ∈ r.live := by
  unfold insert at h
  split at h
  · simp only [live, List.mem_filterMap, List.mem_map, id] at h
    obtain ⟨_, ⟨s, hs, rfl⟩, h⟩ := h
    cases s with
    | none => cases h
    | some c =>
      simp only [Option.map_some', Option.some.injEq] at h
      subst h
      split
      · exact .inl rfl
      · exact .inr (List.mem_filterMap.2 ⟨_, hs, rfl⟩)
  · simp only [live, List.filterMap_append, List.mem_append] at h
    rcases h with h | h
    · exact .inr h
    · simp at h; exact .inl h

/-- A `pop` adds no entry. -/
theorem mem_live_pop {r : Registry} {clientId : ℕ} {cl : Client} (h : cl ∈ (r.pop clientId).live) :
    cl ∈ r.live := by
  simp only [pop, live, List.mem_filterMap, List.mem_map, id] at h
  obtain ⟨_, ⟨s, hs, rfl⟩, h⟩ := h
  cases s with
  | none => cases h
  | some c =>
    simp only [Option.some_bind] at h
    split at h
    · cases h
    · cases h; exact List.mem_filterMap.2 ⟨_, hs, rfl⟩

theorem mem_live_foldl_pop {r : Registry} {ids : List ℕ} {cl : Client}
    (h : cl ∈ (ids.foldl pop r).live) : cl ∈ r.live := by
  induction ids generalizing r with
  | nil => exact h
  | cons i ids ih => exact mem_live_pop (ih h)

end Registry

/-- An iterator over `active_connections.items()`. -/
structure DictIter where
  /-- The next slot to look at. -/
  pos : ℕ
  /-- The size of the dict when the iterator was created. -/
  used : ℕ
  /-- The number of entries the iterator still expects. -/
  len : ℕ
  deriving DecidableEq, Repr

namespace Registry

/-- `iter(active_connections.items())`. -/
def iter (r : Registry) : DictIter := ⟨0, r.used, r.used⟩

/-- One step of the iterator. -/
def next (r : Registry) (it : DictIter) : Except PyErr (Option (Client × DictIter)) :=
  if r.used ≠ it.used then .error (.runtimeError "dictionary changed size during iteration")
  else match scan r.slots it.pos with
    | none => .ok none
    | some (i, c) =>
        if it.len = 0 then .error (.runtimeError "dictionary keys changed during iteration")
        else .ok (some (c, ⟨i + 1, it.used, it.len - 1⟩))

/-- The iterator returns only live entries. -/
theorem mem_live_of_next {r : Registry} {it it' : DictIter} {c : Client}
    (h : r.next it = .ok (some (c, it'))) : c ∈ r.live := by
  unfold next at h
  split at h
  · cases h
  · split at h
    · cases h
    · next i c' hs =>
      split at h
      · cases h
      · cases h
        have hl := scan_eq_some hs
        exact (List.drop_sublist _ _).filterMap _ |>.subset (hl ▸ List.mem_cons_self _ _)

end Registry

/-- The state of `broadcast_websocket_message` between two resumptions. -/
structure Bcast where
  message : JVal
  iter : DictIter
  /-- The clients whose send raised, in order. -/
  disconnected : List ℕ
  /-- The client whose send is in flight, if any. -/
  pending : Option Client
  /-- Ghost: the clients a send was started for, in order. -/
  attempted : List ℕ
  deriving DecidableEq, Repr

/-- What a resumption of the broadcast loop leads to. -/
inductive Advance where
  /-- The iterator raised: the exception leaves the broadcast. -/
  | raised (e : PyErr)
  /-- The iterator is exhausted and the failed clients are popped: the new registry. -/
  | finished (r : Registry)
  /-- A send is started: the new loop state. -/
  | sending (b : Bcast)
  deriving DecidableEq, Repr

namespace Bcast

/-- The synchronous code at a resumption of the loop: one iterator step, then either a
new send or, once the iterator is exhausted, the pruning loop. -/
def advance (r : Registry) (b : Bcast) : Advance :=
  match r.next b.iter with
  | .error e => .raised e
  | .ok none => .finished (b.disconnected.foldl Registry.pop r)
  | .ok (some ((clientId, ws), it)) =>
      .sending { b with iter := it, pending := some (clientId, ws),
                        attempted := b.attempted ++ [clientId] }

/-- The loop state on entry to `broadcast_websocket_message(message)`. -/
def init (r : Registry) (message : JVal) : Bcast := ⟨message, r.iter, [], none, []⟩

/-- Entering `broadcast_websocket_message(message)`: the iterator is created and stepped
in the same synchronous block. -/
def start (r : Registry) (message : JVal) : Advance := advance r (init r message)

/-- The loop state once the send in flight has returned, successfully or not. -/
def sent (b : Bcast) (ok : Bool) : Bcast :=
  match b.pending with
  | some (clientId, _) =>
      { b with pending := none, disconnected := if ok then b.disconnected else
          b.disconnected ++ [clientId] }
  | none => b

/-- **A size change is always caught**: at a resumption, a registry whose size is not the
one recorded when the loop started makes the loop raise, before any further send and
without pruning anything. -/
theorem advance_of_used_ne {r : Registry} {b : Bcast} (h : r.used ≠ b.iter.used) :
    advance r b = .raised (.runtimeError "dictionary changed size during iteration") := by
  simp [advance, Registry.next, h]

@[simp] theorem sent_pending (b : Bcast) (ok : Bool) : (b.sent ok).pending = none := by
  unfold sent; split <;> simp_all

@[simp] theorem sent_iter (b : Bcast) (ok : Bool) : (b.sent ok).iter = b.iter := by
  unfold sent; split <;> rfl

@[simp] theorem sent_attempted (b : Bcast) (ok : Bool) : (b.sent ok).attempted = b.attempted := by
  unfold sent; split <;> rfl

@[simp] theorem sent_message (b : Bcast) (ok : Bool) : (b.sent ok).message = b.message := by
  unfold sent; split <;> rfl

/-- A resumption starts a send only to a live entry. -/
theorem pending_of_advance {r : Registry} {b b' : Bcast} (h : advance r b = .sending b') :
    ∃ c ∈ r.live, b'.pending = some c := by
  unfold advance at h
  split at h
  · cases h
  · cases h
  · next cid ws it hn => cases h; exact ⟨(cid, ws), Registry.mem_live_of_next hn, rfl⟩

/-- The pruning only pops. -/
theorem live_of_advance_finished {r r' : Registry} {b : Bcast} (h : advance r b = .finished r')
    {cl : Client} (hcl : cl ∈ r'.live) : cl ∈ r.live := by
  unfold advance at h
  split at h
  · cases h
  · cases h; exact Registry.mem_live_foldl_pop hcl
  · cases h

/-! ### The loop when nothing else touches the registry -/

/-- The loop state is in step with a registry that nothing else changes: the iterator
recorded its size, and expects exactly the live entries it has not reached. -/
structure Solo (r : Registry) (b : Bcast) : Prop where
  used_eq : b.iter.used = r.used
  len_eq : b.iter.len = (r.liveFrom b.iter.pos).length

/-- The connections the loop has still to send to: the one in flight, then the live
entries the iterator has not reached. -/
def todo (r : Registry) (b : Bcast) : List Client := b.pending.toList ++ r.liveFrom b.iter.pos

theorem solo_init (r : Registry) (m : JVal) : Solo r (init r m) := ⟨rfl, rfl⟩

@[simp] theorem todo_init (r : Registry) (m : JVal) : todo r (init r m) = r.live := rfl

theorem Solo.sent {r : Registry} {b : Bcast} (hs : Solo r b) (ok : Bool) : Solo r (b.sent ok) :=
  ⟨by simpa using hs.used_eq, by simpa using hs.len_eq⟩

/-- The ids of the clients whose send failed, in order. -/
def failedIds (sends : List (Client × Bool)) : List ℕ :=
  sends.filterMap fun s => if s.2 then none else some s.1.1

@[simp] theorem failedIds_nil : failedIds [] = [] := rfl

@[simp] theorem failedIds_cons (c : Client) (ok : Bool) (sends : List (Client × Bool)) :
    failedIds ((c, ok) :: sends) = (if ok then [] else [c.1]) ++ failedIds sends := by
  cases ok <;> rfl

/-- With no live entry left, the loop ends and prunes the failed clients. -/
theorem advance_of_solo_nil {r : Registry} {b : Bcast} (hs : Solo r b)
    (h : r.liveFrom b.iter.pos = []) :
    advance r b = .finished (b.disconnected.foldl Registry.pop r) := by
  have hn : Registry.scan r.slots b.iter.pos = none := Registry.scan_eq_none.2 h
  simp [advance, Registry.next, hs.used_eq, hn]

/-- With a live entry `c` left, the loop starts the send to `c` and stays in step. -/
theorem advance_of_solo_cons {r : Registry} {b : Bcast} {c : Client} {rest : List Client}
    (hs : Solo r b) (h : r.liveFrom b.iter.pos = c :: rest) :
    ∃ b', advance r b = .sending b' ∧ b'.message = b.message ∧
      b'.disconnected = b.disconnected ∧ b'.pending = some c ∧ Solo r b' ∧
      r.liveFrom b'.iter.pos = rest := by
  obtain ⟨⟨i, c'⟩, hi⟩ : ∃ x, Registry.scan r.slots b.iter.pos = some x :=
    Option.ne_none_iff_exists'.1 fun hn => by
      simp [Registry.scan_eq_none.1 hn, Registry.liveFrom] at h
  have hl := Registry.scan_eq_some hi
  simp only [Registry.liveFrom] at h
  rw [h, List.cons.injEq] at hl
  obtain ⟨rfl, hrest⟩ := hl
  have hlen : b.iter.len = rest.length + 1 := by
    simp [hs.len_eq, Registry.liveFrom, h]
  refine ⟨{ b with
      iter := ⟨i + 1, b.iter.used, b.iter.len - 1⟩
      pending := some c
      attempted := b.attempted ++ [c.1] }, ?_, rfl, rfl, rfl, ⟨hs.used_eq, ?_⟩, hrest.symm⟩
  · simp [advance, Registry.next, hs.used_eq, hi, hlen]
  · simp [Registry.liveFrom, ← hrest, hlen]

end Bcast

end AgentControl
