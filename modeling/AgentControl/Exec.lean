import AgentControl.System

/-!
# Solo Runs

`Exec c w p w' r` says that the coroutine `p`, run by `c` with no other coroutine in
between, can go from the world `w` to `w'` and end with `r`. It is a relation because
each effect may succeed or fail and the clock may read anything. The broadcast loop runs
as `Loop` on the registry of `c`'s process, which only this loop changes.

This is the semantics in which the routes are specified one at a time; the scheduler of
`AgentControl.System` is the semantics of the deployment. They are connected by
`Sys.run_solo`: a run of the scheduler with a single route thread that ends with a
returned or raised route is a solo run.

## Main results

* `exec_bind`: sequencing, one lemma for every `do` block.
* `Loop.solo`: **the broadcast loop run alone** sends to every live connection exactly
  once, in slot order, never raises, and then pops exactly the clients whose send failed.
* `Sys.run_solo`: **single-thread runs of the scheduler are solo runs.**
-/

namespace AgentControl

/-- The broadcast loop of the thread `c`, from the loop state `b` (at a resumption, or
with a send in flight), run with no other coroutine in between. -/
inductive Loop (c : Ctx) : World → Bcast → World → Except PyErr Unit → Prop where
  | send {w w' : World} {b : Bcast} {r : Except PyErr Unit} {cid ws : ℕ} (ok : Bool)
      (hp : b.pending = some (cid, ws))
      (h : Loop c (if ok then w.deliver ws c.tid b.message else w) (b.sent ok) w' r) :
      Loop c w b w' r
  | raised {w : World} {b : Bcast} {e : PyErr} (hp : b.pending = none)
      (ha : Bcast.advance (w.registry c.proc) b = .raised e) : Loop c w b w (.error e)
  | finished {w : World} {b : Bcast} {reg : Registry} (hp : b.pending = none)
      (ha : Bcast.advance (w.registry c.proc) b = .finished reg) :
      Loop c w b (w.setRegistry c.proc reg) (.ok ())
  | next {w w' : World} {b b' : Bcast} {r : Except PyErr Unit} (hp : b.pending = none)
      (ha : Bcast.advance (w.registry c.proc) b = .sending b') (h : Loop c w b' w' r) :
      Loop c w b w' r

/-- A solo run of a coroutine of `c`. -/
inductive Exec (c : Ctx) {α : Type} : World → Prog α → World → Except PyErr α → Prop where
  | pure {w : World} {a : α} : Exec c w (.pure a) w (.ok a)
  | raise {w : World} {e : PyErr} : Exec c w (.raise e) w (.error e)
  | op {w w' : World} {o : Op} {k : Except PyErr o.Reply → Prog α} {r : Except PyErr α}
      (ok : Bool) (clock : ℕ)
      (h : Exec c (w.perform c ok clock o).1 (k (w.perform c ok clock o).2) w' r) :
      Exec c w (.op o k) w' r
  | bcast {w w₁ w' : World} {m : JVal} {k : Except PyErr Unit → Prog α} {r₁ : Except PyErr Unit}
      {r : Except PyErr α} (hl : Loop c w (Bcast.init (w.registry c.proc) m) w₁ r₁)
      (h : Exec c w₁ (k r₁) w' r) : Exec c w (.bcast m k) w' r

/-! ### Inversion -/

section Inversion

variable {c : Ctx} {α β : Type} {w w' : World}

@[simp] theorem exec_pure_iff {a : α} {r : Except PyErr α} :
    Exec c w (.pure a) w' r ↔ w' = w ∧ r = .ok a := by
  constructor
  · rintro ⟨⟩; exact ⟨rfl, rfl⟩
  · rintro ⟨rfl, rfl⟩; exact .pure

@[simp] theorem exec_raise_iff {e : PyErr} {r : Except PyErr α} :
    Exec c w (.raise e) w' r ↔ w' = w ∧ r = .error e := by
  constructor
  · rintro ⟨⟩; exact ⟨rfl, rfl⟩
  · rintro ⟨rfl, rfl⟩; exact .raise

theorem exec_op_iff {o : Op} {k : Except PyErr o.Reply → Prog α} {r : Except PyErr α} :
    Exec c w (.op o k) w' r ↔
      ∃ ok clock, Exec c (w.perform c ok clock o).1 (k (w.perform c ok clock o).2) w' r := by
  constructor
  · rintro ⟨⟩; exact ⟨_, _, ‹_›⟩
  · rintro ⟨ok, clock, h⟩; exact .op ok clock h

theorem exec_bcast_iff {m : JVal} {k : Except PyErr Unit → Prog α} {r : Except PyErr α} :
    Exec c w (.bcast m k) w' r ↔
      ∃ w₁ r₁, Loop c w (Bcast.init (w.registry c.proc) m) w₁ r₁ ∧ Exec c w₁ (k r₁) w' r := by
  constructor
  · rintro ⟨⟩; exact ⟨_, _, ‹_›, ‹_›⟩
  · rintro ⟨w₁, r₁, hl, h⟩; exact .bcast hl h

/-- What a sequence does once its first part has ended in `w₁` with `r₁`. -/
def Exec.Cont (c : Ctx) (f : α → Prog β) (w₁ : World) :
    Except PyErr α → World → Except PyErr β → Prop
  | .ok a, w', r => Exec c w₁ (f a) w' r
  | .error e, w', r => w' = w₁ ∧ r = .error e

/-- **Sequencing**: a solo run of `p >>= f` is a solo run of `p`, then of `f` on its
value; an exception skips `f`. -/
theorem exec_bind {p : Prog α} {f : α → Prog β} {r : Except PyErr β} :
    Exec c w (p.bind f) w' r ↔ ∃ w₁ r₁, Exec c w p w₁ r₁ ∧ Exec.Cont c f w₁ r₁ w' r := by
  induction p generalizing w with
  | pure a => simp [Exec.Cont, and_assoc]
  | raise e => simp [Exec.Cont, and_assoc]
  | op o k ih =>
    simp only [Prog.op_bind, exec_op_iff, ih]
    constructor
    · rintro ⟨ok, clock, w₁, r₁, h, hc⟩; exact ⟨w₁, r₁, ⟨ok, clock, h⟩, hc⟩
    · rintro ⟨w₁, r₁, ⟨ok, clock, h⟩, hc⟩; exact ⟨ok, clock, w₁, r₁, h, hc⟩
  | bcast m k ih =>
    simp only [Prog.bcast_bind, exec_bcast_iff, ih]
    constructor
    · rintro ⟨w₂, r₂, hl, w₁, r₁, h, hc⟩; exact ⟨w₁, r₁, ⟨w₂, r₂, hl, h⟩, hc⟩
    · rintro ⟨w₁, r₁, ⟨w₂, r₂, hl, h⟩, hc⟩; exact ⟨w₂, r₂, hl, w₁, r₁, h, hc⟩

/-- What a `try` does once its body has ended in `w₁` with `r₁`. -/
def Exec.Handle (c : Ctx) (h : PyErr → Prog α) (w₁ : World) :
    Except PyErr α → World → Except PyErr α → Prop
  | .ok a, w', r => w' = w₁ ∧ r = .ok a
  | .error e, w', r => Exec c w₁ (h e) w' r

/-- **`try`/`except`**: a solo run of `try p except e: h(e)` is a solo run of `p`, then of
the handler on its exception, if any. -/
theorem exec_tryCatch {p : Prog α} {h : PyErr → Prog α} {r : Except PyErr α} :
    Exec c w (p.tryCatch h) w' r ↔ ∃ w₁ r₁, Exec c w p w₁ r₁ ∧ Exec.Handle c h w₁ r₁ w' r := by
  induction p generalizing w with
  | pure a => simp [Exec.Handle, and_assoc, eq_comm]
  | raise e => simp [Exec.Handle, and_assoc]
  | op o k ih =>
    simp only [Prog.op_tryCatch, exec_op_iff, ih]
    constructor
    · rintro ⟨ok, clock, w₁, r₁, h, hc⟩; exact ⟨w₁, r₁, ⟨ok, clock, h⟩, hc⟩
    · rintro ⟨w₁, r₁, ⟨ok, clock, h⟩, hc⟩; exact ⟨ok, clock, w₁, r₁, h, hc⟩
  | bcast m k ih =>
    simp only [Prog.bcast_tryCatch, exec_bcast_iff, ih]
    constructor
    · rintro ⟨w₂, r₂, hl, w₁, r₁, h, hc⟩; exact ⟨w₁, r₁, ⟨w₂, r₂, hl, h⟩, hc⟩
    · rintro ⟨w₁, r₁, ⟨w₂, r₂, hl, h⟩, hc⟩; exact ⟨w₂, r₂, hl, w₁, r₁, h, hc⟩

end Inversion

/-! ### The broadcast loop run alone -/

/-- A send leaves the registry as it is. -/
@[simp] theorem registry_afterSend (w : World) (ws tid : ℕ) (m : JVal) (ok : Bool) :
    (if ok then w.deliver ws tid m else w).registry = w.registry := by
  cases ok <;> rfl

namespace Bcast

/-- The world after the loop of `c` from `b` has run alone, the sends to the connections
it had still to send to having had the outcomes `oks`: the successful sends delivered,
then the failed clients popped. -/
def soloWorld (c : Ctx) (w : World) (b : Bcast) (oks : List Bool) : World :=
  (w.sendAll c.tid b.message ((b.todo (w.registry c.proc)).zip oks)).setRegistry c.proc
    ((b.disconnected ++ failedIds ((b.todo (w.registry c.proc)).zip oks)).foldl Registry.pop
      (w.registry c.proc))

@[simp] theorem soloWorld_store (c : Ctx) (w : World) (b : Bcast) (oks : List Bool) :
    (b.soloWorld c w oks).store = w.store := by simp [soloWorld]

@[simp] theorem soloWorld_published (c : Ctx) (w : World) (b : Bcast) (oks : List Bool) :
    (b.soloWorld c w oks).published = w.published := by simp [soloWorld]

@[simp] theorem soloWorld_writes (c : Ctx) (w : World) (b : Bcast) (oks : List Bool) :
    (b.soloWorld c w oks).writes = w.writes := by simp [soloWorld]

theorem soloWorld_send {c : Ctx} {w : World} {b : Bcast} {cid ws : ℕ}
    (hp : b.pending = some (cid, ws)) (ok : Bool) (oks : List Bool) :
    b.soloWorld c w (ok :: oks) =
      (b.sent ok).soloWorld c (if ok then w.deliver ws c.tid b.message else w) oks := by
  simp only [soloWorld, todo, hp, registry_afterSend, sent_pending, sent_iter, sent_message,
    Option.toList_none, List.nil_append, Option.toList_some, List.singleton_append,
    List.zip_cons_cons, World.sendAll_cons, failedIds_cons]
  simp only [sent, hp]
  cases ok <;> simp

theorem soloWorld_next {c : Ctx} {w : World} {b b' : Bcast}
    (ht : b'.todo (w.registry c.proc) = b.todo (w.registry c.proc)) (hm : b'.message = b.message)
    (hd : b'.disconnected = b.disconnected) (oks : List Bool) :
    b'.soloWorld c w oks = b.soloWorld c w oks := by
  simp only [soloWorld, ht, hm, hd]

end Bcast

/-- **The broadcast loop run alone.** From a loop state in step with the registry, the
loop sends once to each connection it has still to send to, in order, whatever the
outcome of each send, never raises, and then pops the clients already disconnected and
those whose send failed. -/
theorem Loop.solo {c : Ctx} {w w' : World} {b : Bcast} {r : Except PyErr Unit}
    (h : Loop c w b w' r) (hs : b.Solo (w.registry c.proc)) :
    ∃ oks : List Bool, oks.length = (b.todo (w.registry c.proc)).length ∧ r = .ok () ∧
      w' = b.soloWorld c w oks := by
  induction h with
  | @send w w' b r cid ws ok hp _ ih =>
    obtain ⟨oks, hlen, rfl, rfl⟩ := ih (by simpa using hs.sent ok)
    exact ⟨ok :: oks, by simp_all [Bcast.todo], rfl, (Bcast.soloWorld_send hp ok oks).symm⟩
  | @raised w b e hp ha =>
    exfalso
    cases hl : (w.registry c.proc).liveFrom b.iter.pos with
    | nil => simp [Bcast.advance_of_solo_nil hs hl] at ha
    | cons x rest =>
      obtain ⟨b', hb', -⟩ := Bcast.advance_of_solo_cons hs hl
      simp [hb'] at ha
  | @finished w b reg hp ha =>
    cases hl : (w.registry c.proc).liveFrom b.iter.pos with
    | nil =>
      rw [Bcast.advance_of_solo_nil hs hl, Advance.finished.injEq] at ha
      exact ⟨[], by simp [Bcast.todo, hp, hl], rfl,
        by simp [Bcast.soloWorld, Bcast.todo, hp, hl, ha]⟩
    | cons x rest =>
      obtain ⟨b', hb', -⟩ := Bcast.advance_of_solo_cons hs hl
      simp [hb'] at ha
  | @next w w' b b' r hp ha _ ih =>
    cases hl : (w.registry c.proc).liveFrom b.iter.pos with
    | nil => simp [Bcast.advance_of_solo_nil hs hl] at ha
    | cons x rest =>
      obtain ⟨b'', hb'', hm, hd, hp', hs', hrest⟩ := Bcast.advance_of_solo_cons hs hl
      rw [hb'', Advance.sending.injEq] at ha
      subst ha
      have ht : b''.todo (w.registry c.proc) = b.todo (w.registry c.proc) := by
        simp [Bcast.todo, hp, hp', hl, hrest]
      obtain ⟨oks, hlen, hr, hw⟩ := ih hs'
      exact ⟨oks, ht ▸ hlen, hr, hw.trans (Bcast.soloWorld_next ht hm hd oks)⟩

/-- Conversely, every outcome of the sends is a solo run of the loop. -/
theorem Loop.of_solo {c : Ctx} {w : World} {b : Bcast} (hs : b.Solo (w.registry c.proc))
    (oks : List Bool) (hlen : oks.length = (b.todo (w.registry c.proc)).length) :
    Loop c w b (b.soloWorld c w oks) (.ok ()) := by
  induction oks generalizing w b with
  | nil =>
    cases hp : b.pending with
    | some cl => simp [Bcast.todo, hp] at hlen
    | none =>
      have hl : (w.registry c.proc).liveFrom b.iter.pos = [] := by
        simpa [Bcast.todo, hp] using hlen.symm
      have ha := Bcast.advance_of_solo_nil hs hl
      convert Loop.finished hp ha using 1
      simp [Bcast.soloWorld, Bcast.todo, hp, hl]
  | cons ok oks ih =>
    have hsend : ∀ {b : Bcast} {cid ws : ℕ}, b.Solo (w.registry c.proc) →
        b.pending = some (cid, ws) → oks.length = ((w.registry c.proc).liveFrom b.iter.pos).length →
        Loop c w b (b.soloWorld c w (ok :: oks)) (.ok ()) := by
      intro b cid ws hs hp hlen
      rw [Bcast.soloWorld_send hp]
      refine .send ok hp (ih (by simpa using hs.sent ok) ?_)
      simpa [Bcast.todo] using hlen
    cases hp : b.pending with
    | some cl =>
      obtain ⟨cid, ws⟩ := cl
      exact hsend hs hp (by simpa [Bcast.todo, hp] using hlen)
    | none =>
      cases hl : (w.registry c.proc).liveFrom b.iter.pos with
      | nil => simp [Bcast.todo, hp, hl] at hlen
      | cons x rest =>
        obtain ⟨b', hb', hm, hd, hp', hs', hrest⟩ := Bcast.advance_of_solo_cons hs hl
        have ht : b'.todo (w.registry c.proc) = b.todo (w.registry c.proc) := by
          simp [Bcast.todo, hp, hp', hl, hrest]
        rw [← Bcast.soloWorld_next ht hm hd]
        exact .next hp hb' (hsend hs' hp' (by simpa [Bcast.todo, hp, hl, hrest] using hlen))

/-- The solo runs of a whole broadcast: one outcome per live connection. -/
theorem loop_init_iff {c : Ctx} {w w' : World} {m : JVal} {r : Except PyErr Unit} :
    Loop c w (Bcast.init (w.registry c.proc) m) w' r ↔
      ∃ oks : List Bool, oks.length = (w.registry c.proc).live.length ∧ r = .ok () ∧
        w' = (Bcast.init (w.registry c.proc) m).soloWorld c w oks := by
  constructor
  · intro h; simpa using h.solo (Bcast.solo_init _ m)
  · rintro ⟨oks, hlen, rfl, rfl⟩; exact .of_solo (Bcast.solo_init _ m) oks (by simpa using hlen)

/-! ### Effects run alone -/

section Effects

variable {c : Ctx} {β : Type} {w w' : World} {r : Except PyErr β}

/-- Re-raising the exception of an effect. -/
theorem exec_orRaise {α : Type} {f : α → Prog β} {x : Except PyErr α} :
    Exec c w (Prog.orRaise f x) w' r ↔ Exec.Cont c f w x w' r := by
  cases x <;> simp [Prog.orRaise, Exec.Cont]

theorem exec_call_bind {o : Op} {f : o.Reply → Prog β} :
    Exec c w ((Prog.call o).bind f) w' r ↔
      ∃ ok clock, Exec.Cont c f (w.perform c ok clock o).1 (w.perform c ok clock o).2 w' r := by
  simp only [Prog.call_bind, exec_op_iff]
  exact exists_congr fun _ => exists_congr fun _ => exec_orRaise

/-- A store or channel call that has no result to return fails and changes nothing, or
succeeds. -/
theorem exec_failable_bind {o : Op} {f : o.Reply → Prog β} {w₁ : World} {a : o.Reply}
    (hp : ∀ ok clock, w.perform c ok clock o =
      if ok then (w₁, .ok a) else (w, .error .connectionError)) :
    Exec c w ((Prog.call o).bind f) w' r ↔
      (w' = w ∧ r = .error .connectionError) ∨ Exec c w₁ (f a) w' r := by
  simp only [exec_call_bind, hp]
  constructor
  · rintro ⟨ok, -, h⟩; cases ok <;> simp_all [Exec.Cont]
  · rintro (⟨rfl, rfl⟩ | h)
    · exact ⟨false, 0, by simp [Exec.Cont]⟩
    · exact ⟨true, 0, h⟩

@[simp] theorem exec_redisGet_bind {key : String} {f : Option Bytes → Prog β} :
    Exec c w ((Prog.redisGet key).bind f) w' r ↔
      (w' = w ∧ r = .error .connectionError) ∨ Exec c w (f (w.store.lookup key)) w' r :=
  exec_failable_bind fun ok _ => by cases ok <;> rfl

@[simp] theorem exec_redisExists_bind {key : String} {f : Bool → Prog β} :
    Exec c w ((Prog.redisExists key).bind f) w' r ↔
      (w' = w ∧ r = .error .connectionError) ∨ Exec c w (f (decide (key ∈ w.store))) w' r :=
  exec_failable_bind fun ok _ => by cases ok <;> rfl

@[simp] theorem exec_redisKeys_bind {pattern : String} {f : List String → Prog β} :
    Exec c w ((Prog.redisKeys pattern).bind f) w' r ↔
      (w' = w ∧ r = .error .connectionError) ∨ Exec c w (f (w.matching pattern)) w' r :=
  exec_failable_bind fun ok _ => by cases ok <;> rfl

@[simp] theorem exec_redisSet_bind {key : String} {value : Bytes} {f : Unit → Prog β} :
    Exec c w ((Prog.redisSet key value).bind f) w' r ↔
      (w' = w ∧ r = .error .connectionError) ∨ Exec c (w.write c.tid key value) (f ()) w' r :=
  exec_failable_bind fun ok _ => by cases ok <;> rfl

@[simp] theorem exec_redisPublish_bind {channel : String} {payload : Bytes} {f : Unit → Prog β} :
    Exec c w ((Prog.redisPublish channel payload).bind f) w' r ↔
      (w' = w ∧ r = .error .connectionError) ∨
        Exec c (w.publish c.tid channel payload) (f ()) w' r :=
  exec_failable_bind fun ok _ => by cases ok <;> rfl

@[simp] theorem exec_now_bind {f : ℕ → Prog β} :
    Exec c w (Prog.now.bind f) w' r ↔ ∃ t, Exec c w (f t) w' r := by
  refine (exec_call_bind (o := .now)).trans ⟨fun ⟨_, t, h⟩ => ⟨t, h⟩, fun ⟨t, h⟩ => ⟨true, t, h⟩⟩

@[simp] theorem exec_liftExcept_bind {α : Type} {x : Except PyErr α} {f : α → Prog β} :
    Exec c w ((Prog.liftExcept x).bind f) w' r ↔ Exec.Cont c f w x w' r := by
  rw [Prog.liftExcept, Prog.orRaise_pure_bind, exec_orRaise]

/-- A broadcast run alone: one outcome per live connection, and then the rest. -/
@[simp] theorem exec_broadcast_bind {m : JVal} {f : Unit → Prog β} :
    Exec c w (.bcast m (Prog.orRaise f)) w' r ↔
      ∃ oks : List Bool, oks.length = (w.registry c.proc).live.length ∧
        Exec c ((Bcast.init (w.registry c.proc) m).soloWorld c w oks) (f ()) w' r := by
  simp only [exec_bcast_iff, loop_init_iff]
  constructor
  · rintro ⟨_, _, ⟨oks, hlen, rfl, rfl⟩, h⟩; exact ⟨oks, hlen, exec_orRaise.1 h⟩
  · rintro ⟨oks, hlen, h⟩; exact ⟨_, _, ⟨oks, hlen, rfl, rfl⟩, exec_orRaise.2 h⟩

end Effects

/-! ### Footprints -/

/-- The operations that only read: store reads and the clock. -/
def Op.Reads : Op → Prop
  | .get _ | .existsKey _ | .keys _ | .now => True
  | _ => False

/-- The operations of a control request confined to the keys `K` and the channels `C`:
reads and writes of keys in `K`, publishes on channels in `C`, and the clock. -/
def Op.Within (K C : String → Prop) : Op → Prop
  | .get key | .existsKey key | .set key _ => K key
  | .publish channel _ => C channel
  | .now => True
  | _ => False

/-- A coroutine that only reads and never broadcasts leaves the world as it is. -/
theorem Exec.eq_of_reads {c : Ctx} {α : Type} {w w' : World} {p : Prog α} {r : Except PyErr α}
    (hp : p.All Op.Reads fun _ => False) (h : Exec c w p w' r) : w' = w := by
  induction h with
  | pure | raise => rfl
  | @op w w' o k r ok clock _ ih =>
    cases hp with
    | op ho hk =>
      have hw : (w.perform c ok clock o).1 = w := by
        cases o <;> first | rfl | exact ho.elim
      exact (ih (hk _)).trans hw
  | bcast => cases hp with | bcast hm _ => exact hm.elim

/-- A solo run returns only what every path of the coroutine returns. -/
theorem Exec.returns {c : Ctx} {α : Type} {Q : α → Prop} {w w' : World} {p : Prog α} {a : α}
    (hp : p.Returns Q) (h : Exec c w p w' (.ok a)) : Q a := by
  generalize hr : (Except.ok a : Except PyErr α) = r at h
  induction h with
  | pure => cases hr; cases hp with | pure ha => exact ha
  | raise => cases hr
  | op _ _ _ ih => cases hp with | op hk => exact ih (hk _) hr
  | bcast _ _ ih => cases hp with | bcast hk => exact ih (hk _) hr

/-- **The frame of a confined coroutine**: a solo run changes no key outside `K` and
only appends publishes on channels in `C`. -/
theorem Exec.frame {c : Ctx} {α : Type} {K C : String → Prop} {w w' : World} {p : Prog α}
    {r : Except PyErr α} (hp : p.All (Op.Within K C) fun _ => True) (h : Exec c w p w' r) :
    (∀ key, ¬ K key → w'.store.lookup key = w.store.lookup key) ∧
      ∃ new, w'.published = w.published ++ new ∧ ∀ e ∈ new, C e.2.1 := by
  induction h with
  | pure | raise => exact ⟨fun _ _ => rfl, [], by simp, by simp⟩
  | @op w w' o k r ok clock _ ih =>
    cases hp with
    | op ho hk =>
      obtain ⟨hs, new, hn, hc⟩ := ih (hk _)
      cases o <;> simp only [Op.Within] at ho <;> cases ok <;>
        simp only [World.perform, if_true, if_false, Bool.false_eq_true, World.write_store,
          World.write_published, World.publish_store, World.publish_published] at hs hn ⊢
      case set.true =>
        exact ⟨fun k' hk' => (hs k' hk').trans (AList.lookup_insert_ne fun h => hk' (h ▸ ho)),
          new, hn, hc⟩
      case publish.true =>
        refine ⟨hs, _ :: new, by rw [hn, List.append_assoc]; rfl, fun e he => ?_⟩
        rcases List.mem_cons.1 he with rfl | he
        exacts [ho, hc e he]
      all_goals exact ⟨hs, new, hn, hc⟩
  | @bcast w w₁ w' m k r₁ r hl _ ih =>
    cases hp with
    | bcast _ hk =>
      obtain ⟨oks, -, -, rfl⟩ := loop_init_iff.1 hl
      simpa using ih (hk _)

/-! ### Single-thread runs of the scheduler -/

/-- The thread runs a route or its broadcast, not a relay. -/
def Task.IsRoute : Task → Prop
  | .run _ | .bcast _ _ => True
  | _ => False

/-- What a route thread of `c` still does when it runs alone from `w`. -/
def Task.Solo (c : Ctx) (w : World) : Task → World → Except PyErr Response → Prop
  | .run p, w', r => Exec c w p w' r
  | .bcast b k, w', r => ∃ w₁ r₁, Loop c w b w₁ r₁ ∧ Exec c w₁ (k r₁) w' r
  | _, _, _ => False

/-- A resumption of the broadcast loop is a first step of its solo run. -/
theorem Task.solo_of_advance {c : Ctx} {w w' : World} {b : Bcast}
    {k : Except PyErr Unit → Prog Response} {r : Except PyErr Response} (hp : b.pending = none)
    (h : (resumeBcast k (Bcast.advance (w.registry c.proc) b)).Solo c
      (w.afterAdvance c.proc (Bcast.advance (w.registry c.proc) b)) w' r) :
    ∃ w₁ r₁, Loop c w b w₁ r₁ ∧ Exec c w₁ (k r₁) w' r := by
  generalize ha : Bcast.advance (w.registry c.proc) b = a at h
  cases a with
  | raised e => exact ⟨w, _, .raised hp ha, h⟩
  | finished reg => exact ⟨_, _, .finished hp ha, h⟩
  | sending b' => obtain ⟨w₁, r₁, hl, he⟩ := h; exact ⟨w₁, r₁, .next hp ha hl, he⟩

theorem Task.isRoute_resumeBcast (k : Except PyErr Unit → Prog Response) (a : Advance) :
    (resumeBcast k a).IsRoute := by
  cases a <;> trivial

/-- **One step of a route thread** that spawns nothing keeps it a route thread, and a
solo run from after the step is a solo run from before it. -/
theorem Thread.step_solo {w : World} {tid : ℕ} {th : Thread} {ok : Bool} {clock : ℕ}
    (hr : th.task.IsRoute) (hs : (th.step w tid ok clock).2.2 = []) :
    (th.step w tid ok clock).2.1.IsRoute ∧ ∀ w' r,
      (th.step w tid ok clock).2.1.Solo ⟨tid, th.proc, th.ws⟩ (th.step w tid ok clock).1 w' r →
        th.task.Solo ⟨tid, th.proc, th.ws⟩ w w' r := by
  obtain ⟨proc, ws, task⟩ := th
  cases task with
  | run p =>
    cases p with
    | pure a => exact ⟨trivial, fun _ _ h => h⟩
    | raise e => exact ⟨trivial, fun _ _ h => h⟩
    | op o k =>
      cases o <;> simp only [Thread.step, stepOp] at hs ⊢
      all_goals first
        | exact ⟨trivial, fun _ _ h => .op ok clock h⟩
        | simp at hs
        | cases ok
      all_goals first
        | exact ⟨trivial, fun _ _ h => .op false clock h⟩
        | exact ⟨trivial, fun _ _ h => h⟩
    | bcast m k =>
      refine ⟨Task.isRoute_resumeBcast _ _, fun w' r h => ?_⟩
      obtain ⟨w₁, r₁, hl, he⟩ := Task.solo_of_advance (c := ⟨tid, proc, ws⟩) rfl h
      exact .bcast hl he
  | bcast b k =>
    simp only [Thread.step] at hs ⊢
    cases hp : b.pending with
    | some cl =>
      obtain ⟨cid, ws'⟩ := cl
      exact ⟨trivial, fun w' r ⟨w₁, r₁, hl, he⟩ => ⟨w₁, r₁, .send ok hp hl, he⟩⟩
    | none => exact ⟨Task.isRoute_resumeBcast _ _, fun w' r h => Task.solo_of_advance hp h⟩
  | relay _ | relaySend _ _ _ => exact hr.elim

namespace Sys

theorem length_le_step (s : Sys) (ch : Choice) : s.threads.length ≤ (s.step ch).threads.length := by
  rcases step_cases s ch with he | ⟨th, hr⟩
  · rw [he]
  · rw [step_of_resumes hr]
    simp

@[simp] theorem run_append (s : Sys) (cs cs' : List Choice) :
    s.run (cs ++ cs') = (s.run cs).run cs' :=
  List.foldl_append _ _ _ _

theorem length_le_run (s : Sys) (cs : List Choice) :
    s.threads.length ≤ (s.run cs).threads.length := by
  induction cs generalizing s with
  | nil => exact le_rfl
  | cons ch cs ih => exact (length_le_step s ch).trans (ih _)

/-- **Single-thread runs of the scheduler are solo runs.** If a route thread runs alone
under any choices and is still alone at the end, every solo run of what it has left is
the end of a solo run of the whole route. -/
theorem run_solo {s : Sys} {th : Thread} (hs : s.threads = [th]) (hr : th.task.IsRoute)
    (cs : List Choice) {th' : Thread} (h : (s.run cs).threads = [th']) {w' : World}
    {r : Except PyErr Response} (hf : th'.task.Solo ⟨0, th'.proc, th'.ws⟩ (s.run cs).world w' r) :
    th.task.Solo ⟨0, th.proc, th.ws⟩ s.world w' r := by
  induction cs generalizing s th with
  | nil => rw [run_nil, hs, List.cons.injEq] at h; obtain ⟨rfl, -⟩ := h; exact hf
  | cons ch cs ih =>
    rw [run_cons] at h hf
    rcases step_cases s ch with hst | ⟨th₀, hc⟩
    · rw [hst] at h hf
      exact ih hs hr h hf
    have hlen : (s.step ch).threads.length = 1 := by
      have h1 := length_le_run (s.step ch) cs
      have h2 := length_le_step s ch
      rw [h] at h1; rw [hs] at h2
      simp only [List.length_cons, List.length_nil] at h1 h2
      omega
    obtain ⟨hi, rfl⟩ : ch.thread = 0 ∧ th = th₀ := by
      have h₁ := hc.1
      rw [hs] at h₁
      rcases hi : ch.thread with _ | i <;> rw [hi] at h₁ <;> simp at h₁
      exact ⟨rfl, h₁⟩
    have hst : s.step ch = ⟨(th.step s.world 0 ch.ok ch.clock).1,
        [{ th with task := (th.step s.world 0 ch.ok ch.clock).2.1 }] ++
          (th.step s.world 0 ch.ok ch.clock).2.2⟩ := by
      rw [step_of_resumes hc, hs, hi]
      rfl
    rw [hst] at hlen h hf
    have hsp : (th.step s.world 0 ch.ok ch.clock).2.2 = [] := by simpa using hlen
    obtain ⟨hr', hback⟩ := Thread.step_solo hr hsp
    rw [hsp, List.append_nil] at h hf
    exact hback _ _ (ih rfl hr' h hf)

/-- A single route thread that the scheduler has taken alone, under the choices `cs`, to
a returned or raised route, or to any remaining coroutine `q`, ran a solo run of the
route. -/
theorem exec_of_run {w w'' : World} {proc ws proc' ws' : ℕ} {p q : Prog Response}
    {r : Except PyErr Response} (cs : List Choice)
    (hq : Exec ⟨0, proc', ws'⟩ (Sys.run ⟨w, [⟨proc, ws, .run p⟩]⟩ cs).world q w'' r)
    (h : (Sys.run ⟨w, [⟨proc, ws, .run p⟩]⟩ cs).threads = [⟨proc', ws', .run q⟩]) :
    Exec ⟨0, proc, ws⟩ w p w'' r :=
  run_solo (s := ⟨w, [⟨proc, ws, .run p⟩]⟩) rfl trivial cs h hq

/-! ### Solo runs are lone runs of the scheduler -/

/-- A step of the lone thread of a deployment that spawns nothing. -/
theorem step_single {w : World} {th : Thread} {ch : Choice} (hch : ch.thread = 0)
    (hb : ch.blocked = false) (hs : (th.step w 0 ch.ok ch.clock).2.2 = []) :
    Sys.step ⟨w, [th]⟩ ch =
      ⟨(th.step w 0 ch.ok ch.clock).1, [{ th with task := (th.step w 0 ch.ok ch.clock).2.1 }]⟩ := by
  have h : Sys.Resumes ⟨w, [th]⟩ ch th := ⟨by rw [hch]; rfl, by rw [hb]; rfl⟩
  rw [step_of_resumes h, hch, hs, List.append_nil]
  rfl

/-- A step of the lone thread running its broadcast loop does what the loop's next rule
does. -/
theorem run_of_loop {proc ws : ℕ} {w w' : World} {b : Bcast} {r : Except PyErr Unit}
    (h : Loop ⟨0, proc, ws⟩ w b w' r) (k : Except PyErr Unit → Prog Response) :
    ∃ cs, Sys.run ⟨w, [⟨proc, ws, .bcast b k⟩]⟩ cs = ⟨w', [⟨proc, ws, .run (k r)⟩]⟩ := by
  induction h with
  | @send w w' b r cid ws' ok hp _ ih =>
    obtain ⟨cs, hcs⟩ := ih
    refine ⟨⟨0, ok, 0, false⟩ :: cs, ?_⟩
    rw [run_cons, step_single rfl rfl (by simp only [Thread.step, hp])]
    simpa only [Thread.step, hp] using hcs
  | raised hp ha =>
    refine ⟨[⟨0, true, 0, false⟩], ?_⟩
    rw [run_cons, step_single rfl rfl (by simp only [Thread.step, hp])]
    simp only [Thread.step, hp, ha]
    rfl
  | finished hp ha =>
    refine ⟨[⟨0, true, 0, false⟩], ?_⟩
    rw [run_cons, step_single rfl rfl (by simp only [Thread.step, hp])]
    simp only [Thread.step, hp, ha]
    rfl
  | @next w w' b b' r hp ha _ ih =>
    obtain ⟨cs, hcs⟩ := ih
    refine ⟨⟨0, true, 0, false⟩ :: cs, ?_⟩
    rw [run_cons, step_single rfl rfl (by simp only [Thread.step, hp])]
    simpa only [Thread.step, hp, ha] using hcs

/-- A step of a route coroutine performs its effect as a solo run does, with the same
choice, or, for a `receive`, a failing one. -/
theorem Thread.step_perform (w : World) (tid proc ws : ℕ) {o : Op}
    (ho : ∀ j, o ≠ .spawnRelay j) (k : Except PyErr o.Reply → Prog Response) (ok : Bool)
    (clock : ℕ) : ∃ ok', Thread.step w tid ⟨proc, ws, .run (.op o k)⟩ ok' clock =
      ((w.perform ⟨tid, proc, ws⟩ ok clock o).1,
        .run (k (w.perform ⟨tid, proc, ws⟩ ok clock o).2), []) := by
  cases o
  case receive => exact ⟨false, rfl⟩
  case spawnRelay j => exact (ho j rfl).elim
  all_goals exact ⟨ok, by cases ok <;> rfl⟩

/-- **Solo runs are lone runs of the scheduler.** Every solo run of a coroutine that starts
no relay is a run of the scheduler with that coroutine alone, which ends with it returned
or raised as the solo run ends. -/
theorem run_of_exec {proc ws : ℕ} {w w' : World} {p : Prog Response}
    {r : Except PyErr Response} (hp : p.All (fun o => ∀ j, o ≠ .spawnRelay j) fun _ => True)
    (h : Exec ⟨0, proc, ws⟩ w p w' r) :
    ∃ cs, Sys.run ⟨w, [⟨proc, ws, .run p⟩]⟩ cs = ⟨w', [⟨proc, ws, .run (liftExcept r)⟩]⟩ := by
  induction h with
  | pure | raise => exact ⟨[], rfl⟩
  | @op w w' o k r ok clock _ ih =>
    cases hp with
    | op ho hk =>
      obtain ⟨ok', hs⟩ := Thread.step_perform w 0 proc ws ho k ok clock
      obtain ⟨cs, hcs⟩ := ih (hk _)
      refine ⟨⟨0, ok', clock, false⟩ :: cs, ?_⟩
      rw [run_cons, step_single rfl rfl (by rw [hs])]
      simpa only [hs] using hcs
  | @bcast w w₁ w' m k r₁ r hl _ ih =>
    cases hp with
    | bcast _ hk =>
      obtain ⟨cs, hcs⟩ := ih (hk _)
      -- the entry of the loop is its first resumption
      have hentry : ∀ (a : Advance) (hw : Bcast.start (w.registry proc) m = a),
          Sys.step ⟨w, [⟨proc, ws, .run (.bcast m k)⟩]⟩ ⟨0, true, 0, false⟩ =
            ⟨w.afterAdvance proc a, [⟨proc, ws, resumeBcast k a⟩]⟩ := by
        intro a ha
        rw [step_single rfl rfl (by rfl)]
        simp only [Thread.step, ha]
      cases hl with
      | send _ hp => cases hp
      | raised _ ha => exact ⟨⟨0, true, 0, false⟩ :: cs, by rw [run_cons, hentry _ ha]; exact hcs⟩
      | finished _ ha => exact ⟨⟨0, true, 0, false⟩ :: cs, by rw [run_cons, hentry _ ha]; exact hcs⟩
      | next _ ha hl =>
        obtain ⟨cs', hcs'⟩ := run_of_loop hl k
        exact ⟨⟨0, true, 0, false⟩ :: (cs' ++ cs), by rw [run_cons, hentry _ ha, run_append]; exact
          hcs' ▸ hcs⟩

end Sys

end AgentControl
