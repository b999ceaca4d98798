import Mathlib.Data.Nat.Digits
import Mathlib.Data.List.Nodup
import Mathlib.Tactic.Ring

/-!
# The Simple Arbitrage Strategy

`SimpleArbitrageStrategy` of `noderr_python/strategy/arbitrage.py`, a state machine driven
by two kinds of call in any order: `analyze` on market data, which may emit a buy signal for
the first leg of an arbitrage, and `on_execution_result` on the outcome of an order.

The base classes (`BaseStrategy`, `MarketData`, `Signal`, `ExecutionResult`) live in
`strategy/base.py`, which is not among the sources. The model keeps the fields this file
reads and writes, takes `result.is_successful()` as a field of the result, and leaves out
`super().on_execution_result(result)`. Prices, spreads, sizes, latencies and profits are
Python floats, modelled by `Float`; `np.random.random()` and `datetime.now()` are inputs of
the call. A call that raises keeps whatever it had already written to `self.state`.

## Main results

* `run_signals`: **over any sequence of calls from any state, `trades_count`,
  `opportunities_found` and `opportunities_executed` all advance by the number of signals
  emitted, and the signals carry the pair ids `arb_n`, `arb_(n+1)`, …**, so no two signals
  share a pair id.
* `run_bookkeeping`: `execution_times` holds the last 50 latencies, `successful_arbs`
  counts the completed pairs, and `total_profit` is the running sum of their profits.
-/

namespace AgentControl

namespace Arbitrage

/-! ### Values, inputs and state -/

/-- A value of a metadata `dict`: a string, a number, or anything else. -/
inductive PyVal where
  | str (s : String)
  | num (x : Float)
  | other

/-- `v == s` for a string `s`: only a string can equal it. -/
def PyVal.eqStr (s : String) : PyVal → Bool
  | .str t => t == s
  | _ => false

/-- `MarketData`, as `analyze` reads it: the symbol, and the quote fields of each
exchange (`metadata[exchange]["price"]`). -/
structure MarketData where
  symbol : String
  metadata : List (String × List (String × Float))

/-- `ExecutionResult`, as `on_execution_result` reads it; `successful` is
`result.is_successful()`. -/
structure ExecutionResult where
  latencyMs : Float
  successful : Bool
  metadata : List (String × PyVal)

/-- The parameters of the strategy, with the defaults of `__init__`. -/
structure Params where
  strategyId : String
  exchange1 : String
  exchange2 : String
  minSpreadPct : Float := 0.5
  maxPositionSize : Float := 1.0
  slippageTolerancePct : Float := 0.1

/-- The buy `Signal` of an arbitrage's first leg; the last five fields are its
`parameters`. -/
structure Signal where
  strategyId : String
  timestamp : ℕ
  symbol : String
  action : String
  quantity : Float
  priceLimit : Option Float
  urgency : Float
  exchange : String
  pairTradeId : String
  tradeType : String
  plannedSellExchange : String
  spreadPct : Float

/-- `self.state`, but for `positions`, which nothing reads or writes. -/
structure State where
  tradesCount : ℕ
  successfulArbs : ℕ
  totalProfit : Float
  lastSpread : Float
  opportunitiesFound : ℕ
  opportunitiesExecuted : ℕ
  executionTimes : List Float

/-- The state `__init__` sets. -/
def State.init : State := ⟨0, 0, 0.0, 0.0, 0, 0, []⟩

/-- What a call raises. -/
inductive ArbError where
  /-- `ZeroDivisionError`: a price of zero. -/
  | zeroDivisionError
  /-- `TypeError`: a profit that is not a number. -/
  | typeError

/-- Python's `min(a, b)`: `a`, unless `b < a`. -/
def pyMin (a b : Float) : Float := if b < a then b else a

/-- `f"arb_{n}"`. -/
def pairId (n : ℕ) : String := "arb_" ++ toString n

/-! ### The two calls -/

/-- `analyze(market_data)`; `now` is `datetime.now()` and `random` is `np.random.random()`. -/
def analyze (p : Params) (st : State) (md : MarketData) (now : ℕ) (random : Float) :
    Except ArbError (Option Signal × State) :=
  match (md.metadata.lookup p.exchange1).bind (·.lookup "price"),
      (md.metadata.lookup p.exchange2).bind (·.lookup "price") with
  | some price1, some price2 =>
    if pyMin price1 price2 == 0 then .error .zeroDivisionError
    else
      let spreadPct := (price1 - price2).abs / pyMin price1 price2 * 100
      let st := { st with lastSpread := spreadPct }
      if spreadPct ≥ p.minSpreadPct then
        let st := { st with opportunitiesFound := st.opportunitiesFound + 1 }
        let buyExchange := if price1 < price2 then p.exchange1 else p.exchange2
        let sellExchange := if price1 < price2 then p.exchange2 else p.exchange1
        let positionSize := p.maxPositionSize * (0.9 + 0.2 * random)
        let signal : Signal := ⟨p.strategyId, now, md.symbol, "BUY", positionSize, none, 0.9,
          buyExchange, pairId st.tradesCount, "arbitrage_leg1", sellExchange, spreadPct⟩
        let st := { st with tradesCount := st.tradesCount + 1 }
        let st := { st with opportunitiesExecuted := st.opportunitiesExecuted + 1 }
        .ok (some signal, st)
      else .ok (none, st)
  | _, _ => .ok (none, st)

/-- The first leg of a pair both of whose legs completed: what `on_execution_result`
counts in `successful_arbs`. -/
def ExecutionResult.completesPair (r : ExecutionResult) : Bool :=
  r.successful &&
    ((r.metadata.lookup "trade_type").map (PyVal.eqStr "arbitrage_leg1")).getD false &&
    ((r.metadata.lookup "second_leg_result").map (PyVal.eqStr "success")).getD false

/-- `on_execution_result(result)`: the state it leaves, and what it raised, if anything. -/
def onExecutionResult (st : State) (result : ExecutionResult) : State × Option ArbError :=
  let times := st.executionTimes ++ [result.latencyMs]
  let kept := if times.length > 50 then times.drop (times.length - 50) else times
  let st := { st with executionTimes := kept }
  if result.successful && ((result.metadata.lookup "trade_type").map
      (PyVal.eqStr "arbitrage_leg1")).getD false then
    if ((result.metadata.lookup "second_leg_result").map (PyVal.eqStr "success")).getD false then
      let st := { st with successfulArbs := st.successfulArbs + 1 }
      match (result.metadata.lookup "profit").getD (.num 0.0) with
      | .num profit => ({ st with totalProfit := st.totalProfit + profit }, none)
      | _ => (st, some .typeError)
    else (st, none)
  else (st, none)

/-! ### Runs -/

/-- A call to the strategy. -/
inductive Event where
  | marketData (md : MarketData) (now : ℕ) (random : Float)
  | result (r : ExecutionResult)

/-- One call: the state after it, and the signal it returned. -/
def step (p : Params) (st : State) : Event → State × Option Signal
  | .marketData md now random =>
    match analyze p st md now random with
    | .ok r => r.swap
    | .error _ => (st, none)
  | .result r => ((onExecutionResult st r).1, none)

/-- A sequence of calls: the final state, and the signals returned, in order. -/
def run (p : Params) : State → List Event → State × List Signal
  | st, [] => (st, [])
  | st, e :: es =>
    ((run p (step p st e).1 es).1, (step p st e).2.toList ++ (run p (step p st e).1 es).2)

/-- The latencies of the results among the calls. -/
def latencies : List Event → List Float :=
  List.filterMap fun | .result r => some r.latencyMs | _ => none

/-- The results among the calls that complete a pair. -/
def completed : List Event → List ExecutionResult :=
  List.filterMap fun | .result r => if r.completesPair then some r else none | _ => none

/-- The profit a completed pair adds to `total_profit`, if it is a number. -/
def ExecutionResult.profit (r : ExecutionResult) : Option Float :=
  match (r.metadata.lookup "profit").getD (.num 0.0) with
  | .num x => some x
  | _ => none

/-! ### Counters and pair ids -/

/-- What `analyze` changes: the counters advance by the signal it returns, which carries
the pair id of the current `trades_count`; the bookkeeping of results is left alone. -/
theorem analyze_ok {p : Params} {st st' : State} {md : MarketData} {now : ℕ} {random : Float}
    {sig : Option Signal} (h : analyze p st md now random = .ok (sig, st')) :
    st'.tradesCount = st.tradesCount + sig.toList.length ∧
    st'.opportunitiesFound = st.opportunitiesFound + sig.toList.length ∧
    st'.opportunitiesExecuted = st.opportunitiesExecuted + sig.toList.length ∧
    sig.toList.map (·.pairTradeId) = (List.range' st.tradesCount sig.toList.length).map pairId ∧
    st'.executionTimes = st.executionTimes ∧ st'.successfulArbs = st.successfulArbs ∧
    st'.totalProfit = st.totalProfit := by
  unfold analyze at h
  split at h
  · next price1 price2 _ _ =>
    cases hz : pyMin price1 price2 == 0
    · by_cases hs : (price1 - price2).abs / pyMin price1 price2 * 100 ≥ p.minSpreadPct <;>
        simp only [hz, hs, Bool.false_eq_true, ↓reduceIte, Except.ok.injEq, Prod.mk.injEq] at h <;>
        obtain ⟨rfl, rfl⟩ := h <;> simp
    · simp [hz] at h
  · simp only [Except.ok.injEq, Prod.mk.injEq] at h
    obtain ⟨rfl, rfl⟩ := h
    simp

theorem onExecutionResult_counters (st : State) (r : ExecutionResult) :
    (onExecutionResult st r).1.tradesCount = st.tradesCount ∧
    (onExecutionResult st r).1.opportunitiesFound = st.opportunitiesFound ∧
    (onExecutionResult st r).1.opportunitiesExecuted = st.opportunitiesExecuted := by
  unfold onExecutionResult
  split_ifs <;> (try split) <;> exact ⟨rfl, rfl, rfl⟩

/-- One call: the counters advance by the signal it returns, which carries the pair id of
the current `trades_count`. -/
theorem step_counters (p : Params) (st : State) (e : Event) :
    (step p st e).1.tradesCount = st.tradesCount + (step p st e).2.toList.length ∧
    (step p st e).1.opportunitiesFound = st.opportunitiesFound + (step p st e).2.toList.length ∧
    (step p st e).1.opportunitiesExecuted =
      st.opportunitiesExecuted + (step p st e).2.toList.length ∧
    (step p st e).2.toList.map (·.pairTradeId) =
      (List.range' st.tradesCount (step p st e).2.toList.length).map pairId := by
  cases e with
  | marketData md now random =>
    simp only [step]
    split
    · next r hr => obtain ⟨a, b, c, d, -⟩ := analyze_ok hr; exact ⟨a, b, c, d⟩
    · simp
  | result r =>
    obtain ⟨a, b, c⟩ := onExecutionResult_counters st r
    simp [step, a, b, c]

/-- The counters and the pair ids over any sequence of calls. -/
theorem run_counters (p : Params) (st : State) (es : List Event) :
    (run p st es).1.tradesCount = st.tradesCount + (run p st es).2.length ∧
    (run p st es).1.opportunitiesFound = st.opportunitiesFound + (run p st es).2.length ∧
    (run p st es).1.opportunitiesExecuted = st.opportunitiesExecuted + (run p st es).2.length ∧
    (run p st es).2.map (·.pairTradeId) =
      (List.range' st.tradesCount (run p st es).2.length).map pairId := by
  induction es generalizing st with
  | nil => simp [run]
  | cons e es ih =>
    obtain ⟨h₁, h₂, h₃, h₄⟩ := ih (step p st e).1
    obtain ⟨s₁, s₂, s₃, s₄⟩ := step_counters p st e
    simp only [run, List.length_append, List.map_append, h₁, h₂, h₃, h₄, s₁, s₂, s₃, s₄]
    refine ⟨by omega, by omega, by omega, ?_⟩
    rw [← List.map_append, List.range'_append_1, Nat.add_comm]

/-- `str(n)` reads back: the value of the decimal digits `Nat.toDigits` writes. -/
def decimalValue (ds : List Char) : ℕ := ds.foldl (fun a c => a * 10 + (c.toNat - 48)) 0

theorem foldl_decimal (a : ℕ) (ds : List Char) :
    ds.foldl (fun a c => a * 10 + (c.toNat - 48)) a = a * 10 ^ ds.length + decimalValue ds := by
  induction ds generalizing a with
  | nil => simp [decimalValue]
  | cons c ds ih =>
    simp only [List.foldl_cons, decimalValue, List.length_cons] at ih ⊢
    rw [ih, ih (0 * 10 + (c.toNat - 48)), Nat.pow_succ]
    ring

theorem decimalValue_toDigitsCore (fuel n : ℕ) (ds : List Char) (hn : n < fuel) :
    decimalValue (Nat.toDigitsCore 10 fuel n ds) = n * 10 ^ ds.length + decimalValue ds := by
  have hdigit : ∀ d < 10, (Nat.digitChar d).toNat - 48 = d := by decide
  have hcons : ∀ d ds, d < 10 →
      decimalValue (Nat.digitChar d :: ds) = d * 10 ^ ds.length + decimalValue ds := by
    intro d ds hd
    rw [decimalValue, List.foldl_cons, foldl_decimal, hdigit d hd]
    simp
  induction fuel generalizing n ds with
  | zero => omega
  | succ fuel ih =>
    simp only [Nat.toDigitsCore]
    split
    · next h0 =>
      rw [hcons _ _ (Nat.mod_lt _ (by omega)), Nat.mod_eq_of_lt (by omega)]
    · next h0 =>
      rw [ih _ _ (by omega), hcons _ _ (Nat.mod_lt _ (by omega)), List.length_cons, Nat.pow_succ]
      conv_rhs => rw [← Nat.div_add_mod n 10]
      ring

/-- Decimal notation is injective. -/
theorem toString_injective : Function.Injective (toString : ℕ → String) := by
  intro m n h
  have hv : ∀ k : ℕ, decimalValue (toString k).data = k := fun k => by
    simpa using decimalValue_toDigitsCore (k + 1) k [] (by omega)
  rw [← hv m, ← hv n, h]

theorem pairId_injective : Function.Injective pairId := fun _ _ h =>
  toString_injective (String.ext (List.append_cancel_left (congrArg String.data h)))

/-- **The counters and the pair ids over any sequence of calls.** From any state, whatever
the market data, the results and the order of the calls, `trades_count`,
`opportunities_found` and `opportunities_executed` each advance by the number of signals
returned; the signals carry the pair ids `arb_n`, `arb_(n+1)`, … from the starting
`trades_count` `n` on; so no two of them share a pair id. -/
theorem run_signals (p : Params) (st : State) (es : List Event) :
    (run p st es).1.tradesCount = st.tradesCount + (run p st es).2.length ∧
    (run p st es).1.opportunitiesFound = st.opportunitiesFound + (run p st es).2.length ∧
    (run p st es).1.opportunitiesExecuted = st.opportunitiesExecuted + (run p st es).2.length ∧
    (run p st es).2.map (·.pairTradeId) =
      (List.range' st.tradesCount (run p st es).2.length).map pairId ∧
    ((run p st es).2.map (·.pairTradeId)).Nodup := by
  obtain ⟨h₁, h₂, h₃, h₄⟩ := run_counters p st es
  exact ⟨h₁, h₂, h₃, h₄, h₄ ▸ List.Nodup.map pairId_injective (List.nodup_range' _ _)⟩

/-! ### The bookkeeping of results -/

/-- What `on_execution_result` records: the latency, kept among the last 50; and, for a
pair whose legs both completed, one more successful arbitrage and its profit, if that is a
number (otherwise `+=` raises `TypeError`, after the count). -/
theorem onExecutionResult_bookkeeping (st : State) (r : ExecutionResult) :
    (onExecutionResult st r).1.executionTimes = (st.executionTimes ++ [r.latencyMs]).drop
      ((st.executionTimes ++ [r.latencyMs]).length - 50) ∧
    (onExecutionResult st r).1.successfulArbs =
      st.successfulArbs + (if r.completesPair then 1 else 0) ∧
    (onExecutionResult st r).1.totalProfit =
      (if r.completesPair then r.profit else none).toList.foldl (· + ·) st.totalProfit := by
  have htimes : (if (st.executionTimes ++ [r.latencyMs]).length > 50 then
      (st.executionTimes ++ [r.latencyMs]).drop ((st.executionTimes ++ [r.latencyMs]).length - 50)
      else st.executionTimes ++ [r.latencyMs]) = (st.executionTimes ++ [r.latencyMs]).drop
        ((st.executionTimes ++ [r.latencyMs]).length - 50) := by
    split
    · rfl
    · rw [Nat.sub_eq_zero_of_le (by omega), List.drop_zero]
  unfold onExecutionResult ExecutionResult.completesPair ExecutionResult.profit
  simp only [htimes]
  cases h₁ : (r.successful && ((r.metadata.lookup "trade_type").map
      (PyVal.eqStr "arbitrage_leg1")).getD false) <;>
    cases h₂ : ((r.metadata.lookup "second_leg_result").map (PyVal.eqStr "success")).getD false <;>
    simp only [h₁, h₂, Bool.false_and, Bool.true_and, Bool.false_eq_true, ↓reduceIte] <;>
    (try split) <;> simp

/-- The last 50 of a history, then one more, are the last 50 of the longer history. -/
theorem drop_window {α : Type} (H : List α) (x : α) :
    (H.drop (H.length - 50) ++ [x]).drop ((H.drop (H.length - 50) ++ [x]).length - 50) =
      (H ++ [x]).drop ((H ++ [x]).length - 50) := by
  rw [← List.drop_append_of_le_length (Nat.sub_le _ _), List.drop_drop]
  congr 1
  simp only [List.length_drop, List.length_append, List.length_singleton]
  omega

/-- `analyze` leaves the bookkeeping of results alone, also when it raises. -/
theorem step_marketData_bookkeeping (p : Params) (st : State) (md : MarketData) (now : ℕ)
    (random : Float) :
    (step p st (.marketData md now random)).1.executionTimes = st.executionTimes ∧
    (step p st (.marketData md now random)).1.successfulArbs = st.successfulArbs ∧
    (step p st (.marketData md now random)).1.totalProfit = st.totalProfit := by
  simp only [step]
  split
  · next r hr => obtain ⟨-, -, -, -, h₅, h₆, h₇⟩ := analyze_ok hr; exact ⟨h₅, h₆, h₇⟩
  · exact ⟨rfl, rfl, rfl⟩

/-- **The bookkeeping of results over any sequence of calls.** From any state that keeps at
most 50 execution times: `execution_times` holds the last 50 of those times followed by the
latencies of every result since; `successful_arbs` has grown by the number of results that
complete a pair; and `total_profit` has added, in order, the profit of each of them whose
profit is a number. -/
theorem run_bookkeeping (p : Params) {st : State} (h50 : st.executionTimes.length ≤ 50)
    (es : List Event) :
    (run p st es).1.executionTimes = (st.executionTimes ++ latencies es).drop
      ((st.executionTimes ++ latencies es).length - 50) ∧
    (run p st es).1.successfulArbs = st.successfulArbs + (completed es).length ∧
    (run p st es).1.totalProfit =
      ((completed es).filterMap ExecutionResult.profit).foldl (· + ·) st.totalProfit := by
  suffices h : ∀ (H : List Float) (st : State), st.executionTimes = H.drop (H.length - 50) →
      (run p st es).1.executionTimes = (H ++ latencies es).drop ((H ++ latencies es).length - 50) ∧
      (run p st es).1.successfulArbs = st.successfulArbs + (completed es).length ∧
      (run p st es).1.totalProfit =
        ((completed es).filterMap ExecutionResult.profit).foldl (· + ·) st.totalProfit from
    h _ st (by rw [Nat.sub_eq_zero_of_le h50, List.drop_zero])
  induction es with
  | nil => intro H st hH; simp [run, latencies, completed, hH]
  | cons e es ih =>
    intro H st hH
    cases e with
    | marketData md now random =>
      obtain ⟨s₁, s₂, s₃⟩ := step_marketData_bookkeeping p st md now random
      obtain ⟨h₁, h₂, h₃⟩ := ih H _ (s₁.trans hH)
      simp only [run, latencies, completed, List.filterMap_cons] at h₁ h₂ h₃ ⊢
      exact ⟨h₁, h₂.trans (by rw [s₂]), h₃.trans (by rw [s₃])⟩
    | result r =>
      obtain ⟨t₁, t₂, t₃⟩ := onExecutionResult_bookkeeping st r
      obtain ⟨h₁, h₂, h₃⟩ := ih (H ++ [r.latencyMs]) _ (t₁.trans (by rw [hH, drop_window]))
      simp only [run, step, latencies, completed, List.filterMap_cons] at h₁ h₂ h₃ ⊢
      refine ⟨by simpa using h₁, ?_, ?_⟩
      · rw [h₂, t₂]
        split <;> simp [Nat.add_assoc, Nat.add_comm]
      · rw [h₃, t₃]
        split
        · cases hp : r.profit <;> simp [hp]
        · simp

/-- A strategy between two exchanges, with the defaults of `__init__`. -/
def demoParams : Params := { strategyId := "arb", exchange1 := "binance", exchange2 := "kraken" }

/-- The result of a first leg whose second leg completed with a profit of 3.5. -/
def demoResult : ExecutionResult :=
  ⟨12.0, true, [("trade_type", .str "arbitrage_leg1"), ("second_leg_result", .str "success"),
    ("profit", .num 3.5)]⟩

theorem run_bookkeeping_init :
    State.init.executionTimes.length ≤ 50 ∧
    (run demoParams State.init [.result demoResult]).1.executionTimes =
      (State.init.executionTimes ++ latencies [.result demoResult]).drop
        ((State.init.executionTimes ++ latencies [.result demoResult]).length - 50) ∧
    (run demoParams State.init [.result demoResult]).1.successfulArbs =
      State.init.successfulArbs + (completed [.result demoResult]).length ∧
    (run demoParams State.init [.result demoResult]).1.totalProfit =
      ((completed [.result demoResult]).filterMap ExecutionResult.profit).foldl (· + ·)
        State.init.totalProfit :=
  ⟨by decide, run_bookkeeping demoParams (by decide) [.result demoResult]⟩

end Arbitrage

end AgentControl
