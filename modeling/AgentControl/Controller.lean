import AgentControl.DeepUpdate
import AgentControl.Keys
import AgentControl.Prog

/-!
# The Routes of the Agent Controller

Each route of `agent_controller.py` is written here as a `Prog` coroutine, statement by
statement. The pure Python between two awaits is a pure function (often `Except`-valued,
because it can raise on a malformed document); the awaits are effects.

* `publishAgentEvent`, `lifecycleCommand` (the shared body of `pauseAgent`,
  `resumeAgent` and `restartAgent`), `injectConfig`, `promoteCanary` and
  `getAgentConfig` are the control operations.
* `listAgents` enumerates the registration keys and assembles one `AgentPanelState` per
  key in `agentPanel`, under the `try`/`except Exception` of the source.
* `websocketAgentEvents` is the observer route: it registers its websocket, subscribes
  to `agent_events`, greets the observer, starts the relay task and waits for the
  disconnect.

The two tests of the canary flag, in `list_agents` and in `promote_canary`, are the same
Python expression; both routes call `executionConfigOf` and `signalsCanary`.

Python's `str(x)` of a decoded value, which `list_agents` uses to build the keys of the
agent named by a registration, is `JVal.pyStr`; the quoting of strings inside lists and
dicts is simplified to plain single quotes.
-/

namespace AgentControl

/-- `str(x)`, for the f-strings of `list_agents`. -/
def JVal.pyStr : JVal → String
  | .null => "None"
  | .bool true => "True"
  | .bool false => "False"
  | .num n => toString n
  | .str s => s
  | .arr xs => "[" ++ ", ".intercalate (reprList xs) ++ "]"
  | .obj d => "\x7b" ++ ", ".intercalate (reprDict d) ++ "\x7d"
where
  repr : JVal → String
    | .str s => "'" ++ s ++ "'"
    | .null => "None"
    | .bool true => "True"
    | .bool false => "False"
    | .num n => toString n
    | .arr xs => "[" ++ ", ".intercalate (reprList xs) ++ "]"
    | .obj d => "\x7b" ++ ", ".intercalate (reprDict d) ++ "\x7d"
  reprList : List JVal → List String
    | [] => []
    | x :: xs => repr x :: reprList xs
  reprDict : Dict → List String
    | [] => []
    | (k, v) :: d => ("'" ++ k ++ "': " ++ repr v) :: reprDict d

/-- `d.update(data)`. -/
def Dict.update (d data : Dict) : Dict := data.foldl (fun d e => Dict.set d e.1 e.2) d

/-- The body of an `AgentConfigUpdate` request: the agent and the patch. The patch is
decoded from JSON, so it has no repeated key. -/
structure AgentConfigUpdate where
  agentId : String
  config : Dict
  wf : (JVal.obj config).Wf

/-- The `AgentPanelState` response model, once `pydantic` has accepted its fields. -/
structure AgentPanelState where
  agentId : String
  name : Option String
  status : String
  lastSignal : ℤ
  pnl24h : PyFloat
  actions : List String
  tags : List String
  lastUpdated : ℕ
  deriving DecidableEq, Repr

/-- What a route returns. -/
inductive Response where
  /-- An `AgentStatus`: `{success, message}`. -/
  | status (success : Bool) (message : String)
  /-- The answer of `get_agent_config`: `{agentId, config}`. -/
  | config (agentId : String) (config : JVal)
  /-- The answer of `list_agents`. -/
  | panels (agents : List AgentPanelState)
  /-- The websocket route returns nothing. -/
  | none
  deriving DecidableEq, Repr

/-! ### Publishing events -/

/-- The message of `publish_agent_event`: type, agent and timestamp, updated with
`data` when `data` is not empty. -/
def agentEvent (eventType agentId : String) (data : Dict) (timestamp : ℕ) : JVal :=
  let message : Dict :=
    [("type", .str eventType), ("agentId", .str agentId), ("timestamp", .num timestamp)]
  .obj (if (JVal.obj data).truthy then message.update data else message)

/-- `publish_agent_event(r, event_type, agent_id, data)`; `data = None` is the empty
dict, which `if data:` skips as well. -/
def publishAgentEvent (eventType agentId : String) (data : Dict) : Prog Unit := do
  let timestamp ← Prog.now
  Prog.redisPublish agentEvents (Bytes.dumps (agentEvent eventType agentId data timestamp))

/-- The `agent_status_changed` message broadcast to observers. -/
def statusChanged (agentId status : String) (timestamp : ℕ) : JVal :=
  .obj [("type", .str "agent_status_changed"), ("agentId", .str agentId),
    ("status", .str status), ("timestamp", .num timestamp)]

/-- The `agent_config_updated` message broadcast to observers. -/
def configUpdated (agentId : String) (timestamp : ℕ) : JVal :=
  .obj [("type", .str "agent_config_updated"), ("agentId", .str agentId),
    ("timestamp", .num timestamp)]

/-! ### Pause, resume and restart -/

/-- The body shared by `pause_agent`, `resume_agent` and `restart_agent`: check the
registration, publish the request event and the empty command, write the raw state, and
broadcast `agent_status_changed` with that state. -/
def lifecycleCommand (event command state reply : String) (agentId : String) :
    Prog Response := do
  let regKey := agentKey agentId "registration"
  let keyExists ← Prog.redisExists regKey
  if !keyExists then throw (PyErr.httpException 404 "Agent not found")
  publishAgentEvent event agentId []
  Prog.redisPublish (agentKey agentId command) (.text "")
  Prog.redisSet (agentKey agentId "state") (.text state)
  let timestamp ← Prog.now
  Prog.broadcast (statusChanged agentId state timestamp)
  return .status true ("Agent " ++ agentId ++ reply)

/-- `pause_agent`. -/
def pauseAgent (agentId : String) : Prog Response :=
  lifecycleCommand "pause_requested" "pause" "paused" " paused" agentId

/-- `resume_agent`. -/
def resumeAgent (agentId : String) : Prog Response :=
  lifecycleCommand "resume_requested" "resume" "running" " resumed" agentId

/-- `restart_agent`. -/
def restartAgent (agentId : String) : Prog Response :=
  lifecycleCommand "restart_requested" "restart" "initializing" " restarting" agentId

/-! ### Configuration -/

/-- The registration `inject_config` writes back: `config` is created empty when absent,
then `deep_update(agent_json["config"], update.config)` merges the patch into it. -/
def injectedRegistration (agentJson : JVal) (patch : Dict) : Except PyErr JVal := do
  let agentJson ← if !(← agentJson.contains "config") then
      agentJson.setItem "config" (.obj []) else pure agentJson
  let config ← agentJson.getItem "config"
  let config ← deepUpdate config patch
  agentJson.setItem "config" config

/-- `inject_config`. -/
def injectConfig (update : AgentConfigUpdate) : Prog Response := do
  let regKey := agentKey update.agentId "registration"
  let agentData ← Prog.redisGet regKey
  let some agentData := agentData.filter Bytes.truthy
    | throw (PyErr.httpException 404 "Agent not found")
  publishAgentEvent "config_update_requested" update.agentId [("config", .obj update.config)]
  Prog.redisPublish (agentKey update.agentId "inject_config")
    (Bytes.dumps (.obj update.config))
  let agentJson ← Prog.liftExcept agentData.loads
  let agentJson ← Prog.liftExcept (injectedRegistration agentJson update.config)
  Prog.redisSet regKey (Bytes.dumps agentJson)
  let timestamp ← Prog.now
  Prog.broadcast (configUpdated update.agentId timestamp)
  return .status true ("Configuration injected into agent " ++ update.agentId)

/-- `get_agent_config`. -/
def getAgentConfig (agentId : String) : Prog Response := do
  let agentData ← Prog.redisGet (agentKey agentId "registration")
  let some agentData := agentData.filter Bytes.truthy
    | throw (PyErr.httpException 404 "Agent not found")
  let agentJson ← Prog.liftExcept agentData.loads
  let config ← Prog.liftExcept (agentJson.getOr "config" (.obj []))
  return .config agentId config

/-! ### Canary promotion -/

/-- `"config" in agent_json and "executionConfig" in agent_json["config"]`, and then
`agent_json["config"]["executionConfig"]`: the execution config, if the registration
has one. -/
def executionConfigOf (agentJson : JVal) : Except PyErr (Option JVal) := do
  if ← agentJson.contains "config" then
    let config ← agentJson.getItem "config"
    if ← config.contains "executionConfig" then
      some <$> config.getItem "executionConfig"
    else pure none
  else pure none

/-- `exec_config.get("mode") == "canary" or exec_config.get("canaryMode", False)`, as
an `if` reads it. -/
def signalsCanary (execConfig : JVal) : Except PyErr Bool := do
  if (← execConfig.getOr "mode" .null) == .str "canary" then pure true
  else JVal.truthy <$> execConfig.getOr "canaryMode" (.bool false)

/-- The checks and the in-place edit of `promote_canary`: the promoted registration and
its new execution config. -/
def promotedRegistration (agentJson : JVal) : Except PyErr (JVal × JVal) := do
  let some execConfig ← executionConfigOf agentJson
    | throw (PyErr.httpException 400 "Agent does not have execution configuration")
  if !(← signalsCanary execConfig) then
    throw (PyErr.httpException 400 "Agent is not in canary mode")
  let execConfig ← execConfig.setItem "mode" (.str "live")
  let execConfig ← execConfig.setItem "canaryMode" (.bool false)
  let config ← (← agentJson.getItem "config").setItem "executionConfig" execConfig
  let agentJson ← agentJson.setItem "config" config
  pure (agentJson, execConfig)

/-- `promote_canary`. -/
def promoteCanary (agentId : String) : Prog Response := do
  let regKey := agentKey agentId "registration"
  let agentData ← Prog.redisGet regKey
  let some agentData := agentData.filter Bytes.truthy
    | throw (PyErr.httpException 404 "Agent not found")
  let agentJson ← Prog.liftExcept agentData.loads
  let (agentJson, execConfig) ← Prog.liftExcept (promotedRegistration agentJson)
  Prog.redisSet regKey (Bytes.dumps agentJson)
  publishAgentEvent "canary_promoted" agentId [("newMode", .str "live")]
  Prog.redisPublish (agentKey agentId "inject_config")
    (Bytes.dumps (.obj [("executionConfig", execConfig)]))
  let timestamp ← Prog.now
  Prog.broadcast (statusChanged agentId "running" timestamp)
  return .status true ("Agent " ++ agentId ++ " promoted from canary to live")

/-! ### Listing -/

/-- The display status of `list_agents`: the raw state maps to `paused` or `running`,
and then the canary test, when it holds, sets `canary`. -/
def agentStatus (state : String) (isCanary : Bool) : String :=
  let status := if state = "paused" then "paused" else if state = "disabled" then "paused"
    else "running"
  if isCanary then "canary" else status

/-- The actions offered for a status. -/
def statusActions (status : String) : List String :=
  if status = "running" then ["pause", "restart"]
  else if status = "paused" then ["resume", "restart"]
  else if status = "canary" then ["promote", "pause", "restart"]
  else []

/-- `metrics.get("pnl", 0.0)`, overridden by `metrics["custom"]["pnl_24h"]` when present. -/
def pnl24hOf (metrics : JVal) : Except PyErr JVal := do
  let pnl ← metrics.getOr "pnl" (.num 0)
  if ← metrics.contains "custom" then
    let custom ← metrics.getItem "custom"
    if ← custom.contains "pnl_24h" then custom.getItem "pnl_24h" else pure pnl
  else pure pnl

/-- `x[:2]`, iterated: the first two elements of a list, or the first two characters of
a string. -/
def sliceTwo : JVal → Except PyErr (List JVal)
  | .arr xs => .ok (xs.take 2)
  | .str s => .ok ((s.toList.take 2).map fun c => .str c.toString)
  | _ => .error .typeError

/-- The tags of a panel: `canary`, `paused`, up to two trading pairs and the agent type. -/
def panelTags (agentJson : JVal) (isCanary : Bool) (status : String) :
    Except PyErr (List JVal) := do
  let tags : List JVal := (if isCanary then [.str "canary"] else []) ++
    (if status = "paused" then [.str "paused"] else [])
  let tags ← if ← agentJson.contains "tradingPairs" then
      (tags ++ ·) <$> (sliceTwo (← agentJson.getItem "tradingPairs")) else pure tags
  if ← agentJson.contains "agentType" then
    (fun t => tags ++ [t]) <$> agentJson.getItem "agentType"
  else pure tags

/-- A `str` field of the response model. -/
def validateStr : JVal → Except PyErr String
  | .str s => .ok s
  | _ => .error .validationError

/-- An `Optional[str]` field of the response model. -/
def validateOptStr : JVal → Except PyErr (Option String)
  | .null => .ok none
  | .str s => .ok (some s)
  | _ => .error .validationError

/-- A `float` field of the response model, in lax mode: a number, a boolean, or a text that
reads as a `float` (`pyFloat`). -/
def validateNumber : JVal → Except PyErr PyFloat
  | .num n => .ok (.finite n)
  | .bool b => .ok (if b then 1 else 0)
  | .str s => match pyFloat s with
    | some x => .ok x
    | none => .error .validationError
  | _ => .error .validationError

/-- `AgentPanelState(...)`: `pydantic` checks the types of the fields it is given. -/
def AgentPanelState.validate (agentId name : JVal) (status : String) (lastSignal : ℤ)
    (pnl24h : JVal) (actions : List String) (tags : List JVal) (lastUpdated : ℕ) :
    Except PyErr AgentPanelState := do
  pure { agentId := ← validateStr agentId, name := ← validateOptStr name, status,
         lastSignal, pnl24h := ← validateNumber pnl24h, actions,
         tags := ← tags.mapM validateStr, lastUpdated }

/-- The body of the loop of `list_agents` for one registration key: `none` when the key
holds nothing (`if agent_data:` fails). -/
def agentPanel (regKey : String) : Prog (Option AgentPanelState) := do
  let agentData ← Prog.redisGet regKey
  let some agentData := agentData.filter Bytes.truthy | pure none
  let agentJson ← Prog.liftExcept agentData.loads
  let agentId ← Prog.liftExcept (agentJson.getOr "agentId" (.str "unknown"))
  let stateData ← Prog.redisGet (agentKey agentId.pyStr "state")
  let state ← match stateData.filter Bytes.truthy with
    | some b => Prog.liftExcept b.decode
    | none => pure "unknown"
  let execConfig ← Prog.liftExcept (executionConfigOf agentJson)
  let isCanary ← match execConfig with
    | some e => Prog.liftExcept (signalsCanary e)
    | none => pure false
  let status := agentStatus state isCanary
  let metricsData ← Prog.redisGet (agentKey agentId.pyStr "metrics")
  let metrics ← match metricsData.filter Bytes.truthy with
    | some b => Prog.liftExcept b.loads
    | none => pure (.obj [])
  let actions := statusActions status
  let lastSignal ← Prog.redisGet (agentKey agentId.pyStr "last_signal")
  let lastSignalTime ← match lastSignal.filter Bytes.truthy with
    | some b => Prog.liftExcept b.toInt
    | none => pure 0
  let pnl24h ← Prog.liftExcept (pnl24hOf metrics)
  let tags ← Prog.liftExcept (panelTags agentJson isCanary status)
  let name ← Prog.liftExcept (agentJson.getOr "name" .null)
  let timestamp ← Prog.now
  some <$> Prog.liftExcept
    (AgentPanelState.validate agentId name status lastSignalTime pnl24h actions tags timestamp)

/-- The loop of `list_agents`: every key under its own `try`, whose `except Exception`
logs and moves on. -/
def collectPanels : List String → Prog (List AgentPanelState)
  | [] => pure []
  | regKey :: rest => do
      let view ← (agentPanel regKey).tryCatch fun _ => pure none
      let views ← collectPanels rest
      pure (view.toList ++ views)

/-- `list_agents`. -/
def listAgents : Prog Response := do
  let registrations ← Prog.redisKeys registrationPattern
  return .panels (← collectPanels registrations)

/-! ### The observer route -/

/-- The greeting an observer receives, with its client id. -/
def connectionEstablished (clientId : ℕ) : JVal :=
  .obj [("type", .str "connection_established"), ("clientId", .str (toString clientId))]

/-- `websocket_agent_events`. Both `except` clauses unregister, unsubscribe and close;
the second one also prints, which is not modelled. -/
def websocketAgentEvents : Prog Response := do
  Prog.call .accept
  let clientId ← Prog.call .register
  let sub ← Prog.call (.subscribe agentEvents)
  Prog.tryCatch
    (do
      Prog.call (.sendJson (connectionEstablished clientId))
      Prog.call (.spawnRelay sub)
      let never ← Prog.call .receive
      nomatch never)
    (fun _ => do
      Prog.call (.unregister clientId)
      Prog.call (.unsubscribe sub)
      Prog.call .close
      pure .none)

/-! ### The API -/

/-- A request to one of the HTTP routes of the controller. -/
inductive Request where
  | pause (agentId : String)
  | resume (agentId : String)
  | restart (agentId : String)
  | injectConfig (update : AgentConfigUpdate)
  | promoteCanary (agentId : String)
  | getConfig (agentId : String)
  | list

/-- The route that serves a request. -/
def Request.route : Request → Prog Response
  | .pause a => pauseAgent a
  | .resume a => resumeAgent a
  | .restart a => restartAgent a
  | .injectConfig u => AgentControl.injectConfig u
  | .promoteCanary a => AgentControl.promoteCanary a
  | .getConfig a => getAgentConfig a
  | .list => listAgents

end AgentControl
