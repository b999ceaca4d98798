import AgentControl.Json
import AgentControl.DeepUpdate
import AgentControl.Keys
import AgentControl.Prog
import AgentControl.Controller
import AgentControl.Registry
import AgentControl.World
import AgentControl.System
import AgentControl.Exec
import AgentControl.Routes
import AgentControl.Config
import AgentControl.Frame
import AgentControl.Listing
import AgentControl.Observers
import AgentControl.Validation
import AgentControl.Races
import AgentControl.Deployment
import AgentControl.Promotion
import AgentControl.Relay
import AgentControl.Delivery
import AgentControl.Auth
import AgentControl.Arbitrage
import AgentControl.Release
import AgentControl.Progress
import AgentControl.Outputs
import AgentControl.Liveness
import AgentControl.Sends
import AgentControl.Writeback
