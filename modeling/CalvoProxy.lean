import CalvoProxy.Quota.Spending
import CalvoProxy.Breaker.Host
import CalvoProxy.Router.Health
import CalvoProxy.Router.Entry
import CalvoProxy.Router.ModelCircuit
import CalvoProxy.Router.Leaks
import CalvoProxy.Update.SelfUpdate
import CalvoProxy.Router.Lockout
import CalvoProxy.Router.Saving
import CalvoProxy.Router.Bootstrap
import CalvoProxy.Quota.Reordering
import CalvoProxy.Router.Reloading
import CalvoProxy.Router.ResponseHeaders
import CalvoProxy.Router.Slots
import CalvoProxy.Vault.Sharing
import CalvoProxy.Vault.Migration
import CalvoProxy.Login.Callback
import CalvoProxy.Hermes.Handoff
import CalvoProxy.Balancer.Draining
import CalvoProxy.Router.Vision
import CalvoProxy.Router.Waiting
import CalvoProxy.Router.Executor
import CalvoProxy.Router.Parking
import CalvoProxy.Router.CircuitKeys
import CalvoProxy.Router.Scoring
import CalvoProxy.Router.OutputLimits
import CalvoProxy.Router.ToolCap
import CalvoProxy.Router.Capabilities
import CalvoProxy.Router.Delays
import CalvoProxy.Router.TraceRing
import CalvoProxy.Setup.ClaudeCode
import CalvoProxy.Router.RouteTrace
import CalvoProxy.Setup.Toml
import CalvoProxy.Hermes.Pruning
import CalvoProxy.Balancer.RoundRobin
import CalvoProxy.Router.ScoreClocks
import CalvoProxy.Setup.Backups
