import NavPolicy.Agent.Loop
import NavPolicy.Agent.Schedule
import NavPolicy.BlockRule.Declarative
import NavPolicy.CommandLine.Console
import NavPolicy.Config.Reader
import NavPolicy.Engine
import NavPolicy.Files.Tree
import NavPolicy.Main
import NavPolicy.Navigation
import NavPolicy.Pattern.Regex
import NavPolicy.Policy.Compiled
import NavPolicy.Policy.Reader
import NavPolicy.Redirect.Matcher
import NavPolicy.Store.Cell
import NavPolicy.Store.File
import NavPolicy.Proofs.BlockRule.Reconcile
import NavPolicy.Proofs.BlockRule.Replacement
import NavPolicy.Proofs.Engine
import NavPolicy.Proofs.Policy.Numbering
import NavPolicy.Proofs.Json.Token
import NavPolicy.Proofs.Json.RoundTrip
import NavPolicy.Proofs.Store.Cell
import NavPolicy.Proofs.Agent.Enforcement
import NavPolicy.Proofs.Pattern.Wildcard
import NavPolicy.Proofs.Pattern.Regex
import NavPolicy.Proofs.Pattern.Glob
import NavPolicy.Proofs.Agent.Refreshing
import NavPolicy.Proofs.Agent.Calls
import NavPolicy.Proofs.Agent.Editing
import NavPolicy.Proofs.Agent.FailSafe
import NavPolicy.Proofs.Agent.Install
import NavPolicy.Proofs.Agent.Authorisation
import NavPolicy.Proofs.Agent.PolicyMeaning
import NavPolicy.Proofs.Agent.Standing
import NavPolicy.Proofs.Agent.Answering
import NavPolicy.Proofs.Agent.Repeating
import NavPolicy.Proofs.Agent.Tasks
import NavPolicy.Proofs.Agent.Confluence
import NavPolicy.Proofs.Agent.Serving
import NavPolicy.Proofs.Agent.Generation
import NavPolicy.Proofs.Store.File
import NavPolicy.Proofs.Files.Tree
import NavPolicy.Proofs.Store.Disk
import NavPolicy.Proofs.Agent.AllOrNothing
import NavPolicy.Proofs.Agent.Protocol
import NavPolicy.Proofs.Agent.Sharing
import NavPolicy.Proofs.Agent.OneMatcher
import NavPolicy.Proofs.Agent.Restart
import NavPolicy.Proofs.Agent.OffRecord
import NavPolicy.Proofs.Digest
import NavPolicy.Proofs.CommandLine.Inspect
import NavPolicy.Proofs.CommandLine.Check
import NavPolicy.Proofs.Agent.Passwords
import NavPolicy.Proofs.Agent.Removal
import NavPolicy.Proofs.Agent.Managed
import NavPolicy.Proofs.Json.Survival
import NavPolicy.Proofs.Agent.Cells
import NavPolicy.Proofs.Time.Calendar
import NavPolicy.Proofs.Yaml.Flow
import NavPolicy.Proofs.Yaml.Node
import NavPolicy.Proofs.Yaml.Json
import NavPolicy.Proofs.Policy.Json
import NavPolicy.Proofs.Engine.Refusal
import NavPolicy.Proofs.Engine.Blocking
import NavPolicy.Proofs.Agent.Resolving
import NavPolicy.Proofs.BlockRule.Difference
import NavPolicy.Proofs.Engine.Minimality
import NavPolicy.Proofs.BlockRule.Declarative
import NavPolicy.Proofs.Redirect.InlineDocument
import NavPolicy.Proofs.Agent.LockLast
import NavPolicy.Proofs.BlockRule.Application
import NavPolicy.Proofs.Pattern.ReadBack
import NavPolicy.Proofs.CommandLine.Navigation
import NavPolicy.Proofs.Store.FetchRecord
