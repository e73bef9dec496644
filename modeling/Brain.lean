import Brain.Ingestion.Recovery
import Brain.Workflow.Crashes
import Brain.Workflow.Approvals
import Brain.Projection.Fidelity
import Brain.Pull.Timing
import Brain.Pull.Synchronization
import Brain.Execution.Exclusion
import Brain.Execution.Records
import Brain.Queue.Discipline
import Brain.Queue.Crashes
import Brain.Events.Delivery
import Brain.Events.Merge
import Brain.PullRequests.Gate
import Brain.Orchestration.Gating
import Brain.Events.RevisionChain
import Brain.Documentation.Timing
import Brain.Ingestion.LiveComments
import Brain.Topology.Repetition
import Brain.Graph.SelfCheck
import Brain.Graph.Reprojection
import Brain.Execution.Workspaces
import Brain.Observations.Journal
import Brain.Observations.Publishing
import Brain.Provisioning.Missing
import Brain.Documentation.Spaces
import Brain.Scheduler.Recovery
import Brain.Runtime.Selection
import Brain.Persistence.Exactness
import Brain.Workers.Eligibility
import Brain.Context.Budgets
import Brain.Retrieval.Scopes
import Brain.CodeGraph.CallEdges
import Brain.Parsing.Markdown
import Brain.Documents.Decisions
import Brain.CodeGraph.RelativeImports
import Brain.Parsing.Html
import Brain.Documents.Forests
import Brain.Parsing.Links
import Brain.Workflow.LastAttempt
import Brain.Verification.Verdicts
import Brain.Adapters.PiExecutor
import Brain.Parsing.FrontMatter
import Brain.Ingestion.Classification
import Brain.Topology.Compose
import Brain.Topology.Terraform
import Brain.Application.RateLimiter
import Brain.Graph.Traversal
import Brain.Topology.Catalog
import Brain.Orchestration.ObservationIds
import Brain.Documentation.ChangedPages
import Brain.Bootstrap.Parents
import Brain.Topology.Backstage
