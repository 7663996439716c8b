import ApiSecurityPlatform.Theory.Transition
import ApiSecurityPlatform.Execution.PlanTables
import ApiSecurityPlatform.Execution.PlanServices
import ApiSecurityPlatform.Execution.Cancellation
import ApiSecurityPlatform.Execution.Fencing
import ApiSecurityPlatform.Execution.PlanWorker
import ApiSecurityPlatform.Execution.TestCaseExecution
import ApiSecurityPlatform.Accounting.Records
import ApiSecurityPlatform.Accounting.Store
import ApiSecurityPlatform.Accounting.Reconcile
import ApiSecurityPlatform.Accounting.Operations
import ApiSecurityPlatform.Accounting.Admissions
import ApiSecurityPlatform.Accounting.Caps
import ApiSecurityPlatform.Accounting.Liability
import ApiSecurityPlatform.Accounting.Restore
import ApiSecurityPlatform.Broker.Coverage
import ApiSecurityPlatform.Broker.Authority
import ApiSecurityPlatform.Broker.Sends
import ApiSecurityPlatform.Broker.Bridge
import ApiSecurityPlatform.Execution.PlanDigest
import ApiSecurityPlatform.Executors.RateLimit
import ApiSecurityPlatform.Network.PostgresController
import ApiSecurityPlatform.Network.PrivateMode
import ApiSecurityPlatform.Policies.PathContainment
import ApiSecurityPlatform.Research.Observation
import ApiSecurityPlatform.Research.ObservationJson
import ApiSecurityPlatform.Research.ResponseSemantics
import ApiSecurityPlatform.Research.Retention
import ApiSecurityPlatform.Access.Deadlines
import ApiSecurityPlatform.Scanners.OpenApiStructure
import ApiSecurityPlatform.Scanners.OpenApiDecoding
import ApiSecurityPlatform.Research.Publication
import ApiSecurityPlatform.Research.Stopping
import ApiSecurityPlatform.Findings.Classification
import ApiSecurityPlatform.Findings.Evidence
import ApiSecurityPlatform.Network.Canonical
import ApiSecurityPlatform.Execution.Screening
import ApiSecurityPlatform.Proposals.Canonical
import ApiSecurityPlatform.Ports.Identity
import ApiSecurityPlatform.Ports.Ipc
import ApiSecurityPlatform.Proposals.Transport
import ApiSecurityPlatform.Proposals.Release
import ApiSecurityPlatform.Accounting.Overrun
import ApiSecurityPlatform.Authority.Acknowledgement
import ApiSecurityPlatform.Authority.Endurance
import ApiSecurityPlatform.Research.ClockFence
import ApiSecurityPlatform.Ai.Redaction
import ApiSecurityPlatform.Research.PairHistory
import ApiSecurityPlatform.Assets.CandidateDns
import ApiSecurityPlatform.Execution.ResourceUrl
