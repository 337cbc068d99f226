import Remediation.Lib.Claim
import Remediation.Lib.Pool
import Remediation.Lib.Prog
import Remediation.Lib.Regex
import Remediation.Lib.Sort
import Remediation.Lib.Table
import Remediation.Lib.Text
import Remediation.Spec.Sessions
import Remediation.Spec.Stage
import Remediation.Spec.Settings
import Remediation.Spec.Devin
import Remediation.Spec.Payload
import Remediation.Spec.WebhookEvents
import Remediation.Spec.Prompts
import Remediation.Spec.FileIssues
import Remediation.Spec.Connection
import Remediation.Spec.Transport
import Remediation.Spec.World
import Remediation.Spec.Handlers
import Remediation.Spec.Dispatcher
import Remediation.Spec.Orchestrator
import Remediation.Spec.Service
import Remediation.Spec.Webhook
import Remediation.Proof.Contract
import Remediation.Proof.Tasks
import Remediation.Proof.Effects
import Remediation.Proof.AtMostOnce
import Remediation.Proof.Absorbing
import Remediation.Proof.Capacity
import Remediation.Proof.Leak
import Remediation.Proof.Deliveries
import Remediation.Proof.Tick
import Remediation.Proof.Verdict
import Remediation.Proof.Merge
import Remediation.Proof.Mirror
import Remediation.Proof.Queue
import Remediation.Proof.Serial
import Remediation.Proof.Remote
import Remediation.Proof.Orphans
import Remediation.Proof.Accounting
import Remediation.Proof.FixAttempts
import Remediation.Proof.Representation
import Remediation.Proof.Completion
import Remediation.Proof.Verified
import Remediation.Proof.Numbering
import Remediation.Proof.Dispatch
import Remediation.Proof.Room
import Remediation.Proof.Redispatch
import Remediation.Proof.Fifo
import Remediation.Proof.Drain
import Remediation.Proof.Daily
import Remediation.Proof.Escalation
import Remediation.Proof.Outcomes
import Remediation.Proof.CapHit
import Remediation.Proof.OneAgent
import Remediation.Proof.Inactivity
import Remediation.Proof.Reached
import Remediation.Proof.AnyAnswer
import Remediation.Proof.Documented
import Remediation.Proof.Isolation
import Remediation.Proof.Idempotence
import Remediation.Proof.Lookup
import Remediation.Proof.Attribution
import Remediation.Proof.Fields
import Remediation.Proof.FieldForgery
import Remediation.Proof.LineLocal
import Remediation.Proof.Backfill
import Remediation.Proof.Migration
import Remediation.Proof.Restart
import Remediation.Proof.Boot
import Remediation.Proof.Guards
import Remediation.Proof.FinishedPr
import Remediation.Proof.HandsOff
import Remediation.Lib.Block
import Remediation.Proof.Chain
import Remediation.Proof.Containment
import Remediation.Proof.Migrated
import Remediation.Proof.RetryLaw
import Remediation.Proof.WorkKeys
import Remediation.Proof.DoorLaw
import Remediation.Proof.FiledOnce
import Remediation.Proof.FixVersion
import Remediation.Lib.Budget
import Remediation.Lib.Extend
import Remediation.Lib.Once
import Remediation.Lib.Refine
import Remediation.Lib.Release
import Remediation.Lib.Tally
import Remediation.Proof.AuditTrail
import Remediation.Proof.Dashboard
import Remediation.Proof.Factory
import Remediation.Proof.Provenance
import Remediation.Proof.Reset
import Remediation.Proof.Spend
import Remediation.Lib.Lines
import Remediation.Proof.Nightly
import Remediation.Proof.Waiting
import Remediation.Lib.Utf8
import Remediation.Proof.FrontDoor
import Remediation.Proof.Requests
import Remediation.Proof.Termination
