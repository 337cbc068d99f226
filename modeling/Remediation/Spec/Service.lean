import Remediation.Spec.Orchestrator

/-!
# Runs of the service

What can be started (`Task`), and the two ways in which tasks run: interleaved
operation by operation, with crashes and restarts (`service`), or one after the
other, each to its end (`runSerial`). `/admin/reset` is not among the tasks.
-/

namespace Remediation

open Interaction

inductive Task
  | securityIssue (issue : Issue)
  | ciFailure (run : WorkflowRun)
  | receive (deliveryId eventType : String) (action : Option String) (payload : Payload)
  | process (deliveryId eventType : String) (action : Option String) (payload : Payload)
  | replay (deliveryId : String)
  | drain
  | poll

/-- Run a program for its effects. -/
def discard {α : Type} (p : M α) : M Unit := do
  let _ ← p
  return ()

def Task.prog (S : Settings) : Task → M Unit
  | securityIssue issue => discard (handleSecurityIssue S issue)
  | ciFailure run => discard (handleCiFailure S run)
  | receive deliveryId eventType action payload =>
    discard (Remediation.receive deliveryId eventType action payload)
  | process deliveryId eventType action payload =>
    Remediation.process S deliveryId eventType action payload
  | replay deliveryId => Remediation.replay S deliveryId
  | drain => discard (drainQueue S)
  | poll => discard (pollOnce S)

/-- The service under concurrency. A restart may be killed after any number of
statements of the migration. -/
def service (env : Outside) (S : Settings) : System Ans Unit World Task ℕ where
  exec := exec env
  prog := Task.prog S
  boot := World.boot

/-- Tasks run one after the other. -/
def runSerial (env : Outside) (S : Settings) (w : World) (tasks : List Task) : World :=
  tasks.foldl (fun w task => ((task.prog S).eval (exec env) w).2) w

/-- The empty database at some time. -/
def World.initial (now : Time) : World := { sessions := .empty, events := .empty, now := now }

/-! ## A calm outside -/

/-- Every call succeeds and every second one operation: Devin names a session after the
number of the operation that creates it and reports it as running, and every PR is the
same one, on a Devin branch with no foreign commits. Examples vary this. -/
def Outside.calm : Outside where
  elapse _ := 1000000
  transport := { statusError := fun n => ⟨"HTTPStatusError", toString n⟩ }
  getClient _ := .ok ()
  posts n _ _ :=
    { processed := some s!"devin-{n}"
      seen := .response
        { statusCode := 200, body := .ok ⟨s!"devin-{n}", s!"https://app.devin.ai/sessions/{n}"⟩ } }
  getSession _ _ := .ok { status := some "running" }
  terminateSession _ _ := .ok ()
  getPr _ _ _ :=
    .ok (some { htmlUrl := some "https://github.com/o/r/pull/7", headRef := some "devin/cve-1" })
  listPrCommits _ _ _ := .ok []
  failingJobLogs _ _ _ _ := .ok "1 failed"
  postPrComment _ _ _ _ := .ok ()

/-- The report of a session that has ended after opening the PR. -/
def ApiSession.exited : ApiSession where
  status := some "exit"
  pullRequests := [⟨some "https://github.com/o/r/pull/7", some "open"⟩]

/-- A well-formed security issue. -/
def Issue.sample (number : ℤ) : Issue where
  number := some number
  htmlUrl := some s!"https://github.com/o/r/issues/{number}"
  repositoryFullName := some "o/r"
  labels := [some gateLabel, some securityLabel]
  body := some "- **CVE:** CVE-1\n- **Package:** p\n- **Installed:** 1\n- **Fix version:** 2\n"

/-- A failing workflow run on the PR. -/
def WorkflowRun.sample (runId : ℤ) : WorkflowRun where
  id := some runId
  event := some "pull_request"
  conclusion := some "failure"
  repositoryFullName := some "o/r"
  pullRequests := [some 7]

end Remediation
