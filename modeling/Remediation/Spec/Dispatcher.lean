import Remediation.Spec.Handlers

/-!
# From events to handlers

The label-based router (`app/dispatcher.py`), and the two ways into it from outside:
the background task of a delivery, and the replay of a recorded one
(`app/routes/webhook.py`, `app/routes/admin.py`).
-/

namespace Remediation

open Interaction PyText

def dispatchIssue (S : Settings) (action : Option String) (payload : Payload) :
    M (Except Exc Outcome) :=
  if action ≠ some "opened" ∧ action ≠ some "labeled" ∧ action ≠ some "reopened" then
    return .ok (.skipped s!"issue_action:{str action}")
  else
    let issue := payload.issue
    let labelNames := issue.labels.filterMap truthy
    -- the gate label first, whatever else is on the issue
    if !labelNames.contains gateLabel then return .ok (.skipped "no_gate_label")
    else if labelNames.contains securityLabel then do
      let outcome ← handleSecurityIssue S issue
      return .ok outcome
    else if labelNames.contains qualityLabel then do
      let outcome ← handleQualityIssue issue
      return .ok outcome
    else do
      let outcome ← handleGenericRemediation issue
      return .ok outcome

def dispatchWorkflowRun (S : Settings) (action : Option String) (payload : Payload) :
    M (Except Exc Outcome) :=
  if action ≠ some "completed" then return .ok (.skipped s!"workflow_action:{str action}")
  else
    let run := payload.workflowRun
    if run.conclusion ≠ some "failure" then
      return .ok (.skipped s!"workflow_conclusion:{str run.conclusion}")
    else handleCiFailure S run

def dispatch (S : Settings) (eventType : String) (action : Option String) (payload : Payload) :
    M (Except Exc Outcome) :=
  if eventType = "issues" then dispatchIssue S action payload
  else if eventType = "workflow_run" then dispatchWorkflowRun S action payload
  else if eventType = "ping" then return .ok (.ok "ping")
  else return .ok (.skipped s!"unhandled_event:{eventType}")

/-- What `_process` records of a dispatch. -/
def resultText : Except Exc Outcome → String
  | .ok outcome => outcome.text
  | .error exc => s!"error:{exc.name}:{exc.message}"

def process (S : Settings) (deliveryId eventType : String) (action : Option String)
    (payload : Payload) : M Unit := do
  let result ← dispatch S eventType action payload
  perform (.markProcessed deliveryId (resultText result))

/-- A delivery that has passed the signature check is put on record; if it is new, its
`process` is scheduled. -/
def receive (deliveryId eventType : String) (action : Option String) (payload : Payload) :
    M Bool :=
  perform (.record deliveryId eventType action payload)

/-- `POST /admin/replay/<id>`, with the background task it schedules. -/
def replay (S : Settings) (deliveryId : String) : M Unit := do
  let row ← perform (.getEvent deliveryId)
  match row with
  | none => return ()
  | some row => process S deliveryId row.eventType row.action row.payload

end Remediation
