import Remediation.Spec.Service

/-!
# The deployed process

What the outside can make happen (`app/routes/webhook.py`, `app/main.py`): GitHub delivers
an event, and the poller ticks. A delivery is answered once it is on record; its `_process`
is a background task of the same process, and lost with it.
-/

namespace Remediation

open Interaction

/-- `github_webhook` for a request that has passed the checks, with the background task that
it schedules. -/
def githubWebhook (S : Settings) (deliveryId eventType : String) (action : Option String)
    (payload : Payload) : M Unit := do
  let isNew : Bool ← receive deliveryId eventType action payload
  -- a duplicate is answered, and that is all
  if isNew then process S deliveryId eventType action payload
  else return ()

inductive Job
  | webhook (deliveryId eventType : String) (action : Option String) (payload : Payload)
  | tick

def Job.prog (S : Settings) : Job → M Unit
  | webhook deliveryId eventType action payload =>
    githubWebhook S deliveryId eventType action payload
  | tick => discard (pollOnce S)

/-- The process: jobs interleaved operation by operation, with crashes and restarts. A
restart may be killed after any number of statements of the migration. -/
def deployment (env : Outside) (S : Settings) : System Ans Unit World Job ℕ where
  exec := exec env
  prog := Job.prog S
  boot := World.boot

end Remediation
