import Remediation.Spec.Door
import Remediation.Spec.Webhook

/-!
# The service behind its door

`Door` says what becomes of a request, and `Webhook` what the service does about a delivery. Here
anybody sends requests to the service (`Call`): what the route does with one does not depend on the
log, but for whether its delivery is new (`Request.task`).
-/

namespace Remediation

open Interaction

/-- What the dispatcher and the handlers read off an action and a payload. -/
structure Reader where
  action : Option Json → Option String
  payload : Json → Payload

section

variable (lib : Library) (secret : String) (reader : Reader)

/-- The task that the route schedules for a request while nothing is on record. -/
def Request.task (r : Request) : Option BackgroundTask :=
  (githubWebhookRoute lib secret r .empty).tasks.head?

/-- What the service is given: to put the delivery on record, and to process it if it is new. -/
def BackgroundTask.job (task : BackgroundTask) : Job :=
  .webhook task.deliveryId task.eventType (reader.action task.action) (reader.payload task.payload)

/-- What the outside can make happen: a request of anybody, and a tick. -/
inductive Call
  | request (r : Request)
  | tick

def Call.prog (S : Settings) : Call → M Unit
  | request r =>
    match r.task lib secret with
    | some task => (task.job reader).prog S
    | none => return ()
  | tick => Job.tick.prog S

/-- The process with its door: calls interleaved operation by operation, with crashes and
restarts. -/
def served (env : Outside) (S : Settings) : System Ans Unit World Call ℕ where
  exec := exec env
  prog := Call.prog lib secret reader S
  boot := World.boot

/-- Requests one after the other: the log, and the tasks that are scheduled. -/
def handleAll : List Request → DeliveryTable → DeliveryTable × List BackgroundTask
  | [], t => (t, [])
  | r :: rs, t =>
    let handled := githubWebhookRoute lib secret r t
    let rest := handleAll rs handled.events
    (rest.1, handled.tasks ++ rest.2)

end

end Remediation
