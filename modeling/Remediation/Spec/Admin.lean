import Remediation.Lib.Extend
import Remediation.Spec.Door
import Remediation.Spec.Webhook

/-!
# The admin routes

`POST /admin/replay/<id>` and `POST /admin/reset` (`app/routes/admin.py`), mounted only if the
settings say so (`app/main.py`), behind a token. `reset_all` (`app/db/connection.py`) wipes both
tables, while other jobs are at work: its two statements are operations of their own beside those
of the service. `wipes` counts how often `sessions` has been wiped; the code does not know it.
-/

namespace Remediation

open Interaction PyText

structure AdminSettings where
  enableAdminRoutes : Bool := false
  adminToken : String := ""

/-- Why a request to an admin route is not served: a status and its detail, or what is raised. -/
inductive Refusal
  | httpException (statusCode : ℕ) (detail : String)
  | raised (exc : Exc)

/-- `_require_token` -/
def requireToken (A : AdminSettings) (provided : Option String) : Except Refusal Unit :=
  if A.adminToken = "" then .error (.httpException 503 "admin token not configured")
  else
    match truthy provided with
    | none => .error (.httpException 401 "invalid admin token")
    | some provided =>
      match compareDigest provided A.adminToken with
      | .error exc => .error (.raised exc)
      | .ok true => .ok ()
      | .ok false => .error (.httpException 401 "invalid admin token")

/-- A route that is not mounted is not found. -/
def permit (A : AdminSettings) (provided : Option String) : Except Refusal Unit :=
  if A.enableAdminRoutes then requireToken A provided else .error (.httpException 404 "Not Found")

/-- The statements of `reset_all`. -/
inductive Wipe
  | deleteSessions
  | deleteWebhookEvents

/-- The operations of the service, and those of `reset_all`. -/
abbrev AdminAns : Op ⊕ Wipe → Type := Plus Ans fun _ => Unit

/-- What a job or a request to an admin route does. -/
abbrev AdminM (α : Type) : Type := Prog (Op ⊕ Wipe) AdminAns α

structure AdminWorld where
  world : World
  wipes : ℕ := 0

/-- `sessions` has an AUTOINCREMENT key, which goes on where it was; the row ids of
`webhook_events` start again. -/
def Wipe.exec (w : AdminWorld) : Wipe → AdminWorld
  | deleteSessions =>
    { world := { w.world with sessions := w.world.sessions.clear }, wipes := w.wipes + 1 }
  | deleteWebhookEvents => { w with world := { w.world with events := .empty } }

def adminExec (env : Outside) : (op : Op ⊕ Wipe) → AdminWorld → AdminAns op × AdminWorld
  | .inl op, w => ((exec env op w.world).1, { w with world := (exec env op w.world).2 })
  | .inr wipe, w => ((), wipe.exec w)

namespace Admin

/-- `executescript`, each statement of which is a transaction of its own. -/
def resetAll : AdminM Unit :=
  .call (.inr .deleteSessions) fun _ => .call (.inr .deleteWebhookEvents) fun _ => .ret ()

def reset (A : AdminSettings) (token : Option String) : AdminM Unit :=
  match permit A token with
  | .error _ => return ()
  | .ok () => resetAll

def replay (A : AdminSettings) (S : Settings) (deliveryId : String) (token : Option String) :
    AdminM Unit :=
  match permit A token with
  | .error _ => return ()
  | .ok () => (Remediation.replay S deliveryId).extend fun _ => Unit

end Admin

/-- What the outside can make happen, with the admin routes. -/
inductive AdminJob
  | job (job : Job)
  | replay (deliveryId : String) (token : Option String)
  | reset (token : Option String)

def AdminJob.prog (A : AdminSettings) (S : Settings) : AdminJob → AdminM Unit
  | job j => (j.prog S).extend fun _ => Unit
  | replay deliveryId token => Admin.replay A S deliveryId token
  | reset token => Admin.reset A token

/-- The process with its admin routes: everything interleaved operation by operation, with
crashes and restarts. -/
def administered (env : Outside) (A : AdminSettings) (S : Settings) :
    System AdminAns Unit AdminWorld AdminJob ℕ where
  exec := adminExec env
  prog := AdminJob.prog A S
  boot n w := { w with world := w.world.boot n }

/-- How often a job wipes the tables. -/
def AdminJob.wipes (A : AdminSettings) : AdminJob → ℕ
  | reset token => if (permit A token).isOk then 1 else 0
  | _ => 0

end Remediation
