import Remediation.Spec.Transport

/-!
# The other calls of the Devin API

`HttpDevinClient` besides `create_session` (`app/devin/client.py`). The outcomes of the attempts
are given, as in `Transport`, and what is read of a response is its body.
-/

namespace Remediation

open PyText

namespace HttpDevinClient

variable (T : DevinTransport) (sessionId : String) {β : Type}

def getSession (outcome : ℕ → HttpOutcome (Except Exc ApiSession)) : Except Exc SessionDetails :=
  match (T.request "GET" ("/sessions/" ++ sessionId) outcome).1 with
  | .ok resp => resp.body.map fromApiResponse
  | .error exc => .error exc

/-- The answer is not read. -/
def sendMessage (outcome : ℕ → HttpOutcome β) : Except Exc Unit :=
  (T.request "POST" ("/sessions/" ++ sessionId ++ "/messages") outcome).1.map fun _ => ()

/-- What a session that cannot be terminated any more is recognised by. -/
def doneWords : List String := ["already", "exited", "archived", "finished"]

/-- `any(s in msg for s in (...))`, where `msg` is in lower case. -/
def isDone (msg : String) : Bool := doneWords.any fun s => isIn s (String.ofList (lower msg.toList))

def terminateSession (outcome : ℕ → HttpOutcome β) : Except Exc Unit :=
  match (T.request "DELETE" ("/sessions/" ++ sessionId) outcome).1 with
  | .ok _ => .ok ()
  | .error exc =>
    -- nothing but a `RuntimeError` is looked into
    if exc.name = "RuntimeError" ∧ isDone exc.message = true then .ok () else .error exc

def healthcheck (outcome : ℕ → HttpOutcome β) : Bool := (T.request "GET" "/sessions" outcome).1.isOk

end HttpDevinClient

end Remediation
