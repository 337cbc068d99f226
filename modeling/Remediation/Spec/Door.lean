import Remediation.Lib.Table
import Remediation.Spec.Json

/-!
# The webhook door

Every request that comes to `POST /webhook/github` (`app/routes/webhook.py`, `app/signature.py`
and `record` of `app/db/webhook_events.py`): the checks that it must pass, in their order, the answer,
and what may be raised on the way. HMAC and the JSON codec of the standard library are
parameters (`Library`). What is done with a request that has passed is in `Webhook`.
-/

namespace Remediation

open Interaction PyText

abbrev Bytes : Type := List UInt8

/-- `s.encode()` -/
def utf8 (s : String) : Bytes := s.toUTF8.data.toList

/-- What the door calls: HMAC-SHA256 of a message under a key, and the functions of `json`.
`loads` takes a string as well as bytes. -/
structure Library where
  hmac : Bytes → Bytes → Bytes
  loads : String ⊕ Bytes → Except Exc Json
  dumps : Json → Except Exc String

/-! ## The signature -/

def hexdigest (digest : Bytes) : String :=
  String.ofList <| digest.flatMap fun b => [Nat.digitChar (b.toNat / 16), Nat.digitChar (b.toNat % 16)]

def isAscii (s : String) : Bool := s.toList.all (·.toNat < 128)

/-- `hmac.compare_digest` on two strings. -/
def compareDigest (a b : String) : Except Exc Bool :=
  if isAscii a && isAscii b then .ok (decide (a = b))
  else .error ⟨"TypeError", "comparing strings with non-ASCII characters is not supported"⟩

def signaturePrefix : String := "sha256="

variable (lib : Library)

def verifyGithubSignature (body : Bytes) (headerValue : Option String) (secret : String) :
    Except Exc Bool :=
  if secret = "" then .ok false
  else
    match truthy headerValue with
    | none => .ok false
    | some header =>
      if !startsWith header signaturePrefix then .ok false
      else
        let expected := hexdigest (lib.hmac (utf8 secret) body)
        compareDigest expected (removePrefix header signaturePrefix)

def signGithubPayload (body : Bytes) (secret : String) : String :=
  signaturePrefix ++ hexdigest (lib.hmac (utf8 secret) body)

/-! ## The record of the delivery -/

/-- Bind the third parameter of the statement. -/
def bindAction : Option Json → Except Exc SqlValue
  | none => .ok .null
  | some x => bindValue 3 x

/-- A row as `record` writes it. -/
structure DeliveryRow where
  rowid : ℕ
  deliveryId : String
  eventType : String
  action : SqlValue
  payloadJson : String

abbrev DeliveryTable : Type := Table DeliveryRow String DeliveryRow.rowid DeliveryRow.deliveryId

/-- `record`: the table after it, and whether the row is new. The only error that it handles is
that of the primary key. -/
def recordDelivery (deliveryId eventType : String) (action : Option Json) (payload : Json)
    (t : DeliveryTable) : Except Exc (Bool × DeliveryTable) := do
  let payloadJson ← lib.dumps payload
  let action ← bindAction action
  match t.insert (fun n => ⟨n, deliveryId, eventType, action, payloadJson⟩) fun _ => rfl with
  | some (_, t') => return (true, t')
  | none => return (false, t)

/-! ## The route -/

structure Request where
  body : Bytes
  xGithubEvent : Option String
  xGithubDelivery : Option String
  xHubSignature256 : Option String

inductive Reply
  | json (status deliveryId : String)
  | httpException (statusCode : ℕ) (detail : String)
  deriving DecidableEq

/-- The arguments of `_process`. -/
structure BackgroundTask where
  deliveryId : String
  eventType : String
  action : Option Json
  payload : Json

/-- What has become of a request: the answer or what is raised, the table, and the tasks. -/
structure Handled where
  reply : Except Exc Reply
  events : DeliveryTable
  tasks : List BackgroundTask

/-- `payload.get("action")` -/
def getAction : Json → Except Exc (Option Json) := Json.get "action"

/-- The body, where the headers are there. -/
def receiveBody (body : Bytes) (event delivery : String) (t : DeliveryTable) : Handled :=
  match lib.loads (.inr body) with
  | .error exc =>
    if exc.name = "JSONDecodeError" then ⟨.ok (.httpException 400 "invalid JSON body"), t, []⟩
    else ⟨.error exc, t, []⟩
  | .ok payload =>
    match getAction payload with
    | .error exc => ⟨.error exc, t, []⟩
    | .ok action =>
      match recordDelivery lib delivery event action payload t with
      | .error exc => ⟨.error exc, t, []⟩
      | .ok (false, _) => ⟨.ok (.json "duplicate" delivery), t, []⟩
      | .ok (true, t') => ⟨.ok (.json "accepted" delivery), t', [⟨delivery, event, action, payload⟩]⟩

/-- A request that is signed. -/
def receiveSigned (r : Request) (t : DeliveryTable) : Handled :=
  match truthy r.xGithubEvent, truthy r.xGithubDelivery with
  | some event, some delivery => receiveBody lib r.body event delivery t
  | _, _ => ⟨.ok (.httpException 400 "missing GitHub headers"), t, []⟩

/-- `github_webhook` for any request, `secret` being `settings.GH_WEBHOOK_SECRET`. -/
def githubWebhookRoute (secret : String) (r : Request) (t : DeliveryTable) : Handled :=
  match verifyGithubSignature lib r.body r.xHubSignature256 secret with
  | .error exc => ⟨.error exc, t, []⟩
  | .ok false => ⟨.ok (.httpException 401 "invalid signature"), t, []⟩
  | .ok true => receiveSigned lib r t

end Remediation
