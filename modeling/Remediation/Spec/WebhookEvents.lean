import Remediation.Spec.Payload
import Remediation.Spec.Sessions

/-!
# The `webhook_events` table

The idempotency log of incoming events (`app/db/webhook_events.py`): one row per
delivery id. The payload is stored as JSON text, read back as it was.
-/

namespace Remediation

open Interaction

structure WebhookEvent where
  rowid : ℕ
  deliveryId : String
  eventType : String
  action : Option String
  payload : Payload
  receivedAt : Time
  processedAt : Option Time := none
  handlerResult : Option String := none

abbrev WebhookEvents : Type := Table WebhookEvent String WebhookEvent.rowid WebhookEvent.deliveryId

/-- `LIKE 'queued:%'`, which ignores the case of ASCII letters. -/
def likeQueued (result : String) : Bool :=
  (result.toList.take 7).map Char.toLower = "queued:".toList

theorem likeQueued_append (why : String) : likeQueued ("queued:" ++ why) = true := by
  simp only [likeQueued, String.toList_append]
  rw [List.take_left' (by decide)]
  decide

namespace WebhookEvents

def record (deliveryId eventType : String) (action : Option String) (payload : Payload) (now : Time)
    (t : WebhookEvents) : Option (ℕ × WebhookEvents) :=
  t.insert (fun n => ⟨n, deliveryId, eventType, action, payload, currentTimestamp now, none, none⟩)
    fun _ => rfl

/-- Set the result of the row with a delivery id, if there is one. -/
def markProcessed (deliveryId result : String) (now : Time) (t : WebhookEvents) : WebhookEvents :=
  match t.rows.find? fun e => e.deliveryId = deliveryId with
  -- an UPDATE that matches no row
  | none => t
  | some e =>
    Table.update t e.rowid
      (fun e => { e with processedAt := some (currentTimestamp now), handlerResult := some result })
      (fun _ => rfl) fun _ => rfl

/-- The rows whose last handler result was `queued:*`. -/
def queued (t : WebhookEvents) : List WebhookEvent :=
  (t.rows.filter fun e => e.handlerResult.any likeQueued).insertionSort
    fun d e => d.receivedAt ≤ e.receivedAt

def listQueued (limit : ℕ) (t : WebhookEvents) : List WebhookEvent := t.queued.take limit

end WebhookEvents

end Remediation
