import Remediation.Proof.Room

/-!
# Dispatching an event again

What the drain does about one event for which there is room: the dispatch creates a session at
most, and its result takes the event out of the queue.
-/

namespace Remediation

open Interaction Prog

/-! ## Events and their dispatch -/

namespace WebhookEvent

def queued (e : WebhookEvent) : Bool := e.handlerResult.any likeQueued

def security (e : WebhookEvent) : Bool := isSecurity e.eventType e.action e.payload

def workKey (S : Settings) (e : WebhookEvent) : String := securityWorkKey S e.payload.issue

def dispatch (S : Settings) (e : WebhookEvent) : M (Except Exc Outcome) :=
  Remediation.dispatch S e.eventType e.action e.payload

end WebhookEvent

/-- An event is dispatched again, and the result is put on record. -/
def redispatch (env : Outside) (S : Settings) (w : World) (e : WebhookEvent) : World :=
  let dispatched := (e.dispatch S).eval (exec env) w
  match dispatched.1 with
  | .error _ => dispatched.2
  | .ok outcome => (exec env (.markProcessed e.deliveryId outcome.text) dispatched.2).2

variable {env : Outside} {S : Settings} {w : World} {e : WebhookEvent}

theorem takes_redispatch (env : Outside) (S : Settings) (w : World) (e : WebhookEvent) :
    Takes 1 1 w (redispatch env S w e) := by
  have hdispatch : Takes 1 1 w ((e.dispatch S).eval (exec env) w).2 := takes_dispatch _ _ _
  unfold redispatch
  dsimp only
  split
  · exact hdispatch
  · exact hdispatch.trans (q := 0) (d := 0) (takes_skip rfl rfl)

theorem redispatch_ok {outcome : Outcome}
    (ho : ((e.dispatch S).eval (exec env) w).1 = .ok outcome) : redispatch env S w e =
      (exec env (.markProcessed e.deliveryId outcome.text) ((e.dispatch S).eval (exec env) w).2).2 := by
  unfold redispatch
  simp only [ho]

theorem exists_ok (hok : ((e.dispatch S).eval (exec env) w).1.isOk = true) :
    ∃ outcome, ((e.dispatch S).eval (exec env) w).1 = .ok outcome := by
  cases ho : ((e.dispatch S).eval (exec env) w).1 with
  | error exc =>
    rw [ho] at hok
    cases hok
  | ok outcome => exact ⟨outcome, rfl⟩

/-- With room, the event is off the queue, and the other rows of the log are as they were. -/
theorem redispatch_events (hroom : w.sessions.countActive < S.maxConcurrentSessions)
    (hok : ((e.dispatch S).eval (exec env) w).1.isOk = true) :
    ∃ text t, likeQueued text = false ∧
      (redispatch env S w e).events = w.events.markProcessed e.deliveryId text t := by
  have hevents : ((e.dispatch S).eval (exec env) w).2.events = w.events := dispatch_events _ _ _ _ _ _
  obtain ⟨outcome, ho⟩ := exists_ok hok
  refine ⟨outcome.text, (World.tick env ((e.dispatch S).eval (exec env) w).2).now, ?_, ?_⟩
  · rw [likeQueued_text]
    exact dispatch_room hroom ho
  · rw [redispatch_ok ho, ← hevents]
    rfl

/-- The drain does that about its first event. -/
theorem eval_retryQueued_cons (hroom : w.sessions.countActive < S.maxConcurrentSessions)
    (hok : ((e.dispatch S).eval (exec env) w).1.isOk = true) (rest : List WebhookEvent)
    (summary : Summary) :
    ∃ summary', (retryQueued S (e :: rest) summary).eval (exec env) w =
      (retryQueued S rest summary').eval (exec env) (redispatch env S w e) := by
  obtain ⟨outcome, ho⟩ := exists_ok hok
  have hno : PyText.startsWith outcome.text "queued:" = false := by
    rw [Bool.eq_false_iff]
    intro hq
    obtain ⟨why, rfl⟩ := (startsWith_queued _).1 hq
    have hwaits := dispatch_room hroom ho
    cases hwaits
  refine ⟨{ summary with
    queueRetried := summary.queueRetried + 1
    queueDispatched := summary.queueDispatched + 1 }, ?_⟩
  have ho' : ((dispatch S e.eventType e.action e.payload).eval (exec env) w).1 = .ok outcome := ho
  rw [retryQueued, bind_eq, eval_bind, ho', redispatch_ok ho]
  simp only [hno, Bool.not_false, if_true, perform, bind_eq, call_bind, ret_bind, eval_call]
  rfl

theorem eval_retryQueued_one (hroom : w.sessions.countActive < S.maxConcurrentSessions)
    (hok : ((e.dispatch S).eval (exec env) w).1.isOk = true) :
    ((retryQueued S [e] {}).eval (exec env) w).2 = redispatch env S w e := by
  obtain ⟨summary', he⟩ := eval_retryQueued_cons hroom hok [] {}
  rw [he]
  rfl

/-- The dispatch of a security issue does not raise. -/
theorem isOk_security (env : Outside) (S : Settings) (w : World) (hs : e.security = true) :
    ((e.dispatch S).eval (exec env) w).1.isOk = true := by
  rw [WebhookEvent.dispatch, dispatch_security hs, eval_bind]
  rfl

end Remediation
