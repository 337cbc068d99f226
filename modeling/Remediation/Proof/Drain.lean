import Remediation.Proof.Redispatch
import Remediation.Proof.Tick

/-!
# What a drain does

The capacity is computed once, but each dispatch counts again, in a table that the ones before
it have changed. Since a dispatch takes one place at most, there is still room for the last
event of the batch, so none of them is queued again: `drain_exact` says that a drain is
exactly the dispatch of the events that have waited longest, as many as there is room for.
-/

namespace Remediation

open Interaction Prog

/-- No dispatch raises, of events that are dispatched one after the other. -/
def NoneRaises (env : Outside) (S : Settings) : World → List WebhookEvent → Prop
  | _, [] => True
  | w, e :: es => ((e.dispatch S).eval (exec env) w).1.isOk = true ∧
      NoneRaises env S (redispatch env S w e) es

instance decidableNoneRaises (env : Outside) (S : Settings) :
    (es : List WebhookEvent) → (w : World) → Decidable (NoneRaises env S w es)
  | [], _ => .isTrue trivial
  | e :: es, w => @instDecidableAnd _ _ inferInstance
      (decidableNoneRaises env S es (redispatch env S w e))

/-- What a drain should do with the room for `c` more sessions: `batch` is what it dispatches. -/
structure Drains (S : Settings) (c : ℕ) (batch : List WebhookEvent) (w w' : World) : Prop where
  /-- as many events as possible -/
  length : batch.length = min c (w.events.rows.countP (·.queued))
  /-- those that have waited longest -/
  oldest : ∃ beyond, (batch ++ beyond).Perm (w.events.rows.filter (·.queued)) ∧
    (batch ++ beyond).Pairwise fun d e => d.receivedAt ≤ e.receivedAt
  /-- no delivery is lost, or added -/
  log : w'.events.rows.map (·.deliveryId) = w.events.rows.map (·.deliveryId)
  /-- none of the batch remains queued -/
  processed : ∀ e ∈ w'.events.rows, e.deliveryId ∈ batch.map (·.deliveryId) → e.queued = false
  others : w'.events.rows.filter (fun e => e.deliveryId ∉ batch.map (·.deliveryId)) =
    w.events.rows.filter fun e => e.deliveryId ∉ batch.map (·.deliveryId)
  rows : w'.sessions.rows.length ≤ w.sessions.rows.length + c
  created : creations w'.trace ≤ creations w.trace + c
  cap : w'.sessions.countActive ≤ S.maxConcurrentSessions

variable {env : Outside} {S : Settings} {w : World} {e : WebhookEvent}

/-! ## The batch -/

/-- The results of events are put on record one after the other, and none of them waits again. -/
inductive Marked : List WebhookEvent → WebhookEvents → WebhookEvents → Prop
  | nil (t : WebhookEvents) : Marked [] t t
  | cons {e : WebhookEvent} {rest : List WebhookEvent} {t t' : WebhookEvents} (text : String)
      (now : Time) : likeQueued text = false → Marked rest (t.markProcessed e.deliveryId text now) t' →
      Marked (e :: rest) t t'

/-- The drain dispatches the batch, takes one place for each event at most, and marks each. -/
theorem eval_retryQueued_batch {rows : List WebhookEvent}
    (hroom : w.sessions.countActive + rows.length ≤ S.maxConcurrentSessions)
    (hok : NoneRaises env S w rows) (summary : Summary) :
    let w' := rows.foldl (redispatch env S) w
    ((retryQueued S rows summary).eval (exec env) w).2 = w' ∧
      Takes rows.length rows.length w w' ∧ Marked rows w.events w'.events := by
  induction rows generalizing w summary with
  | nil => exact ⟨rfl, .nothing w, .nil _⟩
  | cons e rest ih =>
    rw [List.length_cons] at hroom
    have htakes := takes_redispatch env S w e
    have hactive := htakes.active
    obtain ⟨summary', he⟩ := eval_retryQueued_cons (by omega) hok.1 rest summary
    obtain ⟨text, t, hlike, hevents⟩ := redispatch_events (by omega) hok.1
    obtain ⟨hrest, htakes', hmarked⟩ := ih (w := redispatch env S w e) (by omega) hok.2 summary'
    rw [hevents] at hmarked
    rw [he, List.foldl_cons, List.length_cons, Nat.add_comm rest.length 1]
    exact ⟨hrest, htakes.trans htakes', .cons text t hlike hmarked⟩

namespace Marked

variable {rows : List WebhookEvent} {t t' : WebhookEvents}

/-- None of the events is queued after it, nor any delivery that has not been queued before. -/
theorem not_queued (h : Marked rows t t') {d : String}
    (hd : d ∈ rows.map (·.deliveryId) ∨ ∀ e ∈ t.rows, e.deliveryId = d → e.queued = false) :
    ∀ e ∈ t'.rows, e.deliveryId = d → e.queued = false := by
  induction h with
  | nil t => exact hd.resolve_left List.not_mem_nil
  | @cons e rest t t' text now hlike h ih =>
    refine ih ?_
    by_cases hrest : d ∈ rest.map (·.deliveryId)
    · exact Or.inl hrest
    · right
      intro e' he' hid
      rcases mem_markProcessed he' with ⟨hold, hne⟩ | ⟨e₀, -, -, rfl⟩
      · rcases hd with hd | hd
        · -- the delivery is that of the event itself
          rcases List.mem_cons.1 hd with he | hd
          · exact absurd (hid.trans he) hne
          · exact absurd hd hrest
        · exact hd e' hold hid
      · simp [WebhookEvent.queued, hlike]

theorem deliveries (h : Marked rows t t') :
    t'.rows.map (·.deliveryId) = t.rows.map (·.deliveryId) := by
  induction h with
  | nil t => rfl
  | @cons e rest t t' text now hlike h ih =>
    rw [ih, rows_markProcessed, List.map_map]
    refine List.map_congr_left fun e' _ => ?_
    rw [Function.comp_apply]
    split
    · rfl
    · rfl

/-- The rows of other deliveries stay as they are. -/
theorem others (h : Marked rows t t') (ids : List String) (hids : ∀ e ∈ rows, e.deliveryId ∈ ids) :
    t'.rows.filter (fun e => e.deliveryId ∉ ids) = t.rows.filter fun e => e.deliveryId ∉ ids := by
  induction h with
  | nil t => rfl
  | @cons e rest t t' text now hlike h ih =>
    rw [ih fun e' he' => hids e' (List.mem_cons_of_mem _ he'), rows_markProcessed]
    have he := hids e List.mem_cons_self
    -- the row that is written is dropped
    induction t.rows with
    | nil => rfl
    | cons e' es ih' =>
      rw [List.map_cons]
      by_cases hd : e'.deliveryId = e.deliveryId
      · rw [if_pos hd, List.filter_cons_of_neg (by simpa [hd] using he),
          List.filter_cons_of_neg (by simpa [hd] using he), ih']
      · rw [if_neg hd, List.filter_cons, List.filter_cons, ih']

end Marked

/-! ## The drain -/

/-- **A drain is exact.** In any state: with room for `c > 0` more sessions, and if no dispatch
raises, it dispatches the `c` events that have waited longest, or all of them if there are
fewer, and that is all it does; without room it does nothing. -/
theorem drain_exact (env : Outside) (S : Settings) (w : World) :
    let w' := ((drainQueue S).eval (exec env) w).2
    let c := S.maxConcurrentSessions - w.sessions.countActive
    let batch := w.events.listQueued c
    let listed := (exec env (.listQueued c) (exec env .countActive w).2).2
    (w.sessions.countActive < S.maxConcurrentSessions → NoneRaises env S listed batch →
      w' = batch.foldl (redispatch env S) listed ∧ Drains S c batch w w') ∧
    (S.maxConcurrentSessions ≤ w.sessions.countActive →
      w'.sessions = w.sessions ∧ w'.events = w.events ∧ w'.remote = w.remote ∧
        creations w'.trace = creations w.trace) := by
  intro w' c batch listed
  constructor
  · intro hroom hok
    have hbatch : batch.length ≤ c := List.length_take_le _ _
    have hfit : listed.sessions.countActive + batch.length ≤ S.maxConcurrentSessions := by
      change w.sessions.countActive + batch.length ≤ S.maxConcurrentSessions
      omega
    obtain ⟨heval, htakes, hmarked⟩ :=
      eval_retryQueued_batch hfit hok { queueSeen := batch.length }
    have hw' : w' = batch.foldl (redispatch env S) listed := by
      rw [← heval]
      exact congrArg Prod.snd (eval_drainQueue_room env hroom)
    have hmem : ∀ e ∈ batch, e.deliveryId ∈ batch.map (·.deliveryId) :=
      fun e he => List.mem_map.2 ⟨e, he, rfl⟩
    have htakes' : Takes c c w w' := by
      rw [hw']
      exact (htakes.mono hbatch hbatch).after ((takes_skip rfl rfl).after (takes_skip rfl rfl))
    have hperm : w.events.queued.Perm (w.events.rows.filter (·.queued)) :=
      List.perm_insertionSort _ _
    refine ⟨hw', ?_, ⟨w.events.queued.drop c, ?_, ?_⟩, ?_, ?_, ?_, htakes'.rows, htakes'.calls, ?_⟩
    · change (w.events.queued.take c).length = _
      rw [List.length_take, hperm.length_eq, List.countP_eq_length_filter]
    · change (w.events.queued.take c ++ _).Perm _
      rw [List.take_append_drop]
      exact hperm
    · change (w.events.queued.take c ++ _).Pairwise _
      rw [List.take_append_drop]
      exact List.pairwise_insertionSort _ _
    · rw [hw', hmarked.deliveries]
      rfl
    · intro e he hid
      rw [hw'] at he
      exact hmarked.not_queued (Or.inl hid) e he rfl
    · rw [hw', hmarked.others _ hmem]
      rfl
    · have hactive := htakes'.active
      omega
  · intro hfull
    have hw' : w' = (exec env .countActive w).2 := congrArg Prod.snd (eval_drainQueue_full env hfull)
    rw [hw']
    exact ⟨rfl, rfl, rfl, by rw [creations_exec]; rfl⟩

namespace Backlog

def settings : Settings := { maxConcurrentSessions := 2 }

/-- A queued delivery of an issue. -/
def waiting (rowid : ℕ) (deliveryId : String) (number : ℤ) (receivedAt : Time) : WebhookEvent where
  rowid := rowid
  deliveryId := deliveryId
  eventType := "issues"
  action := some "opened"
  payload := { issue := .sample number }
  receivedAt := receivedAt
  handlerResult := some "queued:concurrency_cap"

/-- The issue 2 has been delivered twice, both times before the issue 1. -/
def world : World where
  sessions := .empty
  events := ⟨[waiting 1 "a" 1 30, waiting 2 "b" 2 10, waiting 3 "c" 2 20], 4, by decide, by decide,
    by decide⟩
  now := 100

theorem oldest_two_dispatched :
    Drains settings 2 (world.events.listQueued 2) world
      ((drainQueue settings).eval (exec .calm) world).2 :=
  ((drain_exact .calm settings world).1 (by decide) (by decide +kernel)).2

end Backlog

end Remediation
