import Remediation.Proof.Fifo

/-!
# How long an event waits

The queue of a serial run is one. A delivery puts one event at its end at most, and a tick takes as
many from its front as there are free places (`queue_job`). So a queued event waits until the ticks
have found more free places than there are events before it, whatever is delivered meanwhile, and
no longer (`bounded_waiting`).
-/

namespace Remediation

open Interaction Prog

variable {env : Outside} {S : Settings} {w : World}

/-- The queued events in the order of the log. -/
def World.queue (w : World) : List WebhookEvent := w.events.rows.filter (·.queued)

/-- The free places that a job offers to the queue. -/
def World.offers (S : Settings) (w : World) : Job → ℕ
  | .tick => S.maxConcurrentSessions - w.sessions.countActive
  | .webhook _ _ _ _ => 0

/-- The free places that the jobs offer one after the other. -/
def offered (env : Outside) (S : Settings) : World → List Job → ℕ
  | _, [] => 0
  | w, job :: jobs => w.offers S job + offered env S (w.afterJob env S job) jobs

/-! ## A tick -/

/-- What is retried leaves the queue. -/
theorem queue_retryQueued (env : Outside) {rows beyond : List WebhookEvent} (hL : LogOK w)
    (hq : w.queue = rows ++ beyond)
    (hroom : w.sessions.countActive + rows.length ≤ S.maxConcurrentSessions) (summary : Summary) :
    ((retryQueued S rows summary).eval (exec env) w).2.queue = beyond := by
  induction rows generalizing w summary with
  | nil => exact hq
  | cons row rest ih =>
    rw [List.length_cons] at hroom
    have hfree : w.sessions.countActive < S.maxConcurrentSessions := by omega
    have hhead : row ∈ w.queue := by
      rw [hq]
      exact List.mem_cons_self
    have hrow : row ∈ w.events.rows ∧ row.queued = true := List.mem_filter.1 hhead
    have hok := isOk_security env S w (hL.security row hrow.1 hrow.2)
    obtain ⟨hL', hq', hactive⟩ := retry_spec env hL hq hfree
    obtain ⟨summary', he⟩ := eval_retryQueued_cons hfree hok rest summary
    rw [he]
    exact ih hL' hq' (by omega) summary'

theorem queue_drainQueue (env : Outside) (hL : LogOK w) :
    ((drainQueue S).eval (exec env) w).2.queue = w.queue.drop (w.offers S .tick) := by
  by_cases hfull : S.maxConcurrentSessions ≤ w.sessions.countActive
  · have hnone : w.offers S .tick = 0 := Nat.sub_eq_zero_of_le hfull
    rw [eval_drainQueue_full env hfull, hnone]
    rfl
  · have hroom : w.sessions.countActive < S.maxConcurrentSessions := not_le.1 hfull
    rw [eval_drainQueue_room env hroom]
    obtain ⟨hL', -, hle⟩ := drain_spec env hL hroom
    have hlist : (exec env (.listQueued (S.maxConcurrentSessions - w.sessions.countActive))
        (exec env .countActive w).2).1 = w.queue.take (w.offers S .tick) :=
      (hL.later rfl (now_le _) : LogOK (exec env .countActive w).2).listQueued _
    refine queue_retryQueued env hL' ?_ hle _
    rw [hlist]
    exact (List.take_append_drop _ _).symm

theorem queue_pollAll (env : Outside) (w : World) (summary : Summary) :
    ((pollAll S summary).eval (exec env) w).2.queue = w.queue := by
  have hsilent : (pollAll S summary).Keeps silent (fun _ _ => True) [] :=
    (polls_pollAll summary).weaken
      (fun _ op (hop : op.logs = false ∧ op.creates = none) => hop.1) fun _ _ _ _ => trivial
  have hevents := (eval_silent (Q := fun _ => True) hsilent env w).1
  rw [World.queue, hevents]
  rfl

/-! ## A delivery -/

/-- The event of a result that is stored waits last, or not at all. -/
theorem queue_markProcessed {old : List WebhookEvent} {e : WebhookEvent} {result : String}
    (hrows : w.events.rows = old ++ [e]) (hfresh : ∀ f ∈ old, f.deliveryId ≠ e.deliveryId) :
    ∃ rest, (exec env (.markProcessed e.deliveryId result) w).2.queue =
      old.filter (·.queued) ++ rest ∧ ∀ f ∈ rest, f.rowid = e.rowid := by
  have hold : ∀ now, old.map (fun f => if f.deliveryId = e.deliveryId then
      { f with processedAt := some (currentTimestamp now), handlerResult := some result } else f) =
      old := by
    intro now
    refine (List.map_congr_left fun f hf => ?_).trans (List.map_id old)
    rw [if_neg (hfresh f hf)]
    rfl
  have hnew : (exec env (.markProcessed e.deliveryId result) w).2.events.rows = old ++
      [{ e with
          processedAt := some (currentTimestamp (w.tick env).now)
          handlerResult := some result }] := by
    change (w.events.markProcessed e.deliveryId result (w.tick env).now).rows = _
    rw [rows_markProcessed, hrows, List.map_append, hold, List.map_singleton, if_pos rfl]
  refine ⟨_, by rw [World.queue, hnew, List.filter_append], fun f hf => ?_⟩
  rw [List.mem_singleton.1 (List.mem_of_mem_filter hf)]

/-- A delivery leaves the queue as it is, but for its own event at the end. -/
theorem queue_webhook (env : Outside) (S : Settings) (w : World) (d eventType : String)
    (action : Option String) (payload : Payload) :
    ∃ rest, (w.afterJob env S (.webhook d eventType action payload)).queue = w.queue ++ rest ∧
      ∀ e ∈ rest, w.events.next ≤ e.rowid := by
  unfold World.afterJob Job.prog githubWebhook receive
  simp only [perform, bind_eq, call_bind, ret_bind, eval_call]
  cases hnew : (exec env (.record d eventType action payload) w).1 with
  | false =>
    rcases exec_record env w d eventType action payload with ⟨hr, -, -⟩ | ⟨-, he, -⟩
    · rw [hnew] at hr
      cases hr
    · refine ⟨[], ?_, fun _ h => by cases h⟩
      change (exec env (.record d eventType action payload) w).2.queue = _
      rw [World.queue, he, List.append_nil]
      rfl
  | true =>
    obtain ⟨e, -, hrows, rfl, -, -, -, -, hid, -⟩ := arrival_eq hnew
    have hfresh : ∀ f ∈ w.events.rows, f.deliveryId ≠ e.deliveryId := by
      intro f hf hd
      rcases exec_record env w e.deliveryId eventType action payload with ⟨-, -, hf'⟩ | ⟨hr, -, -⟩
      · exact hf' (List.mem_map.2 ⟨f, hf, hd⟩)
      · rw [hnew] at hr
        cases hr
    rw [if_pos rfl, Remediation.process, bind_eq, eval_bind]
    set w1 := (exec env (.record e.deliveryId eventType action payload) w).2 with hw1
    have hevents : ((dispatch S eventType action payload).eval (exec env) w1).2.events = w1.events :=
      dispatch_events _ _ _ _ _ _
    rw [← hevents] at hrows
    obtain ⟨rest, hqueue, hrest⟩ := queue_markProcessed hrows hfresh
    refine ⟨rest, hqueue, fun f hf => ?_⟩
    rw [hrest f hf, hid]

/-- **What a job does to the queue**: as many leave it at the front as there are free places, and
what comes to the end is new. -/
theorem queue_job (env : Outside) (S : Settings) (hL : LogOK w) (job : Job) :
    ∃ rest, (w.afterJob env S job).queue = w.queue.drop (w.offers S job) ++ rest ∧
      ∀ e ∈ rest, w.events.next ≤ e.rowid := by
  cases job with
  | webhook d eventType action payload => exact queue_webhook env S w d eventType action payload
  | tick =>
    refine ⟨[], ?_, fun _ h => by cases h⟩
    rw [List.append_nil, ← queue_drainQueue env hL]
    unfold World.afterJob Job.prog discard
    rw [bind_eq, eval_bind, pollOnce_eq, eval_bind]
    exact queue_pollAll env _ _

/-! ## Runs -/

theorem next_le_exec (env : Outside) (op : Op) (w : World) :
    w.events.next ≤ (exec env op w).2.events.next := by
  cases hlogs : op.logs with
  | false => rw [exec_events hlogs]
  | true =>
    cases op with
    | markProcessed d r =>
      change _ ≤ (w.events.markProcessed d r _).next
      unfold WebhookEvents.markProcessed
      split <;> exact le_rfl
    | record d eventType action payload =>
      unfold exec World.answer
      dsimp only
      split
      · rename_i n t' h
        obtain ⟨rfl, -, -, hnext⟩ := Table.insert_eq_some h
        change w.events.next ≤ t'.next
        rw [hnext]
        exact Nat.le_succ _
      · exact le_rfl
    | _ => cases hlogs

theorem next_le_eval {α : Type} (env : Outside) (p : M α) (w : World) :
    w.events.next ≤ (p.eval (exec env) w).2.events.next := by
  induction p generalizing w with
  | ret a => exact le_rfl
  | call op k ih => exact (next_le_exec env op w).trans (ih _ _)

/-- The state after jobs that run one after the other. -/
def World.afterJobs (env : Outside) (S : Settings) (w : World) (jobs : List Job) : World :=
  jobs.foldl (World.afterJob env S) w

theorem logOK_jobs (hL : LogOK w) (jobs : List Job) : LogOK (w.afterJobs env S jobs) :=
  List.foldlRecOn jobs (World.afterJob env S) hL fun _ hL job _ => logOK_job hL job

/-- What has been queued moves up by the places that are offered. -/
theorem queue_jobs (env : Outside) (S : Settings) (hL : LogOK w) (jobs : List Job) :
    ∃ rest, (w.afterJobs env S jobs).queue = w.queue.drop (offered env S w jobs) ++ rest ∧
      ∀ e ∈ rest, w.events.next ≤ e.rowid := by
  induction jobs generalizing w with
  | nil => exact ⟨[], (List.append_nil _).symm, fun _ h => by cases h⟩
  | cons job jobs ih =>
    obtain ⟨new, hjob, hnew⟩ := queue_job env S hL job
    obtain ⟨rest, hrun, hrest⟩ := ih (logOK_job hL job)
    have hnext : w.events.next ≤ (w.afterJob env S job).events.next := next_le_eval env _ _
    rw [hjob, List.drop_append, List.drop_drop, List.append_assoc] at hrun
    refine ⟨_, hrun, fun e he => ?_⟩
    rcases List.mem_append.1 he with he | he
    · exact hnew e (List.mem_of_mem_drop he)
    · exact hnext.trans (hrest e he)

/-- **An event waits for its turn and no longer.** In every serial run of deliveries and ticks from
an empty log: the event that has `n` others before it in the queue is still there after more jobs
exactly if their ticks have offered no more than `n` free places, whatever has been delivered
meanwhile. -/
theorem bounded_waiting (sessions : Sessions) (now : Time) (before jobs : List Job) :
    let w := World.afterJobs env S { sessions, events := .empty, now } before
    ∀ n : Fin w.queue.length,
      w.queue.get n ∈ (w.afterJobs env S jobs).queue ↔ offered env S w jobs ≤ n := by
  intro w n
  have hempty : LogOK { sessions, events := .empty, now } :=
    ⟨List.Pairwise.nil, fun _ he => (by cases he), fun _ he => (by cases he)⟩
  have hL : LogOK w := logOK_jobs hempty before
  obtain ⟨rest, hrun, hrest⟩ := queue_jobs env S hL jobs
  have hold : w.queue.get n ∈ w.events.rows := List.mem_of_mem_filter (List.get_mem _ _)
  have hnew : w.queue.get n ∉ rest := by
    intro hmem
    have hlt := w.events.fresh _ hold
    have hge := hrest _ hmem
    omega
  have hnd : w.queue.Nodup := (List.Nodup.of_map _ w.events.ids).filter _
  rw [hrun, List.mem_append, or_iff_left hnew]
  constructor
  · intro hmem
    obtain ⟨i, hi, heq⟩ := List.getElem_of_mem hmem
    rw [List.getElem_drop] at heq
    have hsame : offered env S w jobs + i = n := (List.Nodup.getElem_inj_iff hnd).1 heq
    omega
  · intro hle
    refine List.mem_iff_getElem.2 ⟨n - offered env S w jobs, ?_, ?_⟩
    · have hlt := n.2
      rw [List.length_drop]
      omega
    · have hsum : offered env S w jobs + (n - offered env S w jobs) = n := by omega
      simp only [List.getElem_drop, hsum]
      rfl

end Remediation
