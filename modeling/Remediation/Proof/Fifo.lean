import Remediation.Proof.Redispatch
import Remediation.Proof.Tick
import Remediation.Spec.Webhook

/-!
# First come, first served

The queue is drained in the order of receipt, with as many events as there is room for.
But a tick frees room after the drain, and a new delivery takes it without a look at the
queue. Sessions are created in the order of receipt exactly if that does not happen
(`first_come_first_served_iff`); a delivery that comes between two ticks overtakes the
queue (`arrival_overtakes`).
-/

namespace Remediation

open Interaction Prog

/-! ## Jobs and dispatches -/

/-- The state after a job that runs alone. -/
def World.afterJob (env : Outside) (S : Settings) (w : World) (job : Job) : World :=
  ((job.prog S).eval (exec env) w).2

/-- The event that a delivery puts on record as new, with the state in which it is dispatched. -/
def arrival (env : Outside) (w : World) : Job → Option (WebhookEvent × World)
  | .webhook deliveryId eventType action payload =>
    let recorded := exec env (.record deliveryId eventType action payload) w
    if recorded.1 then
      (recorded.2.events.rows.find? fun e => e.deliveryId = deliveryId).map (·, recorded.2)
    else none
  | .tick => none

/-- The events that `retryQueued` dispatches, each with the state in which it does so. -/
def retries (env : Outside) (S : Settings) : List WebhookEvent → World → List (WebhookEvent × World)
  | [], _ => []
  | row :: rest, w =>
    (row, w) :: retries env S rest ((retryQueued S [row] {}).eval (exec env) w).2

/-- The events that a job dispatches, each with the state in which it does so. -/
def dispatches (env : Outside) (S : Settings) (w : World) : Job → List (WebhookEvent × World)
  | .webhook deliveryId eventType action payload =>
    (arrival env w (.webhook deliveryId eventType action payload)).toList
  | .tick =>
    let active := exec env .countActive w
    if S.maxConcurrentSessions ≤ active.1 then []
    else
      let queued := exec env (.listQueued (S.maxConcurrentSessions - active.1)) active.2
      retries env S queued.1 queued.2

/-! ## The order of receipt -/

/-- A security issue with another work key was received before the event, and is still queued. -/
def Overtakes (S : Settings) (e : WebhookEvent) (t : WebhookEvents) : Prop :=
  ∃ d ∈ t.rows, d.security = true ∧ d.queued = true ∧ d.workKey S ≠ e.workKey S ∧ d.rowid < e.rowid

instance (S : Settings) (e : WebhookEvent) (t : WebhookEvents) : Decidable (Overtakes S e t) :=
  inferInstanceAs (Decidable (∃ d ∈ t.rows, _))

/-- Whenever the dispatch of a security issue creates a session, it overtakes no other. -/
def CreatesInOrder (env : Outside) (S : Settings) (e : WebhookEvent) (w : World) : Prop :=
  e.security = true → (e.dispatch S).Along (exec env)
    (fun _ w op _ => op.creates.isSome = true → ¬Overtakes S e w.events) [] w

instance (env : Outside) (S : Settings) (e : WebhookEvent) (w : World) :
    Decidable (CreatesInOrder env S e w) :=
  inferInstanceAs (Decidable (e.security = true → _))

/-- Sessions are created in the order of receipt, in all jobs. -/
def FirstComeFirstServed (env : Outside) (S : Settings) : World → List Job → Prop
  | _, [] => True
  | w, job :: jobs =>
    (∀ x ∈ dispatches env S w job, CreatesInOrder env S x.1 x.2) ∧
      FirstComeFirstServed env S (w.afterJob env S job) jobs

instance decidableFirstComeFirstServed (env : Outside) (S : Settings) :
    (jobs : List Job) → (w : World) → Decidable (FirstComeFirstServed env S w jobs)
  | [], _ => .isTrue trivial
  | job :: jobs, w =>
    @instDecidableAnd _ _ inferInstance
      (decidableFirstComeFirstServed env S jobs (w.afterJob env S job))

/-- The handler of an issue that comes now gets as far as `create_session`: there is room under
both caps, the work key is new, the issue is well formed, and there is a client. -/
def Admitted (env : Outside) (S : Settings) (issue : Issue) (w : World) : Prop :=
  w.sessions.countActive < S.maxConcurrentSessions ∧
  w.sessions.countStartedToday (w.now + env.elapse w.clock + env.elapse (w.clock + 1)) <
    S.maxSessionsPerDay ∧
  securityWorkKey S issue ∉ w.sessions.rows.map (·.workKey) ∧
  (∃ ctx ∈ parseIssueToCveContext issue, ctx.missingRequiredFields = []) ∧
  (env.getClient (w.clock + 3)).isOk = true

/-- A delivery that gets its session at once finds no event of another issue in the queue. -/
def QueueClear (env : Outside) (S : Settings) : World → List Job → Prop
  | _, [] => True
  | w, job :: jobs =>
    (∀ x ∈ arrival env w job, x.1.security = true → Admitted env S x.1.payload.issue x.2 →
      ∀ d ∈ x.2.events.rows, d.queued = true → d.workKey S = x.1.workKey S) ∧
    QueueClear env S (w.afterJob env S job) jobs

variable {env : Outside} {S : Settings} {w : World} {h : Hist} {P : WebhookEvents → Prop}

/-! ## Where a session is created -/

/-- The log satisfies `P` whenever a session is created. -/
def WhenCreating (P : WebhookEvents → Prop) (w : World) (op : Op) (_ : Ans op) : Prop :=
  op.creates.isSome = true → P w.events

theorem along_markFailed (pk : ℕ) (reason : String) :
    (markFailed pk reason).Along (exec env) (fun _ => WhenCreating P) h w :=
  ⟨fun hc => (by cases hc), fun hc => (by cases hc), trivial⟩

theorem along_spawnSession (pk : ℕ) (workKey : String) (req : CreateRequest) :
    (spawnSession pk workKey req).Along (exec env) (fun _ => WhenCreating P) h w ↔
      ((env.getClient w.clock).isOk = true → P w.events) := by
  have hclient : (exec env .getClient w).1 = env.getClient w.clock := rfl
  unfold spawnSession
  simp only [perform, bind_eq, call_bind, ret_bind, Along, hclient]
  cases env.getClient w.clock with
  | error exc =>
    refine ⟨fun _ hok => (by cases hok), fun _ => ⟨fun hc => (by cases hc), ?_⟩⟩
    exact (along_bind _ _ _ h _).2 ⟨along_markFailed pk _, trivial⟩
  | ok _ =>
    refine ⟨fun hp _ => hp.2.1 rfl, fun hp => ⟨fun hc => (by cases hc), fun _ => hp rfl, ?_⟩⟩
    dsimp only
    split
    · exact (along_bind _ _ _ h _).2 ⟨along_markFailed pk _, trivial⟩
    · exact ⟨fun hc => (by cases hc), trivial⟩

theorem along_remediate (issue : Issue) (pk : ℕ) (workKey : String) :
    (remediate S issue pk workKey).Along (exec env) (fun _ => WhenCreating P) h w ↔
      ((∃ ctx ∈ parseIssueToCveContext issue, ctx.missingRequiredFields = []) →
        (env.getClient w.clock).isOk = true → P w.events) := by
  unfold remediate
  split
  · rename_i hnone
    refine ⟨fun _ hctx => ?_, fun _ => (along_bind _ _ _ h _).2 ⟨along_markFailed pk _, trivial⟩⟩
    obtain ⟨ctx, hctx, -⟩ := hctx
    rw [hnone] at hctx
    cases hctx
  · rename_i ctx hctx
    dsimp only
    split
    · rename_i hmissing
      refine ⟨fun _ hctx' => ?_, fun _ => (along_bind _ _ _ h _).2 ⟨along_markFailed pk _, trivial⟩⟩
      obtain ⟨ctx', hctx', hno⟩ := hctx'
      rw [hctx] at hctx'
      cases hctx'
      exact absurd hno hmissing
    · rename_i hmissing
      rw [along_spawnSession]
      refine ⟨fun hp _ => hp, fun hp => hp ⟨ctx, hctx, ?_⟩⟩
      by_contra hne
      exact hmissing hne

/-- **When a security issue gets its session.** -/
theorem along_handleSecurityIssue (issue : Issue) :
    (handleSecurityIssue S issue).Along (exec env) (fun _ => WhenCreating P) h w ↔
      (Admitted env S issue w → P w.events) := by
  unfold handleSecurityIssue
  simp only [perform, bind_eq, call_bind, ret_bind, Along]
  have hactive : (exec env .countActive w).1 = w.sessions.countActive := rfl
  have htoday : (exec env .countStartedToday (exec env .countActive w).2).1 =
      w.sessions.countStartedToday (w.now + env.elapse w.clock + env.elapse (w.clock + 1)) := rfl
  rw [hactive]
  split
  · rename_i hfull
    refine ⟨fun _ hadm => ?_, fun _ => ⟨fun hc => (by cases hc), trivial⟩⟩
    have := hadm.1
    omega
  simp only [Along]
  rw [htoday]
  split
  · rename_i hday
    refine ⟨fun _ hadm => ?_, fun _ => ⟨fun hc => (by cases hc), fun hc => (by cases hc), trivial⟩⟩
    have := hadm.2.1
    omega
  rename_i hroom hday
  simp only [Along]
  set w2 := (exec env .countStartedToday (exec env .countActive w).2).2 with hw2
  have hno : ∀ {op : Op}, op.creates = none → ∀ {w : World} {a : Ans op}, WhenCreating P w op a := by
    intro op hop w a hc
    rw [hop] at hc
    cases hc
  rcases exec_tryReserve env w2 (securityReservation S issue) with ⟨pk, t, ha, ht, hs⟩ | ⟨ha, ht, -⟩
  · obtain ⟨-, hnew, -⟩ := Sessions.tryReserve_eq_some ht
    rw [ha]
    dsimp only
    rw [along_remediate]
    have hev : (exec env (.tryReserve (securityReservation S issue)) w2).2.events = w.events :=
      exec_events rfl
    rw [hev]
    constructor
    · rintro ⟨-, -, -, hp⟩ ⟨-, -, -, hctx, hclient⟩
      exact hp hctx hclient
    · intro hp
      refine ⟨hno rfl, hno rfl, hno rfl, fun hctx hclient => hp ⟨?_, ?_, hnew, hctx, hclient⟩⟩
      · omega
      · omega
  · rw [ha]
    refine ⟨fun _ hadm => absurd (Table.insert_eq_none.1 ht) hadm.2.2.1, fun _ => ?_⟩
    exact ⟨hno rfl, hno rfl, hno rfl, trivial⟩

theorem createsInOrder_iff {e : WebhookEvent} : CreatesInOrder env S e w ↔
    (e.security = true → Admitted env S e.payload.issue w → ¬Overtakes S e w.events) := by
  refine imp_congr_right fun hs => ?_
  rw [WebhookEvent.dispatch, dispatch_security hs]
  change Along (exec env) (fun _ => WhenCreating fun t => ¬Overtakes S e t) _ _ _ ↔ _
  rw [along_bind _ _ _ []]
  exact ⟨fun hp => (along_handleSecurityIssue _).1 hp.1,
    fun hp => ⟨(along_handleSecurityIssue _).2 hp, trivial⟩⟩

/-! ## The log -/

/-- The log is in the order of receipt, and only security issues are queued. -/
structure LogOK (w : World) : Prop where
  ordered : w.events.rows.Pairwise fun d e => d.rowid < e.rowid ∧ d.receivedAt ≤ e.receivedAt
  past : ∀ e ∈ w.events.rows, e.receivedAt ≤ currentTimestamp w.now
  security : ∀ e ∈ w.events.rows, e.queued = true → e.security = true

theorem currentTimestamp_mono {t t' : Time} (h : t ≤ t') : currentTimestamp t ≤ currentTimestamp t' :=
  Int.mul_le_mul_of_nonneg_right (Int.ediv_le_ediv (by decide) h) (by decide)

/-- What does not write to the log keeps it in order. -/
theorem LogOK.later {w' : World} (hL : LogOK w) (he : w'.events = w.events) (ht : w.now ≤ w'.now) :
    LogOK w' where
  ordered := by rw [he]; exact hL.ordered
  past e hmem := by
    rw [he] at hmem
    exact (hL.past e hmem).trans (currentTimestamp_mono ht)
  security := by rw [he]; exact hL.security

/-- A result is stored that leaves the event in the queue only if it is a security issue. -/
theorem LogOK.mark (hL : LogOK w) {d r : String}
    (hr : likeQueued r = true → ∀ e ∈ w.events.rows, e.deliveryId = d → e.security = true) :
    LogOK (exec env (.markProcessed d r) w).2 where
  ordered := by
    change (w.events.markProcessed d r (w.tick env).now).rows.Pairwise _
    rw [rows_markProcessed, List.pairwise_map]
    refine hL.ordered.imp ?_
    intro e e' he
    by_cases h1 : e.deliveryId = d <;> by_cases h2 : e'.deliveryId = d <;> simpa [h1, h2] using he
  past e' he' := by
    have hnow : w.now ≤ (exec env (.markProcessed d r) w).2.now := now_le _
    rcases mem_markProcessed he' with ⟨he, -⟩ | ⟨e, he, -, rfl⟩
    · exact (hL.past e' he).trans (currentTimestamp_mono hnow)
    · exact (hL.past e he).trans (currentTimestamp_mono hnow)
  security e' he' hq := by
    rcases mem_markProcessed he' with ⟨he, -⟩ | ⟨e, he, hd, rfl⟩
    · exact hL.security e' he hq
    · exact hr hq e he hd

/-- **What a new delivery finds**: it is recorded last, and dispatched from there. -/
theorem arrival_eq {d eventType : String} {action : Option String} {payload : Payload}
    (hnew : (exec env (.record d eventType action payload) w).1 = true) :
    ∃ e, arrival env w (.webhook d eventType action payload) =
        some (e, (exec env (.record d eventType action payload) w).2) ∧
      (exec env (.record d eventType action payload) w).2.events.rows = w.events.rows ++ [e] ∧
      e.deliveryId = d ∧ e.eventType = eventType ∧ e.action = action ∧ e.payload = payload ∧
      e.queued = false ∧ e.rowid = w.events.next ∧
      e.receivedAt = currentTimestamp (w.tick env).now := by
  rcases exec_record env w d eventType action payload with ⟨-, hrows, hfresh⟩ | ⟨hold, -, -⟩
  · refine ⟨_, ?_, hrows, rfl, rfl, rfl, rfl, rfl, rfl, rfl⟩
    unfold arrival
    dsimp only
    rw [if_pos hnew, hrows, List.find?_append, List.find?_eq_none.2]
    · simp
    · intro e he hd
      exact hfresh (List.mem_map.2 ⟨e, he, of_decide_eq_true hd⟩)
  · rw [hold] at hnew
    cases hnew

theorem LogOK.record (hL : LogOK w) (env : Outside) (d eventType : String) (action : Option String)
    (payload : Payload) : LogOK (exec env (.record d eventType action payload) w).2 := by
  have hnow : w.now ≤ (exec env (.record d eventType action payload) w).2.now := now_le _
  cases hans : (exec env (.record d eventType action payload) w).1 with
  | false =>
    rcases exec_record env w d eventType action payload with ⟨hnew, -, -⟩ | ⟨-, he, -⟩
    · rw [hans] at hnew
      cases hnew
    · exact hL.later he hnow
  | true =>
    obtain ⟨e, -, hrows, -, -, -, -, hq, hid, hat⟩ := arrival_eq hans
    have hle : currentTimestamp w.now ≤ e.receivedAt := by
      rw [hat]
      exact currentTimestamp_mono (Int.le_add_of_nonneg_right (Int.natCast_nonneg _))
    refine ⟨?_, ?_, ?_⟩
    · rw [hrows, List.pairwise_append]
      refine ⟨hL.ordered, List.pairwise_singleton _ _, ?_⟩
      intro f hf e' he'
      rw [List.mem_singleton] at he'
      subst he'
      exact ⟨by rw [hid]; exact w.events.fresh f hf, (hL.past f hf).trans hle⟩
    · intro f hf
      rw [hrows, List.mem_append, List.mem_singleton] at hf
      rcases hf with hf | rfl
      · exact (hL.past f hf).trans (currentTimestamp_mono hnow)
      · rw [hat, exec_now]
        exact le_rfl
    · intro f hf hfq
      rw [hrows, List.mem_append, List.mem_singleton] at hf
      rcases hf with hf | rfl
      · exact hL.security f hf hfq
      · rw [hq] at hfq
        cases hfq

/-- A result that is not `queued:*` takes its event out of the queue, and no other. -/
theorem filter_queued_markProcessed {t : WebhookEvents} {d r : String} {now : Time}
    (hr : likeQueued r = false) :
    (t.markProcessed d r now).rows.filter (·.queued) =
      (t.rows.filter (·.queued)).filter fun e => e.deliveryId ≠ d := by
  rw [rows_markProcessed]
  induction t.rows with
  | nil => rfl
  | cons e es ih =>
    by_cases hd : e.deliveryId = d
    · rw [List.map_cons, if_pos hd, List.filter_cons_of_neg (by simp [WebhookEvent.queued, hr]), ih]
      cases hq : e.queued <;> simp [hd, hq]
    · cases hq : e.queued <;> simp [hd, hq, ih]

/-! ## The drain -/

/-- After a retry the event is off the queue, and one more place is taken at most. -/
theorem retry_spec (env : Outside) {row : WebhookEvent} {rest : List WebhookEvent} (hL : LogOK w)
    (hq : w.events.rows.filter (·.queued) = row :: rest)
    (hroom : w.sessions.countActive < S.maxConcurrentSessions) :
    let w' := redispatch env S w row
    LogOK w' ∧ w'.events.rows.filter (·.queued) = rest ∧
      w'.sessions.countActive ≤ w.sessions.countActive + 1 := by
  have hrow : row ∈ w.events.rows ∧ row.queued = true :=
    List.mem_filter.1 (hq ▸ List.mem_cons_self)
  have hok := isOk_security env S w (hL.security row hrow.1 hrow.2)
  obtain ⟨outcome, ho⟩ := exists_ok hok
  have hlike : likeQueued outcome.text = false := by
    rw [likeQueued_text]
    exact dispatch_room hroom ho
  have hevents : ((row.dispatch S).eval (exec env) w).2.events = w.events :=
    dispatch_events _ _ _ _ _ _
  refine ⟨?_, ?_, (takes_redispatch env S w row).active⟩
  · rw [redispatch_ok ho]
    refine (hL.later hevents (now_eval env _ _)).mark fun h => ?_
    rw [hlike] at h
    cases h
  · obtain ⟨text, t, hlike, hmark⟩ := redispatch_events hroom hok
    rw [hmark, filter_queued_markProcessed hlike, hq]
    -- no other event has its delivery id
    have hnd : ((row :: rest).map (·.deliveryId)).Nodup :=
      hq ▸ w.events.keys.sublist (List.filter_sublist.map _)
    rw [List.map_cons, List.nodup_cons] at hnd
    rw [List.filter_cons_of_neg (by simp), List.filter_eq_self]
    intro e he
    simp only [decide_eq_true_eq]
    exact fun hd => hnd.1 (List.mem_map.2 ⟨e, he, hd⟩)

/-- The event that has waited longest overtakes none. -/
theorem not_overtakes_head {row : WebhookEvent} {rest : List WebhookEvent} (hL : LogOK w)
    (hq : w.events.rows.filter (·.queued) = row :: rest) : ¬Overtakes S row w.events := by
  rintro ⟨d, hd, -, hdq, -, hlt⟩
  have hmem : d ∈ row :: rest := hq ▸ List.mem_filter.2 ⟨hd, hdq⟩
  have hord := hL.ordered.sublist (List.filter_sublist (p := WebhookEvent.queued))
  rw [hq, List.pairwise_cons] at hord
  rcases List.mem_cons.1 hmem with rfl | hmem
  · omega
  · have := (hord.1 d hmem).1
    omega

/-- **The drain is in order**: it dispatches the events that have waited longest, of which each
leaves the queue before the next one comes. -/
theorem retries_in_order (env : Outside) {rows beyond : List WebhookEvent} (hL : LogOK w)
    (hq : w.events.rows.filter (·.queued) = rows ++ beyond)
    (hroom : w.sessions.countActive + rows.length ≤ S.maxConcurrentSessions) :
    (∀ x ∈ retries env S rows w, CreatesInOrder env S x.1 x.2) ∧
      ∀ summary, LogOK ((retryQueued S rows summary).eval (exec env) w).2 := by
  induction rows generalizing w with
  | nil => exact ⟨fun x hx => (by cases hx), fun _ => hL⟩
  | cons row rest ih =>
    rw [List.cons_append] at hq
    rw [List.length_cons] at hroom
    have hfree : w.sessions.countActive < S.maxConcurrentSessions := by omega
    have hrow : row ∈ w.events.rows ∧ row.queued = true :=
      List.mem_filter.1 (hq ▸ List.mem_cons_self)
    have hok := isOk_security env S w (hL.security row hrow.1 hrow.2)
    obtain ⟨hL', hq', hactive⟩ := retry_spec env hL hq hfree
    obtain ⟨hrest, hlog⟩ := ih hL' hq' (by omega)
    constructor
    · intro x hx
      rcases List.mem_cons.1 hx with rfl | hx
      · exact createsInOrder_iff.2 fun _ _ => not_overtakes_head hL hq
      · rw [eval_retryQueued_one hfree hok] at hx
        exact hrest x hx
    · intro summary
      obtain ⟨summary', he⟩ := eval_retryQueued_cons hfree hok rest summary
      rw [he]
      exact hlog summary'

/-! ## The rest of a tick -/

/-- Neither the log is written to, nor a session created. -/
def polls : Contract Ans where
  pre _ op := op.logs = false ∧ op.creates = none
  post _ _ _ := True

/-- What `poll_once` does after the drain. -/
def pollAll (S : Settings) (summary : Summary) : M (Except Exc Summary) := do
  let client ← perform .getClient
  match client with
  | .error exc => return .error exc
  | .ok () => do
    let rows ← perform .listNonTerminal
    pollRows S rows summary

theorem pollOnce_eq : pollOnce S = (drainQueue S).bind (pollAll S) := rfl

theorem polls_pollRows (rows : List SessionRow) (summary : Summary) :
    (pollRows S rows summary).Keeps polls (fun _ _ => True) h := by
  refine (polling_pollRows (fun r hr => List.mem_map.2 ⟨r, hr, rfl⟩) summary).weaken
    (fun _ op hop => ?_) fun _ _ _ _ => trivial
  rcases hop with ⟨hquiet, hlog⟩ | ⟨pk, -, u, rfl⟩
  · refine ⟨hlog, ?_⟩
    cases op with
    | createSession workKey req => cases hquiet
    | _ => rfl
  · exact ⟨rfl, rfl⟩

theorem polls_pollAll (summary : Summary) :
    (pollAll S summary).Keeps polls (fun _ _ => True) h := by
  refine ⟨⟨rfl, rfl⟩, fun client _ => ?_⟩
  cases client with
  | error exc => trivial
  | ok _ => exact ⟨⟨rfl, rfl⟩, fun rows _ => polls_pollRows rows summary⟩

theorem logOK_pollAll (hL : LogOK w) (summary : Summary) :
    LogOK ((pollAll S summary).eval (exec env) w).2 := by
  obtain ⟨-, hJ, -⟩ := eval_inv (C := polls) (R := fun _ _ _ _ => True) (J := fun _ => LogOK)
    (fun _ _ _ _ _ => trivial)
    (fun h s op hJ hop _ => hJ.later (exec_events hop.1) (now_le op))
    (pollAll S summary) (h := []) (polls_pollAll summary) hL (along_true _ w)
  exact hJ

/-! ## Jobs -/

/-- The log is in order, and what is queued sorted by the time of receipt is the queue in the
order of the log. -/
theorem LogOK.listQueued (hL : LogOK w) (limit : ℕ) :
    w.events.listQueued limit = (w.events.rows.filter (·.queued)).take limit := by
  have hsorted : (w.events.rows.filter (·.queued)).Pairwise fun d e => d.receivedAt ≤ e.receivedAt :=
    (hL.ordered.imp fun h => h.2).sublist List.filter_sublist
  unfold WebhookEvents.listQueued WebhookEvents.queued
  exact congrArg (List.take limit) hsorted.insertionSort_eq

/-- What is in the drain's list, and that there is room for it. -/
theorem drain_spec (env : Outside) (hL : LogOK w) (hroom : w.sessions.countActive < S.maxConcurrentSessions) :
    let w1 := (exec env .countActive w).2
    let queued := exec env (.listQueued (S.maxConcurrentSessions - w.sessions.countActive)) w1
    LogOK queued.2 ∧ (∃ beyond, queued.2.events.rows.filter (·.queued) = queued.1 ++ beyond) ∧
      queued.2.sessions.countActive + queued.1.length ≤ S.maxConcurrentSessions := by
  intro w1 queued
  have hL1 : LogOK w1 := hL.later rfl (now_le _)
  have hlist : queued.1 = (w.events.rows.filter (·.queued)).take
      (S.maxConcurrentSessions - w.sessions.countActive) := hL.listQueued _
  refine ⟨hL1.later rfl (now_le _), ⟨(w.events.rows.filter (·.queued)).drop
    (S.maxConcurrentSessions - w.sessions.countActive), ?_⟩, ?_⟩
  · rw [hlist]
    exact (List.take_append_drop _ _).symm
  · have hlen : queued.1.length ≤ S.maxConcurrentSessions - w.sessions.countActive := by
      rw [hlist]
      exact List.length_take_le _ _
    change w.sessions.countActive + _ ≤ _
    omega

theorem drain_in_order (hL : LogOK w) :
    (∀ x ∈ dispatches env S w .tick, CreatesInOrder env S x.1 x.2) ∧
      LogOK ((drainQueue S).eval (exec env) w).2 := by
  have hactive : (exec env .countActive w).1 = w.sessions.countActive := rfl
  unfold dispatches
  simp only [hactive]
  by_cases hfull : S.maxConcurrentSessions ≤ w.sessions.countActive
  · rw [if_pos hfull, eval_drainQueue_full env hfull]
    exact ⟨fun x hx => (by cases hx), hL.later rfl (now_le _)⟩
  · obtain ⟨hL', ⟨beyond, hq⟩, hle⟩ := drain_spec env hL (not_le.1 hfull)
    obtain ⟨hx, hlog⟩ := retries_in_order env hL' hq hle
    rw [if_neg hfull, eval_drainQueue_room env (not_le.1 hfull)]
    exact ⟨hx, hlog _⟩

/-- What is stored after the dispatch of a delivery. -/
theorem LogOK.process (hL : LogOK w) {d eventType : String} {action : Option String}
    {payload : Payload}
    (hd : ∀ e ∈ w.events.rows, e.deliveryId = d →
      e.eventType = eventType ∧ e.action = action ∧ e.payload = payload) :
    LogOK ((Remediation.process S d eventType action payload).eval (exec env) w).2 := by
  obtain ⟨hevents, hnow, hsec⟩ := eval_silent
    (silent_of_handling (handling_dispatch S eventType action payload)) env w
  unfold Remediation.process
  rw [bind_eq, eval_bind]
  refine (hL.later hevents hnow).mark ?_
  intro hlike e he hid
  rw [hevents] at he
  obtain ⟨rfl, rfl, rfl⟩ := hd e he hid
  cases hr : ((dispatch S e.eventType e.action e.payload).eval (exec env) w).1 with
  | ok o =>
    rw [hr, resultText, likeQueued_text] at hlike
    exact hsec o hr hlike
  | error exc =>
    rw [hr, likeQueued_raised] at hlike
    cases hlike

theorem logOK_job (hL : LogOK w) (job : Job) : LogOK (w.afterJob env S job) := by
  cases job with
  | webhook d eventType action payload =>
    have hrec := hL.record env d eventType action payload
    unfold World.afterJob Job.prog githubWebhook receive
    simp only [perform, bind_eq, call_bind, ret_bind, eval_call]
    cases hnew : (exec env (.record d eventType action payload) w).1 with
    | false => exact hrec
    | true =>
      refine hrec.process ?_
      obtain ⟨e, -, hrows, hid, he, ha, hp, -, -, -⟩ := arrival_eq hnew
      intro e' he' hd
      -- the delivery has one row only
      have hmem : e ∈ (exec env (.record d eventType action payload) w).2.events.rows := by
        rw [hrows]
        exact List.mem_append_right _ List.mem_cons_self
      obtain rfl := List.inj_on_of_nodup_map (World.events _).keys he' hmem (hd.trans hid.symm)
      exact ⟨he, ha, hp⟩
  | tick =>
    unfold World.afterJob Job.prog discard
    rw [bind_eq, eval_bind, pollOnce_eq, eval_bind]
    exact logOK_pollAll (drain_in_order hL).2 _

/-! ## Runs -/

/-- A new delivery overtakes whatever issue is queued. -/
theorem overtakes_arrival {d eventType : String} {action : Option String} {payload : Payload}
    (hL : LogOK w) {x : WebhookEvent × World}
    (hx : x ∈ arrival env w (.webhook d eventType action payload)) :
    ¬Overtakes S x.1 x.2.events ↔
      ∀ e ∈ x.2.events.rows, e.queued = true → e.workKey S = x.1.workKey S := by
  cases hnew : (exec env (.record d eventType action payload) w).1 with
  | false => simp [arrival, hnew] at hx
  | true =>
    obtain ⟨e, harr, hrows, -, -, -, -, hq, hid, -⟩ := arrival_eq hnew
    rw [harr] at hx
    cases hx
    have hL' := hL.record env d eventType action payload
    constructor
    · intro hno f hf hfq
      by_contra hkey
      refine hno ⟨f, hf, hL'.security f hf hfq, hfq, hkey, ?_⟩
      -- it was in the log before
      rw [hrows, List.mem_append, List.mem_singleton] at hf
      rcases hf with hf | rfl
      · rw [hid]
        exact w.events.fresh f hf
      · rw [hq] at hfq
        cases hfq
    · rintro hall ⟨f, hf, -, hfq, hkey, -⟩
      exact hkey (hall f hf hfq)

/-- **First come, first served, exactly if the queue is not overtaken by new deliveries**: in
every serial run of deliveries and ticks from an empty log. -/
theorem first_come_first_served_iff (sessions : Sessions) (now : Time) (jobs : List Job) :
    FirstComeFirstServed env S { sessions, events := .empty, now } jobs ↔
      QueueClear env S { sessions, events := .empty, now } jobs := by
  suffices hall : ∀ (w : World), LogOK w →
      (FirstComeFirstServed env S w jobs ↔ QueueClear env S w jobs) from
    hall _ ⟨List.Pairwise.nil, fun _ he => (by cases he), fun _ he => (by cases he)⟩
  induction jobs with
  | nil => exact fun _ _ => Iff.rfl
  | cons job jobs ih =>
    intro w hL
    refine and_congr ?_ (ih _ (logOK_job hL job))
    cases job with
    | webhook d eventType action payload =>
      refine forall_congr' fun x => ?_
      rw [dispatches, Option.mem_toList]
      refine imp_congr_right fun hx => ?_
      rw [createsInOrder_iff, overtakes_arrival hL hx]
    | tick => exact ⟨fun _ x hx => (by cases hx), fun _ => (drain_in_order hL).1⟩

namespace Arrival

def settings : Settings := { maxConcurrentSessions := 1 }

def outside : Outside := { Outside.calm with getSession := fun _ _ => .ok .exited }

def opened (deliveryId : String) (number : ℤ) : Job :=
  .webhook deliveryId "issues" (some "opened") { issue := .sample number }

/-- **A delivery overtakes the queue**: issue 2 waits for the place of issue 1, a tick frees it,
and issue 3 takes it. -/
theorem arrival_overtakes :
    ¬FirstComeFirstServed outside settings (.initial 0)
      [opened "a" 1, opened "b" 2, .tick, opened "c" 3] := by
  decide +kernel

end Arrival

end Remediation
