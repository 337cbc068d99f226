import Remediation.Proof.AuditTrail
import Remediation.Proof.Capacity
import Remediation.Proof.Deliveries

/-!
# Where rows come from

A row is reserved on behalf of a delivery: one that its task has put on record itself, or has read
off the queue. `Asks` says what such a delivery must contain, with the labels that a human has put
on the issue. In every interleaving of jobs, with crashes, each row of `sessions` therefore goes
back to a delivery that is on record and asks for exactly what was reserved, and so does each call
of `create_session` (`sessions_from_deliveries`).
-/

namespace Remediation

open Interaction Prog PyText

variable {env : Outside} {S : Settings} {w : World} {h : Hist}

/-- The part of a delivery that `dispatch` is given. -/
structure Delivery where
  eventType : String
  action : Option String
  payload : Payload

def WebhookEvent.delivery (e : WebhookEvent) : Delivery := ⟨e.eventType, e.action, e.payload⟩

/-- What a delivery may have reserved: a labelled issue its own work key, and a failing run of a
pull request the next attempt at it. -/
inductive Asks (S : Settings) (d : Delivery) : Reservation → Prop
  | issue (hevent : d.eventType = "issues")
      (haction : d.action = some "opened" ∨ d.action = some "labeled" ∨ d.action = some "reopened")
      (hgate : some gateLabel ∈ d.payload.issue.labels)
      (hlabel : some securityLabel ∈ d.payload.issue.labels) :
      Asks S d (securityReservation S d.payload.issue)
  | failure {t : FixTarget} {n : ℕ} (hevent : d.eventType = "workflow_run")
      (haction : d.action = some "completed")
      (hconclusion : d.payload.workflowRun.conclusion = some "failure")
      (hpr : d.payload.workflowRun.event = some "pull_request")
      (hnumber : d.payload.workflowRun.pullRequests.head? = some (some t.prNumber))
      (hrun : t.run = d.payload.workflowRun)
      (hrepo : t.repo = d.payload.workflowRun.repositoryFullName.getD S.forkRepo) :
      Asks S d (t.reservation n)

/-! ## What a handler reserves -/

/-- Only reservations of this kind are tried. -/
def reservesOnly (P : Reservation → Prop) : Contract Ans where
  pre _ op := ∀ res ∈ op.reservation, P res
  post _ _ _ := True

variable {P : Reservation → Prop}

theorem reservesOnly_call {α : Type} {Q : Hist → α → Prop} {op : Op} {k : Ans op → M α}
    (hop : op.reservation = none) (hk : ∀ a, (k a).Keeps (reservesOnly P) Q (⟨op, a⟩ :: h)) :
    (Prog.call op k).Keeps (reservesOnly P) Q h := by
  refine ⟨?_, fun a _ => hk a⟩
  intro res hres
  rw [hop] at hres
  cases hres

theorem reservesOnly_tryReserve {α : Type} {Q : Hist → α → Prop} {res : Reservation}
    {k : Option ℕ → M α} (hres : P res)
    (hk : ∀ a, (k a).Keeps (reservesOnly P) Q (⟨.tryReserve res, a⟩ :: h)) :
    (Prog.call (.tryReserve res) k).Keeps (reservesOnly P) Q h := by
  refine ⟨?_, fun a _ => hk a⟩
  intro res' hres'
  cases hres'
  exact hres

/-- Nothing is said about the result. -/
abbrev Whatever {α : Type} (_ : Hist) (_ : α) : Prop := True

theorem reservesOnly_markFailed (pk : ℕ) (reason : String) :
    (markFailed pk reason).Keeps (reservesOnly P) Whatever h := by
  unfold markFailed
  simp only [perform, bind_eq, call_bind, ret_bind]
  exact reservesOnly_call rfl fun _ => reservesOnly_call rfl fun _ => trivial

theorem reservesOnly_spawnSession (pk : ℕ) (workKey : String) (req : CreateRequest) :
    (spawnSession pk workKey req).Keeps (reservesOnly P) Whatever h := by
  unfold spawnSession
  simp only [perform, bind_eq, call_bind, ret_bind]
  refine reservesOnly_call rfl ?_
  intro client
  cases client with
  | error exc => exact (reservesOnly_markFailed pk _).bind fun _ _ _ => trivial
  | ok _ =>
    refine reservesOnly_call rfl ?_
    intro created
    cases created with
    | error exc => exact (reservesOnly_markFailed pk _).bind fun _ _ _ => trivial
    | ok created => exact reservesOnly_call rfl fun _ => trivial

theorem reservesOnly_handleSecurityIssue (issue : Issue) (hP : P (securityReservation S issue)) :
    (handleSecurityIssue S issue).Keeps (reservesOnly P) Whatever h := by
  unfold handleSecurityIssue
  simp only [perform, bind_eq, call_bind, ret_bind]
  refine reservesOnly_call rfl ?_
  intro active
  split
  · trivial
  refine reservesOnly_call rfl ?_
  intro today
  split
  · trivial
  refine reservesOnly_tryReserve hP ?_
  intro reserved
  cases reserved with
  | none => trivial
  | some pk =>
    change (remediate S issue pk _).Keeps _ _ _
    unfold remediate
    split
    · exact (reservesOnly_markFailed pk _).bind fun _ _ _ => trivial
    · dsimp only
      split
      · exact (reservesOnly_markFailed pk _).bind fun _ _ _ => trivial
      · exact reservesOnly_spawnSession pk _ _

theorem reservesOnly_attemptFix (t : FixTarget) (n : ℕ) (hP : P (t.reservation n)) :
    (attemptFix S t n).Keeps (reservesOnly P) Whatever h := by
  unfold attemptFix
  simp only [perform, bind_eq, call_bind, ret_bind]
  refine reservesOnly_call rfl ?_
  intro commits
  cases commits with
  | error exc => trivial
  | ok commits =>
    dsimp only
    split
    · trivial
    refine reservesOnly_call rfl ?_
    intro active
    split
    · trivial
    refine reservesOnly_tryReserve hP ?_
    intro reserved
    cases reserved with
    | none => trivial
    | some pk =>
      change (fix S t n pk).Keeps _ _ _
      unfold fix
      simp only [perform, bind_eq, call_bind, ret_bind]
      refine reservesOnly_call rfl ?_
      intro logs
      cases logs with
      | error exc => exact reservesOnly_spawnSession pk _ _
      | ok logsTail => exact reservesOnly_spawnSession pk _ _

theorem reservesOnly_cancelChildren (children : List SessionRow) :
    (cancelChildren children).Keeps (reservesOnly P) Whatever h := by
  induction children generalizing h with
  | nil => trivial
  | cons child rest ih =>
    unfold cancelChildren terminateChild
    split
    · simp only [perform, bind_eq, call_bind, ret_bind]
      exact reservesOnly_call rfl fun _ => reservesOnly_call rfl fun _ => ih
    · simp only [perform, bind_eq, call_bind, pure_eq, ret_bind]
      exact reservesOnly_call rfl fun _ => ih

theorem reservesOnly_escalateToHuman (parent : SessionRow) (repo : String) (prNumber : ℤ)
    (attemptCount : ℕ) :
    (escalateToHuman parent repo prNumber attemptCount).Keeps (reservesOnly P) Whatever h := by
  unfold escalateToHuman
  split
  · trivial
  simp only [perform, bind_eq, call_bind, ret_bind]
  refine reservesOnly_call rfl fun _ => reservesOnly_call rfl ?_
  intro client
  cases client with
  | error exc => trivial
  | ok _ =>
    refine reservesOnly_call rfl ?_
    intro children
    exact (reservesOnly_cancelChildren children).bind fun _ _ _ => reservesOnly_call rfl fun _ => trivial

theorem reservesOnly_fixOrEscalate (t : FixTarget) (hP : ∀ n, P (t.reservation n)) :
    (fixOrEscalate S t).Keeps (reservesOnly P) Whatever h := by
  unfold fixOrEscalate
  simp only [perform, bind_eq, call_bind, ret_bind]
  refine reservesOnly_call rfl ?_
  intro currentMax
  split
  · refine (reservesOnly_escalateToHuman t.parent t.repo t.prNumber currentMax).bind ?_
    intro _ escalated _
    cases escalated <;> trivial
  · exact (reservesOnly_attemptFix t _ (hP _)).bind fun _ _ _ => trivial

theorem prNumberOf_eq_some {ref : Option ℤ} {n : ℤ} (hn : prNumberOf ref = some n) : ref = some n :=
  (Option.filter_eq_some_iff.1 hn).1

/-- **A failing run** has attempts reserved at the pull request it names first. -/
theorem reservesOnly_handleCiFailure (run : WorkflowRun)
    (hP : ∀ (t : FixTarget) (n : ℕ), run.event = some "pull_request" →
      run.pullRequests.head? = some (some t.prNumber) → t.run = run →
      t.repo = run.repositoryFullName.getD S.forkRepo → P (t.reservation n)) :
    (handleCiFailure S run).Keeps (reservesOnly P) Whatever h := by
  unfold handleCiFailure
  dsimp only
  split
  · trivial
  rename_i hevent
  split
  · trivial
  rename_i ref refs hrefs
  split
  · trivial
  rename_i prNumber hnumber
  simp only [perform, bind_eq, call_bind, ret_bind]
  refine reservesOnly_call rfl ?_
  intro pr
  split
  · trivial
  · trivial
  · split
    · trivial
    refine reservesOnly_call rfl ?_
    intro parent
    cases parent with
    | none => trivial
    | some parent =>
      dsimp only
      split
      · trivial
      refine reservesOnly_fixOrEscalate _ ?_
      intro n
      refine hP _ n (not_not.1 hevent) ?_ rfl rfl
      rw [hrefs, prNumberOf_eq_some hnumber]
      rfl

theorem mem_labels {labels : List (Option String)} {l : String}
    (hl : (labels.filterMap truthy).contains l = true) : some l ∈ labels := by
  obtain ⟨label, hmem, ht⟩ := List.mem_filterMap.1 (List.contains_iff_mem.1 hl)
  obtain ⟨rfl, -⟩ := truthy_eq_some.1 ht
  exact hmem

/-- **What a dispatch reserves, the delivery asks for.** -/
theorem reservesOnly_dispatch (d : Delivery) :
    (dispatch S d.eventType d.action d.payload).Keeps (reservesOnly (Asks S d)) Whatever h := by
  unfold dispatch
  split
  · rename_i hevent
    unfold dispatchIssue
    split
    · trivial
    rename_i haction
    dsimp only
    split
    · trivial
    rename_i hgate
    split
    · rename_i hlabel
      refine (reservesOnly_handleSecurityIssue _ ?_).bind fun _ _ _ => trivial
      refine Asks.issue hevent ?_ (mem_labels (by simpa using hgate)) (mem_labels hlabel)
      tauto
    split <;> trivial
  split
  · rename_i hevent
    unfold dispatchWorkflowRun
    split
    · trivial
    rename_i haction
    dsimp only
    split
    · trivial
    rename_i hconclusion
    refine reservesOnly_handleCiFailure _ ?_
    intro t n hpr hnumber hrun hrepo
    exact Asks.failure hevent (not_not.1 haction) (not_not.1 hconclusion) hpr hnumber hrun hrepo
  split <;> trivial

/-! ## Who hands over a delivery -/

/-- The deliveries that an entry hands to the task. -/
def hands : Entry Ans → List Delivery
  | ⟨.record _ eventType action payload, true⟩ => [⟨eventType, action, payload⟩]
  | ⟨.listQueued _, rows⟩ => rows.map (·.delivery)
  | _ => []

def Handed (h : Hist) (d : Delivery) : Prop := ∃ e ∈ h, d ∈ hands e

theorem Handed.cons {d : Delivery} (hd : Handed h d) (e : Entry Ans) : Handed (e :: h) d := by
  obtain ⟨e', he', hd⟩ := hd
  exact ⟨e', List.mem_cons_of_mem _ he', hd⟩

/-- A reservation is made for a delivery that the task has been handed. -/
def onBehalf (S : Settings) : Contract Ans where
  pre h op := ∀ res ∈ op.reservation, ∃ d, Handed h d ∧ Asks S d res
  post _ _ _ := True

theorem onBehalf_call {α : Type} {Q : Hist → α → Prop} {op : Op} {k : Ans op → M α}
    (hop : op.reservation = none) (hk : ∀ a, (k a).Keeps (onBehalf S) Q (⟨op, a⟩ :: h)) :
    (Prog.call op k).Keeps (onBehalf S) Q h := by
  refine ⟨?_, fun a _ => hk a⟩
  intro res hres
  rw [hop] at hres
  cases hres

/-- What has been handed to the task before it dispatches a delivery is at hand afterwards. -/
theorem onBehalf_dispatch {d : Delivery} (hd : Handed h d) (rest : List WebhookEvent)
    (hrest : ∀ row ∈ rest, Handed h row.delivery) :
    (dispatch S d.eventType d.action d.payload).Keeps (onBehalf S)
      (fun h _ => ∀ row ∈ rest, Handed h row.delivery) h := by
  have hpre : ∀ h op, (Handed h d ∧ ∀ row ∈ rest, Handed h row.delivery) →
      (reservesOnly (Asks S d)).pre h op → (onBehalf S).pre h op :=
    fun _ _ hI hasks res hres => ⟨d, hI.1, hasks res hres⟩
  have hkeeps := (reservesOnly_dispatch (S := S) (h := h) d).weaken_given
    (fun _ e hI => ⟨hI.1.cons e, fun row hrow => (hI.2 row hrow).cons e⟩) hpre
    (fun _ _ _ _ => trivial) ⟨hd, hrest⟩
  exact keeps_mono _ (fun _ _ hQ => hQ.2.2) hkeeps

theorem onBehalf_process {d : Delivery} (hd : Handed h d) (deliveryId : String) :
    (process S deliveryId d.eventType d.action d.payload).Keeps (onBehalf S) Whatever h :=
  (onBehalf_dispatch hd [] fun _ hrow => by cases hrow).bind
    fun _ _ _ => onBehalf_call rfl fun _ => trivial

theorem onBehalf_retryQueued (rows : List WebhookEvent) (summary : Summary)
    (hrows : ∀ row ∈ rows, Handed h row.delivery) :
    (retryQueued S rows summary).Keeps (onBehalf S) Whatever h := by
  induction rows generalizing h summary with
  | nil => trivial
  | cons row rest ih =>
    obtain ⟨hrow, hrest⟩ := List.forall_mem_cons.1 hrows
    unfold retryQueued
    refine (onBehalf_dispatch hrow rest hrest).bind ?_
    intro h' result hrest'
    cases result with
    | error exc => exact ih summary hrest'
    | ok outcome =>
      dsimp only
      split
      · exact onBehalf_call rfl fun _ => ih _ fun row' hrow' => (hrest' row' hrow').cons _
      · exact ih _ hrest'

theorem onBehalf_drainQueue : (drainQueue S).Keeps (onBehalf S) Whatever h := by
  unfold drainQueue
  simp only [perform, bind_eq, call_bind, ret_bind]
  refine onBehalf_call rfl ?_
  intro active
  split
  · trivial
  refine onBehalf_call rfl ?_
  intro queued
  refine onBehalf_retryQueued queued _ ?_
  intro row hrow
  exact ⟨_, List.mem_cons_self, List.mem_map.2 ⟨row, hrow, rfl⟩⟩

/-- The poller reserves nothing. -/
theorem onBehalf_pollAll (summary : Summary) :
    (pollAll S summary).Keeps (onBehalf S) Whatever h := by
  refine onBehalf_call rfl ?_
  intro client
  cases client with
  | error exc => trivial
  | ok _ =>
    refine onBehalf_call rfl ?_
    intro rows
    refine (polling_pollRows (fun r hr => List.mem_map.2 ⟨r, hr, rfl⟩) summary).weaken ?_
      fun _ _ _ _ => trivial
    intro _ op hop res hres
    rcases hop with ⟨hquiet, -⟩ | ⟨pk, -, u, rfl⟩
    · cases op with
      | tryReserve res' => cases hquiet
      | _ => cases hres
    · cases hres

/-- **Every job reserves on behalf of a delivery.** -/
theorem onBehalf_job (job : Job) : (job.prog S).Keeps (onBehalf S) Whatever [] := by
  cases job with
  | webhook deliveryId eventType action payload =>
    refine onBehalf_call rfl ?_
    intro isNew
    cases isNew with
    | true =>
      have hd : Handed [⟨.record deliveryId eventType action payload, true⟩]
          ⟨eventType, action, payload⟩ := ⟨_, List.mem_cons_self, List.mem_singleton.2 rfl⟩
      exact onBehalf_process hd deliveryId
    | false => trivial
  | tick =>
    change (discard (pollOnce S)).Keeps _ _ _
    rw [pollOnce_eq]
    exact (onBehalf_drainQueue.bind fun _ summary _ => onBehalf_pollAll summary).bind
      fun _ _ _ => trivial

/-! ## Runs -/

/-- What a row was reserved with. -/
def SessionRow.reservation (r : SessionRow) : Reservation := r.reserved.2.2

/-- Every row is asked for by a delivery on record. -/
def Grounded (S : Settings) (w : World) : Prop :=
  ∀ r ∈ w.sessions.rows, ∃ e ∈ w.events.rows, Asks S e.delivery r.reservation

/-- What tasks have been handed is on record, and rows have been asked for. -/
structure OnRecord (S : Settings) (w : World) (hs : List Hist) : Prop where
  timely : Timely w
  handed : ∀ h ∈ hs, ∀ d, Handed h d → ∃ e ∈ w.events.rows, e.delivery = d
  grounded : Grounded S w

variable {op : Op}

/-- A delivery on record stays there. -/
theorem delivery_exec (op : Op) {d : Delivery} (hd : ∃ e ∈ w.events.rows, e.delivery = d) :
    ∃ e ∈ (exec env op w).2.events.rows, e.delivery = d := by
  obtain ⟨e, he, rfl⟩ := hd
  cases op with
  | record deliveryId eventType action payload =>
    rcases exec_record env w deliveryId eventType action payload with ⟨-, hrows, -⟩ | ⟨-, hev, -⟩
    · rw [hrows]
      exact ⟨e, List.mem_append_left _ he, rfl⟩
    · rw [hev]
      exact ⟨e, he, rfl⟩
  | markProcessed deliveryId result =>
    have hmem := List.mem_map_of_mem he (f := fun e : WebhookEvent =>
      if e.deliveryId = deliveryId then
        { e with
          processedAt := some (currentTimestamp (w.tick env).now)
          handlerResult := some result }
      else e)
    rw [← rows_markProcessed] at hmem
    refine ⟨_, hmem, ?_⟩
    split <;> rfl
  | _ =>
    rw [exec_events rfl]
    exact ⟨e, he, rfl⟩

theorem mem_of_mem_listQueued {t : WebhookEvents} {limit : ℕ} {e : WebhookEvent}
    (he : e ∈ t.listQueued limit) : e ∈ t.rows := by
  have hq := List.mem_of_mem_take he
  exact List.mem_of_mem_filter ((List.mem_insertionSort _).1 hq)

/-- What an operation hands over is on record after it. -/
theorem handed_exec {d : Delivery} (hd : d ∈ hands ⟨op, (exec env op w).1⟩) :
    ∃ e ∈ (exec env op w).2.events.rows, e.delivery = d := by
  cases op with
  | record deliveryId eventType action payload =>
    rcases exec_record env w deliveryId eventType action payload with ⟨ha, hrows, -⟩ | ⟨ha, -, -⟩
    · rw [ha] at hd
      rw [hrows, List.mem_singleton.1 hd]
      exact ⟨_, List.mem_append_right _ (List.mem_singleton.2 rfl), rfl⟩
    · rw [ha] at hd
      cases hd
  | listQueued limit =>
    obtain ⟨e, he, rfl⟩ := List.mem_map.1 hd
    exact delivery_exec _ ⟨e, mem_of_mem_listQueued he, rfl⟩
  | _ => cases hd

theorem grounded_exec (hG : Grounded S w) (hp : Permits S h op)
    (hasks : ∀ res ∈ op.reservation, ∃ e ∈ w.events.rows, Asks S e.delivery res) :
    Grounded S (exec env op w).2 := by
  -- a delivery that asks for something is on record afterwards as well
  have hlater : ∀ res, (∃ e ∈ w.events.rows, Asks S e.delivery res) →
      ∃ e ∈ (exec env op w).2.events.rows, Asks S e.delivery res := by
    rintro res ⟨e, he, hres⟩
    obtain ⟨e', he', hsame⟩ := delivery_exec op ⟨e, he, rfl⟩
    exact ⟨e', he', hsame ▸ hres⟩
  intro r hr
  rcases mem_exec hr with ⟨hr, -⟩ | ⟨res, rfl, rfl, -⟩ | ⟨r', hr', u, rfl, rfl⟩
  · exact hlater _ (hG r hr)
  · exact hlater res (hasks res rfl)
  · have hsame : (u.apply r').reservation = r'.reservation :=
      congrArg (fun x : ℕ × Time × Reservation => x.2.2) (hp.reserved_apply r')
    rw [hsame]
    exact hlater _ (hG r' hr')

theorem onRecord_step {hs : List Hist} {i : ℕ} (hJ : OnRecord S w hs) (hi : hs[i]? = some h)
    (hp : Permits S h op) (hb : (onBehalf S).pre h op) :
    OnRecord S (exec env op w).2 (hs.set i (⟨op, (exec env op w).1⟩ :: h)) where
  timely := timely_exec hJ.timely hp
  handed g hg d hd := by
    have hold : ∀ g ∈ hs, Handed g d → ∃ e ∈ (exec env op w).2.events.rows, e.delivery = d :=
      fun g hg hd => delivery_exec op (hJ.handed g hg d hd)
    rcases List.mem_or_eq_of_mem_set hg with hg | rfl
    · exact hold g hg hd
    · obtain ⟨e, he, hd⟩ := hd
      rcases List.mem_cons.1 he with rfl | he
      · exact handed_exec hd
      · exact hold h (List.mem_of_getElem? hi) ⟨e, he, hd⟩
  grounded := by
    refine grounded_exec hJ.grounded hp ?_
    intro res hres
    obtain ⟨d, hd, hasks⟩ := hb res hres
    obtain ⟨e, he, rfl⟩ := hJ.handed h (List.mem_of_getElem? hi) d hd
    exact ⟨e, he, hasks⟩

theorem onRecord_initial (S : Settings) (now : Time) : OnRecord S (.initial now) [] where
  timely r hr := by cases hr
  handed h hh := by cases hh
  grounded r hr := by cases hr

theorem OnRecord.spawn {hs : List Hist} (hJ : OnRecord S w hs) : OnRecord S w (hs ++ [[]]) where
  timely := hJ.timely
  handed h hh d hd := by
    rcases List.mem_append.1 hh with hh | hh
    · exact hJ.handed h hh d hd
    · rw [List.mem_singleton.1 hh] at hd
      obtain ⟨e, he, -⟩ := hd
      cases he
  grounded := hJ.grounded

theorem OnRecord.crash {hs : List Hist} (hJ : OnRecord S w hs) (n : ℕ) :
    OnRecord S (w.boot n) [] := by
  rw [boot_of_timely hJ.timely n]
  exact { hJ with handed := fun h hh => by cases hh }

theorem onRecord_run (env : Outside) (S : Settings) (now : Time) (acts : List (Act Job ℕ)) :
    let c := (deployment env S).run ⟨.initial now, []⟩ acts
    OnRecord S c.world c.hists :=
  (System.run_inv (S := deployment env S) (C := (contract S).and (onBehalf S))
    (R := fun _ _ _ _ => True) (OnRecord S) (fun job => (keeps_job job).and (onBehalf_job job))
    (fun _ _ hJ => hJ.spawn) (fun _ _ n hJ => hJ.crash n)
    (fun w _ _ op _ _ _ => ⟨exec_honest env op w, trivial⟩)
    (fun _ _ _ _ _ hJ hi hpre _ => onRecord_step hJ hi hpre.1 hpre.2) acts
    (c := ⟨.initial now, []⟩) (onRecord_initial S now) (by simp [System.KeepsAll])
    (System.runOK_true _ acts)).1

/-- **Nothing without a delivery.** In every interleaving of deliveries and ticks, with crashes,
from the empty database: each row is asked for by a delivery on record, and each work key that
`create_session` is called for is that of a reservation that one asks for. -/
theorem sessions_from_deliveries (now : Time) (acts : List (Act Job ℕ)) :
    let w := ((deployment env S).run ⟨.initial now, []⟩ acts).world
    (∀ r ∈ w.sessions.rows, ∃ e ∈ w.events.rows, Asks S e.delivery r.reservation) ∧
      ∀ workKey, 0 < createCount workKey w.trace →
        ∃ e ∈ w.events.rows, ∃ res, Asks S e.delivery res ∧ res.workKey = workKey := by
  intro w
  have hground : Grounded S w := (onRecord_run env S now acts).grounded
  refine ⟨hground, ?_⟩
  intro workKey hpos
  have hC : ∀ h op, (contract S).pre h op → reservations.ActsWhenOpen h op := fun _ _ => actsWhenOpen
  obtain ⟨hb, -⟩ := ClaimProtocol.at_most_once (S := deployment env S) (C := contract S)
    (P := reservations) (w := .initial now) reservations_honest hC
    (fun _ op w => exec_honest env op w) keeps_job (fun _ => rfl) acts
  obtain ⟨-, r, hr, rfl⟩ := (hb workKey).2 (Nat.lt_of_lt_of_le hpos (Nat.le_add_right _ _))
  obtain ⟨e, he, hasks⟩ := hground r hr
  exact ⟨e, he, r.reservation, hasks, rfl⟩

end Remediation
