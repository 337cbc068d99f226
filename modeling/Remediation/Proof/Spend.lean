import Remediation.Lib.Budget
import Remediation.Proof.Fifo
import Remediation.Proof.Remote
import Remediation.Spec.Factory

/-!
# What the service can spend

A session is paid for, so that what the service may cost is what its calls of `create_session`
allow. A handler makes one at most, and a drain of the queue no more than the cap on active
sessions has room for, because that is how many events it reads (`costs_task`). In every
interleaving, with crashes, the calls are therefore bounded by the tasks that have been spawned,
and by the rows of the table (`spend_bounded`). Where there is no client to be had, there are none at
all (`misconfigured_spends_nothing`).
-/

namespace Remediation

open Interaction Prog PyText

/-- The call of `create_session` that an entry is. -/
def creation : Entry Ans → Option CreateRequest
  | ⟨.createSession _ req, _⟩ => some req
  | _ => none

/-- All calls of `create_session`, newest first. -/
def World.creations (w : World) : List CreateRequest := w.trace.filterMap creation

/-- What the calls allow Devin to consume. -/
def World.authorised (w : World) : ℕ := (w.creations.map fun req => req.maxAcuLimit.toNat).sum

/-- How many sessions a task may ask for. -/
def Task.quota (S : Settings) : Task → ℕ
  | securityIssue _ => 1
  | ciFailure _ => 1
  | receive _ _ _ _ => 0
  | process _ _ _ _ => 1
  | replay _ => 1
  | drain => S.maxConcurrentSessions
  | poll => S.maxConcurrentSessions

/-- How many sessions the tasks of a schedule may ask for. -/
def quota (S : Settings) (acts : List (Act Task ℕ)) : ℕ := System.spawned (Task.quota S) acts

/-- The price of an operation, given that of a call. -/
def Op.price (price : CreateRequest → ℕ) : Op → ℕ
  | .createSession _ req => price req
  | _ => 0

/-- `LIMIT` is honoured. -/
def WithinPage : (op : Op) → Ans op → Prop
  | .listQueued limit, rows => rows.length ≤ limit
  | _, _ => True

variable {env : Outside} {S : Settings} {w : World} {price : CreateRequest → ℕ} {p : ℕ}

theorem exec_withinPage (op : Op) (w : World) : WithinPage op (exec env op w).1 := by
  cases op with
  | listQueued limit => exact List.length_take_le limit _
  | _ => trivial

/-! ## The price of each function -/

section Price

variable {ok : (op : Op) → Ans op → Prop}

theorem costs_markFailed (n pk : ℕ) (reason : String) :
    (markFailed pk reason).Costs (Op.price price) ok n := by
  unfold markFailed
  simp only [perform, bind_eq, call_bind, ret_bind]
  exact costs_call_free rfl fun _ _ => costs_call_free rfl fun _ _ => trivial

theorem costs_spawnSession (pk : ℕ) (workKey : String) {req : CreateRequest} (hp : price req ≤ p) :
    (spawnSession pk workKey req).Costs (Op.price price) ok p := by
  unfold spawnSession
  simp only [perform, bind_eq, call_bind, ret_bind]
  refine costs_call_free rfl ?_
  intro client _
  cases client with
  | error exc => exact (costs_markFailed p pk _).map _
  | ok _ =>
    refine ⟨hp, ?_⟩
    intro created _
    cases created with
    | error exc => exact (costs_markFailed _ pk _).map _
    | ok created => exact costs_call_free rfl fun _ _ => trivial

/-- A session is affordable: what spawns one, with the limit that every request has, costs no more. -/
def Affordable (S : Settings) (price : CreateRequest → ℕ) (ok : (op : Op) → Ans op → Prop) (p : ℕ) :
    Prop :=
  ∀ (pk : ℕ) (workKey : String) (req : CreateRequest), req.maxAcuLimit = S.devinMaxAcuPerSession →
    (spawnSession pk workKey req).Costs (Op.price price) ok p

variable (hp : Affordable S price ok p)

include hp

theorem costs_remediate (issue : Issue) (pk : ℕ) (workKey : String) :
    (remediate S issue pk workKey).Costs (Op.price price) ok p := by
  unfold remediate
  split
  · exact (costs_markFailed p pk _).map _
  · dsimp only
    split
    · exact (costs_markFailed p pk _).map _
    · exact hp pk workKey _ rfl

theorem costs_handleSecurityIssue (issue : Issue) :
    (handleSecurityIssue S issue).Costs (Op.price price) ok p := by
  unfold handleSecurityIssue
  simp only [perform, bind_eq, call_bind, ret_bind]
  refine costs_call_free rfl ?_
  intro active _
  split
  · trivial
  refine costs_call_free rfl ?_
  intro today _
  split
  · trivial
  refine costs_call_free rfl ?_
  intro reserved _
  cases reserved with
  | none => trivial
  | some pk => exact costs_remediate hp issue pk _

theorem costs_fix (t : FixTarget) (n pk : ℕ) :
    (fix S t n pk).Costs (Op.price price) ok p := by
  unfold fix
  simp only [perform, bind_eq, call_bind, ret_bind]
  refine costs_call_free rfl ?_
  intro logs _
  cases logs with
  | error exc => exact hp pk _ _ rfl
  | ok logsTail => exact hp pk _ _ rfl

theorem costs_attemptFix (t : FixTarget) (n : ℕ) :
    (attemptFix S t n).Costs (Op.price price) ok p := by
  unfold attemptFix
  simp only [perform, bind_eq, call_bind, ret_bind]
  refine costs_call_free rfl ?_
  intro commits _
  cases commits with
  | error exc => trivial
  | ok commits =>
    dsimp only
    split
    · trivial
    refine costs_call_free rfl ?_
    intro active _
    split
    · trivial
    refine costs_call_free rfl ?_
    intro reserved _
    cases reserved with
    | none => trivial
    | some pk => exact costs_fix hp t n pk

omit hp in
theorem costs_cancelChildren (n : ℕ) (children : List SessionRow) :
    (cancelChildren children).Costs (Op.price price) ok n := by
  induction children with
  | nil => trivial
  | cons child rest ih =>
    unfold cancelChildren terminateChild
    split
    · simp only [perform, bind_eq, call_bind, ret_bind]
      exact costs_call_free rfl fun _ _ => costs_call_free rfl fun _ _ => ih
    · simp only [perform, bind_eq, call_bind, pure_eq, ret_bind]
      exact costs_call_free rfl fun _ _ => ih

omit hp in
/-- An escalation asks for no session. -/
theorem costs_escalateToHuman (n : ℕ) (parent : SessionRow) (repo : String) (prNumber : ℤ)
    (attemptCount : ℕ) :
    (escalateToHuman parent repo prNumber attemptCount).Costs (Op.price price) ok n := by
  unfold escalateToHuman
  split
  · trivial
  simp only [perform, bind_eq, call_bind, ret_bind]
  refine costs_call_free rfl fun _ _ => costs_call_free rfl ?_
  intro client _
  cases client with
  | error exc => trivial
  | ok _ =>
    refine costs_call_free rfl ?_
    intro children _
    exact ((costs_cancelChildren n children).bind (n := 0) fun _ =>
      costs_call_free rfl fun _ _ => trivial)

theorem costs_fixOrEscalate (t : FixTarget) :
    (fixOrEscalate S t).Costs (Op.price price) ok p := by
  unfold fixOrEscalate
  simp only [perform, bind_eq, call_bind, ret_bind]
  refine costs_call_free rfl ?_
  intro currentMax _
  split
  · refine ((costs_escalateToHuman p t.parent t.repo t.prNumber currentMax).bind (n := 0) ?_)
    intro escalated
    cases escalated <;> trivial
  · exact (costs_attemptFix hp t (currentMax + 1)).map _

theorem costs_handleCiFailure (run : WorkflowRun) :
    (handleCiFailure S run).Costs (Op.price price) ok p := by
  unfold handleCiFailure
  dsimp only
  split
  · trivial
  split
  · trivial
  split
  · trivial
  simp only [perform, bind_eq, call_bind, ret_bind]
  refine costs_call_free rfl ?_
  intro pr _
  split
  · trivial
  · trivial
  · split
    · trivial
    refine costs_call_free rfl ?_
    intro parent _
    cases parent with
    | none => trivial
    | some parent =>
      dsimp only
      split
      · trivial
      · exact costs_fixOrEscalate hp _

theorem costs_dispatch (eventType : String) (action : Option String) (payload : Payload) :
    (dispatch S eventType action payload).Costs (Op.price price) ok p := by
  unfold dispatch
  split
  · unfold dispatchIssue
    split
    · trivial
    · dsimp only
      split
      · trivial
      split
      · exact (costs_handleSecurityIssue hp payload.issue).map _
      split <;> trivial
  split
  · unfold dispatchWorkflowRun
    split
    · trivial
    · dsimp only
      split
      · trivial
      · exact costs_handleCiFailure hp payload.workflowRun
  split <;> trivial

theorem costs_process (deliveryId eventType : String) (action : Option String) (payload : Payload) :
    (process S deliveryId eventType action payload).Costs (Op.price price) ok p :=
  (costs_dispatch hp eventType action payload).bind (n := 0) fun _ => costs_call_free rfl fun _ _ => trivial

/-- Each event of the queue is dispatched once. -/
theorem costs_retryQueued (rows : List WebhookEvent) (summary : Summary) :
    (retryQueued S rows summary).Costs (Op.price price) ok (rows.length * p) := by
  induction rows generalizing summary with
  | nil => trivial
  | cons row rest ih =>
    have hlen : (row :: rest).length * p = p + rest.length * p := by
      rw [List.length_cons, Nat.succ_mul, Nat.add_comm]
    rw [hlen, retryQueued]
    refine (costs_dispatch hp row.eventType row.action row.payload).bind ?_
    intro result
    cases result with
    | error exc => exact ih summary
    | ok outcome =>
      dsimp only
      split
      · exact costs_call_free rfl fun _ _ => ih _
      · exact ih _

variable (hl : ∀ limit rows, ok (.listQueued limit) rows → rows.length ≤ limit)

include hl

/-- **A drain reads no more events than there is room for.** -/
theorem costs_drainQueue :
    (drainQueue S).Costs (Op.price price) ok (S.maxConcurrentSessions * p) := by
  unfold drainQueue
  simp only [perform, bind_eq, call_bind, ret_bind]
  refine costs_call_free rfl ?_
  intro active _
  split
  · trivial
  refine costs_call_free rfl ?_
  intro queued hlimit
  have hle : queued.length ≤ S.maxConcurrentSessions - active := hl _ _ hlimit
  have hroom : queued.length * p ≤ S.maxConcurrentSessions * p := Nat.mul_le_mul_right p (by omega)
  exact (costs_retryQueued hp queued _).mono hroom

omit hp hl in
theorem Op.price_of_creates {op : Op} (h : op.creates = none) : op.price price = 0 := by
  cases op with
  | createSession workKey req => cases h
  | _ => rfl

/-- What a tick does after the drain asks for no session. -/
theorem costs_pollOnce :
    (pollOnce S).Costs (Op.price price) ok (S.maxConcurrentSessions * p) := by
  rw [pollOnce_eq]
  refine (costs_drainQueue hp hl).bind (n := 0) ?_
  intro summary
  exact costs_of_keeps (C := polls) (fun _ _ hop => Op.price_of_creates hop.2) (fun _ _ _ _ => trivial)
    (polls_pollAll (h := []) summary)

/-- **Every task keeps to its quota.** -/
theorem costs_task (task : Task) :
    (task.prog S).Costs (Op.price price) ok (task.quota S * p) := by
  have hone : ∀ {q : M Unit}, q.Costs (Op.price price) ok p →
      q.Costs (Op.price price) ok (1 * p) := by
    intro q hq
    rwa [Nat.one_mul]
  cases task with
  | securityIssue issue => exact hone ((costs_handleSecurityIssue hp issue).map _)
  | ciFailure run => exact hone ((costs_handleCiFailure hp run).map _)
  | receive d e a payload => exact costs_call_free rfl fun _ _ => trivial
  | process d e a payload => exact hone (costs_process hp d e a payload)
  | replay d =>
    refine hone (costs_call_free rfl ?_)
    intro row _
    cases row with
    | none => trivial
    | some row => exact costs_process hp _ _ _ _
  | drain => exact (costs_drainQueue hp hl).map _
  | poll => exact (costs_pollOnce hp hl).map _

end Price

/-! ## Runs -/

theorem exec_creations (op : Op) (w : World) :
    (exec env op w).2.creations = (creation ⟨op, (exec env op w).1⟩).toList ++ w.creations := by
  unfold World.creations
  rw [exec_trace, List.filterMap_cons]
  cases creation ⟨op, (exec env op w).1⟩ <;> rfl

/-- What is spent on the calls, at a price for each. -/
def World.spent (price : CreateRequest → ℕ) (w : World) : ℕ := (w.creations.map price).sum

theorem spent_exec (op : Op) (w : World) :
    (exec env op w).2.spent price = w.spent price + op.price price := by
  unfold World.spent
  rw [exec_creations]
  cases op with
  | createSession workKey req =>
    have hone : creation ⟨.createSession workKey req, (exec env (.createSession workKey req) w).1⟩ =
        some req := rfl
    rw [hone, Option.toList_some, List.singleton_append, List.map_cons, List.sum_cons, Nat.add_comm]
    rfl
  | _ => rfl

/-- What the tasks have spent is within what they may. -/
theorem spent_run {ok : (op : Op) → Ans op → Prop} (w : World) (hp : Affordable S price ok p)
    (hok : ∀ op w, ok op (exec env op w).1)
    (hl : ∀ limit rows, ok (.listQueued limit) rows → rows.length ≤ limit)
    (acts : List (Act Task ℕ)) :
    ((service env S).run ⟨w, []⟩ acts).world.spent price ≤ w.spent price + quota S acts * p := by
  have hrun := System.run_costs (S := service env S) (World.spent price) hok
    (fun op w => (spent_exec op w).le) (fun _ _ => rfl) (fun task => costs_task hp hl task) acts
    (c := ⟨w, []⟩) List.Forall₂.nil
  rw [System.spawned_mul] at hrun
  exact hrun

theorem affordable_of_price
    (hp : ∀ req : CreateRequest, req.maxAcuLimit = S.devinMaxAcuPerSession → price req ≤ p) :
    Affordable S price WithinPage p :=
  fun pk workKey _ hreq => costs_spawnSession pk workKey (hp _ hreq)

/-- **Every call is with the configured limit**: if any other limit has a price, nothing is spent. -/
theorem limit_of_creation (sessions : Sessions) (events : WebhookEvents) (now : Time)
    (acts : List (Act Task ℕ)) :
    let w := ((service env S).run ⟨{ sessions, events, now }, []⟩ acts).world
    ∀ req ∈ w.creations, req.maxAcuLimit = S.devinMaxAcuPerSession := by
  intro w req hreq
  let price : CreateRequest → ℕ := fun req =>
    if req.maxAcuLimit = S.devinMaxAcuPerSession then 0 else 1
  have hfree : Affordable S price WithinPage 0 := affordable_of_price fun req hreq => (if_pos hreq).le
  have hspent : w.spent price ≤ 0 + quota S acts * 0 :=
    spent_run _ hfree exec_withinPage (fun _ _ hrows => hrows) acts
  by_contra hne
  have hmem : 1 ∈ w.creations.map price := List.mem_map.2 ⟨req, hreq, if_neg hne⟩
  exact Nat.not_succ_le_zero 0 ((List.single_le_sum (by simp) 1 hmem).trans hspent)

theorem authorised_eq (sessions : Sessions) (events : WebhookEvents) (now : Time)
    (acts : List (Act Task ℕ)) :
    let w := ((service env S).run ⟨{ sessions, events, now }, []⟩ acts).world
    w.authorised = w.creations.length * S.devinMaxAcuPerSession.toNat := by
  intro w
  have hlimit : ∀ req ∈ w.creations, req.maxAcuLimit.toNat = S.devinMaxAcuPerSession.toNat :=
    fun req hreq => by rw [limit_of_creation sessions events now acts req hreq]
  rw [World.authorised, List.map_congr_left hlimit, List.map_const',
    List.sum_replicate_nat]

/-! ## Calls and rows -/

/-- The work keys that the calls were made for. -/
def World.created (w : World) : List String := w.trace.filterMap fun e => e.1.creates

theorem length_created (w : World) : w.created.length = w.creations.length := by
  unfold World.created World.creations
  rw [List.length_filterMap_eq_countP, List.length_filterMap_eq_countP]
  refine List.countP_congr fun e _ => ?_
  obtain ⟨op, a⟩ := e
  cases op <;> rfl

theorem count_created (w : World) (k : String) : w.created.count k = createCount k w.trace := by
  unfold World.created createCount List.count
  rw [List.countP_filterMap]
  refine List.countP_congr fun e _ => ?_
  cases e.1.creates <;> simp

/-- Each call was made for a row of its own. -/
theorem creations_le_rows (sessions : Sessions) (events : WebhookEvents) (now : Time)
    (acts : List (Act Task ℕ)) :
    let w := ((service env S).run ⟨{ sessions, events, now }, []⟩ acts).world
    w.creations.length ≤ w.sessions.rows.length := by
  intro w
  have hC : ∀ h op, (contract S).pre h op → reservations.ActsWhenOpen h op := fun _ _ => actsWhenOpen
  obtain ⟨hb, -⟩ := ClaimProtocol.at_most_once (S := service env S) (C := contract S)
    (P := reservations) (w := { sessions, events, now }) reservations_honest hC
    (fun _ op w => exec_honest env op w) keeps_task (fun _ => rfl) acts
  have hone : ∀ k, w.created.count k ≤ 1 := by
    intro k
    rw [count_created]
    exact le_trans (Nat.le_add_right _ _) (hb k).1
  have hrow : ∀ k ∈ w.created, k ∈ w.sessions.rows.map (·.workKey) := by
    intro k hk
    have hpos : 0 < createCount k w.trace := by
      rw [← count_created]
      exact List.count_pos_iff.2 hk
    obtain ⟨-, r, hr, he⟩ := (hb k).2 (Nat.lt_of_lt_of_le hpos (Nat.le_add_right _ _))
    exact List.mem_map.2 ⟨r, hr, he⟩
  have hle := (List.subperm_of_subset (List.nodup_iff_count_le_one.2 hone) hrow).length_le
  rwa [length_created, List.length_map] at hle

/-- A call sends as many requests as the client retries, and each may create a session. -/
theorem length_spawned_le (op : Op) (w : World) :
    (w.spawned env op).length ≤ env.transport.maxRetries * op.price fun _ => 1 := by
  cases op with
  | createSession workKey req =>
    have hsent : HttpDevinClient.sent env.transport (env.posts w.clock req.body) ≤
        env.transport.maxRetries := by
      by_contra hlt
      have hsent' := HttpDevinClient.lt_sent_iff.1 (Nat.lt_of_not_le hlt)
      exact Nat.lt_irrefl _ hsent'.1
    have hspawned : (w.spawned env (.createSession workKey req)).length ≤
        HttpDevinClient.sent env.transport (env.posts w.clock req.body) := by
      unfold World.spawned HttpDevinClient.spawned
      rw [List.length_map]
      exact (List.length_filterMap_le _ _).trans_eq List.length_range
    exact (hspawned.trans hsent).trans_eq (Nat.mul_one _).symm
  | _ => exact Nat.zero_le _

theorem spent_one (w : World) : w.spent (fun _ => 1) = w.creations.length := by
  unfold World.spent
  rw [List.map_const', List.sum_replicate_nat, Nat.mul_one]

theorem remote_le_exec (op : Op) (w : World)
    (hw : w.remote.length ≤ env.transport.maxRetries * w.creations.length) :
    (exec env op w).2.remote.length ≤
      env.transport.maxRetries * (exec env op w).2.creations.length := by
  have hnew : (w.spawned env op).length ≤ _ := length_spawned_le op w
  rw [← spent_one] at hw ⊢
  rw [exec_remote, List.length_append, spent_exec, Nat.mul_add]
  omega

/-- Devin has no more sessions for a call than the client sends requests. -/
theorem remote_le (sessions : Sessions) (events : WebhookEvents) (now : Time)
    (acts : List (Act Task ℕ)) :
    let w := ((service env S).run ⟨{ sessions, events, now }, []⟩ acts).world
    w.remote.length ≤ env.transport.maxRetries * w.creations.length :=
  System.world_inv (S := service env S)
    (fun w => w.remote.length ≤ env.transport.maxRetries * w.creations.length)
    (fun op w hw => remote_le_exec op w hw) (fun _ _ hw => hw) acts (Nat.zero_le _)

/-- **The bill.** In every interleaving of tasks, with crashes: the calls of `create_session` are
no more than the handlers that have been started, with room for each drain, and no more than the
rows of the table; what they allow Devin to consume is the configured limit for each, and no more
than that of all handlers that have been started; and Devin has no more sessions for a call than the
client sends requests. -/
theorem spend_bounded (sessions : Sessions) (events : WebhookEvents) (now : Time)
    (acts : List (Act Task ℕ)) :
    let w := ((service env S).run ⟨{ sessions, events, now }, []⟩ acts).world
    w.creations.length ≤ quota S acts ∧
      w.creations.length ≤ w.sessions.rows.length ∧
      w.authorised = w.creations.length * S.devinMaxAcuPerSession.toNat ∧
      w.authorised ≤ quota S acts * S.devinMaxAcuPerSession.toNat ∧
      w.remote.length ≤ env.transport.maxRetries * w.creations.length := by
  intro w
  have hcall : Affordable S (fun _ => 1) WithinPage 1 := affordable_of_price fun _ _ => le_rfl
  have hcalls : w.spent (fun _ => 1) ≤ 0 + quota S acts * 1 :=
    spent_run _ hcall exec_withinPage (fun _ _ hrows => hrows) acts
  rw [spent_one, Nat.zero_add, Nat.mul_one] at hcalls
  have hacus : w.authorised = w.creations.length * S.devinMaxAcuPerSession.toNat :=
    authorised_eq sessions events now acts
  refine ⟨hcalls, creations_le_rows sessions events now acts, hacus, ?_,
    remote_le sessions events now acts⟩
  rw [hacus]
  exact Nat.mul_le_mul_right _ hcalls

/-! ## Without a client -/

/-- `get_client` fails. -/
def NoClient : (op : Op) → Ans op → Prop
  | .getClient, client => client.isOk = false
  | op, a => WithinPage op a

/-- Where there is no client, a reservation is given up without a call. -/
theorem affordable_of_noClient : Affordable S (fun _ => 1) NoClient 0 := by
  intro pk workKey req _
  unfold spawnSession
  simp only [perform, bind_eq, call_bind, ret_bind]
  refine costs_call_free rfl ?_
  intro client hclient
  cases client with
  | error exc => exact (costs_markFailed 0 pk _).map _
  | ok _ => cases hclient

theorem exec_noClient (hfails : ∀ n, (env.getClient n).isOk = false) (op : Op) (w : World) :
    NoClient op (exec env op w).1 := by
  cases op with
  | getClient => exact hfails _
  | listQueued limit => exact List.length_take_le limit _
  | _ => trivial

theorem isOk_of_wrong (httpx : Httpx) {C : Credentials}
    (hwrong : ¬((startsWith C.devinApiKey "cog_" = true ∨ startsWith C.devinApiKey "apk_" = true) ∧
      startsWith C.devinOrgId "org-" = true)) :
    ((Singleton.devin.config httpx C).map fun _ => ()).isOk = false := by
  change ((initDevinTransport httpx _ _ _).map _).isOk = false
  unfold initDevinTransport
  split
  · rfl
  split
  · rfl
  · rename_i hkey horg
    rw [Bool.not_eq_true, Bool.not_eq_false', Bool.or_eq_true] at hkey
    rw [Bool.not_eq_true, Bool.not_eq_false'] at horg
    exact absurd ⟨hkey, horg⟩ hwrong

/-- **A wrong key spends nothing.** Where the client is made of the settings, and the API key or
the organisation in them is not of the right kind: in every interleaving of tasks, with crashes,
`create_session` is never called, and Devin has no session. -/
theorem misconfigured_spends_nothing (httpx : Httpx) (C : Credentials)
    (hclient : ∀ n, env.getClient n = (Singleton.devin.config httpx C).map fun _ => ())
    (hwrong : ¬((startsWith C.devinApiKey "cog_" = true ∨ startsWith C.devinApiKey "apk_" = true) ∧
      startsWith C.devinOrgId "org-" = true))
    (sessions : Sessions) (events : WebhookEvents) (now : Time) (acts : List (Act Task ℕ)) :
    let w := ((service env S).run ⟨{ sessions, events, now }, []⟩ acts).world
    w.creations = [] ∧ w.remote = [] := by
  intro w
  have hfails : ∀ n, (env.getClient n).isOk = false := by
    intro n
    rw [hclient n]
    exact isOk_of_wrong httpx hwrong
  have hnone : w.spent (fun _ => 1) ≤ 0 + quota S acts * 0 :=
    spent_run _ affordable_of_noClient (exec_noClient hfails) (fun _ _ hrows => hrows) acts
  rw [spent_one, Nat.mul_zero] at hnone
  have hremote : w.remote.length ≤ env.transport.maxRetries * w.creations.length :=
    remote_le sessions events now acts
  have hcreations : w.creations.length = 0 := Nat.le_zero.1 hnone
  rw [hcreations, Nat.mul_zero] at hremote
  exact ⟨List.length_eq_zero_iff.1 hcreations, List.length_eq_zero_iff.1 (Nat.le_zero.1 hremote)⟩

/-- An outside whose client is made of the default settings, which have no key. -/
def Outside.keyless : Outside :=
  { Outside.calm with
    getClient := fun _ => (Singleton.devin.config (fun _ => .ok ()) {}).map fun _ => () }

theorem keyless_spends_nothing :
    ((service .keyless {}).run ⟨.initial 0, []⟩
      (.spawn (.securityIssue (.sample 1)) :: List.replicate 8 (.run 0))).world.remote = [] :=
  (misconfigured_spends_nothing (fun _ => .ok ()) {} (fun _ => rfl) (by decide) .empty .empty 0 _).2

end Remediation
