import Remediation.Proof.Contract

/-!
# The tasks keep to the contract

One lemma for each function, in the order of the source; `keeps_task` puts them
together. A lemma about a loop says what it needs of the rows it has not reached yet.
-/

namespace Remediation

open Interaction Prog

variable {S : Settings} {h : Hist}

theorem makeWorkKey_ne (repo : String) (n : ℤ) (label : String) : makeWorkKey repo n label ≠ "" := by
  intro h
  simp only [makeWorkKey, String.append_eq_empty_iff] at h
  exact absurd h.1.1.1.1.1 (by decide)

theorem makeCiFixWorkKey_ne (repo runId : String) : makeCiFixWorkKey repo runId ≠ "" := by
  intro h
  simp only [makeCiFixWorkKey, String.append_eq_empty_iff] at h
  exact absurd h.1.1.1 (by decide)

/-- An idle task stays so whatever it asks. -/
theorem Idle.cons (hi : Idle h) (op : Op) (hop : op.quiet = true) (a : Ans op) :
    Idle (⟨op, a⟩ :: h) := by
  cases op with
  | tryReserve res => cases hop
  | update pk u => cases hop
  | createSession key req => cases hop
  | postPrComment pk repo n body => cases hop
  | _ => exact ⟨hi.1, rfl⟩

theorem idle_update (pk : ℕ) (u : Update) (a : Unit) : Idle (⟨.update pk u, a⟩ :: h) := ⟨rfl, rfl⟩

/-! ## The handlers -/

theorem keeps_markFailed {hd : Held} (hh : held h = some hd) (reason : String) :
    (markFailed hd.pk reason).Keeps (contract S) Settled h := by
  unfold markFailed
  simp only [perform, bind_eq, call_bind, ret_bind, keeps_call, keeps_ret]
  refine ⟨.quiet rfl (justSpawned_of_held hh) trivial, ?_⟩
  intro t _
  have hh' : held (⟨.now, t⟩ :: h) = some hd := by simpa [held] using hh
  exact ⟨.fail hh', fun a _ => idle_update _ _ a⟩

theorem keeps_spawnSession {hd : Held} (hh : held h = some hd) (hc : hd.called = false)
    (hk : hd.res.workKey ≠ "") (req : CreateRequest) :
    (spawnSession hd.pk hd.res.workKey req).Keeps (contract S) Settled h := by
  unfold spawnSession
  simp only [perform, bind_eq, call_bind, ret_bind, keeps_call]
  refine ⟨.quiet rfl (justSpawned_of_held hh) trivial, ?_⟩
  intro client _
  have hh' : held (⟨.getClient, client⟩ :: h) = some hd := by simpa [held] using hh
  cases client with
  | error exc => exact (keeps_markFailed hh' _).bind fun _ _ hs => hs
  | ok _ =>
    refine ⟨.create hh' hc hk, ?_⟩
    intro created _
    cases created with
    | error exc =>
      -- the reservation is still held, but the call has been made
      have hcalled : held (⟨.createSession hd.res.workKey req, .error exc⟩ ::
          ⟨.getClient, .ok ()⟩ :: h) = some { hd with called := true } := by simp [held, hh]
      exact (keeps_markFailed hcalled _).bind fun _ _ hs => hs
    | ok created =>
      have hj : justSpawned (⟨.createSession hd.res.workKey req, .ok created⟩ ::
          ⟨.getClient, .ok ()⟩ :: h) = some (hd.pk, created) := by simp [justSpawned, held, hh]
      exact ⟨.activate hj, fun _ _ => ⟨rfl, rfl⟩⟩

theorem keeps_remediate {hd : Held} (hh : held h = some hd) (hc : hd.called = false)
    (hk : hd.res.workKey ≠ "") (issue : Issue) :
    (remediate S issue hd.pk hd.res.workKey).Keeps (contract S) Settled h := by
  unfold remediate
  split
  · exact (keeps_markFailed hh _).bind fun _ _ hs => hs
  · dsimp only
    split
    · exact (keeps_markFailed hh _).bind fun _ _ hs => hs
    · exact keeps_spawnSession hh hc hk _

theorem keeps_handleSecurityIssue (hi : Idle h) (issue : Issue) :
    (handleSecurityIssue S issue).Keeps (contract S) Settled h := by
  unfold handleSecurityIssue
  simp only [perform, bind_eq, call_bind, ret_bind, keeps_call]
  refine ⟨.quiet rfl hi.2 trivial, ?_⟩
  intro active _
  split
  · exact hi.cons _ rfl active
  rename_i hcap
  refine ⟨.quiet rfl rfl trivial, ?_⟩
  intro today _
  dsimp only
  have hi' := (hi.cons .countActive rfl active).cons .countStartedToday rfl today
  split
  · exact hi'
  rename_i hday
  refine ⟨.reserveIssue (n := active) (d := today) hi' rfl (by omega) rfl (by omega), ?_⟩
  intro reserved _
  cases reserved with
  | none => exact ⟨hi'.1, rfl⟩
  | some pk =>
    have hh : held (⟨.tryReserve (securityReservation S issue), some pk⟩ ::
      ⟨.countStartedToday, today⟩ :: ⟨.countActive, active⟩ :: h) =
        some ⟨securityReservation S issue, pk, false⟩ := rfl
    exact keeps_remediate hh rfl (makeWorkKey_ne _ _ _) issue

theorem keeps_fix (t : FixTarget) {n pk : ℕ} (hh : held h = some ⟨t.reservation n, pk, false⟩) :
    (fix S t n pk).Keeps (contract S) Settled h := by
  unfold fix
  simp only [perform, bind_eq, call_bind, ret_bind, keeps_call]
  refine ⟨.quiet rfl (justSpawned_of_held hh) trivial, ?_⟩
  intro logs _
  have hh' : held (⟨.getWorkflowRunFailingJobLogs t.repo t.run.id 200, logs⟩ :: h) =
      some ⟨t.reservation n, pk, false⟩ := by simpa [held] using hh
  cases logs with
  | error exc => exact keeps_spawnSession hh' rfl (makeCiFixWorkKey_ne _ _) _
  | ok logsTail => exact keeps_spawnSession hh' rfl (makeCiFixWorkKey_ne _ _) _

theorem keeps_attemptFix (t : FixTarget) {m : ℕ} (hm : counted h = some (t.prUrl, t.parent, m))
    (hlt : m < S.maxFixAttempts) (hi : Idle h) :
    (attemptFix S t (m + 1)).Keeps (contract S) Settled h := by
  unfold attemptFix
  simp only [perform, bind_eq, call_bind, ret_bind, keeps_call]
  refine ⟨.quiet rfl hi.2 trivial, ?_⟩
  intro commits _
  have hi' := hi.cons (.listPrCommits t.repo t.prNumber) rfl commits
  cases commits with
  | error exc => exact hi'
  | ok commits =>
    dsimp only
    split
    · exact hi'
    refine ⟨.quiet rfl rfl trivial, ?_⟩
    intro active _
    have hi'' := hi'.cons .countActive rfl active
    dsimp only
    split
    · exact hi''
    rename_i hcap
    have hm' : counted (⟨.countActive, active⟩ :: ⟨.listPrCommits t.repo t.prNumber, .ok commits⟩ ::
        h) = some (t.prUrl, t.parent, m) := by simpa [counted] using hm
    refine ⟨.reserveFix (n := active) hi'' rfl (by omega) hm' hlt, ?_⟩
    intro reserved _
    cases reserved with
    | none => exact ⟨hi''.1, rfl⟩
    | some pk => exact keeps_fix t rfl

/-- The rows still to be worked on are as they were read. -/
def Ahead (rest : List SessionRow) (h : Hist) : Prop := ∀ r ∈ rest, seen r.id h = some r

section Ahead

variable {rest : List SessionRow}

theorem Ahead.tail {r : SessionRow} (hR : Ahead (r :: rest) h) : Ahead rest h :=
  fun s hs => hR s (List.mem_cons_of_mem _ hs)

theorem Ahead.now (hR : Ahead rest h) (t : Time) : Ahead rest (⟨.now, t⟩ :: h) :=
  fun r hr => by simpa [seen] using hR r hr

theorem Ahead.terminate (hR : Ahead rest h) (x : String) (a : Except Exc Unit) :
    Ahead rest (⟨.terminateSession x, a⟩ :: h) :=
  fun r hr => by simpa [seen] using hR r hr

/-- Rows that have just been read are as they were read. -/
theorem ahead_of_read {rows : List SessionRow} {h' : Hist} (hnd : (rows.map (·.id)).Nodup)
    (hread : ∀ pk, seen pk h' = (rows.find? fun r => r.id = pk).or (seen pk h)) :
    Ahead rows h' := by
  intro r hr
  rw [hread, Table.find?_id SessionRow.id hnd hr]
  rfl

/-- Writing to another row leaves them so. -/
theorem Ahead.update (hR : Ahead rest h) {pk : ℕ} (hpk : pk ∉ rest.map (·.id)) (u : Update)
    (a : Unit) : Ahead rest (⟨.update pk u, a⟩ :: h) := by
  intro r hr
  have hne : pk ≠ r.id := fun he => hpk (List.mem_map.2 ⟨r, hr, he.symm⟩)
  simpa [seen, hne] using hR r hr

end Ahead

/-- Before a child is cancelled, its session has been told to stop, if it has one. -/
theorem keeps_terminateChild {pk : ℕ} {child : SessionRow} {rest : List SessionRow}
    (hR : Ahead (child :: rest) h) (ha : announcing h = some pk) (hi : Idle h) :
    (terminateChild child).Keeps (contract S) (fun h' _ => Ahead (child :: rest) h' ∧
      (∀ x, child.devinSessionId = some x → x ≠ "" → stopped x h' = true) ∧
      announcing h' = some pk ∧ Idle h') h := by
  unfold terminateChild
  split
  · rename_i sessionId hx
    refine ⟨.quiet rfl hi.2 trivial, ?_⟩
    intro a _
    refine ⟨hR.terminate sessionId a, ?_, by simpa [announcing] using ha, hi.cons _ rfl a⟩
    intro x hx' _
    obtain ⟨hid, -⟩ := PyText.truthy_eq_some.1 hx
    have he : sessionId = x := Option.some.inj (hid.symm.trans hx')
    simp [stopped, he]
  · rename_i hx
    refine ⟨hR, ?_, ha, hi⟩
    intro x hx' hne
    have htrue := PyText.truthy_eq_some.2 ⟨hx', hne⟩
    rw [hx] at htrue
    cases htrue

/-- The children are cancelled one by one, each as it was read. -/
theorem keeps_cancelChildren {pk : ℕ} (children : List SessionRow)
    (hnd : (children.map (·.id)).Nodup) (hact : ∀ r ∈ children, r.status.active = true)
    (hR : Ahead children h) (ha : announcing h = some pk)
    (hi : Idle h) :
    (cancelChildren children).Keeps (contract S)
      (fun h _ => announcing h = some pk ∧ Idle h) h := by
  induction children generalizing h with
  | nil => exact ⟨ha, hi⟩
  | cons child rest ih =>
    rw [List.map_cons, List.nodup_cons] at hnd
    obtain ⟨hnot, hnd'⟩ := hnd
    unfold cancelChildren
    refine (keeps_terminateChild hR ha hi).bind ?_
    rintro h' - ⟨hR', hstop, ha', hi'⟩
    have hchild : seen child.id h' = some child := hR' child List.mem_cons_self
    refine ⟨.cancelChild hi' hchild (hact child List.mem_cons_self) hstop ha', ?_⟩
    intro a _
    -- the child's own row is written, and the others are still as they were read
    refine ih hnd' (fun r hr => hact r (List.mem_cons_of_mem _ hr)) (hR'.tail.update hnot _ a) ?_
      (idle_update _ _ a)
    simpa [announcing, Update.escalates] using ha'

theorem keeps_escalateToHuman {prUrl : String} {parent : SessionRow} {m : ℕ}
    (hm : counted h = some (prUrl, parent, m)) (hcap : S.maxFixAttempts ≤ m)
    (ht : parent.status.terminal = true) (hi : Idle h) (repo : String)
    (prNumber : ℤ) : (escalateToHuman parent repo prNumber m).Keeps (contract S) Settled h := by
  have hne : parent.status ≠ .needsAttention := by intro he; rw [he] at ht; cases ht
  simp only [escalateToHuman, if_neg hne, perform, bind_eq, call_bind, ret_bind, keeps_call]
  refine ⟨.escalate hi hm hcap ht, fun _ _ => ⟨.quiet rfl rfl trivial, ?_⟩⟩
  intro client _
  cases client with
  | error exc => exact ⟨rfl, rfl⟩
  | ok _ =>
    refine ⟨.quiet rfl rfl trivial, ?_⟩
    intro children hc
    refine (keeps_cancelChildren children hc.1 hc.2 (ahead_of_read hc.1 fun _ => rfl)
      (show announcing _ = some parent.id from rfl) ⟨rfl, rfl⟩).bind ?_
    -- the children are cancelled, and what is left is the announcement
    rintro h' - ⟨ha, hi'⟩
    exact ⟨.comment hi' ha, fun _ _ => ⟨hi'.1, rfl⟩⟩

theorem keeps_fixOrEscalate (t : FixTarget) (hc : chosen h = some (t.prUrl, t.parent))
    (ht : t.parent.status.terminal = true) (hi : Idle h) :
    (fixOrEscalate S t).Keeps (contract S) Settled h := by
  unfold fixOrEscalate
  simp only [perform, bind_eq, call_bind, ret_bind, keeps_call]
  refine ⟨.quiet rfl hi.2 ⟨_, hc, rfl⟩, ?_⟩
  intro m _
  have hi' := hi.cons (.maxFixAttemptForParent t.parent.devinSessionId) rfl m
  have hm : counted (⟨.maxFixAttemptForParent t.parent.devinSessionId, m⟩ :: h) =
      some (t.prUrl, t.parent, m) := by simp [counted, hc]
  split
  · rename_i hcap
    refine (keeps_escalateToHuman hm hcap ht hi' _ _).bind ?_
    intro h' escalated hs
    cases escalated <;> exact hs
  · rename_i hcap
    exact (keeps_attemptFix t hm (by omega) hi').bind fun _ _ hs => hs

theorem keeps_handleCiFailure (hi : Idle h) (run : WorkflowRun) :
    (handleCiFailure S run).Keeps (contract S) Settled h := by
  unfold handleCiFailure
  -- the guards on the payload come before any call
  split
  · exact hi
  split
  · exact hi
  split
  · exact hi
  simp only [perform, bind_eq, call_bind, ret_bind, keeps_call]
  refine ⟨.quiet rfl hi.2 trivial, ?_⟩
  intro pr _
  have hi' := hi.cons (.getPr _ _) rfl pr
  rcases pr with exc | _ | pr
  · exact hi'
  · exact hi'
  dsimp only
  split
  · exact hi'
  refine ⟨.quiet rfl rfl trivial, ?_⟩
  intro parent _
  have hi'' := hi'.cons (.findByPr _) rfl parent
  cases parent with
  | none => exact hi''
  | some parent =>
    dsimp only
    split
    · exact hi''
    · rename_i hterm
      exact keeps_fixOrEscalate _ rfl (by simpa using hterm) hi''

/-! ## Dispatch and the queue -/

theorem keeps_dispatchIssue (hs : Idle h) (action : Option String)
    (payload : Payload) : (dispatchIssue S action payload).Keeps (contract S) Settled h := by
  unfold dispatchIssue
  dsimp only
  split
  · exact hs
  split
  · exact hs
  split
  · exact (keeps_handleSecurityIssue hs _).bind fun _ _ hs => hs
  split <;> exact hs

theorem keeps_dispatchWorkflowRun (hs : Idle h) (action : Option String)
    (payload : Payload) : (dispatchWorkflowRun S action payload).Keeps (contract S) Settled h := by
  unfold dispatchWorkflowRun
  dsimp only
  split
  · exact hs
  split
  · exact hs
  · exact keeps_handleCiFailure hs _

theorem keeps_dispatch (hs : Idle h) (eventType : String) (action : Option String)
    (payload : Payload) : (dispatch S eventType action payload).Keeps (contract S) Settled h := by
  unfold dispatch
  split
  · exact keeps_dispatchIssue hs action payload
  split
  · exact keeps_dispatchWorkflowRun hs action payload
  split <;> exact hs

theorem keeps_process (hs : Idle h) (deliveryId eventType : String)
    (action : Option String) (payload : Payload) :
    (process S deliveryId eventType action payload).Keeps (contract S) Settled h := by
  refine (keeps_dispatch hs eventType action payload).bind ?_
  intro h' result hs'
  exact ⟨.quiet rfl hs'.2 trivial, fun a _ => hs'.cons (.markProcessed _ _) rfl a⟩

theorem keeps_retryQueued (rows : List WebhookEvent) (summary : Summary)
    (hs : Idle h) : (retryQueued S rows summary).Keeps (contract S) Settled h := by
  induction rows generalizing h summary with
  | nil => exact hs
  | cons row rest ih =>
    unfold retryQueued
    refine (keeps_dispatch hs _ _ _).bind ?_
    intro h' result hs'
    cases result with
    | error exc => exact ih _ hs'
    | ok outcome =>
      dsimp only
      split
      · exact ⟨.quiet rfl hs'.2 trivial, fun a _ => ih _ (hs'.cons _ rfl a)⟩
      · exact ih _ hs'

theorem keeps_drainQueue (hi : Idle h) :
    (drainQueue S).Keeps (contract S) Settled h := by
  unfold drainQueue
  simp only [perform, bind_eq, call_bind, ret_bind, keeps_call]
  refine ⟨.quiet rfl hi.2 trivial, ?_⟩
  intro active _
  have hi' := hi.cons .countActive rfl active
  split
  · exact hi'
  · exact ⟨.quiet rfl rfl trivial, fun queued _ => keeps_retryQueued queued _ (hi'.cons _ rfl queued)⟩

/-! ## The poller -/

/-- The row is as it was read, and Devin has just answered for its session. -/
structure Answered (r : SessionRow) (x : String) (data : ApiSession) (h : Hist) : Prop where
  fresh : seen r.id h = some r
  active : r.status.active = true
  session : r.devinSessionId = some x
  answer : answered x h = some data
  idle : Idle h

/-- Nothing is left open, and the rest of the tick can go on. -/
def Onward {α : Type} (rest : List SessionRow) (h : Hist) (_ : α) : Prop :=
  Idle h ∧ Ahead rest h

variable {row : SessionRow} {rest : List SessionRow} {x : String} {data : ApiSession}

theorem Answered.now (hA : Answered row x data h) (t : Time) :
    Answered row x data (⟨.now, t⟩ :: h) :=
  ⟨by simpa [seen] using hA.fresh, hA.active, hA.session, by simpa [answered] using hA.answer,
    hA.idle.cons _ rfl _⟩

theorem Answered.terminate (hA : Answered row x data h) (a : Except Exc Unit) :
    Answered row x data (⟨.terminateSession x, a⟩ :: h) :=
  ⟨by simpa [seen] using hA.fresh, hA.active, hA.session, by simpa [answered] using hA.answer,
    hA.idle.cons _ rfl _⟩

/-- The write that ends the work on a row. -/
theorem keeps_pollWrite {u : Update} (hA : Answered row x data h) (hR : Ahead rest h)
    (hrow : row.id ∉ rest.map (·.id))
    (hu : PollWrite row (fromApiResponse data) (stopped x h) u) {α : Type} (v : α) :
    ((perform (.update row.id u)).bind fun _ => Prog.ret v).Keeps (contract S) (Onward rest) h := by
  refine ⟨.poll hA.idle hA.fresh hA.active hA.session hA.answer hu, ?_⟩
  intro a _
  exact ⟨idle_update _ _ a, hR.update hrow u a⟩

theorem keeps_writeBack (hA : Answered row x data h) (hR : Ahead rest h)
    (hrow : row.id ∉ rest.map (·.id)) (summary : Summary) :
    (writeBack summary row x (fromApiResponse data)).Keeps (contract S) (Onward rest) h := by
  -- the status in the row is active, so the branches for the pull request are open
  have hact : row.status.terminal = false := by rw [Status.terminal_eq, hA.active]; rfl
  unfold writeBack
  simp only [perform, bind_eq, call_bind, ret_bind, keeps_call]
  refine ⟨.quiet rfl hA.idle.2 trivial, ?_⟩
  intro t _
  have hA' := hA.now t
  have hR' := hR.now t
  split
  · rename_i hd
    exact keeps_pollWrite hA' hR' hrow (.unchanged t (by simpa using hd)) _
  rename_i hd
  have hd' : row.differs (fromApiResponse data) = true := by simpa using hd
  split
  · rename_i hm
    refine ⟨.quiet rfl rfl trivial, fun a _ => ⟨.quiet rfl rfl trivial, ?_⟩⟩
    intro t' _
    have hA'' := (hA'.terminate a).now t'
    have hR'' := (hR'.terminate x a).now t'
    exact keeps_pollWrite hA'' hR'' hrow (.merged t t' hd' hm.1 (by simp [stopped])) _
  rename_i hm
  have hm' : (fromApiResponse data).prState ≠ some "merged" := fun he => hm ⟨he, hact⟩
  split
  · rename_i hc
    refine ⟨.quiet rfl rfl trivial, ?_⟩
    intro t' _
    exact keeps_pollWrite (hA'.now t') (hR'.now t') hrow (.closed t t' hd' hc.1) _
  rename_i hc
  have hc' : (fromApiResponse data).prState ≠ some "closed" := fun he => hc ⟨he, hact⟩
  split
  · rename_i he
    refine ⟨.quiet rfl rfl trivial, ?_⟩
    intro t' _
    exact keeps_pollWrite (hA'.now t') (hR'.now t') hrow (.ended t t' hd' hm' hc' he.1 he.2) _
  · rename_i he
    exact keeps_pollWrite hA' hR' hrow (.mirrored t hd' hm' hc' he) _

theorem keeps_timeOut (hA : Answered row x data h) (hR : Ahead rest h)
    (hrow : row.id ∉ rest.map (·.id)) (inactive : ℤ)
    (hst : (fromApiResponse data).status = .pending ∨ (fromApiResponse data).status = .running) :
    (timeOut row x inactive).Keeps (contract S) (Onward rest) h := by
  unfold timeOut
  simp only [perform, bind_eq, call_bind, ret_bind, keeps_call]
  refine ⟨.quiet rfl hA.idle.2 trivial, fun a _ => ⟨.quiet rfl rfl trivial, fun t _ => ?_⟩⟩
  refine ⟨.quiet rfl rfl trivial, ?_⟩
  intro t' _
  have hA' := ((hA.terminate a).now t).now t'
  have hR' := ((hR.terminate x a).now t).now t'
  exact keeps_pollWrite hA' hR' hrow (.timedOut _ t t' hst (by simp [stopped])) ()

theorem keeps_timeOutOrWriteBack (hA : Answered row x data h) (hR : Ahead rest h)
    (hrow : row.id ∉ rest.map (·.id)) (summary : Summary) (inactive : ℤ)
    (hst : (fromApiResponse data).status = .pending ∨ (fromApiResponse data).status = .running) :
    (timeOutOrWriteBack S summary row x (fromApiResponse data) inactive).Keeps (contract S)
      (Onward rest) h := by
  unfold timeOutOrWriteBack
  split
  · exact (keeps_timeOut hA hR hrow inactive hst).bind fun _ _ hs => hs
  · exact keeps_writeBack hA hR hrow summary

theorem keeps_processAnswer (hA : Answered row x data h) (hR : Ahead rest h)
    (hrow : row.id ∉ rest.map (·.id)) (summary : Summary) :
    (processAnswer S summary row x (fromApiResponse data)).Keeps (contract S) (Onward rest) h := by
  unfold processAnswer
  split
  · rename_i hst
    simp only [perform, bind_eq, call_bind, ret_bind, keeps_call]
    refine ⟨.quiet rfl hA.idle.2 trivial, ?_⟩
    intro t _
    split
    · -- the tick ends with an exception
      exact ⟨hA.idle.cons _ rfl t, hR.now t⟩
    · exact (keeps_timeOutOrWriteBack (hA.now t) (hR.now t) hrow summary _ hst).bind
        fun _ _ hs => hs
  · exact (keeps_writeBack hA hR hrow _).bind fun _ _ hs => hs

theorem keeps_pollRow (hs : seen row.id h = some row) (hact : row.status.active = true)
    (hR : Ahead rest h) (hrow : row.id ∉ rest.map (·.id)) (hi : Idle h)
    (summary : Summary) : (pollRow S summary row).Keeps (contract S) (Onward rest) h := by
  unfold pollRow
  split
  · exact ⟨hi, hR⟩
  rename_i x hx
  simp only [perform, bind_eq, call_bind, ret_bind, keeps_call]
  refine ⟨.quiet rfl hi.2 ⟨row, hs, hact, (PyText.truthy_eq_some.1 hx).1⟩, ?_⟩
  intro answer _
  have hi' := hi.cons (.getSession x) rfl answer
  have hR' : Ahead rest (⟨.getSession x, answer⟩ :: h) := fun r hr => by simpa [seen] using hR r hr
  cases answer with
  | error exc => exact ⟨hi', hR'⟩
  | ok data =>
    have hA : Answered row x data (⟨.getSession x, .ok data⟩ :: h) :=
      ⟨by simpa [seen] using hs, hact, (PyText.truthy_eq_some.1 hx).1, by simp [answered], hi'⟩
    exact keeps_processAnswer hA hR' hrow _

theorem keeps_pollRows (rows : List SessionRow) (hnd : (rows.map (·.id)).Nodup)
    (hact : ∀ r ∈ rows, r.status.active = true) (hR : Ahead rows h) (hi : Idle h)
    (summary : Summary) : (pollRows S rows summary).Keeps (contract S) Settled h := by
  induction rows generalizing h summary with
  | nil => exact hi
  | cons row rest ih =>
    rw [List.map_cons, List.nodup_cons] at hnd
    have hrow : seen row.id h = some row := hR row List.mem_cons_self
    have hact' : ∀ r ∈ rest, r.status.active = true := fun r hr => hact r (List.mem_cons_of_mem _ hr)
    unfold pollRows
    refine (keeps_pollRow hrow (hact row List.mem_cons_self) hR.tail hnd.1 hi summary).bind ?_
    rintro h' result ⟨hi', hR'⟩
    cases result with
    | error exc => exact hi'
    | ok summary => exact ih hnd.2 hact' hR' hi' _

theorem keeps_pollOnce (hi : Idle h) :
    (pollOnce S).Keeps (contract S) Settled h := by
  refine (keeps_drainQueue hi).bind ?_
  intro h' summary hs
  simp only [perform, bind_eq, call_bind, ret_bind, keeps_call]
  refine ⟨.quiet rfl hs.2 trivial, ?_⟩
  intro client _
  have hi' := hs.cons .getClient rfl client
  cases client with
  | error exc => exact hi'
  | ok _ =>
    refine ⟨.quiet rfl rfl trivial, ?_⟩
    intro rows hrows
    have hi'' := hi'.cons .listNonTerminal rfl rows
    exact keeps_pollRows rows hrows.1 hrows.2 (ahead_of_read hrows.1 fun _ => rfl) hi'' summary

/-! ## Tasks -/

theorem keeps_discard {α : Type} {p : M α} (hp : p.Keeps (contract S) Settled h) :
    (discard p).Keeps (contract S) Settled h :=
  hp.bind fun _ _ hs => hs

/-- A task that has done nothing yet is idle. -/
theorem idle_nil : Idle [] := ⟨rfl, rfl⟩

/-- **Every task keeps to the contract.** -/
theorem keeps_task (task : Task) : (task.prog S).Keeps (contract S) Settled [] := by
  cases task with
  | securityIssue issue => exact keeps_discard (keeps_handleSecurityIssue idle_nil issue)
  | ciFailure run => exact keeps_discard (keeps_handleCiFailure idle_nil run)
  | receive d e a p => exact keeps_discard ⟨.quiet rfl rfl rfl, fun b _ => idle_nil.cons _ rfl b⟩
  | process d e a p => exact keeps_process idle_nil d e a p
  | replay d =>
    refine ⟨.quiet rfl rfl trivial, ?_⟩
    intro row _
    have hi := idle_nil.cons (.getEvent d) rfl row
    cases row with
    | none => exact hi
    | some row => exact keeps_process hi _ _ _ _
  | drain => exact keeps_discard (keeps_drainQueue idle_nil)
  | poll => exact keeps_discard (keeps_pollOnce idle_nil)

end Remediation
