import Remediation.Proof.Effects

/-!
# What a dispatch answers

A dispatch does not write to the log of deliveries: its caller stores the result. Only a
security issue is ever answered with `queued:*`.
-/

namespace Remediation

open Interaction Prog PyText

/-! ## What handlers issue -/

/-- The operations that the poller alone issues: it asks Devin about sessions, and dates its
writes, with which it records the pull request. -/
def Op.unpolled : Op → Bool
  | .listNonTerminal => false
  | .getSession _ => false
  | .update _ u => u.lastPolledAt.isNone && u.prUrl.isNone
  | _ => true

/-- Whoever keeps this is not the poller. -/
def unpolled : Contract Ans where
  pre _ op := op.unpolled = true
  post _ _ _ := True

/-- Whoever keeps this leaves the log alone. -/
def silent : Contract Ans where
  pre _ op := op.logs = false
  post _ _ _ := True

/-- What a handler keeps: it does neither the poller's work nor that of its caller. -/
def handling : Contract Ans where
  pre _ op := (op.unpolled && !op.logs) = true
  post _ _ _ := True

/-- The result leaves the event in the queue. -/
def Outcome.waits : Outcome → Bool
  | .queued _ => true
  | _ => false

variable {S : Settings} {env : Outside} {w : World} {h : Hist}

/-- What a silent program returns, and that the log is as it was. -/
theorem eval_silent {α : Type} {Q : α → Prop} {p : M α} (hp : p.Keeps silent (fun _ => Q) [])
    (env : Outside) (w : World) :
    (p.eval (exec env) w).2.events = w.events ∧ w.now ≤ (p.eval (exec env) w).2.now ∧
      Q (p.eval (exec env) w).1 := by
  obtain ⟨-, ⟨hevents, hnow⟩, hQ⟩ := eval_inv (C := silent) (R := fun _ _ _ _ => True)
    (J := fun _ s => s.events = w.events ∧ w.now ≤ s.now) (fun _ _ _ _ _ => trivial)
    (fun h s op hJ hop _ => ⟨(exec_events hop).trans hJ.1, hJ.2.trans (now_le op)⟩) p hp
    ⟨rfl, le_rfl⟩ (along_true p w)
  exact ⟨hevents, hnow, hQ⟩

theorem silent_of_handling {α : Type} {Q : Hist → α → Prop} {p : M α} (hp : p.Keeps handling Q h) :
    p.Keeps silent Q h := by
  refine hp.weaken (fun _ op hop => ?_) fun _ _ _ _ => trivial
  have hop' : (op.unpolled && !op.logs) = true := hop
  simp only [Bool.and_eq_true, Bool.not_eq_true'] at hop'
  exact hop'.2

theorem unpolled_of_handling {α : Type} {Q : Hist → α → Prop} {p : M α}
    (hp : p.Keeps handling Q h) : p.Keeps unpolled Q h := by
  refine hp.weaken (fun _ op hop => ?_) fun _ _ _ _ => trivial
  have hop' : (op.unpolled && !op.logs) = true := hop
  rw [Bool.and_eq_true] at hop'
  exact hop'.1

theorem handling_markFailed (pk : ℕ) (reason : String) :
    (markFailed pk reason).Keeps handling (fun _ _ => True) h :=
  ⟨rfl, fun _ _ => ⟨rfl, fun _ _ => trivial⟩⟩

theorem handling_spawnSession (pk : ℕ) (workKey : String) (req : CreateRequest) :
    (spawnSession pk workKey req).Keeps handling (fun _ o => o.waits = false) h := by
  unfold spawnSession
  simp only [perform, bind_eq, call_bind, ret_bind, keeps_call]
  refine ⟨rfl, fun client _ => ?_⟩
  cases client with
  | error exc => exact (handling_markFailed pk _).bind fun _ _ _ => rfl
  | ok _ =>
    refine ⟨rfl, fun created _ => ?_⟩
    cases created with
    | error exc => exact (handling_markFailed pk _).bind fun _ _ _ => rfl
    | ok created => exact ⟨rfl, fun _ _ => rfl⟩

theorem handling_remediate (issue : Issue) (pk : ℕ) (workKey : String) :
    (remediate S issue pk workKey).Keeps handling (fun _ o => o.waits = false) h := by
  unfold remediate
  split
  · exact (handling_markFailed pk _).bind fun _ _ _ => rfl
  dsimp only
  split
  · exact (handling_markFailed pk _).bind fun _ _ _ => rfl
  · exact handling_spawnSession pk _ _

theorem handling_handleSecurityIssue (issue : Issue) :
    (handleSecurityIssue S issue).Keeps handling (fun _ _ => True) h := by
  unfold handleSecurityIssue
  simp only [perform, bind_eq, call_bind, ret_bind, keeps_call]
  refine ⟨rfl, fun active _ => ?_⟩
  split
  · trivial
  refine ⟨rfl, fun today _ => ?_⟩
  dsimp only
  split
  · trivial
  refine ⟨rfl, fun reserved _ => ?_⟩
  cases reserved with
  | none => trivial
  | some pk => exact keeps_mono _ (fun _ _ _ => trivial) (handling_remediate issue pk _)

theorem handling_terminateChild (child : SessionRow) :
    (terminateChild child).Keeps handling (fun _ _ => True) h := by
  unfold terminateChild
  split
  · exact ⟨rfl, fun _ _ => trivial⟩
  · trivial

theorem handling_cancelChildren (children : List SessionRow) :
    (cancelChildren children).Keeps handling (fun _ _ => True) h := by
  induction children generalizing h with
  | nil => trivial
  | cons child rest ih => exact (handling_terminateChild child).bind fun _ _ _ => ⟨rfl, fun _ _ => ih⟩

theorem handling_escalateToHuman (parent : SessionRow) (repo : String) (prNumber : ℤ) (n : ℕ) :
    (escalateToHuman parent repo prNumber n).Keeps handling (fun _ _ => True) h := by
  unfold escalateToHuman
  split
  · trivial
  simp only [perform, bind_eq, call_bind, ret_bind, keeps_call]
  refine ⟨rfl, fun _ _ => ⟨rfl, fun client _ => ?_⟩⟩
  cases client with
  | error exc => trivial
  | ok _ =>
    refine ⟨rfl, fun children _ => ?_⟩
    exact (handling_cancelChildren children).bind fun _ _ _ => ⟨rfl, fun _ _ => trivial⟩

theorem handling_attemptFix (t : FixTarget) (n : ℕ) :
    (attemptFix S t n).Keeps handling (fun _ o => o.waits = false) h := by
  unfold attemptFix
  simp only [perform, bind_eq, call_bind, ret_bind, keeps_call]
  refine ⟨rfl, fun commits _ => ?_⟩
  cases commits with
  | error exc => rfl
  | ok commits =>
    dsimp only
    split
    · rfl
    refine ⟨rfl, fun active _ => ?_⟩
    dsimp only
    split
    · rfl
    refine ⟨rfl, fun reserved _ => ?_⟩
    cases reserved with
    | none => rfl
    | some pk =>
      -- with or without the logs
      refine ⟨rfl, fun logs _ => ?_⟩
      cases logs <;> exact handling_spawnSession pk _ _

theorem waits_ok {o : Outcome} (ho : o.waits = false) :
    ∀ o', (.ok o : Except Exc Outcome) = .ok o' → o'.waits = false := by
  intro o' he
  cases he
  exact ho

theorem handling_fixOrEscalate (t : FixTarget) :
    (fixOrEscalate S t).Keeps handling (fun _ r => ∀ o, r = .ok o → o.waits = false) h := by
  unfold fixOrEscalate
  simp only [perform, bind_eq, call_bind, ret_bind, keeps_call]
  refine ⟨rfl, fun currentMax _ => ?_⟩
  split
  · refine (handling_escalateToHuman _ _ _ _).bind fun _ escalated _ => ?_
    cases escalated with
    | error exc => exact fun o ho => by cases ho
    | ok _ => exact waits_ok rfl
  · exact (handling_attemptFix _ _).bind fun _ _ ho => waits_ok ho

/-- No CI failure is queued. -/
theorem handling_handleCiFailure (run : WorkflowRun) :
    (handleCiFailure S run).Keeps handling (fun _ r => ∀ o, r = .ok o → o.waits = false) h := by
  unfold handleCiFailure
  split
  · exact waits_ok rfl
  split
  · exact waits_ok rfl
  split
  · exact waits_ok rfl
  simp only [perform, bind_eq, call_bind, ret_bind, keeps_call]
  refine ⟨rfl, fun pr _ => ?_⟩
  rcases pr with exc | _ | pr
  · exact waits_ok rfl
  · exact waits_ok rfl
  dsimp only
  split
  · exact waits_ok rfl
  refine ⟨rfl, fun parent _ => ?_⟩
  cases parent with
  | none => exact waits_ok rfl
  | some parent =>
    dsimp only
    split
    · exact waits_ok rfl
    exact handling_fixOrEscalate _

/-! ## Security issues -/

/-- The dispatcher gives the event to `handle_security_issue`. -/
def isSecurity (eventType : String) (action : Option String) (payload : Payload) : Bool :=
  let labelNames := payload.issue.labels.filterMap truthy
  eventType = "issues" && (action = some "opened" || action = some "labeled" ||
    action = some "reopened") && labelNames.contains gateLabel && labelNames.contains securityLabel

variable {eventType : String} {action : Option String} {payload : Payload}

theorem dispatch_security (hs : isSecurity eventType action payload = true) :
    dispatch S eventType action payload =
      (handleSecurityIssue S payload.issue).bind fun o => .ret (.ok o) := by
  simp only [isSecurity, Bool.and_eq_true, Bool.or_eq_true, decide_eq_true_eq] at hs
  obtain ⟨⟨⟨he, ha⟩, hg⟩, hl⟩ := hs
  have ha' : ¬(action ≠ some "opened" ∧ action ≠ some "labeled" ∧ action ≠ some "reopened") := by
    rintro ⟨h1, h2, h3⟩
    rcases ha with (ha | ha) | ha
    · exact h1 ha
    · exact h2 ha
    · exact h3 ha
  rw [dispatch, if_pos he, dispatchIssue, if_neg ha']
  simp only [hg, hl, Bool.not_true, Bool.false_eq_true, if_false, if_true]
  rfl

/-- **Only a security issue is queued.** -/
theorem handling_dispatch (S : Settings) (eventType : String) (action : Option String)
    (payload : Payload) :
    (dispatch S eventType action payload).Keeps handling
      (fun _ r => ∀ o, r = .ok o → o.waits = true → isSecurity eventType action payload = true) h := by
  by_cases hs : isSecurity eventType action payload = true
  · rw [dispatch_security hs]
    exact (handling_handleSecurityIssue _).bind fun _ _ _ _ _ _ => hs
  have hret : ∀ {o : Outcome}, o.waits = false → ∀ o', (.ok o : Except Exc Outcome) = .ok o' →
      o'.waits = true → isSecurity eventType action payload = true := by
    intro o ho o' he hw
    cases he
    rw [ho] at hw
    cases hw
  unfold dispatch
  split
  · rename_i he
    unfold dispatchIssue
    split
    · exact hret rfl
    rename_i ha
    dsimp only
    split
    · exact hret rfl
    rename_i hg
    split
    · rename_i hl
      refine absurd ?_ hs
      simp only [isSecurity, he, hl, Bool.and_true, decide_true, Bool.true_and, Bool.and_eq_true,
        Bool.or_eq_true, decide_eq_true_eq]
      refine ⟨?_, by simpa using hg⟩
      by_contra hno
      simp only [not_or] at hno
      exact ha ⟨hno.1.1, hno.1.2, hno.2⟩
    split <;> exact hret rfl
  split
  · unfold dispatchWorkflowRun
    split
    · exact hret rfl
    dsimp only
    split
    · exact hret rfl
    · refine keeps_mono _ ?_ (handling_handleCiFailure _)
      intro _ r hr o ho hw
      rw [hr o ho] at hw
      cases hw
  split <;> exact hret rfl

/-! ## The callers -/

theorem unpolled_dispatch (S : Settings) (eventType : String) (action : Option String)
    (payload : Payload) :
    (dispatch S eventType action payload).Keeps unpolled (fun _ _ => True) h :=
  keeps_mono _ (fun _ _ _ => trivial)
    (unpolled_of_handling (handling_dispatch S eventType action payload))

theorem unpolled_process (deliveryId eventType : String) (action : Option String)
    (payload : Payload) :
    (process S deliveryId eventType action payload).Keeps unpolled (fun _ _ => True) h :=
  (unpolled_dispatch S eventType action payload).bind fun _ _ _ => ⟨rfl, fun _ _ => trivial⟩

theorem unpolled_replay (deliveryId : String) :
    (replay S deliveryId).Keeps unpolled (fun _ _ => True) h := by
  refine ⟨rfl, fun row _ => ?_⟩
  cases row with
  | none => trivial
  | some row => exact unpolled_process _ _ _ _

theorem unpolled_retryQueued (rows : List WebhookEvent) (summary : Summary) :
    (retryQueued S rows summary).Keeps unpolled (fun _ _ => True) h := by
  induction rows generalizing summary h with
  | nil => trivial
  | cons row rest ih =>
    refine (unpolled_dispatch S row.eventType row.action row.payload).bind fun _ result _ => ?_
    cases result with
    | error exc => exact ih _
    | ok outcome =>
      dsimp only
      split
      · exact ⟨rfl, fun _ _ => ih _⟩
      · exact ih _

theorem unpolled_drainQueue : (drainQueue S).Keeps unpolled (fun _ _ => True) h := by
  refine ⟨rfl, fun active _ => ?_⟩
  dsimp only [ret_bind]
  split
  · trivial
  · exact ⟨rfl, fun queued _ => unpolled_retryQueued queued _⟩

/-- **Only the poller polls.** -/
theorem unpolled_task {task : Task} (ht : task ≠ .poll) :
    (task.prog S).Keeps unpolled (fun _ _ => True) h := by
  cases task with
  | securityIssue issue =>
    exact (unpolled_of_handling (handling_handleSecurityIssue issue)).bind fun _ _ _ => trivial
  | ciFailure run =>
    exact (unpolled_of_handling (handling_handleCiFailure run)).bind fun _ _ _ => trivial
  | receive deliveryId eventType action payload => exact ⟨rfl, fun _ _ => trivial⟩
  | process deliveryId eventType action payload => exact unpolled_process _ _ _ _
  | replay deliveryId => exact unpolled_replay _
  | drain => exact unpolled_drainQueue.bind fun _ _ _ => trivial
  | poll => exact absurd rfl ht

/-- What is not the poller leaves the dates of its polls, and the pull requests it has recorded. -/
theorem row_of_unpolled {α : Type} {Q : Hist → α → Prop} {p : M α} (hp : p.Keeps unpolled Q h)
    (env : Outside) {w : World} {pk : ℕ} {r : SessionRow} (hr : w.sessions.get pk = some r) :
    ∃ r', (p.eval (exec env) w).2.sessions.get pk = some r' ∧ r'.lastPolledAt = r.lastPolledAt ∧
      r'.prUrl = r.prUrl := by
  let Same (w' : World) := ∃ r', w'.sessions.get pk = some r' ∧
    r'.lastPolledAt = r.lastPolledAt ∧ r'.prUrl = r.prUrl
  have hstep : ∀ (h' : Hist) (w' : World) (op : Op), Same w' → unpolled.pre h' op → True →
      Same (exec env op w').2 := by
    rintro h' w' op ⟨r', hr', hpolled, hpr⟩ hop -
    rcases op.write_cases with hw | ⟨res, rfl⟩ | ⟨pk', u, rfl⟩
    · exact ⟨r', by rw [exec_sessions hw, hr'], hpolled, hpr⟩
    · exact ⟨r', get_tryReserve res hr', hpolled, hpr⟩
    · have hnone : (u.lastPolledAt.isNone && u.prUrl.isNone) = true := hop
      simp only [Bool.and_eq_true, Option.isNone_iff_eq_none] at hnone
      refine ⟨if pk = pk' then u.apply r' else r', ?_, ?_⟩
      · rw [exec_update_sessions, Sessions.get_update, hr']
        rfl
      · split
        · simp [Update.apply, hnone, hpolled, hpr]
        · exact ⟨hpolled, hpr⟩
  obtain ⟨-, hJ, -⟩ := eval_inv (R := fun _ _ _ _ => True) (J := fun _ => Same)
    (fun _ _ _ _ _ => trivial) hstep p hp ⟨r, hr, rfl, rfl⟩ (along_true p w)
  exact hJ

/-! ## What is queued -/

theorem likeQueued_cons {s : String} {c : Char} {t : List Char} (hs : s.toList = c :: t)
    (hc : c.toLower ≠ 'q') : likeQueued s = false := by
  simp [likeQueued, hs, hc]

theorem likeQueued_text (o : Outcome) : likeQueued o.text = o.waits := by
  cases o with
  | queued why => exact likeQueued_append why
  | _ => exact likeQueued_cons (String.toList_append ..) (by decide)

theorem likeQueued_raised (exc : Exc) : likeQueued (resultText (.error exc)) = false := by
  have htext : resultText (.error exc) = "error:" ++ (exc.name ++ (":" ++ exc.message)) := by
    simp only [resultText, String.append_assoc]
    rfl
  rw [htext]
  exact likeQueued_cons (String.toList_append ..) (by decide)

end Remediation
