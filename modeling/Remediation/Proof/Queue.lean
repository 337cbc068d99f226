import Remediation.Proof.Effects

/-!
# Events that meet a full house

Two runs of the same event in the same state, under two caps on active sessions. While
there is room under the smaller cap the two are the same run (`…_withCap`). With a full
house a security issue is queued (`handleSecurityIssue_full`), but a CI failure is
answered `skipped:concurrency_cap`, which the queue never looks at again
(`handleCiFailure_full`). `kept_iff` puts the two together.
-/

namespace Remediation

open Interaction Prog PyText

/-- The same settings with another cap on active sessions. -/
def Settings.withCap (S : Settings) (cap : ℕ) : Settings := { S with maxConcurrentSessions := cap }

section WithCap

variable (S : Settings) (cap : ℕ)

theorem withCap_daily : (S.withCap cap).maxSessionsPerDay = S.maxSessionsPerDay := rfl

theorem withCap_attempts : (S.withCap cap).maxFixAttempts = S.maxFixAttempts := rfl

theorem withCap_logins : (S.withCap cap).devinBotLogins = S.devinBotLogins := rfl

theorem withCap_forkRepo : (S.withCap cap).forkRepo = S.forkRepo := rfl

theorem remediate_withCap : remediate (S.withCap cap) = remediate S := rfl

theorem securityReservation_withCap :
    securityReservation (S.withCap cap) = securityReservation S := rfl

theorem securityWorkKey_withCap : securityWorkKey (S.withCap cap) = securityWorkKey S := rfl

theorem fix_withCap : fix (S.withCap cap) = fix S := rfl

end WithCap

variable {env : Outside} {S : Settings} {w : World} {cap : ℕ}

/-! ## With room, the cap does not matter -/

/-- With room, neither cap is reached. -/
theorem room_withCap (hcap : S.maxConcurrentSessions ≤ cap) {n : ℕ}
    (hroom : n < S.maxConcurrentSessions) :
    ¬S.maxConcurrentSessions ≤ n ∧ ¬(S.withCap cap).maxConcurrentSessions ≤ n :=
  ⟨not_le.2 hroom, not_le.2 (hroom.trans_le hcap)⟩

theorem handleSecurityIssue_withCap (hcap : S.maxConcurrentSessions ≤ cap)
    (hroom : w.sessions.countActive < S.maxConcurrentSessions) (issue : Issue) :
    (handleSecurityIssue (S.withCap cap) issue).eval (exec env) w =
      (handleSecurityIssue S issue).eval (exec env) w := by
  have hn : (exec env .countActive w).1 = w.sessions.countActive := rfl
  obtain ⟨hS, hS'⟩ := room_withCap hcap hroom
  unfold handleSecurityIssue
  simp only [perform, bind_eq, call_bind, ret_bind, eval_call, hn]
  rw [if_neg hS, if_neg hS', withCap_daily, securityReservation_withCap, securityWorkKey_withCap,
    remediate_withCap]

theorem attemptFix_withCap (hcap : S.maxConcurrentSessions ≤ cap)
    (hroom : w.sessions.countActive < S.maxConcurrentSessions) (t : FixTarget) (n : ℕ) :
    (attemptFix (S.withCap cap) t n).eval (exec env) w = (attemptFix S t n).eval (exec env) w := by
  unfold attemptFix
  simp only [perform, bind_eq, call_bind, ret_bind, eval_call]
  rw [withCap_logins, fix_withCap]
  split
  · rfl
  split
  · rfl
  -- listing the commits has not changed the table
  have hn : (exec env .countActive (exec env (.listPrCommits t.repo t.prNumber) w).2).1 =
      w.sessions.countActive := rfl
  obtain ⟨hS, hS'⟩ := room_withCap hcap hroom
  simp only [eval_call, hn]
  rw [if_neg hS, if_neg hS']

theorem fixOrEscalate_withCap (hcap : S.maxConcurrentSessions ≤ cap)
    (hroom : w.sessions.countActive < S.maxConcurrentSessions) (t : FixTarget) :
    (fixOrEscalate (S.withCap cap) t).eval (exec env) w = (fixOrEscalate S t).eval (exec env) w := by
  unfold fixOrEscalate
  simp only [perform, bind_eq, call_bind, ret_bind, eval_call]
  rw [withCap_attempts]
  split
  · rfl
  · simp only [eval_bind]
    rw [attemptFix_withCap hcap]
    exact hroom

theorem handleCiFailure_withCap (hcap : S.maxConcurrentSessions ≤ cap)
    (hroom : w.sessions.countActive < S.maxConcurrentSessions) (run : WorkflowRun) :
    (handleCiFailure (S.withCap cap) run).eval (exec env) w =
      (handleCiFailure S run).eval (exec env) w := by
  unfold handleCiFailure
  simp only [perform, bind_eq, call_bind, ret_bind]
  rw [withCap_forkRepo]
  split
  · rfl
  split
  · rfl
  split
  · rfl
  simp only [eval_call]
  split
  · rfl
  · rfl
  split
  · rfl
  simp only [eval_call]
  split
  · rfl
  split
  · rfl
  · refine fixOrEscalate_withCap hcap ?_ _
    exact hroom

/-! ## With a full house -/

/-- With a full house a security issue is queued, and nothing else happens. -/
theorem handleSecurityIssue_full (hfull : S.maxConcurrentSessions ≤ w.sessions.countActive)
    (issue : Issue) :
    (handleSecurityIssue S issue).eval (exec env) w =
      (.queued s!"concurrency_cap:{securityWorkKey S issue}", (exec env .countActive w).2) := by
  have hn : (exec env .countActive w).1 = w.sessions.countActive := rfl
  unfold handleSecurityIssue
  simp only [perform, bind_eq, call_bind, ret_bind, eval_call, hn]
  rw [if_pos hfull]
  rfl

/-- The outcomes after which an event is not lost: a session, or a place in the queue. -/
def Outcome.keeps : Outcome → Bool
  | .created _ => true
  | .queued _ => true
  | _ => false

theorem attemptFix_full (hfull : S.maxConcurrentSessions ≤ w.sessions.countActive) (t : FixTarget)
    (n : ℕ) : (((attemptFix S t n).eval (exec env) w).1).keeps = false := by
  have hn : (exec env .countActive (exec env (.listPrCommits t.repo t.prNumber) w).2).1 =
      w.sessions.countActive := rfl
  unfold attemptFix
  simp only [perform, bind_eq, call_bind, ret_bind, eval_call]
  split
  · rfl
  split
  · rfl
  simp only [eval_call, hn]
  rw [if_pos hfull]
  rfl

theorem fixOrEscalate_full (hfull : S.maxConcurrentSessions ≤ w.sessions.countActive)
    (t : FixTarget) {o : Outcome} (ho : ((fixOrEscalate S t).eval (exec env) w).1 = .ok o) :
    o.keeps = false := by
  unfold fixOrEscalate at ho
  simp only [perform, bind_eq, call_bind, ret_bind, eval_call] at ho
  split at ho
  · -- the escalation either raises or answers `escalated`
    simp only [eval_bind] at ho
    split at ho
    · cases ho
    · cases ho
      rfl
  · simp only [eval_bind, pure_eq, eval_ret, Except.ok.injEq] at ho
    rw [← ho]
    refine attemptFix_full ?_ _ _
    exact hfull

/-- **With a full house a CI failure is dropped**: it neither gets a session nor a place in
the queue, whatever else holds. -/
theorem handleCiFailure_full (hfull : S.maxConcurrentSessions ≤ w.sessions.countActive)
    (run : WorkflowRun) {o : Outcome}
    (ho : ((handleCiFailure S run).eval (exec env) w).1 = .ok o) : o.keeps = false := by
  unfold handleCiFailure at ho
  simp only [perform, bind_eq, call_bind, ret_bind] at ho
  -- the guards answer `skipped` or `error`
  split at ho
  · cases ho; rfl
  split at ho
  · cases ho; rfl
  split at ho
  · cases ho; rfl
  simp only [eval_call] at ho
  split at ho
  · cases ho; rfl
  · cases ho; rfl
  split at ho
  · cases ho; rfl
  simp only [eval_call] at ho
  split at ho
  · cases ho; rfl
  split at ho
  · cases ho; rfl
  · refine fixOrEscalate_full ?_ _ ho
    exact hfull

/-! ## The queue -/

/-- A delivery whose result is `queued:*` is among the queued ones. -/
theorem mem_queued_markProcessed {t : WebhookEvents} {deliveryId why : String} {now : Time}
    (hrec : ∃ e ∈ t.rows, e.deliveryId = deliveryId) :
    ∃ e ∈ (t.markProcessed deliveryId ("queued:" ++ why) now).queued, e.deliveryId = deliveryId := by
  obtain ⟨e, he, hd⟩ := hrec
  unfold WebhookEvents.markProcessed
  cases hf : t.rows.find? fun e => decide (e.deliveryId = deliveryId) with
  | none => exact absurd hd (by simpa using List.find?_eq_none.1 hf e he)
  | some e' =>
    have hm := List.mem_of_find?_eq_some hf
    have hd' : e'.deliveryId = deliveryId := by simpa using List.find?_some hf
    refine ⟨_, (List.perm_insertionSort _ _).mem_iff.2 (List.mem_filter.2
      ⟨Table.mem_update.2 (Or.inr ⟨e', hm, rfl, rfl⟩), ?_⟩), hd'⟩
    simp [likeQueued_append]

/-- The event gets a session, or `_process` leaves it where the queue finds it. -/
def Kept (env : Outside) (S : Settings) (w : World) (deliveryId eventType : String)
    (action : Option String) (payload : Payload) : Prop :=
  let w' := ((process S deliveryId eventType action payload).eval (exec env) w).2
  ∃ o, ((dispatch S eventType action payload).eval (exec env) w).1 = .ok o ∧
    ((∃ id, o = .created id) ∨
      (startsWith o.text "queued:" = true ∧ ∀ limit, w'.events.queued.length ≤ limit →
        ∃ e ∈ w'.events.listQueued limit, e.deliveryId = deliveryId))

variable {deliveryId : String} {action : Option String} {payload : Payload}

/-- Only a `queued` result is taken for one. -/
theorem keeps_of_queued {o : Outcome} (h : startsWith o.text "queued:" = true) : o.keeps = true := by
  obtain ⟨why, rfl⟩ := (startsWith_queued o).1 h
  rfl

theorem dispatchIssue_withCap (hcap : S.maxConcurrentSessions ≤ cap)
    (hroom : w.sessions.countActive < S.maxConcurrentSessions) :
    (dispatchIssue (S.withCap cap) action payload).eval (exec env) w =
      (dispatchIssue S action payload).eval (exec env) w := by
  unfold dispatchIssue
  split
  · rfl
  dsimp only
  split
  · rfl
  split
  · simp only [bind_eq, eval_bind, handleSecurityIssue_withCap hcap hroom]
  · rfl

/-- With room under the cap, the cap makes no difference to any event. -/
theorem dispatch_withCap (hcap : S.maxConcurrentSessions ≤ cap)
    (hroom : w.sessions.countActive < S.maxConcurrentSessions) (eventType : String) :
    (dispatch (S.withCap cap) eventType action payload).eval (exec env) w =
      (dispatch S eventType action payload).eval (exec env) w := by
  unfold dispatch
  split
  · exact dispatchIssue_withCap hcap hroom
  split
  · unfold dispatchWorkflowRun
    split
    · rfl
    dsimp only
    split
    · rfl
    · exact handleCiFailure_withCap hcap hroom _
  · rfl

/-- With a full house, an issue that would get a session under another cap is queued. -/
theorem dispatchIssue_full (hfull : S.maxConcurrentSessions ≤ w.sessions.countActive) {id : String}
    (hc : ((dispatchIssue (S.withCap cap) action payload).eval (exec env) w).1 = .ok (.created id)) :
    ∃ w' why, w'.events = w.events ∧
      (dispatchIssue S action payload).eval (exec env) w = (.ok (.queued why), w') := by
  -- both runs take the same branches down to the handler
  unfold dispatchIssue at hc ⊢
  split
  · rename_i h
    rw [if_pos h] at hc
    cases hc
  rename_i h
  rw [if_neg h] at hc
  dsimp only at hc ⊢
  split
  · rename_i h
    rw [if_pos h] at hc
    cases hc
  rename_i h
  rw [if_neg h] at hc
  split
  · refine ⟨(exec env .countActive w).2,
      s!"concurrency_cap:{securityWorkKey S payload.issue}", rfl, ?_⟩
    simp only [bind_eq, eval_bind]
    rw [handleSecurityIssue_full hfull]
    rfl
  · rename_i h
    rw [if_neg h] at hc
    split at hc <;> cases hc

theorem dispatchWorkflowRun_full (hfull : S.maxConcurrentSessions ≤ w.sessions.countActive)
    {o : Outcome} (ho : ((dispatchWorkflowRun S action payload).eval (exec env) w).1 = .ok o) :
    o.keeps = false := by
  unfold dispatchWorkflowRun at ho
  split at ho
  · cases ho
    rfl
  dsimp only at ho
  split at ho
  · cases ho
    rfl
  · exact handleCiFailure_full hfull _ ho

/-- **When the cap loses no event.** For an event that would get a session under a larger
cap: it gets one under the actual cap, or a place in the queue, exactly if it is an issues
event or there is room. -/
theorem kept_iff {eventType : String} (hcap : S.maxConcurrentSessions ≤ cap)
    (htype : eventType = "issues" ∨ eventType = "workflow_run")
    (hrec : ∃ e ∈ w.events.rows, e.deliveryId = deliveryId) {id : String}
    (hcreated : ((dispatch (S.withCap cap) eventType action payload).eval (exec env) w).1 =
      .ok (.created id)) :
    Kept env S w deliveryId eventType action payload ↔
      eventType = "issues" ∨ w.sessions.countActive < S.maxConcurrentSessions := by
  by_cases hroom : w.sessions.countActive < S.maxConcurrentSessions
  · rw [dispatch_withCap hcap hroom] at hcreated
    exact ⟨fun _ => Or.inr hroom, fun _ => ⟨_, hcreated, Or.inl ⟨id, rfl⟩⟩⟩
  have hfull := not_lt.1 hroom
  rcases htype with rfl | rfl
  · -- an issue, with a full house: queued, and found in the queue
    simp only [true_or, iff_true]
    obtain ⟨w', why, hev, hd⟩ := dispatchIssue_full hfull hcreated
    have hd : (dispatch S "issues" action payload).eval (exec env) w = (.ok (.queued why), w') := hd
    refine ⟨.queued why, by rw [hd], Or.inr ⟨startsWith_append _ _, ?_⟩⟩
    intro limit hl
    simp only [WebhookEvents.listQueued, List.take_of_length_le hl]
    simp only [process, bind_eq, eval_bind, perform, eval_call, eval_ret]
    rw [hd]
    have hrec' : ∃ e ∈ w'.events.rows, e.deliveryId = deliveryId := by rwa [hev]
    exact mem_queued_markProcessed hrec'
  · -- a CI failure, with a full house: neither
    simp only [hroom, or_false]
    refine ⟨?_, fun h => absurd h (by decide)⟩
    rintro ⟨o, ho, hk⟩
    have hci : o.keeps = false := dispatchWorkflowRun_full hfull ho
    rcases hk with ⟨id, rfl⟩ | ⟨hq, -⟩
    · cases hci
    · rw [keeps_of_queued hq] at hci
      cases hci

/-! ## A CI failure that meets a full house -/

namespace FullHouse

/-- A finished session with its pull request, and another session at work. -/
def world : World where
  sessions :=
    ⟨[{ id := 1, workKey := "issue:o/r:1:devin-security", devinSessionId := some "devin-a"
        triggerType := .cveIssue, triggerRef := "https://github.com/o/r/issues/1"
        status := .completed, prUrl := some "https://github.com/o/r/pull/7", startedAt := 0 },
      { id := 2, workKey := "issue:o/r:2:devin-security", devinSessionId := some "devin-b"
        triggerType := .cveIssue, triggerRef := "https://github.com/o/r/issues/2"
        status := .running, startedAt := 0 }],
      3, by decide, by decide, by decide⟩
  events :=
    ⟨[{ rowid := 1, deliveryId := "d", eventType := "workflow_run", action := some "completed"
        payload := { workflowRun := .sample 100 }, receivedAt := 0 }],
      2, by decide, by decide, by decide⟩
  now := 0

def settings : Settings := { maxConcurrentSessions := 1 }

def event : Payload := { workflowRun := .sample 100, issue := .sample 3 }

theorem issue_is_kept : Kept .calm settings world "d" "issues" (some "opened") event := by
  have hrec : ∃ e ∈ world.events.rows, e.deliveryId = "d" := by decide
  have hcreated : ((dispatch (settings.withCap 2) "issues" (some "opened") event).eval (exec .calm)
      world).1 = .ok (.created "devin-4") := by decide +kernel
  exact (kept_iff (by decide) (Or.inl rfl) hrec hcreated).2 (Or.inl rfl)

/-- **A CI failure is dropped**: under a cap of 2 it gets a session, under a cap of 1 it gets
neither a session nor a place in the queue. -/
theorem ci_failure_is_dropped :
    ((dispatch (settings.withCap 2) "workflow_run" (some "completed") event).eval (exec .calm)
        world).1 = .ok (.created "devin-8") ∧
      ¬Kept .calm settings world "d" "workflow_run" (some "completed") event := by
  refine ⟨by decide +kernel, ?_⟩
  have hskip : ((dispatch settings "workflow_run" (some "completed") event).eval (exec .calm)
      world).1 = .ok (.skipped "concurrency_cap:1") := by decide +kernel
  rintro ⟨o, ho, hk⟩
  rw [hskip] at ho
  cases ho
  rcases hk with ⟨id, hid⟩ | ⟨hq, -⟩
  · cases hid
  · exact absurd hq (by decide)

end FullHouse

end Remediation
