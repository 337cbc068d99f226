import Remediation.Proof.AtMostOnce
import Remediation.Proof.Dispatch

/-!
# What a dispatch takes

Whatever it is about, a dispatch takes one place at most, inserts one row at most, and calls
`create_session` once at most: an attempt at a fix reserves a row, an escalation makes the row
of the parent active again. And while there is room its event is not queued.
-/

namespace Remediation

open Interaction Prog

/-- How often `create_session` has been called. -/
def creations (h : Hist) : ℕ := h.countP fun e => e.1.creates.isSome

/-- From `w` to `w'` no more than `places` rows are inserted, no more rows than that are active
in addition, and there are no more than `calls` calls of `create_session`. -/
structure Takes (places calls : ℕ) (w w' : World) : Prop where
  active : w'.sessions.countActive ≤ w.sessions.countActive + places
  rows : w'.sessions.rows.length ≤ w.sessions.rows.length + places
  calls : creations w'.trace ≤ creations w.trace + calls

variable {S : Settings} {env : Outside} {w w₁ w₂ : World} {p q c d : ℕ}

namespace Takes

theorem nothing (w : World) : Takes p c w w :=
  ⟨Nat.le_add_right _ _, Nat.le_add_right _ _, Nat.le_add_right _ _⟩

theorem trans (h₁ : Takes p c w w₁) (h₂ : Takes q d w₁ w₂) : Takes (p + q) (c + d) w w₂ where
  active := by
    have := h₁.active
    have := h₂.active
    omega
  rows := by
    have := h₁.rows
    have := h₂.rows
    omega
  calls := by
    have := h₁.calls
    have := h₂.calls
    omega

theorem mono (h : Takes p c w w₁) (hp : p ≤ q) (hc : c ≤ d) : Takes q d w w₁ where
  active := h.active.trans (Nat.add_le_add_left hp _)
  rows := h.rows.trans (Nat.add_le_add_left hp _)
  calls := h.calls.trans (Nat.add_le_add_left hc _)

/-- After what takes nothing. -/
theorem after (h₂ : Takes p c w₁ w₂) (h₁ : Takes 0 0 w w₁) : Takes p c w w₂ := by
  simpa using h₁.trans h₂

end Takes

/-! ## One operation -/

theorem creations_exec (env : Outside) (op : Op) (w : World) :
    creations (exec env op w).2.trace =
      creations w.trace + if op.creates.isSome = true then 1 else 0 := by
  rw [exec_trace, creations, List.countP_cons]
  rfl

theorem takes_skip {op : Op} (hw : op.writes = false) (hc : op.creates = none) :
    Takes 0 0 w (exec env op w).2 where
  active := by rw [exec_sessions hw, Nat.add_zero]
  rows := by rw [exec_sessions hw, Nat.add_zero]
  calls := by rw [creations_exec, hc]; rfl

theorem takes_createSession (workKey : String) (req : CreateRequest) :
    Takes 0 1 w (exec env (.createSession workKey req) w).2 where
  active := by rw [exec_sessions rfl, Nat.add_zero]
  rows := by rw [exec_sessions rfl, Nat.add_zero]
  calls := by rw [creations_exec]; rfl

theorem takes_tryReserve (res : Reservation) : Takes 1 0 w (exec env (.tryReserve res) w).2 where
  active := countActive_tryReserve_le res
  rows := by
    rcases rows_tryReserve env w res with hrows | ⟨pk, hrows⟩
    · rw [hrows]
      exact Nat.le_succ _
    · rw [hrows, List.length_append]
      exact le_rfl
  calls := by rw [creations_exec]; rfl

/-- An UPDATE takes no place if it makes no row active. -/
theorem takes_update {pk : ℕ} {u : Update}
    (h : ∀ s s', u.status = some s → s.active = true → w.sessions.statusOf pk = some s' →
      s'.active = true) : Takes 0 0 w (exec env (.update pk u) w).2 where
  active := countActive_update_le (t := w.sessions) h
  rows := by rw [exec_update_sessions, Sessions.update_rows, List.length_map, Nat.add_zero]
  calls := by rw [creations_exec]; rfl

theorem takes_update_any (pk : ℕ) (u : Update) : Takes 1 0 w (exec env (.update pk u) w).2 where
  active := countActive_update_succ pk u w.sessions
  rows := by rw [exec_update_sessions, Sessions.update_rows, List.length_map]; exact Nat.le_succ _
  calls := by rw [creations_exec]; rfl

section Call

variable {α : Type} {op : Op} {k : Ans op → M α}

theorem takes_first (hop : Takes p c w (exec env op w).2)
    (hk : Takes q d (exec env op w).2 ((k (exec env op w).1).eval (exec env) (exec env op w).2).2) :
    Takes (p + q) (c + d) w ((Prog.call op k).eval (exec env) w).2 :=
  hop.trans hk

/-- A program that starts with an operation that takes nothing. -/
theorem takes_call (hw : op.writes = false) (hc : op.creates = none)
    (hk : Takes p c (exec env op w).2 ((k (exec env op w).1).eval (exec env) (exec env op w).2).2) :
    Takes p c w ((Prog.call op k).eval (exec env) w).2 :=
  hk.after (takes_skip hw hc)

end Call

/-! ## Handlers -/

theorem takes_markFailed (pk : ℕ) (reason : String) :
    Takes 0 0 w ((markFailed pk reason).eval (exec env) w).2 := by
  refine takes_call rfl rfl (takes_update ?_)
  intro s s' hs ha
  cases hs
  cases ha

theorem takes_failed {α : Type} (pk : ℕ) (reason : String) (a : α) :
    Takes p c w (((markFailed pk reason).bind fun _ => .ret a).eval (exec env) w).2 := by
  rw [eval_bind]
  exact (takes_markFailed pk reason).mono (Nat.zero_le _) (Nat.zero_le _)

/-- A row that is reserved keeps its place, or loses it. -/
theorem takes_spawnSession {pk : ℕ} (hpk : w.sessions.statusOf pk = some .reserving)
    (workKey : String) (req : CreateRequest) :
    Takes 0 1 w ((spawnSession pk workKey req).eval (exec env) w).2 := by
  unfold spawnSession
  simp only [perform, bind_eq, call_bind, ret_bind]
  refine takes_call rfl rfl ?_
  split
  · exact takes_failed pk _ _
  refine takes_first (q := 0) (d := 0) (takes_createSession workKey req) ?_
  split
  · exact takes_failed pk _ _
  · refine takes_update ?_
    intro s s' _ _ hs'
    rw [exec_sessions rfl, exec_sessions rfl, hpk] at hs'
    cases hs'
    rfl

theorem takes_remediate {pk : ℕ} (hpk : w.sessions.statusOf pk = some .reserving) (issue : Issue)
    (workKey : String) : Takes 0 1 w ((remediate S issue pk workKey).eval (exec env) w).2 := by
  unfold remediate
  split
  · exact takes_failed pk _ _
  dsimp only
  split
  · exact takes_failed pk _ _
  · exact takes_spawnSession hpk _ _

/-- The row that a reservation has inserted. -/
theorem statusOf_reserved {res : Reservation} {pk : ℕ}
    (ha : (exec env (.tryReserve res) w).1 = some pk) :
    (exec env (.tryReserve res) w).2.sessions.statusOf pk = some .reserving := by
  rcases exec_tryReserve env w res with ⟨pk', t, ha', ht, hs⟩ | ⟨ha', -, -⟩
  · rw [ha'] at ha
    cases ha
    rw [hs, Sessions.statusOf, Sessions.get_tryReserve ht, if_pos rfl]
    rfl
  · rw [ha'] at ha
    cases ha

theorem takes_handleSecurityIssue (issue : Issue) :
    Takes 1 1 w ((handleSecurityIssue S issue).eval (exec env) w).2 := by
  unfold handleSecurityIssue
  simp only [perform, bind_eq, call_bind, ret_bind]
  refine takes_call rfl rfl ?_
  split
  · exact .nothing _
  refine takes_call rfl rfl ?_
  split
  · exact .nothing _
  refine takes_first (q := 0) (d := 1) (takes_tryReserve (securityReservation S issue)) ?_
  split
  · exact .nothing _
  · rename_i pk ha
    exact takes_remediate (statusOf_reserved ha) issue _

theorem takes_terminateChild (child : SessionRow) :
    Takes 0 0 w ((terminateChild child).eval (exec env) w).2 := by
  unfold terminateChild
  split
  · exact takes_skip rfl rfl
  · exact .nothing _

theorem takes_cancelChildren (children : List SessionRow) :
    Takes 0 0 w ((cancelChildren children).eval (exec env) w).2 := by
  induction children generalizing w with
  | nil => exact .nothing w
  | cons child rest ih =>
    rw [cancelChildren, bind_eq, eval_bind]
    refine Takes.after (Takes.after ih (takes_update ?_)) (takes_terminateChild child)
    intro s s' hs ha
    cases hs
    cases ha

/-- The row of the parent becomes active, and its children do not. -/
theorem takes_escalateToHuman (parent : SessionRow) (repo : String) (prNumber : ℤ) (n : ℕ) :
    Takes 1 0 w ((escalateToHuman parent repo prNumber n).eval (exec env) w).2 := by
  unfold escalateToHuman
  split
  · exact .nothing _
  simp only [perform, bind_eq, call_bind, ret_bind]
  refine takes_first (q := 0) (d := 0) (takes_update_any parent.id _) (takes_call rfl rfl ?_)
  split
  · exact .nothing _
  refine takes_call rfl rfl ?_
  rw [eval_bind]
  exact Takes.after (takes_skip rfl rfl) (takes_cancelChildren _)

theorem takes_fix {t : FixTarget} {n pk : ℕ} (hpk : w.sessions.statusOf pk = some .reserving) :
    Takes 0 1 w ((fix S t n pk).eval (exec env) w).2 := by
  unfold fix
  refine takes_call rfl rfl ?_
  -- with or without the logs
  dsimp only [ret_bind]
  split
  · exact takes_spawnSession (by rw [exec_sessions rfl, hpk]) _ _
  · exact takes_spawnSession (by rw [exec_sessions rfl, hpk]) _ _

theorem takes_attemptFix (t : FixTarget) (n : ℕ) :
    Takes 1 1 w ((attemptFix S t n).eval (exec env) w).2 := by
  unfold attemptFix
  simp only [perform, bind_eq, call_bind, ret_bind]
  refine takes_call rfl rfl ?_
  split
  · exact .nothing _
  split
  · exact .nothing _
  refine takes_call rfl rfl ?_
  split
  · exact .nothing _
  refine takes_first (q := 0) (d := 1) (takes_tryReserve (t.reservation n)) ?_
  split
  · exact .nothing _
  · rename_i pk ha
    exact takes_fix (statusOf_reserved ha)

theorem takes_fixOrEscalate (t : FixTarget) :
    Takes 1 1 w ((fixOrEscalate S t).eval (exec env) w).2 := by
  unfold fixOrEscalate
  simp only [perform, bind_eq, call_bind, ret_bind]
  refine takes_call rfl rfl ?_
  split
  · rw [eval_bind]
    have hesc : ∀ w n, Takes 1 1 w
        ((escalateToHuman t.parent t.repo t.prNumber n).eval (exec env) w).2 := fun w n =>
      (takes_escalateToHuman t.parent t.repo t.prNumber n).mono le_rfl (Nat.zero_le _)
    split
    · exact hesc _ _
    · exact hesc _ _
  · rw [eval_bind]
    exact takes_attemptFix t _

theorem takes_handleCiFailure (run : WorkflowRun) :
    Takes 1 1 w ((handleCiFailure S run).eval (exec env) w).2 := by
  unfold handleCiFailure
  split
  · exact .nothing _
  split
  · exact .nothing _
  split
  · exact .nothing _
  simp only [perform, bind_eq, call_bind, ret_bind]
  refine takes_call rfl rfl ?_
  split
  · exact .nothing _
  · exact .nothing _
  split
  · exact .nothing _
  refine takes_call rfl rfl ?_
  split
  · exact .nothing _
  split
  · exact .nothing _
  · exact takes_fixOrEscalate _

/-- **A dispatch takes one place at most, and calls `create_session` once at most.** -/
theorem takes_dispatch (eventType : String) (action : Option String) (payload : Payload) :
    Takes 1 1 w ((dispatch S eventType action payload).eval (exec env) w).2 := by
  unfold dispatch
  split
  · unfold dispatchIssue
    split
    · exact .nothing _
    dsimp only
    split
    · exact .nothing _
    split
    · rw [bind_eq, eval_bind]
      exact takes_handleSecurityIssue _
    split
    · exact .nothing _
    · exact .nothing _
  split
  · unfold dispatchWorkflowRun
    split
    · exact .nothing _
    dsimp only
    split
    · exact .nothing _
    · exact takes_handleCiFailure _
  split
  · exact .nothing _
  · exact .nothing _

/-! ## With room -/

/-- With room a security issue is not queued. -/
theorem handleSecurityIssue_room (hroom : w.sessions.countActive < S.maxConcurrentSessions)
    (issue : Issue) : ((handleSecurityIssue S issue).eval (exec env) w).1.waits = false := by
  unfold handleSecurityIssue
  simp only [perform, bind_eq, call_bind, ret_bind, eval_call]
  split
  · rename_i hfull
    have hfull' : S.maxConcurrentSessions ≤ w.sessions.countActive := hfull
    omega
  simp only [eval_call]
  split
  · rfl
  simp only [eval_call]
  split
  · rfl
  · exact (eval_silent (silent_of_handling (handling_remediate issue _ _)) env _).2.2

variable {eventType : String} {action : Option String} {payload : Payload}

/-- **With room nothing is queued.** -/
theorem dispatch_room (hroom : w.sessions.countActive < S.maxConcurrentSessions) {o : Outcome}
    (ho : ((dispatch S eventType action payload).eval (exec env) w).1 = .ok o) :
    o.waits = false := by
  cases hw : o.waits with
  | false => rfl
  | true =>
    -- only a security issue could be
    obtain ⟨-, -, hsec⟩ := eval_silent (silent_of_handling
      (handling_dispatch S eventType action payload)) env w
    rw [dispatch_security (hsec o ho hw), eval_bind] at ho
    cases ho
    rw [handleSecurityIssue_room hroom] at hw
    cases hw

/-- A dispatch does not write to the log. -/
theorem dispatch_events (env : Outside) (S : Settings) (eventType : String)
    (action : Option String) (payload : Payload) (w : World) :
    ((dispatch S eventType action payload).eval (exec env) w).2.events = w.events :=
  (eval_silent (silent_of_handling (handling_dispatch S eventType action payload)) env w).1

end Remediation
