import Remediation.Proof.Completion
import Remediation.Proof.Dispatch

/-!
# Outcomes and rows

A handler that does not meet the cap on attempts returns, leaves every row that was there as
it was, and adds one at most. What it answers and what it has added tell the same, whichever
of the calls to Devin and GitHub have failed (`handlers_agree`).
-/

namespace Remediation

open Interaction Prog PyText

/-- Only a created session is taken for one. -/
theorem startsWith_created (o : Outcome) :
    startsWith o.text "created_session:" = true ↔ ∃ id, o = .created id := by
  have hno : ∀ {c : Char} {cs : List Char}, o.text.toList = c :: cs → 'c' ≠ c →
      ¬startsWith o.text "created_session:" = true := by
    intro c cs hs hc
    have hp : "created_session:".toList = 'c' :: "reated_session:".toList := by decide
    rw [startsWith_of_ne hs hp hc]
    exact nofun
  cases o with
  | created id => exact ⟨fun _ => ⟨id, rfl⟩, fun _ => startsWith_append "created_session:" id⟩
  | _ => exact ⟨fun h => absurd h (hno (String.toList_append ..) (by decide)), nofun⟩

/-- What a handler has done to the rows, and what it says that it has done. -/
inductive Agrees (before after : List SessionRow) (result : String) : Prop
  | unchanged (hrows : after = before) (hres : startsWith result "created_session:" = false)
  | created {r : SessionRow} {id : String} (hrows : after = before ++ [r])
      (hst : r.status = .pending) (hid : r.devinSessionId = some id)
      (hres : result = "created_session:" ++ id)
  | failed {r : SessionRow} (hrows : after = before ++ [r]) (hst : r.status = .failed)
      (hid : r.devinSessionId = none) (hdone : r.completedAt.isSome = true)
      (hmsg : r.errorMessage.isSome = true)
      (hres : startsWith result "created_session:" = false)

/-- The last row has just been reserved, under the key `pk`. -/
def JustReserved (before : List SessionRow) (pk : ℕ) (w : World) : Prop :=
  ∃ res t, w.sessions.rows = before ++ [Reservation.row res t pk]

variable {env : Outside} {S : Settings} {w : World} {before : List SessionRow} {pk : ℕ}

theorem JustReserved.tryReserve {res : Reservation}
    (ha : (exec env (.tryReserve res) w).1 = some pk) :
    JustReserved w.sessions.rows pk (exec env (.tryReserve res) w).2 := by
  rcases exec_tryReserve env w res with ⟨pk', t, hpk, ht, hw⟩ | ⟨hnone, -, -⟩
  · rw [ha] at hpk
    cases hpk
    obtain ⟨-, -, hrows⟩ := Sessions.tryReserve_eq_some ht
    rw [← hw] at hrows
    exact ⟨res, (w.tick env).now, hrows⟩
  · rw [ha] at hnone
    cases hnone

theorem JustReserved.exec (hJ : JustReserved before pk w) {op : Op} (hop : op.writes = false) :
    JustReserved before pk (exec env op w).2 := by
  unfold JustReserved
  rw [exec_sessions hop]
  exact hJ

/-- An UPDATE of the reserved row changes no other. -/
theorem JustReserved.update (hJ : JustReserved before pk w) (u : Update) :
    ∃ res t, (w.sessions.update pk u).rows = before ++ [u.apply (Reservation.row res t pk)] := by
  obtain ⟨res, t, hrows⟩ := hJ
  refine ⟨res, t, ?_⟩
  have hids := w.sessions.ids
  rw [hrows, List.map_append, List.nodup_append] at hids
  rw [Sessions.update_rows, hrows, List.map_append]
  congr 1
  · refine (List.map_congr_left fun r hr => ?_).trans (List.map_id' _)
    have hne : r.id ≠ pk := hids.2.2 _ (List.mem_map.2 ⟨r, hr, rfl⟩) _ List.mem_cons_self
    rw [if_neg hne]
  · rw [List.map_singleton]
    exact congrArg ([·]) (if_pos rfl)

/-! ## After the reservation -/

/-- The rows and the answer after a handler, or the rest of one. -/
def AgreesAfter (before : List SessionRow) (r : Outcome × World) : Prop :=
  Agrees before r.2.sessions.rows r.1.text

theorem agrees_unchanged {o : Outcome} (hrows : w.sessions.rows = before)
    (ho : ∀ id, o ≠ .created id) : AgreesAfter before (o, w) := by
  refine .unchanged hrows ?_
  rw [Bool.eq_false_iff]
  intro h
  obtain ⟨id, hid⟩ := (startsWith_created o).1 h
  exact ho id hid

theorem agrees_failed (hJ : JustReserved before pk w) (reason : String) {o : Outcome}
    (ho : ∀ id, o ≠ .created id) :
    AgreesAfter before (o, ((markFailed pk reason).eval (exec env) w).2) := by
  have hno : startsWith o.text "created_session:" = false := by
    rw [Bool.eq_false_iff]
    intro h
    obtain ⟨id, hid⟩ := (startsWith_created o).1 h
    exact ho id hid
  obtain ⟨res, t, hrows⟩ := hJ.update
    { status := some .failed, errorMessage := some reason, completedAt := some (exec env .now w).1 }
  exact .failed hrows rfl rfl rfl rfl hno

theorem agrees_created (hJ : JustReserved before pk w) (created : SessionCreated) (prompt : String) :
    AgreesAfter before (.created created.devinSessionId, (exec env (.update pk
      { devinSessionId := some created.devinSessionId
        devinUrl := some created.devinUrl
        promptSnapshot := some prompt
        status := some .pending }) w).2) := by
  obtain ⟨res, t, hrows⟩ := hJ.update
    { devinSessionId := some created.devinSessionId
      devinUrl := some created.devinUrl
      promptSnapshot := some prompt
      status := some .pending }
  exact .created hrows rfl rfl rfl

/-- **The row that is reserved ends as the answer says**, whether or not there is a client,
and whether or not the call succeeds. -/
theorem agrees_spawnSession (hJ : JustReserved before pk w) (workKey : String)
    (req : CreateRequest) :
    AgreesAfter before ((spawnSession pk workKey req).eval (exec env) w) := by
  unfold spawnSession
  simp only [perform, bind_eq, call_bind, ret_bind, eval_call]
  have hclient : JustReserved before pk (Remediation.exec env .getClient w).2 := hJ.exec rfl
  split
  · rw [eval_bind]
    exact agrees_failed hclient _ fun id he => by cases he
  simp only [eval_call]
  have hcall : JustReserved before pk (Remediation.exec env (.createSession workKey req)
      (Remediation.exec env .getClient w).2).2 := hclient.exec rfl
  split
  · rw [eval_bind]
    exact agrees_failed hcall _ fun id he => by cases he
  · exact agrees_created hcall _ _

theorem agrees_remediate (hJ : JustReserved before pk w) (issue : Issue) (workKey : String) :
    AgreesAfter before ((remediate S issue pk workKey).eval (exec env) w) := by
  unfold remediate
  split
  · rw [bind_eq, eval_bind]
    exact agrees_failed hJ _ fun id he => by cases he
  dsimp only
  split
  · rw [bind_eq, eval_bind]
    exact agrees_failed hJ _ fun id he => by cases he
  · exact agrees_spawnSession hJ _ _

theorem agrees_fix (hJ : JustReserved before pk w) (t : FixTarget) (n : ℕ) :
    AgreesAfter before ((fix S t n pk).eval (exec env) w) := by
  unfold fix
  simp only [perform, bind_eq, call_bind, ret_bind, eval_call]
  -- with or without the logs
  split <;> exact agrees_spawnSession (hJ.exec rfl) _ _

/-! ## The handlers -/

theorem agrees_handleSecurityIssue (env : Outside) (w : World) (issue : Issue) :
    AgreesAfter w.sessions.rows ((handleSecurityIssue S issue).eval (exec env) w) := by
  unfold handleSecurityIssue
  simp only [perform, bind_eq, call_bind, ret_bind, eval_call]
  split
  · exact agrees_unchanged rfl fun id he => by cases he
  simp only [eval_call]
  split
  · exact agrees_unchanged rfl fun id he => by cases he
  simp only [eval_call]
  set w' := (exec env .countStartedToday (exec env .countActive w).2).2 with hw'
  have hw : w'.sessions = w.sessions := rfl
  cases ha : (exec env (.tryReserve (securityReservation S issue)) w').1 with
  | none =>
    refine agrees_unchanged ?_ fun id he => by cases he
    rcases exec_tryReserve env w' (securityReservation S issue) with ⟨pk, t, hpk, -⟩ | ⟨-, -, hs⟩
    · rw [ha] at hpk
      cases hpk
    · rw [hs, hw]
  | some pk =>
    have hJ := JustReserved.tryReserve ha
    rw [hw] at hJ
    exact agrees_remediate hJ issue _

theorem agrees_attemptFix (env : Outside) (w : World) (t : FixTarget) (n : ℕ) :
    AgreesAfter w.sessions.rows ((attemptFix S t n).eval (exec env) w) := by
  unfold attemptFix
  simp only [perform, bind_eq, call_bind, ret_bind, eval_call]
  split
  · exact agrees_unchanged rfl fun id he => by cases he
  split
  · exact agrees_unchanged rfl fun id he => by cases he
  simp only [eval_call]
  split
  · exact agrees_unchanged rfl fun id he => by cases he
  simp only [eval_call]
  set w' := (exec env .countActive (exec env (.listPrCommits t.repo t.prNumber) w).2).2 with hw'
  have hw : w'.sessions = w.sessions := rfl
  cases ha : (exec env (.tryReserve (t.reservation n)) w').1 with
  | none =>
    refine agrees_unchanged ?_ fun id he => by cases he
    rcases exec_tryReserve env w' (t.reservation n) with ⟨pk, t, hpk, -⟩ | ⟨-, -, hs⟩
    · rw [ha] at hpk
      cases hpk
    · rw [hs, hw]
  | some pk =>
    have hJ := JustReserved.tryReserve ha
    rw [hw] at hJ
    exact agrees_fix hJ t n

/-- Below the cap a fix is attempted. -/
theorem agrees_fixOrEscalate (env : Outside) (w : World) (t : FixTarget) {h : Hist}
    (hcap : (fixOrEscalate S t).Along (exec env) (BelowCap S) h w) :
    ∃ o w', (fixOrEscalate S t).eval (exec env) w = (.ok o, w') ∧
      AgreesAfter w.sessions.rows (o, w') := by
  have hlt : w.sessions.maxFixAttemptForParent t.parent.devinSessionId < S.maxFixAttempts :=
    hcap.1 _ rfl
  have hmax : (exec env (.maxFixAttemptForParent t.parent.devinSessionId) w).1 =
      w.sessions.maxFixAttemptForParent t.parent.devinSessionId := rfl
  unfold fixOrEscalate
  simp only [perform, bind_eq, call_bind, ret_bind, eval_call, hmax]
  rw [if_neg (not_le.2 hlt), eval_bind]
  set w' := (exec env (.maxFixAttemptForParent t.parent.devinSessionId) w).2 with hw'
  exact ⟨_, _, rfl, agrees_attemptFix env w' t _⟩

theorem agrees_handleCiFailure (env : Outside) (w : World) (run : WorkflowRun)
    (hcap : (handleCiFailure S run).Along (exec env) (BelowCap S) [] w) :
    ∃ o w', (handleCiFailure S run).eval (exec env) w = (.ok o, w') ∧
      AgreesAfter w.sessions.rows (o, w') := by
  -- every guard answers `skipped` or `error`, and has written nothing
  have hret : ∀ {o : Outcome} {w' : World}, w'.sessions = w.sessions → (∀ id, o ≠ .created id) →
      ∃ o' w'', ((.ok o, w') : Except Exc Outcome × World) = (.ok o', w'') ∧
        AgreesAfter w.sessions.rows (o', w'') := by
    intro o w' hs ho
    exact ⟨o, w', rfl, agrees_unchanged (congrArg _ hs) ho⟩
  unfold handleCiFailure at hcap ⊢
  split
  · exact hret rfl fun id he => by cases he
  rename_i hevent
  rw [if_neg hevent] at hcap
  split
  · exact hret rfl fun id he => by cases he
  rename_i ref rest hrefs
  rw [hrefs] at hcap
  dsimp only at hcap
  split
  · exact hret rfl fun id he => by cases he
  rename_i prNumber hnumber
  rw [hnumber] at hcap
  simp only [perform, bind_eq, call_bind, ret_bind, eval_call] at hcap ⊢
  obtain ⟨-, hcap⟩ := hcap
  set w1 := (exec env (.getPr (run.repositoryFullName.getD S.forkRepo) prNumber) w).2 with hw1
  rcases hpr : (exec env (.getPr (run.repositoryFullName.getD S.forkRepo) prNumber) w).1 with
    exc | _ | pr
  · exact hret rfl fun id he => by cases he
  · exact hret rfl fun id he => by cases he
  rw [hpr] at hcap
  dsimp only at hcap ⊢
  split
  · exact hret rfl fun id he => by cases he
  rename_i hhead
  rw [if_neg hhead] at hcap
  obtain ⟨-, hcap⟩ := hcap
  simp only [eval_call]
  set w2 := (exec env (.findByPr (pr.htmlUrl.getD "")) w1).2 with hw2
  cases hparent : (exec env (.findByPr (pr.htmlUrl.getD "")) w1).1 with
  | none => exact hret rfl fun id he => by cases he
  | some parent =>
    rw [hparent] at hcap
    dsimp only at hcap ⊢
    split
    · exact hret rfl fun id he => by cases he
    rename_i hterm
    rw [if_neg hterm] at hcap
    exact agrees_fixOrEscalate env w2 _ hcap

/-- **Outcome and state agree.** Whatever fails at Devin and GitHub, a handler that does not
come to the escalation returns, leaves every row that was there as it was and adds one at
most: one that is pending with the session that the result names, or one that has failed, with
the time and the reason and without a session. -/
theorem handlers_agree (env : Outside) (S : Settings) (w : World) :
    (∀ issue, ∃ o w', (handleSecurityIssue S issue).eval (exec env) w = (o, w') ∧
      Agrees w.sessions.rows w'.sessions.rows o.text) ∧
    ∀ run, (handleCiFailure S run).Along (exec env) (BelowCap S) [] w →
      ∃ o w', (handleCiFailure S run).eval (exec env) w = (.ok o, w') ∧
        Agrees w.sessions.rows w'.sessions.rows o.text :=
  ⟨fun issue => ⟨_, _, rfl, agrees_handleSecurityIssue env w issue⟩,
    fun run hcap => agrees_handleCiFailure env w run hcap⟩

/-- The first CI failure after the session of an issue has exited with its pull request. -/
theorem first_fix_agrees :
    let w := runSerial Siblings.outside {} (.initial 0) [.securityIssue (.sample 1), .poll]
    ∃ o w', (handleCiFailure {} (.sample 100)).eval (exec Siblings.outside) w = (.ok o, w') ∧
      Agrees w.sessions.rows w'.sessions.rows o.text :=
  (handlers_agree Siblings.outside {} _).2 (.sample 100) (by decide +kernel)

end Remediation
