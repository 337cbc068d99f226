import Remediation.Proof.Tick

/-!
# What a tick makes of an answer

The verdict on a row, as a function of the row, of what Devin has answered and of the time,
and the row that it leaves. `eval_processAnswer` says that the poller acts on it:
the laws of a tick are then laws of this function.
-/

namespace Remediation

open Interaction Prog

inductive Verdict
  /-- `datetime.fromtimestamp` raises, and the tick ends -/
  | abort (exc : Exc)
  | timeOut (inactive : ℤ)
  | same
  | merge
  | close
  | finish
  | mirror

/-- What is written back of an answer in time. -/
def writeVerdict (row : SessionRow) (remote : SessionDetails) : Verdict :=
  if row.differs remote = false then .same
  else if remote.prState = some "merged" ∧ row.status.terminal = false then .merge
  else if remote.prState = some "closed" ∧ row.status.terminal = false then .close
  else if remote.status.terminal ∧ row.completedAt = none then .finish
  else .mirror

def verdict (S : Settings) (row : SessionRow) (remote : SessionDetails) (t : Time) : Verdict :=
  if remote.status = .pending ∨ remote.status = .running then
    match inactivityAt row remote t with
    | .error exc => .abort exc
    | .ok inactive =>
      if (S.sessionTimeoutSeconds : ℤ) * 1000000 < inactive then .timeOut inactive
      else writeVerdict row remote
  else writeVerdict row remote

namespace Verdict

/-- The UPDATE of the row, with the time of the poll and that of the completion. -/
def update (remote : SessionDetails) (polledAt t : Time) : Verdict → Option Update
  | abort _ => none
  | timeOut inactive => some
      { status := some .timeout
        errorMessage := some s!"inactive for {inactive / 1000000}s"
        completedAt := some t
        lastPolledAt := some polledAt }
  | same => some { lastPolledAt := some polledAt }
  | merge => some
      { pollUpdate remote polledAt with status := some .completed, completedAt := some t }
  | close => some
      { pollUpdate remote polledAt with
        status := some .cancelled
        errorMessage := some "pr_closed_without_merge"
        completedAt := some t }
  | finish => some { pollUpdate remote polledAt with completedAt := some t }
  | mirror => some (pollUpdate remote polledAt)

/-- The row that the verdict leaves. -/
def row (v : Verdict) (r : SessionRow) (remote : SessionDetails) (polledAt t : Time) : SessionRow :=
  match v.update remote polledAt t with
  | none => r
  | some u => u.apply r

/-- The table that the verdict leaves. -/
def write (v : Verdict) (pk : ℕ) (remote : SessionDetails) (polledAt t : Time) (s : Sessions) :
    Sessions :=
  match v.update remote polledAt t with
  | none => s
  | some u => s.update pk u

/-- The session is told to stop. -/
def stops : Verdict → Bool
  | timeOut _ => true
  | merge => true
  | _ => false

def aborts : Verdict → Bool
  | abort _ => true
  | _ => false

@[simp] theorem get_write (v : Verdict) (pk : ℕ) (remote : SessionDetails) (polledAt t : Time)
    (s : Sessions) :
    (v.write pk remote polledAt t s).get pk = (s.get pk).map fun r => v.row r remote polledAt t := by
  unfold write row
  cases v.update remote polledAt t with
  | none => exact Option.map_id'.symm
  | some u => simp [Sessions.get_update]

@[simp] theorem row_id (v : Verdict) (r : SessionRow) (remote : SessionDetails) (polledAt t : Time) :
    (v.row r remote polledAt t).id = r.id := by
  unfold row
  split <;> rfl

end Verdict

/-- The tick gets past the timeout: a session that should be working has been active
recently enough, as far as that can be computed. -/
def InTime (S : Settings) (row : SessionRow) (remote : SessionDetails) (t : Time) : Prop :=
  remote.status = .pending ∨ remote.status = .running →
    ∃ i, inactivityAt row remote t = .ok i ∧ i ≤ (S.sessionTimeoutSeconds : ℤ) * 1000000

variable {env : Outside} {S : Settings} {w : World} {r : SessionRow} {x : String}
  {remote : SessionDetails}

/-- A tick that does not abort dates the row. -/
theorem Verdict.row_lastPolledAt {v : Verdict} (hv : v.aborts = false) (polledAt t : Time) :
    (v.row r remote polledAt t).lastPolledAt = some polledAt := by
  cases v with
  | abort exc => cases hv
  | _ => rfl

theorem aborts_writeVerdict (r : SessionRow) (remote : SessionDetails) :
    (writeVerdict r remote).aborts = false := by
  unfold writeVerdict
  split_ifs <;> rfl

/-- In time an answer is written back. -/
theorem InTime.verdict_eq {t : Time} (h : InTime S r remote t) :
    verdict S r remote t = writeVerdict r remote := by
  unfold verdict
  split
  · rename_i hst
    obtain ⟨i, hi, hle⟩ := h hst
    rw [hi]
    exact if_neg (not_lt.2 hle)
  · rfl

/-- Otherwise it is not. -/
theorem verdict_late {t : Time} (h : ¬InTime S r remote t) :
    (∃ exc, verdict S r remote t = .abort exc) ∨ ∃ i, verdict S r remote t = .timeOut i := by
  unfold verdict
  split
  · rename_i hst
    cases hi : inactivityAt r remote t with
    | error exc => exact Or.inl ⟨exc, rfl⟩
    | ok i =>
      have hlt : (S.sessionTimeoutSeconds : ℤ) * 1000000 < i := by
        by_contra hle
        exact h fun _ => ⟨i, hi, not_lt.1 hle⟩
      exact Or.inr ⟨i, if_pos hlt⟩
  · rename_i hst
    exact absurd (fun h => absurd h hst) h

/-- What is done about a row, in a program that ends with `result`: the row is written as the
verdict says, and its session is told to stop if the verdict says so. -/
structure ActsOn (v : Verdict) (r : SessionRow) (x : String) (remote : SessionDetails)
    (since : Time) (w w' : World) : Prop where
  written : ∃ polledAt t, since ≤ polledAt ∧ polledAt ≤ w'.now ∧
    w'.sessions = v.write r.id remote polledAt t w.sessions
  stopped : ∀ y, terminateCount y w'.trace =
    terminateCount y w.trace + if v.stops = true ∧ x = y then 1 else 0

theorem terminateCount_skip {op : Op} (hop : op.terminates = none) (y : String) :
    terminateCount y (exec env op w).2.trace = terminateCount y w.trace := by
  rw [exec_trace, terminateCount, List.countP_cons_of_neg (by simp [hop])]
  rfl

theorem terminateCount_stop (x y : String) :
    terminateCount y (exec env (.terminateSession x) w).2.trace =
      terminateCount y w.trace + if x = y then 1 else 0 := by
  rw [exec_trace, terminateCount, List.countP_cons]
  simp [Op.terminates, terminateCount]

theorem eval_writeBack (env : Outside) (w : World) (r : SessionRow) (x : String)
    (remote : SessionDetails) (summary : Summary) :
    ActsOn (writeVerdict r remote) r x remote (exec env .now w).1 w
      ((writeBack summary r x remote).eval (exec env) w).2 := by
  have hnow : ∀ w : World, (exec env .now w).1 = (exec env .now w).2.now := fun _ => rfl
  unfold writeBack writeVerdict
  simp only [perform, bind_eq, call_bind, ret_bind, eval_call]
  cases hd : r.differs remote with
  | false =>
    refine ⟨⟨(exec env .now w).1, 0, le_rfl, (hnow w).trans_le (now_le _), rfl⟩, fun y => ?_⟩
    exact (terminateCount_skip rfl y).trans (terminateCount_skip rfl y)
  | true =>
    simp only [Bool.not_true, Bool.false_eq_true, Bool.true_eq_false, if_false]
    split
    · refine ⟨⟨(exec env .now w).1, _, le_rfl, ?_, rfl⟩, fun y => ?_⟩
      · exact (hnow w).trans_le ((now_le _).trans ((now_le _).trans (now_le _)))
      · simp only [eval_call, eval_ret, pure_eq]
        rw [terminateCount_skip rfl, terminateCount_skip rfl, terminateCount_stop,
          terminateCount_skip rfl]
        simp [Verdict.stops]
    split
    · refine ⟨⟨(exec env .now w).1, _, le_rfl, ?_, rfl⟩, fun y => ?_⟩
      · exact (hnow w).trans_le ((now_le _).trans (now_le _))
      · exact (terminateCount_skip rfl y).trans
          ((terminateCount_skip rfl y).trans (terminateCount_skip rfl y))
    split
    · refine ⟨⟨(exec env .now w).1, _, le_rfl, ?_, rfl⟩, fun y => ?_⟩
      · exact (hnow w).trans_le ((now_le _).trans (now_le _))
      · exact (terminateCount_skip rfl y).trans
          ((terminateCount_skip rfl y).trans (terminateCount_skip rfl y))
    · refine ⟨⟨(exec env .now w).1, 0, le_rfl, (hnow w).trans_le (now_le _), rfl⟩, fun y => ?_⟩
      exact (terminateCount_skip rfl y).trans (terminateCount_skip rfl y)

theorem eval_timeOut (env : Outside) (w : World) (r : SessionRow) (x : String)
    (remote : SessionDetails) (inactive : ℤ) :
    ActsOn (.timeOut inactive) r x remote w.now w ((timeOut r x inactive).eval (exec env) w).2 := by
  unfold timeOut
  simp only [perform, bind_eq, call_bind, ret_bind, eval_call]
  set w1 := (exec env (.terminateSession x) w).2 with hw1
  set w2 := (exec env .now w1).2 with hw2
  set w3 := (exec env .now w2).2 with hw3
  have hs : w3.sessions = w.sessions := rfl
  refine ⟨⟨(exec env .now w2).1, (exec env .now w1).1, ?_, ?_, ?_⟩, fun y => ?_⟩
  · exact (now_le (.terminateSession x)).trans ((now_le .now).trans (now_le .now))
  · exact now_le (w := w3) _
  · simp only [eval_ret]
    rw [exec_update_sessions, hs]
    rfl
  · simp only [eval_ret]
    rw [terminateCount_skip rfl, hw3, terminateCount_skip rfl, hw2, terminateCount_skip rfl, hw1,
      terminateCount_stop]
    simp [Verdict.stops]

/-- **The poller acts on the verdict**, and the tick goes on unless the verdict is to abort. -/
theorem eval_processAnswer (env : Outside) (w : World) (r : SessionRow) (x : String)
    (remote : SessionDetails) (summary : Summary) :
    let v := verdict S r remote (exec env .now w).1
    let a := (processAnswer S summary r x remote).eval (exec env) w
    ActsOn v r x remote (exec env .now w).1 w a.2 ∧ a.1.isOk = !v.aborts := by
  unfold processAnswer verdict
  split
  · simp only [perform, bind_eq, call_bind, ret_bind, eval_call]
    cases hi : inactivityAt r remote (exec env .now w).1 with
    | error exc =>
      exact ⟨⟨⟨(exec env .now w).1, 0, le_rfl, le_rfl, rfl⟩, terminateCount_skip rfl⟩, rfl⟩
    | ok inactive =>
      simp only [timeOutOrWriteBack, eval_bind]
      split
      · obtain ⟨hwritten, hstop⟩ := eval_timeOut env (exec env .now w).2 r x remote inactive
        refine ⟨⟨hwritten, fun y => ?_⟩, rfl⟩
        exact (hstop y).trans (by rw [terminateCount_skip rfl])
      · obtain ⟨⟨polledAt, t, h1, h2, h3⟩, hstop⟩ :=
          eval_writeBack env (exec env .now w).2 r x remote summary
        have hlater : (exec env .now w).1 ≤ (exec env .now (exec env .now w).2).1 :=
          now_le (w := (exec env .now w).2) .now
        refine ⟨⟨⟨polledAt, t, hlater.trans h1, h2, h3⟩, fun y => ?_⟩, ?_⟩
        · exact (hstop y).trans (by rw [terminateCount_skip rfl])
        · rw [aborts_writeVerdict]
          rfl
  · have hacts := eval_writeBack env w r x remote summary
    rw [bind_eq, eval_bind]
    refine ⟨hacts, ?_⟩
    rw [aborts_writeVerdict]
    rfl

/-! ## The tick -/

/-- The time that is read after the answer about the session `x`. -/
def readAt (env : Outside) (w : World) (x : String) : Time :=
  (exec env .now (exec env (.getSession x) w).2).1

theorem le_readAt (env : Outside) (w : World) (x : String) : w.now ≤ readAt env w x :=
  (now_le (.getSession x)).trans (now_le (w := (exec env (.getSession x) w).2) .now)

section Tick

variable {data : ApiSession} {w₀ : World}

theorem eval_pollRow (hx : PyText.truthy r.devinSessionId = some x)
    (hget : (exec env (.getSession x) w).1 = .ok data) (summary : Summary) :
    let v := verdict S r (fromApiResponse data) (readAt env w x)
    let a := (pollRow S summary r).eval (exec env) w
    ActsOn v r x (fromApiResponse data) (readAt env w x) w a.2 ∧ a.1.isOk = !v.aborts := by
  intro v a
  have ha : a = (processAnswer S { summary with polled := summary.polled + 1 } r x
      (fromApiResponse data)).eval (exec env) (exec env (.getSession x) w).2 := by
    change (pollRow S summary r).eval (exec env) w = _
    unfold pollRow
    rw [hx]
    simp only [perform, bind_eq, call_bind, ret_bind, eval_call]
    rw [hget]
  obtain ⟨⟨hwritten, hstop⟩, hok⟩ := eval_processAnswer (S := S) env
    (exec env (.getSession x) w).2 r x (fromApiResponse data)
    { summary with polled := summary.polled + 1 }
  rw [ha]
  refine ⟨⟨hwritten, fun y => ?_⟩, hok⟩
  rw [hstop y, terminateCount_skip rfl]
  rfl

/-- A row without a session, or without an answer, is left as it is. -/
theorem eval_pollRow_skip
    (hskip : ∀ x, PyText.truthy r.devinSessionId = some x →
      ∃ exc, (exec env (.getSession x) w).1 = .error exc) (summary : Summary) :
    let a := (pollRow S summary r).eval (exec env) w
    a.2.sessions = w.sessions ∧ (∀ y, terminateCount y a.2.trace = terminateCount y w.trace) ∧
      a.1.isOk = true := by
  unfold pollRow
  cases hx : PyText.truthy r.devinSessionId with
  | none => exact ⟨rfl, fun _ => rfl, rfl⟩
  | some x =>
    obtain ⟨exc, hexc⟩ := hskip x hx
    simp only [perform, bind_eq, call_bind, ret_bind, eval_call]
    rw [hexc]
    exact ⟨rfl, terminateCount_skip rfl, rfl⟩

/-- **What a tick does about a row that it comes to.** -/
theorem TickReaches.acts (hreach : TickReaches env S w r w₀)
    (hx : PyText.truthy r.devinSessionId = some x)
    (hget : (exec env (.getSession x) w₀).1 = .ok data) :
    let v := verdict S r (fromApiResponse data) (readAt env w₀ x)
    let w' := ((pollOnce S).eval (exec env) w).2
    (∃ polledAt t, readAt env w₀ x ≤ polledAt ∧ polledAt ≤ w'.now ∧
      w'.sessions.get r.id = some (v.row r (fromApiResponse data) polledAt t)) ∧
    (v.stops = true → terminateCount x w.trace < terminateCount x w'.trace) := by
  intro v w'
  obtain ⟨hcur, -⟩ := hreach.current
  obtain ⟨post, summary, hpost, htick⟩ := hreach.rest
  have hbefore := hreach.terminateCount_le x
  obtain ⟨hrow, hafter⟩ := pollRows_cons (S := S) env hpost x summary w₀
  have hw' : w' = ((pollRows S (r :: post) summary).eval (exec env) w₀).2 := htick
  rw [← hw'] at hrow hafter
  obtain ⟨⟨⟨polledAt, t, hsince, hnow, hs⟩, hstop⟩, -⟩ := eval_pollRow (S := S) hx hget summary
  have hlater : ((pollRow S summary r).eval (exec env) w₀).2.now ≤ w'.now := by
    rw [hw', pollRows, bind_eq, eval_bind]
    exact now_eval env _ _
  refine ⟨⟨polledAt, t, hsince, hnow.trans hlater, ?_⟩, ?_⟩
  · rw [hrow, hs, Verdict.get_write, hcur]
    rfl
  · intro hv
    have hone := hstop x
    rw [if_pos ⟨hv, rfl⟩] at hone
    omega

/-- **A tick leaves a row as it finds it** unless it comes to it and gets an answer. -/
theorem get_of_unanswered {pk : ℕ}
    (hr : ((drainQueue S).eval (exec env) w).2.sessions.get pk = some r)
    (hno : ∀ x data w₀, TickReaches env S w r w₀ → PyText.truthy r.devinSessionId = some x →
      (exec env (.getSession x) w₀).1 ≠ .ok data) :
    ((pollOnce S).eval (exec env) w).2.sessions.get pk = some r := by
  obtain ⟨hmem, rfl⟩ := Table.get_eq_some _ |>.1 hr
  have hskip : ∀ w₀, TickReaches env S w r w₀ → ∀ x, PyText.truthy r.devinSessionId = some x →
      ∃ exc, (exec env (.getSession x) w₀).1 = .error exc := by
    intro w₀ hreach x hx
    cases ha : (exec env (.getSession x) w₀).1 with
    | error exc => exact ⟨exc, rfl⟩
    | ok data => exact absurd ha (hno x data w₀ hreach hx)
  by_cases hreach : ∃ w₀, TickReaches env S w r w₀
  · obtain ⟨w₀, hreach⟩ := hreach
    obtain ⟨post, summary, hpost, htick⟩ := hreach.rest
    obtain ⟨hrow, -⟩ := pollRows_cons (S := S) env hpost "" summary w₀
    obtain ⟨hsame, -, -⟩ := eval_pollRow_skip (S := S) (hskip w₀ hreach) summary
    rw [htick, hrow, hsame]
    exact hreach.current.1
  rw [eval_pollOnce]
  set drained := (drainQueue S).eval (exec env) w
  set connected := exec env .getClient drained.2
  cases hclient : connected.1 with
  | error exc => exact hr
  | ok _ =>
    simp only
    set listed := exec env .listNonTerminal connected.2
    have hrows : listed.1 = drained.2.sessions.listNonTerminal := rfl
    have hkept : ∀ rows : List SessionRow, r.id ∉ rows.map (·.id) → ∀ summary,
        ((pollRows S rows summary).eval (exec env) listed.2).2.sessions.get r.id = some r := by
      intro rows hids summary
      exact (get_of_touches env listed.2 (touches_pollRows (h := []) rows summary) hids).trans hr
    by_cases hact : r ∈ listed.1
    · -- the tick ends before it
      obtain ⟨pre, post, hsplit⟩ := List.append_of_mem hact
      obtain ⟨hpre, -⟩ := not_mem_of_snapshot (hrows.symm.trans hsplit)
      have hend := hkept pre hpre drained.1
      rw [hsplit, pollRows_append, eval_bind]
      cases hres : ((pollRows S pre drained.1).eval (exec env) listed.2).1 with
      | error exc => exact hend
      | ok summary =>
        exact absurd ⟨_, hclient, pre, post, summary, hsplit, Prod.ext hres rfl⟩ hreach
    · -- a terminal row
      refine hkept listed.1 (fun hids => hact ?_) _
      obtain ⟨s, hs, hid⟩ := List.mem_map.1 hids
      rw [hrows] at hs
      have hs' := (Sessions.mem_listNonTerminal.1 hs).1
      rw [drained.2.sessions.eq_of_id hmem hs' hid.symm]
      exact hs

end Tick

end Remediation
