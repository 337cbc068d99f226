import Remediation.Proof.Dispatch
import Remediation.Proof.Verdict

/-!
# Inactivity without a date

If Devin does not say when a session was last updated, the poller measures its inactivity
from the last poll, or from the start of a session that has never been polled. But every
poll dates the row anew, also one that sees no change. So a session at work that bears no
date does not time out because it has been silent for long, but only if the tick before has
been that long ago (`undated_timeout_iff`).
-/

namespace Remediation

open Interaction Prog

/-- The state in which the `n`-th tick starts, where other tasks run between the ticks. -/
def tickStart (env : Outside) (S : Settings) (gap : ℕ → List Task) (w : World) : ℕ → World
  | 0 => w
  | n + 1 => runSerial env S ((pollOnce S).eval (exec env) (tickStart env S gap w n)).2 (gap n)

variable {env : Outside} {S : Settings} {gap : ℕ → List Task} {w w₀ : World} {r : SessionRow}
  {x : String} {data : ApiSession} {remote : SessionDetails} {pk : ℕ} {row : ℕ → SessionRow}
  {here : ℕ → World} {last : ℕ}

/-- At every tick up to `last`, `get_session` returns one and the same answer about a session:
it is at work, and there is no `updated_at`. The `i`-th tick finds `row i`, in state `here i`.
By the tick `last` both the start of the session and the first tick are longer ago than the
limit. -/
structure Undated (env : Outside) (S : Settings) (gap : ℕ → List Task) (w : World)
    (data : ApiSession) (x : String) (pk : ℕ) (row : ℕ → SessionRow) (here : ℕ → World)
    (last : ℕ) : Prop where
  working : (fromApiResponse data).status = .pending ∨ (fromApiResponse data).status = .running
  undated : data.updatedAt.truthy = false
  /-- no further tick in between -/
  ticks : ∀ i, .poll ∉ gap i
  polled : ∀ i ≤ last, TickReaches env S (tickStart env S gap w i) (row i) (here i)
  sameRow : ∀ i ≤ last, (row i).id = pk
  session : ∀ i ≤ last, PyText.truthy (row i).devinSessionId = some x
  answered : ∀ i ≤ last, (exec env (.getSession x) (here i)).1 = .ok data
  started : (S.sessionTimeoutSeconds : ℤ) * 1000000 <
    readAt env (here last) x - (row last).startedAt
  begun : (S.sessionTimeoutSeconds : ℤ) * 1000000 <
    readAt env (here last) x - readAt env (here 0) x

/-! ## One tick -/

/-- Without a date, the row alone decides about the timeout. -/
theorem verdict_undated (hw : remote.status = .pending ∨ remote.status = .running)
    (hu : remote.updatedAt.truthy = false) (t : Time) :
    verdict S r remote t =
      if (S.sessionTimeoutSeconds : ℤ) * 1000000 < t - r.lastPolledAt.getD r.startedAt then
        .timeOut (t - r.lastPolledAt.getD r.startedAt)
      else writeVerdict r remote := by
  unfold verdict inactivityAt
  rw [if_pos hw, if_neg (by simp [hu])]

/-- What is written back of a session at work is no timeout. -/
theorem writeVerdict_working (hw : remote.status = .pending ∨ remote.status = .running)
    (ha : r.status.active = true) (polledAt t : Time) :
    ((writeVerdict r remote).row r remote polledAt t).status ≠ .timeout := by
  have hremote : remote.status ≠ .timeout := by rcases hw with h | h <;> rw [h] <;> decide
  have hrow : r.status ≠ .timeout := by
    intro h
    rw [h] at ha
    cases ha
  unfold writeVerdict
  split_ifs
  · exact hrow
  · exact (by decide : Status.completed ≠ .timeout)
  · exact (by decide : Status.cancelled ≠ .timeout)
  · exact hremote
  · exact hremote

/-! ## From tick to tick -/

/-- Tasks other than a tick leave the date of the last poll as it is. -/
theorem runSerial_lastPolledAt (env : Outside) (S : Settings) {tasks : List Task}
    (htasks : .poll ∉ tasks) (hr : w.sessions.get pk = some r) :
    ∃ r', (runSerial env S w tasks).sessions.get pk = some r' ∧ r'.lastPolledAt = r.lastPolledAt := by
  induction tasks generalizing w r with
  | nil => exact ⟨r, hr, rfl⟩
  | cons task tasks ih =>
    obtain ⟨hne, hrest⟩ := List.ne_and_not_mem_of_not_mem_cons htasks
    obtain ⟨r₁, hr₁, hpolled, -⟩ :=
      row_of_unpolled (unpolled_task (S := S) (h := []) (Ne.symm hne)) env hr
    obtain ⟨r₂, hr₂, hlater⟩ := ih hrest hr₁
    exact ⟨r₂, hr₂, hlater.trans hpolled⟩

/-- Nor does the tick before it has come to the row. -/
theorem TickReaches.lastPolledAt (h : TickReaches env S w r w₀) {r₁ : SessionRow}
    (hr : w.sessions.get r.id = some r₁) : r.lastPolledAt = r₁.lastPolledAt := by
  obtain ⟨r₂, hr₂, hpolled, -⟩ := row_of_unpolled (unpolled_drainQueue (S := S) (h := [])) env hr
  rw [h.listed.1] at hr₂
  cases hr₂
  exact hpolled

theorem now_runSerial (env : Outside) (S : Settings) (tasks : List Task) (w : World) :
    w.now ≤ (runSerial env S w tasks).now := by
  induction tasks generalizing w with
  | nil => exact le_rfl
  | cons task tasks ih => exact (now_eval env _ _).trans (ih _)

/-- **A tick finds the date of the tick before**, whatever that one has seen. -/
theorem Undated.lastPolledAt_succ (h : Undated env S gap w data x pk row here last) {n : ℕ}
    (hn : n + 1 ≤ last) :
    ∃ p, (row (n + 1)).lastPolledAt = some p ∧ readAt env (here n) x ≤ p ∧
      p ≤ readAt env (here (n + 1)) x := by
  have hle : n ≤ last := Nat.le_of_succ_le hn
  set remote := fromApiResponse data with hremote
  obtain ⟨⟨polledAt, t, hsince, hnow, hrow⟩, -⟩ :=
    (h.polled n hle).acts (h.session n hle) (h.answered n hle)
  rw [h.sameRow n hle] at hrow
  by_cases hlate : (verdict S (row n) remote (readAt env (here n) x)).aborts = true
  · -- there is no date that could not be read
    rw [verdict_undated h.working h.undated] at hlate
    split at hlate
    · cases hlate
    · rw [aborts_writeVerdict] at hlate
      cases hlate
  · have hpolled : ((verdict S (row n) remote (readAt env (here n) x)).row (row n) remote polledAt
        t).lastPolledAt = some polledAt :=
      Verdict.row_lastPolledAt (Bool.eq_false_of_not_eq_true hlate) polledAt t
    obtain ⟨r₁, hr₁, hkept⟩ := runSerial_lastPolledAt env S (h.ticks n) hrow
    have hreach := h.polled (n + 1) hn
    rw [← h.sameRow (n + 1) hn] at hr₁
    refine ⟨polledAt, ?_, hsince, ?_⟩
    · rw [hreach.lastPolledAt hr₁, hkept, hpolled]
    · calc polledAt
        _ ≤ ((pollOnce S).eval (exec env) (tickStart env S gap w n)).2.now := hnow
        _ ≤ (tickStart env S gap w (n + 1)).now := now_runSerial env S (gap n) _
        _ ≤ (here (n + 1)).now := hreach.now_le
        _ ≤ readAt env (here (n + 1)) x := le_readAt env _ x

/-- **When a session without a date times out.** At a tick that comes later than the limit
after both the start of the session and the first tick, it times out and is told to stop
exactly if the last poll is longer ago than the limit; and that was at the tick before. -/
theorem undated_timeout_iff (h : Undated env S gap w data x pk row here last) :
    let w' := ((pollOnce S).eval (exec env) (tickStart env S gap w last)).2
    ∃ p, (row last).lastPolledAt = some p ∧ readAt env (here (last - 1)) x ≤ p ∧
      p ≤ readAt env (here last) x ∧
      (((∃ r, w'.sessions.get pk = some r ∧ r.status = .timeout) ∧
          terminateCount x (tickStart env S gap w last).trace < terminateCount x w'.trace) ↔
        (S.sessionTimeoutSeconds : ℤ) * 1000000 < readAt env (here last) x - p) := by
  intro w'
  have hpos : last ≠ 0 := by
    rintro rfl
    have hbegun := h.begun
    rw [sub_self] at hbegun
    omega
  obtain ⟨n, rfl⟩ := Nat.exists_eq_succ_of_ne_zero hpos
  obtain ⟨p, hp, hbefore, hafter⟩ := h.lastPolledAt_succ (n := n) le_rfl
  refine ⟨p, hp, hbefore, hafter, ?_⟩
  have hreach := h.polled (n + 1) le_rfl
  obtain ⟨⟨polledAt, t, -, -, hrow⟩, hstop⟩ :=
    hreach.acts (h.session _ le_rfl) (h.answered _ le_rfl)
  rw [h.sameRow _ le_rfl, verdict_undated h.working h.undated, hp] at hrow
  rw [verdict_undated h.working h.undated, hp] at hstop
  simp only [Option.getD_some] at hrow hstop
  constructor
  · rintro ⟨⟨r, hr, hst⟩, -⟩
    by_contra hin
    rw [if_neg hin] at hrow
    rw [hrow] at hr
    cases hr
    exact writeVerdict_working h.working hreach.listed.2 polledAt t hst
  · intro hlate
    rw [if_pos hlate] at hrow hstop
    exact ⟨⟨_, hrow, rfl⟩, hstop rfl⟩

namespace NoDate

/-- A running session, started at time 0, as the last poll has left it, if there was one. -/
def dated (polledAt : Option Time) : SessionRow where
  id := 1
  workKey := "issue:o/r:1:devin-security"
  devinSessionId := some "devin-4"
  triggerType := .cveIssue
  triggerRef := "https://github.com/o/r/issues/1"
  status := .running
  rawStatus := some "running"
  startedAt := 0
  lastPolledAt := polledAt

def world : World where
  sessions := ⟨[dated none], 2, by decide, by decide, by decide⟩
  events := .empty
  now := 0

/-- A tick takes eight operations, and no time; the next one starts `seconds` later. -/
def outside (seconds : ℕ) : Outside :=
  { Outside.calm with elapse := fun n => if n % 8 = 0 ∧ n ≠ 0 then seconds * 1000000 else 0 }

/-- What the `i`-th tick finds. -/
def found (seconds : ℕ) : ℕ → SessionRow
  | 0 => dated none
  | i + 1 => dated (some (i * (seconds * 1000000)))

/-- The state in which the `i`-th tick comes to the row. -/
def reached (seconds i : ℕ) : World :=
  let drained := (drainQueue {}).eval (exec (outside seconds))
    (tickStart (outside seconds) {} (fun _ => []) world i)
  (exec (outside seconds) .listNonTerminal (exec (outside seconds) .getClient drained.2).2).2

theorem undated_of_polled {seconds last : ℕ}
    (hpolled : ∀ i ≤ last, TickReaches (outside seconds) {}
      (tickStart (outside seconds) {} (fun _ => []) world i) (found seconds i) (reached seconds i))
    (hstarted : 2700000000 < readAt (outside seconds) (reached seconds last) "devin-4")
    (hbegun : 2700000000 < readAt (outside seconds) (reached seconds last) "devin-4" -
      readAt (outside seconds) (reached seconds 0) "devin-4") :
    Undated (outside seconds) {} (fun _ => []) world { status := some "running" } "devin-4" 1
      (found seconds) (reached seconds) last where
  working := Or.inr (by decide)
  undated := rfl
  ticks _ := List.not_mem_nil
  polled := hpolled
  sameRow i _ := by cases i <;> rfl
  session i _ := by cases i <;> rfl
  answered _ _ := rfl
  started := by
    have hzero : (found seconds last).startedAt = 0 := by cases last <;> rfl
    rw [hzero, sub_zero]
    exact hstarted
  begun := hbegun

/-- Ticks that are 50 minutes apart: the second one. -/
theorem undated_50 : Undated (outside 3000) {} (fun _ => []) world { status := some "running" }
    "devin-4" 1 (found 3000) (reached 3000) 1 := by
  refine undated_of_polled (fun i hi => ?_) (by decide) (by decide)
  obtain rfl | rfl : i = 0 ∨ i = 1 := by omega
  · exact ⟨rfl, [], [], _, rfl, rfl⟩
  · exact ⟨rfl, [], [], _, rfl, rfl⟩

theorem rare_ticks_time_out :
    ∃ r, ((pollOnce {}).eval (exec (outside 3000))
        (tickStart (outside 3000) {} (fun _ => []) world 1)).2.sessions.get 1 = some r ∧
      r.status = .timeout := by
  obtain ⟨p, hp, -, -, hiff⟩ := undated_timeout_iff undated_50
  have hzero : p = 0 := (Option.some.inj hp).symm
  subst hzero
  exact (hiff.2 (by decide)).1

/-- Ticks that are 2000 s apart: the third one, after more than an hour. -/
theorem undated_33 : Undated (outside 2000) {} (fun _ => []) world { status := some "running" }
    "devin-4" 1 (found 2000) (reached 2000) 2 := by
  refine undated_of_polled (fun i hi => ?_) (by decide) (by decide)
  obtain rfl | rfl | rfl : i = 0 ∨ i = 1 ∨ i = 2 := by omega
  · exact ⟨rfl, [], [], _, rfl, rfl⟩
  · exact ⟨rfl, [], [], _, rfl, rfl⟩
  · exact ⟨rfl, [], [], _, rfl, rfl⟩

/-- **Frequent ticks keep a silent session alive**: the third one is the first that comes
later than the limit after the start of the session and the first tick. -/
theorem frequent_ticks_never_time_out :
    let w' := ((pollOnce {}).eval (exec (outside 2000))
      (tickStart (outside 2000) {} (fun _ => []) world 2)).2
    Undated (outside 2000) {} (fun _ => []) world { status := some "running" } "devin-4" 1
        (found 2000) (reached 2000) 2 ∧
      readAt (outside 2000) (reached 2000 1) "devin-4" -
        readAt (outside 2000) (reached 2000 0) "devin-4" ≤ 2700000000 ∧
      w'.sessions.statusOf 1 = some .running ∧ terminateCount "devin-4" w'.trace = 0 :=
  ⟨undated_33, by decide⟩

end NoDate

end Remediation
