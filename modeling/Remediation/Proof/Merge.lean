import Remediation.Proof.Verdict

/-!
# Merged pull requests

A tick takes a merged pull request as the end of the work on a row, but only after the
inactivity timeout and the comparison with the stored row, which does not look at the
state of the pull request. `merged_completes_iff` says exactly when a tick that is told
of a merge completes the row and terminates the session; `merge_alone_is_skipped` is a
merge that changes nothing else.
-/

namespace Remediation

open Interaction Prog

variable {env : Outside} {S : Settings} {w : World}

/-- The row is completed, with the time at which it was. -/
def CompletedAt (w : World) (pk : ℕ) : Prop :=
  ∃ r, w.sessions.get pk = some r ∧ r.status = .completed ∧ r.completedAt.isSome = true

section Row

variable {r : SessionRow} {x : String} {data : ApiSession} {remote : SessionDetails} {w₀ : World}

/-- **When a merge is seen.** For a tick that comes to an active row and is told that the
session's first pull request is merged: the row ends completed, and the session has been
terminated, exactly if the tick gets past the timeout and something else differs from
the row. -/
theorem merged_completes_iff (hreach : TickReaches env S w r w₀)
    (hx : PyText.truthy r.devinSessionId = some x)
    (hget : (exec env (.getSession x) w₀).1 = .ok data)
    (hm : (fromApiResponse data).prState = some "merged") :
    let w' := ((pollOnce S).eval (exec env) w).2
    CompletedAt w' r.id ∧ terminateCount x w.trace < terminateCount x w'.trace ↔
      InTime S r (fromApiResponse data) (exec env .now (exec env (.getSession x) w₀).2).1 ∧
        r.differs (fromApiResponse data) = true := by
  intro w'
  obtain ⟨-, hact⟩ := hreach.current
  have hterm : r.status.terminal = false := by rw [Status.terminal_eq, hact]; rfl
  have hne : r.status ≠ .completed := by intro he; rw [he] at hact; cases hact
  obtain ⟨⟨polledAt, t, -, -, hrow⟩, hstop⟩ := hreach.acts hx hget
  change _ ↔ InTime S r (fromApiResponse data) (readAt env w₀ x) ∧ _
  by_cases hin : InTime S r (fromApiResponse data) (readAt env w₀ x)
  · rw [hin.verdict_eq] at hrow hstop
    cases hd : r.differs (fromApiResponse data) with
    | true =>
      have hv : writeVerdict r (fromApiResponse data) = .merge := by
        simp [writeVerdict, hd, hm, hterm]
      rw [hv] at hrow hstop
      exact iff_of_true ⟨⟨_, hrow, rfl, rfl⟩, hstop rfl⟩ ⟨hin, rfl⟩
    | false =>
      have hv : writeVerdict r (fromApiResponse data) = .same := by simp [writeVerdict, hd]
      rw [hv] at hrow
      refine iff_of_false ?_ (fun h => by cases h.2)
      rintro ⟨⟨r', hr', hs, -⟩, -⟩
      rw [hrow] at hr'
      cases hr'
      exact hne hs
  · refine iff_of_false ?_ (fun h => hin h.1)
    rintro ⟨⟨r', hr', hs, -⟩, -⟩
    rw [hrow] at hr'
    cases hr'
    -- the tick ends here, or the row ends as timed out
    rcases verdict_late hin with ⟨exc, hv⟩ | ⟨i, hv⟩
    · rw [hv] at hs
      exact hne hs
    · rw [hv] at hs
      cases hs

end Row

/-! ## Merges with and without another change -/

namespace MergeSeen

/-- A session at work on an open pull request, as the last tick has left it. -/
def row : SessionRow where
  id := 1
  workKey := "issue:o/r:1:devin-security"
  devinSessionId := some "devin-4"
  triggerType := .cveIssue
  triggerRef := "https://github.com/o/r/issues/1"
  status := .running
  rawStatus := some "running"
  prUrl := some "https://github.com/o/r/pull/7"
  startedAt := 0

def world : World where
  sessions := ⟨[row], 2, by decide, by decide, by decide⟩
  events := .empty
  now := 0

/-- The pull request is merged; the session has used some ACUs. -/
def report (acus : ℚ) : ApiSession where
  status := some "running"
  acusConsumed := some acus
  pullRequests := [⟨some "https://github.com/o/r/pull/7", some "merged"⟩]

def outside (acus : ℚ) : Outside :=
  { Outside.calm with getSession := fun _ _ => .ok (report acus) }

/-- The state in which the tick comes to the row. -/
def reached (acus : ℚ) : World :=
  let drained := (drainQueue {}).eval (exec (outside acus)) world
  (exec (outside acus) .listNonTerminal (exec (outside acus) .getClient drained.2).2).2

theorem tickReaches (acus : ℚ) : TickReaches (outside acus) {} world row (reached acus) :=
  ⟨rfl, [], [], _, rfl, rfl⟩

theorem merge_with_new_acus :
    let w' := ((pollOnce {}).eval (exec (outside 1)) world).2
    CompletedAt w' 1 ∧ terminateCount "devin-4" world.trace < terminateCount "devin-4" w'.trace :=
  (merged_completes_iff (tickReaches 1) rfl rfl rfl).2
    ⟨fun _ => ⟨_, rfl, by decide⟩, by decide⟩

/-- **A merge that changes nothing else is skipped**: the row stays running. -/
theorem merge_alone_is_skipped :
    TickReaches (outside 0) {} world row (reached 0) ∧
      PyText.truthy row.devinSessionId = some "devin-4" ∧
      (exec (outside 0) (.getSession "devin-4") (reached 0)).1 = .ok (report 0) ∧
      (fromApiResponse (report 0)).prState = some "merged" ∧
      ¬(CompletedAt ((pollOnce {}).eval (exec (outside 0)) world).2 1 ∧
        terminateCount "devin-4" world.trace <
          terminateCount "devin-4" ((pollOnce {}).eval (exec (outside 0)) world).2.trace) := by
  refine ⟨⟨rfl, [], [], _, rfl, rfl⟩, rfl, rfl, rfl, ?_⟩
  rintro ⟨-, hlt⟩
  exact absurd hlt (by decide)

end MergeSeen

end Remediation
