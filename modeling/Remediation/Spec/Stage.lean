import Remediation.Lib.Text
import Remediation.Spec.Sessions

/-!
# Workflow stages

Where a unit of work is in its life (`app/stage.py`): derived from its row and the rows
of its fix sessions, for the dashboard.
-/

namespace Remediation

open PyText

/-- Some fix session of the row is still active. -/
def SessionRow.hasActiveChild (row : SessionRow) (allRows : List SessionRow) : Bool :=
  (truthy row.devinSessionId).isSome &&
    allRows.any fun r => r.parentDevinSessionId = row.devinSessionId && r.status.active

def cveStage (row : SessionRow) (allRows : List SessionRow) : String :=
  if row.status = .cancelled then "cancelled"
  else if row.status = .failed ∨ row.status = .timeout then "failed"
  else if row.status = .needsAttention ∨ row.status = .blocked then "needs human"
  else if row.status = .reserving then "detected"
  -- pending, running or completed from here on
  else if truthy row.prUrl = none then "devin running"
  else if row.hasActiveChild allRows then "ci fix running"
  else if row.status = .completed then "verified"
  else "PR open"

def ciFixStage (row : SessionRow) : String :=
  let statusLabel := String.ofList (row.status.text.toList.map fun c => if c = '_' then ' ' else c)
  s!"fix #{row.fixAttemptNumber}: {statusLabel}"

def computeStage (row : SessionRow) (allRows : List SessionRow) : String :=
  match row.triggerType with
  | .cveIssue => cveStage row allRows
  | .ciFailure => ciFixStage row

/-- **What the stage of a remediation says**: `verified` is a completed row with a pull request
and no fix session at work. -/
theorem cveStage_verified {row : SessionRow} {allRows : List SessionRow} :
    cveStage row allRows = "verified" ↔
      row.status = .completed ∧ (truthy row.prUrl).isSome = true ∧
        row.hasActiveChild allRows = false := by
  constructor
  · intro h
    unfold cveStage at h
    split_ifs at h with _ _ _ _ hp hc hs
    all_goals first
      | exact absurd h (by decide)
      | exact ⟨hs, Option.isSome_iff_ne_none.2 hp, by simpa using hc⟩
  · rintro ⟨hs, hp, hc⟩
    simp [cveStage, hs, Option.isSome_iff_ne_none.1 hp, hc]

end Remediation
