import Mathlib.Data.Rat.Floor
import Remediation.Lib.Tally
import Remediation.Lib.Text
import Remediation.Spec.Devin
import Remediation.Spec.Sessions

/-!
# The read side

What `/metrics` and `/sessions` answer (`app/metrics.py`, `app/serializers.py`,
`app/routes/metrics.py`). Quotients and sums are exact here; in the code they are floats.
-/

namespace Remediation

open PyText

/-- `ORDER BY started_at DESC LIMIT`, the reverse of `orderByStarted`. -/
def Sessions.listRecent (limit : ℤ) (t : Sessions) : List SessionRow :=
  let rows := (orderByStarted t.rows).reverse
  -- a negative limit is none
  if limit < 0 then rows else rows.take limit.toNat

/-! ## Metrics -/

def needsHumanStatuses : List Status := [.blocked, .needsAttention, .timeout]

/-- The constants of the "hours and dollars saved" estimate. -/
structure ValueSettings where
  hoursSavedPerCompletedSession : ℚ := 4
  engineerHourlyRateUsd : ℚ := 150

structure DashboardMetrics where
  totalSessions : ℕ
  activeSessions : ℕ
  completedSessions : ℕ
  failedSessions : ℕ
  cancelledSessions : ℕ
  needsHuman : ℕ
  prCreated : ℕ
  completedWithoutPr : ℕ
  totalAcusConsumed : ℚ
  successRate : ℚ
  estimatedHoursSaved : ℚ
  estimatedDollarsSaved : ℤ
  byLabel : List (String × ℕ)
  lastActivityAt : Option Time

/-- `round(q, digits)` -/
def roundTo (digits : ℕ) (q : ℚ) : ℚ := roundHalfEven (q * 10 ^ digits) / 10 ^ digits

/-- `int(q)` -/
def truncate (q : ℚ) : ℤ := if 0 ≤ q then ⌊q⌋ else ⌈q⌉

/-- `if r.pr_url` -/
def SessionRow.hasPr (r : SessionRow) : Bool := (truthy r.prUrl).isSome

def computeDashboardMetrics (V : ValueSettings) (rows : List SessionRow) : DashboardMetrics :=
  let terminal := rows.countP fun r => r.status.terminal
  -- not `prCreated`, which counts active sessions as well
  let successfulTerminal := rows.countP fun r => r.status.terminal && r.hasPr
  let successRate : ℚ := if terminal = 0 then 0 else successfulTerminal / terminal
  let hoursSaved := successfulTerminal * V.hoursSavedPerCompletedSession
  { totalSessions := rows.length
    activeSessions := rows.countP fun r => r.status.active
    completedSessions := rows.countP fun r => r.status = .completed
    failedSessions := rows.countP fun r => r.status = .failed
    cancelledSessions := rows.countP fun r => r.status = .cancelled
    needsHuman := rows.countP fun r => needsHumanStatuses.contains r.status
    prCreated := rows.countP SessionRow.hasPr
    completedWithoutPr := rows.countP fun r => r.status = .completed && !r.hasPr
    totalAcusConsumed := roundTo 2 (rows.map (·.acusConsumed)).sum
    successRate := roundTo 3 successRate
    estimatedHoursSaved := hoursSaved
    estimatedDollarsSaved := truncate (hoursSaved * V.engineerHourlyRateUsd)
    byLabel := Tally.tally (rows.filterMap fun r => truthy r.label)
    lastActivityAt := rows.head?.map (·.startedAt) }

/-! ## Routes -/

/-- `GET /metrics` -/
def metricsEndpoint (V : ValueSettings) (t : Sessions) : DashboardMetrics :=
  computeDashboardMetrics V (t.listRecent 10000)

/-- What the API shows of a row: neither the work key nor the prompt, and of what Devin reports
neither the list of pull requests nor the structured output. -/
structure SessionDict where
  id : ℕ
  devinSessionId : Option String
  devinUrl : Option String
  triggerType : TriggerType
  triggerRef : String
  issueNumber : Option ℤ
  label : Option String
  parentDevinSessionId : Option String
  status : Status
  rawStatus : Option String
  prUrl : Option String
  acusConsumed : ℚ
  startedAt : Time
  completedAt : Option Time
  lastPolledAt : Option Time
  errorMessage : Option String
  fixAttemptNumber : ℕ

def sessionToDict (r : SessionRow) : SessionDict where
  id := r.id
  devinSessionId := r.devinSessionId
  devinUrl := r.devinUrl
  triggerType := r.triggerType
  triggerRef := r.triggerRef
  issueNumber := r.issueNumber
  label := r.label
  parentDevinSessionId := r.parentDevinSessionId
  status := r.status
  rawStatus := r.rawStatus
  prUrl := r.prUrl
  acusConsumed := r.acusConsumed
  startedAt := r.startedAt
  completedAt := r.completedAt
  lastPolledAt := r.lastPolledAt
  errorMessage := r.errorMessage
  fixAttemptNumber := r.fixAttemptNumber

/-- `GET /sessions` -/
def sessionsEndpoint (limit : ℤ) (t : Sessions) : List SessionDict :=
  (t.listRecent limit).map sessionToDict

end Remediation
