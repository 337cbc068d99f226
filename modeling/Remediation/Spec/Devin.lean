import Mathlib.Algebra.Order.Floor.Ring
import Mathlib.Data.Rat.Floor
import Remediation.Lib.Text
import Remediation.Spec.Sessions

/-!
# What Devin says

The data of the v3 API as the client reads it (`app/devin/types.py`): the status
map, and a session's details out of an API response. Only the parts of a response
that the poller uses are here.
-/

namespace Remediation

open PyText

/-- An exception: `type(exc).__name__` and `str(exc)`. -/
structure Exc where
  name : String
  message : String
  deriving DecidableEq

/-- `STATUS_MAP`, with `UNKNOWN_STATUS` for everything else. -/
def mapStatus (raw : String) : Status :=
  if raw = "new" then .pending
  else if raw = "claimed" then .pending
  else if raw = "running" then .running
  else if raw = "exit" then .completed
  else if raw = "error" then .failed
  else if raw = "suspended" then .cancelled
  else if raw = "resuming" then .running
  else .needsAttention

/-- What `create_session` makes of an answer. Both values are taken to be texts that SQLite can store, as
documented. The code sees to neither. -/
structure SessionCreated where
  devinSessionId : String
  devinUrl : String

structure PullRequestRef where
  prUrl : String
  prState : Option String
  deriving DecidableEq

/-- The value of `updated_at` in a response: missing, null or otherwise false; a
number; or anything else that counts as true. -/
inductive RawTime
  | absent
  | num (q : ℚ)
  | other

def RawTime.truthy : RawTime → Bool
  | .absent => false
  | .num q => q ≠ 0
  | .other => true

/-- Round to the nearest integer, ties to even. -/
def roundHalfEven (q : ℚ) : ℤ :=
  let f := ⌊q⌋
  if q - f < 1 / 2 then f
  else if 1 / 2 < q - f then f + 1
  else if f % 2 = 0 then f else f + 1

/-- `datetime.fromtimestamp(t, tz=UTC)`: raises on what is no number, and outside the
years 1 to 9999. -/
def fromTimestamp : RawTime → Option Time
  | .num q =>
    let t := roundHalfEven (q * 1000000)
    -- from 0001-01-01 to 9999-12-31
    if -62135596800000000 ≤ t ∧ t < 253402300800000000 then some t else none
  | _ => none

structure ApiPullRequest where
  prUrl : Option String
  prState : Option String

/-- The JSON object of `GET /sessions/<id>`. The values are taken to be of the documented types, and
such that SQLite can store them. The code sees to neither: `AnyAnswer` has what it does with others.
`structuredOutput` is the text of a JSON object with sorted keys; anything but an object counts as
missing. -/
structure ApiSession where
  status : Option String := none
  acusConsumed : Option ℚ := none
  pullRequests : List ApiPullRequest := []
  structuredOutput : Option String := none
  updatedAt : RawTime := .absent

structure SessionDetails where
  status : Status
  rawStatus : String
  acusConsumed : ℚ
  pullRequests : List PullRequestRef
  structuredOutput : Option String
  updatedAt : RawTime

/-- `SessionDetails.from_api_response`. -/
def fromApiResponse (data : ApiSession) : SessionDetails :=
  let rawStatus := (truthy data.status).getD "unknown"
  { status := mapStatus rawStatus
    rawStatus := rawStatus
    acusConsumed := data.acusConsumed.getD 0
    -- an entry without a URL is dropped, and with it its state
    pullRequests := data.pullRequests.filterMap fun p =>
      (truthy p.prUrl).map fun url => ⟨url, p.prState⟩
    structuredOutput := data.structuredOutput
    updatedAt := data.updatedAt }

namespace SessionDetails

def firstPrUrl (d : SessionDetails) : Option String := d.pullRequests.head?.map (·.prUrl)

/-- `remote.pull_requests[0].pr_state`, if there is a pull request. -/
def prState (d : SessionDetails) : Option String := d.pullRequests.head?.bind (·.prState)

/-- The text to store of the structured output: an empty object counts as none. -/
def structuredOutputJson (d : SessionDetails) : Option String :=
  d.structuredOutput.filter (· ≠ "{}")

end SessionDetails

/-- Devin reports the end of a session. -/
def ApiSession.ended (data : ApiSession) : Bool :=
  data.status = some "exit" || data.status = some "error" || data.status = some "suspended"

/-- The status map sends exactly the reports of an end to terminal statuses. -/
theorem fromApiResponse_terminal (data : ApiSession) :
    (fromApiResponse data).status.terminal = data.ended := by
  unfold fromApiResponse ApiSession.ended
  dsimp only
  cases hs : truthy data.status with
  | none =>
    have hne : ∀ x, x ≠ "" → data.status ≠ some x := fun x hx he => by
      have := truthy_eq_some.2 ⟨he, hx⟩
      rw [hs] at this; cases this
    simp [hne, mapStatus, Status.terminal, terminalStatuses]
  | some raw =>
    obtain ⟨hd, -⟩ := truthy_eq_some.1 hs
    rw [hd]
    simp only [Option.getD_some, Option.some.injEq]
    unfold mapStatus
    split_ifs <;> simp_all [Status.terminal, terminalStatuses]

end Remediation
