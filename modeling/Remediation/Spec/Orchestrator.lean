import Remediation.Spec.Dispatcher

/-!
# The poller

One tick (`app/orchestrator.py`): retry queued events as far as there is room, then
ask Devin about every session that is not terminal and write back what has changed.
A tick ends early only when `datetime.fromtimestamp` rejects an `updated_at`, or when
there is no Devin client. That is for answers as they are documented: `AnyAnswer` has the others,
which end a tick also where SQLite cannot store them.
-/

namespace Remediation

open Interaction PyText

structure Summary where
  queueSeen : ℕ := 0
  queueRetried : ℕ := 0
  queueDispatched : ℕ := 0
  polled : ℕ := 0
  updated : ℕ := 0
  timedOut : ℕ := 0
  errors : ℕ := 0
  merged : ℕ := 0

/-! ## The queue -/

def retryQueued (S : Settings) : List WebhookEvent → Summary → M Summary
  | [], summary => return summary
  | row :: rest, summary => do
    let result ← dispatch S row.eventType row.action row.payload
    match result with
    -- a handler that raises leaves the event queued
    | .error _ => retryQueued S rest summary
    | .ok outcome =>
      let summary := { summary with queueRetried := summary.queueRetried + 1 }
      if !startsWith outcome.text "queued:" then do
        perform (.markProcessed row.deliveryId outcome.text)
        retryQueued S rest { summary with queueDispatched := summary.queueDispatched + 1 }
      else retryQueued S rest summary

def drainQueue (S : Settings) : M Summary := do
  let active ← perform .countActive
  if S.maxConcurrentSessions ≤ active then return {}
  else do
    let queued ← perform (.listQueued (S.maxConcurrentSessions - active))
    retryQueued S queued { queueSeen := queued.length }

/-! ## One row -/

/-- The year of a day that is given by its number since the epoch. -/
def yearOf (day : ℤ) : ℤ :=
  -- the years of an era of 400 begin in March here, so that a leap day is the last one of its year
  let day := day + 719468
  let ofEra := day % 146097
  let year := (ofEra - ofEra / 1460 + ofEra / 36524 - ofEra / 146096) / 365
  let ofYear := ofEra - (365 * year + year / 4 - year / 100)
  day / 146097 * 400 + year + if ofYear < 306 then 0 else 1

-- the first and the last day that a `datetime` has, and their neighbours
example : [-719163, -719162, 2932896, 2932897].map yearOf = [0, 1, 9999, 10000] := by decide

/-- What `datetime.fromtimestamp` raises: a number is too large for a `time_t`, or its year for an `int`,
or for a `datetime`. -/
def RawTime.conversionError : RawTime → Exc
  | .num q =>
    let seconds := roundHalfEven (q * 1000000) / 1000000
    let year := yearOf (seconds / 86400)
    if seconds < -2 ^ 63 ∨ 2 ^ 63 ≤ seconds then
      ⟨"OverflowError", "timestamp out of range for platform time_t"⟩
    else if year < 1900 - 2 ^ 31 ∨ 1900 + 2 ^ 31 ≤ year then
      ⟨"OSError", "[Errno 75] Value too large for defined data type"⟩
    else ⟨"ValueError", s!"year {year} is out of range"⟩
  | _ => ⟨"TypeError", "object cannot be interpreted as an integer"⟩

/-- Microseconds since Devin's `updated_at`, or since the last poll if there is none. -/
def inactivityAt (row : SessionRow) (remote : SessionDetails) (t : Time) : Except Exc ℤ :=
  if remote.updatedAt.truthy then
    match fromTimestamp remote.updatedAt with
    | some updatedAt => .ok (t - updatedAt)
    | none => .error remote.updatedAt.conversionError
  else .ok (t - row.lastPolledAt.getD row.startedAt)

/-- `changed`: something that the tick would write differs from the row. -/
def SessionRow.differs (row : SessionRow) (remote : SessionDetails) : Bool :=
  remote.status ≠ row.status || some remote.rawStatus ≠ row.rawStatus ||
    remote.firstPrUrl ≠ row.prUrl || remote.acusConsumed ≠ row.acusConsumed ||
    remote.structuredOutputJson ≠ row.structuredOutputJson

/-- The columns a changed row gets in any case. -/
def pollUpdate (remote : SessionDetails) (polledAt : Time) : Update where
  status := some remote.status
  rawStatus := some remote.rawStatus
  acusConsumed := some remote.acusConsumed
  lastPolledAt := some polledAt
  prUrl := remote.firstPrUrl
  prUrlsJson := if remote.pullRequests = [] then none
    else some (remote.pullRequests.map fun p => (p.prUrl, p.prState))
  structuredOutputJson := remote.structuredOutputJson

def writeBack (summary : Summary) (row : SessionRow) (sessionId : String)
    (remote : SessionDetails) : M Summary := do
  let polledAt ← perform .now
  -- neither the state of the pull request nor the present status of the row is compared
  if !row.differs remote then do
    perform (.update row.id { lastPolledAt := some polledAt })
    return summary
  else
    let updates := pollUpdate remote polledAt
    if remote.prState = some "merged" ∧ row.status.terminal = false then do
      -- completed whatever the session's status says, and whether or not this succeeds
      let _ ← perform (.terminateSession sessionId)
      let t ← perform .now
      perform (.update row.id { updates with status := some .completed, completedAt := some t })
      return { summary with merged := summary.merged + 1, updated := summary.updated + 1 }
    else if remote.prState = some "closed" ∧ row.status.terminal = false then do
      -- the session is not told to stop here
      let t ← perform .now
      perform (.update row.id
        { updates with
          status := some .cancelled
          errorMessage := some "pr_closed_without_merge"
          completedAt := some t })
      return { summary with updated := summary.updated + 1 }
    else if remote.status.terminal ∧ row.completedAt = none then do
      let t ← perform .now
      perform (.update row.id { updates with completedAt := some t })
      return { summary with updated := summary.updated + 1 }
    else do
      perform (.update row.id updates)
      return { summary with updated := summary.updated + 1 }

/-- `inactive` is in microseconds. -/
def timeOut (row : SessionRow) (sessionId : String) (inactive : ℤ) : M Unit := do
  let _ ← perform (.terminateSession sessionId)
  let completedAt ← perform .now
  let polledAt ← perform .now
  perform (.update row.id
    { status := some .timeout
      errorMessage := some s!"inactive for {inactive / 1000000}s"
      completedAt := some completedAt
      lastPolledAt := some polledAt })

/-- What the tick does about a session that should be working. -/
def timeOutOrWriteBack (S : Settings) (summary : Summary) (row : SessionRow) (sessionId : String)
    (remote : SessionDetails) (inactive : ℤ) : M Summary :=
  if (S.sessionTimeoutSeconds : ℤ) * 1000000 < inactive then do
    timeOut row sessionId inactive
    return { summary with timedOut := summary.timedOut + 1 }
  else writeBack summary row sessionId remote

/-- What the tick does about one answer of Devin. -/
def processAnswer (S : Settings) (summary : Summary) (row : SessionRow) (sessionId : String)
    (remote : SessionDetails) : M (Except Exc Summary) :=
  if remote.status = .pending ∨ remote.status = .running then do
    let t ← perform .now
    match inactivityAt row remote t with
    -- uncaught: the tick ends, and the rows after this one are not polled
    | .error exc => return .error exc
    | .ok inactive => do
      let summary ← timeOutOrWriteBack S summary row sessionId remote inactive
      return .ok summary
  else do
    let summary ← writeBack summary row sessionId remote
    return .ok summary

def pollRow (S : Settings) (summary : Summary) (row : SessionRow) : M (Except Exc Summary) :=
  match truthy row.devinSessionId with
  -- no session yet: the handler is still at work
  | none => return .ok summary
  | some sessionId => do
    let summary := { summary with polled := summary.polled + 1 }
    let answer ← perform (.getSession sessionId)
    match answer with
    -- only this row is skipped
    | .error _ => return .ok { summary with errors := summary.errors + 1 }
    | .ok data => processAnswer S summary row sessionId (fromApiResponse data)

/-! ## A tick -/

def pollRows (S : Settings) : List SessionRow → Summary → M (Except Exc Summary)
  | [], summary => return .ok summary
  | row :: rest, summary => do
    let result ← pollRow S summary row
    match result with
    | .error exc => return .error exc
    | .ok summary => pollRows S rest summary

def pollOnce (S : Settings) : M (Except Exc Summary) := do
  -- first the events that wait longest
  let summary ← drainQueue S
  let client ← perform .getClient
  match client with
  | .error exc => return .error exc
  | .ok () => do
    let rows ← perform .listNonTerminal
    pollRows S rows summary

end Remediation
