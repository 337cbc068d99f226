import Remediation.Spec.Json
import Remediation.Spec.Orchestrator

/-!
# Answers of any shape

`Devin` and `Orchestrator` take an answer about a session to be as it is documented: typed, and of
values that SQLite can store. Nothing in the code sees to that. Here an answer is any JSON value:
`from_api_response` raises on some, inside the `try` around `get_session`, and accepts others whose
parts go unchecked to `datetime.fromtimestamp` and to the UPDATE of the row (`app/devin/types.py`,
`poll_once` in `app/orchestrator.py`).

What the clock shows is given row by row. Whether a session can be told to stop is of no
consequence for the rows, and is left out.
-/

namespace Remediation

open Interaction PyText

/-- What is used of the standard library, and how SQLite writes a REAL as a text. -/
structure Codec where
  /-- `float(s)` -/
  float : PyStr → Except Exc PyFloat
  /-- `float(i)`, where it is not too large -/
  nearestFloat : ℤ → ℚ
  /-- `json.dumps(x)` -/
  dumps : Json → String
  /-- `json.dumps(x, sort_keys=True)` -/
  dumpsSorted : Json → String
  realText : PyFloat → String

namespace AnyAnswer

/-! ## `SessionDetails.from_api_response` -/

structure PullRequestRef where
  prUrl : Json
  prState : Json

structure SessionDetails where
  status : Status
  rawStatus : Json
  acusConsumed : PyFloat
  pullRequests : List PullRequestRef
  structuredOutput : Option Json
  updatedAt : Json

/-- `x or default` -/
def orElse (x : Option Json) (default : Json) : Json :=
  match x with
  | some x => if x.truthy then x else default
  | none => default

/-- `list(x)` -/
def iterate : Json → Except Exc (List Json)
  | .str s => .ok (s.map fun c => .str [c])
  | .list elems => .ok elems
  | .dict items => .ok (items.map fun p => .str p.1)
  | x => .error ⟨"TypeError", s!"'{x.typeName}' object is not iterable"⟩

/-- `map_status`: a list or a dictionary has no hash, and no key of the map is a number. -/
def mapStatus (raw : Json) : Except Exc Status :=
  match raw with
  | .str s => .ok (Remediation.mapStatus (String.ofList (s.map Char.ofNat)))
  | .list _ | .dict _ => .error ⟨"TypeError", s!"unhashable type: '{raw.typeName}'"⟩
  | _ => .ok .needsAttention

/-- `float(x)`; an integer is too large where the nearest float would be 2 ** 1024. -/
def toFloat (codec : Codec) (x : Json) : Except Exc PyFloat :=
  match x with
  | .bool b => .ok (.finite (if b then 1 else 0))
  | .int i =>
    if |i| < 2 ^ 1024 - 2 ^ 970 then .ok (.finite (codec.nearestFloat i))
    else .error ⟨"OverflowError", "int too large to convert to float"⟩
  | .float x => .ok x
  | .str s => codec.float s
  | _ =>
    .error ⟨"TypeError",
      s!"float() argument must be a string or a real number, not '{x.typeName}'"⟩

/-- An entry of `pull_requests`: one without a URL is dropped. -/
def pullRequestRef (p : Json) : Except Exc (Option PullRequestRef) := do
  let prUrl := (← p.get "pr_url").getD .null
  let prState := (← p.get "pr_state").getD .null
  return if prUrl.truthy then some ⟨prUrl, prState⟩ else none

def fromApiResponse (codec : Codec) (data : Json) : Except Exc SessionDetails := do
  let rawStatus := orElse (← data.get "status") (.text "unknown")
  let prs ← iterate (orElse (← data.get "pull_requests") (.list []))
  let pullRequests ← prs.mapM pullRequestRef
  let so ← data.get "structured_output"
  let _ ← match ← data.get "session_id" with
    | some sessionId => .ok sessionId
    | none => .error ⟨"KeyError", "'session_id'"⟩
  let status ← mapStatus rawStatus
  let acusConsumed ← toFloat codec (orElse (← data.get "acus_consumed") (.int 0))
  let _ ← iterate (orElse (← data.get "child_session_ids") (.list []))
  return {
    status, rawStatus, acusConsumed
    pullRequests := pullRequests.filterMap id
    structuredOutput := match so with
      | some (.dict items) => some (.dict items)
      | _ => none
    updatedAt := (← data.get "updated_at").getD .null }

namespace SessionDetails

variable (d : SessionDetails)

def firstPrUrl : Option Json := d.pullRequests.head?.map (·.prUrl)

def prState : Json := (d.pullRequests.head?.map (·.prState)).getD .null

/-- `remote_so_json` -/
def structuredOutputJson (codec : Codec) : Option String :=
  (d.structuredOutput.filter Json.truthy).map codec.dumpsSorted

/-- The text for `pr_urls_json`, if there are pull requests. -/
def prUrlsJson (codec : Codec) : Option String :=
  if d.pullRequests.isEmpty then none
  else some <| codec.dumps <| .list <| d.pullRequests.map fun p =>
    .dict [(pyStr "pr_url", p.prUrl), (pyStr "pr_state", p.prState)]

end SessionDetails

/-! ## The table -/

/-- A row, with what SQLite has in the columns `acus_consumed` and `pr_urls_json`. The two fields that
`SessionRow` has for them have no room for all that, and are left empty here. -/
structure Row extends SessionRow where
  acus : Option PyFloat
  prUrls : Option String

abbrev Rows : Type := Table Row String (fun r => r.id) fun r => r.workKey

def Row.PolledBefore (r s : Row) : Prop := r.toSessionRow.PolledBefore s.toSessionRow

instance : DecidableRel Row.PolledBefore := fun r s =>
  inferInstanceAs (Decidable (r.toSessionRow.PolledBefore s.toSessionRow))

/-- `list_non_terminal` -/
def listNonTerminal (t : Rows) : List Row :=
  (t.rows.filter fun r => r.status.active).insertionSort Row.PolledBefore

/-- The values of an UPDATE that the poller makes, each where its column is set. -/
structure Update where
  status : Option Status := none
  rawStatus : Option Json := none
  acusConsumed : Option PyFloat := none
  lastPolledAt : Time
  prUrl : Option Json := none
  prUrlsJson : Option String := none
  structuredOutputJson : Option String := none
  completedAt : Option Time := none
  errorMessage : Option String := none

/-- What a column of type TEXT makes of a value. -/
def asText (codec : Codec) : SqlValue → Option String
  | .null => none
  | .integer i => some (toString i)
  | .real x => some (codec.realText x)
  | .text s => some (String.ofList (s.map Char.ofNat))

/-- A value for a column of type TEXT, if it is set. -/
def textColumn (codec : Codec) (param : ℕ) : Option Json → Except Exc (Option (Option String))
  | none => .ok none
  | some x => (bindValue param x).map fun v => some (asText codec v)

/-- What a column of type REAL makes of a float. -/
def realColumn (x : PyFloat) : Option PyFloat := if x = .nan then none else some x

/-- The same, as SQLite has the values. -/
structure Columns where
  status : Option Status
  rawStatus : Option (Option String)
  acus : Option (Option PyFloat)
  lastPolledAt : Time
  prUrl : Option (Option String)
  prUrls : Option String
  structuredOutputJson : Option String
  completedAt : Option Time
  errorMessage : Option String

/-- All parameters are bound first. Those that are not looked at here can be: the texts are ASCII. -/
def Update.bind (codec : Codec) (u : Update) : Except Exc Columns := do
  let rawStatus ← textColumn codec 2 u.rawStatus
  let prUrl ← textColumn codec 5 u.prUrl
  return {
    status := u.status
    rawStatus
    acus := u.acusConsumed.map realColumn
    lastPolledAt := u.lastPolledAt
    prUrl
    prUrls := u.prUrlsJson
    structuredOutputJson := u.structuredOutputJson
    completedAt := u.completedAt
    errorMessage := u.errorMessage }

def Columns.apply (c : Columns) (r : Row) : Row :=
  { r with
    status := c.status.getD r.status
    rawStatus := c.rawStatus.getD r.rawStatus
    acus := c.acus.getD r.acus
    lastPolledAt := some c.lastPolledAt
    prUrl := c.prUrl.getD r.prUrl
    prUrls := c.prUrls.or r.prUrls
    structuredOutputJson := c.structuredOutputJson.or r.structuredOutputJson
    completedAt := c.completedAt.or r.completedAt
    errorMessage := c.errorMessage.or r.errorMessage }

def Rows.update (pk : ℕ) (c : Columns) (t : Rows) : Rows :=
  Table.update t pk c.apply (fun _ => rfl) fun _ => rfl

theorem Rows.get_update {t : Rows} {pk : ℕ} {c : Columns} (j : ℕ) :
    (t.update pk c).get j = (t.get j).map fun r => if j = pk then c.apply r else r :=
  Table.get_update j

/-! ## One row -/

/-- What the clock shows while the tick is at a row: when the inactivity is computed, and in the
dates that are written. -/
structure Moment where
  now : Time
  polledAt : Time
  completedAt : Time

/-- The number that `fromtimestamp` is given, if it is one. -/
def rawTime : Json → RawTime
  | .bool b => .num (if b then 1 else 0)
  | .int i => .num i
  | .float (.finite q) => .num q
  | x => if x.truthy then .other else .absent

/-- What `datetime.fromtimestamp` raises. -/
def conversionError : Json → Exc
  | .float .nan => ⟨"ValueError", "Invalid value NaN (not a number)"⟩
  | .float (.infinity _) => ⟨"OverflowError", "timestamp out of range for platform time_t"⟩
  | .str _ => ⟨"TypeError", "'str' object cannot be interpreted as an integer"⟩
  | .list _ => ⟨"TypeError", "'list' object cannot be interpreted as an integer"⟩
  | .dict _ => ⟨"TypeError", "'dict' object cannot be interpreted as an integer"⟩
  | x => (rawTime x).conversionError

def inactivityAt (row : Row) (remote : SessionDetails) (t : Time) : Except Exc ℤ :=
  if remote.updatedAt.truthy then
    match fromTimestamp (rawTime remote.updatedAt) with
    | some updatedAt => .ok (t - updatedAt)
    | none => .error (conversionError remote.updatedAt)
  else .ok (t - row.lastPolledAt.getD row.startedAt)

/-- `x == s`, where `s` has been read from a column of type TEXT. -/
def isText : Json → Option String → Bool
  | .null, none => true
  | .str p, some s => p = pyStr s
  | _, _ => false

/-- `changed` -/
def differs (codec : Codec) (row : Row) (remote : SessionDetails) : Bool :=
  remote.status ≠ row.status || !isText remote.rawStatus row.rawStatus ||
    !isText (remote.firstPrUrl.getD .null) row.prUrl ||
    -- a NaN differs from everything
    (remote.acusConsumed = .nan || remote.acusConsumed ≠ row.acus.getD (.finite 0)) ||
    remote.structuredOutputJson codec ≠ row.structuredOutputJson

def pollUpdate (codec : Codec) (remote : SessionDetails) (polledAt : Time) : Update where
  status := some remote.status
  rawStatus := some remote.rawStatus
  acusConsumed := some remote.acusConsumed
  lastPolledAt := polledAt
  prUrl := remote.firstPrUrl
  prUrlsJson := remote.prUrlsJson codec
  structuredOutputJson := remote.structuredOutputJson codec

/-- The UPDATE for an answer in time. -/
def writeBack (codec : Codec) (row : Row) (remote : SessionDetails) (m : Moment) : Update :=
  if !differs codec row remote then { lastPolledAt := m.polledAt }
  else
    let updates := pollUpdate codec remote m.polledAt
    if isText remote.prState (some "merged") ∧ row.status.terminal = false then
      { updates with status := some .completed, completedAt := some m.completedAt }
    else if isText remote.prState (some "closed") ∧ row.status.terminal = false then
      { updates with
        status := some .cancelled
        errorMessage := some "pr_closed_without_merge"
        completedAt := some m.completedAt }
    else if remote.status.terminal ∧ row.completedAt = none then
      { updates with completedAt := some m.completedAt }
    else updates

/-- `inactive` is in microseconds. -/
def timeOut (inactive : ℤ) (m : Moment) : Update where
  status := some .timeout
  errorMessage := some s!"inactive for {inactive / 1000000}s"
  completedAt := some m.completedAt
  lastPolledAt := m.polledAt

/-- The UPDATE for an answer, or what is raised outside the `try`. -/
def processAnswer (codec : Codec) (S : Settings) (row : Row) (remote : SessionDetails) (m : Moment) :
    Except Exc Update :=
  if remote.status = .pending ∨ remote.status = .running then do
    let inactive ← inactivityAt row remote m.now
    if (S.sessionTimeoutSeconds : ℤ) * 1000000 < inactive then return timeOut inactive m
    else return writeBack codec row remote m
  else return writeBack codec row remote m

/-- What `get_session` returns about the session of a row, if there is one, and nothing is raised. -/
def answer (codec : Codec) (resp : String → Except Exc Json) (row : Row) : Option SessionDetails :=
  match truthy row.devinSessionId with
  | none => none
  | some sessionId =>
    match resp sessionId >>= fromApiResponse codec with
    | .error _ => none
    | .ok remote => some remote

/-- The table after a row, or what ends the tick. -/
def pollRow (codec : Codec) (S : Settings) (resp : String → Except Exc Json) (clock : ℕ → Moment)
    (row : Row) (t : Rows) : Except Exc Rows :=
  match answer codec resp row with
  | none => .ok t
  | some remote => do
    let u ← processAnswer codec S row remote (clock row.id)
    let columns ← u.bind codec
    return t.update row.id columns

/-! ## A tick -/

def pollRows (codec : Codec) (S : Settings) (resp : String → Except Exc Json) (clock : ℕ → Moment) :
    List Row → Rows → Except Exc Unit × Rows
  | [], t => (.ok (), t)
  | row :: rest, t =>
    match pollRow codec S resp clock row t with
    | .error exc => (.error exc, t)
    | .ok t => pollRows codec S resp clock rest t

/-- What the columns that `Row` adds have in a row that is new. -/
structure Cells where
  acus : Option PyFloat := some (.finite 0)
  prUrls : Option String := none

def Cells.row (cells : Cells) (r : SessionRow) : Row :=
  { r with acusConsumed := 0, prUrlsJson := none, acus := cells.acus, prUrls := cells.prUrls }

/-- The table that the rows are read from, once the queue has been drained: `stored` is what was there
before the tick. -/
def found (env : Outside) (S : Settings) (stored : ℕ → Cells) (w : World) : Rows :=
  let drained := ((drainQueue S).eval (exec env) w).2.sessions
  { rows := drained.rows.map fun r =>
      (if r.id < w.sessions.next then stored r.id else {}).row r
    next := drained.next
    ids := by rw [List.map_map]; exact drained.ids
    fresh := by simpa [Cells.row] using drained.fresh
    keys := by rw [List.map_map]; exact drained.keys }

/-- `poll_once`, and the table after it. `resp` is what Devin answers about a session, or what the
client raises. -/
def pollOnce (codec : Codec) (env : Outside) (S : Settings) (stored : ℕ → Cells)
    (resp : String → Except Exc Json) (clock : ℕ → Moment) (w : World) :
    Except Exc Unit × Rows :=
  let t := found env S stored w
  match (exec env .getClient ((drainQueue S).eval (exec env) w).2).1 with
  | .error exc => (.error exc, t)
  | .ok () => pollRows codec S resp clock (listNonTerminal t) t

end AnyAnswer

end Remediation
