import Mathlib.Data.List.Sort
import Mathlib.Data.Prod.Lex
import Mathlib.Data.Rat.Defs
import Remediation.Lib.Sort
import Remediation.Lib.Table

/-!
# The `sessions` table

Devin work units (`app/db/sessions.py`). A table carries its two constraints, the
primary key and the unique index on `work_key`, as fields (`Table`). The columns
that `update` may set are the fields of `Update`: neither `id` nor `work_key` is
among them.

Times are microseconds since the epoch. `pr_urls_json` and `structured_output_json`
hold JSON text in the database; here the first is the list it encodes.
-/

namespace Remediation

open Interaction

/-- Microseconds since the epoch, in UTC. -/
abbrev Time : Type := ℤ

inductive Status
  | reserving | pending | running | blocked | needsAttention
  | completed | failed | cancelled | timeout
  deriving DecidableEq, Repr

def Status.text : Status → String
  | reserving => "reserving"
  | pending => "pending"
  | running => "running"
  | blocked => "blocked"
  | needsAttention => "needs_attention"
  | completed => "completed"
  | failed => "failed"
  | cancelled => "cancelled"
  | timeout => "timeout"

def activeStatuses : List Status := [.reserving, .pending, .running, .blocked, .needsAttention]

def terminalStatuses : List Status := [.completed, .failed, .cancelled, .timeout]

/-- `status in ACTIVE_STATUSES`. -/
def Status.active (s : Status) : Bool := activeStatuses.contains s

/-- `status in TERMINAL_STATUSES`. -/
def Status.terminal (s : Status) : Bool := terminalStatuses.contains s

theorem Status.terminal_eq (s : Status) : s.terminal = !s.active := by cases s <;> decide

inductive TriggerType
  | cveIssue | ciFailure
  deriving DecidableEq, Repr

structure SessionRow where
  id : ℕ
  workKey : String
  devinSessionId : Option String := none
  devinUrl : Option String := none
  triggerType : TriggerType
  triggerRef : String
  issueNumber : Option ℤ := none
  label : Option String := none
  parentDevinSessionId : Option String := none
  promptSnapshot : Option String := none
  status : Status
  rawStatus : Option String := none
  prUrl : Option String := none
  prUrlsJson : Option (List (String × Option String)) := none
  acusConsumed : ℚ := 0
  startedAt : Time
  completedAt : Option Time := none
  lastPolledAt : Option Time := none
  errorMessage : Option String := none
  fixAttemptNumber : ℕ := 0
  structuredOutputJson : Option String := none

abbrev Sessions : Type := Table SessionRow String SessionRow.id SessionRow.workKey

def makeWorkKey (repo : String) (issueNumber : ℤ) (label : String) : String :=
  s!"issue:{repo}:{issueNumber}:{label}"

def makeCiFixWorkKey (repo workflowRunId : String) : String := s!"ci_fix:{repo}:{workflowRunId}"

/-! ## Reserving -/

/-- The columns `try_reserve` inserts. -/
structure Reservation where
  workKey : String
  triggerType : TriggerType
  triggerRef : String
  issueNumber : Option ℤ := none
  label : Option String := none
  parentDevinSessionId : Option String := none
  fixAttemptNumber : ℕ := 0

/-- `CURRENT_TIMESTAMP` has a resolution of one second. -/
def currentTimestamp (now : Time) : Time := now / 1000000 * 1000000

/-- The row a reservation inserts; the other columns are NULL or have their default. -/
def Reservation.row (res : Reservation) (now : Time) (id : ℕ) : SessionRow where
  id := id
  workKey := res.workKey
  triggerType := res.triggerType
  triggerRef := res.triggerRef
  issueNumber := res.issueNumber
  label := res.label
  parentDevinSessionId := res.parentDevinSessionId
  fixAttemptNumber := res.fixAttemptNumber
  status := .reserving
  startedAt := currentTimestamp now

def Sessions.tryReserve (res : Reservation) (now : Time) (t : Sessions) : Option (ℕ × Sessions) :=
  t.insert (res.row now) fun _ => rfl

/-! ## Updating -/

/-- The columns in `_UPDATABLE_COLUMNS`, each with the value to set, if any. -/
structure Update where
  status : Option Status := none
  rawStatus : Option String := none
  prUrl : Option String := none
  prUrlsJson : Option (List (String × Option String)) := none
  acusConsumed : Option ℚ := none
  completedAt : Option Time := none
  lastPolledAt : Option Time := none
  errorMessage : Option String := none
  parentDevinSessionId : Option String := none
  devinSessionId : Option String := none
  devinUrl : Option String := none
  promptSnapshot : Option String := none
  structuredOutputJson : Option String := none

def Update.apply (u : Update) (r : SessionRow) : SessionRow :=
  { r with
    status := u.status.getD r.status
    rawStatus := u.rawStatus.or r.rawStatus
    prUrl := u.prUrl.or r.prUrl
    prUrlsJson := u.prUrlsJson.or r.prUrlsJson
    acusConsumed := u.acusConsumed.getD r.acusConsumed
    completedAt := u.completedAt.or r.completedAt
    lastPolledAt := u.lastPolledAt.or r.lastPolledAt
    errorMessage := u.errorMessage.or r.errorMessage
    parentDevinSessionId := u.parentDevinSessionId.or r.parentDevinSessionId
    devinSessionId := u.devinSessionId.or r.devinSessionId
    devinUrl := u.devinUrl.or r.devinUrl
    promptSnapshot := u.promptSnapshot.or r.promptSnapshot
    structuredOutputJson := u.structuredOutputJson.or r.structuredOutputJson }

@[simp] theorem Update.apply_id (u : Update) (r : SessionRow) : (u.apply r).id = r.id := rfl

@[simp] theorem Update.apply_workKey (u : Update) (r : SessionRow) :
    (u.apply r).workKey = r.workKey := rfl

@[simp] theorem Update.apply_status (u : Update) (r : SessionRow) :
    (u.apply r).status = u.status.getD r.status := rfl

@[simp] theorem Update.apply_devinSessionId (u : Update) (r : SessionRow) :
    (u.apply r).devinSessionId = u.devinSessionId.or r.devinSessionId := rfl

@[simp] theorem Update.apply_completedAt (u : Update) (r : SessionRow) :
    (u.apply r).completedAt = u.completedAt.or r.completedAt := rfl

@[simp] theorem Update.apply_triggerType (u : Update) (r : SessionRow) :
    (u.apply r).triggerType = r.triggerType := rfl

@[simp] theorem Update.apply_triggerRef (u : Update) (r : SessionRow) :
    (u.apply r).triggerRef = r.triggerRef := rfl

@[simp] theorem Update.apply_fixAttemptNumber (u : Update) (r : SessionRow) :
    (u.apply r).fixAttemptNumber = r.fixAttemptNumber := rfl

def Sessions.update (pk : ℕ) (u : Update) (t : Sessions) : Sessions :=
  Table.update t pk u.apply (fun _ => rfl) fun _ => rfl

namespace Sessions

variable {t : Sessions} {pk : ℕ} {u : Update}

theorem update_rows :
    (t.update pk u).rows = t.rows.map fun r => if r.id = pk then u.apply r else r := rfl

theorem mem_update {r : SessionRow} :
    r ∈ (t.update pk u).rows ↔
      (r ∈ t.rows ∧ r.id ≠ pk) ∨ ∃ s ∈ t.rows, s.id = pk ∧ r = u.apply s :=
  Table.mem_update

theorem update_workKeys : (t.update pk u).rows.map (·.workKey) = t.rows.map (·.workKey) :=
  Table.update_keys

theorem get_update (j : ℕ) :
    (t.update pk u).get j = (t.get j).map fun r => if j = pk then u.apply r else r :=
  Table.get_update j

/-- **What a successful reservation does**: the key was free, and the new row comes last. -/
theorem tryReserve_eq_some {t' : Sessions} {res : Reservation} {now : Time}
    (h : t.tryReserve res now = some (pk, t')) :
    pk = t.next ∧ res.workKey ∉ t.rows.map (·.workKey) ∧ t'.rows = t.rows ++ [res.row now pk] := by
  obtain ⟨h1, h2, h3, -⟩ := Table.insert_eq_some h
  exact ⟨h1, h2, h3⟩

theorem get_tryReserve {t' : Sessions} {res : Reservation} {now : Time}
    (h : t.tryReserve res now = some (pk, t')) (j : ℕ) :
    t'.get j = if j = pk then some (res.row now pk) else t.get j :=
  Table.get_insert h j

end Sessions

/-! ## Queries -/

/-- `ORDER BY started_at` where SQLite reads the index on `started_at`: rows of one second stay in
insertion order. -/
def orderByStarted (rows : List SessionRow) : List SessionRow :=
  rows.insertionSort fun r s => r.startedAt ≤ s.startedAt

/-- `ACTIVE_STATUSES` in the order of their texts. -/
def activeByText : List Status := [.blocked, .needsAttention, .pending, .reserving, .running]

/-- `ORDER BY started_at` in `list_non_terminal`. SQLite reads the index on `status`, so that rows of
one second are ordered by the texts of their statuses, and then by their ids. -/
def SessionRow.pollKey (r : SessionRow) : Time ×ₗ ℕ ×ₗ ℕ :=
  toLex (r.startedAt, toLex (activeByText.idxOf r.status, r.id))

def SessionRow.PolledBefore (r s : SessionRow) : Prop := r.pollKey ≤ s.pollKey

instance : DecidableRel SessionRow.PolledBefore := fun r s =>
  inferInstanceAs (Decidable (r.pollKey ≤ s.pollKey))

namespace Sessions

def listNonTerminal (t : Sessions) : List SessionRow :=
  (t.rows.filter fun r => r.status.active).insertionSort SessionRow.PolledBefore

def countActive (t : Sessions) : ℕ := t.rows.countP fun r => r.status.active

/-- `date(t)`, as the number of days since the epoch. -/
def date (t : Time) : ℤ := t / 86400000000

def countStartedToday (now : Time) (t : Sessions) : ℕ :=
  t.rows.countP fun r => date r.startedAt = date now

/-- `ORDER BY started_at DESC LIMIT 1` among the rows of a PR. -/
def findByPr (prUrl : String) (t : Sessions) : Option SessionRow :=
  (orderByStarted (t.rows.filter fun r => r.prUrl = some prUrl)).getLast?

/-- Nothing equals NULL, so a parent without a Devin id has no children. -/
def findActiveChildren (parent : Option String) (t : Sessions) : List SessionRow :=
  t.rows.filter fun r => parent.isSome && r.parentDevinSessionId = parent && r.status.active

def maxFixAttemptForParent (parent : Option String) (t : Sessions) : ℕ :=
  -- the row itself and its children, but not the children's children
  ((t.rows.filter fun r =>
      parent.isSome && (r.devinSessionId = parent || r.parentDevinSessionId = parent)).map
    (·.fixAttemptNumber)).foldr max 0

end Sessions

instance : IsTrans SessionRow SessionRow.PolledBefore := ⟨fun _ _ _ => le_trans⟩

instance : Std.Total SessionRow.PolledBefore := ⟨fun r s => le_total r.pollKey s.pollKey⟩

/-- No two rows are level. -/
theorem SessionRow.PolledBefore.antisymm {r s : SessionRow} (hrs : r.PolledBefore s)
    (hsr : s.PolledBefore r) : r.id = s.id := by
  have hkey : r.pollKey = s.pollKey := le_antisymm hrs hsr
  exact congrArg (fun k => (ofLex (ofLex k).2).2) hkey

theorem mem_orderByStarted {rows : List SessionRow} {r : SessionRow} :
    r ∈ orderByStarted rows ↔ r ∈ rows :=
  (List.perm_insertionSort _ rows).mem_iff

namespace Sessions

variable {t : Sessions} {r : SessionRow}

theorem mem_listNonTerminal : r ∈ t.listNonTerminal ↔ r ∈ t.rows ∧ r.status.active = true := by
  rw [listNonTerminal, (List.perm_insertionSort _ _).mem_iff, List.mem_filter]

/-- The rows that are listed before a row. -/
theorem mem_listed_before {pre post : List SessionRow} {s : SessionRow}
    (h : t.listNonTerminal = pre ++ r :: post) :
    s ∈ pre ↔ s ∈ t.rows ∧ s.status.active = true ∧ s.PolledBefore r ∧ s ≠ r := by
  have hnd : (t.rows.filter fun r => r.status.active).Nodup :=
    (List.Nodup.of_map _ t.ids).filter _
  have hanti : ∀ b ∈ t.rows.filter (fun r => r.status.active),
      ∀ c ∈ t.rows.filter (fun r => r.status.active), b.PolledBefore c → c.PolledBefore b → b = c :=
    fun b hb c hc hbc hcb =>
      t.eq_of_id (List.mem_of_mem_filter hb) (List.mem_of_mem_filter hc) (hbc.antisymm hcb)
  rw [mem_before_iff hnd hanti h, List.mem_filter, and_assoc]

theorem mem_of_findByPr {prUrl : String} (h : t.findByPr prUrl = some r) :
    r ∈ t.rows ∧ r.prUrl = some prUrl := by
  have := List.mem_of_getLast? h
  simpa [mem_orderByStarted] using this

theorem mem_findActiveChildren {parent : Option String} :
    r ∈ t.findActiveChildren parent ↔
      r ∈ t.rows ∧ parent.isSome ∧ r.parentDevinSessionId = parent ∧ r.status.active = true := by
  simp [findActiveChildren, and_assoc]

/-- The count for a parent is no less than the number of the row itself, or of a child. -/
theorem le_maxFixAttemptForParent {parent : Option String} (hr : r ∈ t.rows)
    (hp : parent.isSome = true)
    (h : r.devinSessionId = parent ∨ r.parentDevinSessionId = parent) :
    r.fixAttemptNumber ≤ t.maxFixAttemptForParent parent := by
  have hle : ∀ (l : List ℕ) (n : ℕ), n ∈ l → n ≤ l.foldr max 0 := by
    intro l n hn
    induction l with
    | nil => cases hn
    | cons m l ih =>
      rw [List.foldr_cons]
      rcases List.mem_cons.1 hn with rfl | hn
      · exact le_max_left _ _
      · exact (ih hn).trans (le_max_right _ _)
  refine hle _ _ (List.mem_map.2 ⟨r, List.mem_filter.2 ⟨hr, ?_⟩, rfl⟩)
  simpa [hp] using h

theorem listNonTerminal_ids (t : Sessions) : (t.listNonTerminal.map (·.id)).Nodup := by
  have hp := (List.perm_insertionSort SessionRow.PolledBefore
    (t.rows.filter fun r => r.status.active)).map (·.id)
  exact hp.nodup_iff.2 (t.ids.sublist (List.filter_sublist.map _))

end Sessions

end Remediation
