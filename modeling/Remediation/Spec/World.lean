import Remediation.Lib.Pool
import Remediation.Spec.Connection
import Remediation.Spec.Settings
import Remediation.Spec.Transport
import Remediation.Spec.WebhookEvents

/-!
# The service and what is around it

The operations that the code issues: one per SQL statement, per call to the Devin
client, per call to GitHub, and per reading of the clock. Each of them is atomic.
`exec` answers an operation on a `World`, which holds the database, the clock, the
sessions that exist at Devin, and a trace of all operations so far.

What is outside the repository, Devin, GitHub and the passing of time, is an
`Outside`: any functions whatever of the number of operations so far.
-/

namespace Remediation

open Interaction

/-- The work key of `createSession` and the row of `postPrComment` are not sent: they
say on whose behalf the call is made. -/
inductive Op
  | countActive
  | countStartedToday
  | tryReserve (res : Reservation)
  | update (pk : ℕ) (u : Update)
  | listNonTerminal
  | findByPr (prUrl : String)
  | findActiveChildren (parent : Option String)
  | maxFixAttemptForParent (parent : Option String)
  | record (deliveryId eventType : String) (action : Option String) (payload : Payload)
  | markProcessed (deliveryId result : String)
  | getEvent (deliveryId : String)
  | listQueued (limit : ℕ)
  | now
  | getClient
  | createSession (workKey : String) (req : CreateRequest)
  | getSession (sessionId : String)
  | terminateSession (sessionId : String)
  | getPr (repo : String) (number : ℤ)
  | listPrCommits (repo : String) (number : ℤ)
  | getWorkflowRunFailingJobLogs (repo : String) (runId : Option ℤ) (tailLines : ℕ)
  | postPrComment (parentRow : ℕ) (repo : String) (number : ℤ) (body : String)

@[reducible] def Ans : Op → Type
  | .countActive => ℕ
  | .countStartedToday => ℕ
  | .tryReserve _ => Option ℕ
  | .update _ _ => Unit
  | .listNonTerminal => List SessionRow
  | .findByPr _ => Option SessionRow
  | .findActiveChildren _ => List SessionRow
  | .maxFixAttemptForParent _ => ℕ
  | .record _ _ _ _ => Bool
  | .markProcessed _ _ => Unit
  | .getEvent _ => Option WebhookEvent
  | .listQueued _ => List WebhookEvent
  | .now => Time
  | .getClient => Except Exc Unit
  | .createSession _ _ => Except Exc SessionCreated
  | .getSession _ => Except Exc ApiSession
  | .terminateSession _ => Except Exc Unit
  | .getPr _ _ => Except Exc (Option PullRequest)
  | .listPrCommits _ _ => Except Exc (List Commit)
  | .getWorkflowRunFailingJobLogs _ _ _ => Except Exc String
  | .postPrComment _ _ _ _ => Except Exc Unit

abbrev Hist : Type := List (Entry Ans)

/-- A function of the service. -/
abbrev M (α : Type) : Type := Prog Op Ans α

/-- Issue one operation. -/
def perform (op : Op) : M (Ans op) := .call op .ret

/-- What the outside does at the `n`-th operation of a run. -/
structure Outside where
  /-- microseconds that pass before the operation -/
  elapse : ℕ → ℕ
  transport : DevinTransport
  getClient : ℕ → Except Exc Unit
  posts : ℕ → CreateBody → ℕ → Attempt
  getSession : ℕ → String → Except Exc ApiSession
  terminateSession : ℕ → String → Except Exc Unit
  getPr : ℕ → String → ℤ → Except Exc (Option PullRequest)
  listPrCommits : ℕ → String → ℤ → Except Exc (List Commit)
  failingJobLogs : ℕ → String → Option ℤ → ℕ → Except Exc String
  postPrComment : ℕ → String → ℤ → String → Except Exc Unit

structure World where
  sessions : Sessions
  events : WebhookEvents
  now : Time
  /-- the sessions that Devin has created, each with the work key it was created for -/
  remote : List (String × String) := []
  trace : Hist := []

namespace World

def clock (w : World) : ℕ := w.trace.length

/-- The answer to an operation, and its effect; `w` already has the time of the operation. -/
def answer (env : Outside) (n : ℕ) (w : World) : (op : Op) → Ans op × World
  | .countActive => (w.sessions.countActive, w)
  | .countStartedToday => (w.sessions.countStartedToday w.now, w)
  | .tryReserve res =>
    match w.sessions.tryReserve res w.now with
    | some (pk, t) => (some pk, { w with sessions := t })
    -- `IntegrityError`: the key is taken
    | none => (none, w)
  | .update pk u => ((), { w with sessions := w.sessions.update pk u })
  | .listNonTerminal => (w.sessions.listNonTerminal, w)
  | .findByPr prUrl => (w.sessions.findByPr prUrl, w)
  | .findActiveChildren parent => (w.sessions.findActiveChildren parent, w)
  | .maxFixAttemptForParent parent => (w.sessions.maxFixAttemptForParent parent, w)
  | .record deliveryId eventType action payload =>
    match w.events.record deliveryId eventType action payload w.now with
    | some (_, t) => (true, { w with events := t })
    | none => (false, w)
  | .markProcessed deliveryId result =>
    ((), { w with events := w.events.markProcessed deliveryId result w.now })
  | .getEvent deliveryId => (w.events.rows.find? fun e => e.deliveryId = deliveryId, w)
  | .listQueued limit => (w.events.listQueued limit, w)
  | .now => (w.now, w)
  | .getClient => (env.getClient n, w)
  | .createSession workKey req =>
    -- the sessions that Devin creates need not be the one that the client is told of
    let attempts := env.posts n req.body
    (HttpDevinClient.createSession env.transport attempts,
      { w with remote := (HttpDevinClient.spawned env.transport attempts).map (workKey, ·) ++ w.remote })
  | .getSession sessionId => (env.getSession n sessionId, w)
  | .terminateSession sessionId => (env.terminateSession n sessionId, w)
  | .getPr repo number => (env.getPr n repo number, w)
  | .listPrCommits repo number => (env.listPrCommits n repo number, w)
  | .getWorkflowRunFailingJobLogs repo runId tailLines => (env.failingJobLogs n repo runId tailLines, w)
  | .postPrComment _ repo number body => (env.postPrComment n repo number body, w)

/-- Time passes. -/
def tick (env : Outside) (w : World) : World := { w with now := w.now + env.elapse w.clock }

/-- Start the process again; the migration is killed after `n` statements. -/
def boot (n : ℕ) (w : World) : World := { w with sessions := backfillMissingWorkKeys n w.sessions }

end World

/-- Time passes, the operation is answered, and both are put on record. -/
def exec (env : Outside) (op : Op) (w : World) : Ans op × World :=
  let r := (w.tick env).answer env w.clock op
  (r.1, { r.2 with trace := ⟨op, r.1⟩ :: w.trace })

/-! ## What an operation changes -/

variable {env : Outside} {w : World}

@[simp] theorem exec_trace (op : Op) :
    (exec env op w).2.trace = ⟨op, (exec env op w).1⟩ :: w.trace := rfl

/-- The operations that write to `sessions`. -/
def Op.writes : Op → Bool
  | .tryReserve _ => true
  | .update _ _ => true
  | _ => false

/-- The UPDATE of `sessions` that an operation is. -/
def Op.updates : Op → Option (ℕ × Update)
  | .update pk u => some (pk, u)
  | _ => none

/-- An operation either leaves `sessions` alone, or is a reservation, or an UPDATE. -/
theorem Op.write_cases (op : Op) :
    op.writes = false ∨ (∃ res, op = .tryReserve res) ∨ ∃ pk u, op = .update pk u := by
  cases op with
  | tryReserve res => exact Or.inr (Or.inl ⟨res, rfl⟩)
  | update pk u => exact Or.inr (Or.inr ⟨pk, u, rfl⟩)
  | _ => exact Or.inl rfl

theorem exec_sessions {op : Op} (h : op.writes = false) :
    (exec env op w).2.sessions = w.sessions := by
  cases op with
  | tryReserve res => cases h
  | update pk u => cases h
  | record d e a p =>
    unfold exec World.answer
    simp only
    split <;> rfl
  | _ => rfl

@[simp] theorem exec_update_sessions (pk : ℕ) (u : Update) :
    (exec env (.update pk u) w).2.sessions = w.sessions.update pk u := rfl

theorem exec_now (op : Op) : (exec env op w).2.now = w.now + env.elapse w.clock := by
  cases op with
  | tryReserve res =>
    unfold exec World.answer
    simp only
    split <;> rfl
  | record d e a p =>
    unfold exec World.answer
    simp only
    split <;> rfl
  | _ => rfl

theorem now_le (op : Op) : w.now ≤ (exec env op w).2.now := by
  rw [exec_now]
  exact Int.le_add_of_nonneg_right (Int.natCast_nonneg _)

/-- A reservation answers with the key of the row it has inserted, or has changed nothing. -/
theorem exec_tryReserve (env : Outside) (w : World) (res : Reservation) :
    (∃ pk t, (exec env (.tryReserve res) w).1 = some pk ∧
      w.sessions.tryReserve res (w.tick env).now = some (pk, t) ∧
      (exec env (.tryReserve res) w).2.sessions = t) ∨
    ((exec env (.tryReserve res) w).1 = none ∧
      w.sessions.tryReserve res (w.tick env).now = none ∧
      (exec env (.tryReserve res) w).2.sessions = w.sessions) := by
  have hw : (w.tick env).sessions = w.sessions := rfl
  cases h : w.sessions.tryReserve res (w.tick env).now with
  | none =>
    refine Or.inr ⟨?_, rfl, ?_⟩ <;> simp only [exec, World.answer, hw, h]
  | some r =>
    obtain ⟨pk, t⟩ := r
    refine Or.inl ⟨pk, t, ?_, rfl, ?_⟩ <;> simp only [exec, World.answer, hw, h]

/-- The operations that write to `webhook_events`. -/
def Op.logs : Op → Bool
  | .record _ _ _ _ => true
  | .markProcessed _ _ => true
  | _ => false

theorem exec_events {op : Op} (h : op.logs = false) : (exec env op w).2.events = w.events := by
  cases op with
  | record d e a p => cases h
  | markProcessed d r => cases h
  | tryReserve res =>
    unfold exec World.answer
    simp only
    split <;> rfl
  | _ => rfl

/-- A delivery is answered to be new and appended to the log, or is there already. -/
theorem exec_record (env : Outside) (w : World) (deliveryId eventType : String)
    (action : Option String) (payload : Payload) :
    ((exec env (.record deliveryId eventType action payload) w).1 = true ∧
      (exec env (.record deliveryId eventType action payload) w).2.events.rows =
        w.events.rows ++ [⟨w.events.next, deliveryId, eventType, action, payload,
          currentTimestamp (w.tick env).now, none, none⟩] ∧
      deliveryId ∉ w.events.rows.map (·.deliveryId)) ∨
    ((exec env (.record deliveryId eventType action payload) w).1 = false ∧
      (exec env (.record deliveryId eventType action payload) w).2.events = w.events ∧
      ∃ e ∈ w.events.rows, e.deliveryId = deliveryId) := by
  have hw : (w.tick env).events = w.events := rfl
  cases h : w.events.record deliveryId eventType action payload (w.tick env).now with
  | none =>
    refine Or.inr ⟨?_, ?_, ?_⟩
    · simp only [exec, World.answer, hw, h]
    · simp only [exec, World.answer, hw, h]
    · exact List.mem_map.1 (Table.insert_eq_none.1 h)
  | some r =>
    obtain ⟨n, t⟩ := r
    obtain ⟨rfl, hnew, hrows, -⟩ := Table.insert_eq_some h
    refine Or.inl ⟨?_, ?_, hnew⟩
    · simp only [exec, World.answer, hw, h]
    · simp only [exec, World.answer, hw, h, hrows]

/-- What is stored as the result of a delivery changes its own row only. -/
theorem rows_markProcessed (t : WebhookEvents) (deliveryId result : String) (now : Time) :
    (t.markProcessed deliveryId result now).rows = t.rows.map fun e =>
      if e.deliveryId = deliveryId then
        { e with processedAt := some (currentTimestamp now), handlerResult := some result }
      else e := by
  unfold WebhookEvents.markProcessed
  split
  · rename_i hf
    refine ((List.map_congr_left (g := fun e => e) fun e he => ?_).trans (List.map_id' _)).symm
    have hne : e.deliveryId ≠ deliveryId := by simpa using List.find?_eq_none.1 hf e he
    rw [if_neg hne]
  · rename_i e hf
    have he := List.mem_of_find?_eq_some hf
    have hd : e.deliveryId = deliveryId := by simpa using List.find?_some hf
    refine List.map_congr_left fun s hs => ?_
    -- the row found is the only one of the delivery
    have hiff : s.rowid = e.rowid ↔ s.deliveryId = deliveryId := by
      constructor
      · intro hid
        rw [t.eq_of_id hs he hid, hd]
      · intro hs'
        rw [List.inj_on_of_nodup_map t.keys hs he (hs'.trans hd.symm)]
    simp only [hiff]

theorem mem_markProcessed {t : WebhookEvents} {deliveryId result : String} {now : Time}
    {e' : WebhookEvent} (h : e' ∈ (t.markProcessed deliveryId result now).rows) :
    (e' ∈ t.rows ∧ e'.deliveryId ≠ deliveryId) ∨ ∃ e ∈ t.rows, e.deliveryId = deliveryId ∧
      e' = { e with
        processedAt := some (currentTimestamp now)
        handlerResult := some result } := by
  rw [rows_markProcessed] at h
  obtain ⟨e, he, rfl⟩ := List.mem_map.1 h
  by_cases hd : e.deliveryId = deliveryId
  · rw [if_pos hd]
    exact Or.inr ⟨e, he, hd, rfl⟩
  · rw [if_neg hd]
    exact Or.inl ⟨he, hd⟩

/-- It leaves the rows that are there as they are, and adds one at most. -/
theorem rows_tryReserve (env : Outside) (w : World) (res : Reservation) :
    (exec env (.tryReserve res) w).2.sessions.rows = w.sessions.rows ∨
      ∃ pk, (exec env (.tryReserve res) w).2.sessions.rows =
        w.sessions.rows ++ [res.row (w.tick env).now pk] := by
  rcases exec_tryReserve env w res with ⟨pk, t, -, ht, hw⟩ | ⟨-, -, hw⟩
  · obtain ⟨-, -, hrows⟩ := Sessions.tryReserve_eq_some ht
    rw [hw]
    exact Or.inr ⟨pk, hrows⟩
  · rw [hw]
    exact Or.inl rfl

theorem mem_tryReserve (res : Reservation) {r : SessionRow} (hr : r ∈ w.sessions.rows) :
    r ∈ (exec env (.tryReserve res) w).2.sessions.rows := by
  rcases rows_tryReserve env w res with hrows | ⟨pk, hrows⟩
  · rw [hrows]
    exact hr
  · rw [hrows]
    exact List.mem_append_left _ hr

theorem get_tryReserve (res : Reservation) {pk : ℕ} {r : SessionRow}
    (hr : w.sessions.get pk = some r) :
    (exec env (.tryReserve res) w).2.sessions.get pk = some r := by
  obtain ⟨hmem, hid⟩ := w.sessions.get_eq_some.1 hr
  exact (Table.get_eq_some _).2 ⟨mem_tryReserve res hmem, hid⟩

end Remediation
