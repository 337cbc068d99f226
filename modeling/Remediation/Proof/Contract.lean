import Remediation.Spec.Service

/-!
# What each task may do

`Permits S h op` says which operation a task with history `h` may issue next: one
constructor for each place in the code that writes, calls Devin for a new session or
comments on a PR. `keeps_task`: every task keeps to it, whatever the answers are.
All invariants of the service are derived from this, not from the programs.

The conditions are about the recent history only, as one process may run several
handlers one after the other (`drain_queue`).
-/

namespace Remediation

open Interaction Prog

/-! ## Reading a history -/

/-- A reservation that a task has made and not yet settled. -/
structure Held where
  res : Reservation
  pk : ℕ
  /-- `create_session` has been called for it, and has failed -/
  called : Bool

def held : Hist → Option Held
  | [] => none
  | ⟨.tryReserve res, some pk⟩ :: _ => some ⟨res, pk, false⟩
  | ⟨.update _ _, _⟩ :: _ => none
  | ⟨.createSession _ _, .ok _⟩ :: _ => none
  | ⟨.createSession _ _, .error _⟩ :: h => (held h).map fun hd => { hd with called := true }
  | _ :: h => held h

/-- The session just created, with the row it belongs to. -/
def justSpawned : Hist → Option (ℕ × SessionCreated)
  | ⟨.createSession _ _, .ok created⟩ :: h => (held h).map fun hd => (hd.pk, created)
  | _ => none

/-- The last answer of `count_active`. -/
def lastCount : Hist → Option ℕ
  | [] => none
  | ⟨.countActive, n⟩ :: _ => some n
  | _ :: h => lastCount h

/-- The last answer of `count_started_today`, if this task has not tried to reserve since. -/
def lastToday : Hist → Option ℕ
  | [] => none
  | ⟨.countStartedToday, n⟩ :: _ => some n
  | ⟨.tryReserve _, _⟩ :: _ => none
  | _ :: h => lastToday h

/-- The last answer of `find_by_pr`, if this task has not written to `sessions` since. -/
def chosen : Hist → Option (String × SessionRow)
  | [] => none
  | ⟨.findByPr prUrl, some p⟩ :: _ => some (prUrl, p)
  | ⟨.tryReserve _, _⟩ :: _ => none
  | ⟨.update _ _, _⟩ :: _ => none
  | _ :: h => chosen h

/-- With it, the last answer of `max_fix_attempt_for_parent`. -/
def counted : Hist → Option (String × SessionRow × ℕ)
  | [] => none
  | ⟨.maxFixAttemptForParent _, n⟩ :: h => (chosen h).map fun c => (c.1, c.2, n)
  | ⟨.findByPr _, _⟩ :: _ => none
  | ⟨.tryReserve _, _⟩ :: _ => none
  | ⟨.update _ _, _⟩ :: _ => none
  | _ :: h => counted h

/-- What is counted is counted for the row that is chosen. -/
theorem chosen_of_counted {h : Hist} {prUrl : String} {p : SessionRow} {m : ℕ}
    (hm : counted h = some (prUrl, p, m)) : chosen h = some (prUrl, p) := by
  induction h using counted.induct with
  | case1 => cases hm
  | case2 q n h =>
    obtain ⟨c, hc, he⟩ := Option.map_eq_some_iff.1 hm
    cases he
    exact hc
  | case3 => cases hm
  | case4 => cases hm
  | case5 => cases hm
  | case6 e h h1 h2 h3 h4 ih =>
    rw [counted.eq_6 _ _ h1 h2 h3 h4] at hm
    rw [chosen.eq_5 _ _ (fun u p he => h2 u _ he) h3 h4]
    exact ih hm

/-- The task holds no reservation, and no session that is not stored yet. -/
def Idle (h : Hist) : Prop := held h = none ∧ justSpawned h = none

/-- The row with primary key `pk` as last read, if this task has not updated it since. -/
def seen (pk : ℕ) : Hist → Option SessionRow
  | [] => none
  | ⟨.listNonTerminal, rows⟩ :: h => (rows.find? fun r => r.id = pk).or (seen pk h)
  | ⟨.findActiveChildren _, rows⟩ :: h => (rows.find? fun r => r.id = pk).or (seen pk h)
  | ⟨.update pk' _, _⟩ :: h => if pk' = pk then none else seen pk h
  | _ :: h => seen pk h

/-- Devin's last answer for a session, if this task has neither written to `sessions` nor
created a session since. -/
def answered (x : String) : Hist → Option ApiSession
  | [] => none
  | ⟨.getSession y, .ok data⟩ :: h => if y = x then some data else answered x h
  | ⟨.createSession _ _, _⟩ :: _ => none
  | ⟨.tryReserve _, _⟩ :: _ => none
  | ⟨.update _ _, _⟩ :: _ => none
  | _ :: h => answered x h

/-- The session has been told to stop, or has reported its end. -/
def stopped (x : String) : Hist → Bool
  | [] => false
  | ⟨.terminateSession y, _⟩ :: h => y = x || stopped x h
  | ⟨.getSession y, .ok data⟩ :: h => (y = x && data.ended) || stopped x h
  | ⟨.createSession _ _, .ok created⟩ :: h => created.devinSessionId ≠ x && stopped x h
  | _ :: h => stopped x h

/-- The write with which `_escalate_to_human` marks the parent. The poller writes
`raw_status` whenever it writes a status. -/
def Update.escalates (u : Update) : Bool :=
  u.status = some .needsAttention && u.errorMessage.isSome && u.rawStatus.isNone

theorem pollUpdate_escalates (remote : SessionDetails) (t : Time) :
    (pollUpdate remote t).escalates = false := by
  simp [Update.escalates, pollUpdate]

/-- The row that an operation escalates. -/
def Op.escalates : Op → Option ℕ
  | .update pk u => if u.escalates then some pk else none
  | _ => none

/-- How often the row `pk` has been escalated. -/
def escalationCount (pk : ℕ) (h : Hist) : ℕ := h.countP fun e => e.1.escalates = some pk

/-- The parent that this task has marked last, if it has not commented on its PR since. -/
def announcing : Hist → Option ℕ
  | [] => none
  | ⟨.update pk u, _⟩ :: h => if u.escalates then some pk else announcing h
  | ⟨.postPrComment _ _ _ _, _⟩ :: _ => none
  | _ :: h => announcing h

/-! ## The contract -/

/-- The operations that change neither the table nor anything outside that is counted. -/
def Op.quiet : Op → Bool
  | .tryReserve _ => false
  | .update _ _ => false
  | .createSession _ _ => false
  | .postPrComment _ _ _ _ => false
  | _ => true

/-- Where an operation stands in a task: the poller asks Devin about active rows that it has
read, attempts are counted for the row that `find_by_pr` has picked, and a delivery is put
on record before anything else. -/
def Op.grounded (h : Hist) : Op → Prop
  | .getSession x => ∃ row, seen row.id h = some row ∧ row.status.active = true ∧
      row.devinSessionId = some x
  | .maxFixAttemptForParent parent => ∃ c, chosen h = some c ∧ c.2.devinSessionId = parent
  | .record _ _ _ _ => h = []
  | _ => True

/-- What the poller writes to a row after an answer of Devin. -/
inductive PollWrite (row : SessionRow) (remote : SessionDetails) (stopped : Bool) : Update → Prop
  | timedOut (msg : String) (t t' : Time) (hs : remote.status = .pending ∨ remote.status = .running)
      (hstop : stopped = true) :
      PollWrite row remote stopped
        { status := some .timeout, errorMessage := some msg, completedAt := some t
          lastPolledAt := some t' }
  | unchanged (t : Time) (hd : row.differs remote = false) :
      PollWrite row remote stopped { lastPolledAt := some t }
  | merged (t t' : Time) (hd : row.differs remote = true) (hm : remote.prState = some "merged")
      (hstop : stopped = true) :
      PollWrite row remote stopped
        { pollUpdate remote t with status := some .completed, completedAt := some t' }
  | closed (t t' : Time) (hd : row.differs remote = true) (hc : remote.prState = some "closed") :
      PollWrite row remote stopped
        { pollUpdate remote t with
          status := some .cancelled
          errorMessage := some "pr_closed_without_merge"
          completedAt := some t' }
  | ended (t t' : Time) (hd : row.differs remote = true) (hm : remote.prState ≠ some "merged")
      (hc : remote.prState ≠ some "closed") (ht : remote.status.terminal = true)
      (hnew : row.completedAt = none) :
      PollWrite row remote stopped { pollUpdate remote t with completedAt := some t' }
  | mirrored (t : Time) (hd : row.differs remote = true) (hm : remote.prState ≠ some "merged")
      (hc : remote.prState ≠ some "closed")
      (hn : ¬(remote.status.terminal = true ∧ row.completedAt = none)) :
      PollWrite row remote stopped (pollUpdate remote t)

/-- While a session is just created, only the write of its id is permitted. -/
inductive Permits (S : Settings) (h : Hist) : Op → Prop
  | quiet {op : Op} (hop : op.quiet = true) (hj : justSpawned h = none) (hg : op.grounded h) :
      Permits S h op
  | reserveIssue {issue : Issue} {n d : ℕ} (hi : Idle h) (hn : lastCount h = some n)
      (hlt : n < S.maxConcurrentSessions) (hd : lastToday h = some d)
      (hday : d < S.maxSessionsPerDay) :
      Permits S h (.tryReserve (securityReservation S issue))
  | reserveFix {t : FixTarget} {n m : ℕ} (hi : Idle h) (hn : lastCount h = some n)
      (hlt : n < S.maxConcurrentSessions) (hm : counted h = some (t.prUrl, t.parent, m))
      (hmlt : m < S.maxFixAttempts) :
      Permits S h (.tryReserve (t.reservation (m + 1)))
  | create {hd : Held} {req : CreateRequest} (hh : held h = some hd) (hc : hd.called = false)
      (hk : hd.res.workKey ≠ "") :
      Permits S h (.createSession hd.res.workKey req)
  | fail {hd : Held} {reason : String} {t : Time} (hh : held h = some hd) :
      Permits S h (.update hd.pk
        { status := some .failed, errorMessage := some reason, completedAt := some t })
  | activate {pk : ℕ} {created : SessionCreated} {prompt : String}
      (hs : justSpawned h = some (pk, created)) :
      Permits S h (.update pk
        { devinSessionId := some created.devinSessionId
          devinUrl := some created.devinUrl
          promptSnapshot := some prompt
          status := some .pending })
  | escalate {prUrl : String} {parent : SessionRow} {m : ℕ} {msg : String}
      (hi : Idle h) (hm : counted h = some (prUrl, parent, m))
      (hcap : S.maxFixAttempts ≤ m) (ht : parent.status.terminal = true) :
      Permits S h (.update parent.id { status := some .needsAttention, errorMessage := some msg })
  | cancelChild {child : SessionRow} {pk : ℕ} (hi : Idle h) (hs : seen child.id h = some child)
      (hact : child.status.active = true)
      (hstop : ∀ x, child.devinSessionId = some x → x ≠ "" → stopped x h = true)
      (ha : announcing h = some pk) :
      Permits S h (.update child.id
        { status := some .cancelled, errorMessage := some "cap_hit_on_parent" })
  | comment {pk : ℕ} {repo body : String} {number : ℤ} (hi : Idle h)
      (ha : announcing h = some pk) :
      Permits S h (.postPrComment pk repo number body)
  | poll {row : SessionRow} {x : String} {data : ApiSession} {u : Update} (hi : Idle h)
      (hs : seen row.id h = some row) (hact : row.status.active = true)
      (hx : row.devinSessionId = some x) (hd : answered x h = some data)
      (hu : PollWrite row (fromApiResponse data) (stopped x h) u) :
      Permits S h (.update row.id u)

/-- A task that holds a reservation has no session just created. -/
theorem justSpawned_of_held {h : Hist} {hd : Held} (hh : held h = some hd) :
    justSpawned h = none := by
  unfold justSpawned
  split
  · cases hh
  · rfl

/-- What the database guarantees of its answers. -/
def Honest : (op : Op) → Ans op → Prop
  | .listNonTerminal, rows => (rows.map (·.id)).Nodup ∧ ∀ r ∈ rows, r.status.active = true
  | .findActiveChildren _, rows => (rows.map (·.id)).Nodup ∧ ∀ r ∈ rows, r.status.active = true
  | _, _ => True

def contract (S : Settings) : Contract Ans where
  pre := Permits S
  post _ op a := Honest op a

theorem exec_honest (env : Outside) (op : Op) (w : World) : Honest op (exec env op w).1 := by
  cases op with
  | listNonTerminal =>
    exact ⟨w.sessions.listNonTerminal_ids, fun r hr => (Sessions.mem_listNonTerminal.1 hr).2⟩
  | findActiveChildren parent =>
    exact ⟨w.sessions.ids.sublist (List.filter_sublist.map _),
      fun r hr => (Sessions.mem_findActiveChildren.1 hr).2.2.2⟩
  | _ => trivial

/-- Nothing is left open: no reservation, and no session waiting for its id to be stored. -/
def Settled {α : Type} (h : Hist) (_ : α) : Prop := Idle h

/-! ## What a task has in hand -/

/-- The row that the handler at work has reserved and not settled yet. -/
def inHand (h : Hist) : Option ℕ :=
  match justSpawned h with
  | some (pk, _) => some pk
  | none => (held h).map (·.pk)

section InHand

variable {S : Settings} {h : Hist} {op : Op}

theorem inHand_of_idle (hi : Idle h) : inHand h = none := by
  unfold inHand
  rw [hi.1, hi.2]
  rfl

theorem inHand_of_held {hd : Held} (hh : held h = some hd) : inHand h = some hd.pk := by
  unfold inHand
  rw [justSpawned_of_held hh, hh]
  rfl

theorem inHand_of_justSpawned {pk : ℕ} {created : SessionCreated}
    (hj : justSpawned h = some (pk, created)) : inHand h = some pk := by
  unfold inHand
  rw [hj]

/-- A task that has something in hand writes to no other row. -/
theorem Permits.update_inHand {pk pk' : ℕ} {u : Update} (hp : Permits S h (.update pk u))
    (hh : inHand h = some pk') : pk = pk' := by
  cases hp with
  | quiet hop => cases hop
  | fail hh' => rw [inHand_of_held hh'] at hh; exact Option.some.inj hh
  | activate hs => rw [inHand_of_justSpawned hs] at hh; exact Option.some.inj hh
  | escalate hi => rw [inHand_of_idle hi] at hh; cases hh
  | cancelChild hi => rw [inHand_of_idle hi] at hh; cases hh
  | poll hi => rw [inHand_of_idle hi] at hh; cases hh

/-- What a task has in hand it keeps there until it writes to it. -/
theorem Permits.inHand_cons {pk : ℕ} (hp : Permits S h op) (hop : op.writes = false)
    (hh : inHand h = some pk) (a : Ans op) : inHand (⟨op, a⟩ :: h) = some pk := by
  have hheld : justSpawned h = none → ∃ hd, held h = some hd ∧ hd.pk = pk := by
    intro hj
    unfold inHand at hh
    rw [hj] at hh
    exact Option.map_eq_some_iff.1 hh
  cases hp with
  | quiet hq hj =>
    obtain ⟨hd, hh', rfl⟩ := hheld hj
    refine inHand_of_held ?_
    cases op with
    | tryReserve res => cases hop
    | update pk u => cases hop
    | createSession key req => cases hq
    | postPrComment pk repo n body => cases hq
    | _ => exact hh'
  | @create hd req hh' _ _ =>
    rw [inHand_of_held hh'] at hh
    cases hh
    cases a with
    | ok created =>
      have hj : justSpawned (⟨.createSession hd.res.workKey req, .ok created⟩ :: h) =
          some (hd.pk, created) := by simp [justSpawned, hh']
      exact inHand_of_justSpawned hj
    | error exc =>
      have hheld : held (⟨.createSession hd.res.workKey req, .error exc⟩ :: h) =
          some { hd with called := true } := by simp [held, hh']
      rw [inHand_of_held hheld]
  | comment hi => rw [inHand_of_idle hi] at hh; cases hh
  | _ => cases hop

end InHand

end Remediation
