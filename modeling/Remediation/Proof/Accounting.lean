import Remediation.Proof.Remote

/-!
# Live sessions are accounted for

A row becomes terminal in six places, and after each the poller does not look at its
session again. Five of them have terminated the session, or seen its end, or have none;
the branch for a closed pull request has not. Along serial runs in which it is only taken
for sessions that have ended, and in which no POST is lost, every live session has an
active row (`live_sessions_counted`); a PR that is closed while its session goes on leaves
one without (`closed_pr_leaves_session_running`).
-/

namespace Remediation

open Interaction

/-- The entry is the end of a session: it has been terminated, or has reported its end. -/
def ends (x : String) : Entry Ans → Bool
  | ⟨.terminateSession y, .ok _⟩ => y = x
  | ⟨.getSession y, .ok data⟩ => y = x && data.ended
  | _ => false

/-- A session that has been created is live as long as no operation is its end. -/
def alive (x : String) (trace : Hist) : Bool := !trace.any (ends x)

/-- An answer that says that a session could not be terminated. -/
def terminateFails : (op : Op) → Ans op → Bool
  | .terminateSession _, .error _ => true
  | _, _ => false

/-- All calls of `terminate_session` succeed. -/
def TerminateSucceeds (_ : Hist) (_ : World) (op : Op) (a : Ans op) : Prop :=
  terminateFails op a = false

instance (h : Hist) (w : World) (op : Op) (a : Ans op) : Decidable (TerminateSucceeds h w op a) :=
  inferInstanceAs (Decidable (_ = _))

/-- The write of the branch for a closed pull request. -/
def Update.closes (u : Update) : Bool :=
  u.status = some .cancelled && u.errorMessage = some "pr_closed_without_merge"

/-- The branch for a closed pull request is taken only after the answer that the session has
ended. -/
def ClosesEnded (h : Hist) (_ : World) (op : Op) (_ : Ans op) : Prop :=
  ∀ p ∈ op.updates, p.2.closes = true → ∀ r ∈ seen p.1 h, ∀ x ∈ r.devinSessionId,
    ∀ data ∈ answered x h, data.ended = true

instance (h : Hist) (w : World) (op : Op) (a : Ans op) : Decidable (ClosesEnded h w op a) :=
  inferInstanceAs (Decidable (∀ p ∈ op.updates, p.2.closes = true → ∀ r ∈ seen p.1 h,
    ∀ x ∈ r.devinSessionId, ∀ data ∈ answered x h, data.ended = true))

/-- Every session at Devin that is live is the one of an active row. -/
def AllCounted (w : World) : Prop :=
  ∀ p ∈ w.remote, alive p.2 w.trace = true →
    ∃ r ∈ w.sessions.rows, r.devinSessionId = some p.2 ∧ r.status.active = true

instance (w : World) : Decidable (AllCounted w) :=
  inferInstanceAs (Decidable (∀ p ∈ w.remote, _ → ∃ r ∈ w.sessions.rows, _ ∧ _))

variable {env : Outside} {S : Settings} {w : World} {h : Hist} {op : Op} {x : String}

theorem alive_exec :
    alive x (exec env op w).2.trace = (!ends x ⟨op, (exec env op w).1⟩ && alive x w.trace) := by
  rw [exec_trace, alive, List.any_cons, Bool.not_or, alive]

/-- What has newly been stopped has ended. -/
theorem ends_of_stopped {a : Ans op} (hT : terminateFails op a = false)
    (hs : stopped x (⟨op, a⟩ :: h) = true) : ends x ⟨op, a⟩ = true ∨ stopped x h = true := by
  cases op with
  | terminateSession y =>
    cases a with
    | error exc => cases hT
    | ok _ => simpa [stopped, ends] using hs
  | getSession y =>
    cases a with
    | error exc => exact Or.inr hs
    | ok data => simpa [stopped, ends] using hs
  | createSession key req =>
    cases a with
    | error exc => exact Or.inr hs
    | ok created =>
      simp only [stopped, Bool.and_eq_true] at hs
      exact Or.inr hs.2
  | _ => exact Or.inr hs

/-- A session whose last answer reports its end counts as stopped. -/
theorem stopped_of_answered {data : ApiSession} (hd : answered x h = some data)
    (he : data.ended = true) : stopped x h = true := by
  induction h with
  | nil => cases hd
  | cons e h ih =>
    obtain ⟨op, a⟩ := e
    cases op with
    | getSession y =>
      cases a with
      | error exc => exact ih hd
      | ok data' =>
        simp only [answered] at hd
        split at hd
        · rename_i hy
          cases hd
          simp [stopped, hy, he]
        · simp [stopped, ih hd]
    | terminateSession y => simp [stopped, ih hd]
    | createSession key req => cases hd
    | tryReserve res => cases hd
    | update pk u => cases hd
    | _ => exact ih hd

/-- **Where a row becomes terminal, its session has been stopped**, or it has none. -/
theorem stopped_of_terminal {r : SessionRow} {u : Update} (hC : Current h w)
    (hp : Permits S h (.update r.id u)) (hR : ClosesEnded h w (.update r.id u) ())
    (hr : r ∈ w.sessions.rows) (hx : r.devinSessionId = some x) (hne : x ≠ "")
    (ha : r.status.active = true) (ht : (u.apply r).status.active = false) : stopped x h = true := by
  have hget := w.sessions.get_eq_some.2 ⟨hr, rfl⟩
  generalize hpk : r.id = pk at *
  cases hp with
  | quiet hop => cases hop
  | fail hh =>
    -- the row is as it was reserved, and has no session
    obtain ⟨t, ht⟩ := hC.heldRow _ hh
    rw [hget] at ht
    rw [Option.some.inj ht] at hx
    cases hx
  | activate _ => cases ht
  | escalate _ _ _ _ => cases ht
  | cancelChild _ hs _ hstop =>
    have := hC.seenRow _ _ hs
    rw [hget] at this
    cases this
    exact hstop x hx hne
  | @poll _ y data _ _ hs _ hx' hd hu =>
    have := hC.seenRow _ _ hs
    rw [hget] at this
    cases this
    rw [hx] at hx'
    cases hx'
    cases hu with
    | timedOut _ _ _ _ hstop => exact hstop
    | unchanged => rw [Update.apply_status, Option.getD_none, ha] at ht; cases ht
    | merged _ _ _ _ hstop => exact hstop
    | closed _ _ _ _ =>
      -- the one branch that does not stop the session: its end has been read, by the condition
      exact stopped_of_answered hd (hR _ rfl rfl r hs x hx _ hd)
    | ended _ _ _ _ _ hterm _ =>
      rw [fromApiResponse_terminal] at hterm
      exact stopped_of_answered hd hterm
    | mirrored _ _ _ _ _ =>
      have hterm : (fromApiResponse data).status.active = false := ht
      have hend := Status.terminal_eq (fromApiResponse data).status
      rw [hterm, fromApiResponse_terminal] at hend
      exact stopped_of_answered hd hend

/-- Inside a task: a live session is just returned, or has an active row. -/
structure LiveCounted (h : Hist) (w : World) : Prop where
  named : ∀ p ∈ w.remote, p.2 ≠ ""
  counted : ∀ p ∈ w.remote, alive p.2 w.trace = true → Returned h p.2 ∨
    ∃ r ∈ w.sessions.rows, r.devinSessionId = some p.2 ∧ r.status.active = true
  dead : ∀ x, stopped x h = true → alive x w.trace = false

theorem liveCounted_step (hJ : LiveCounted h w) (hC : Current h w) (hp : Permits S h op)
    (hD : NamesSessions env h w op (exec env op w).1)
    (hT : TerminateSucceeds h w op (exec env op w).1) (hN : NoneLost env h w op (exec env op w).1)
    (hR : ClosesEnded h w op (exec env op w).1) :
    LiveCounted (⟨op, (exec env op w).1⟩ :: h) (exec env op w).2 := by
  refine ⟨?_, ?_, ?_⟩
  · intro p hmem
    rw [exec_remote] at hmem
    rcases List.mem_append.1 hmem with hmem | hmem
    · exact (new_of_mem_spawned hD hmem).1
    · exact hJ.named p hmem
  · intro p hmem hlive
    rw [exec_remote] at hmem
    rcases List.mem_append.1 hmem with hmem | hmem
    · exact Or.inl (returned_of_spawned hp hD hN hmem)
    refine Or.inr ?_
    rw [alive_exec, Bool.and_eq_true] at hlive
    rcases hJ.counted p hmem hlive.2 with hret | ⟨r, hr, hx, ha⟩
    · exact returned_exec env hp hC hret
    rcases row_exec env hp hC hr hx with hr' | ⟨u, rfl, hu, hr'⟩
    · exact ⟨r, hr', hx, ha⟩
    refine ⟨_, hr', by rw [Update.apply_devinSessionId, hu]; exact hx, ?_⟩
    -- the row stays active, as otherwise its session would have been stopped
    by_contra hno
    have hstop := stopped_of_terminal hC hp hR hr hx (hJ.named p hmem) ha (Bool.eq_false_iff.2 hno)
    rw [hJ.dead _ hstop] at hlive
    cases hlive.2
  · intro x hs
    rw [alive_exec]
    rcases ends_of_stopped hT hs with he | hs
    · rw [he]
      rfl
    · rw [hJ.dead x hs, Bool.and_false]

/-- **No live session escapes the accounting.** After every serial run in which Devin names
its sessions, `terminate_session` succeeds, no POST is lost, and the branch for a closed
pull request is taken only for sessions that have ended, every live session has an active
row. -/
theorem live_sessions_counted (sessions : Sessions) (events : WebhookEvents) (now : Time)
    (tasks : List Task) (hD : SerialOK env S (NamesSessions env) { sessions, events, now } tasks)
    (hT : SerialOK env S TerminateSucceeds { sessions, events, now } tasks)
    (hN : SerialOK env S (NoneLost env) { sessions, events, now } tasks)
    (hR : SerialOK env S ClosesEnded { sessions, events, now } tasks) :
    AllCounted (runSerial env S { sessions, events, now } tasks) := by
  have hleave : ∀ h w, LiveCounted h w → Idle h → LiveCounted [] w := by
    intro h w hJ hs
    refine ⟨hJ.named, ?_, fun x hx => by cases hx⟩
    intro p hp hlive
    rcases hJ.counted p hp hlive with ⟨pk, created, hj, -⟩ | hr
    · -- a task that has ended has nothing left to store
      rw [hs.2] at hj
      cases hj
    · exact Or.inr hr
  have hstart : LiveCounted [] { sessions, events, now } :=
    ⟨fun p hp => (by cases hp), fun p hp => (by cases hp), fun x hx => by cases hx⟩
  have hinv : LiveCounted [] (runSerial env S { sessions, events, now } tasks) :=
    serial_inv (fun w => LiveCounted [] w) LiveCounted (fun w hI => hI) hleave
      (fun h w op hJ hC hp hr => liveCounted_step hJ hC hp hr.1.1 hr.1.2 hr.2.1 hr.2.2) tasks hstart
      ((hD.and hT).and (hN.and hR))
  intro p hp hlive
  rcases hinv.counted p hp hlive with ⟨pk, created, hj, -⟩ | hr
  · cases hj
  · exact hr

/-! ## A pull request that is closed -/

namespace ClosedPr

/-- The session's pull request has been closed; the session itself has the given status. -/
def outside (status : String) : Outside :=
  { Outside.calm with
    getSession := fun _ _ =>
      .ok { status := some status
            pullRequests := [⟨some "https://github.com/o/r/pull/7", some "closed"⟩] } }

/-- An issue, and a tick that sees its session. -/
def tasks : List Task := [.securityIssue (.sample 1), .poll]

theorem closed_and_ended : AllCounted (runSerial (outside "exit") {} (.initial 0) tasks) := by
  have hD : SerialOK (outside "exit") {} (NamesSessions (outside "exit")) (.initial 0) tasks := by
    decide +kernel
  have hT : SerialOK (outside "exit") {} TerminateSucceeds (.initial 0) tasks := by decide +kernel
  have hN : SerialOK (outside "exit") {} (NoneLost (outside "exit")) (.initial 0) tasks := by
    decide +kernel
  have hR : SerialOK (outside "exit") {} ClosesEnded (.initial 0) tasks := by decide +kernel
  exact live_sessions_counted .empty .empty 0 tasks hD hT hN hR

/-- **A closed PR leaves its session running**: no call has failed and no POST is lost, and
still a live session has no active row. -/
theorem closed_pr_leaves_session_running :
    SerialOK (outside "running") {} (NamesSessions (outside "running")) (.initial 0) tasks ∧
      SerialOK (outside "running") {} TerminateSucceeds (.initial 0) tasks ∧
      SerialOK (outside "running") {} (NoneLost (outside "running")) (.initial 0) tasks ∧
      ¬AllCounted (runSerial (outside "running") {} (.initial 0) tasks) := by
  decide +kernel

end ClosedPr

end Remediation
