import Remediation.Proof.AtMostOnce
import Remediation.Proof.Effects

/-!
# Terminal statuses under concurrency

The poller writes a row back as it read it at the start of its tick, and a handler
writes `pending` after `create_session`, neither looking at the row again. Where no
task is overtaken in between (`UpToDate`), a terminal row becomes active again only
through `_escalate_to_human` (`terminal_absorbing`); without that a tick revives a
cancelled child (`tick_revives_cancelled_child`).
-/

namespace Remediation

open Interaction Prog

/-- The status that a task takes the row `pk` to have: what it has just inserted, or
what it has read. -/
def believed (pk : ℕ) (h : Hist) : Option Status :=
  match justSpawned h with
  | some (pk', _) => if pk' = pk then some .reserving else (seen pk h).map (·.status)
  | none => (seen pk h).map (·.status)

/-- Whenever a task gives a row an active status, the escalation apart, the row still has
the status that the task takes it to have. -/
def UpToDate (h : Hist) (w : World) (op : Op) (_ : Ans op) : Prop :=
  ∀ x ∈ op.updates, x.2.escalates = false → (∃ s ∈ x.2.status, s.active = true) →
    ∀ s ∈ w.sessions.statusOf x.1, believed x.1 h = some s

instance (h : Hist) (w : World) (op : Op) (a : Ans op) : Decidable (UpToDate h w op a) :=
  inferInstanceAs (Decidable (∀ x ∈ op.updates, x.2.escalates = false →
    (∃ s ∈ x.2.status, s.active = true) → ∀ s ∈ w.sessions.statusOf x.1, believed x.1 h = some s))

/-- What is terminal in `w` is terminal in the later `w'`, apart from rows that have been
escalated in between. -/
def Absorbed (w w' : World) : Prop :=
  ∀ pk s, w.sessions.statusOf pk = some s → s.terminal = true →
    escalationCount pk w'.trace = escalationCount pk w.trace →
    ∃ s', w'.sessions.statusOf pk = some s' ∧ s'.terminal = true

variable {env : Outside} {S : Settings} {h : Hist} {w : World}

theorem believed_active_of_seen {r : SessionRow} (hs : seen r.id h = some r)
    (ha : r.status.active = true) : ∃ b, believed r.id h = some b ∧ b.active = true := by
  unfold believed
  split
  · split
    · exact ⟨.reserving, rfl, rfl⟩
    · exact ⟨r.status, by rw [hs]; rfl, ha⟩
  · exact ⟨r.status, by rw [hs]; rfl, ha⟩

/-- **What a permitted UPDATE does to the status**: nothing; end the work; escalate; or
overwrite a status that the task takes to be active. -/
theorem Permits.update_cases {pk : ℕ} {u : Update} (hp : Permits S h (.update pk u)) :
    u.status = none ∨ (∃ s, u.status = some s ∧ s.terminal = true) ∨ u.escalates = true ∨
      (u.escalates = false ∧ ∃ b, believed pk h = some b ∧ b.active = true) := by
  cases hp with
  | quiet hop => cases hop
  | fail _ => exact Or.inr (Or.inl ⟨_, rfl, rfl⟩)
  | activate hj =>
    -- the row is taken to be as it was reserved
    have hb : believed pk h = some .reserving := by simp [believed, hj]
    exact Or.inr (Or.inr (Or.inr ⟨rfl, .reserving, hb, rfl⟩))
  | escalate _ _ _ _ => exact Or.inr (Or.inr (Or.inl rfl))
  | cancelChild _ _ _ _ => exact Or.inr (Or.inl ⟨_, rfl, rfl⟩)
  | poll _ hs ha _ _ hu =>
    cases hu with
    | timedOut => exact Or.inr (Or.inl ⟨_, rfl, rfl⟩)
    | unchanged => exact Or.inl rfl
    | merged => exact Or.inr (Or.inl ⟨_, rfl, rfl⟩)
    | closed => exact Or.inr (Or.inl ⟨_, rfl, rfl⟩)
    | ended _ _ _ _ _ ht _ => exact Or.inr (Or.inl ⟨_, rfl, ht⟩)
    | mirrored =>
      -- the poller always writes `raw_status`, so this is no escalation
      exact Or.inr (Or.inr (Or.inr ⟨pollUpdate_escalates _ _, believed_active_of_seen hs ha⟩))

theorem escalationCount_exec (op : Op) (pk : ℕ) :
    escalationCount pk (exec env op w).2.trace =
      (if op.escalates = some pk then 1 else 0) + escalationCount pk w.trace := by
  rw [exec_trace, escalationCount, List.countP_cons, Nat.add_comm]
  simp [escalationCount]

/-- One permitted operation that is up to date takes a terminal row to a terminal row,
unless it escalates that row. -/
theorem terminal_exec {op : Op} (hp : Permits S h op) (hR : UpToDate h w op (exec env op w).1)
    {pk : ℕ} {s : Status} (hs : w.sessions.statusOf pk = some s) (ht : s.terminal = true)
    (he : op.escalates ≠ some pk) :
    ∃ s', (exec env op w).2.sessions.statusOf pk = some s' ∧ s'.terminal = true := by
  rcases op.write_cases with hop | ⟨res, rfl⟩ | ⟨pk', u, rfl⟩
  · rw [exec_sessions hop]
    exact ⟨s, hs, ht⟩
  · exact ⟨s, statusOf_tryReserve res hs, ht⟩
  rw [exec_update_sessions, statusOf_update, hs]
  by_cases hpk : pk = pk'
  swap
  · exact ⟨s, by simp [hpk], ht⟩
  subst hpk
  simp only [if_true, Option.map_some, Option.some.injEq, exists_eq_left']
  rcases hp.update_cases with hu | ⟨s', hu, hs'⟩ | hu | ⟨hu, b, hb, hba⟩
  · rw [hu]
    exact ht
  · rw [hu]
    exact hs'
  · have hesc : Op.escalates (.update pk u) = some pk := by simp [Op.escalates, hu]
    exact absurd hesc he
  · -- overwriting blindly: the row would have to be active, and it is terminal
    cases hst : u.status with
    | none => exact ht
    | some s' =>
      cases hact : s'.active with
      | false =>
        rw [Option.getD_some, Status.terminal_eq, hact]
        rfl
      | true =>
        have hsame := hR (pk, u) rfl hu ⟨s', hst, hact⟩ s hs
        rw [hb] at hsame
        cases hsame
        rw [Status.terminal_eq, hba] at ht
        cases ht

/-- **Terminal statuses are absorbing.** In every interleaving of tasks, with crashes and
restarts, in which no task writes an active status over a status that has changed since
it looked, a row that is terminal at some point (after `acts`) is terminal at every later
point (after `acts'` more), unless `_escalate_to_human` has marked it in between. -/
theorem terminal_absorbing (sessions : Sessions) (events : WebhookEvents) (now : Time)
    (acts acts' : List (Act Task ℕ)) :
    let c := (service env S).run ⟨{ sessions, events, now }, []⟩ acts
    (service env S).RunOK UpToDate c acts' →
      Absorbed c.world ((service env S).run c acts').world := by
  intro c hR
  -- the invariant compares the present with the state after `acts`
  let J : World → Prop := fun w =>
    ∀ pk, escalationCount pk c.world.trace ≤ escalationCount pk w.trace ∧
      ∀ s, c.world.sessions.statusOf pk = some s → s.terminal = true →
        escalationCount pk w.trace = escalationCount pk c.world.trace →
        ∃ s', w.sessions.statusOf pk = some s' ∧ s'.terminal = true
  have hboot : ∀ w n, J w → J (w.boot n) := by
    intro w n hJ pk
    rw [statusOf_boot]
    exact hJ pk
  have hstep : ∀ w h op, J w → Permits S h op → UpToDate h w op (exec env op w).1 →
      J (exec env op w).2 := by
    intro w h op hJ hp hup pk
    obtain ⟨hle, hJ⟩ := hJ pk
    rw [escalationCount_exec]
    refine ⟨by omega, ?_⟩
    intro s hs ht heq
    split at heq
    · -- this operation escalates the row, so the counts differ from here on
      omega
    · rename_i he
      obtain ⟨s', hs', ht'⟩ := hJ s hs ht (by omega)
      exact terminal_exec hp hup hs' ht' he
  have hstart : J c.world := fun pk => ⟨le_rfl, fun s hs ht _ => ⟨s, hs, ht⟩⟩
  have hkeeps : System.KeepsAll (contract S) Settled c := service_keeps _ acts
  obtain ⟨hend, -⟩ := service_inv J hboot hstep acts' hstart hkeeps hR
  intro pk s hs ht heq
  exact (hend pk).2 s hs ht heq

/-! ## Ticks that are overtaken, and ticks that are not -/

namespace Overtaken

def outside : Outside :=
  { Outside.calm with
    getSession := fun _ sessionId =>
      if sessionId = "devin-4" then .ok .exited else .ok { status := some "running" } }

def settings : Settings := { maxFixAttempts := 1 }

/-- An issue, and a tick that sees its session's end. -/
def solved : List (Act Task ℕ) :=
  .spawn (.securityIssue (.sample 1)) :: List.replicate 10 (.run 0) ++
  .spawn .poll :: List.replicate 12 (.run 1)

/-- A CI failure, which gets a child, and a tick that asks about the child. -/
def childPolled : List (Act Task ℕ) :=
  .spawn (.ciFailure (.sample 100)) :: List.replicate 12 (.run 2) ++
  .spawn .poll :: List.replicate 9 (.run 3)

theorem absorbed_without_overtaking :
    Absorbed ((service outside settings).run ⟨.initial 0, []⟩ solved).world
      ((service outside settings).run ((service outside settings).run ⟨.initial 0, []⟩ solved)
        childPolled).world :=
  terminal_absorbing .empty .empty 0 solved childPolled (by decide +kernel)

/-- The same CI failure; a tick that reads the child's row and Devin's answer about it; and
then a second CI failure, which escalates the parent and cancels the child. -/
def before : List (Act Task ℕ) :=
  solved ++
  .spawn (.ciFailure (.sample 100)) :: List.replicate 12 (.run 2) ++
  .spawn .poll :: List.replicate 5 (.run 3) ++
  .spawn (.ciFailure (.sample 101)) :: List.replicate 12 (.run 4)

/-- The rest of the tick. -/
def after : List (Act Task ℕ) := List.replicate 4 (.run 3)

/-- **The tick revives the child**: cancelled before, running after, and never escalated. -/
theorem tick_revives_cancelled_child :
    ¬Absorbed ((service outside settings).run ⟨.initial 0, []⟩ before).world
      ((service outside settings).run ((service outside settings).run ⟨.initial 0, []⟩ before)
        after).world := by
  intro h
  obtain ⟨s', hs', ht⟩ := h 2 .cancelled (by decide +kernel) rfl (by decide +kernel)
  have hrun : ((service outside settings).run ((service outside settings).run ⟨.initial 0, []⟩ before)
      after).world.sessions.statusOf 2 = some .running := by decide +kernel
  rw [hrun] at hs'
  cases hs'
  cases ht

end Overtaken

end Remediation
