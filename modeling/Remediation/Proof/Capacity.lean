import Remediation.Proof.Absorbing

/-!
# The cap on active sessions

`MAX_CONCURRENT_SESSIONS` is checked by a `count_active` that comes before the INSERT,
and by nothing where the poller, a handler or the escalation writes a status. The cap
holds along every interleaving in which these checks are not overtaken
(`active_within_cap`); two handlers that count before either inserts break it
(`race_exceeds_cap`).
-/

namespace Remediation

open Interaction

/-- What an operation reserves. -/
def Op.reservation : Op → Option Reservation
  | .tryReserve res => some res
  | _ => none

/-- No check is overtaken: at an INSERT no more rows are active than the task has counted,
an escalation finds room for the row it makes active, and no status is overwritten that
has changed since the task looked. -/
def Unraced (S : Settings) (h : Hist) (w : World) (op : Op) (a : Ans op) : Prop :=
  (op.reservation.isSome → ∀ n ∈ lastCount h, w.sessions.countActive ≤ n) ∧
  (op.escalates.isSome → w.sessions.countActive < S.maxConcurrentSessions) ∧ UpToDate h w op a

instance (S : Settings) (h : Hist) (w : World) (op : Op) (a : Ans op) :
    Decidable (Unraced S h w op a) :=
  inferInstanceAs (Decidable (_ ∧ _ ∧ _))

variable {env : Outside} {S : Settings} {h : Hist} {w : World}

/-- One permitted operation that is not raced keeps the cap. -/
theorem countActive_exec {op : Op} (hp : Permits S h op) (hR : Unraced S h w op (exec env op w).1)
    (hcap : w.sessions.countActive ≤ S.maxConcurrentSessions) :
    (exec env op w).2.sessions.countActive ≤ S.maxConcurrentSessions := by
  obtain ⟨hins, hesc, hup⟩ := hR
  rcases op.write_cases with hop | ⟨res, rfl⟩ | ⟨pk, u, rfl⟩
  · rw [exec_sessions hop]
    exact hcap
  · -- the task has counted fewer than the cap, and no more rows are active now
    have hroom : w.sessions.countActive < S.maxConcurrentSessions := by
      cases hp with
      | quiet hop => cases hop
      | reserveIssue _ hn hlt => exact lt_of_le_of_lt (hins rfl _ hn) hlt
      | reserveFix _ hn hlt _ _ => exact lt_of_le_of_lt (hins rfl _ hn) hlt
    have hle : (exec env (.tryReserve res) w).2.sessions.countActive ≤ w.sessions.countActive + 1 :=
      countActive_tryReserve_le res
    omega
  rw [exec_update_sessions]
  rcases hp.update_cases with hu | ⟨s, hu, hs⟩ | hu | ⟨hu, b, hb, hba⟩
  · refine (countActive_update_le ?_).trans hcap
    intro s s' hs
    rw [hu] at hs
    cases hs
  · refine (countActive_update_le ?_).trans hcap
    intro s' s'' hs' ha
    rw [hu] at hs'
    cases hs'
    rw [Status.terminal_eq, ha] at hs
    cases hs
  · have hroom : w.sessions.countActive < S.maxConcurrentSessions :=
      hesc (by simp [Op.escalates, hu])
    have hle := countActive_update_succ pk u w.sessions
    omega
  · -- a status taken to be active is overwritten, and it still is what it was
    refine (countActive_update_le ?_).trans hcap
    intro s s' hs ha hs'
    have hsame := hup (pk, u) rfl hu ⟨s, hs, ha⟩ s' hs'
    rw [hb] at hsame
    cases hsame
    exact hba

/-- **The cap holds where no check is overtaken.** From a table with at most
`MAX_CONCURRENT_SESSIONS` active rows, along every interleaving of tasks, with crashes
and restarts. -/
theorem active_within_cap (sessions : Sessions) (events : WebhookEvents) (now : Time)
    (hcap : sessions.countActive ≤ S.maxConcurrentSessions) (acts : List (Act Task ℕ))
    (hR : (service env S).RunOK (Unraced S) ⟨{ sessions, events, now }, []⟩ acts) :
    ((service env S).run ⟨{ sessions, events, now }, []⟩ acts).world.sessions.countActive ≤
      S.maxConcurrentSessions := by
  let J : World → Prop := fun w => w.sessions.countActive ≤ S.maxConcurrentSessions
  have hboot : ∀ w n, J w → J (w.boot n) := by
    intro w n hw
    show (w.boot n).sessions.countActive ≤ _
    rw [countActive_boot]
    exact hw
  have hstep : ∀ w h op, J w → Permits S h op → Unraced S h w op (exec env op w).1 →
      J (exec env op w).2 := fun w h op hw hp hr => countActive_exec hp hr hw
  exact (service_inv J hboot hstep acts hcap (by simp [System.KeepsAll]) hR).1

/-! ## Two issues and one place -/

namespace Race

def settings : Settings := { maxConcurrentSessions := 1 }

/-- One handler after the other. -/
def inTurn : List (Act Task ℕ) :=
  .spawn (.securityIssue (.sample 1)) :: List.replicate 6 (.run 0) ++
  .spawn (.securityIssue (.sample 2)) :: List.replicate 6 (.run 1)

theorem cap_kept_in_turn :
    ((service .calm settings).run ⟨.initial 0, []⟩ inTurn).world.sessions.countActive ≤ 1 :=
  active_within_cap (S := settings) .empty .empty 0 (by decide) inTurn
    (by decide +kernel)

/-- Both handlers count before either reserves. -/
def raced : List (Act Task ℕ) :=
  [.spawn (.securityIssue (.sample 1)), .spawn (.securityIssue (.sample 2)), .run 0, .run 1] ++
  List.replicate 5 (.run 0) ++ List.replicate 5 (.run 1)

/-- **The race exceeds the cap**: two rows are active where one is allowed. -/
theorem race_exceeds_cap :
    (World.initial 0).sessions.countActive ≤ settings.maxConcurrentSessions ∧
      ¬((service .calm settings).run ⟨.initial 0, []⟩ raced).world.sessions.countActive ≤
        settings.maxConcurrentSessions := by
  decide +kernel

end Race

end Remediation
