import Remediation.Proof.FixAttempts

/-!
# The time of completion

`completed_at` goes with a terminal status (`Dated`): the dashboard's duration and the
poller's own test of it count on that. All writers keep the two in step but the
escalation, which takes the parent back to `needs_attention` with its time of completion,
and cancels the children without one.
-/

namespace Remediation

open Interaction

/-- A row has a time of completion exactly if it is terminal. -/
def SessionRow.Dated (r : SessionRow) : Prop := r.completedAt.isSome = true ↔ r.status.terminal = true

instance (r : SessionRow) : Decidable r.Dated := inferInstanceAs (Decidable (_ ↔ _))

/-- No CI failure finds the cap on attempts used up. -/
def BelowCap (S : Settings) (_ : Hist) (w : World) (op : Op) (_ : Ans op) : Prop :=
  ∀ parent ∈ op.countsFor, w.sessions.maxFixAttemptForParent parent < S.maxFixAttempts

instance (S : Settings) (h : Hist) (w : World) (op : Op) (a : Ans op) :
    Decidable (BelowCap S h w op a) :=
  inferInstanceAs (Decidable (∀ parent ∈ op.countsFor, _))

/-- Inside a task: no cap has been met, and nothing has been escalated. -/
structure AllDated (S : Settings) (h : Hist) (w : World) : Prop where
  rows : ∀ r ∈ w.sessions.rows, r.Dated
  counts : ∀ prUrl p m, counted h = some (prUrl, p, m) → m < S.maxFixAttempts
  calm : announcing h = none

variable {env : Outside} {S : Settings} {w : World} {h : Hist} {op : Op}

theorem SessionRow.Dated.still_open {r : SessionRow} (hc : r.completedAt = none)
    (hs : r.status.terminal = false) : r.Dated := by
  simp [SessionRow.Dated, hc, hs]

/-- What a poll writes to an active row keeps the two columns in step. -/
theorem PollWrite.dated {row : SessionRow} {remote : SessionDetails} {stop : Bool} {u : Update}
    (hu : PollWrite row remote stop u) (hact : row.status.active = true) (hr : row.Dated) :
    (u.apply row).Dated := by
  have hterm : row.status.terminal = false := by rw [Status.terminal_eq, hact]; rfl
  have hnone : row.completedAt = none := by
    unfold SessionRow.Dated at hr
    rw [hterm] at hr
    simpa using hr
  unfold SessionRow.Dated
  cases hu with
  | timedOut => exact ⟨fun _ => rfl, fun _ => rfl⟩
  | unchanged => simpa [hnone] using hterm
  | merged => exact ⟨fun _ => rfl, fun _ => rfl⟩
  | closed => exact ⟨fun _ => rfl, fun _ => rfl⟩
  | ended _ _ _ _ _ ht => simp [pollUpdate, ht]
  | mirrored _ _ _ _ hn =>
    -- the end of a session would have been dated
    have hn' : remote.status.terminal = false := by simpa [hnone] using hn
    simp [pollUpdate, hnone, hn']

/-- **Every UPDATE but those of an escalation keeps the columns in step.** -/
theorem Permits.update_dated {pk : ℕ} {u : Update} (hJ : AllDated S h w) (hC : Current h w)
    (hp : Permits S h (.update pk u)) {r : SessionRow} (hr : r ∈ w.sessions.rows) (hid : r.id = pk) :
    (u.apply r).Dated := by
  have hget := w.sessions.get_eq_some.2 ⟨hr, hid⟩
  cases hp with
  | quiet hop => cases hop
  | fail _ => exact ⟨fun _ => rfl, fun _ => rfl⟩
  | activate hs =>
    -- the row is as it was inserted
    obtain ⟨res, t, ht⟩ := hC.spawnedRow _ _ hs
    rw [hget] at ht
    rw [Option.some.inj ht]
    exact .still_open rfl rfl
  | escalate _ hm hcap =>
    have := hJ.counts _ _ _ hm
    omega
  | cancelChild _ _ _ _ ha =>
    rw [hJ.calm] at ha
    cases ha
  | poll _ hs hact _ _ hu =>
    rw [hC.seenRow _ _ hs] at hget
    rw [← Option.some.inj hget]
    exact hu.dated hact (hJ.rows _ (Option.some.inj hget ▸ hr))

/-- What a task counts is below the cap. -/
theorem counted_lt (hJ : AllDated S h w) (hR : BelowCap S h w op (exec env op w).1)
    {prUrl : String} {p : SessionRow} {m : ℕ}
    (hm : counted (⟨op, (exec env op w).1⟩ :: h) = some (prUrl, p, m)) : m < S.maxFixAttempts := by
  cases op with
  | maxFixAttemptForParent parent =>
    obtain ⟨c, -, he⟩ := Option.map_eq_some_iff.1 hm
    cases he
    exact hR parent rfl
  | findByPr prUrl => cases hm
  | tryReserve res => cases hm
  | update pk u => cases hm
  | _ => exact hJ.counts prUrl p m hm

/-- Below the cap nothing is escalated. -/
theorem announcing_exec (hJ : AllDated S h w) (hp : Permits S h op) (a : Ans op) :
    announcing (⟨op, a⟩ :: h) = none := by
  cases op with
  | update pk u =>
    have hu : u.escalates = false := by
      cases hp with
      | quiet hop => cases hop
      | escalate _ hm hcap =>
        have := hJ.counts _ _ _ hm
        omega
      | poll _ _ _ _ _ hu => cases hu <;> simp [Update.escalates, pollUpdate]
      | _ => rfl
    rw [announcing, hu]
    exact hJ.calm
  | postPrComment pk repo n body => rfl
  | _ => exact hJ.calm

theorem allDated_step (hJ : AllDated S h w) (hC : Current h w) (hp : Permits S h op)
    (hR : BelowCap S h w op (exec env op w).1) :
    AllDated S (⟨op, (exec env op w).1⟩ :: h) (exec env op w).2 where
  rows := by
    intro r hr
    rcases mem_exec hr with ⟨hr, -⟩ | ⟨res, -, rfl, -⟩ | ⟨r', hr', u, rfl, rfl⟩
    · exact hJ.rows r hr
    · exact .still_open rfl rfl
    · exact hp.update_dated hJ hC hr' rfl
  counts := fun _ _ _ hm => counted_lt hJ hR hm
  calm := announcing_exec hJ hp _

/-- **Completion times**: after every serial run from the empty database in which no CI failure
finds the cap used up, a row has one exactly if it is terminal. -/
theorem completed_at_iff_terminal (now : Time) (tasks : List Task)
    (hR : SerialOK env S (BelowCap S) (.initial now) tasks) :
    ∀ r ∈ (runSerial env S (.initial now) tasks).sessions.rows, r.Dated := by
  have nothing_counted : ∀ prUrl p m, counted [] = some (prUrl, p, m) → m < S.maxFixAttempts :=
    fun _ _ _ hm => by cases hm
  have hinv : AllDated S [] (runSerial env S (.initial now) tasks) :=
    serial_inv (R := BelowCap S) (AllDated S []) (AllDated S) (fun w hI => hI)
      (fun h w hJ _ => ⟨hJ.rows, nothing_counted, rfl⟩)
      (fun h w op hJ hC hp hR => allDated_step hJ hC hp hR) tasks
      ⟨(fun _ hr => by cases hr), nothing_counted, rfl⟩ hR
  exact hinv.rows

theorem completed_at_two_fixes :
    SerialOK Siblings.outside {} (BelowCap {}) (.initial 0) Siblings.twoFixes ∧
      ∀ r ∈ (runSerial Siblings.outside {} (.initial 0) Siblings.twoFixes).sessions.rows,
        r.Dated := by
  have hbelow : SerialOK Siblings.outside {} (BelowCap {}) (.initial 0) Siblings.twoFixes := by
    decide +kernel
  exact ⟨hbelow, completed_at_iff_terminal 0 Siblings.twoFixes hbelow⟩

/-- **An escalation breaks it twice**: with one attempt allowed, a second CI failure takes the
completed parent back to `needs_attention` and cancels the first attempt. -/
theorem escalation_misdates :
    ¬∀ r ∈ (runSerial Siblings.outside { maxFixAttempts := 1 } (.initial 0)
      [.securityIssue (.sample 1), .poll, .ciFailure (.sample 100),
        .ciFailure (.sample 101)]).sessions.rows, r.Dated := by
  decide +kernel

end Remediation
