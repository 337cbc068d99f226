import Mathlib.Data.Fintype.Defs
import Remediation.Proof.FixAttempts
import Remediation.Proof.Representation

/-!
# One agent on a branch

Two sessions at work on one PR push to one branch. The guard of the CI handler looks at the
row that `find_by_pr` picks, and at no other. Along a serial run there is one agent for each
PR at most, exactly if every fix session is reserved, and every poll puts a row to work on a
PR, while nobody else is at work on it (`one_agent_iff`). Two failing workflows on one commit
are enough for two (`two_fixes_race`).
-/

namespace Remediation

open Interaction Prog

/-! ## Who works on what -/

namespace SessionRow

/-- Active, and not waiting for a human. -/
def working (r : SessionRow) : Bool := r.status.active && r.status ≠ .needsAttention

/-- The PR that the session has opened, and the one that it is to fix. -/
def prs (r : SessionRow) : List String :=
  r.prUrl.toList ++ if r.triggerType = .ciFailure then [r.triggerRef] else []

def worksOn (r : SessionRow) (prUrl : String) : Bool := r.working && r.prs.contains prUrl

end SessionRow

/-- No two sessions are at work on one PR. -/
def OneAgent (t : Sessions) : Prop :=
  ∀ prUrl, ∀ r ∈ t.rows, ∀ s ∈ t.rows, r.worksOn prUrl = true → s.worksOn prUrl = true → r = s

/-- What is put to work on a PR finds nobody else at work on it: a fix session when it is
reserved, and a row when a poll writes to it. -/
def Alone (_ : Hist) (w : World) : (op : Op) → Ans op → Prop
  | .tryReserve res, _ => res.triggerType = .ciFailure →
      res.workKey ∉ w.sessions.rows.map (·.workKey) →
        ∀ s ∈ w.sessions.rows, s.worksOn res.triggerRef = false
  | .update pk u, _ => u.lastPolledAt.isSome = true → ∀ r ∈ w.sessions.rows, r.id = pk →
      ∀ prUrl ∈ (u.apply r).prs, (u.apply r).worksOn prUrl = true → r.worksOn prUrl = false →
        ∀ s ∈ w.sessions.rows, s.id ≠ pk → s.worksOn prUrl = false
  | _, _ => True

instance (h : Hist) (w : World) : (op : Op) → (a : Ans op) → Decidable (Alone h w op a) := by
  intro op a
  cases op <;> unfold Alone <;> infer_instance

variable {env : Outside} {S : Settings} {w : World} {h : Hist} {op : Op}

theorem mem_prs_of_worksOn {r : SessionRow} {prUrl : String} (hr : r.worksOn prUrl = true) :
    prUrl ∈ r.prs := by
  simp only [SessionRow.worksOn, Bool.and_eq_true] at hr
  exact List.contains_iff_mem.1 hr.2

/-- A reserved row is at work on the PR that it is to fix, if any. -/
theorem worksOn_reservation {res : Reservation} {t : Time} {pk : ℕ} {prUrl : String} :
    (res.row t pk).worksOn prUrl = true ↔ res.triggerType = .ciFailure ∧ res.triggerRef = prUrl := by
  have hprs : (res.row t pk).prs = if res.triggerType = .ciFailure then [res.triggerRef] else [] :=
    rfl
  have hw : (res.row t pk).working = true := rfl
  simp only [SessionRow.worksOn, hw, hprs, Bool.true_and, List.contains_iff_mem]
  split <;> rename_i ht <;> simp [ht, eq_comm]

/-! ## One operation -/

/-- Only a poll puts a row to work that was not at work before. -/
theorem Permits.update_worksOn {pk : ℕ} {u : Update} (hC : Current h w)
    (hp : Permits S h (.update pk u)) {r : SessionRow} (hr : r ∈ w.sessions.rows) (hid : r.id = pk)
    {prUrl : String} (hu : (u.apply r).worksOn prUrl = true) :
    u.lastPolledAt.isSome = true ∨ r.worksOn prUrl = true := by
  have hget := w.sessions.get_eq_some.2 ⟨hr, hid⟩
  cases hp with
  | quiet hop => cases hop
  | fail _ => cases hu
  | activate hs =>
    -- the row is as it was inserted, and was at work as such
    obtain ⟨res, t, ht⟩ := hC.spawnedRow _ _ hs
    rw [hget] at ht
    rw [Option.some.inj ht] at hu ⊢
    exact Or.inr hu
  | escalate _ _ _ _ => cases hu
  | cancelChild _ _ _ _ _ => cases hu
  | poll _ _ _ _ _ hw => exact Or.inl (by cases hw <;> rfl)

theorem oneAgent_step (hJ : OneAgent w.sessions) (hC : Current h w) (hp : Permits S h op)
    (hR : Alone h w op (exec env op w).1) : OneAgent (exec env op w).2.sessions := by
  intro prUrl r hr s hs hrw hsw
  rcases op.write_cases with hop | ⟨res, rfl⟩ | ⟨pk, u, rfl⟩
  · rw [exec_sessions hop] at hr hs
    exact hJ prUrl r hr s hs hrw hsw
  · rcases exec_tryReserve env w res with ⟨pk, t, -, ht, hw⟩ | ⟨-, -, hw⟩
    swap
    · rw [hw] at hr hs
      exact hJ prUrl r hr s hs hrw hsw
    obtain ⟨-, hfree, hrows⟩ := Sessions.tryReserve_eq_some ht
    -- nobody is at work on what the new row is to fix
    have halone : (res.row (w.tick env).now pk).worksOn prUrl = true →
        ∀ q ∈ w.sessions.rows, q.worksOn prUrl = true → False := by
      intro hnew q hq hqw
      obtain ⟨htype, rfl⟩ := worksOn_reservation.1 hnew
      rw [hR htype hfree q hq] at hqw
      cases hqw
    rw [hw, hrows, List.mem_append, List.mem_singleton] at hr hs
    rcases hr with hr | rfl
    · rcases hs with hs | rfl
      · exact hJ prUrl r hr s hs hrw hsw
      · exact (halone hsw r hr hrw).elim
    · rcases hs with hs | rfl
      · exact (halone hrw s hs hsw).elim
      · rfl
  · -- the row that is written to, and another one
    have hother : ∀ r ∈ w.sessions.rows, ∀ s ∈ w.sessions.rows, r.id = pk → s.id ≠ pk →
        (u.apply r).worksOn prUrl = true → s.worksOn prUrl = true → False := by
      intro r hr s hs hid hne hrw hsw
      cases hold : r.worksOn prUrl with
      | true =>
        obtain rfl := hJ prUrl r hr s hs hold hsw
        exact hne hid
      | false =>
        rcases hp.update_worksOn hC hr hid hrw with hpoll | hwas
        · rw [hR hpoll r hr hid prUrl (mem_prs_of_worksOn hrw) hrw hold s hs hne] at hsw
          cases hsw
        · rw [hold] at hwas
          cases hwas
    rcases Sessions.mem_update.1 hr with ⟨hr, hrne⟩ | ⟨r', hr', hrid, rfl⟩
    · rcases Sessions.mem_update.1 hs with ⟨hs, hsne⟩ | ⟨s', hs', hsid, rfl⟩
      · exact hJ prUrl r hr s hs hrw hsw
      · exact (hother s' hs' r hr hsid hrne hsw hrw).elim
    · rcases Sessions.mem_update.1 hs with ⟨hs, hsne⟩ | ⟨s', hs', hsid, rfl⟩
      · exact (hother r' hr' s hs hrid hsne hrw hsw).elim
      · rw [w.sessions.eq_of_id hr' hs' (hrid.trans hsid.symm)]

/-- What is put to work while another is at work on the PR makes two. -/
theorem alone_of_oneAgent (hJ : OneAgent (exec env op w).2.sessions) (a : Ans op) :
    Alone h w op a := by
  cases op with
  | tryReserve res =>
    intro htype hfree s hs
    rcases exec_tryReserve env w res with ⟨pk, t, -, ht, hw⟩ | ⟨-, ht, -⟩
    · obtain ⟨hpk, -, hrows⟩ := Sessions.tryReserve_eq_some ht
      rw [Bool.eq_false_iff]
      intro hsw
      have hnew : (res.row (w.tick env).now pk).worksOn res.triggerRef = true :=
        worksOn_reservation.2 ⟨htype, rfl⟩
      rw [hw] at hJ
      have heq := hJ res.triggerRef s (by rw [hrows]; exact List.mem_append_left _ hs) _
        (by rw [hrows]; exact List.mem_append_right _ List.mem_cons_self) hsw hnew
      -- the key of the new row is new
      have hlt := w.sessions.fresh s hs
      rw [heq, hpk] at hlt
      exact absurd hlt (lt_irrefl _)
    · exact absurd (Table.insert_eq_none.1 ht) hfree
  | update pk u =>
    intro _ r hr hid prUrl _ hrw _ s hs hne
    rw [Bool.eq_false_iff]
    intro hsw
    have heq := hJ prUrl (u.apply r) (Sessions.mem_update.2 (Or.inr ⟨r, hr, hid, rfl⟩)) s
      (Sessions.mem_update.2 (Or.inl ⟨hs, hne⟩)) hrw hsw
    exact hne (by rw [← heq, Update.apply_id, hid])
  | _ => trivial

/-! ## Runs -/

theorem OneAgent.initial (now : Time) : OneAgent (World.initial now).sessions :=
  fun _ r hr => by cases hr

/-- **When no two agents race**: before every operation of a serial run from the empty database
and at its end there is one agent for each PR at most, exactly if everything that is put to
work on a PR finds nobody else at work on it. -/
theorem one_agent_iff (now : Time) (tasks : List Task) :
    SerialOK env S (fun _ w _ _ => OneAgent w.sessions) (.initial now) tasks ∧
        OneAgent (runSerial env S (.initial now) tasks).sessions ↔
      SerialOK env S Alone (.initial now) tasks := by
  have hstep : ∀ h w op, OneAgent w.sessions → Current h w → Permits S h op →
      Alone h w op (exec env op w).1 → OneAgent (exec env op w).2.sessions :=
    fun h w op hJ hC hp hR => oneAgent_step hJ hC hp hR
  constructor
  · rintro ⟨hbefore, hend⟩
    exact (hbefore.next hend).mono fun h w op a hJ => alone_of_oneAgent hJ a
  · intro hR
    exact ⟨serial_along (fun w => OneAgent w.sessions) (fun _ w => OneAgent w.sessions)
        (fun _ hI => hI) (fun _ _ hJ _ => hJ) hstep tasks (OneAgent.initial now) hR,
      serial_inv (fun w => OneAgent w.sessions) (fun _ w => OneAgent w.sessions)
        (fun _ hI => hI) (fun _ _ hJ _ => hJ) hstep tasks (OneAgent.initial now) hR⟩

namespace TwoWorkflows

/-- An issue, a tick in which its session has exited with the PR, and two workflows that fail
on the PR. -/
def tasks : List Task :=
  [.securityIssue (.sample 1), .poll, .ciFailure (.sample 100), .ciFailure (.sample 101)]

/-- **Two fixes race**: the session of the issue has ended, so each failure gets its own. -/
theorem two_fixes_race :
    ¬OneAgent (runSerial Siblings.outside {} (.initial 0) tasks).sessions := by
  intro hone
  have htwo : ∃ r ∈ (runSerial Siblings.outside {} (.initial 0) tasks).sessions.rows,
      ∃ s ∈ (runSerial Siblings.outside {} (.initial 0) tasks).sessions.rows,
        r.worksOn "https://github.com/o/r/pull/7" = true ∧
        s.worksOn "https://github.com/o/r/pull/7" = true ∧ r.id ≠ s.id := by decide +kernel
  obtain ⟨r, hr, s, hs, hrw, hsw, hne⟩ := htwo
  exact hne (congrArg _ (hone _ r hr s hs hrw hsw))

end TwoWorkflows

end Remediation
