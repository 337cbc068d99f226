import Remediation.Proof.Representation
import Remediation.Spec.Stage

/-!
# What `verified` stands for

The stage is derived from rows that do not hold the state of the pull request. A row is
`completed` by a merge, or by the end of its session with no pull request reported as
closed: which of the two was reported last holds at every point of every serial run
(`verified_after_merge_or_exit`). That it was a merge does not (`exit_is_verified`).
-/

namespace Remediation

open Interaction

/-- Devin's last answer about a session. -/
def lastAnswer (x : String) : Hist → Option ApiSession
  | [] => none
  | ⟨.getSession y, .ok data⟩ :: h => if y = x then some data else lastAnswer x h
  | _ :: h => lastAnswer x h

/-- The first pull request was reported as merged. -/
def ApiSession.merged (data : ApiSession) : Prop := (fromApiResponse data).prState = some "merged"

/-- The session was reported to have exited, and no first pull request to be closed. -/
def ApiSession.exitedOpen (data : ApiSession) : Prop :=
  data.status = some "exit" ∧ (fromApiResponse data).prState ≠ some "closed"

/-- What Devin said last about the session of a row. -/
def SessionRow.LastSaid (r : SessionRow) (w : World) (P : ApiSession → Prop) : Prop :=
  ∃ x data, r.devinSessionId = some x ∧ lastAnswer x w.trace = some data ∧ P data

/-- Each row of an issue that is shown as verified has been told so by an answer with `P`. -/
def World.Verified (P : ApiSession → Prop) (w : World) : Prop :=
  ∀ r ∈ w.sessions.rows, r.triggerType = .cveIssue →
    computeStage r w.sessions.rows = "verified" → r.LastSaid w P

/-- Inside a task: sessions belong to one row each, and every completed row has been told so. -/
structure Reported (h : Hist) (w : World) : Prop where
  distinct : ∀ r ∈ w.sessions.rows, ∀ s ∈ w.sessions.rows, ∀ x, r.devinSessionId = some x →
    s.devinSessionId = some x → r = s
  unused : ∀ pk created, justSpawned h = some (pk, created) →
    ∀ r ∈ w.sessions.rows, r.devinSessionId ≠ some created.devinSessionId
  answers : ∀ x data, answered x h = some data → lastAnswer x w.trace = some data
  completed : ∀ r ∈ w.sessions.rows, r.status = .completed →
    r.LastSaid w fun data => data.merged ∨ data.exitedOpen

variable {env : Outside} {S : Settings} {w : World} {h : Hist} {op : Op}

/-! ## One operation -/

theorem exit_of_completed {data : ApiSession} (hs : (fromApiResponse data).status = .completed) :
    data.status = some "exit" := by
  unfold fromApiResponse at hs
  cases hraw : PyText.truthy data.status with
  | none =>
    rw [hraw] at hs
    have hunknown : mapStatus "unknown" = .completed := hs
    exact absurd hunknown (by decide)
  | some raw =>
    rw [hraw] at hs
    obtain ⟨hd, -⟩ := PyText.truthy_eq_some.1 hraw
    have hexit : raw = "exit" := by
      simp only [Option.getD_some, mapStatus] at hs
      split_ifs at hs
      assumption
    rw [hd, hexit]

/-- A poll completes an active row upon a merge, or upon an exit. -/
theorem PollWrite.completed {row : SessionRow} {data : ApiSession} {stop : Bool} {u : Update}
    (hu : PollWrite row (fromApiResponse data) stop u) (hact : row.status.active = true)
    (hc : (u.apply row).status = .completed) : data.merged ∨ data.exitedOpen := by
  cases hu with
  | timedOut => cases hc
  | unchanged =>
    have hrow : row.status = .completed := hc
    rw [hrow] at hact
    cases hact
  | merged _ _ _ hm => exact Or.inl hm
  | closed => cases hc
  | ended _ _ _ _ hnc _ _ => exact Or.inr ⟨exit_of_completed hc, hnc⟩
  | mirrored _ _ _ hnc _ => exact Or.inr ⟨exit_of_completed hc, hnc⟩

/-- Only a poll completes a row. -/
theorem Permits.update_completed {pk : ℕ} {u : Update} (hC : Current h w)
    (hp : Permits S h (.update pk u)) {r : SessionRow} (hr : r ∈ w.sessions.rows) (hid : r.id = pk)
    (hc : (u.apply r).status = .completed) :
    u.devinSessionId = none ∧ ∃ x data, r.devinSessionId = some x ∧ answered x h = some data ∧
      (data.merged ∨ data.exitedOpen) := by
  cases hp with
  | quiet hop => cases hop
  | poll _ hs hact hx hd hu =>
    have hget := w.sessions.get_eq_some.2 ⟨hr, hid⟩
    rw [hC.seenRow _ _ hs] at hget
    cases hget
    exact ⟨by cases hu <;> rfl, _, _, hx, hd, hu.completed hact hc⟩
  | _ => cases hc

/-- **Only the poller asks**, and only about an active row: what was said last about another
row's session stands. -/
theorem lastSaid_exec (hJ : Reported h w) (hC : Current h w) (hp : Permits S h op)
    {r : SessionRow} (hr : r ∈ w.sessions.rows) (hterm : r.status.active = false)
    {P : ApiSession → Prop} (hP : r.LastSaid w P) : r.LastSaid (exec env op w).2 P := by
  obtain ⟨x, data, hx, hlast, hP⟩ := hP
  refine ⟨x, data, hx, ?_, hP⟩
  rw [exec_trace]
  cases op with
  | getSession y =>
    cases (exec env (.getSession y) w).1 with
    | error exc => exact hlast
    | ok data' =>
      have hne : y ≠ x := by
        rintro rfl
        cases hp with
        | quiet _ _ hg =>
          obtain ⟨row, hs, hact, hy⟩ := hg
          obtain ⟨hrow, -⟩ := w.sessions.get_eq_some.1 (hC.seenRow _ _ hs)
          obtain rfl := hJ.distinct r hr row hrow y hx hy
          rw [hact] at hterm
          cases hterm
      rw [lastAnswer, if_neg hne]
      exact hlast
  | _ => exact hlast

/-- What a task remembers of Devin's answers is what was said last. -/
theorem answers_exec (hJ : Reported h w) {x : String} {data : ApiSession}
    (ha : answered x (⟨op, (exec env op w).1⟩ :: h) = some data) :
    lastAnswer x (exec env op w).2.trace = some data := by
  rw [exec_trace]
  cases op with
  | getSession y =>
    cases hans : (exec env (.getSession y) w).1 with
    | error exc =>
      rw [hans] at ha
      exact hJ.answers x data ha
    | ok data' =>
      rw [hans] at ha
      simp only [answered, lastAnswer] at ha ⊢
      split at ha
      · rename_i hyx
        rw [if_pos hyx]
        exact ha
      · rename_i hyx
        rw [if_neg hyx]
        exact hJ.answers x data ha
  | createSession key req => cases ha
  | tryReserve res => cases ha
  | update pk u => cases ha
  | _ => exact hJ.answers x data ha

/-- An UPDATE gives a row no id, or one that no row has yet. -/
theorem Permits.update_id {pk : ℕ} {u : Update} (hJ : Reported h w) (hp : Permits S h (.update pk u)) :
    u.devinSessionId = none ∨ ∃ x, u.devinSessionId = some x ∧
      ∀ r ∈ w.sessions.rows, r.devinSessionId ≠ some x := by
  rcases hp.update_devinSessionId with hu | ⟨created, hj, hu⟩
  · exact Or.inl hu
  · exact Or.inr ⟨_, hu, hJ.unused _ _ hj⟩

/-- Where a row with a session id comes from: it was there with that id, or the id is new. -/
theorem named_before (hJ : Reported h w) (hp : Permits S h op) {r : SessionRow} {x : String}
    (hr : r ∈ (exec env op w).2.sessions.rows) (hx : r.devinSessionId = some x) :
    (∃ r' ∈ w.sessions.rows, r'.id = r.id ∧ r'.devinSessionId = some x) ∨
      (∃ u, op = .update r.id u) ∧ ∀ s ∈ w.sessions.rows, s.devinSessionId ≠ some x := by
  rcases mem_exec hr with ⟨hr, -⟩ | ⟨res, -, rfl, -⟩ | ⟨r', hr', u, rfl, rfl⟩
  · exact Or.inl ⟨r, hr, rfl, hx⟩
  · cases hx
  · rw [Update.apply_devinSessionId] at hx
    rcases hp.update_id hJ with hu | ⟨y, hu, hnew⟩
    · rw [hu] at hx
      exact Or.inl ⟨r', hr', rfl, hx⟩
    · rw [hu] at hx
      cases hx
      exact Or.inr ⟨⟨u, rfl⟩, hnew⟩

theorem reported_step (hJ : Reported h w) (hC : Current h w) (hp : Permits S h op)
    (hD : FreshIds h w op (exec env op w).1) :
    Reported (⟨op, (exec env op w).1⟩ :: h) (exec env op w).2 where
  distinct := by
    intro r hr s hs x hrx hsx
    refine (exec env op w).2.sessions.eq_of_id hr hs ?_
    rcases named_before hJ hp hr hrx with ⟨r', hr', hrid, hrx'⟩ | ⟨⟨u, hu⟩, hnew⟩
    · rcases named_before hJ hp hs hsx with ⟨s', hs', hsid, hsx'⟩ | ⟨-, hnew⟩
      · rw [← hrid, ← hsid, hJ.distinct r' hr' s' hs' x hrx' hsx']
      · exact absurd hrx' (hnew r' hr')
    · rcases named_before hJ hp hs hsx with ⟨s', hs', -, hsx'⟩ | ⟨⟨u', hu'⟩, -⟩
      · exact absurd hsx' (hnew s' hs')
      · -- both would be the row that is written
        rw [hu] at hu'
        exact (Op.update.inj hu').1
  unused := by
    intro pk created hj
    cases op with
    | createSession key req =>
      cases ha : (exec env (.createSession key req) w).1 with
      | error exc => rw [ha] at hj; cases hj
      | ok created' =>
        rw [ha] at hj hD
        obtain ⟨hd, -, he⟩ := Option.map_eq_some_iff.1 hj
        cases he
        exact (hD created rfl).2
    | _ => cases hj
  answers := fun _ _ ha => answers_exec hJ ha
  completed := by
    intro r hr hc
    rcases mem_exec hr with ⟨hr, -⟩ | ⟨res, -, rfl, -⟩ | ⟨r', hr', u, rfl, rfl⟩
    · exact lastSaid_exec hJ hC hp hr (by rw [hc]; rfl) (hJ.completed r hr hc)
    · cases hc
    · obtain ⟨hu, x, data, hx, ha, hP⟩ := hp.update_completed hC hr' rfl hc
      refine ⟨x, data, ?_, hJ.answers x data ha, hP⟩
      rw [Update.apply_devinSessionId, hu]
      exact hx

/-! ## Runs -/

theorem Reported.initial (now : Time) : Reported [] (.initial now) where
  distinct _ hr := by cases hr
  unused _ _ hj := by cases hj
  answers _ _ ha := by cases ha
  completed _ hr := by cases hr

theorem Reported.leave (hJ : Reported h w) : Reported [] w where
  distinct := hJ.distinct
  unused _ _ hj := by cases hj
  answers _ _ ha := by cases ha
  completed := hJ.completed

theorem Reported.verified (hJ : Reported h w) :
    w.Verified fun data => data.merged ∨ data.exitedOpen := by
  intro r hr ht hv
  rw [computeStage, ht] at hv
  exact hJ.completed r hr (cveStage_verified.1 hv).1

/-- **What `verified` stands for**: before every operation of a serial run from the empty
database, and at its end, Devin has said last that the pull request is merged, or that the
session has exited, and not that its pull request is closed. -/
theorem verified_after_merge_or_exit (now : Time) (tasks : List Task)
    (hD : SerialOK env S FreshIds (.initial now) tasks) :
    SerialOK env S (fun _ w _ _ => w.Verified fun data => data.merged ∨ data.exitedOpen)
      (.initial now) tasks ∧
    (runSerial env S (.initial now) tasks).Verified fun data => data.merged ∨ data.exitedOpen := by
  have hstep : ∀ h w op, Reported h w → Current h w → Permits S h op →
      FreshIds h w op (exec env op w).1 → Reported (⟨op, (exec env op w).1⟩ :: h) (exec env op w).2 :=
    fun h w op hJ hC hp hD => reported_step hJ hC hp hD
  constructor
  · exact (serial_along (Reported []) Reported (fun w hI => hI) (fun h w hJ _ => hJ.leave) hstep
      tasks (Reported.initial now) hD).mono fun _ _ _ _ hJ => hJ.verified
  · exact Reported.verified (serial_inv (Reported []) Reported (fun w hI => hI)
      (fun h w hJ _ => hJ.leave) hstep tasks (Reported.initial now) hD)

namespace OpenPr

/-- An issue, and a tick in which its session has exited with its pull request still open. -/
def tasks : List Task := [.securityIssue (.sample 1), .poll]

theorem verified_after_exit :
    (runSerial Siblings.outside {} (.initial 0) tasks).Verified
      fun data => data.merged ∨ data.exitedOpen :=
  (verified_after_merge_or_exit 0 tasks (by decide +kernel)).2

/-- **An exit is verified as well**, although the pull request is open. -/
theorem exit_is_verified :
    ¬(runSerial Siblings.outside {} (.initial 0) tasks).Verified ApiSession.merged := by
  intro hv
  have hrow : ∃ r ∈ (runSerial Siblings.outside {} (.initial 0) tasks).sessions.rows,
      r.triggerType = .cveIssue ∧
      computeStage r (runSerial Siblings.outside {} (.initial 0) tasks).sessions.rows = "verified" ∧
      r.devinSessionId = some "devin-4" := by decide +kernel
  have hlast : (lastAnswer "devin-4" (runSerial Siblings.outside {} (.initial 0) tasks).trace).map
      (fun data => (fromApiResponse data).prState) = some (some "open") := by decide +kernel
  obtain ⟨r, hr, ht, hs, hx⟩ := hrow
  obtain ⟨x, data, hx', hd, hm⟩ := hv r hr ht hs
  rw [hx] at hx'
  cases hx'
  rw [hd] at hlast
  have hopen : (fromApiResponse data).prState = some "open" := Option.some.inj hlast
  unfold ApiSession.merged at hm
  rw [hopen] at hm
  exact absurd hm (by decide)

end OpenPr

end Remediation
