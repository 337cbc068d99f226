import Remediation.Proof.Room

/-!
# The guards of a fix session

`handle_ci_failure` runs a sequence of guards before it pays for a session. `LetThrough` is
what they ask for together, of the event, of the state before it and of what the outside
answers: the handler calls `create_session` exactly then (`creates_handleCiFailure`).
-/

namespace Remediation

open Interaction Prog PyText

/-- A program calls `create_session`, when it is run from `w`. -/
def Creates {α : Type} (env : Outside) (w : World) (p : M α) : Prop :=
  creations w.trace < creations (p.eval (exec env) w).2.trace

/-- The failing run is about a pull request on a Devin branch, which the service tracks with a
session that has ended. -/
structure OnTrackedPr (env : Outside) (S : Settings) (w : World) (t : FixTarget) : Prop where
  event : t.run.event = some "pull_request"
  repo : t.repo = t.run.repositoryFullName.getD S.forkRepo
  number : t.run.pullRequests.head?.bind prNumberOf = some t.prNumber
  fetched : ∃ pr, env.getPr w.clock t.repo t.prNumber = .ok (some pr) ∧
    pr.htmlUrl.getD "" = t.prUrl ∧ pr.headRef.getD "" = t.headRef
  devinBranch : startsWith t.headRef "devin/" = true
  parent : w.sessions.findByPr t.prUrl = some t.parent
  ended : t.parent.status.terminal = true

/-- Nobody else's commit is seen on the branch. -/
def CommitsPass (env : Outside) (S : Settings) (w : World) (t : FixTarget) : Prop :=
  ∃ commits, env.listPrCommits (w.clock + 3) t.repo t.prNumber = .ok commits ∧
    hasNonDevinCommits S.devinBotLogins commits = false

/-- There is an attempt left, room for it and a client, and the run has not been reserved. -/
structure Spare (env : Outside) (S : Settings) (w : World) (t : FixTarget) : Prop where
  belowCap : w.sessions.maxFixAttemptForParent t.parent.devinSessionId < S.maxFixAttempts
  room : w.sessions.countActive < S.maxConcurrentSessions
  fresh : t.workKey ∉ w.sessions.rows.map (·.workKey)
  client : env.getClient (w.clock + 7) = .ok ()

/-- All guards of `handle_ci_failure` let the run pass. -/
structure LetThrough (env : Outside) (S : Settings) (w : World) (t : FixTarget) : Prop where
  tracked : OnTrackedPr env S w t
  commits : CommitsPass env S w t
  spare : Spare env S w t

variable {env : Outside} {S : Settings} {w : World} {α β : Type}

/-! ## One operation -/

theorem not_creates_ret (a : α) : ¬Creates env w (.ret a : M α) := lt_irrefl _

theorem creates_call {op : Op} (hop : op.creates = none) (k : Ans op → M α) :
    Creates env w (.call op k) ↔ Creates env (exec env op w).2 (k (exec env op w).1) := by
  have hsame : creations (exec env op w).2.trace = creations w.trace := by
    rw [creations_exec, hop]
    rfl
  unfold Creates
  rw [hsame]
  exact Iff.rfl

/-- A call of `create_session` counts, whatever comes after it. -/
theorem creates_createSession (key : String) (req : CreateRequest)
    (k : Ans (.createSession key req) → M α) : Creates env w (.call (.createSession key req) k) := by
  have hone : creations (exec env (.createSession key req) w).2.trace = creations w.trace + 1 := by
    rw [creations_exec]
    rfl
  set w1 := (exec env (.createSession key req) w).2 with hw1
  obtain ⟨later, hl⟩ := trace_eval env (k (exec env (.createSession key req) w).1) w1
  have hrest : creations w1.trace ≤ creations (later ++ w1.trace) := by
    rw [creations, creations, List.countP_append]
    exact Nat.le_add_left _ _
  rw [Creates, eval_call, ← hw1, hl]
  omega

/-- What comes after the last call adds none. -/
theorem creates_bind_ret (p : M α) (f : α → β) :
    Creates env w (p.bind fun a => .ret (f a)) ↔ Creates env w p := by
  rw [Creates, eval_bind]
  exact Iff.rfl

theorem not_creates_of_takes {n : ℕ} {p : M α} (h : Takes n 0 w (p.eval (exec env) w).2) :
    ¬Creates env w p := by
  have := h.calls
  unfold Creates
  omega

/-! ## The handler, from its end -/

theorem creates_spawnSession (pk : ℕ) (workKey : String) (req : CreateRequest) :
    Creates env w (spawnSession pk workKey req) ↔ env.getClient w.clock = .ok () := by
  have hclient : (exec env .getClient w).1 = env.getClient w.clock := rfl
  unfold spawnSession
  simp only [perform, bind_eq, call_bind, ret_bind]
  rw [creates_call rfl, hclient]
  cases env.getClient w.clock with
  | error exc => exact iff_of_false (not_creates_of_takes (takes_failed (p := 0) pk _ _)) fun h => by cases h
  | ok u => exact iff_of_true (creates_createSession _ _ _) rfl

/-- The logs are fetched as well as possible. -/
theorem creates_fix (t : FixTarget) (n pk : ℕ) :
    Creates env w (fix S t n pk) ↔ env.getClient (w.clock + 1) = .ok () := by
  unfold fix
  simp only [perform, bind_eq, call_bind, ret_bind]
  rw [creates_call rfl]
  split
  · exact creates_spawnSession pk _ _
  · exact creates_spawnSession pk _ _

theorem creates_attemptFix (t : FixTarget) (n : ℕ) :
    Creates env w (attemptFix S t n) ↔
      (∃ commits, env.listPrCommits w.clock t.repo t.prNumber = .ok commits ∧
        hasNonDevinCommits S.devinBotLogins commits = false) ∧
      w.sessions.countActive < S.maxConcurrentSessions ∧
      t.workKey ∉ w.sessions.rows.map (·.workKey) ∧ env.getClient (w.clock + 4) = .ok () := by
  set w1 := (exec env (.listPrCommits t.repo t.prNumber) w).2 with hw1
  set w2 := (exec env .countActive w1).2 with hw2
  have hlist : (exec env (.listPrCommits t.repo t.prNumber) w).1 =
      env.listPrCommits w.clock t.repo t.prNumber := rfl
  have hcount : (exec env .countActive w1).1 = w.sessions.countActive := rfl
  unfold attemptFix
  simp only [perform, bind_eq, call_bind, ret_bind]
  rw [creates_call rfl, hlist, ← hw1]
  cases hc : env.listPrCommits w.clock t.repo t.prNumber with
  | error exc =>
    refine iff_of_false (not_creates_ret _) ?_
    rintro ⟨⟨commits, he, -⟩, -⟩
    cases he
  | ok commits =>
    dsimp only
    split
    · rename_i hforeign
      refine iff_of_false (not_creates_ret _) ?_
      rintro ⟨⟨commits', he, hno⟩, -⟩
      cases he
      rw [hforeign] at hno
      cases hno
    rename_i hforeign
    rw [creates_call rfl, hcount, ← hw2]
    have hcommits : ∃ commits', (.ok commits : Except Exc (List Commit)) = .ok commits' ∧
        hasNonDevinCommits S.devinBotLogins commits' = false :=
      ⟨commits, rfl, by simpa using hforeign⟩
    simp only [hcommits, true_and]
    split
    · rename_i hfull
      refine iff_of_false (not_creates_ret _) fun h => ?_
      have := h.1
      omega
    rename_i hroom
    rw [creates_call rfl]
    rcases exec_tryReserve env w2 (t.reservation n) with ⟨pk, t', ha, ht, -⟩ | ⟨ha, hno, -⟩
    · obtain ⟨-, hfresh, -⟩ := Sessions.tryReserve_eq_some ht
      rw [ha]
      dsimp only
      rw [creates_fix]
      exact ⟨fun hclient => ⟨by omega, hfresh, hclient⟩, fun h => h.2.2⟩
    · -- the run has been reserved before
      have htaken : t.workKey ∈ w.sessions.rows.map (·.workKey) := Table.insert_eq_none.1 hno
      rw [ha]
      exact iff_of_false (not_creates_ret _) fun h => h.2.1 htaken

theorem creates_fixOrEscalate (t : FixTarget) :
    Creates env w (fixOrEscalate S t) ↔
      w.sessions.maxFixAttemptForParent t.parent.devinSessionId < S.maxFixAttempts ∧
      (∃ commits, env.listPrCommits (w.clock + 1) t.repo t.prNumber = .ok commits ∧
        hasNonDevinCommits S.devinBotLogins commits = false) ∧
      w.sessions.countActive < S.maxConcurrentSessions ∧
      t.workKey ∉ w.sessions.rows.map (·.workKey) ∧ env.getClient (w.clock + 5) = .ok () := by
  set w1 := (exec env (.maxFixAttemptForParent t.parent.devinSessionId) w).2 with hw1
  have hmax : (exec env (.maxFixAttemptForParent t.parent.devinSessionId) w).1 =
      w.sessions.maxFixAttemptForParent t.parent.devinSessionId := rfl
  unfold fixOrEscalate
  simp only [perform, bind_eq, call_bind, ret_bind, pure_eq]
  rw [creates_call rfl, hmax, ← hw1]
  split
  · rename_i hcap
    refine iff_of_false ?_ fun h => by omega
    refine not_creates_of_takes (n := 1) ?_
    -- an escalation pays for nothing
    rw [eval_bind]
    split
    · exact takes_escalateToHuman t.parent t.repo t.prNumber _
    · exact takes_escalateToHuman t.parent t.repo t.prNumber _
  · rename_i hcap
    rw [creates_bind_ret, creates_attemptFix]
    exact (and_iff_right (by omega)).symm

/-- A run that is tracked comes to the cap on attempts. -/
theorem eval_tracked {t : FixTarget} (ht : OnTrackedPr env S w t) :
    (handleCiFailure S t.run).eval (exec env) w = (fixOrEscalate S t).eval (exec env)
      (exec env (.findByPr t.prUrl) (exec env (.getPr t.repo t.prNumber) w).2).2 := by
  obtain ⟨hevent, hrepo, hnumber, ⟨pr, hget, hurl, hhead⟩, hdevin, hparent, hended⟩ := ht
  obtain ⟨run, repo, prNumber, prUrl, headRef, parent⟩ := t
  dsimp only at *
  subst hrepo hurl hhead
  set w1 := (exec env (.getPr (run.repositoryFullName.getD S.forkRepo) prNumber) w).2 with hw1
  have hpr : (exec env (.getPr (run.repositoryFullName.getD S.forkRepo) prNumber) w).1 =
      .ok (some pr) := hget
  have hfound : (exec env (.findByPr (pr.htmlUrl.getD "")) w1).1 = some parent := hparent
  unfold handleCiFailure
  rw [if_neg (by simp [hevent])]
  cases hrefs : run.pullRequests with
  | nil =>
    rw [hrefs] at hnumber
    cases hnumber
  | cons ref rest =>
    rw [hrefs] at hnumber
    have href : prNumberOf ref = some prNumber := hnumber
    simp only [href, perform, bind_eq, call_bind, ret_bind, eval_call]
    rw [← hw1, hpr]
    dsimp only
    rw [if_neg (by simp [hdevin]), eval_call, hfound]
    dsimp only
    rw [if_neg (by simp [hended])]

/-- **When a CI failure gets a session**: exactly if all guards let the run pass. -/
theorem creates_handleCiFailure (run : WorkflowRun) :
    Creates env w (handleCiFailure S run) ↔ ∃ t, t.run = run ∧ LetThrough env S w t := by
  constructor
  · intro hc
    unfold handleCiFailure at hc
    split at hc
    · exact absurd hc (not_creates_ret _)
    rename_i hevent
    split at hc
    · exact absurd hc (not_creates_ret _)
    rename_i ref rest hrefs
    split at hc
    · exact absurd hc (not_creates_ret _)
    rename_i prNumber href
    simp only [perform, bind_eq, call_bind, ret_bind] at hc
    rw [creates_call rfl] at hc
    have hpr : (exec env (.getPr (run.repositoryFullName.getD S.forkRepo) prNumber) w).1 =
        env.getPr w.clock (run.repositoryFullName.getD S.forkRepo) prNumber := rfl
    split at hc
    · exact absurd hc (not_creates_ret _)
    · exact absurd hc (not_creates_ret _)
    rename_i pr hget
    rw [hpr] at hget
    split at hc
    · exact absurd hc (not_creates_ret _)
    rename_i hdevin
    rw [creates_call rfl] at hc
    split at hc
    · exact absurd hc (not_creates_ret _)
    rename_i parent hparent
    split at hc
    · exact absurd hc (not_creates_ret _)
    rename_i hended
    obtain ⟨hcap, hcommits, hroom, hfresh, hclient⟩ := (creates_fixOrEscalate _).1 hc
    refine ⟨⟨run, run.repositoryFullName.getD S.forkRepo, prNumber, pr.htmlUrl.getD "",
      pr.headRef.getD "", parent⟩, rfl, ?_, hcommits, hcap, hroom, hfresh, hclient⟩
    exact
      { event := by simpa using hevent
        repo := rfl
        number := by rw [hrefs]; exact href
        fetched := ⟨pr, hget, rfl, rfl⟩
        devinBranch := by simpa using hdevin
        parent := hparent
        ended := by simpa using hended }
  · rintro ⟨t, rfl, htracked, hcommits, hspare⟩
    set w1 := (exec env (.findByPr t.prUrl) (exec env (.getPr t.repo t.prNumber) w).2).2 with hw1
    have hsame : creations w1.trace = creations w.trace := by
      rw [hw1, creations_exec, creations_exec]
      rfl
    have hcreates : Creates env w1 (fixOrEscalate S t) := by
      rw [creates_fixOrEscalate]
      exact ⟨hspare.belowCap, hcommits, hspare.room, hspare.fresh, hspare.client⟩
    rwa [Creates, eval_tracked htracked, ← hsame]

end Remediation
