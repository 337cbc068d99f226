import Remediation.Proof.Guards

/-!
# Finished pull requests

A fix session needs a parent that has ended: its session has given up, or the poller has
found the pull request merged or closed. The handler does not tell the two apart, and of the
pull request that it fetches it looks at the branch only. In every state that a serial run
reaches, a finished pull request is spared exactly if some guard stops the event
(`spares_finished_iff`); a CI failure that comes after the merge gets a session
(`fix_after_merge`).
-/

namespace Remediation

open Interaction Prog

/-- GitHub says `open`; a merged pull request is `closed` as well. -/
def PullRequest.isOpen (pr : PullRequest) : Bool := pr.state = some "open"

/-- The pull request that the handler fetches for a run is no longer open. -/
def FetchesFinished (env : Outside) (S : Settings) (w : World) (run : WorkflowRun) : Prop :=
  ∃ number pr, run.pullRequests.head?.bind prNumberOf = some number ∧
    env.getPr w.clock (run.repositoryFullName.getD S.forkRepo) number = .ok (some pr) ∧
    pr.isOpen = false

/-- **No session for a finished pull request**: the handler does not call `create_session`
when the pull request that it has fetched is no longer open. -/
def SparesFinished (env : Outside) (S : Settings) (w : World) (run : WorkflowRun) : Prop :=
  FetchesFinished env S w run → ¬Creates env w (handleCiFailure S run)

variable {env : Outside} {S : Settings}

/-- The pull request of a run that is let through is the one that the handler fetches. -/
theorem fetchesFinished_iff {w : World} {t : FixTarget} (ht : OnTrackedPr env S w t) :
    FetchesFinished env S w t.run ↔
      ∃ pr, env.getPr w.clock t.repo t.prNumber = .ok (some pr) ∧ pr.isOpen = false := by
  have hrepo := ht.repo
  have hnumber := ht.number
  constructor
  · rintro ⟨number, pr, hn, hget, hclosed⟩
    rw [hnumber, Option.some.injEq] at hn
    rw [← hrepo, ← hn] at hget
    exact ⟨pr, hget, hclosed⟩
  · rintro ⟨pr, hget, hclosed⟩
    rw [hrepo] at hget
    exact ⟨t.prNumber, pr, hnumber, hget, hclosed⟩

/-- **When finished pull requests are spared**, in every state that a serial run reaches and
for every failing run: the pull request of each run that all guards let through is open. -/
theorem spares_finished_iff (now : Time) (tasks : List Task) (run : WorkflowRun) :
    let w := runSerial env S (.initial now) tasks
    SparesFinished env S w run ↔ ∀ t, t.run = run → LetThrough env S w t →
      ∃ pr, env.getPr w.clock t.repo t.prNumber = .ok (some pr) ∧ pr.isOpen = true := by
  intro w
  constructor
  · rintro hspares t rfl ht
    obtain ⟨pr, hget, -⟩ := ht.tracked.fetched
    refine ⟨pr, hget, ?_⟩
    cases hopen : pr.isOpen with
    | true => rfl
    | false =>
      -- all guards let a finished one pass
      have hfinished := (fetchesFinished_iff ht.tracked).2 ⟨pr, hget, hopen⟩
      exact absurd ((creates_handleCiFailure t.run).2 ⟨t, rfl, ht⟩) (hspares hfinished)
  · intro hopen hfinished hcreates
    obtain ⟨t, rfl, ht⟩ := (creates_handleCiFailure run).1 hcreates
    obtain ⟨pr, hget, hyes⟩ := hopen t rfl ht
    obtain ⟨pr', hget', hno⟩ := (fetchesFinished_iff ht.tracked).1 hfinished
    rw [hget] at hget'
    cases hget'
    rw [hyes] at hno
    cases hno

/-! ## A failure that comes late -/

namespace LateFailure

/-- The session is at work when its pull request is merged, or closed, at GitHub. -/
def outside (prState : String) : Outside :=
  { Outside.calm with
    getSession := fun _ _ => .ok
      { status := some "running"
        pullRequests := [⟨some "https://github.com/o/r/pull/7", some prState⟩] }
    getPr := fun _ _ _ => .ok (some
      { htmlUrl := some "https://github.com/o/r/pull/7"
        headRef := some "devin/cve-1"
        state := some "closed" }) }

/-- An issue gets a session, and a tick finds the end of its pull request. -/
def world (prState : String) : World :=
  runSerial (outside prState) {} (.initial 0) [.securityIssue (.sample 1), .poll]

/-- **A fix session for a merged pull request**, and one for a closed one: the tick has ended
the session of the issue, which is what makes the handler take over. -/
theorem fix_after_merge :
    (world "merged").sessions.statusOf 1 = some .completed ∧
      (world "closed").sessions.statusOf 1 = some .cancelled ∧
      ¬SparesFinished (outside "merged") {} (world "merged") (.sample 100) ∧
      ¬SparesFinished (outside "closed") {} (world "closed") (.sample 100) := by
  have hfinished : ∀ s, FetchesFinished (outside s) {} (world s) (.sample 100) :=
    fun s => ⟨7, _, rfl, rfl, rfl⟩
  have hruns : (world "merged").sessions.statusOf 1 = some .completed ∧
      (world "closed").sessions.statusOf 1 = some .cancelled ∧
      creations (world "merged").trace < creations
        ((handleCiFailure {} (.sample 100)).eval (exec (outside "merged")) (world "merged")).2.trace ∧
      creations (world "closed").trace < creations
        ((handleCiFailure {} (.sample 100)).eval (exec (outside "closed")) (world "closed")).2.trace := by
    decide +kernel
  obtain ⟨hcompleted, hcancelled, hmerged, hclosed⟩ := hruns
  exact ⟨hcompleted, hcancelled, fun h => h (hfinished _) hmerged, fun h => h (hfinished _) hclosed⟩

end LateFailure

end Remediation
