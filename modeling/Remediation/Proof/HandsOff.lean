import Remediation.Proof.Guards

/-!
# Branches that somebody else has committed to

`has_non_devin_commits` looks for a login that is none of Devin's. A commit of which GitHub
knows neither committer nor author has no login at all, and `list_pr_commits` fetches one
page, which has the oldest 100 commits whatever is asked for. `hands_off_iff` says for which
histories a session nevertheless means that all commits are Devin's.
-/

namespace Remediation

open Interaction Prog PyText

/-! ## Whose commits they are -/

/-- The logins that GitHub has resolved for a commit. -/
def Commit.logins (c : Commit) : List String := [c.committer, c.author].filterMap truthy

/-- GitHub has resolved who committed, and it was a bot of Devin's. -/
def Commit.ByBot (allowed : List String) (c : Commit) : Prop :=
  c.logins ≠ [] ∧ ∀ login ∈ c.logins, login ∈ allowed

instance (allowed : List String) (c : Commit) : Decidable (c.ByBot allowed) :=
  inferInstanceAs (Decidable (_ ∧ _))

/-- A page of a pull request's commits, of at most 100, the oldest ones first. -/
def commitsPage (perPage : ℕ) (history : List Commit) : List Commit := history.take (min perPage 100)

/-- What `list_pr_commits` gets to see of the branches at GitHub. -/
def Outside.withBranches (env : Outside) (branch : ℕ → String → ℤ → Except Exc (List Commit)) :
    Outside :=
  { env with listPrCommits := fun n repo number => (branch n repo number).map (commitsPage 250) }

/-- **Hands off**: the handler calls `create_session` only if all commits on the branch are by
Devin's bots. -/
def HandsOff (env : Outside) (branch : ℕ → String → ℤ → Except Exc (List Commit)) (S : Settings)
    (w : World) (run : WorkflowRun) : Prop :=
  ∀ number history, run.pullRequests.head?.bind prNumberOf = some number →
    branch (w.clock + 3) (run.repositoryFullName.getD S.forkRepo) number = .ok history →
    Creates (env.withBranches branch) w (handleCiFailure S run) →
    ∀ c ∈ history, c.ByBot S.devinBotLogins

/-- The guard decides rightly: it sees a login that is none of Devin's, or of all that it sees
GitHub has resolved one, and what it does not see is by Devin's bots. -/
def Decides (allowed : List String) (history : List Commit) : Prop :=
  (∃ c ∈ history.take 100, ∃ login ∈ c.logins, login ∉ allowed) ∨
    (∀ c ∈ history.take 100, c.logins ≠ []) ∧ ∀ c ∈ history.drop 100, c.ByBot allowed

variable {env : Outside} {branch : ℕ → String → ℤ → Except Exc (List Commit)} {S : Settings}
  {w : World} {allowed : List String}

/-! ## What the guard sees -/

theorem foreign_eq_true {login : Option String} :
    foreign allowed login = true ↔ ∃ l, truthy login = some l ∧ l ∉ allowed := by
  unfold foreign
  cases truthy login with
  | none => simp
  | some l => simp

theorem hasNonDevinCommits_iff {commits : List Commit} :
    hasNonDevinCommits allowed commits = true ↔
      ∃ c ∈ commits, ∃ login ∈ c.logins, login ∉ allowed := by
  simp only [hasNonDevinCommits, List.any_eq_true, Bool.or_eq_true, foreign_eq_true, Commit.logins,
    List.mem_filterMap, List.mem_cons, List.not_mem_nil, or_false]
  refine exists_congr fun c => and_congr_right fun _ => ?_
  constructor
  · rintro (⟨l, hl, hno⟩ | ⟨l, hl, hno⟩)
    · exact ⟨l, ⟨_, Or.inl rfl, hl⟩, hno⟩
    · exact ⟨l, ⟨_, Or.inr rfl, hl⟩, hno⟩
  · rintro ⟨l, ⟨_, rfl | rfl, hl⟩, hno⟩
    · exact Or.inl ⟨l, hl, hno⟩
    · exact Or.inr ⟨l, hl, hno⟩

/-- One page is fetched, of the size that GitHub allows. -/
theorem commitsPass_iff {t : FixTarget} :
    CommitsPass (env.withBranches branch) S w t ↔
      ∃ history, branch (w.clock + 3) t.repo t.prNumber = .ok history ∧
        ¬∃ c ∈ history.take 100, ∃ login ∈ c.logins, login ∉ S.devinBotLogins := by
  have hlist : (env.withBranches branch).listPrCommits (w.clock + 3) t.repo t.prNumber =
      (branch (w.clock + 3) t.repo t.prNumber).map (commitsPage 250) := rfl
  unfold CommitsPass
  rw [hlist]
  cases branch (w.clock + 3) t.repo t.prNumber with
  | error exc => exact iff_of_false (fun ⟨_, he, _⟩ => nomatch he) fun ⟨_, he, _⟩ => nomatch he
  | ok history =>
    have hpage : commitsPage 250 history = history.take 100 := rfl
    constructor
    · rintro ⟨commits, he, hno⟩
      cases he
      rw [← Bool.not_eq_true, hasNonDevinCommits_iff, hpage] at hno
      exact ⟨history, rfl, hno⟩
    · rintro ⟨_, he, hno⟩
      cases he
      refine ⟨_, rfl, ?_⟩
      rwa [← Bool.not_eq_true, hasNonDevinCommits_iff, hpage]

/-- All commits are by Devin's bots where the guard sees nobody else's and decides rightly. -/
theorem byBot_iff_decides {history : List Commit}
    (hseen : ¬∃ c ∈ history.take 100, ∃ login ∈ c.logins, login ∉ allowed) :
    (∀ c ∈ history, c.ByBot allowed) ↔ Decides allowed history := by
  have hallowed : ∀ c ∈ history.take 100, ∀ login ∈ c.logins, login ∈ allowed := by
    intro c hc login hl
    by_contra hno
    exact hseen ⟨c, hc, login, hl, hno⟩
  have hsplit : ∀ c, c ∈ history ↔ c ∈ history.take 100 ∨ c ∈ history.drop 100 := by
    intro c
    rw [← List.mem_append, List.take_append_drop]
  constructor
  · intro hall
    exact Or.inr ⟨fun c hc => (hall c ((hsplit c).2 (Or.inl hc))).1,
      fun c hc => hall c ((hsplit c).2 (Or.inr hc))⟩
  · rintro (hforeign | ⟨hresolved, hrest⟩) c hc
    · exact absurd hforeign hseen
    rcases (hsplit c).1 hc with hc | hc
    · exact ⟨hresolved c hc, hallowed c hc⟩
    · exact hrest c hc

/-- **When the guard fails closed**, for every history of the branch and in every state: it
decides rightly about the history of each run that the other guards let through. -/
theorem hands_off_iff (env : Outside) (branch : ℕ → String → ℤ → Except Exc (List Commit))
    (S : Settings) (w : World) (run : WorkflowRun) :
    HandsOff env branch S w run ↔ ∀ t history, t.run = run →
      OnTrackedPr (env.withBranches branch) S w t → Spare (env.withBranches branch) S w t →
      branch (w.clock + 3) t.repo t.prNumber = .ok history → Decides S.devinBotLogins history := by
  constructor
  · rintro hands t history rfl ht hspare hbranch
    by_cases hseen : ∃ c ∈ history.take 100, ∃ login ∈ c.logins, login ∉ S.devinBotLogins
    · exact Or.inl hseen
    -- nobody else is seen, so there is a session
    have hcreates : Creates (env.withBranches branch) w (handleCiFailure S t.run) :=
      (creates_handleCiFailure t.run).2 ⟨t, rfl, ht, commitsPass_iff.2 ⟨history, hbranch, hseen⟩, hspare⟩
    have hall := hands t.prNumber history ht.number (by rw [← ht.repo]; exact hbranch) hcreates
    exact (byBot_iff_decides hseen).1 hall
  · intro hdecides number history hnumber hbranch hcreates
    obtain ⟨t, rfl, ht, hcommits, hspare⟩ := (creates_handleCiFailure run).1 hcreates
    have hnum := ht.number
    rw [hnumber, Option.some.injEq] at hnum
    rw [hnum, ← ht.repo] at hbranch
    obtain ⟨history', hbranch', hseen⟩ := commitsPass_iff.1 hcommits
    rw [hbranch] at hbranch'
    cases hbranch'
    exact (byBot_iff_decides hseen).2 (hdecides t history rfl ht hspare hbranch)

/-! ## Two histories that are let through -/

namespace Unseen

def byBot : Commit := ⟨some "devin-ai-integration[bot]", some "devin-ai-integration[bot]"⟩

/-- A commit whose e-mail address is linked to no account. -/
def byNobody : Commit := ⟨none, none⟩

def byHuman : Commit := ⟨some "human-user", some "human-user"⟩

/-- A commit that GitHub can resolve nobody for. -/
def unresolved : List Commit := [byBot, byNobody]

/-- A commit of somebody else's that is on the second page. -/
def long : List Commit := List.replicate 100 byBot ++ [byHuman]

/-- The session of the issue has ended with its pull request open. -/
def outside : Outside := { Outside.calm with getSession := fun _ _ => .ok .exited }

def branches (history : List Commit) (_ : ℕ) (_ : String) (_ : ℤ) : Except Exc (List Commit) :=
  .ok history

def world (history : List Commit) : World :=
  runSerial (outside.withBranches (branches history)) {} (.initial 0) [.securityIssue (.sample 1), .poll]

/-- **The guard does not see them**: the branch gets a fix session all the same. -/
theorem unseen_commits_get_a_session :
    ¬HandsOff outside (branches unresolved) {} (world unresolved) (.sample 100) ∧
      ¬HandsOff outside (branches long) {} (world long) (.sample 100) := by
  have hruns : ∀ history ∈ [unresolved, long], creations (world history).trace < creations
      ((handleCiFailure {} (.sample 100)).eval (exec (outside.withBranches (branches history)))
        (world history)).2.trace := by decide +kernel
  have hnobody : ¬byNobody.ByBot ({} : Settings).devinBotLogins := by decide
  have hhuman : ¬byHuman.ByBot ({} : Settings).devinBotLogins := by decide
  constructor
  · intro hands
    exact hnobody (hands 7 unresolved rfl rfl (hruns _ (by simp)) byNobody (by simp [unresolved]))
  · intro hands
    exact hhuman (hands 7 long rfl rfl (hruns _ (by simp)) byHuman (by simp [long]))

end Unseen

end Remediation
