import Remediation.Spec.Prompts
import Remediation.Spec.World

/-!
# Event handlers

One per sub-label (`app/handlers.py`). A handler runs its guards, reserves the work
key, and only then calls Devin; the reserved row ends `pending` with the session's
id, or `failed`. Only the escalation lets an exception out: it asks for the Devin
client outside of any `try`.
-/

namespace Remediation

open Interaction PyText

/-- A handler's result string: its first word, and what follows the colon. -/
inductive Outcome
  | ok (what : String)
  | queued (why : String)
  | skipped (why : String)
  | error (why : String)
  | created (devinSessionId : String)
  | escalated (why : String)
  | stub (what : String)
  deriving DecidableEq

def Outcome.text : Outcome → String
  | ok what => "ok:" ++ what
  | queued why => "queued:" ++ why
  | skipped why => "skipped:" ++ why
  | error why => "error:" ++ why
  | created devinSessionId => "created_session:" ++ devinSessionId
  | escalated why => "escalated:" ++ why
  | stub what => "stub:" ++ what

/-- Only a `queued` result is taken for one: the others differ in their first letter. -/
theorem startsWith_queued (o : Outcome) :
    startsWith o.text "queued:" = true ↔ ∃ why, o = .queued why := by
  have hno : ∀ {c : Char} {cs : List Char}, o.text.toList = c :: cs → 'q' ≠ c →
      ¬startsWith o.text "queued:" = true := by
    intro c cs hs hc
    have hq : "queued:".toList = 'q' :: "ueued:".toList := by decide
    rw [startsWith_of_ne hs hq hc]
    exact nofun
  cases o with
  | queued why => exact ⟨fun _ => ⟨why, rfl⟩, fun _ => startsWith_append "queued:" why⟩
  | _ => exact ⟨fun h => absurd h (hno (String.toList_append ..) (by decide)), nofun⟩

def markFailed (pk : ℕ) (reason : String) : M Unit := do
  let t ← perform .now
  perform (.update pk
    { status := some .failed, errorMessage := some reason, completedAt := some t })

/-- The paid step, and what becomes of the reserved row. -/
def spawnSession (pk : ℕ) (workKey : String) (req : CreateRequest) : M Outcome := do
  let client ← perform .getClient
  match client with
  | .error exc => do
    -- the client is asked for inside the same `try` as the call
    markFailed pk s!"devin_create_failed:{exc.name}:{exc.message}"
    return .error s!"devin_create_failed:{exc.name}"
  | .ok () => do
    let created ← perform (.createSession workKey req)
    match created with
    | .error exc => do
      markFailed pk s!"devin_create_failed:{exc.name}:{exc.message}"
      return .error s!"devin_create_failed:{exc.name}"
    | .ok created => do
      -- written without looking at the row again
      perform (.update pk
        { devinSessionId := some created.devinSessionId
          devinUrl := some created.devinUrl
          promptSnapshot := some req.prompt
          status := some .pending })
      return .created created.devinSessionId

/-! ## Escalation -/

def escalationPrComment (attemptCount : ℕ) (parentDevinUrl : Option String) : String :=
  let parentLink := match truthy parentDevinUrl with
    | some url => "[Parent Devin session](" ++ url ++ ")"
    | none => "Parent session id missing"
  "## :rotating_light: Devin Maintenance Orchestrator escalation\n\n" ++
  "CI-fix attempts exhausted after **" ++ toString attemptCount ++ "** tries. The " ++
  "most recent failing CI workflow continues to fail; the autonomous " ++
  "loop cannot resolve it.\n\n" ++
  "Active fix-sessions have been terminated to stop further ACU " ++
  "spend. **This PR needs human review.**\n\n" ++
  "- " ++ parentLink ++ "\n" ++
  "- Configured cap: `MAX_FIX_ATTEMPTS=" ++ toString attemptCount ++ "`\n\n" ++
  "_If you fix this manually and want autonomous fixes to resume on a " ++
  "new failure, re-run the failing workflow — the orchestrator treats " ++
  "each `workflow_run.id` as a fresh chain start (subject to the cap)._"

def terminateChild (child : SessionRow) : M Unit :=
  match truthy child.devinSessionId with
  | some sessionId => do
    -- a failure is logged only
    let _ ← perform (.terminateSession sessionId)
    return ()
  | none => return ()

/-- Cancel the active children, each after an attempt to terminate its session. -/
def cancelChildren : List SessionRow → M Unit
  | [] => return ()
  | child :: rest => do
    terminateChild child
    perform (.update child.id
      { status := some .cancelled, errorMessage := some "cap_hit_on_parent" })
    cancelChildren rest

def escalateToHuman (parent : SessionRow) (repo : String) (prNumber : ℤ) (attemptCount : ℕ) :
    M (Except Exc Unit) :=
  -- the status in the row that was read, not the one in the table
  if parent.status = .needsAttention then return .ok ()
  else do
    perform (.update parent.id
      { status := some .needsAttention
        errorMessage := some s!"CI-fix exhausted after {attemptCount} attempts — needs human review" })
    let client ← perform .getClient
    match client with
    -- outside of any `try`: the parent stays marked
    | .error exc => return .error exc
    | .ok () => do
      let children ← perform (.findActiveChildren parent.devinSessionId)
      cancelChildren children
      let _ ← perform (.postPrComment parent.id repo prNumber
        (escalationPrComment attemptCount parent.devinUrl))
      return .ok ()

/-! ## Security issues -/

def repoFullName (S : Settings) (issue : Issue) : String :=
  match truthy issue.repositoryFullName with
  | some repo => repo
  | none =>
    let url := issue.repositoryUrl.getD ""
    if startsWith url "https://api.github.com/repos/" then
      removePrefix url "https://api.github.com/repos/"
    else S.forkRepo

/-- What follows the reservation of an issue: parse, validate, spawn. -/
def remediate (S : Settings) (issue : Issue) (pk : ℕ) (workKey : String) : M Outcome :=
  match parseIssueToCveContext issue with
  | none => do
    markFailed pk "not_a_cve_issue"
    return .skipped s!"not_a_cve_issue:{issue.number.getD 0}"
  | some ctx =>
    let missing := ctx.missingRequiredFields
    if missing ≠ [] then do
      let names := String.intercalate "," missing
      markFailed pk s!"missing_fields:{names}"
      return .skipped s!"missing_fields:{names}"
    else
      spawnSession pk workKey
        { prompt := buildCvePrompt ctx S.forkUrl
          repos := [S.forkRepo]
          title := s!"CVE remediation: {ctx.cveId} ({ctx.package})"
          tags := ["cve", String.ofList (lower ctx.severity.toList), ctx.package]
          maxAcuLimit := S.devinMaxAcuPerSession
          devinMode := S.devinMode
          structuredOutputSchema := true }

def securityWorkKey (S : Settings) (issue : Issue) : String :=
  makeWorkKey (repoFullName S issue) (issue.number.getD 0) securityLabel

/-- What an issue reserves. -/
def securityReservation (S : Settings) (issue : Issue) : Reservation where
  workKey := securityWorkKey S issue
  triggerType := .cveIssue
  triggerRef := issue.htmlUrl.getD ""
  issueNumber := some (issue.number.getD 0)
  label := some securityLabel

def handleSecurityIssue (S : Settings) (issue : Issue) : M Outcome := do
  let workKey := securityWorkKey S issue
  let active ← perform .countActive
  -- queued, as room comes back; the daily cap throttles, so what meets it is not
  if S.maxConcurrentSessions ≤ active then return .queued s!"concurrency_cap:{workKey}"
  else do
    let today ← perform .countStartedToday
    if S.maxSessionsPerDay ≤ today then return .skipped s!"daily_cap:{S.maxSessionsPerDay}"
    else do
      let reserved : Option ℕ ← perform (.tryReserve (securityReservation S issue))
      match reserved with
      | none => return .skipped s!"already_reserved:{workKey}"
      | some pk => remediate S issue pk workKey

/-! ## CI failures -/

/-- The failing run that the guards have let through, with the PR it is about. -/
structure FixTarget where
  run : WorkflowRun
  repo : String
  prNumber : ℤ
  prUrl : String
  headRef : String
  parent : SessionRow

namespace FixTarget

variable (S : Settings) (t : FixTarget)

def workKey : String := makeCiFixWorkKey t.repo (str t.run.id)

/-- What the `n`-th fix attempt reserves. -/
def reservation (n : ℕ) : Reservation where
  workKey := t.workKey
  triggerType := .ciFailure
  triggerRef := t.prUrl
  issueNumber := some t.prNumber
  label := some ciFixLabel
  parentDevinSessionId := t.parent.devinSessionId
  fixAttemptNumber := n

def request (n : ℕ) (logsTail : String) : CreateRequest where
  prompt := buildCiFixPrompt
    { prUrl := t.prUrl
      branch := t.headRef
      workflowName := t.run.name.getD "unknown"
      failureLogsTail := logsTail
      parentPrompt := (truthy t.parent.promptSnapshot).getD "(parent prompt not preserved)"
      attemptNumber := n
      maxAttempts := S.maxFixAttempts }
  repos := [S.forkRepo]
  title := s!"CI fix attempt #{n}: PR #{t.prNumber}"
  tags := ["ci-fix", toString n]
  maxAcuLimit := S.devinMaxAcuPerSession
  devinMode := S.devinMode
  parentSessionId := t.parent.devinSessionId

end FixTarget

/-- What follows the reservation of a run: fetch the logs, as well as possible, and spawn. -/
def fix (S : Settings) (t : FixTarget) (n pk : ℕ) : M Outcome := do
  let logs ← perform (.getWorkflowRunFailingJobLogs t.repo t.run.id 200)
  match logs with
  | .error exc => spawnSession pk t.workKey (t.request S n s!"(could not fetch logs: {exc.message})")
  | .ok logsTail => spawnSession pk t.workKey (t.request S n logsTail)

/-- Guards on the branch and the cap on active sessions, then the reservation. -/
def attemptFix (S : Settings) (t : FixTarget) (n : ℕ) : M Outcome := do
  let commits ← perform (.listPrCommits t.repo t.prNumber)
  match commits with
  | .error exc => return .error s!"commits_fetch_failed:{exc.name}"
  | .ok commits =>
    if hasNonDevinCommits S.devinBotLogins commits then
      return .skipped s!"human_commits_on_branch:{t.prNumber}"
    else do
      let active ← perform .countActive
      -- not queued, unlike an issue
      if S.maxConcurrentSessions ≤ active then
        return .skipped s!"concurrency_cap:{S.maxConcurrentSessions}"
      else do
        let reserved : Option ℕ ← perform (.tryReserve (t.reservation n))
        match reserved with
        | none => return .skipped s!"already_reserved:{t.workKey}"
        | some pk => fix S t n pk

/-- The loop cap: another attempt, or a human. -/
def fixOrEscalate (S : Settings) (t : FixTarget) : M (Except Exc Outcome) := do
  let currentMax ← perform (.maxFixAttemptForParent t.parent.devinSessionId)
  if S.maxFixAttempts ≤ currentMax then do
    let escalated ← escalateToHuman t.parent t.repo t.prNumber currentMax
    match escalated with
    | .error exc => return .error exc
    | .ok () => return .ok (.escalated s!"max_fix_attempts:{currentMax}")
  else do
    let outcome ← attemptFix S t (currentMax + 1)
    return .ok outcome

/-- `pull_requests[0].number`, if there and not 0. -/
def prNumberOf (number : Option ℤ) : Option ℤ := number.filter (· ≠ 0)

def handleCiFailure (S : Settings) (run : WorkflowRun) : M (Except Exc Outcome) :=
  let repo := run.repositoryFullName.getD S.forkRepo
  if run.event ≠ some "pull_request" then return .ok (.skipped s!"not_pr_triggered:{str run.event}")
  else
    match run.pullRequests with
    | [] => return .ok (.skipped s!"no_pr_in_payload:{str run.id}")
    | ref :: _ =>
      match prNumberOf ref with
      | none => return .ok (.skipped s!"no_pr_number:{str run.id}")
      | some prNumber => do
        let pr ← perform (.getPr repo prNumber)
        match pr with
        | .error exc => return .ok (.error s!"pr_fetch_failed:{exc.name}")
        | .ok none => return .ok (.skipped s!"pr_not_found:{prNumber}")
        | .ok (some pr) =>
          let prUrl := pr.htmlUrl.getD ""
          let headRef := pr.headRef.getD ""
          if !startsWith headRef "devin/" then return .ok (.skipped s!"not_devin_branch:{headRef}")
          else do
            let parent ← perform (.findByPr prUrl)
            match parent with
            | none => return .ok (.skipped s!"no_tracked_session_for_pr:{prNumber}")
            | some parent =>
              -- a session that is alive fixes its CI itself
              if !parent.status.terminal then
                return .ok (.skipped s!"parent_still_active:{parent.status.text}")
              else fixOrEscalate S ⟨run, repo, prNumber, prUrl, headRef, parent⟩

/-! ## Stubs -/

def handleQualityIssue (issue : Issue) : M Outcome :=
  return .stub s!"would_spawn_quality_session:{str issue.number}"

def handleGenericRemediation (issue : Issue) : M Outcome :=
  return .stub s!"would_spawn_generic_session:{str issue.number}"

end Remediation
