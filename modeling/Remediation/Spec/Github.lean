import Remediation.Lib.Lines
import Remediation.Lib.Utf8
import Remediation.Spec.World

/-!
# The GitHub client

What the functions of `app/github_client.py` make of the answers of the REST API (`GithubApi`). The
JSON of a body is read already, as in `Payload`, or has raised an exception.
-/

namespace Remediation

open PyText

structure GithubResponse (β : Type) where
  statusCode : ℕ
  body : β

/-- A job of a workflow run, as far as it is read. -/
structure WorkflowJob where
  conclusion : Option String
  id : Option ℤ

/-- The requests at the `n`-th operation of a run: a response, or what `httpx` raises.
`statusError` is what `raise_for_status` raises on a status that is not 2xx. -/
structure GithubApi where
  statusError : ℕ → Exc
  pull : ℕ → String → ℤ → Except Exc (GithubResponse (Except Exc PullRequest))
  commits : ℕ → String → ℤ → Except Exc (GithubResponse (Except Exc (List Commit)))
  comment : ℕ → String → ℤ → String → Except Exc (GithubResponse Unit)
  jobs : ℕ → String → Option ℤ → Except Exc (GithubResponse (Except Exc (List WorkflowJob)))
  jobLogs : ℕ → String → ℤ → Except Exc (GithubResponse (List UInt8))

/-- `resp.raise_for_status()`, and the body. -/
def GithubResponse.raiseForStatus {β : Type} (gh : GithubApi) (resp : GithubResponse β) :
    Except Exc β :=
  if 200 ≤ resp.statusCode ∧ resp.statusCode < 300 then .ok resp.body
  else .error (gh.statusError resp.statusCode)

/-- The last lines of a list, `lines[-n:]`. -/
def tailLines {α : Type} (n : ℕ) (lines : List α) : List α :=
  -- `lines[-0:]` is the whole list
  if n = 0 then lines else lines.drop (lines.length - n)

namespace GithubApi

variable (gh : GithubApi) (clock : ℕ) (repo : String)

def getPr (number : ℤ) : Except Exc (Option PullRequest) := do
  let resp ← gh.pull clock repo number
  if resp.statusCode = 404 then return none
  else
    let pr ← resp.raiseForStatus gh
    return some (← pr)

def listPrCommits (number : ℤ) : Except Exc (List Commit) := do
  let resp ← gh.commits clock repo number
  let commits ← resp.raiseForStatus gh
  commits

def postPrComment (number : ℤ) (body : String) : Except Exc Unit := do
  let resp ← gh.comment clock repo number body
  resp.raiseForStatus gh

def noFailingJob : String := "(no failing job found in this workflow run)"

def logsExpired : String := "(logs expired and are no longer available)"

def getWorkflowRunFailingJobLogs (runId : Option ℤ) (n : ℕ) : Except Exc String := do
  let jobsResp ← gh.jobs clock repo runId
  let jobs ← jobsResp.raiseForStatus gh
  let jobs ← jobs
  match jobs.filter fun j => j.conclusion = some "failure" with
  | [] => return noFailingJob
  | job :: _ =>
    match job.id with
    | none => .error ⟨"KeyError", "'id'"⟩
    | some jobId =>
      let logsResp ← gh.jobLogs clock repo jobId
      if logsResp.statusCode = 410 then return logsExpired
      else
        let content ← logsResp.raiseForStatus gh
        -- this does not raise, so that no zip file is looked for
        let text := decodeUtf8 content
        return String.ofList (joinLines (tailLines n (splitlines text)))

end GithubApi

/-- The outside, where GitHub is asked through the client. -/
def Outside.withGithub (env : Outside) (gh : GithubApi) : Outside :=
  { env with
    getPr := gh.getPr
    listPrCommits := gh.listPrCommits
    failingJobLogs := gh.getWorkflowRunFailingJobLogs
    postPrComment := gh.postPrComment }

end Remediation
