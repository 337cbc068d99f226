import Mathlib.Data.Int.Notation
import Remediation.Lib.Text

/-!
# GitHub data

The parts of GitHub's webhook payloads and REST answers that the code reads. A
field that `dict.get` may miss is an `Option`. `hasNonDevinCommits` is the one
decision that `app/github_client.py` takes itself.
-/

namespace Remediation

open PyText

structure Issue where
  number : Option ℤ := none
  htmlUrl : Option String := none
  repositoryFullName : Option String := none
  repositoryUrl : Option String := none
  labels : List (Option String) := []
  body : Option String := none

structure WorkflowRun where
  id : Option ℤ := none
  name : Option String := none
  event : Option String := none
  conclusion : Option String := none
  repositoryFullName : Option String := none
  /-- the `number` of each entry of `pull_requests` -/
  pullRequests : List (Option ℤ) := []

structure Payload where
  issue : Issue := {}
  workflowRun : WorkflowRun := {}

/-- The answer of `get_pr`. The handler passes over the state. -/
structure PullRequest where
  htmlUrl : Option String
  headRef : Option String
  state : Option String := none

/-- A commit's `committer.login` and `author.login`. -/
structure Commit where
  committer : Option String
  author : Option String

/-- A login that is there and not one of the allowed ones. -/
def foreign (allowed : List String) (login : Option String) : Bool :=
  match truthy login with
  | some l => !allowed.contains l
  | none => false

def hasNonDevinCommits (allowed : List String) (commits : List Commit) : Bool :=
  commits.any fun c => foreign allowed c.committer || foreign allowed c.author

end Remediation
