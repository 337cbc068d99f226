import Remediation.Spec.Prompts

/-!
# Filing issues

The issues that the nightly scan files (`superset-fork-scripts/file_issues.py`). `fileIssue` is
the issue for one finding: the arguments of `gh issue create`, whose body is what the parser in
`Prompts` reads. `main` goes through the findings of a scan, collapses those with one id, and
asks `gh issue list` about each before it files. `gh` is a parameter (`Gh`).
-/

namespace Remediation

open PyText

/-- A finding of the scan, as far as `file_issue` reads it. -/
structure Finding where
  cveId : String
  package : String
  installedVersion : String
  fixVersion : String
  severity : String
  summary : Option String

structure NewIssue where
  title : String
  label : String
  body : String

/-- The first 300 characters of the summary, or a replacement. -/
def Finding.summaryText (f : Finding) : String :=
  let s := String.ofList ((f.summary.getD "").toList.take 300)
  if s = "" then "(no summary provided by OSV)" else s

/-- The lines of the body down to the severity. -/
def Finding.headLines (f : Finding) : List String :=
  ["## Vulnerability",
   "- **CVE:** " ++ f.cveId,
   "- **Package:** " ++ f.package,
   "- **Installed:** " ++ f.installedVersion,
   "- **Fix version:** " ++ f.fixVersion,
   "- **Severity:** " ++ f.severity]

/-- The lines of the body from the summary on. -/
def Finding.tailLines (f : Finding) : List String :=
  ["- **Summary:** " ++ f.summaryText,
   "",
   "## OSV link",
   "https://osv.dev/vulnerability/" ++ f.cveId,
   "",
   "## Remediation",
   "This issue will be auto-remediated by Devin via the `devin-remediate` + `devin-security` labels. ",
   "Watch the orchestrator dashboard for status.",
   "",
   "---",
   "*Filed automatically by the nightly CVE scan workflow.*"]

def fileIssue (f : Finding) : NewIssue where
  title := "[CVE] " ++ f.package ++ " " ++ f.installedVersion ++ " → " ++ f.fixVersion ++
    " (" ++ f.cveId ++ ")"
  label := "devin-remediate,devin-security"
  body := String.intercalate "\n" (f.headLines ++ f.tailLines)

/-! ## Going through a scan -/

/-- A finding as it is in the file of findings. -/
structure ScanFinding extends Finding where
  fixable : Bool

/-- The address of an issue. It is not empty, so that `if existing` and `if url` ask whether
there is one. -/
abbrev IssueUrl := {url : String // url ≠ ""}

/-- An issue of the repository, as far as it is searched. -/
structure RepoIssue where
  title : String
  labels : List String
  url : IssueUrl

/-- What `gh` answers, the repository having these issues: the rows of `issue list` for an id and
the address that `issue create` prints, nothing where the call fails. -/
structure Gh where
  issueList : List RepoIssue → String → Option (List RepoIssue)
  issueCreate : List RepoIssue → NewIssue → Option IssueUrl

/-- The issue that `issue create` adds. -/
def NewIssue.created (n : NewIssue) (url : IssueUrl) : RepoIssue where
  title := n.title
  labels := (n.label.toList.splitOn ',').map String.ofList
  url := url

/-- The address of the first row with the id in its title. A call that fails finds nothing. -/
def existingIssueFor (gh : Gh) (issues : List RepoIssue) (cveId : String) : Option IssueUrl :=
  match gh.issueList issues cveId with
  | none => none
  | some rows => (rows.find? fun r => isIn cveId r.title).map (·.url)

/-- The issues of the repository, and the ids that the run has printed as filed and as skipped, each
with its address: two counts of the summary are the lengths of the lists. Of what has failed there
is a count only. -/
structure Filing where
  issues : List RepoIssue
  filed : List (String × IssueUrl)
  skipped : List (String × IssueUrl)
  failed : ℕ

/-- One pass of the loop. -/
def Filing.next (gh : Gh) (s : Filing) (f : Finding) : Filing :=
  match existingIssueFor gh s.issues f.cveId with
  | some existing => { s with skipped := s.skipped ++ [(f.cveId, existing)] }
  | none =>
    match gh.issueCreate s.issues (fileIssue f) with
    | some url =>
      { s with
        issues := s.issues ++ [(fileIssue f).created url]
        filed := s.filed ++ [(f.cveId, url)] }
    | none => { s with failed := s.failed + 1 }

/-- The first finding of each id that has not been seen. -/
def uniqueFixable (seenInRun : List String) : List Finding → List Finding
  | [] => []
  | f :: fs =>
    if f.cveId ∈ seenInRun then uniqueFixable seenInRun fs
    else f :: uniqueFixable (f.cveId :: seenInRun) fs

/-- The findings that are looked up, in this order. -/
def lookedUp (findings : List ScanFinding) : List Finding :=
  uniqueFixable [] ((findings.filter (·.fixable)).map (·.toFinding))

/-- `main`, with the counts behind its exit code. -/
def fileIssues (gh : Gh) (issues : List RepoIssue) (findings : List ScanFinding) : Filing :=
  (lookedUp findings).foldl (Filing.next gh) ⟨issues, [], [], 0⟩

/-- The exit code of the script. -/
def Filing.exitCode (s : Filing) : ℕ := if s.failed = 0 then 0 else 1

end Remediation
