import Remediation.Spec.FileIssues

/-!
# Scanning for vulnerabilities

What the nightly scan makes of the records of OSV (`scripts/scan_osv.py`): the version that fixes a
vulnerability, and the finding that `file_issues.py` reads.
-/

namespace Remediation

open PyText

/-- What the events of a range are: versions, or commits. -/
inductive RangeType
  | semver
  | ecosystem
  | git
  deriving DecidableEq

/-- An event of a range, as far as it is read: what `fixed` says, if it has that key. -/
structure OsvEvent (ν : Type) where
  fixed : Option ν

structure OsvRange (ν : Type) where
  type : RangeType
  events : List (OsvEvent ν)

structure Affected (ν : Type) where
  ecosystem : Option String
  ranges : List (OsvRange ν)

structure Severity where
  type : String
  score : Option String

/-- A record of OSV. A list that is missing is read as an empty one. -/
structure Vuln (ν : Type) where
  id : String
  aliases : List String
  summary : String
  severity : List Severity
  databaseSeverity : Option String
  affected : List (Affected ν)

def extractFixVersion {ν : Type} (vuln : Vuln ν) : Option ν :=
  vuln.affected.findSome? fun aff =>
    if aff.ecosystem ≠ some "PyPI" then none
    else aff.ranges.findSome? fun r => r.events.findSome? fun event => event.fixed

def severityOf {ν : Type} (vuln : Vuln ν) : String :=
  match vuln.severity.find? fun s => isIn "CVSS_V3" s.type with
  | some s => s.score.getD "?"
  | none => (truthy vuln.databaseSeverity).getD "UNKNOWN"

/-- The finding that `main` writes for a package. -/
def scanFinding (name version : String) (vuln : Vuln String) : ScanFinding :=
  let fix := extractFixVersion vuln
  { cveId := (vuln.aliases.find? fun a => startsWith a "CVE-").getD vuln.id
    package := name
    installedVersion := version
    fixVersion := str fix
    severity := severityOf vuln
    summary := some (String.ofList (vuln.summary.toList.take 200))
    fixable := fix.isSome }

end Remediation
