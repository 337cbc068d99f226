import Remediation.Lib.Lines
import Remediation.Spec.Devin
import Remediation.Spec.ScanOsv

/-!
# A night

The nightly workflow (`superset-fork-scripts/cve-scan.yml`): `scan_osv.py` reads the pins of a
requirements file and asks OSV about them, and `file_issues.py` goes through its findings. OSV is a
parameter (`Osv`).
-/

namespace Remediation

open PyText Regex

/-! ## The requirements -/

/-- `[A-Za-z0-9._-]` -/
def isReqNameChar (c : Char) : Bool := c.isAlphanum || c == '.' || c == '_' || c == '-'

/-- `[^\s;#]` -/
def isReqVersionChar (c : Char) : Bool := !isSpace c && c != ';' && c != '#'

/-- `REQ_LINE`: `^([A-Za-z0-9][A-Za-z0-9._-]*)\s*==\s*([^\s;#]+)`. -/
def reqLine : List Item :=
  .bol :: .opn :: .chr Char.isAlphanum :: .rep isReqNameChar 0 true :: .cls :: .rep isSpace 0 true ::
    (lit ['=', '='] ++ [.rep isSpace 0 true, .opn, .rep isReqVersionChar 1 true, .cls])

/-- The name and the version that a line gives. -/
def readPin (raw : List Char) : Option (String × String) :=
  let line := strip (raw.takeWhile (· != '#'))
  if line = [] ∨ line.head? = some '-' then none
  else
    match run reqLine [] [] none line with
    | some ⟨[name, version], _⟩ => some (String.ofList name, String.ofList version)
    | _ => none

/-- `parse_requirements`, given what is in the file. -/
def parseRequirements (text : String) : List (String × String) :=
  (splitlines text.toList).filterMap readPin

/-! ## The scan -/

/-- What OSV answers: for each package the ids of its vulnerabilities, and the record of an id. -/
structure Osv where
  osvBatch : List (String × String) → Except Exc (List (List String))
  osvDetails : String → Except Exc (Vuln String)

/-- The findings for a package. The id of a record is the one that it has been asked for with. -/
def packageFindings (osv : Osv) (name version : String) (ids : List String) :
    Except Exc (List ScanFinding) :=
  ids.mapM fun vid => do
    let vuln ← osv.osvDetails vid
    return scanFinding name version { vuln with id := vid }

/-- The loop over `zip(pkgs, results, strict=True)`. -/
def scanResults (osv : Osv) : List (String × String) → List (List String) →
    Except Exc (List ScanFinding)
  | [], [] => return []
  | [], _ :: _ => .error ⟨"ValueError", "zip() argument 2 is longer than argument 1"⟩
  | _ :: _, [] => .error ⟨"ValueError", "zip() argument 2 is shorter than argument 1"⟩
  | (name, version) :: pkgs, ids :: results => do
    let here ← packageFindings osv name version ids
    let findings ← scanResults osv pkgs results
    return here ++ findings

/-- `main` of `scan_osv.py`: the findings that it prints, or what is raised. -/
def scanOsv (osv : Osv) (text : String) : Except Exc (List ScanFinding) := do
  let pkgs := parseRequirements text
  let results ← osv.osvBatch pkgs
  scanResults osv pkgs results

/-- The steps of the workflow. Where the scan fails, nothing is filed. -/
def nightly (osv : Osv) (gh : Gh) (text : String) (issues : List RepoIssue) :
    Except Exc Filing := do
  let findings ← scanOsv osv text
  return fileIssues gh issues findings

end Remediation
