import Mathlib.Data.Nat.Notation
import Mathlib.Data.Int.Notation

/-!
# Runtime configuration

The settings that the modelled code reads (`app/settings.py`), with their defaults.
The credentials are not here: a missing one shows in the answers of the client that
needs it.
-/

namespace Remediation

structure Settings where
  devinMode : String := "normal"
  devinMaxAcuPerSession : ℤ := 50
  forkUrl : String := "https://github.com/rakshith48/superset"
  forkRepo : String := "rakshith48/superset"
  maxConcurrentSessions : ℕ := 3
  maxSessionsPerDay : ℕ := 25
  sessionTimeoutSeconds : ℕ := 45 * 60
  maxFixAttempts : ℕ := 3
  devinBotLogins : List String := ["devin-ai-integration[bot]", "devin-ai[bot]", "devin[bot]"]

def gateLabel : String := "devin-remediate"
def securityLabel : String := "devin-security"
def qualityLabel : String := "devin-quality"
def ciFixLabel : String := "devin-ci-fix"

end Remediation
