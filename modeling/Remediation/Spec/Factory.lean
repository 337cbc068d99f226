import Remediation.Lib.Once
import Remediation.Spec.Devin

/-!
# The API clients

Each of the two clients is made when it is first needed, under a lock, and shared from then on
(`app/devin/factory.py`, `_http` of `app/github_client.py`): both are cells of `Once`. What is made
depends on the settings only, which are checked first (`DevinTransport.__init__` in
`app/devin/http.py`); `httpx` is what the constructor of `httpx.Client` raises. A client is the
number of the attempt that has made it, as an object, with what it was made of. `reset` is not
here: it is called at shutdown.
-/

namespace Remediation

open PyText

structure Credentials where
  devinApiKey : String := ""
  devinOrgId : String := ""
  devinBaseUrl : String := "https://api.devin.ai/v3"
  ghToken : String := ""

/-- The arguments of `httpx.Client`, but for the timeout. -/
structure ClientConfig where
  baseUrl : String
  headers : List (String × String)
  deriving DecidableEq

abbrev Httpx : Type := ClientConfig → Except Exc Unit

/-- `s.rstrip('/')` -/
def rstripSlash (s : String) : String := String.ofList (s.toList.rdropWhile (· = '/'))

/-- `DevinTransport.__init__` -/
def initDevinTransport (httpx : Httpx) (apiKey orgId baseUrl : String) : Except Exc ClientConfig :=
  if !(startsWith apiKey "cog_" || startsWith apiKey "apk_") then
    .error ⟨"ValueError", "DEVIN_API_KEY should start with 'cog_' (service user) " ++
      "or 'apk_' (personal). Check env."⟩
  else if !startsWith orgId "org-" then
    .error ⟨"ValueError", "DEVIN_ORG_ID should start with 'org-'"⟩
  else
    let config : ClientConfig :=
      { baseUrl := rstripSlash baseUrl ++ "/organizations/" ++ orgId
        headers := [("Authorization", "Bearer " ++ apiKey), ("Content-Type", "application/json")] }
    (httpx config).map fun _ => config

def githubApi : String := "https://api.github.com"

/-- What `_http` does under the lock. -/
def initGithubClient (httpx : Httpx) (ghToken : String) : Except Exc ClientConfig :=
  if ghToken = "" then .error ⟨"RuntimeError", "GH_TOKEN not configured"⟩
  else
    let config : ClientConfig :=
      { baseUrl := githubApi
        headers :=
          [("Authorization", "Bearer " ++ ghToken), ("Accept", "application/vnd.github+json"),
            ("X-GitHub-Api-Version", "2022-11-28")] }
    (httpx config).map fun _ => config

/-- `devin.factory._client`, and `github_client._client`. -/
inductive Singleton
  | devin
  | github

namespace Singleton

/-- What the client is made of, or what is raised. -/
def config (httpx : Httpx) (C : Credentials) : Singleton → Except Exc ClientConfig
  | devin => initDevinTransport httpx C.devinApiKey C.devinOrgId C.devinBaseUrl
  | github => initGithubClient httpx C.ghToken

/-- The `n`-th attempt to make the client. -/
def make (httpx : Httpx) (C : Credentials) (g : Singleton) (n : ℕ) : Except Exc (ℕ × ClientConfig) :=
  (g.config httpx C).map fun config => (n, config)

/-- The process as far as the client is concerned: `get_client` or `_http`, any number of times. -/
abbrev Process : Type := Once.State (ℕ × ClientConfig) Exc

def Reach (httpx : Httpx) (C : Credentials) (g : Singleton) : Process → Prop :=
  Once.State.Reach (g.make httpx C)

end Singleton

end Remediation
