import Remediation.Proof.Provenance
import Remediation.Spec.Github

/-!
# What Devin is asked

A session that is created costs money, and does what its prompt says. In every interleaving of jobs,
with crashes, each call of `create_session` is for the fork and within the limit, and its prompt is
one of the two that are built here (`Asked`): for a CVE with all required fields, or for an attempt
at a failing run that is within the cap, on a branch of Devin's. The latter quotes a prompt for which a
session has been asked for before, and of the log no more than its last lines (`Quotes`).
-/

namespace Remediation

open Interaction Prog PyText

/-! ## What is quoted of a log -/

/-- The last lines of a log, `n` at most. They are read back from the quotation, but for an empty one
at the end, and are those of the text that GitHub has sent, if it is one. -/
structure Quotes (content : List UInt8) (n : ℕ) (tail : String) (lines : List (List Char)) : Prop where
  suffix : lines <:+ splitlines (decodeUtf8 content)
  short : n ≠ 0 → lines.length ≤ n
  read : splitlines tail.toList = if lines.getLast? = some [] then lines.dropLast else lines
  text : ∀ text : String, content = text.toUTF8.data.toList → lines <:+ splitlines text.toList

/-- What a prompt has in its block of logs. -/
inductive Excerpt (gh : GithubApi) (n : ℕ) : String → Prop
  | noFailingJob : Excerpt gh n GithubApi.noFailingJob
  | logsExpired : Excerpt gh n GithubApi.logsExpired
  | notFetched (message : String) : Excerpt gh n s!"(could not fetch logs: {message})"
  | log {clock : ℕ} {repo : String} {jobId : ℤ} {statusCode : ℕ} {content : List UInt8} {tail : String}
      {lines : List (List Char)} (hlogs : gh.jobLogs clock repo jobId = .ok ⟨statusCode, content⟩)
      (hquotes : Quotes content n tail lines) : Excerpt gh n tail

theorem tailLines_suffix {α : Type} (n : ℕ) (lines : List α) : tailLines n lines <:+ lines := by
  rw [tailLines]
  split
  · exact List.suffix_rfl
  · exact List.drop_suffix _ _

theorem length_tailLines {α : Type} {n : ℕ} (hn : n ≠ 0) (lines : List α) :
    (tailLines n lines).length ≤ n := by
  rw [tailLines, if_neg hn, List.length_drop]
  omega

theorem quotes_tailLines (content : List UInt8) (n : ℕ) :
    Quotes content n (String.ofList (joinLines (tailLines n (splitlines (decodeUtf8 content)))))
      (tailLines n (splitlines (decodeUtf8 content))) where
  suffix := tailLines_suffix n _
  short hn := length_tailLines hn _
  read := by
    rw [String.toList_ofList]
    refine splitlines_joinLines ?_
    intro l hl
    exact oneLine_of_mem_splitlines ((tailLines_suffix n _).subset hl)
  text text htext := by
    rw [htext, decodeUtf8_encode]
    exact tailLines_suffix n _

theorem except_bind_eq_ok {ε α β : Type} {x : Except ε α} {f : α → Except ε β} {b : β}
    (h : (x >>= f) = .ok b) : ∃ a, x = .ok a ∧ f a = .ok b := by
  cases x with
  | error e => cases h
  | ok a => exact ⟨a, rfl, h⟩

theorem raiseForStatus_eq_ok {gh : GithubApi} {β : Type} {resp : GithubResponse β} {body : β}
    (h : resp.raiseForStatus gh = .ok body) : resp = ⟨resp.statusCode, body⟩ := by
  rw [GithubResponse.raiseForStatus] at h
  split at h
  · rw [← Except.ok.inj h]
  · cases h

/-- **The client quotes.** -/
theorem excerpt_of_logs {gh : GithubApi} {clock n : ℕ} {repo : String} {runId : Option ℤ}
    {tail : String} (h : gh.getWorkflowRunFailingJobLogs clock repo runId n = .ok tail) :
    Excerpt gh n tail := by
  unfold GithubApi.getWorkflowRunFailingJobLogs at h
  obtain ⟨jobsResp, -, h⟩ := except_bind_eq_ok h
  obtain ⟨body, -, h⟩ := except_bind_eq_ok h
  obtain ⟨jobs, -, h⟩ := except_bind_eq_ok h
  split at h
  · cases h
    exact .noFailingJob
  split at h
  · cases h
  obtain ⟨logsResp, hlogs, h⟩ := except_bind_eq_ok h
  split at h
  · cases h
    exact .logsExpired
  obtain ⟨content, hraise, h⟩ := except_bind_eq_ok h
  rw [raiseForStatus_eq_ok hraise] at hlogs
  cases h
  exact .log hlogs (quotes_tailLines content n)

/-! ## What a prompt may be -/

/-- The prompts, where some are `known`. An attempt at a failing run quotes a known one, or says that
there is none. -/
inductive Asked (S : Settings) (gh : GithubApi) (known : String → Prop) : String → Prop
  | remediation {issue : Issue} {ctx : CveContext} (hparse : parseIssueToCveContext issue = some ctx)
      (hfields : ctx.missingRequiredFields = []) : Asked S gh known (buildCvePrompt ctx S.forkUrl)
  | fix {ctx : CiFixContext} (hbranch : startsWith ctx.branch "devin/" = true)
      (hlogs : Excerpt gh 200 ctx.failureLogsTail)
      (hparent : ctx.parentPrompt ≠ "(parent prompt not preserved)" → known ctx.parentPrompt)
      (hfirst : 1 ≤ ctx.attemptNumber) (hlast : ctx.attemptNumber ≤ S.maxFixAttempts)
      (hcap : ctx.maxAttempts = S.maxFixAttempts) :
      Asked S gh known (buildCiFixPrompt ctx)

theorem Asked.mono {S : Settings} {gh : GithubApi} {known known' : String → Prop} {prompt : String}
    (h : Asked S gh known prompt) (hk : ∀ p, known p → known' p) : Asked S gh known' prompt := by
  cases h with
  | remediation hparse hfields => exact .remediation hparse hfields
  | fix hbranch hlogs hparent hfirst hlast hcap =>
    exact .fix hbranch hlogs (fun hne => hk _ (hparent hne)) hfirst hlast hcap

/-- A request for a session. -/
structure GoodRequest (S : Settings) (gh : GithubApi) (known : String → Prop) (req : CreateRequest) :
    Prop where
  repos : req.repos = [S.forkRepo]
  limit : req.maxAcuLimit = S.devinMaxAcuPerSession
  prompt : Asked S gh known req.prompt

theorem GoodRequest.mono {S : Settings} {gh : GithubApi} {known known' : String → Prop}
    {req : CreateRequest} (h : GoodRequest S gh known req) (hk : ∀ p, known p → known' p) :
    GoodRequest S gh known' req := ⟨h.repos, h.limit, h.prompt.mono hk⟩

/-- A request is good, and a prompt that is stored is known. -/
def Op.WellAsked (S : Settings) (gh : GithubApi) (known : String → Prop) : Op → Prop
  | .createSession _ req => GoodRequest S gh known req
  | .update _ u => ∀ p, u.promptSnapshot = some p → known p
  | _ => True

/-- The prompts that a job knows of by an operation: the one that it asks for a session with, and that of
the row it reads. -/
def prompts : Entry Ans → List String
  | ⟨.createSession _ req, _⟩ => [req.prompt]
  | ⟨.findByPr _, some parent⟩ => parent.promptSnapshot.toList
  | _ => []

def Known (h : Hist) (p : String) : Prop := ∃ e ∈ h, p ∈ prompts e

theorem Known.cons {h : Hist} {p : String} (hp : Known h p) (e : Entry Ans) : Known (e :: h) p := by
  obtain ⟨e', he', hp⟩ := hp
  exact ⟨e', List.mem_cons_of_mem _ he', hp⟩

/-- A session has been asked for with the prompt. -/
def Sent (h : Hist) (p : String) : Prop :=
  ∃ e ∈ h, ∃ workKey req, e.1 = .createSession workKey req ∧ req.prompt = p

/-- What an answer is relied on for. -/
def Trusted (gh : GithubApi) : Entry Ans → Prop
  | ⟨.getWorkflowRunFailingJobLogs _ _ n, .ok tail⟩ => Excerpt gh n tail
  | _ => True

/-! ## What each job asks -/

def asking (S : Settings) (gh : GithubApi) : Contract Ans where
  pre h op := op.WellAsked S gh (Known h)
  post _ op a := Trusted gh ⟨op, a⟩

variable {env : Outside} {S : Settings} {gh : GithubApi} {w : World} {h : Hist} {α : Type}
  {Q : Hist → α → Prop}

theorem asking_call {op : Op} {k : Ans op → M α} (hop : op.WellAsked S gh (Known h))
    (hk : ∀ a, Trusted gh ⟨op, a⟩ → (k a).Keeps (asking S gh) Q (⟨op, a⟩ :: h)) :
    (Prog.call op k).Keeps (asking S gh) Q h := ⟨hop, hk⟩

/-- An UPDATE that stores no prompt. -/
theorem asking_update {pk : ℕ} {u : Update} {k : Unit → M α} (hu : u.promptSnapshot = none)
    (hk : ∀ a, (k a).Keeps (asking S gh) Q (⟨.update pk u, a⟩ :: h)) :
    (Prog.call (.update pk u) k).Keeps (asking S gh) Q h := by
  refine ⟨?_, fun a _ => hk a⟩
  intro p hp
  rw [hu] at hp
  cases hp

theorem asking_markFailed (pk : ℕ) (reason : String) :
    (markFailed pk reason).Keeps (asking S gh) Whatever h := by
  unfold markFailed
  simp only [perform, bind_eq, call_bind, ret_bind]
  exact asking_call trivial fun _ _ => asking_update rfl fun _ => trivial

theorem asking_spawnSession (pk : ℕ) (workKey : String) {req : CreateRequest}
    (hreq : GoodRequest S gh (Known h) req) :
    (spawnSession pk workKey req).Keeps (asking S gh) Whatever h := by
  unfold spawnSession
  simp only [perform, bind_eq, call_bind, ret_bind]
  refine asking_call trivial ?_
  intro client _
  cases client with
  | error exc => exact (asking_markFailed pk _).bind fun _ _ _ => trivial
  | ok _ =>
    refine asking_call (hreq.mono fun p hp => hp.cons _) ?_
    intro created _
    cases created with
    | error exc => exact (asking_markFailed pk _).bind fun _ _ _ => trivial
    | ok created =>
      refine asking_call ?_ fun _ _ => trivial
      intro p hp
      cases hp
      exact ⟨_, List.mem_cons_self, List.mem_singleton.2 rfl⟩

theorem asking_handleSecurityIssue (issue : Issue) :
    (handleSecurityIssue S issue).Keeps (asking S gh) Whatever h := by
  unfold handleSecurityIssue
  simp only [perform, bind_eq, call_bind, ret_bind]
  refine asking_call trivial ?_
  intro active _
  split
  · trivial
  refine asking_call trivial ?_
  intro today _
  split
  · trivial
  refine asking_call trivial ?_
  intro reserved _
  cases reserved with
  | none => trivial
  | some pk =>
    change (remediate S issue pk _).Keeps _ _ _
    unfold remediate
    split
    · exact (asking_markFailed pk _).bind fun _ _ _ => trivial
    · rename_i ctx hparse
      dsimp only
      split
      · exact (asking_markFailed pk _).bind fun _ _ _ => trivial
      · rename_i hmissing
        exact asking_spawnSession pk _ ⟨rfl, rfl, .remediation hparse (not_not.1 hmissing)⟩

/-- The request for an attempt within the cap. -/
theorem goodRequest_fix {known : String → Prop} {t : FixTarget} {n : ℕ} {tail : String}
    (hbranch : startsWith t.headRef "devin/" = true)
    (hparent : ∀ p, t.parent.promptSnapshot = some p → known p)
    (hfirst : 1 ≤ n) (hlast : n ≤ S.maxFixAttempts) (htail : Excerpt gh 200 tail) :
    GoodRequest S gh known (t.request S n tail) where
  repos := rfl
  limit := rfl
  prompt := by
    refine .fix hbranch htail ?_ hfirst hlast rfl
    intro hne
    change (truthy t.parent.promptSnapshot).getD "(parent prompt not preserved)" ≠ _ at hne
    change known ((truthy t.parent.promptSnapshot).getD "(parent prompt not preserved)")
    cases hsnapshot : truthy t.parent.promptSnapshot with
    | none =>
      rw [hsnapshot] at hne
      exact absurd rfl hne
    | some p => exact hparent p (truthy_eq_some.1 hsnapshot).1

theorem asking_attemptFix (t : FixTarget) (n : ℕ) (hbranch : startsWith t.headRef "devin/" = true)
    (hparent : ∀ p, t.parent.promptSnapshot = some p → Known h p) (hfirst : 1 ≤ n)
    (hlast : n ≤ S.maxFixAttempts) :
    (attemptFix S t n).Keeps (asking S gh) Whatever h := by
  unfold attemptFix
  simp only [perform, bind_eq, call_bind, ret_bind]
  refine asking_call trivial ?_
  intro commits _
  cases commits with
  | error exc => trivial
  | ok commits =>
    dsimp only
    split
    · trivial
    refine asking_call trivial ?_
    intro active _
    split
    · trivial
    refine asking_call trivial ?_
    intro reserved _
    cases reserved with
    | none => trivial
    | some pk =>
      change (fix S t n pk).Keeps _ _ _
      have hknown := fun p hp => (((hparent p hp).cons
        ⟨.listPrCommits t.repo t.prNumber, .ok commits⟩).cons ⟨.countActive, active⟩).cons
        ⟨.tryReserve (t.reservation n), some pk⟩
      unfold fix
      simp only [perform, bind_eq, call_bind, ret_bind]
      refine asking_call trivial ?_
      intro logs htrusted
      cases logs with
      | error exc =>
        exact asking_spawnSession pk _
          (goodRequest_fix hbranch (fun p hp => (hknown p hp).cons _) hfirst hlast
            (.notFetched exc.message))
      | ok logsTail =>
        exact asking_spawnSession pk _
          (goodRequest_fix hbranch (fun p hp => (hknown p hp).cons _) hfirst hlast htrusted)

theorem asking_cancelChildren (children : List SessionRow) :
    (cancelChildren children).Keeps (asking S gh) Whatever h := by
  induction children generalizing h with
  | nil => trivial
  | cons child rest ih =>
    unfold cancelChildren terminateChild
    split
    · simp only [perform, bind_eq, call_bind, ret_bind]
      exact asking_call trivial fun _ _ => asking_update rfl fun _ => ih
    · simp only [perform, bind_eq, call_bind, pure_eq, ret_bind]
      exact asking_update rfl fun _ => ih

theorem asking_escalateToHuman (parent : SessionRow) (repo : String) (prNumber : ℤ)
    (attemptCount : ℕ) :
    (escalateToHuman parent repo prNumber attemptCount).Keeps (asking S gh) Whatever h := by
  unfold escalateToHuman
  split
  · trivial
  simp only [perform, bind_eq, call_bind, ret_bind]
  refine asking_update rfl fun _ => asking_call trivial ?_
  intro client _
  cases client with
  | error exc => trivial
  | ok _ =>
    refine asking_call trivial ?_
    intro children _
    exact (asking_cancelChildren children).bind fun _ _ _ => asking_call trivial fun _ _ => trivial

/-- **A failing run** has a session asked for only if there is an attempt left. -/
theorem asking_handleCiFailure (run : WorkflowRun) :
    (handleCiFailure S run).Keeps (asking S gh) Whatever h := by
  unfold handleCiFailure
  dsimp only
  split
  · trivial
  split
  · trivial
  split
  · trivial
  simp only [perform, bind_eq, call_bind, ret_bind]
  refine asking_call trivial ?_
  intro pr _
  split
  · trivial
  · trivial
  · split
    · trivial
    rename_i hbranch
    refine asking_call trivial ?_
    intro parent _
    cases parent with
    | none => trivial
    | some parent =>
      dsimp only
      split
      · trivial
      unfold fixOrEscalate
      simp only [perform, bind_eq, call_bind, ret_bind]
      refine asking_call trivial ?_
      intro currentMax _
      split
      · refine (asking_escalateToHuman _ _ _ _).bind ?_
        intro _ escalated _
        cases escalated <;> trivial
      · rename_i hcap
        refine (asking_attemptFix _ _ ?_ ?_ (by omega) (by omega)).bind fun _ _ _ => trivial
        · simpa using hbranch
        · intro p hp
          refine Known.cons ⟨_, List.mem_cons_self, ?_⟩ _
          simpa [prompts] using hp

theorem asking_dispatch (eventType : String) (action : Option String) (payload : Payload) :
    (dispatch S eventType action payload).Keeps (asking S gh) Whatever h := by
  unfold dispatch
  split
  · unfold dispatchIssue
    split
    · trivial
    dsimp only
    split
    · trivial
    split
    · exact (asking_handleSecurityIssue _).bind fun _ _ _ => trivial
    split <;> trivial
  split
  · unfold dispatchWorkflowRun
    split
    · trivial
    dsimp only
    split
    · trivial
    · exact asking_handleCiFailure _
  split <;> trivial

theorem asking_retryQueued (rows : List WebhookEvent) (summary : Summary) :
    (retryQueued S rows summary).Keeps (asking S gh) Whatever h := by
  induction rows generalizing h summary with
  | nil => trivial
  | cons row rest ih =>
    unfold retryQueued
    refine (asking_dispatch _ _ _).bind ?_
    intro h' result _
    cases result with
    | error exc => exact ih summary
    | ok outcome =>
      dsimp only
      split
      · exact asking_call trivial fun _ _ => ih _
      · exact ih _

theorem asking_drainQueue : (drainQueue S).Keeps (asking S gh) Whatever h := by
  unfold drainQueue
  simp only [perform, bind_eq, call_bind, ret_bind]
  refine asking_call trivial ?_
  intro active _
  split
  · trivial
  exact asking_call trivial fun queued _ => asking_retryQueued queued _

/-! The poller asks for nothing, and stores no prompt. -/

theorem asking_writeBack (summary : Summary) (row : SessionRow) (x : String)
    (remote : SessionDetails) :
    (writeBack summary row x remote).Keeps (asking S gh) Whatever h := by
  unfold writeBack
  simp only [perform, bind_eq, call_bind, ret_bind]
  refine asking_call trivial ?_
  intro t _
  split
  · exact asking_update rfl fun _ => trivial
  split
  · exact asking_call trivial fun _ _ => asking_call trivial fun _ _ => asking_update rfl fun _ => trivial
  split
  · exact asking_call trivial fun _ _ => asking_update rfl fun _ => trivial
  split
  · exact asking_call trivial fun _ _ => asking_update rfl fun _ => trivial
  · exact asking_update rfl fun _ => trivial

theorem asking_timeOutOrWriteBack (summary : Summary) (row : SessionRow) (x : String)
    (remote : SessionDetails) (inactive : ℤ) :
    (timeOutOrWriteBack S summary row x remote inactive).Keeps (asking S gh) Whatever h := by
  unfold timeOutOrWriteBack
  split
  · unfold timeOut
    simp only [perform, bind_eq, call_bind, ret_bind]
    exact asking_call trivial fun _ _ => asking_call trivial fun _ _ => asking_call trivial fun _ _ =>
      asking_update rfl fun _ => trivial
  · exact asking_writeBack summary row x remote

theorem asking_pollRow (summary : Summary) (row : SessionRow) :
    (pollRow S summary row).Keeps (asking S gh) Whatever h := by
  unfold pollRow
  split
  · trivial
  simp only [perform, bind_eq, call_bind, ret_bind]
  refine asking_call trivial ?_
  intro answer _
  cases answer with
  | error exc => trivial
  | ok data =>
    dsimp only
    unfold processAnswer
    split
    · simp only [perform, bind_eq, call_bind, ret_bind]
      refine asking_call trivial ?_
      intro t _
      split
      · trivial
      · exact (asking_timeOutOrWriteBack _ _ _ _ _).bind fun _ _ _ => trivial
    · exact (asking_writeBack _ _ _ _).bind fun _ _ _ => trivial

theorem asking_pollRows (rows : List SessionRow) (summary : Summary) :
    (pollRows S rows summary).Keeps (asking S gh) Whatever h := by
  induction rows generalizing h summary with
  | nil => trivial
  | cons row rest ih =>
    unfold pollRows
    refine (asking_pollRow summary row).bind ?_
    intro h' result _
    cases result with
    | error exc => trivial
    | ok summary => exact ih summary

theorem asking_pollAll (summary : Summary) :
    (pollAll S summary).Keeps (asking S gh) Whatever h := by
  refine asking_call trivial ?_
  intro client _
  cases client with
  | error exc => trivial
  | ok _ => exact asking_call trivial fun rows _ => asking_pollRows rows summary

/-- **Every job** asks well, if the answers are as they should be. -/
theorem asking_job (job : Job) : (job.prog S).Keeps (asking S gh) Whatever [] := by
  cases job with
  | webhook deliveryId eventType action payload =>
    refine asking_call trivial ?_
    intro isNew _
    cases isNew with
    | true => exact (asking_dispatch _ _ _).bind fun _ _ _ => asking_call trivial fun _ _ => trivial
    | false => trivial
  | tick =>
    change (discard (pollOnce S)).Keeps _ _ _
    rw [pollOnce_eq]
    exact (asking_drainQueue.bind fun _ summary _ => asking_pollAll summary).bind fun _ _ _ => trivial

/-! ## Runs -/

section Run

variable {op : Op} {p : String}

theorem Op.WellAsked.mono {known known' : String → Prop} {op : Op}
    (h : op.WellAsked S gh known) (hk : ∀ p, known p → known' p) : op.WellAsked S gh known' := by
  cases op with
  | createSession workKey req => exact GoodRequest.mono h hk
  | update pk u => exact fun p hp => hk p (h p hp)
  | _ => trivial

theorem Sent.exec (h : Sent w.trace p) (op : Op) : Sent (exec env op w).2.trace p := by
  obtain ⟨e, he, hsent⟩ := h
  rw [exec_trace]
  exact ⟨e, List.mem_cons_of_mem _ he, hsent⟩

/-- Jobs know, and rows have, only prompts for which sessions have been asked for; and so it was when
each request was made. -/
structure AllAsked (S : Settings) (gh : GithubApi) (w : World) (hs : List Hist) : Prop where
  timely : Timely w
  rows : ∀ r ∈ w.sessions.rows, ∀ p, r.promptSnapshot = some p → Sent w.trace p
  known : ∀ h ∈ hs, ∀ p, Known h p → Sent w.trace p
  trace : ∀ e earlier, e :: earlier <:+ w.trace → e.1.WellAsked S gh (Sent earlier)

theorem trusted_exec (op : Op) (w : World) :
    Trusted gh ⟨op, (exec (env.withGithub gh) op w).1⟩ := by
  cases op with
  | getWorkflowRunFailingJobLogs repo runId n =>
    cases hlogs : (exec (env.withGithub gh) (.getWorkflowRunFailingJobLogs repo runId n) w).1 with
    | error exc => trivial
    | ok tail => exact excerpt_of_logs hlogs
  | _ => trivial

/-- What a job comes to know has been asked. -/
theorem sent_of_prompts {hs : List Hist} (hJ : AllAsked S gh w hs)
    (hp : p ∈ prompts ⟨op, (exec env op w).1⟩) : Sent (exec env op w).2.trace p := by
  cases op with
  | createSession workKey req =>
    rw [exec_trace]
    exact ⟨_, List.mem_cons_self, workKey, req, rfl, (List.mem_singleton.1 hp).symm⟩
  | findByPr prUrl =>
    cases hparent : (exec env (.findByPr prUrl) w).1 with
    | none =>
      rw [hparent] at hp
      cases hp
    | some parent =>
      rw [hparent] at hp
      have hsnapshot : parent.promptSnapshot = some p := by simpa [prompts] using hp
      exact (hJ.rows parent (Sessions.mem_of_findByPr hparent).1 p hsnapshot).exec _
  | _ => cases hp

theorem allAsked_step {hs : List Hist} {i : ℕ} (hJ : AllAsked S gh w hs) (hi : hs[i]? = some h)
    (hp : Permits S h op) (hop : op.WellAsked S gh (Known h)) :
    AllAsked S gh (exec env op w).2 (hs.set i (⟨op, (exec env op w).1⟩ :: h)) where
  timely := timely_exec hJ.timely hp
  rows r hr p hsnapshot := by
    rcases mem_exec hr with ⟨hr, -⟩ | ⟨res, -, rfl, -⟩ | ⟨r', hr', u, rfl, rfl⟩
    · exact (hJ.rows r hr p hsnapshot).exec op
    · cases hsnapshot
    · change u.promptSnapshot.or r'.promptSnapshot = some p at hsnapshot
      rcases Option.or_eq_some_iff.1 hsnapshot with hu | ⟨-, hold⟩
      · exact (hJ.known h (List.mem_of_getElem? hi) p (hop p hu)).exec _
      · exact (hJ.rows r' hr' p hold).exec _
  known g hg p hknown := by
    rcases List.mem_or_eq_of_mem_set hg with hg | rfl
    · exact (hJ.known g hg p hknown).exec op
    · obtain ⟨e, he, hprompt⟩ := hknown
      rcases List.mem_cons.1 he with rfl | he
      · exact sent_of_prompts hJ hprompt
      · exact (hJ.known h (List.mem_of_getElem? hi) p ⟨e, he, hprompt⟩).exec op
  trace e earlier hsuffix := by
    rw [exec_trace, List.suffix_cons_iff] at hsuffix
    rcases hsuffix with hnew | hold
    · obtain ⟨rfl, rfl⟩ := List.cons.inj hnew
      exact hop.mono (hJ.known h (List.mem_of_getElem? hi))
    · exact hJ.trace e earlier hold

theorem allAsked_initial (S : Settings) (gh : GithubApi) (now : Time) :
    AllAsked S gh (.initial now) [] where
  timely r hr := by cases hr
  rows r hr := by cases hr
  known h hh := by cases hh
  trace e earlier hsuffix := by cases List.suffix_nil.1 hsuffix

theorem AllAsked.spawn {hs : List Hist} (hJ : AllAsked S gh w hs) : AllAsked S gh w (hs ++ [[]]) where
  timely := hJ.timely
  rows := hJ.rows
  known h hh p hp := by
    rcases List.mem_append.1 hh with hh | hh
    · exact hJ.known h hh p hp
    · rw [List.mem_singleton.1 hh] at hp
      obtain ⟨e, he, -⟩ := hp
      cases he
  trace := hJ.trace

theorem AllAsked.crash {hs : List Hist} (hJ : AllAsked S gh w hs) (n : ℕ) :
    AllAsked S gh (w.boot n) [] := by
  rw [boot_of_timely hJ.timely n]
  exact { hJ with known := fun h hh => by cases hh }

end Run

/-- **What Devin is asked.** In every interleaving of deliveries and ticks, with crashes, from the
empty database: each call of `create_session` is for the fork alone, with the configured limit, and
its prompt is one of those of `Asked`, where a prompt is known if a call that came before was for it.
Each prompt that is stored is that of a call. -/
theorem requests_asked (env : Outside) (gh : GithubApi) (S : Settings) (now : Time)
    (acts : List (Act Job ℕ)) :
    let w := ((deployment (env.withGithub gh) S).run ⟨.initial now, []⟩ acts).world
    (∀ e earlier, e :: earlier <:+ w.trace → ∀ workKey req, e.1 = .createSession workKey req →
        GoodRequest S gh (Sent earlier) req) ∧
      ∀ r ∈ w.sessions.rows, ∀ p, r.promptSnapshot = some p → Sent w.trace p := by
  have hrun := (System.run_inv (S := deployment (env.withGithub gh) S)
    (C := (contract S).and (asking S gh)) (R := fun _ _ _ _ => True) (AllAsked S gh)
    (fun job => (keeps_job job).and (asking_job job)) (fun _ _ hJ => hJ.spawn)
    (fun _ _ n hJ => hJ.crash n) (fun w _ _ op _ _ _ => ⟨exec_honest _ op w, trusted_exec op w⟩)
    (fun _ _ _ _ _ hJ hi hpre _ => allAsked_step hJ hi hpre.1 hpre.2) acts
    (c := ⟨.initial now, []⟩) (allAsked_initial S gh now) (by simp [System.KeepsAll])
    (System.runOK_true _ acts)).1
  refine ⟨?_, hrun.rows⟩
  intro e earlier hsuffix workKey req hcreate
  have hwell := hrun.trace e earlier hsuffix
  rw [hcreate] at hwell
  exact hwell

end Remediation
