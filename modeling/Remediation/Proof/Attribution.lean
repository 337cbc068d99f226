import Remediation.Proof.Lookup
import Remediation.Proof.Serial

/-!
# Attribution of pull requests

Along a serial run each pull request in the last answer about each session is found, and
recognised by the CI handler, exactly if every poll of the run keeps track of it
(`attributable_iff`): the answer names no pull request but the first one, or a row has it
already. A second pull request is taken for somebody else's (`second_pr_untracked`).
-/

namespace Remediation

open Interaction Prog PyText

/-- `Q` holds of every row that a tick of a serial run comes to, in the state in which it does. -/
def TicksOK (env : Outside) (S : Settings) (Q : SessionRow → World → Prop) :
    World → List Task → Prop
  | _, [] => True
  | w, task :: tasks =>
    (task = .poll → ∀ r w₀, TickReaches env S w r w₀ → Q r w₀) ∧
      TicksOK env S Q (w.after env S task) tasks

variable {env : Outside} {S : Settings} {w w₀ : World} {r : SessionRow} {h : Hist}

/-! ## Ticks -/

/-- Every PR is attributable before each operation, and at the end. -/
def Throughout {α : Type} (env : Outside) (p : M α) (w : World) : Prop :=
  p.Along (exec env) (fun _ w _ _ => Attributable w) [] w ∧ Attributable (p.eval (exec env) w).2

theorem throughout_bind {α β : Type} (p : M α) (f : α → M β) (w : World) :
    Throughout env (p.bind f) w ↔ p.Along (exec env) (fun _ w _ _ => Attributable w) [] w ∧
      Throughout env (f (p.eval (exec env) w).1) (p.eval (exec env) w).2 := by
  unfold Throughout
  rw [along_bind p f [] [] w, eval_bind, and_assoc]

theorem throughout_call {α : Type} {op : Op} {k : Ans op → M α} (hP : Attributable w) :
    Throughout env (Prog.call op k) w ↔
      Throughout env (k (exec env op w).1) (exec env op w).2 := by
  unfold Throughout
  constructor
  · rintro ⟨⟨-, hk⟩, hend⟩
    exact ⟨along_any _ hk, hend⟩
  · rintro ⟨hk, hend⟩
    exact ⟨⟨hP, along_any _ hk⟩, hend⟩

/-- The polls of `rows` from `w` on come to `r`, and are then in `w₀`. -/
def PollsReach (env : Outside) (S : Settings) (rows : List SessionRow) (summary : Summary)
    (w : World) (r : SessionRow) (w₀ : World) : Prop :=
  ∃ pre post summary', rows = pre ++ r :: post ∧
    (pollRows S pre summary).eval (exec env) w = (.ok summary', w₀)

theorem pollsReach_cons {rest : List SessionRow} {summary : Summary} {q : SessionRow} :
    PollsReach env S (r :: rest) summary w q w₀ ↔ (q = r ∧ w₀ = w) ∨
      ∃ summary₁ w₁, (pollRow S summary r).eval (exec env) w = (.ok summary₁, w₁) ∧
        PollsReach env S rest summary₁ w₁ q w₀ := by
  constructor
  · rintro ⟨pre, post, summary', hrows, hpre⟩
    cases pre with
    | nil =>
      cases hrows
      cases hpre
      exact Or.inl ⟨rfl, rfl⟩
    | cons r' pre =>
      cases hrows
      rw [pollRows, bind_eq, eval_bind] at hpre
      cases hone : (pollRow S summary r).eval (exec env) w with
      | mk result w₁ =>
        rw [hone] at hpre
        cases result with
        | error exc => cases hpre
        | ok summary₁ => exact Or.inr ⟨summary₁, w₁, rfl, pre, post, summary', rfl, hpre⟩
  · rintro (⟨rfl, rfl⟩ | ⟨summary₁, w₁, hone, pre, post, summary', rfl, hpre⟩)
    · exact ⟨[], rest, summary, rfl, rfl⟩
    · refine ⟨r :: pre, post, summary', rfl, ?_⟩
      rw [pollRows, bind_eq, eval_bind, hone]
      exact hpre

/-- The polls of a tick: each of them has to keep track. -/
theorem throughout_pollRows_iff {rows : List SessionRow} (hP : Attributable w)
    (hrows : ∀ r ∈ rows, w.sessions.get r.id = some r) (hids : (rows.map (·.id)).Nodup)
    (summary : Summary) :
    Throughout env (pollRows S rows summary) w ↔
      ∀ r w₀, PollsReach env S rows summary w r w₀ → KeepsTrack env S r w₀ := by
  induction rows generalizing w summary with
  | nil =>
    refine iff_of_true ⟨trivial, hP⟩ ?_
    rintro r w₀ ⟨pre, post, summary', he, -⟩
    cases pre <;> cases he
  | cons r rest ih =>
    obtain ⟨hnew, hids⟩ := List.nodup_cons.1 hids
    have hr := hrows r List.mem_cons_self
    have hone := attributable_pollRow_iff env S hP hr summary
    have hdone := along_pollRow (h := []) env S r hP summary
    have hkept : ∀ q ∈ rest,
        ((pollRow S summary r).eval (exec env) w).2.sessions.get q.id = some q := by
      intro q hq
      have hne : q.id ∉ [r.id] := by
        rintro hmem
        rw [List.mem_singleton] at hmem
        exact hnew (List.mem_map.2 ⟨q, hq, hmem⟩)
      rw [get_of_touches env w (touches_of_polling (polling_pollRow (S := S) (h := [])
        List.mem_cons_self summary)) hne]
      exact hrows q (List.mem_cons_of_mem _ hq)
    rw [pollRows, bind_eq, throughout_bind, and_iff_right hdone]
    simp only [pollsReach_cons]
    cases heval : (pollRow S summary r).eval (exec env) w with
    | mk result w₁ =>
      rw [heval] at hone hkept
      cases result with
      | error exc =>
        -- the tick ends here
        refine Iff.trans ⟨fun hend => hend.2, fun hend => ⟨trivial, hend⟩⟩ (hone.trans ?_)
        constructor
        · rintro hkeep q w₀ (⟨rfl, rfl⟩ | ⟨_, _, he, -⟩)
          · exact hkeep
          · cases he
        · exact fun hall => hall r w (Or.inl ⟨rfl, rfl⟩)
      | ok summary₁ =>
        constructor
        · intro hrest q w₀ hq
          have hP₁ : Attributable w₁ := hrest.1.first hrest.2
          rcases hq with ⟨rfl, rfl⟩ | ⟨_, _, he, hq⟩
          · exact hone.1 hP₁
          · cases he
            exact (ih hP₁ hkept hids summary₁).1 hrest q w₀ hq
        · intro hall
          have hP₁ : Attributable w₁ := hone.2 (hall r w (Or.inl ⟨rfl, rfl⟩))
          exact (ih hP₁ hkept hids summary₁).2 fun q w₀ hq =>
            hall q w₀ (Or.inr ⟨summary₁, w₁, rfl, hq⟩)

theorem throughout_pollOnce_iff (hP : Attributable w) :
    Throughout env (pollOnce S) w ↔ ∀ r w₀, TickReaches env S w r w₀ → KeepsTrack env S r w₀ := by
  obtain ⟨hqueue, hP⟩ := along_unpolled (unpolled_drainQueue (S := S) (h := [])) env hP
  unfold pollOnce TickReaches
  simp only [perform, bind_eq, call_bind, ret_bind]
  rw [throughout_bind, and_iff_right hqueue, throughout_call hP]
  set drained := (drainQueue S).eval (exec env) w
  set connected := exec env .getClient drained.2
  have hP : Attributable connected.2 := attributable_skip env rfl hP
  cases hclient : connected.1 with
  | error exc =>
    refine iff_of_true ⟨trivial, hP⟩ ?_
    rintro r w₀ ⟨he, -⟩
    cases he
  | ok client =>
    dsimp only
    rw [throughout_call hP]
    set listed := exec env .listNonTerminal connected.2
    have hP : Attributable listed.2 := attributable_skip env rfl hP
    have hmem : ∀ r ∈ listed.1, listed.2.sessions.get r.id = some r := fun r hr =>
      listed.2.sessions.get_eq_some.2 ⟨(Sessions.mem_listNonTerminal.1 hr).1, rfl⟩
    rw [throughout_pollRows_iff hP hmem connected.2.sessions.listNonTerminal_ids]
    exact ⟨fun hall r w₀ hr => hall r w₀ hr.2, fun hall r w₀ hr => hall r w₀ ⟨rfl, hr⟩⟩

/-! ## Runs -/

theorem throughout_task_iff (env : Outside) (S : Settings) (hP : Attributable w) (task : Task) :
    Throughout env (task.prog S) w ↔
      (task = .poll → ∀ r w₀, TickReaches env S w r w₀ → KeepsTrack env S r w₀) := by
  by_cases htask : task = .poll
  · subst htask
    rw [← throughout_pollOnce_iff hP]
    change Throughout env ((pollOnce S).bind fun _ => .ret ()) w ↔ _
    rw [throughout_bind]
    exact ⟨fun h _ => ⟨h.1, h.2.2⟩, fun h => ⟨(h rfl).1, trivial, (h rfl).2⟩⟩
  · exact iff_of_true (along_unpolled (unpolled_task htask) env hP) fun h => absurd h htask

theorem attributable_run_iff (hP : Attributable w) (tasks : List Task) :
    (SerialOK env S (fun _ w _ _ => Attributable w) w tasks ∧
      Attributable (runSerial env S w tasks)) ↔ TicksOK env S (KeepsTrack env S) w tasks := by
  induction tasks generalizing w with
  | nil => exact iff_of_true ⟨trivial, hP⟩ trivial
  | cons task tasks ih =>
    have htask := throughout_task_iff env S hP task
    constructor
    · rintro ⟨⟨halong, hrest⟩, hend⟩
      have hP' : Attributable (w.after env S task) := hrest.first hend
      exact ⟨htask.1 ⟨halong, hP'⟩, (ih hP').1 ⟨hrest, hend⟩⟩
    · rintro ⟨hkeep, hrest⟩
      obtain ⟨halong, hP'⟩ := htask.2 hkeep
      obtain ⟨hrest, hend⟩ := (ih hP').2 hrest
      exact ⟨⟨halong, hrest⟩, hend⟩

/-! ## The CI handler -/

/-- The handler says that the PR is not that of a session. -/
def Outcome.untracked (o : Outcome) : Bool :=
  startsWith o.text "skipped:no_tracked_session_for_pr:"

/-- For a failure on the PR with the URL `u`, the handler does not say that. -/
def Recognises (env : Outside) (S : Settings) (w : World) (u : String) : Prop :=
  ∀ run number pr o, run.pullRequests.head?.bind prNumberOf = some number →
    (exec env (.getPr (run.repositoryFullName.getD S.forkRepo) number) w).1 = .ok (some pr) →
    pr.htmlUrl.getD "" = u → ((handleCiFailure S run).eval (exec env) w).1 = .ok o →
      o.untracked = false

/-- No other reason for which a run is skipped reads like that. -/
theorem tracked_skipped (p t : String)
    (hp : "no_tracked_session_for_pr:".toList.isPrefixOf (p.toList ++ t.toList) = false) :
    (Outcome.skipped (p ++ t)).untracked = false := by
  change startsWith ("skipped:" ++ (p ++ t)) "skipped:no_tracked_session_for_pr:" = false
  rw [← hp]
  simp [startsWith]

theorem tracked_error (why : String) : (Outcome.error why).untracked = false := by
  change startsWith ("error:" ++ why) "skipped:no_tracked_session_for_pr:" = false
  simp [startsWith, List.isPrefixOf]

theorem tracked_created (id : String) : (Outcome.created id).untracked = false := by
  change startsWith ("created_session:" ++ id) "skipped:no_tracked_session_for_pr:" = false
  simp [startsWith, List.isPrefixOf]

theorem tracked_escalated (why : String) : (Outcome.escalated why).untracked = false := by
  change startsWith ("escalated:" ++ why) "skipped:no_tracked_session_for_pr:" = false
  simp [startsWith, List.isPrefixOf]

/-- Whatever a program issues. -/
def anything : Contract Ans where
  pre _ _ := True
  post _ _ _ := True

theorem anything_call {α : Type} {Q : Hist → α → Prop} {op : Op} {k : Ans op → M α}
    (hk : ∀ a, (k a).Keeps anything Q (⟨op, a⟩ :: h)) : (Prog.call op k).Keeps anything Q h :=
  ⟨trivial, fun a _ => hk a⟩

theorem keeps_anything {α : Type} (p : M α) : p.Keeps anything (fun _ _ => True) h := by
  induction p generalizing h with
  | ret a => trivial
  | call op k ih => exact anything_call fun a => ih a

theorem tracked_spawnSession (pk : ℕ) (workKey : String) (req : CreateRequest) :
    (spawnSession pk workKey req).Keeps anything (fun _ o => o.untracked = false) h := by
  unfold spawnSession markFailed
  simp only [perform, bind_eq, call_bind, ret_bind]
  refine anything_call fun client => ?_
  cases client with
  | error exc => exact anything_call fun t => anything_call fun _ => tracked_error _
  | ok _ =>
    refine anything_call fun created => ?_
    cases created with
    | error exc => exact anything_call fun t => anything_call fun _ => tracked_error _
    | ok created => exact anything_call fun _ => tracked_created _

theorem tracked_attemptFix (t : FixTarget) (n : ℕ) :
    (attemptFix S t n).Keeps anything (fun _ o => o.untracked = false) h := by
  unfold attemptFix fix
  simp only [perform, bind_eq, call_bind, ret_bind]
  refine anything_call fun commits => ?_
  split
  · exact tracked_error _
  split
  · exact tracked_skipped "human_commits_on_branch:" _ rfl
  refine anything_call fun active => ?_
  split
  · exact tracked_skipped "concurrency_cap:" _ rfl
  refine anything_call fun reserved => ?_
  split
  · exact tracked_skipped "already_reserved:" _ rfl
  refine anything_call fun logs => ?_
  split <;> exact tracked_spawnSession _ _ _

theorem tracked_fixOrEscalate (t : FixTarget) :
    (fixOrEscalate S t).Keeps anything (fun _ result => ∀ o, result = .ok o → o.untracked = false)
      h := by
  unfold fixOrEscalate
  simp only [perform, bind_eq, call_bind, ret_bind]
  refine anything_call fun n => ?_
  split
  · refine (keeps_anything _).bind fun _ escalated _ => ?_
    cases escalated with
    | error exc => exact fun o ho => by cases ho
    | ok _ =>
      rintro o ⟨⟩
      exact tracked_escalated _
  · refine (tracked_attemptFix t _).bind fun _ outcome houtcome => ?_
    rintro o ⟨⟩
    exact houtcome

/-- **A pull request that is found is recognised.** -/
theorem recognises_of_findByPr {u : String} (hu : (w.sessions.findByPr u).isSome = true) :
    Recognises env S w u := by
  rintro run number pr o hnumber hpr rfl ho
  unfold handleCiFailure at ho
  split at ho
  · cases ho
    exact tracked_skipped "not_pr_triggered:" _ rfl
  cases hrefs : run.pullRequests with
  | nil =>
    rw [hrefs] at hnumber
    cases hnumber
  | cons ref rest =>
    rw [hrefs] at hnumber
    have href : prNumberOf ref = some number := hnumber
    simp only [hrefs, href, perform, bind_eq, call_bind, ret_bind, eval_call] at ho
    set w1 := (exec env (.getPr (run.repositoryFullName.getD S.forkRepo) number) w).2
    rw [hpr] at ho
    dsimp only at ho
    split at ho
    · cases ho
      exact tracked_skipped "not_devin_branch:" _ rfl
    rw [eval_call] at ho
    obtain ⟨parent, hparent⟩ := Option.isSome_iff_exists.1 hu
    have hfound : (exec env (.findByPr (pr.htmlUrl.getD "")) w1).1 = some parent := hparent
    rw [hfound] at ho
    dsimp only at ho
    split at ho
    · cases ho
      exact tracked_skipped "parent_still_active:" _ rfl
    · obtain ⟨-, -, hresult⟩ := eval_inv (R := fun _ _ _ _ => True) (J := fun _ _ => True)
        (fun _ _ _ _ _ => trivial) (fun _ _ _ _ _ _ => trivial) _
        (tracked_fixOrEscalate (h := []) _) trivial (along_true _ _)
      exact hresult o ho

/-- **Attribution.** In every state of a serial run each pull request in the last answer that
the poller has processed about each session is found, exactly if each poll of the run keeps
track of it. Where it is found, the CI handler recognises it. -/
theorem attributable_iff (env : Outside) (S : Settings) (sessions : Sessions)
    (events : WebhookEvents) (now : Time) (tasks : List Task) :
    let w₀ : World := { sessions, events, now }
    ((SerialOK env S (fun _ w _ _ => Attributable w) w₀ tasks ∧
      Attributable (runSerial env S w₀ tasks)) ↔ TicksOK env S (KeepsTrack env S) w₀ tasks) ∧
    ∀ w, Attributable w → ∀ x data, lastProcessed x w.trace = some data → ∀ u ∈ data.prUrls,
      Recognises env S w u := by
  intro w₀
  have hstart : Attributable w₀ := fun x data hlast => by cases hlast
  refine ⟨attributable_run_iff hstart tasks, fun w hP x data hlast u hu => ?_⟩
  exact recognises_of_findByPr (hP x data hlast u hu)

namespace TwoPrs

/-- A session at work on two pull requests. -/
def report : ApiSession where
  status := some "running"
  pullRequests := [⟨some "https://github.com/o/r/pull/7", some "open"⟩,
    ⟨some "https://github.com/o/r/pull/8", some "open"⟩]

def outside : Outside :=
  { Outside.calm with
    getSession := fun _ _ => .ok report
    getPr := fun _ _ number =>
      .ok (some { htmlUrl := some s!"https://github.com/o/r/pull/{number}",
                  headRef := some "devin/cve-1" }) }

/-- The state after the session has been created and polled. -/
def world : World := runSerial outside {} (.initial 0) [.securityIssue (.sample 1), .poll]

/-- **The second pull request is not found**, and the handler says that it is nobody's. -/
theorem second_pr_untracked :
    ¬Attributable world ∧
      ((handleCiFailure {} { WorkflowRun.sample 100 with pullRequests := [some 8] }).eval
        (exec outside) world).1.toOption.map Outcome.text =
          some "skipped:no_tracked_session_for_pr:8" := by
  refine ⟨fun hP => ?_, by decide +kernel⟩
  have hlast : (lastProcessed "devin-4" world.trace).map ApiSession.prUrls =
      some ["https://github.com/o/r/pull/7", "https://github.com/o/r/pull/8"] := by decide +kernel
  have hnone : (world.sessions.findByPr "https://github.com/o/r/pull/8").isSome = false := by
    decide +kernel
  obtain ⟨data, hdata, hurls⟩ := Option.map_eq_some_iff.1 hlast
  have hu : "https://github.com/o/r/pull/8" ∈ data.prUrls := by
    rw [hurls]
    exact List.mem_cons_of_mem _ List.mem_cons_self
  have hfound := hP "devin-4" data hdata _ hu
  rw [hnone] at hfound
  cases hfound

end TwoPrs

end Remediation
