import Remediation.Proof.Guards
import Remediation.Proof.Merge
import Remediation.Proof.Representation

/-!
# Meeting the cap

What is left after a CI failure has met the cap on attempts. The escalation marks the row
that `find_by_pr` has picked before it asks for the Devin client, and ends the children of
that row only. It is complete, or leaves no trace, exactly if there is a client, the row
picked is that of the issue, and all active fix sessions on the PR are its children
(`escalation_completes_iff`).
-/

namespace Remediation

open Interaction Prog

/-! ## What the escalation is for -/

/-- The fix sessions at work on a PR. -/
def activeFixes (t : Sessions) (prUrl : String) : List SessionRow :=
  t.rows.filter fun r => isFixOf prUrl r && r.status.active

/-- `handle_ci_failure` comes to the cap on attempts: all guards before it let the run pass,
and as many attempts are counted as are allowed. -/
def MeetsCap (env : Outside) (S : Settings) (w : World) (t : FixTarget) : Prop :=
  t.run.event = some "pull_request" ∧
  t.repo = t.run.repositoryFullName.getD S.forkRepo ∧
  t.run.pullRequests.head?.bind prNumberOf = some t.prNumber ∧
  (∃ pr, env.getPr w.clock t.repo t.prNumber = .ok (some pr) ∧
    pr.htmlUrl.getD "" = t.prUrl ∧ pr.headRef.getD "" = t.headRef) ∧
  PyText.startsWith t.headRef "devin/" = true ∧
  w.sessions.findByPr t.prUrl = some t.parent ∧
  t.parent.status.terminal = true ∧
  S.maxFixAttempts ≤ w.sessions.maxFixAttemptForParent t.parent.devinSessionId

/-- No fix session is at work on the PR any more, each that was has been told to stop, and the
row that now needs attention is that of the issue whose PR it is. -/
structure Escalated (prUrl : String) (w w' : World) : Prop where
  ended : activeFixes w'.sessions prUrl = []
  stopped : ∀ r ∈ activeFixes w.sessions prUrl, ∀ x, PyText.truthy r.devinSessionId = some x →
    terminateCount x w.trace < terminateCount x w'.trace
  marked : ∃ r ∈ w.sessions.rows, r.triggerType = .cveIssue ∧ r.prUrl = some prUrl ∧
    r.status ≠ .needsAttention ∧ w'.sessions.statusOf r.id = some .needsAttention

/-- **Escalation completes or leaves no trace.** -/
def CompletesOrNothing (env : Outside) (S : Settings) (w : World) (t : FixTarget) : Prop :=
  let r := (handleCiFailure S t.run).eval (exec env) w
  (∃ why, r.1 = .ok (.escalated why) ∧ Escalated t.prUrl w r.2) ∨
    ∃ exc, r.1 = .error exc ∧ ∀ pk, r.2.sessions.statusOf pk = w.sessions.statusOf pk

variable {env : Outside} {S : Settings} {w : World} {t : FixTarget}

/-! ## The children -/

/-- What becomes of a child. -/
def SessionRow.cancel (r : SessionRow) : SessionRow :=
  { r with status := .cancelled, errorMessage := some "cap_hit_on_parent" }

theorem cancelChildren_rows (children : List SessionRow) (env : Outside) (w : World) :
    ((cancelChildren children).eval (exec env) w).2.sessions.rows =
      w.sessions.rows.map fun r => if r.id ∈ children.map (·.id) then r.cancel else r := by
  induction children generalizing w with
  | nil => exact (List.map_id' _).symm
  | cons child rest ih =>
    have hstop : ((terminateChild child).eval (exec env) w).2.sessions = w.sessions := by
      unfold terminateChild
      split <;> rfl
    unfold cancelChildren
    simp only [perform, bind_eq, eval_bind, eval_call, eval_ret]
    rw [ih, exec_update_sessions, hstop, Sessions.update_rows, List.map_map]
    refine List.map_congr_left fun r _ => ?_
    simp only [Function.comp, List.map_cons, List.mem_cons]
    by_cases hr : r.id = child.id
    · rw [if_pos hr, if_pos (Or.inl hr), Update.apply_id]
      -- cancelled a second time, a row is the same
      split <;> rfl
    · simp only [hr, if_false, false_or]

theorem cancelChildren_terminates {children : List SessionRow} {child : SessionRow} {x : String}
    (hc : child ∈ children) (hx : PyText.truthy child.devinSessionId = some x) (env : Outside)
    (w : World) :
    terminateCount x w.trace <
      terminateCount x ((cancelChildren children).eval (exec env) w).2.trace := by
  induction children generalizing w with
  | nil => cases hc
  | cons c rest ih =>
    unfold cancelChildren
    simp only [perform, bind_eq, eval_bind, eval_call, eval_ret]
    set w1 := ((terminateChild c).eval (exec env) w).2 with hw1
    set w2 := (exec env (.update c.id
      { status := some .cancelled, errorMessage := some "cap_hit_on_parent" }) w1).2 with hw2
    have h1 : terminateCount x w.trace ≤ terminateCount x w1.trace := terminateCount_eval env _ x w
    have h2 : terminateCount x w2.trace = terminateCount x w1.trace := by
      simp [hw2, terminateCount, Op.terminates]
    rcases List.mem_cons.1 hc with rfl | hc
    · -- it is its turn
      have hlt : terminateCount x w.trace < terminateCount x w1.trace := by
        rw [hw1]
        unfold terminateChild
        rw [hx]
        simp [perform, terminateCount, Op.terminates]
      have hrest := terminateCount_eval env (cancelChildren rest) x w2
      omega
    · have hrest := ih hc w2
      omega

/-! ## The escalation -/

/-- What the escalation does to the row that it is given. -/
def SessionRow.mark (r : SessionRow) (attempts : ℕ) : SessionRow :=
  { r with
    status := .needsAttention
    errorMessage := some s!"CI-fix exhausted after {attempts} attempts — needs human review" }

/-- The table once the row picked has been marked. -/
def Sessions.mark (parent : SessionRow) (attempts : ℕ) (s : Sessions) : Sessions :=
  s.update parent.id
    { status := some .needsAttention
      errorMessage := some s!"CI-fix exhausted after {attempts} attempts — needs human review" }

theorem mem_mark {parent r : SessionRow} {n : ℕ} {s : Sessions} :
    r ∈ (s.mark parent n).rows ↔
      (r ∈ s.rows ∧ r.id ≠ parent.id) ∨ ∃ q ∈ s.rows, q.id = parent.id ∧ r = q.mark n :=
  Sessions.mem_update

/-- Without a client the row picked stays marked, and that is all. -/
theorem escalateToHuman_raises {parent : SessionRow} (hne : parent.status ≠ .needsAttention)
    {exc : Exc} (hclient : env.getClient (w.clock + 1) = .error exc) (repo : String) (prNumber : ℤ)
    (n : ℕ) :
    ∃ w', (escalateToHuman parent repo prNumber n).eval (exec env) w = (.error exc, w') ∧
      w'.sessions = w.sessions.mark parent n := by
  unfold escalateToHuman
  rw [if_neg hne]
  simp only [perform, bind_eq, call_bind, ret_bind, eval_call]
  set w1 := (exec env (.update parent.id
    { status := some .needsAttention
      errorMessage := some s!"CI-fix exhausted after {n} attempts — needs human review" }) w).2
    with hw1
  have hans : (exec env .getClient w1).1 = .error exc := hclient
  rw [hans]
  exact ⟨_, rfl, rfl⟩

/-- With a client the children of the row picked are told to stop and cancelled. -/
theorem escalateToHuman_returns {parent : SessionRow} (hne : parent.status ≠ .needsAttention)
    (hclient : env.getClient (w.clock + 1) = .ok ()) (repo : String) (prNumber : ℤ) (n : ℕ) :
    let children := (w.sessions.mark parent n).findActiveChildren parent.devinSessionId
    ∃ w', (escalateToHuman parent repo prNumber n).eval (exec env) w = (.ok (), w') ∧
      w'.sessions.rows = (w.sessions.mark parent n).rows.map (fun r =>
        if r.id ∈ children.map (·.id) then r.cancel else r) ∧
      ∀ child ∈ children, ∀ x, PyText.truthy child.devinSessionId = some x →
        terminateCount x w.trace < terminateCount x w'.trace := by
  intro children
  unfold escalateToHuman
  rw [if_neg hne]
  simp only [perform, bind_eq, call_bind, ret_bind, eval_call]
  set w1 := (exec env (.update parent.id
    { status := some .needsAttention
      errorMessage := some s!"CI-fix exhausted after {n} attempts — needs human review" }) w).2
    with hw1
  have hans : (exec env .getClient w1).1 = .ok () := hclient
  rw [hans]
  simp only [eval_call]
  set w2 := (exec env (.findActiveChildren parent.devinSessionId) (exec env .getClient w1).2).2
    with hw2
  have hfound : (exec env (.findActiveChildren parent.devinSessionId)
      (exec env .getClient w1).2).1 = children := rfl
  rw [hfound, eval_bind]
  refine ⟨_, rfl, ?_, ?_⟩
  · exact cancelChildren_rows children env w2
  · intro child hc x hx
    have hlt := cancelChildren_terminates hc hx env w2
    have hsame : terminateCount x w2.trace = terminateCount x w.trace := by
      simp [hw2, hw1, terminateCount, Op.terminates]
    have hcomment : ∀ (op : Op) (w' : World), op.terminates = none →
        terminateCount x (exec env op w').2.trace = terminateCount x w'.trace := by
      intro op w' hop
      simp [terminateCount, hop]
    rw [hcomment _ _ rfl]
    omega

/-- A row after an escalation in which the rows `kids` have been cancelled. -/
def SessionRow.escalated (r parent : SessionRow) (n : ℕ) (kids : List ℕ) : SessionRow :=
  let marked := if r.id = parent.id then r.mark n else r
  if r.id ∈ kids then marked.cancel else marked

section Rows

variable {parent r : SessionRow} {n : ℕ} {kids : List ℕ} {s s' : Sessions}

@[simp] theorem escalated_id : (r.escalated parent n kids).id = r.id := by
  unfold SessionRow.escalated
  dsimp only
  split_ifs <;> rfl

@[simp] theorem escalated_isFixOf (prUrl : String) :
    isFixOf prUrl (r.escalated parent n kids) = isFixOf prUrl r := by
  unfold SessionRow.escalated
  dsimp only
  split_ifs <;> rfl

theorem escalated_status : (r.escalated parent n kids).status =
    if r.id ∈ kids then .cancelled else if r.id = parent.id then .needsAttention else r.status := by
  unfold SessionRow.escalated
  dsimp only
  split_ifs <;> rfl

theorem escalated_rows
    (hrows : s'.rows = (s.mark parent n).rows.map fun r => if r.id ∈ kids then r.cancel else r) :
    s'.rows = s.rows.map fun r => r.escalated parent n kids := by
  rw [hrows, Sessions.mark, Sessions.update_rows, List.map_map]
  refine List.map_congr_left fun r _ => ?_
  have hid : (if r.id = parent.id then r.mark n else r).id = r.id := by split <;> rfl
  have hmark : (if r.id = parent.id then Update.apply
      { status := some .needsAttention
        errorMessage := some s!"CI-fix exhausted after {n} attempts — needs human review" } r else r) =
      if r.id = parent.id then r.mark n else r := rfl
  simp only [Function.comp, hmark, hid]
  rfl

/-- Another row is among the children of the row picked exactly if it was before. -/
theorem mem_kids (hr : r ∈ s.rows) (hne : r.id ≠ parent.id) :
    r.id ∈ ((s.mark parent n).findActiveChildren parent.devinSessionId).map (·.id) ↔
      r ∈ s.findActiveChildren parent.devinSessionId := by
  constructor
  · intro hk
    obtain ⟨c, hc, hid⟩ := List.mem_map.1 hk
    obtain ⟨hmem, hlink⟩ := Sessions.mem_findActiveChildren.1 hc
    rcases mem_mark.1 hmem with ⟨hc', -⟩ | ⟨q, -, hq, rfl⟩
    · obtain rfl := s.eq_of_id hc' hr hid
      exact Sessions.mem_findActiveChildren.2 ⟨hr, hlink⟩
    · exact absurd (hid.symm.trans hq) hne
  · intro hk
    obtain ⟨-, hlink⟩ := Sessions.mem_findActiveChildren.1 hk
    exact List.mem_map.2
      ⟨r, Sessions.mem_findActiveChildren.2 ⟨mem_mark.2 (Or.inl ⟨hr, hne⟩), hlink⟩, rfl⟩

/-- A row that is nobody's child is not among its own. -/
theorem not_mem_kids (hp : parent ∈ s.rows) (hroot : parent.parentDevinSessionId = none) :
    parent.id ∉ ((s.mark parent n).findActiveChildren parent.devinSessionId).map (·.id) := by
  intro hk
  obtain ⟨c, hc, hid⟩ := List.mem_map.1 hk
  obtain ⟨hmem, hsome, hlink, -⟩ := Sessions.mem_findActiveChildren.1 hc
  rcases mem_mark.1 hmem with ⟨-, hne⟩ | ⟨q, hq, hqid, rfl⟩
  · exact hne hid
  · obtain rfl := s.eq_of_id hq hp hqid
    have hnone : q.devinSessionId = none := hlink.symm.trans hroot
    rw [hnone] at hsome
    cases hsome

end Rows

/-- What the handler does when it meets the cap. -/
theorem eval_meetsCap (hcap : MeetsCap env S w t) :
    let n := w.sessions.maxFixAttemptForParent t.parent.devinSessionId
    ∃ w0 : World, w0.sessions = w.sessions ∧ w0.clock = w.clock + 3 ∧
      (∀ x, terminateCount x w0.trace = terminateCount x w.trace) ∧
      (handleCiFailure S t.run).eval (exec env) w =
        ((escalateToHuman t.parent t.repo t.prNumber n).bind fun
          | .error exc => .ret (.error exc)
          | .ok () => .ret (.ok (.escalated s!"max_fix_attempts:{n}"))).eval (exec env) w0 := by
  obtain ⟨hevent, hrepo, hnumber, hfetched, hdevin, hparent, hterm, hn⟩ := hcap
  intro n
  set w1 := (exec env (.getPr t.repo t.prNumber) w).2 with hw1
  set w2 := (exec env (.findByPr t.prUrl) w1).2 with hw2
  refine ⟨(exec env (.maxFixAttemptForParent t.parent.devinSessionId) w2).2, rfl, rfl, ?_, ?_⟩
  · intro x
    simp [hw2, hw1, terminateCount, Op.terminates]
  have hcount : (exec env (.maxFixAttemptForParent t.parent.devinSessionId) w2).1 = n := rfl
  rw [eval_tracked ⟨hevent, hrepo, hnumber, hfetched, hdevin, hparent, hterm⟩, ← hw1, ← hw2]
  unfold fixOrEscalate
  simp only [perform, bind_eq, call_bind, ret_bind, eval_call, hcount]
  rw [if_pos hn]
  rfl

/-! ## Roots -/

/-- The row of an issue is nobody's child. -/
def IssuesAreRoots (s : Sessions) : Prop :=
  ∀ r ∈ s.rows, r.triggerType = .cveIssue → r.parentDevinSessionId = none

theorem issuesAreRoots_step {h : Hist} {op : Op} (hJ : IssuesAreRoots w.sessions)
    (hp : Permits S h op) : IssuesAreRoots (exec env op w).2.sessions := by
  intro r hr ht
  rcases mem_exec hr with ⟨hr, -⟩ | ⟨res, rfl, rfl, -⟩ | ⟨r', hr', u, rfl, rfl⟩
  · exact hJ r hr ht
  · cases hp with
    | quiet hop => cases hop
    | reserveIssue => rfl
    | reserveFix => cases ht
  · have hu : u.parentDevinSessionId = none := hp.update_status.2.1
    have hold := hJ r' hr' ht
    simp [Update.apply, hu, hold]

theorem issuesAreRoots (now : Time) (tasks : List Task) :
    IssuesAreRoots (runSerial env S (.initial now) tasks).sessions := by
  refine serial_inv (R := fun _ _ _ _ => True) (fun w => IssuesAreRoots w.sessions)
    (fun _ w => IssuesAreRoots w.sessions) (fun _ hI => hI) (fun _ _ hJ _ => hJ)
    (fun h w op hJ _ hp _ => issuesAreRoots_step hJ hp) tasks (fun r hr => by cases hr)
    (serialOK_true tasks)

/-! ## When the escalation is complete -/

/-- **With a client**: the escalation is complete exactly if the row picked is that of the issue
and has all active fix sessions on the PR for children. -/
theorem escalated_iff {w' : World} {prUrl : String} {parent : SessionRow} {n : ℕ}
    (hroots : IssuesAreRoots w.sessions) (hparent : w.sessions.findByPr prUrl = some parent)
    (hterm : parent.status.terminal = true)
    (hrows : w'.sessions.rows = w.sessions.rows.map fun r => r.escalated parent n
      (((w.sessions.mark parent n).findActiveChildren parent.devinSessionId).map (·.id)))
    (hstop : ∀ child ∈ (w.sessions.mark parent n).findActiveChildren parent.devinSessionId,
      ∀ x, PyText.truthy child.devinSessionId = some x →
        terminateCount x w.trace < terminateCount x w'.trace) :
    Escalated prUrl w w' ↔ parent.triggerType = .cveIssue ∧
      ∀ r ∈ activeFixes w.sessions prUrl,
        r ∈ w.sessions.findActiveChildren parent.devinSessionId := by
  obtain ⟨hpmem, hpurl⟩ := Sessions.mem_of_findByPr hparent
  set kids := ((w.sessions.mark parent n).findActiveChildren parent.devinSessionId).map (·.id)
    with hkids
  have hne : parent.status ≠ .needsAttention := by
    intro he
    rw [he] at hterm
    cases hterm
  -- the row of an issue is no fix session
  have hother : parent.triggerType = .cveIssue → ∀ r ∈ w.sessions.rows, isFixOf prUrl r = true →
      r.id ≠ parent.id := by
    intro hcve r hr hf hid
    obtain rfl := w.sessions.eq_of_id hr hpmem hid
    simp [isFixOf, hcve] at hf
  have hstatus : ∀ r ∈ w.sessions.rows, w'.sessions.statusOf r.id =
      some (r.escalated parent n kids).status := by
    intro r hr
    have hmem : r.escalated parent n kids ∈ w'.sessions.rows := by
      rw [hrows]
      exact List.mem_map.2 ⟨r, hr, rfl⟩
    rw [← statusOf_of_mem hmem, escalated_id]
  constructor
  · rintro ⟨hended, -, r, hr, hcve, -, hrne, hna⟩
    -- the only row that is set to `needs_attention` is the one picked
    rw [hstatus r hr, escalated_status, Option.some.injEq] at hna
    have hrp : r.id = parent.id := by
      split_ifs at hna with _ hid
      · exact hid
      · exact absurd hna hrne
    obtain rfl := w.sessions.eq_of_id hr hpmem hrp
    refine ⟨hcve, ?_⟩
    intro f hf
    obtain ⟨hfmem, hfix⟩ := List.mem_filter.1 hf
    simp only [Bool.and_eq_true] at hfix
    have hfne := hother hcve f hfmem hfix.1
    refine (mem_kids (n := n) hfmem hfne).1 ?_
    by_contra hno
    -- otherwise it would still be active
    have hmem : f.escalated r n kids ∈ activeFixes w'.sessions prUrl := by
      refine List.mem_filter.2 ⟨?_, ?_⟩
      · rw [hrows]
        exact List.mem_map.2 ⟨f, hfmem, rfl⟩
      · rw [escalated_isFixOf, escalated_status, if_neg hno, if_neg hfne]
        simp [hfix]
    rw [hended] at hmem
    cases hmem
  · rintro ⟨hcve, hall⟩
    refine ⟨?_, ?_, parent, hpmem, hcve, hpurl, hne, ?_⟩
    · refine List.filter_eq_nil_iff.2 ?_
      intro r' hr' hfix
      rw [hrows] at hr'
      obtain ⟨r, hr, rfl⟩ := List.mem_map.1 hr'
      rw [escalated_isFixOf, escalated_status, Bool.and_eq_true] at hfix
      obtain ⟨hf, hact⟩ := hfix
      have hrne := hother hcve r hr hf
      rw [if_neg hrne] at hact
      split_ifs at hact with hk
      · cases hact
      · exact hk ((mem_kids hr hrne).2 (hall r (List.mem_filter.2 ⟨hr, by simp [hf, hact]⟩)))
    · intro r hr x hx
      obtain ⟨hrmem, hfix⟩ := List.mem_filter.1 hr
      simp only [Bool.and_eq_true] at hfix
      have hrne := hother hcve r hrmem hfix.1
      obtain ⟨-, hlink⟩ := Sessions.mem_findActiveChildren.1 (hall r hr)
      exact hstop r (Sessions.mem_findActiveChildren.2
        ⟨mem_mark.2 (Or.inl ⟨hrmem, hrne⟩), hlink⟩) x hx
    · rw [hstatus parent hpmem, escalated_status, if_pos rfl,
        if_neg (not_mem_kids hpmem (hroots parent hpmem hcve))]

/-- **When an escalation is complete, or leaves no trace**, in every state that a serial run
reaches: there is a client, the row picked is that of the issue, and all active fix sessions
on the PR are its children. -/
theorem escalation_completes_iff (now : Time) (tasks : List Task)
    (hcap : MeetsCap env S (runSerial env S (.initial now) tasks) t) :
    let w := runSerial env S (.initial now) tasks
    CompletesOrNothing env S w t ↔
      (env.getClient (w.clock + 4)).isOk = true ∧ t.parent.triggerType = .cveIssue ∧
        ∀ r ∈ activeFixes w.sessions t.prUrl,
          r ∈ w.sessions.findActiveChildren t.parent.devinSessionId := by
  intro w
  have hroots : IssuesAreRoots w.sessions := issuesAreRoots now tasks
  obtain ⟨w0, hs0, hclock, hcount, heval⟩ := eval_meetsCap hcap
  obtain ⟨-, -, -, -, -, hparent, hterm, -⟩ := hcap
  have hne : t.parent.status ≠ .needsAttention := by
    intro he
    rw [he] at hterm
    cases hterm
  set n := w.sessions.maxFixAttemptForParent t.parent.devinSessionId with hn
  have hask : w0.clock + 1 = w.clock + 4 := congrArg (· + 1) hclock
  unfold CompletesOrNothing
  rw [heval, eval_bind]
  cases hclient : env.getClient (w.clock + 4) with
  | error exc =>
    rw [← hask] at hclient
    obtain ⟨w', hraise, hw'⟩ := escalateToHuman_raises (w := w0) hne hclient t.repo t.prNumber n
    rw [hraise]
    refine iff_of_false ?_ (fun h => by cases h.1)
    rintro (⟨why, hwhy, -⟩ | ⟨exc', -, hsame⟩)
    · cases hwhy
    · -- the mark of the row picked is a trace
      have hpmem := (Sessions.mem_of_findByPr hparent).1
      have hmarked : w'.sessions.statusOf t.parent.id = some .needsAttention := by
        rw [hw', hs0, Sessions.mark, statusOf_update, statusOf_of_mem hpmem]
        simp
      have hbefore := hsame t.parent.id
      rw [eval_ret, hmarked, statusOf_of_mem hpmem] at hbefore
      exact hne (Option.some.inj hbefore).symm
  | ok u =>
    cases u
    rw [← hask] at hclient
    obtain ⟨w', hret, hrows, hstop⟩ :=
      escalateToHuman_returns (w := w0) hne hclient t.repo t.prNumber n
    rw [hret]
    rw [hs0] at hrows hstop
    simp only [hcount] at hstop
    have hiff := escalated_iff hroots hparent hterm (escalated_rows hrows) hstop
    simp only [eval_ret, Except.isOk, Except.toBool, true_and]
    rw [← hiff]
    constructor
    · rintro (⟨why, -, he⟩ | ⟨exc, hexc, -⟩)
      · exact he
      · cases hexc
    · intro he
      exact Or.inl ⟨_, rfl, he⟩

namespace ClientLost

/-- The original session has ended with the PR, the fix session is at work. From the `n`-th
operation on there is no Devin client. -/
def outside (n : ℕ) : Outside :=
  { Outside.calm with
    getClient := fun k =>
      if k < n then .ok () else .error ⟨"ValueError", "DEVIN_ORG_ID should start with 'org-'"⟩
    getSession := fun _ sessionId =>
      if sessionId = "devin-4" then .ok .exited else .ok { status := some "running" } }

def settings : Settings := { maxFixAttempts := 1 }

/-- An issue and its session's end, and a CI failure, which gets the one fix session allowed. -/
def oneFix : List Task := [.securityIssue (.sample 1), .poll, .ciFailure (.sample 100)]

/-- The state in which the second CI failure comes. -/
def world (n : ℕ) : World := runSerial (outside n) settings (.initial 0) oneFix

def target (n : ℕ) : FixTarget where
  run := .sample 101
  repo := "o/r"
  prNumber := 7
  prUrl := "https://github.com/o/r/pull/7"
  headRef := "devin/cve-1"
  parent := ((world n).sessions.findByPr "https://github.com/o/r/pull/7").getD MergeSeen.row

/-- What the guards read, and what a count of the attempts finds. -/
theorem meetsCap {n : ℕ} (h : ((world n).sessions.findByPr "https://github.com/o/r/pull/7").isSome ∧
    (target n).parent.status.terminal = true ∧
    1 ≤ (world n).sessions.maxFixAttemptForParent (target n).parent.devinSessionId) :
    MeetsCap (outside n) settings (world n) (target n) := by
  obtain ⟨hsome, hterm, hcount⟩ := h
  obtain ⟨p, hp⟩ := Option.isSome_iff_exists.1 hsome
  have hparent : (target n).parent = p := by rw [target, hp]; rfl
  have hdevin : PyText.startsWith "devin/cve-1" "devin/" = true := by decide
  exact ⟨rfl, rfl, rfl, ⟨_, rfl, rfl, rfl⟩, hdevin, hparent ▸ hp, hterm, hcount⟩

theorem escalation_with_client :
    MeetsCap (outside 100) settings (world 100) (target 100) ∧
      CompletesOrNothing (outside 100) settings (world 100) (target 100) := by
  have hfacts : (((world 100).sessions.findByPr "https://github.com/o/r/pull/7").isSome ∧
      (target 100).parent.status.terminal = true ∧
      1 ≤ (world 100).sessions.maxFixAttemptForParent (target 100).parent.devinSessionId) ∧
      ((outside 100).getClient ((world 100).clock + 4)).isOk = true ∧
      (target 100).parent.triggerType = .cveIssue ∧
      (target 100).parent.devinSessionId.isSome = true ∧
      ∀ r ∈ activeFixes (world 100).sessions "https://github.com/o/r/pull/7",
        r.parentDevinSessionId = (target 100).parent.devinSessionId := by decide +kernel
  obtain ⟨hcap, hclient, hcve, hsome, hlinks⟩ := hfacts
  refine ⟨meetsCap hcap, (escalation_completes_iff 0 oneFix (meetsCap hcap)).2 ⟨hclient, hcve, ?_⟩⟩
  intro r hr
  obtain ⟨hmem, hfix⟩ := List.mem_filter.1 hr
  rw [Bool.and_eq_true] at hfix
  exact Sessions.mem_findActiveChildren.2 ⟨hmem, hsome, hlinks r hr, hfix.2⟩

/-- **Without a client the mark stays**: the handler raises, and the row is not as it was. The
next CI failure is skipped, because its parent is no longer terminal. -/
theorem mark_stays_without_client :
    MeetsCap (outside 24) settings (world 24) (target 24) ∧
      ¬CompletesOrNothing (outside 24) settings (world 24) (target 24) := by
  have hfacts : (((world 24).sessions.findByPr "https://github.com/o/r/pull/7").isSome ∧
      (target 24).parent.status.terminal = true ∧
      1 ≤ (world 24).sessions.maxFixAttemptForParent (target 24).parent.devinSessionId) ∧
      let r := (handleCiFailure settings (target 24).run).eval (exec (outside 24)) (world 24)
      r.1.isOk = false ∧ r.2.sessions.statusOf 1 ≠ (world 24).sessions.statusOf 1 := by
    decide +kernel
  obtain ⟨hcap, hraises, hmark⟩ := hfacts
  refine ⟨meetsCap hcap, ?_⟩
  rintro (⟨why, hwhy, -⟩ | ⟨exc, -, hsame⟩)
  · rw [hwhy] at hraises
    cases hraises
  · exact hmark (hsame 1)

end ClientLost

end Remediation
