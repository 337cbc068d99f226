import Remediation.Proof.Reached

/-!
# Two ticks in a row

Where nothing is queued, every session is given the same answer, and no session times out, a
second tick changes nothing but the dates of the polls (`tick_idempotent`). The reason is that
what is written back settles a row: the row is terminal then, or another write of the same
answer leaves it as it is (`writeVerdict_again`). And since a row that ends the tick stays
where it is, the second tick comes to no row that the first one has not come to.
-/

namespace Remediation

open Interaction Prog

/-- A row but for the date of its last poll. -/
def SessionRow.undated (r : SessionRow) : SessionRow := { r with lastPolledAt := none }

/-- No session that the tick asks about has reached the inactivity limit. -/
def WithinLimit (env : Outside) (S : Settings) (w : World) : Prop :=
  ∀ r w₀ x data i, TickReaches env S w r w₀ → PyText.truthy r.devinSessionId = some x →
    (exec env (.getSession x) w₀).1 = .ok data →
    ((fromApiResponse data).status = .pending ∨ (fromApiResponse data).status = .running) →
    inactivityAt r (fromApiResponse data) (readAt env w₀ x) = .ok i →
    i ≤ (S.sessionTimeoutSeconds : ℤ) * 1000000

variable {env : Outside} {S : Settings} {w w₀ : World} {r : SessionRow} {x : String}
  {data : ApiSession} {remote : SessionDetails} {resp : String → Except Exc ApiSession}

/-! ## What is written back settles the row -/

/-- An answer in time that can be dated is written back. -/
theorem verdict_of_within {t : Time} (hd : remote.undatable = false)
    (hlimit : (remote.status = .pending ∨ remote.status = .running) → ∀ i,
      inactivityAt r remote t = .ok i → i ≤ (S.sessionTimeoutSeconds : ℤ) * 1000000) :
    verdict S r remote t = writeVerdict r remote := by
  by_cases hin : InTime S r remote t
  · exact hin.verdict_eq
  exfalso
  refine hin fun hw => ?_
  cases hi : inactivityAt r remote t with
  | ok i => exact ⟨i, rfl, hlimit hw i hi⟩
  | error exc =>
    -- it could not be dated
    have habort : verdict S r remote t = .abort exc := by
      unfold verdict
      rw [if_pos hw, hi]
    have haborts := aborts_verdict S r remote t
    rw [habort, hd] at haborts
    cases haborts

theorem pollUpdate_again (r : SessionRow) (remote : SessionDetails) (t t' : Time) :
    ((pollUpdate remote t').apply ((pollUpdate remote t).apply r)).undated =
      ((pollUpdate remote t).apply r).undated := by
  have hor : ∀ {α : Type} (a b : Option α), a.or (a.or b) = a.or b := by
    intro α a b
    cases a <;> rfl
  simp [SessionRow.undated, Update.apply, pollUpdate, hor]

/-- **To write an answer back twice is to write it back once**, for a row that is still active. -/
theorem writeVerdict_again {r₁ : SessionRow} {polledAt t : Time} (ha : r.status.active = true)
    (h₁ : r₁ = (writeVerdict r remote).row r remote polledAt t) (ha₁ : r₁.status.active = true) :
    (writeVerdict r₁ remote).stops = false ∧ ∀ polledAt' t',
      ((writeVerdict r₁ remote).row r₁ remote polledAt' t').undated = r₁.undated := by
  have hterm : r.status.terminal = false := by rw [Status.terminal_eq, ha]; rfl
  have hterm₁ : r₁.status.terminal = false := by rw [Status.terminal_eq, ha₁]; rfl
  unfold writeVerdict at h₁
  split at h₁
  · -- no difference, and there is none still
    rename_i hd
    have hsame : r₁.differs remote = false := by rw [h₁]; exact hd
    rw [writeVerdict, if_pos hsame]
    exact ⟨rfl, fun _ _ => rfl⟩
  split at h₁
  · -- merged: completed
    rw [h₁] at ha₁
    cases ha₁
  split at h₁
  · -- closed: cancelled
    rw [h₁] at ha₁
    cases ha₁
  split at h₁
  · -- ended: what Devin says is terminal
    rename_i hend
    have hst : r₁.status = remote.status := by rw [h₁]; rfl
    rw [hst, hend.1] at hterm₁
    cases hterm₁
  · rename_i hmerged hclosed _
    have hrow : r₁ = (pollUpdate remote polledAt).apply r := h₁
    have hst : r₁.status = remote.status := by rw [hrow]; rfl
    have hm : ¬(remote.prState = some "merged" ∧ r₁.status.terminal = false) :=
      fun h => hmerged ⟨h.1, hterm⟩
    have hc : ¬(remote.prState = some "closed" ∧ r₁.status.terminal = false) :=
      fun h => hclosed ⟨h.1, hterm⟩
    have he : ¬(remote.status.terminal = true ∧ r₁.completedAt = none) := by
      rintro ⟨h, -⟩
      rw [← hst, hterm₁] at h
      cases h
    rw [writeVerdict, if_neg hm, if_neg hc, if_neg he]
    split
    · exact ⟨rfl, fun _ _ => rfl⟩
    · refine ⟨rfl, fun polledAt' t' => ?_⟩
      rw [hrow]
      exact pollUpdate_again r remote polledAt polledAt'

/-! ## Nothing in the queue -/

/-- Draining an empty queue does nothing. -/
theorem eval_drainQueue_empty (env : Outside) (S : Settings) (hqueue : w.events.queued = []) :
    ((drainQueue S).eval (exec env) w).2.sessions = w.sessions ∧
      ((drainQueue S).eval (exec env) w).2.events = w.events ∧
      ∀ y, terminateCount y ((drainQueue S).eval (exec env) w).2.trace =
        terminateCount y w.trace := by
  by_cases hfull : S.maxConcurrentSessions ≤ w.sessions.countActive
  · rw [eval_drainQueue_full env hfull]
    exact ⟨rfl, rfl, terminateCount_skip rfl⟩
  · have hnone : (exec env (.listQueued (S.maxConcurrentSessions - w.sessions.countActive))
        (exec env .countActive w).2).1 = [] := by
      change w.events.queued.take _ = []
      rw [hqueue, List.take_nil]
    rw [eval_drainQueue_room env (not_le.1 hfull), hnone]
    exact ⟨rfl, rfl, fun y => (terminateCount_skip rfl y).trans (terminateCount_skip rfl y)⟩

/-- The rows keep their keys and their order. -/
theorem ids_of_touches {α : Type} (env : Outside) (w : World) {p : M α} {ids : List ℕ}
    {Q : Hist → α → Prop} {h : Hist} (hp : p.Keeps (touches ids) Q h) :
    (p.eval (exec env) w).2.sessions.rows.map (·.id) = w.sessions.rows.map (·.id) := by
  have hstep : ∀ (h' : Hist) (w' : World) (op : Op),
      w'.sessions.rows.map (·.id) = w.sessions.rows.map (·.id) → (touches ids).pre h' op → True →
      (exec env op w').2.sessions.rows.map (·.id) = w.sessions.rows.map (·.id) := by
    intro h' w' op hJ hpre _
    cases hop : op.writes with
    | false => rw [exec_sessions hop, hJ]
    | true =>
      obtain ⟨pk, -, u, rfl⟩ := hpre hop
      exact (Table.map_update _ _ pk u.apply fun _ => rfl).trans hJ
  obtain ⟨-, hJ, -⟩ := eval_inv (R := fun _ _ _ _ => True)
    (J := fun _ w' => w'.sessions.rows.map (·.id) = w.sessions.rows.map (·.id))
    (fun _ _ _ _ _ => trivial) hstep p hp rfl (along_true p w)
  exact hJ

theorem eval_silent_pollRows (env : Outside) (S : Settings) (rows : List SessionRow)
    (summary : Summary) (w : World) :
    ((pollRows S rows summary).eval (exec env) w).2.events = w.events := by
  refine (eval_silent (Q := fun _ => True) (p := pollRows S rows summary) ?_ env w).1
  refine (polling_pollRows (fun r hr => List.mem_map.2 ⟨r, hr, rfl⟩) summary).weaken
    (fun _ op hop => ?_) fun _ _ _ _ => trivial
  rcases hop with ⟨-, hlog⟩ | ⟨pk, -, u, rfl⟩
  · exact hlog
  · rfl

/-- A tick leaves the log, the keys of the rows and their order as they are. -/
theorem frame_pollOnce (env : Outside) (S : Settings) (hqueue : w.events.queued = []) :
    ((pollOnce S).eval (exec env) w).2.events = w.events ∧
      ((pollOnce S).eval (exec env) w).2.sessions.rows.map (·.id) = w.sessions.rows.map (·.id) := by
  obtain ⟨hsessions, hevents, -⟩ := eval_drainQueue_empty env S hqueue
  rw [eval_pollOnce]
  set drained := (drainQueue S).eval (exec env) w
  split
  · exact ⟨hevents, congrArg (fun t : Sessions => t.rows.map (·.id)) hsessions⟩
  · refine ⟨(eval_silent_pollRows env S _ _ _).trans hevents, ?_⟩
    rw [ids_of_touches env _ (touches_pollRows (h := []) _ _)]
    exact congrArg (fun t : Sessions => t.rows.map (·.id)) hsessions

/-- A tick tells a session to stop only if a verdict says so. -/
theorem terminateCount_pollRows (rows : List SessionRow) (summary : Summary)
    (hno : ∀ pre r post w₀ summary' x data, rows = pre ++ r :: post →
      (pollRows S pre summary).eval (exec env) w = (.ok summary', w₀) →
      PyText.truthy r.devinSessionId = some x → (exec env (.getSession x) w₀).1 = .ok data →
      (verdict S r (fromApiResponse data) (readAt env w₀ x)).stops = false) (y : String) :
    terminateCount y ((pollRows S rows summary).eval (exec env) w).2.trace =
      terminateCount y w.trace := by
  induction rows using List.reverseRecOn with
  | nil => rfl
  | append_singleton rows r ih =>
    have hrows := ih fun pre q post w₀ summary' x data hsplit =>
      hno pre q (post ++ [r]) w₀ summary' x data (by rw [hsplit]; simp)
    rw [pollRows_append, eval_bind]
    cases hres : ((pollRows S rows summary).eval (exec env) w).1 with
    | error exc => exact hrows
    | ok summary' =>
      set w₀ := ((pollRows S rows summary).eval (exec env) w).2 with hw₀
      have hafter : terminateCount y ((pollRow S summary' r).eval (exec env) w₀).2.trace =
          terminateCount y w₀.trace := by
        by_cases hans : ∃ x data, PyText.truthy r.devinSessionId = some x ∧
            (exec env (.getSession x) w₀).1 = .ok data
        · obtain ⟨x, data, hx, hget⟩ := hans
          have hstop := (eval_pollRow (S := S) hx hget summary').1.stopped y
          rw [hno rows r [] w₀ summary' x data rfl (Prod.ext hres rfl) hx hget] at hstop
          simpa using hstop
        · refine (eval_pollRow_skip (fun x hx => ?_) summary').2.1 y
          cases hget : (exec env (.getSession x) w₀).1 with
          | error exc => exact ⟨exc, rfl⟩
          | ok data => exact absurd ⟨x, data, hx, hget⟩ hans
      rw [← hrows, ← hafter]
      simp only [pollRows, bind_eq, eval_bind]
      split
      · rfl
      · rfl

/-! ## The second tick -/

@[simp] theorem Verdict.row_devinSessionId (v : Verdict) (r : SessionRow) (remote : SessionDetails)
    (polledAt t : Time) : (v.row r remote polledAt t).devinSessionId = r.devinSessionId := by
  cases v <;> rfl

section Twice

variable {w₁ : World}

/-- What a tick within the limit leaves of a row: the row itself, or what is written back, if the
tick comes to it. -/
theorem row_pollOnce (hqueue : w.events.queued = [])
    (hlimit : WithinLimit (env.answering resp) S w)
    (hr : w.sessions.get r.id = some r) :
    ∃ r₁, ((pollOnce S).eval (exec (env.answering resp)) w).2.sessions.get r.id = some r₁ ∧
      (r₁ = r ∨ (∃ w₀, TickReaches (env.answering resp) S w r w₀) ∧ r.breaks resp = false ∧
        ∃ remote polledAt t, r₁ = (writeVerdict r remote).row r remote polledAt t) := by
  set E := env.answering resp
  have hdrained : ((drainQueue S).eval (exec E) w).2.sessions.get r.id = some r := by
    rw [(eval_drainQueue_empty E S hqueue).1]
    exact hr
  by_cases hans : ∃ x data w₀, TickReaches E S w r w₀ ∧ PyText.truthy r.devinSessionId = some x ∧
      resp x = .ok data
  · obtain ⟨x, data, w₀, hreach, hx, hget⟩ := hans
    obtain ⟨⟨polledAt, t, -, -, hrow⟩, -⟩ := hreach.acts hx hget
    refine ⟨_, hrow, ?_⟩
    have hbreaks : r.breaks resp = (fromApiResponse data).undatable := by
      unfold SessionRow.breaks
      rw [hx]
      simp only [hget]
    cases hd : (fromApiResponse data).undatable with
    | true =>
      -- the tick ends at the row
      left
      have haborts := aborts_verdict S r (fromApiResponse data) (readAt E w₀ x)
      rw [hd] at haborts
      cases hv : verdict S r (fromApiResponse data) (readAt E w₀ x) with
      | abort exc => rfl
      | _ => rw [hv] at haborts; cases haborts
    | false =>
      refine Or.inr ⟨⟨w₀, hreach⟩, hbreaks.trans hd, fromApiResponse data, polledAt, t, ?_⟩
      rw [verdict_of_within hd fun hw i hi =>
        hlimit r w₀ x data i hreach hx hget hw hi]
  · refine ⟨r, get_of_unanswered hdrained fun x data w₀ hreach hx hget => ?_, Or.inl rfl⟩
    exact hans ⟨x, data, w₀, hreach, hx, hget⟩

/-- **The second tick comes to no row that the first one has not come to.** -/
theorem served_of_served {r₁ : SessionRow} (hqueue : w.events.queued = [])
    (hlimit : WithinLimit (env.answering resp) S w) (hr : w.sessions.get r.id = some r)
    (hw₁ : w₁ = ((pollOnce S).eval (exec (env.answering resp)) w).2)
    (hr₁ : w₁.sessions.get r.id = some r₁)
    (h : Served resp w₁.sessions.listNonTerminal r₁) : Served resp w.sessions.listNonTerminal r := by
  obtain ⟨q, hq, hcases⟩ := row_pollOnce hqueue hlimit hr
  rw [← hw₁, hr₁] at hq
  cases hq
  rcases hcases with rfl | ⟨⟨w₀, hreach⟩, -, -⟩
  · -- it is as it was, and so is a row that ends the tick
    obtain ⟨⟨-, hact⟩, hbefore⟩ := served_iff.1 h
    refine served_iff.2 ⟨⟨(w.sessions.get_eq_some.1 hr).1, hact⟩, ?_⟩
    intro s hs hacts hpolled hne
    obtain ⟨s₁, hs₁, hcases⟩ := row_pollOnce hqueue hlimit (w.sessions.get_eq_some.2 ⟨hs, rfl⟩)
    rw [← hw₁] at hs₁
    rcases hcases with rfl | ⟨-, hbreaks, -⟩
    · exact hbefore s₁ (w₁.sessions.get_eq_some.1 hs₁).1 hacts hpolled hne
    · exact hbreaks
  · obtain ⟨-, hserved⟩ := tickReaches_iff.1 ⟨w₀, hreach⟩
    rw [(eval_drainQueue_empty env S hqueue).1] at hserved
    exact hserved

/-- What the first tick has written back of an answer, the second one does not change. -/
theorem verdict_again {r₁ : SessionRow} (hqueue : w.events.queued = [])
    (hclient : ∀ n m, env.getClient n = env.getClient m)
    (hlimit : WithinLimit (env.answering resp) S w)
    (hw₁ : w₁ = ((pollOnce S).eval (exec (env.answering resp)) w).2)
    (hlimit₁ : WithinLimit (env.answering resp) S w₁)
    (hreach : TickReaches (env.answering resp) S w₁ r₁ w₀)
    (hx : PyText.truthy r₁.devinSessionId = some x) (hget : resp x = .ok data) :
    let v := verdict S r₁ (fromApiResponse data) (readAt (env.answering resp) w₀ x)
    v.stops = false ∧
      ∀ polledAt t, (v.row r₁ (fromApiResponse data) polledAt t).undated = r₁.undated := by
  intro v
  cases hd : (fromApiResponse data).undatable with
  | true =>
    -- nothing is done about it
    have haborts : v.aborts = true := (aborts_verdict S r₁ _ _).trans hd
    cases hv : v with
    | abort exc => exact ⟨rfl, fun _ _ => rfl⟩
    | _ => rw [hv] at haborts; cases haborts
  | false =>
    obtain ⟨hevents, hids⟩ := frame_pollOnce (env.answering resp) S hqueue
    rw [← hw₁] at hevents hids
    have hqueue₁ : w₁.events.queued = [] := by rw [hevents, hqueue]
    obtain ⟨hr₁, hact₁⟩ := hreach.listed
    rw [(eval_drainQueue_empty _ S hqueue₁).1] at hr₁
    -- the row before the first tick
    obtain ⟨r, hmem, hid⟩ : ∃ r ∈ w.sessions.rows, r.id = r₁.id := by
      have hin : r₁.id ∈ w₁.sessions.rows.map (·.id) :=
        List.mem_map.2 ⟨r₁, (w₁.sessions.get_eq_some.1 hr₁).1, rfl⟩
      rw [hids] at hin
      exact List.mem_map.1 hin
    have hr : w.sessions.get r.id = some r := w.sessions.get_eq_some.2 ⟨hmem, rfl⟩
    rw [← hid] at hr₁
    have hsession : r.devinSessionId = r₁.devinSessionId := by
      obtain ⟨s, hs, hcases⟩ := row_pollOnce hqueue hlimit hr
      rw [← hw₁, hr₁] at hs
      cases hs
      rcases hcases with he | ⟨-, -, remote, polledAt, t, he⟩
      · rw [he]
      · rw [he, Verdict.row_devinSessionId]
    -- the first tick has come to it as well
    obtain ⟨w', hreach'⟩ : ∃ w', TickReaches (env.answering resp) S w r w' := by
      obtain ⟨hok, hserved⟩ := tickReaches_iff.1 ⟨w₀, hreach⟩
      have hdrained : ∀ {w : World}, w.events.queued = [] →
          ((drainQueue S).eval (exec env) w).2.sessions = w.sessions :=
        fun hq => (eval_drainQueue_empty env S hq).1
      rw [hdrained hqueue₁] at hserved
      refine tickReaches_iff.2 ⟨(hclient _ _).trans hok, ?_⟩
      rw [hdrained hqueue]
      exact served_of_served hqueue hlimit hr hw₁ hr₁ hserved
    have hx' : PyText.truthy r.devinSessionId = some x := by rw [hsession, hx]
    obtain ⟨⟨polledAt, t, -, -, hrow⟩, -⟩ := hreach'.acts hx' hget
    rw [← hw₁, hr₁] at hrow
    rw [verdict_of_within hd fun hw i hi => hlimit r w' x data i hreach' hx' hget hw hi] at hrow
    have hv : v = writeVerdict r₁ (fromApiResponse data) :=
      verdict_of_within hd fun hw i hi => hlimit₁ r₁ w₀ x data i hreach hx hget hw hi
    rw [hv]
    exact writeVerdict_again hreach'.listed.2 (Option.some.inj hrow) hact₁

end Twice

/-- **A tick is idempotent.** With nothing queued, with the same answers in both ticks, and
within the inactivity limit, a second tick leaves the table as the first one has left it, but
for the dates of the polls, and tells no session to stop. -/
theorem tick_idempotent (env : Outside) (S : Settings) (resp : String → Except Exc ApiSession)
    (w : World) (hqueue : w.events.queued = [])
    (hclient : ∀ n m, env.getClient n = env.getClient m)
    (hlimit : WithinLimit (env.answering resp) S w)
    (hlimit₁ : WithinLimit (env.answering resp) S
      ((pollOnce S).eval (exec (env.answering resp)) w).2) :
    let w₁ := ((pollOnce S).eval (exec (env.answering resp)) w).2
    let w₂ := ((pollOnce S).eval (exec (env.answering resp)) w₁).2
    w₂.sessions.rows.map (·.undated) = w₁.sessions.rows.map (·.undated) ∧
      ∀ y, terminateCount y w₂.trace = terminateCount y w₁.trace := by
  intro w₁ w₂
  have hqueue₁ : w₁.events.queued = [] := by rw [(frame_pollOnce _ S hqueue).1, hqueue]
  obtain ⟨hsessions, -, hdrain⟩ := eval_drainQueue_empty (env.answering resp) S hqueue₁
  constructor
  · rw [Table.rows_of_ids (frame_pollOnce _ S hqueue₁).2, List.map_map]
    refine List.map_congr_left fun r₁ hmem => ?_
    have hr₁ : w₁.sessions.get r₁.id = some r₁ := w₁.sessions.get_eq_some.2 ⟨hmem, rfl⟩
    change ((w₂.sessions.get r₁.id).getD r₁).undated = r₁.undated
    by_cases hans : ∃ x data w₀, TickReaches (env.answering resp) S w₁ r₁ w₀ ∧
        PyText.truthy r₁.devinSessionId = some x ∧ resp x = .ok data
    · obtain ⟨x, data, w₀, hreach, hx, hget⟩ := hans
      obtain ⟨⟨polledAt, t, -, -, hrow⟩, -⟩ := hreach.acts hx hget
      rw [hrow]
      exact (verdict_again hqueue hclient hlimit rfl hlimit₁ hreach hx hget).2 polledAt t
    · rw [get_of_unanswered (hsessions ▸ hr₁) fun x data w₀ hreach hx hget =>
        hans ⟨x, data, w₀, hreach, hx, hget⟩]
      rfl
  · intro y
    change terminateCount y ((pollOnce S).eval (exec (env.answering resp)) w₁).2.trace = _
    rw [eval_pollOnce]
    set drained := (drainQueue S).eval (exec (env.answering resp)) w₁
    set connected := exec (env.answering resp) .getClient drained.2
    have hconnected : terminateCount y connected.2.trace = terminateCount y w₁.trace :=
      (terminateCount_skip rfl y).trans (hdrain y)
    cases hok : connected.1 with
    | error exc => exact hconnected
    | ok _ =>
      simp only
      rw [terminateCount_pollRows]
      · exact (terminateCount_skip rfl y).trans hconnected
      · intro pre r post w₀ summary' x data hsplit hpre hx hget
        exact (verdict_again hqueue hclient hlimit rfl hlimit₁
          ⟨hok, pre, post, summary', hsplit, hpre⟩ hx hget).1

namespace MergedOnce

open TwoAtWork

/-- Both sessions are at work, and have been a second ago; the pull request of the first one is
merged, and that of the second one is open. -/
def answers (x : String) : Except Exc ApiSession :=
  .ok
    { status := some "running"
      updatedAt := .num 1
      pullRequests := [⟨some "https://github.com/o/r/pull/7",
        some (if x = "devin-1" then "merged" else "open")⟩] }

theorem withinLimit {w : World} (hnow : w.now = 2000000) :
    WithinLimit (outside.answering answers) {} w := by
  intro r w₀ x data i hreach _ hget _ hi
  cases hget
  have htime : fromTimestamp (.num 1) = some 1000000 := by decide +kernel
  have htrue : (RawTime.num 1).truthy = true := by decide
  rw [hreach.readAt_eq (fun _ => rfl) x, hnow] at hi
  simp only [inactivityAt, fromApiResponse, htrue, if_true, htime, Except.ok.injEq] at hi
  rw [← hi]
  decide

theorem second_tick_changes_nothing :
    let w₁ := ((pollOnce {}).eval (exec (outside.answering answers)) world).2
    let w₂ := ((pollOnce {}).eval (exec (outside.answering answers)) w₁).2
    w₁.sessions.statusOf 1 = some .completed ∧
      w₂.sessions.rows.map (·.undated) = w₁.sessions.rows.map (·.undated) ∧
      ∀ y, terminateCount y w₂.trace = terminateCount y w₁.trace :=
  ⟨by decide +kernel, tick_idempotent outside {} answers world rfl (fun _ _ => rfl)
    (withinLimit rfl) (withinLimit (by decide +kernel))⟩

end MergedOnce

end Remediation
