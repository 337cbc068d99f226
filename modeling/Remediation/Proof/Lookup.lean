import Remediation.Proof.Dispatch
import Remediation.Proof.Reached
import Remediation.Proof.Mirror

/-!
# Looking a pull request up

The CI handler looks a pull request up in `pr_url`, a single column, while Devin may report
several pull requests of a session. Here is what one poll does to the lookup: each pull request
in the last answer about each session is found afterwards, exactly if the poll keeps track
(`attributable_pollRow_iff`). Nothing but a poll matters (`along_unpolled`).
-/

namespace Remediation

open Interaction Prog PyText

/-! ## Processed answers -/

/-- The answer that the poller is processing: nothing has been written since. -/
def beingProcessed : Hist → Option (String × ApiSession)
  | ⟨.getSession x, .ok data⟩ :: _ => some (x, data)
  | ⟨.terminateSession _, _⟩ :: h => beingProcessed h
  | ⟨.now, _⟩ :: h => beingProcessed h
  | _ => none

/-- The last answer about a session that the poller has processed: it has written to the row. -/
def lastProcessed (x : String) : Hist → Option ApiSession
  | [] => none
  | ⟨.update _ u, _⟩ :: h =>
    if u.lastPolledAt.isSome then
      match beingProcessed h with
      | some (y, data) => if y = x then some data else lastProcessed x h
      | none => lastProcessed x h
    else lastProcessed x h
  | _ :: h => lastProcessed x h

/-- The URLs in an answer. -/
def ApiSession.prUrls (data : ApiSession) : List String :=
  (fromApiResponse data).pullRequests.map (·.prUrl)

/-- Every PR in the last answer about a session is found. -/
def Attributable (w : World) : Prop :=
  ∀ x data, lastProcessed x w.trace = some data → ∀ u ∈ data.prUrls,
    (w.sessions.findByPr u).isSome = true

/-- Another row than `r` has the URL. -/
def SessionRow.ElsewhereAs (r : SessionRow) (t : Sessions) (u : String) : Prop :=
  ∃ s ∈ t.rows, s.id ≠ r.id ∧ s.prUrl = some u

/-- The poll of a row leaves every PR attributable. Its answer may not be readable, and is not
processed then. Else, each PR in it is the first one, and the session does not time out, or the
row or another one has it already; and if the first one replaces the URL in the row, that
URL is not needed for another session, or is in another row. -/
def KeepsTrack (env : Outside) (S : Settings) (r : SessionRow) (w : World) : Prop :=
  ∀ x data, truthy r.devinSessionId = some x →
    (exec env (.getSession x) w).1 = .ok data →
    let remote := fromApiResponse data
    let inTime := InTime S r remote (readAt env w x)
    remote.undatable = false →
      (∀ u ∈ data.prUrls, (inTime ∧ remote.firstPrUrl = some u) ∨ (¬inTime ∧ r.prUrl = some u) ∨
        r.ElsewhereAs w.sessions u) ∧
      (∀ u v, inTime → r.prUrl = some u → remote.firstPrUrl = some v → u ≠ v →
        ∀ y data', y ≠ x → lastProcessed y w.trace = some data' → u ∈ data'.prUrls →
          r.ElsewhereAs w.sessions u)

variable {env : Outside} {S : Settings} {w w₀ : World} {r : SessionRow} {x : String}
  {data : ApiSession} {remote : SessionDetails} {h : Hist}

/-! ## The lookup -/

theorem findByPr_isSome {t : Sessions} {u : String} :
    (t.findByPr u).isSome = true ↔ ∃ s ∈ t.rows, s.prUrl = some u := by
  constructor
  · intro hsome
    obtain ⟨s, hs⟩ := Option.isSome_iff_exists.1 hsome
    exact ⟨s, Sessions.mem_of_findByPr hs⟩
  · rintro ⟨s, hs, hu⟩
    unfold Sessions.findByPr
    rw [List.getLast?_isSome]
    refine List.ne_nil_of_mem (a := s) (mem_orderByStarted.2 (List.mem_filter.2 ⟨hs, ?_⟩))
    exact decide_eq_true hu

/-! ## What is not a poll -/

/-- Only an UPDATE makes an answer a processed one. -/
theorem lastProcessed_skip {op : Op} (hop : op.updates = none) (x : String) (w : World) :
    lastProcessed x (exec env op w).2.trace = lastProcessed x w.trace := by
  rw [exec_trace]
  cases op with
  | update pk u => cases hop
  | _ => rfl

/-- Nothing is lost as long as no URL is, and no further answer is processed. -/
theorem Attributable.mono {w' : World} (hP : Attributable w)
    (hanswers : ∀ x, lastProcessed x w'.trace = lastProcessed x w.trace)
    (hrows : ∀ s ∈ w.sessions.rows, ∃ s' ∈ w'.sessions.rows, s'.prUrl = s.prUrl) :
    Attributable w' := by
  intro x data hlast u hu
  rw [hanswers] at hlast
  obtain ⟨s, hs, hsu⟩ := findByPr_isSome.1 (hP x data hlast u hu)
  obtain ⟨s', hs', he⟩ := hrows s hs
  exact findByPr_isSome.2 ⟨s', hs', he.trans hsu⟩

theorem attributable_skip (env : Outside) {op : Op} (hw : op.writes = false) (hP : Attributable w) :
    Attributable (exec env op w).2 := by
  refine hP.mono (fun x => lastProcessed_skip ?_ x w) fun s hs => ⟨s, ?_, rfl⟩
  · cases op with
    | update pk u => cases hw
    | _ => rfl
  · rw [exec_sessions hw]
    exact hs

theorem attributable_unpolled {op : Op} (hop : op.unpolled = true) (hP : Attributable w) :
    Attributable (exec env op w).2 := by
  rcases op.write_cases with hw | ⟨res, rfl⟩ | ⟨pk, u, rfl⟩
  · exact attributable_skip env hw hP
  · exact hP.mono (fun x => lastProcessed_skip rfl x w) fun s hs => ⟨s, mem_tryReserve res hs, rfl⟩
  · have hnone : (u.lastPolledAt.isNone && u.prUrl.isNone) = true := hop
    simp only [Bool.and_eq_true, Option.isNone_iff_eq_none] at hnone
    refine hP.mono (fun x => ?_) fun s hs => ?_
    · simp [lastProcessed, hnone.1]
    · by_cases hid : s.id = pk
      · refine ⟨u.apply s, Sessions.mem_update.2 (Or.inr ⟨s, hs, hid, rfl⟩), ?_⟩
        simp [Update.apply, hnone.2]
      · exact ⟨s, Sessions.mem_update.2 (Or.inl ⟨hs, hid⟩), rfl⟩

/-- Whoever is not the poller keeps every PR attributable throughout. -/
theorem along_unpolled {α : Type} {Q : Hist → α → Prop} {p : M α} (hp : p.Keeps unpolled Q h)
    (env : Outside) (hP : Attributable w) :
    p.Along (exec env) (fun _ w _ _ => Attributable w) h w ∧
      Attributable (p.eval (exec env) w).2 := by
  have hstep : ∀ (h' : Hist) (w' : World) (op : Op), Attributable w' → unpolled.pre h' op → True →
      Attributable (exec env op w').2 := fun _ _ _ hJ hop _ => attributable_unpolled hop hJ
  constructor
  · exact along_inv (R := fun _ _ _ _ => True) (J := fun _ => Attributable)
      (fun _ _ _ _ _ => trivial) hstep p hp hP (along_true p w)
  · obtain ⟨-, hJ, -⟩ := eval_inv (R := fun _ _ _ _ => True) (J := fun _ => Attributable)
      (fun _ _ _ _ _ => trivial) hstep p hp hP (along_true p w)
    exact hJ

/-! ## One poll -/

section Poll

variable {α : Type}

theorem along_call {op : Op} {k : Ans op → M α} (hw : op.writes = false) (hP : Attributable w)
    (hk : ∀ a, Attributable (exec env op w).2 →
      (k a).Along (exec env) (fun _ w _ _ => Attributable w) (⟨op, a⟩ :: h) (exec env op w).2) :
    (Prog.call op k).Along (exec env) (fun _ w _ _ => Attributable w) h w :=
  ⟨hP, hk _ (attributable_skip env hw hP)⟩

theorem along_writeBack (hP : Attributable w) (summary : Summary) :
    (writeBack summary r x remote).Along (exec env) (fun _ w _ _ => Attributable w) h w := by
  unfold writeBack
  simp only [perform, bind_eq, call_bind, ret_bind]
  refine along_call rfl hP fun t hP => ?_
  split
  · exact ⟨hP, trivial⟩
  split
  · exact along_call rfl hP fun _ hP => along_call rfl hP fun _ hP => ⟨hP, trivial⟩
  split
  · exact along_call rfl hP fun _ hP => ⟨hP, trivial⟩
  split
  · exact along_call rfl hP fun _ hP => ⟨hP, trivial⟩
  · exact ⟨hP, trivial⟩

theorem along_timeOutOrWriteBack (hP : Attributable w) (summary : Summary) (inactive : ℤ) :
    (timeOutOrWriteBack S summary r x remote inactive).Along (exec env)
      (fun _ w _ _ => Attributable w) h w := by
  unfold timeOutOrWriteBack
  split
  · exact along_call rfl hP fun _ hP => along_call rfl hP fun _ hP => along_call rfl hP fun _ hP =>
      ⟨hP, trivial⟩
  · exact along_writeBack hP summary

/-- Up to its end a poll changes nothing that matters. -/
theorem along_pollRow (env : Outside) (S : Settings) (r : SessionRow) (hP : Attributable w)
    (summary : Summary) :
    (pollRow S summary r).Along (exec env) (fun _ w _ _ => Attributable w) h w := by
  unfold pollRow
  split
  · trivial
  simp only [perform, bind_eq, call_bind, ret_bind]
  refine along_call rfl hP fun answer hP => ?_
  cases answer with
  | error exc => trivial
  | ok data =>
    dsimp only
    unfold processAnswer
    split
    · simp only [perform, bind_eq, call_bind, ret_bind]
      refine along_call rfl hP fun t hP => ?_
      split
      · trivial
      · exact (along_bind _ _ _ [] _).2 ⟨along_timeOutOrWriteBack hP _ _, trivial⟩
    · exact (along_bind _ _ _ [] _).2 ⟨along_writeBack hP _, trivial⟩

/-- The answer `data` about `x` is being processed; `v` is the last processed one about `y`. -/
structure Processing (x : String) (data : ApiSession) (y : String) (v : Option ApiSession)
    (w : World) : Prop where
  current : beingProcessed w.trace = some (x, data)
  last : lastProcessed y w.trace = v

namespace Processing

variable {y : String} {v : Option ApiSession}

theorem now (h : Processing x data y v w) : Processing x data y v (exec env .now w).2 :=
  ⟨h.current, h.last⟩

theorem terminateSession (h : Processing x data y v w) (z : String) :
    Processing x data y v (exec env (.terminateSession z) w).2 :=
  ⟨h.current, h.last⟩

/-- The write of a poll makes its answer the last one processed. -/
theorem update (h : Processing x data y v w) (pk : ℕ) {u : Update}
    (hu : u.lastPolledAt.isSome = true) :
    lastProcessed y (exec env (.update pk u) w).2.trace = if x = y then some data else v := by
  rw [exec_trace, lastProcessed, if_pos hu, h.current, h.last]

theorem writeBack (h : Processing x data y v w) (summary : Summary) :
    lastProcessed y ((writeBack summary r x remote).eval (exec env) w).2.trace =
      if x = y then some data else v := by
  unfold Remediation.writeBack
  simp only [perform, bind_eq, call_bind, ret_bind, eval_call]
  split
  · exact h.now.update r.id rfl
  split
  · simp only [eval_call, pure_eq, eval_ret]
    exact ((h.now.terminateSession x).now).update r.id rfl
  split
  · simp only [eval_call, pure_eq, eval_ret]
    exact h.now.now.update r.id rfl
  split
  · simp only [eval_call, pure_eq, eval_ret]
    exact h.now.now.update r.id rfl
  · exact h.now.update r.id rfl

theorem timeOut (h : Processing x data y v w) (inactive : ℤ) :
    lastProcessed y ((timeOut r x inactive).eval (exec env) w).2.trace =
      if x = y then some data else v := by
  unfold Remediation.timeOut
  simp only [perform, bind_eq, call_bind, ret_bind, eval_call, eval_ret]
  exact ((h.terminateSession x).now.now).update r.id rfl

theorem processAnswer (h : Processing x data y v w) (summary : Summary) :
    lastProcessed y ((processAnswer S summary r x remote).eval (exec env) w).2.trace =
      if x = y ∧ remote.undatable = false then some data else v := by
  have haborts := aborts_verdict S r remote (exec env .now w).1
  unfold verdict at haborts
  unfold Remediation.processAnswer
  split at haborts
  · rename_i hst
    rw [if_pos hst]
    simp only [perform, bind_eq, call_bind, ret_bind, eval_call]
    cases hi : inactivityAt r remote (exec env .now w).1 with
    | error exc =>
      rw [hi] at haborts
      have hd : remote.undatable = true := haborts.symm
      rw [hd, if_neg (by simp)]
      exact h.now.last
    | ok inactive =>
      rw [hi] at haborts
      have hd : remote.undatable = false := by
        rw [← haborts]
        dsimp only
        split
        · rfl
        · exact aborts_writeVerdict r remote
      simp only [hd, and_true, eval_bind]
      unfold timeOutOrWriteBack
      split
      · rw [bind_eq, eval_bind]
        exact h.now.timeOut inactive
      · exact h.now.writeBack summary
  · rename_i hst
    have hd : remote.undatable = false := by
      rw [← haborts]
      exact aborts_writeVerdict r remote
    rw [if_neg hst]
    simp only [hd, and_true, bind_eq, eval_bind]
    exact h.writeBack summary

end Processing

/-- **What a poll processes.** -/
theorem lastProcessed_pollRow (hx : truthy r.devinSessionId = some x)
    (hget : (exec env (.getSession x) w).1 = .ok data) (summary : Summary) (y : String) :
    lastProcessed y ((pollRow S summary r).eval (exec env) w).2.trace =
      if x = y ∧ (fromApiResponse data).undatable = false then some data
      else lastProcessed y w.trace := by
  have hasked : Processing x data y (lastProcessed y w.trace) (exec env (.getSession x) w).2 := by
    refine ⟨?_, lastProcessed_skip rfl y w⟩
    rw [exec_trace, hget]
    rfl
  unfold pollRow
  rw [hx]
  simp only [perform, bind_eq, call_bind, ret_bind, eval_call]
  rw [hget]
  exact hasked.processAnswer _

/-- The URL in the row after a poll. -/
theorem prUrl_verdict (S : Settings) (r : SessionRow) (remote : SessionDetails)
    (t polledAt t' : Time) :
    (InTime S r remote t ∧
      ((verdict S r remote t).row r remote polledAt t').prUrl = remote.firstPrUrl.or r.prUrl) ∨
    (¬InTime S r remote t ∧ ((verdict S r remote t).row r remote polledAt t').prUrl = r.prUrl) := by
  by_cases hin : InTime S r remote t
  · refine Or.inl ⟨hin, ?_⟩
    rw [hin.verdict_eq]
    cases hdiff : r.differs remote with
    | true =>
      have hshown := shown_writeVerdict hdiff polledAt t'
      simp only [SessionRow.shown, Prod.mk.injEq] at hshown
      exact hshown.2.2.1
    | false =>
      -- no difference: it is there already
      have hsame : remote.firstPrUrl = r.prUrl := by
        simp only [SessionRow.differs, Bool.or_eq_false_iff, decide_eq_false_iff_not,
          not_not] at hdiff
        exact hdiff.1.1.2
      have hv : writeVerdict r remote = .same := by simp [writeVerdict, hdiff]
      rw [hv, hsame, Option.or_self]
      rfl
  · refine Or.inr ⟨hin, ?_⟩
    rcases verdict_late hin with ⟨exc, hv⟩ | ⟨i, hv⟩ <;> rw [hv] <;> rfl

/-- A poll without an answer processes none. -/
theorem lastProcessed_pollRow_skip
    (hskip : ∀ x, truthy r.devinSessionId = some x →
      ∃ exc, (exec env (.getSession x) w).1 = .error exc) (summary : Summary) (y : String) :
    lastProcessed y ((pollRow S summary r).eval (exec env) w).2.trace =
      lastProcessed y w.trace := by
  unfold pollRow
  cases hx : truthy r.devinSessionId with
  | none => rfl
  | some x =>
    obtain ⟨exc, hexc⟩ := hskip x hx
    simp only [perform, bind_eq, call_bind, ret_bind, eval_call]
    rw [hexc]
    exact lastProcessed_skip rfl y w

/-- The rows that a verdict leaves: the others, and the one that it is about. -/
theorem Verdict.mem_write {t : Sessions} (hr : t.get r.id = some r) (v : Verdict)
    (polledAt t' : Time) {s : SessionRow} :
    s ∈ (v.write r.id remote polledAt t' t).rows ↔
      (s ∈ t.rows ∧ s.id ≠ r.id) ∨ s = v.row r remote polledAt t' := by
  have hmem := (t.get_eq_some.1 hr).1
  unfold write row
  cases v.update remote polledAt t' with
  | none =>
    constructor
    · intro hs
      by_cases hid : s.id = r.id
      · exact Or.inr (t.eq_of_id hs hmem hid)
      · exact Or.inl ⟨hs, hid⟩
    · rintro (⟨hs, -⟩ | rfl)
      · exact hs
      · exact hmem
  | some u =>
    refine Sessions.mem_update.trans (or_congr_right ⟨?_, ?_⟩)
    · rintro ⟨s', hs', hid, rfl⟩
      rw [t.eq_of_id hs' hmem hid]
    · rintro rfl
      exact ⟨r, hmem, rfl, rfl⟩

/-- A poll without an answer loses nothing. -/
theorem attributable_pollRow_skip (hP : Attributable w)
    (hskip : ∀ x, truthy r.devinSessionId = some x →
      ∃ exc, (exec env (.getSession x) w).1 = .error exc) (summary : Summary) :
    Attributable ((pollRow S summary r).eval (exec env) w).2 := by
  refine hP.mono (lastProcessed_pollRow_skip hskip summary) fun s hs => ⟨s, ?_, rfl⟩
  rw [(eval_pollRow_skip hskip summary).1]
  exact hs

/-- The lookup after a poll that has got an answer: the URLs of the other rows, and the one that
the poll leaves in its row. -/
theorem findByPr_pollRow (hr : w.sessions.get r.id = some r)
    (hx : truthy r.devinSessionId = some x)
    (hget : (exec env (.getSession x) w).1 = .ok data) (summary : Summary) :
    ∃ polledAt t, ∀ u,
      (((pollRow S summary r).eval (exec env) w).2.sessions.findByPr u).isSome = true ↔
        r.ElsewhereAs w.sessions u ∨
          ((verdict S r (fromApiResponse data) (readAt env w x)).row r (fromApiResponse data)
            polledAt t).prUrl = some u := by
  obtain ⟨⟨⟨polledAt, t, -, -, hrows⟩, -⟩, -⟩ := eval_pollRow (S := S) hx hget summary
  refine ⟨polledAt, t, fun u => ?_⟩
  rw [findByPr_isSome, hrows]
  constructor
  · rintro ⟨s, hs, hu⟩
    rcases (Verdict.mem_write hr _ polledAt t).1 hs with ⟨hs, hne⟩ | rfl
    · exact Or.inl ⟨s, hs, hne, hu⟩
    · exact Or.inr hu
  · rintro (⟨s, hs, hne, hu⟩ | hu)
    · exact ⟨s, (Verdict.mem_write hr _ polledAt t).2 (Or.inl ⟨hs, hne⟩), hu⟩
    · exact ⟨_, (Verdict.mem_write hr _ polledAt t).2 (Or.inr rfl), hu⟩

/-- What is found now is found after the poll, if it is not the URL in the row. -/
theorem elsewhere_or_row (hr : w.sessions.get r.id = some r) {u : String}
    (hu : (w.sessions.findByPr u).isSome = true) :
    r.ElsewhereAs w.sessions u ∨ r.prUrl = some u := by
  obtain ⟨s, hs, hsu⟩ := findByPr_isSome.1 hu
  by_cases hid : s.id = r.id
  · obtain rfl := w.sessions.eq_of_id hs (w.sessions.get_eq_some.1 hr).1 hid
    exact Or.inr hsu
  · exact Or.inl ⟨s, hs, hid, hsu⟩

/-- An answer that cannot be processed loses nothing. -/
theorem attributable_pollRow_undatable (hP : Attributable w) (hr : w.sessions.get r.id = some r)
    (hx : truthy r.devinSessionId = some x)
    (hget : (exec env (.getSession x) w).1 = .ok data)
    (hd : (fromApiResponse data).undatable = true) (summary : Summary) :
    Attributable ((pollRow S summary r).eval (exec env) w).2 := by
  obtain ⟨polledAt, t, hfound⟩ := findByPr_pollRow (S := S) hr hx hget summary
  -- the row is left as it is
  have hsame : ((verdict S r (fromApiResponse data) (readAt env w x)).row r (fromApiResponse data)
      polledAt t).prUrl = r.prUrl := by
    have haborts := aborts_verdict S r (fromApiResponse data) (readAt env w x)
    rw [hd] at haborts
    cases hv : verdict S r (fromApiResponse data) (readAt env w x) with
    | abort exc => rfl
    | _ => rw [hv] at haborts; cases haborts
  intro y data' hlast u hu
  rw [lastProcessed_pollRow hx hget, hd, if_neg (by simp)] at hlast
  rw [hfound, hsame]
  exact elsewhere_or_row hr (hP y data' hlast u hu)

/-- After a processed answer, each PR in it is found only if a row had it or it is the first. -/
theorem keepsTrack_of_attributable (hr : w.sessions.get r.id = some r) {summary : Summary}
    (hP' : Attributable ((pollRow S summary r).eval (exec env) w).2) : KeepsTrack env S r w := by
  intro x data hx hget remote inTime hd
  obtain ⟨polledAt, t, hfound⟩ := findByPr_pollRow (S := S) hr hx hget summary
  have hlast := lastProcessed_pollRow (S := S) hx hget summary
  have hrow := prUrl_verdict S r remote (readAt env w x) polledAt t
  constructor
  · intro u hu
    have hu' := (hfound u).1 (hP' x data (by rw [hlast, if_pos ⟨rfl, hd⟩]) u hu)
    rcases hu' with helse | hu'
    · exact Or.inr (Or.inr helse)
    rcases hrow with ⟨hin, he⟩ | ⟨hlate, he⟩
    · -- it is the first one, as there is one
      obtain ⟨p, ps, hps⟩ : ∃ p ps, remote.pullRequests = p :: ps := by
        refine List.exists_cons_of_ne_nil fun hnil => ?_
        rw [ApiSession.prUrls, hnil] at hu
        cases hu
      have hfirst : remote.firstPrUrl = some p.prUrl := by simp [SessionDetails.firstPrUrl, hps]
      rw [he, hfirst, Option.some_or] at hu'
      exact Or.inl ⟨hin, hfirst.trans hu'⟩
    · exact Or.inr (Or.inl ⟨hlate, he ▸ hu'⟩)
  · intro u v hin hru hfirst hne y data' hy hlast' hu
    have hu' := (hfound u).1 (hP' y data' (by rw [hlast, if_neg fun h => hy h.1.symm, hlast']) u hu)
    rcases hu' with helse | hu'
    · exact helse
    · rcases hrow with ⟨-, he⟩ | ⟨hlate, -⟩
      · rw [he, hfirst, Option.some_or] at hu'
        exact absurd (Option.some.inj hu').symm hne
      · exact absurd hin hlate

theorem attributable_of_keepsTrack (hP : Attributable w) (hr : w.sessions.get r.id = some r)
    (hx : truthy r.devinSessionId = some x)
    (hget : (exec env (.getSession x) w).1 = .ok data)
    (hd : (fromApiResponse data).undatable = false) (hkeep : KeepsTrack env S r w)
    (summary : Summary) : Attributable ((pollRow S summary r).eval (exec env) w).2 := by
  obtain ⟨hnew, hold⟩ := hkeep x data hx hget hd
  obtain ⟨polledAt, t, hfound⟩ := findByPr_pollRow (S := S) hr hx hget summary
  have hrow := prUrl_verdict S r (fromApiResponse data) (readAt env w x) polledAt t
  intro y data' hlast u hu
  rw [hfound]
  rw [lastProcessed_pollRow hx hget] at hlast
  by_cases hy : x = y
  · -- a PR in the new answer
    rw [if_pos ⟨hy, hd⟩] at hlast
    cases hlast
    rcases hnew u hu with ⟨hin, hfirst⟩ | ⟨hlate, hru⟩ | helse
    · rcases hrow with ⟨-, he⟩ | ⟨hlate, -⟩
      · exact Or.inr (by rw [he, hfirst, Option.some_or])
      · exact absurd hin hlate
    · rcases hrow with ⟨hin, -⟩ | ⟨-, he⟩
      · exact absurd hin hlate
      · exact Or.inr (he.trans hru)
    · exact Or.inl helse
  · -- a PR in an earlier answer about another session
    rw [if_neg fun h => hy h.1] at hlast
    rcases elsewhere_or_row hr (hP y data' hlast u hu) with helse | hru
    · exact Or.inl helse
    rcases hrow with ⟨hin, he⟩ | ⟨-, he⟩
    · cases hfirst : (fromApiResponse data).firstPrUrl with
      | none => exact Or.inr (by rw [he, hfirst, Option.none_or, hru])
      | some v =>
        by_cases huv : u = v
        · exact Or.inr (by rw [he, hfirst, Option.some_or, huv])
        · exact Or.inl (hold u v hin hru hfirst huv y data' (Ne.symm hy) hlast hu)
    · exact Or.inr (he.trans hru)

/-- **What a poll does to the lookup.** -/
theorem attributable_pollRow_iff (env : Outside) (S : Settings) (hP : Attributable w)
    (hr : w.sessions.get r.id = some r) (summary : Summary) :
    Attributable ((pollRow S summary r).eval (exec env) w).2 ↔ KeepsTrack env S r w := by
  refine ⟨fun hP' => keepsTrack_of_attributable hr hP', fun hkeep => ?_⟩
  by_cases hans : ∃ x data, truthy r.devinSessionId = some x ∧
      (exec env (.getSession x) w).1 = .ok data
  · obtain ⟨x, data, hx, hget⟩ := hans
    cases hd : (fromApiResponse data).undatable with
    | true => exact attributable_pollRow_undatable hP hr hx hget hd summary
    | false => exact attributable_of_keepsTrack hP hr hx hget hd hkeep summary
  · refine attributable_pollRow_skip hP (fun x hx => ?_) summary
    cases hget : (exec env (.getSession x) w).1 with
    | error exc => exact ⟨exc, rfl⟩
    | ok data => exact absurd ⟨x, data, hx, hget⟩ hans

end Poll

end Remediation
