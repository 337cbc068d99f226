import Remediation.Proof.Verdict

/-!
# The row as a mirror of Devin

After a tick has been answered about a session, its row should show the answer: the raw
status, the ACUs, the pull requests with their states, and the structured output. It does
exactly if the tick comes to write the answer back, or the row shows it already
(`mirrors_iff`). The comparison that decides about the write looks at the first URL only, so
a pull request that is added, or changes its state, is not seen (`second_pr_is_missed`).
-/

namespace Remediation

open Interaction Prog

/-- The row shows what Devin has answered. -/
structure SessionRow.Mirrors (r : SessionRow) (remote : SessionDetails) : Prop where
  rawStatus : r.rawStatus = some remote.rawStatus
  acusConsumed : r.acusConsumed = remote.acusConsumed
  prUrl : remote.pullRequests ≠ [] → r.prUrl = remote.firstPrUrl
  prUrlsJson : remote.pullRequests ≠ [] →
    r.prUrlsJson = some (remote.pullRequests.map fun p => (p.prUrl, p.prState))
  structuredOutputJson : ∀ so, remote.structuredOutput = some so → r.structuredOutputJson = some so

/-- The columns that it is about. -/
def SessionRow.shown (r : SessionRow) :
    Option String × ℚ × Option String × Option (List (String × Option String)) × Option String :=
  (r.rawStatus, r.acusConsumed, r.prUrl, r.prUrlsJson, r.structuredOutputJson)

variable {env : Outside} {S : Settings} {w w₀ : World} {r r' : SessionRow} {x : String}
  {data : ApiSession} {remote : SessionDetails}

theorem mirrors_congr (h : r.shown = r'.shown) : r.Mirrors remote ↔ r'.Mirrors remote := by
  simp only [SessionRow.shown, Prod.mk.injEq] at h
  obtain ⟨h1, h2, h3, h4, h5⟩ := h
  constructor
  · rintro ⟨m1, m2, m3, m4, m5⟩
    exact ⟨h1 ▸ m1, h2 ▸ m2, h3 ▸ m3, h4 ▸ m4, h5 ▸ m5⟩
  · rintro ⟨m1, m2, m3, m4, m5⟩
    exact ⟨h1 ▸ m1, h2 ▸ m2, h3 ▸ m3, h4 ▸ m4, h5 ▸ m5⟩

/-- What is written back shows the answer, but for an empty structured output, which counts as
none. -/
theorem mirrors_pollUpdate (t : Time) : ((pollUpdate remote t).apply r).Mirrors remote ↔
    (remote.structuredOutput = some "{}" → r.structuredOutputJson = some "{}") := by
  constructor
  · rintro ⟨-, -, -, -, hso⟩ hempty
    have hnone : remote.structuredOutputJson = none := by
      simp [SessionDetails.structuredOutputJson, hempty]
    have := hso "{}" hempty
    simpa [Update.apply, pollUpdate, hnone] using this
  · intro hempty
    refine ⟨rfl, rfl, fun hpr => ?_, fun hpr => ?_, fun so hso => ?_⟩
    · obtain ⟨p, ps, hps⟩ := List.exists_cons_of_ne_nil hpr
      simp [Update.apply, pollUpdate, SessionDetails.firstPrUrl, hps]
    · simp [Update.apply, pollUpdate, hpr]
    · by_cases he : so = "{}"
      · subst he
        have hnone : remote.structuredOutputJson = none := by
          simp [SessionDetails.structuredOutputJson, hso]
        simp [Update.apply, pollUpdate, hnone, hempty hso]
      · simp [Update.apply, pollUpdate, SessionDetails.structuredOutputJson, hso, he]

/-- The columns after a write that changes something, whatever its other effects are. -/
theorem shown_writeVerdict (hd : r.differs remote = true) (polledAt t : Time) :
    ((writeVerdict r remote).row r remote polledAt t).shown =
      ((pollUpdate remote polledAt).apply r).shown := by
  unfold writeVerdict
  rw [if_neg (by simp [hd])]
  split_ifs <;> rfl

/-- **When the row mirrors Devin.** For a tick that comes to an active row and gets an answer
about its session: the row shows the answer afterwards exactly if it has shown it before, or
the tick gets past the timeout, the comparison sees a difference, and an empty structured
output is no news. -/
theorem mirrors_iff (hreach : TickReaches env S w r w₀)
    (hx : PyText.truthy r.devinSessionId = some x)
    (hget : (exec env (.getSession x) w₀).1 = .ok data) :
    let w' := ((pollOnce S).eval (exec env) w).2
    let remote := fromApiResponse data
    (∃ r', w'.sessions.get r.id = some r' ∧ r'.Mirrors remote) ↔
      r.Mirrors remote ∨ InTime S r remote (readAt env w₀ x) ∧ r.differs remote = true ∧
        (remote.structuredOutput = some "{}" → r.structuredOutputJson = some "{}") := by
  intro w' remote
  obtain ⟨⟨polledAt, t, -, -, hrow⟩, -⟩ := hreach.acts hx hget
  change w'.sessions.get r.id = some ((verdict S r remote (readAt env w₀ x)).row r remote _ _) at hrow
  -- the row afterwards is the one that the verdict leaves
  have hafter : (∃ r', w'.sessions.get r.id = some r' ∧ r'.Mirrors remote) ↔
      ((verdict S r remote (readAt env w₀ x)).row r remote polledAt t).Mirrors remote := by
    rw [hrow]
    simp only [Option.some.injEq, exists_eq_left']
  rw [hafter]
  by_cases hin : InTime S r remote (readAt env w₀ x)
  · rw [hin.verdict_eq]
    cases hd : r.differs remote with
    | true =>
      rw [mirrors_congr (shown_writeVerdict hd polledAt t), mirrors_pollUpdate]
      refine ⟨fun h => Or.inr ⟨hin, rfl, h⟩, ?_⟩
      rintro (h | ⟨-, -, h⟩)
      · exact fun he => h.structuredOutputJson _ he
      · exact h
    | false =>
      have hv : writeVerdict r remote = .same := by simp [writeVerdict, hd]
      have hsame : (Verdict.same.row r remote polledAt t).shown = r.shown := rfl
      rw [hv, mirrors_congr hsame]
      simp
  · have hsame : ((verdict S r remote (readAt env w₀ x)).row r remote polledAt t).shown =
        r.shown := by
      rcases verdict_late hin with ⟨exc, hv⟩ | ⟨i, hv⟩ <;> rw [hv] <;> rfl
    rw [mirrors_congr hsame]
    simp [hin]

namespace SecondPr

/-- A session at work on an open pull request, as the last tick has left it. -/
def row : SessionRow where
  id := 1
  workKey := "issue:o/r:1:devin-security"
  devinSessionId := some "devin-4"
  triggerType := .cveIssue
  triggerRef := "https://github.com/o/r/issues/1"
  status := .running
  rawStatus := some "running"
  prUrl := some "https://github.com/o/r/pull/7"
  prUrlsJson := some [("https://github.com/o/r/pull/7", some "open")]
  startedAt := 0

def world : World where
  sessions := ⟨[row], 2, by decide, by decide, by decide⟩
  events := .empty
  now := 0

/-- The session has opened a second pull request, and has used some ACUs. -/
def report (acus : ℚ) : ApiSession where
  status := some "running"
  acusConsumed := some acus
  pullRequests := [⟨some "https://github.com/o/r/pull/7", some "open"⟩,
    ⟨some "https://github.com/o/r/pull/8", some "open"⟩]

def outside (acus : ℚ) : Outside :=
  { Outside.calm with getSession := fun _ _ => .ok (report acus) }

/-- The state in which the tick comes to the row. -/
def reached (acus : ℚ) : World :=
  let drained := (drainQueue {}).eval (exec (outside acus)) world
  (exec (outside acus) .listNonTerminal (exec (outside acus) .getClient drained.2).2).2

theorem tickReaches (acus : ℚ) : TickReaches (outside acus) {} world row (reached acus) :=
  ⟨rfl, [], [], _, rfl, rfl⟩

theorem mirrored_with_new_acus :
    ∃ r', ((pollOnce {}).eval (exec (outside 1)) world).2.sessions.get 1 = some r' ∧
      r'.Mirrors (fromApiResponse (report 1)) :=
  (mirrors_iff (tickReaches 1) rfl rfl).2
    (Or.inr ⟨fun _ => ⟨_, rfl, by decide +kernel⟩, by decide +kernel, fun he => by cases he⟩)

/-- **A second pull request is missed** where nothing else has changed. -/
theorem second_pr_is_missed :
    TickReaches (outside 0) {} world row (reached 0) ∧
      PyText.truthy row.devinSessionId = some "devin-4" ∧
      (exec (outside 0) (.getSession "devin-4") (reached 0)).1 = .ok (report 0) ∧
      ¬∃ r', ((pollOnce {}).eval (exec (outside 0)) world).2.sessions.get 1 = some r' ∧
        r'.Mirrors (fromApiResponse (report 0)) := by
  refine ⟨tickReaches 0, rfl, rfl, ?_⟩
  rintro ⟨r', hr', hm⟩
  have hstored : (((pollOnce {}).eval (exec (outside 0)) world).2.sessions.get 1).map
      (·.prUrlsJson) = some row.prUrlsJson := by decide +kernel
  rw [hr'] at hstored
  have hold : r'.prUrlsJson = row.prUrlsJson := Option.some.inj hstored
  have hnew := hm.prUrlsJson (by decide)
  rw [hold] at hnew
  exact absurd hnew (by decide)

end SecondPr

end Remediation
