import Remediation.Lib.Block
import Remediation.Spec.Client

/-!
# Sessions that are over

Terminating a session that is over already is to be no error. `terminate_session` looks for a word
in the text of the `RuntimeError` that the transport raises when all attempts are used up. That
text has the session's id in it, and what the last attempt that failed with an `httpx.HTTPError`
has raised (`lastError`); the answer of Devin is not in it.
-/

namespace Remediation

open PyText Block

variable {β : Type} {T : DevinTransport} {method path : String} {outcome : ℕ → HttpOutcome β}

/-! ## What the loop raises -/

/-- What an attempt leaves in `last_exc`. -/
def HttpOutcome.caught (T : DevinTransport) : HttpOutcome β → Option Exc
  | transportError exc => some exc
  | response resp =>
    if resp.statusCode = 429 ∨ (500 ≤ resp.statusCode ∧ resp.statusCode < 600) then none
    else some (T.statusError resp.statusCode)

/-- The last error that the attempts from `attempt` on leave there. -/
def lastError (T : DevinTransport) (outcome : ℕ → HttpOutcome β) (left attempt : ℕ) : Option Exc :=
  ((List.range' attempt left).filterMap fun i => (outcome i).caught T).getLast?

theorem lastError_succ (left attempt : ℕ) (lastExc : Option Exc) :
    (lastError T outcome (left + 1) attempt).or lastExc =
      (lastError T outcome left (attempt + 1)).or (((outcome attempt).caught T).or lastExc) := by
  have hsplit : (List.range' attempt (left + 1)).filterMap (fun i => (outcome i).caught T) =
      ((outcome attempt).caught T).toList ++
        (List.range' (attempt + 1) left).filterMap fun i => (outcome i).caught T := by
    rw [List.range'_succ, List.filterMap_cons]
    cases (outcome attempt).caught T <;> rfl
  rw [lastError, hsplit, List.getLast?_append, Option.or_assoc, lastError]
  cases (outcome attempt).caught T <;> rfl

theorem retried_iff {attempt : ℕ} {o : HttpOutcome β} :
    o.retried attempt = true ↔ o.success = none ∧ o.wait attempt = .ok () := by
  rw [HttpOutcome.retried, Bool.and_eq_true, Option.isNone_iff_eq_none]
  refine and_congr_right fun _ => ?_
  cases o.wait attempt with
  | error exc => exact iff_of_false Bool.false_ne_true nofun
  | ok u => exact iff_of_true rfl rfl

theorem requestLoop_retried (left : ℕ) {attempt : ℕ} (lastExc : Option Exc)
    (h : (outcome attempt).retried attempt = true) :
    T.requestLoop method path outcome (left + 1) attempt lastExc =
      T.requestLoop method path outcome left (attempt + 1)
        (((outcome attempt).caught T).or lastExc) := by
  obtain ⟨hno, hwait⟩ := retried_iff.1 h
  rw [DevinTransport.requestLoop]
  cases ho : outcome attempt with
  | transportError exc =>
    rw [ho] at hwait
    change sleep (2 ^ attempt) = .ok () at hwait
    rw [hwait]
    rfl
  | response resp =>
    rw [ho] at hno hwait
    rw [HttpOutcome.wait] at hwait
    simp only [HttpOutcome.caught]
    by_cases h429 : resp.statusCode = 429
    · rw [if_pos h429] at hwait
      rw [if_pos h429, if_pos (Or.inl h429), hwait]
      rfl
    rw [if_neg h429] at hwait
    rw [if_neg h429, hwait]
    by_cases h5xx : 500 ≤ resp.statusCode ∧ resp.statusCode < 600
    · rw [if_pos h5xx, if_pos (Or.inr h5xx)]
      rfl
    have h2xx : ¬(200 ≤ resp.statusCode ∧ resp.statusCode < 300) := by
      intro h2xx
      rw [HttpOutcome.success, if_pos h2xx] at hno
      cases hno
    rw [if_neg h5xx, if_neg h2xx, if_neg (not_or.2 ⟨h429, h5xx⟩)]
    rfl

/-- The text of the `RuntimeError`. -/
def exhaustedText (T : DevinTransport) (method path : String) (last : Option Exc) : String :=
  s!"Devin API {method} {path} failed after {T.maxRetries} attempts: " ++ str (last.map (·.message))

/-- What waiting raises is one of two. -/
theorem sleep_name {q : ℚ} {exc : Exc} (h : sleep q = .error exc) :
    exc.name = "OverflowError" ∨ exc.name = "ValueError" := by
  unfold sleep at h
  split at h
  · cases h
    exact Or.inl rfl
  split at h
  · cases h
    exact Or.inr rfl
  · cases h

theorem waitRateLimited_name {retryAfter : Option RetryAfter} {attempt : ℕ} {exc : Exc}
    (h : waitRateLimited retryAfter attempt = .error exc) :
    exc.name = "OverflowError" ∨ exc.name = "ValueError" := by
  unfold waitRateLimited at h
  split at h
  · exact sleep_name h
  · exact sleep_name h
  · cases h
    exact Or.inl rfl
  · cases h
    exact Or.inr rfl
  · cases h
    exact Or.inr rfl

/-- It is no `RuntimeError`. -/
theorem wait_name {attempt : ℕ} {o : HttpOutcome β} {exc : Exc} (h : o.wait attempt = .error exc) :
    exc.name ≠ "RuntimeError" := by
  have hname : exc.name = "OverflowError" ∨ exc.name = "ValueError" := by
    cases o with
    | transportError _ => exact sleep_name h
    | response resp =>
      rw [HttpOutcome.wait] at h
      split at h
      · exact waitRateLimited_name h
      · exact sleep_name h
  rcases hname with hname | hname
  · rw [hname]
    decide
  · rw [hname]
    decide

/-- **How the loop ends**: with the first attempt that is not retried, if there is one, or else with
the `RuntimeError`. -/
theorem requestLoop_ends (left attempt : ℕ) (lastExc : Option Exc) :
    (∃ n, attempt ≤ n ∧ n < attempt + left ∧ (outcome n).retried n ≠ true ∧
      (∀ i, attempt ≤ i → i < n → (outcome i).retried i = true) ∧
      ((∃ resp, (outcome n).success = some resp ∧
        (T.requestLoop method path outcome left attempt lastExc).1 = .ok resp) ∨
      (outcome n).success = none ∧ ∃ exc, exc.name ≠ "RuntimeError" ∧
        (T.requestLoop method path outcome left attempt lastExc).1 = .error exc)) ∨
    (∀ i, attempt ≤ i → i < attempt + left → (outcome i).retried i = true) ∧
      (T.requestLoop method path outcome left attempt lastExc).1 =
        .error ⟨"RuntimeError",
          exhaustedText T method path ((lastError T outcome left attempt).or lastExc)⟩ := by
  induction left generalizing attempt lastExc with
  | zero =>
    refine Or.inr ⟨?_, rfl⟩
    intro i hle hlt
    omega
  | succ left ih =>
    by_cases hretried : (outcome attempt).retried attempt = true
    · rw [requestLoop_retried left lastExc hretried, lastError_succ]
      have hfirst : ∀ n, (∀ i, attempt + 1 ≤ i → i < n → (outcome i).retried i = true) →
          ∀ i, attempt ≤ i → i < n → (outcome i).retried i = true := by
        intro n hn i hle hlt
        rcases Nat.eq_or_lt_of_le hle with rfl | hlt'
        · exact hretried
        · exact hn i hlt' hlt
      rcases ih (attempt + 1) (((outcome attempt).caught T).or lastExc) with
        ⟨n, hle, hlt, hlast, hbefore, hend⟩ | ⟨hall, hend⟩
      · exact Or.inl ⟨n, by omega, by omega, hlast, hfirst n hbefore, hend⟩
      · refine Or.inr ⟨hfirst _ fun i hle hlt => hall i hle (by omega), hend⟩
    · refine Or.inl ⟨attempt, le_rfl, by omega, hretried, fun i hle hlt => absurd hlt (by omega), ?_⟩
      cases hs : (outcome attempt).success with
      | some resp =>
        rw [requestLoop_some T method path outcome left lastExc hs]
        exact Or.inl ⟨resp, rfl, rfl⟩
      | none =>
        obtain ⟨last, hloop⟩ := requestLoop_none T method path outcome left lastExc hs
        rw [hloop]
        cases hwait : (outcome attempt).wait attempt with
        | ok u => exact absurd (retried_iff.2 ⟨hs, hwait⟩) hretried
        | error exc => exact Or.inr ⟨rfl, exc, wait_name hwait, rfl⟩

/-- **How a request ends.** -/
theorem request_ends (method path : String) (outcome : ℕ → HttpOutcome β) :
    (∃ n < T.maxRetries, (outcome n).retried n ≠ true ∧
      (∀ i < n, (outcome i).retried i = true) ∧
      ((∃ resp, (outcome n).success = some resp ∧ (T.request method path outcome).1 = .ok resp) ∨
      (outcome n).success = none ∧ ∃ exc, exc.name ≠ "RuntimeError" ∧
        (T.request method path outcome).1 = .error exc)) ∨
    (∀ i < T.maxRetries, (outcome i).retried i = true) ∧
      (T.request method path outcome).1 =
        .error ⟨"RuntimeError",
          exhaustedText T method path (lastError T outcome T.maxRetries 0)⟩ := by
  have hends := @requestLoop_ends _ T method path outcome T.maxRetries 0 none
  simp only [Nat.zero_le, Nat.zero_add, true_and, forall_const, Option.or_none] at hends
  exact hends

/-- It is answered if a 2xx status comes up in time, and there is only what is retried before it. -/
theorem request_isOk_iff (method path : String) (outcome : ℕ → HttpOutcome β) :
    (T.request method path outcome).1.isOk = true ↔
      ∃ n < T.maxRetries, (outcome n).success ≠ none ∧
        ∀ i < n, (outcome i).retried i = true := by
  rcases request_ends (T := T) method path outcome with ⟨n, hn, hlast, hbefore, hend⟩ | ⟨hall, hend⟩
  · rcases hend with ⟨resp, hs, hend⟩ | ⟨hs, exc, -, hend⟩
    · have hsome : (outcome n).success ≠ none := by rw [hs]; exact nofun
      rw [hend]
      exact iff_of_true rfl ⟨n, hn, hsome, hbefore⟩
    · rw [hend]
      refine iff_of_false nofun ?_
      rintro ⟨m, -, hm, hbefore'⟩
      -- the answer would have come before the wait that raises, or after it
      have hlt : n < m ∨ m = n ∨ m < n := by omega
      rcases hlt with hlt | rfl | hlt
      · exact hlast (hbefore' n hlt)
      · exact hm hs
      · exact hm (retried_iff.1 (hbefore m hlt)).1
  · rw [hend]
    refine iff_of_false nofun ?_
    rintro ⟨n, hn, hs, -⟩
    exact hs (retried_iff.1 (hall n hn)).1

/-! ## What is in the text -/

namespace HttpDevinClient

theorem isDone_iff {msg : String} :
    isDone msg = true ↔ ∃ s ∈ doneWords, s.toList <:+: lower msg.toList := by
  simp [isDone, isIn]

/-- Where the words may occur in the text: in the id, and in what follows the colon. -/
theorem isDone_exhaustedText (sessionId : String) (last : Option Exc) :
    isDone (exhaustedText T "DELETE" ("/sessions/" ++ sessionId) last) = true ↔
      isDone sessionId = true ∨ ∃ exc, last = some exc ∧ isDone exc.message = true := by
  have htext : (exhaustedText T "DELETE" ("/sessions/" ++ sessionId) last).toList =
      "Devin API DELETE /sessions".toList ++ '/' :: (sessionId.toList ++ ' ' ::
        ("failed after".toList ++ ' ' :: (T.maxRetries.repr.toList ++ ' ' ::
          ("attempts:".toList ++ ' ' :: (str (last.map (·.message))).toList)))) := by
    have hparts : exhaustedText T "DELETE" ("/sessions/" ++ sessionId) last =
        "Devin API " ++ "DELETE" ++ " " ++ ("/sessions/" ++ sessionId) ++ " failed after " ++
          T.maxRetries.repr ++ " attempts: " ++ str (last.map (·.message)) := rfl
    rw [hparts]
    simp only [String.toList_append, List.append_assoc]
    rfl
  have hlower : lower (exhaustedText T "DELETE" ("/sessions/" ++ sessionId) last).toList =
      lower "Devin API DELETE /sessions".toList ++ '/' :: (lower sessionId.toList ++ ' ' ::
        (lower "failed after".toList ++ ' ' :: (T.maxRetries.repr.toList ++ ' ' ::
          (lower "attempts:".toList ++ ' ' :: lower (str (last.map (·.message))).toList)))) := by
    have hslash : ∀ l, lower ('/' :: l) = '/' :: lower l := fun _ => rfl
    have hspace : ∀ l, lower (' ' :: l) = ' ' :: lower l := fun _ => rfl
    rw [htext]
    simp only [lower_append, hslash, hspace, lower_repr]
  -- the words have no separator in them, and a letter that is no digit
  have hwords : ∀ s ∈ doneWords, '/' ∉ s.toList ∧ ' ' ∉ s.toList ∧ 'e' ∈ s.toList ∧
      ¬s.toList <:+: lower "Devin API DELETE /sessions".toList ∧
      ¬s.toList <:+: lower "failed after".toList ∧ ¬s.toList <:+: lower "attempts:".toList ∧
      ¬s.toList <:+: lower "None".toList := by
    decide
  have hword : ∀ s ∈ doneWords,
      s.toList <:+: lower (exhaustedText T "DELETE" ("/sessions/" ++ sessionId) last).toList ↔
        s.toList <:+: lower sessionId.toList ∨
          ∃ exc, last = some exc ∧ s.toList <:+: lower exc.message.toList := by
    intro s hs
    obtain ⟨hslash, hspace, hletter, hhead, hfailed, hattempts, hnone⟩ := hwords s hs
    have hnumber : ¬s.toList <:+: T.maxRetries.repr.toList := fun h =>
      not_mem_repr (by decide) _ (h.subset hletter)
    rw [hlower, infix_sep hslash, infix_sep hspace, infix_sep hspace, infix_sep hspace,
      infix_sep hspace, or_iff_right hhead, or_iff_right hfailed, or_iff_right hnumber,
      or_iff_right hattempts]
    refine or_congr_right ?_
    cases last with
    | none => exact iff_of_false hnone fun ⟨_, he, _⟩ => nomatch he
    | some exc =>
      refine ⟨fun h => ⟨exc, rfl, h⟩, ?_⟩
      rintro ⟨_, he, h⟩
      cases he
      exact h
  simp only [isDone_iff]
  constructor
  · rintro ⟨s, hs, h⟩
    rcases (hword s hs).1 h with h | ⟨exc, he, h⟩
    · exact Or.inl ⟨s, hs, h⟩
    · exact Or.inr ⟨exc, he, s, hs, h⟩
  · rintro (⟨s, hs, h⟩ | ⟨exc, he, s, hs, h⟩)
    · exact ⟨s, hs, (hword s hs).2 (Or.inl h)⟩
    · exact ⟨s, hs, (hword s hs).2 (Or.inr ⟨exc, he, h⟩)⟩

/-- **What counts as terminated**: an attempt is answered with a 2xx status and all before it are
retried, or all are retried, and a word is in the session's id or in the last error. -/
theorem terminateSession_ok_iff (T : DevinTransport) (sessionId : String)
    (outcome : ℕ → HttpOutcome β) :
    terminateSession T sessionId outcome = .ok () ↔
      (∃ n < T.maxRetries, (outcome n).success ≠ none ∧
        ∀ i < n, (outcome i).retried i = true) ∨
      (∀ i < T.maxRetries, (outcome i).retried i = true) ∧
        (isDone sessionId = true ∨
          ∃ exc, lastError T outcome T.maxRetries 0 = some exc ∧ isDone exc.message = true) := by
  have hends := request_ends (T := T) "DELETE" ("/sessions/" ++ sessionId) outcome
  have hanswered := request_isOk_iff (T := T) "DELETE" ("/sessions/" ++ sessionId) outcome
  rw [← hanswered]
  unfold terminateSession
  rcases hends with ⟨n, hn, hlast, -, hend⟩ | ⟨hall, hend⟩
  · rcases hend with ⟨resp, -, hend⟩ | ⟨-, exc, hname, hend⟩
    · rw [hend]
      exact iff_of_true rfl (Or.inl rfl)
    · rw [hend]
      dsimp only
      rw [if_neg fun h => hname h.1]
      refine iff_of_false nofun ?_
      rintro (h | ⟨hall, -⟩)
      · cases h
      · exact hlast (hall n hn)
  · have hdone := isDone_exhaustedText (T := T) sessionId (lastError T outcome T.maxRetries 0)
    rw [hend, and_iff_right hall, ← hdone]
    dsimp only
    split
    · rename_i h
      exact iff_of_true rfl (Or.inr h.2)
    · rename_i h
      refine iff_of_false nofun ?_
      rintro (hok | hmsg)
      · cases hok
      · exact h ⟨rfl, hmsg⟩

/-- A client whose errors name the status. -/
def statusNamed : DevinTransport where
  statusError n := ⟨"HTTPStatusError", "Client error '" ++ toString n ++ "' for url"⟩

-- a session counts as terminated when the port is in use, but not when Devin says that it is over
example : terminateSession statusNamed "devin-1" (β := String)
      (fun _ => .transportError ⟨"ConnectError", "[Errno 98] Address already in use"⟩) = .ok () ∧
    terminateSession statusNamed "devin-1"
      (fun _ => .response { statusCode := 409, body := "session has already exited" }) ≠ .ok () := by
  decide +kernel

end HttpDevinClient

end Remediation
