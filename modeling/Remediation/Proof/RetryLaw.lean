import Mathlib.Tactic.Linarith
import Remediation.Spec.Transport

/-!
# What is sent again

429s, 5xx and transport errors are to be sent again, up to the limit, and nothing else; whatever
fails is to fail as a `RuntimeError`, the only exception that the callers expect. The loop catches
the errors of `raise_for_status` with the transport errors, and does not catch what waiting
raises: `retry_law_iff` says on which answers it keeps the law all the same.
-/

namespace Remediation

variable {β : Type}

/-- A response that settles the matter: neither a 429 nor a 5xx. -/
def HttpOutcome.final : HttpOutcome β → Bool
  | transportError _ => false
  | response resp =>
    decide (resp.statusCode ≠ 429 ∧ ¬(500 ≤ resp.statusCode ∧ resp.statusCode < 600))

/-- Nothing is settled by the attempts from `first` on, before the `n`-th. -/
def Unsettled (outcome : ℕ → HttpOutcome β) (first n : ℕ) : Prop :=
  ∀ j, first ≤ j → j < n → (outcome j).final = false

/-- **The law** for the attempts from `first` on, before `stop`: `r` is the result, with the
number of attempts made by then. -/
structure RetryLaw (outcome : ℕ → HttpOutcome β) (first stop : ℕ)
    (r : Except Exc (Response β) × ℕ) : Prop where
  /-- The first response that settles the matter is the last one, and is returned if it is 2xx. -/
  settled : ∀ n, first ≤ n → n < stop → (outcome n).final = true → Unsettled outcome first n →
    r.2 = n + 1 ∧ r.1.toOption = (outcome n).success
  exhausted : Unsettled outcome first stop → r.2 = stop ∧ r.1.toOption = none
  raises : ∀ exc, r.1 = .error exc → exc.name = "RuntimeError"

/-- A number of seconds that can be slept. -/
def Sleepable (delay : ℚ) : Prop := 0 ≤ delay ∧ delay * 10 ^ 9 < 2 ^ 63 - 512

/-- An attempt after which one can wait: the `Retry-After` of a 429, if there is one, is a number
of seconds that can be slept, and so is the usual backoff. -/
def HttpOutcome.Waitable (attempt : ℕ) : HttpOutcome β → Prop
  | transportError _ => Sleepable (2 ^ attempt)
  | response resp =>
    match resp.retryAfter with
    | some (.number q) => if resp.statusCode = 429 then Sleepable q else Sleepable (2 ^ attempt)
    | some _ => resp.statusCode ≠ 429 ∧ Sleepable (2 ^ attempt)
    | none => Sleepable (2 ^ attempt)

/-- The answers that the loop deals with: after each that is not 2xx it can wait, and a final one
that is not 2xx comes last, if at all. -/
def Tractable (outcome : ℕ → HttpOutcome β) (first stop : ℕ) : Prop :=
  ∀ n, first ≤ n → n < stop → Unsettled outcome first n → (outcome n).success = none →
    (outcome n).Waitable n ∧ ((outcome n).final = true → n + 1 = stop)

section Rounds

variable {outcome : ℕ → HttpOutcome β} {first stop : ℕ} {r : Except Exc (Response β) × ℕ}

theorem unsettled_self (outcome : ℕ → HttpOutcome β) (n : ℕ) : Unsettled outcome n n :=
  fun _ h h' => absurd h' (by omega)

theorem final_of_success {o : HttpOutcome β} {resp : Response β} (h : o.success = some resp) :
    o.final = true := by
  cases o with
  | transportError exc => cases h
  | response resp' =>
    rw [HttpOutcome.success] at h
    split at h
    · simp only [HttpOutcome.final, decide_eq_true_eq]
      omega
    · cases h

theorem sleep_eq_ok_iff {delay : ℚ} : sleep delay = .ok () ↔ Sleepable delay := by
  unfold sleep Sleepable
  split
  · rename_i h
    refine iff_of_false nofun fun ⟨h₀, h₁⟩ => ?_
    rcases h with h | h
    · exact absurd h₁ (not_lt.2 h)
    · linarith
  · rename_i h
    rw [not_or, not_le] at h
    split
    · rename_i hneg
      exact iff_of_false nofun fun h => absurd h.1 (not_le.2 hneg)
    · rename_i hneg
      exact iff_of_true rfl ⟨not_lt.1 hneg, h.1⟩

theorem wait_eq_ok_iff {o : HttpOutcome β} {n : ℕ} : o.wait n = .ok () ↔ o.Waitable n := by
  cases o with
  | transportError exc => exact sleep_eq_ok_iff
  | response resp =>
    obtain ⟨statusCode, retryAfter, body⟩ := resp
    simp only [HttpOutcome.wait, HttpOutcome.Waitable]
    by_cases h429 : statusCode = 429
    · rw [if_pos h429]
      cases retryAfter with
      | none => exact sleep_eq_ok_iff
      | some ra =>
        cases ra with
        | number q =>
          simp only [if_pos h429]
          exact sleep_eq_ok_iff
        | infinity negative => exact iff_of_false (fun h => by cases h) fun h => h.1 h429
        | nan => exact iff_of_false (fun h => by cases h) fun h => h.1 h429
        | text s => exact iff_of_false (fun h => by cases h) fun h => h.1 h429
    · rw [if_neg h429, sleep_eq_ok_iff]
      cases retryAfter with
      | none => exact Iff.rfl
      | some ra =>
        cases ra with
        | number q => simp only [if_neg h429]
        | infinity negative => exact (and_iff_right h429).symm
        | nan => exact (and_iff_right h429).symm
        | text s => exact (and_iff_right h429).symm

/-- Waiting does not raise what is expected. -/
theorem name_of_wait {o : HttpOutcome β} {n : ℕ} {exc : Exc} (h : o.wait n = .error exc) :
    exc.name ≠ "RuntimeError" := by
  have hsleep : ∀ delay, sleep delay = .error exc → exc.name ≠ "RuntimeError" := by
    intro delay h
    unfold sleep at h
    split at h
    · cases h
      decide
    · split at h
      · cases h
        decide
      · cases h
  cases o with
  | transportError _ => exact hsleep _ h
  | response resp =>
    rw [HttpOutcome.wait] at h
    split at h
    · unfold waitRateLimited at h
      split at h
      · exact hsleep _ h
      · exact hsleep _ h
      · cases h
        decide
      · cases h
        decide
      · cases h
        exact (by decide : "ValueError" ≠ "RuntimeError")
    · exact hsleep _ h

/-- An attempt that settles nothing leaves the matter to the next one. -/
theorem unsettled_succ (hf : (outcome first).final = false) {n : ℕ} :
    Unsettled outcome first n ↔ Unsettled outcome (first + 1) n := by
  constructor
  · exact fun h j hj hjn => h j (by omega) hjn
  · intro h j hj hjn
    rcases Nat.eq_or_lt_of_le hj with rfl | hj
    · exact hf
    · exact h j hj hjn

theorem not_unsettled (hf : (outcome first).final = true) {n : ℕ} (hn : first < n) :
    ¬Unsettled outcome first n := fun h => by
  have := h first le_rfl hn
  rw [hf] at this
  cases this

theorem retryLaw_succ (hf : (outcome first).final = false) (hlt : first < stop) :
    RetryLaw outcome first stop r ↔ RetryLaw outcome (first + 1) stop r := by
  constructor
  · rintro ⟨hs, he, hr⟩
    exact ⟨fun n hn hns hfin hu => hs n (by omega) hns hfin ((unsettled_succ hf).2 hu),
      fun hu => he ((unsettled_succ hf).2 hu), hr⟩
  · rintro ⟨hs, he, hr⟩
    refine ⟨fun n hn hns hfin hu => ?_, fun hu => he ((unsettled_succ hf).1 hu), hr⟩
    have hne : n ≠ first := by
      rintro rfl
      rw [hf] at hfin
      cases hfin
    exact hs n (by omega) hns hfin ((unsettled_succ hf).1 hu)

theorem tractable_succ (hf : (outcome first).final = false)
    (hw : (outcome first).Waitable first) :
    Tractable outcome first stop ↔ Tractable outcome (first + 1) stop := by
  constructor
  · exact fun h n hn hns hu => h n (by omega) hns ((unsettled_succ hf).2 hu)
  · intro h n hn hns hu hnone
    rcases Nat.eq_or_lt_of_le hn with rfl | hn
    · refine ⟨hw, fun hfin => ?_⟩
      rw [hf] at hfin
      cases hfin
    · exact h n hn hns ((unsettled_succ hf).1 hu) hnone

/-- After a response that settles the matter, the law is about that one alone. -/
theorem retryLaw_final (hf : (outcome first).final = true) (hlt : first < stop) :
    RetryLaw outcome first stop r ↔ (r.2 = first + 1 ∧ r.1.toOption = (outcome first).success) ∧
      ∀ exc, r.1 = .error exc → exc.name = "RuntimeError" := by
  constructor
  · exact fun h => ⟨h.settled first le_rfl hlt hf (unsettled_self outcome first), h.raises⟩
  · rintro ⟨hs, hr⟩
    refine ⟨fun n hn hns _ hu => ?_, fun hu => absurd hu (not_unsettled hf hlt), hr⟩
    rcases Nat.eq_or_lt_of_le hn with rfl | hn
    · exact hs
    · exact absurd hu (not_unsettled hf hn)

theorem tractable_final (hf : (outcome first).final = true) (hlt : first < stop) :
    Tractable outcome first stop ↔ ((outcome first).success = none →
      (outcome first).Waitable first ∧ first + 1 = stop) := by
  constructor
  · intro h hnone
    obtain ⟨hw, hstop⟩ := h first le_rfl hlt (unsettled_self outcome first) hnone
    exact ⟨hw, hstop hf⟩
  · intro h n hn hns hu hnone
    rcases Nat.eq_or_lt_of_le hn with rfl | hn
    · exact ⟨(h hnone).1, fun _ => (h hnone).2⟩
    · exact absurd hu (not_unsettled hf hn)

end Rounds

variable (T : DevinTransport) (method path : String) (outcome : ℕ → HttpOutcome β)

/-- **The loop and the law**, by induction on the attempts that are left. -/
theorem requestLoop_law (left attempt : ℕ) (lastExc : Option Exc) :
    RetryLaw outcome attempt (attempt + left)
        (T.requestLoop method path outcome left attempt lastExc) ↔
      Tractable outcome attempt (attempt + left) := by
  induction left generalizing attempt lastExc with
  | zero =>
    refine iff_of_true ⟨fun n hn hns => by omega, fun _ => ⟨rfl, rfl⟩, fun exc h => ?_⟩
      fun n hn hns => by omega
    cases h
    rfl
  | succ left ih =>
    have hlt : attempt < attempt + (left + 1) := by omega
    cases hs : (outcome attempt).success with
    | some resp =>
      -- it is returned
      have hf := final_of_success hs
      rw [requestLoop_some T method path outcome left lastExc hs, retryLaw_final hf hlt,
        tractable_final hf hlt, hs]
      exact iff_of_true ⟨⟨rfl, rfl⟩, fun exc h => by cases h⟩ nofun
    | none =>
      obtain ⟨last, hloop⟩ := requestLoop_none T method path outcome left lastExc hs
      rw [hloop]
      cases hw : (outcome attempt).wait attempt with
      | error exc =>
        -- what waiting raises gets out
        refine iff_of_false (fun h => name_of_wait hw (h.raises exc rfl)) fun h => ?_
        have hok := wait_eq_ok_iff.2 (h attempt le_rfl hlt (unsettled_self outcome attempt) hs).1
        rw [hw] at hok
        cases hok
      | ok _ =>
        have hwait := wait_eq_ok_iff.1 hw
        have hstop : attempt + (left + 1) = attempt + 1 + left := by omega
        cases hf : (outcome attempt).final with
        | false =>
          rw [retryLaw_succ hf hlt, tractable_succ hf hwait, hstop]
          exact ih (attempt + 1) last
        | true =>
          -- it is sent again, unless this was the last attempt
          rw [retryLaw_final hf hlt, tractable_final hf hlt, hs]
          cases left with
          | zero =>
            refine iff_of_true ⟨⟨rfl, rfl⟩, fun exc h => ?_⟩ fun _ => ⟨hwait, rfl⟩
            cases h
            rfl
          | succ left =>
            refine iff_of_false (fun h => ?_) fun h => by have := (h rfl).2; omega
            have hsent := (lt_requestLoop_iff T method path outcome (left + 1) (attempt + 1) last
              (attempt + 1) le_rfl).2 ⟨by omega, fun j h1 h2 => by omega⟩
            have hone : (T.requestLoop method path outcome (left + 1) (attempt + 1) last).2 =
                attempt + 1 := h.1.1
            omega

/-- **The retry law.** For every limit and all outcomes, `request` keeps the law exactly if it can
wait after every attempt up to the first that settles the matter, and a response other than a 2xx,
a 429 or a 5xx answers the last attempt, if any. -/
theorem retry_law_iff :
    RetryLaw outcome 0 T.maxRetries (T.request method path outcome) ↔
      Tractable outcome 0 T.maxRetries := by
  have hlaw := requestLoop_law T method path outcome T.maxRetries 0 none
  rwa [Nat.zero_add] at hlaw

namespace Retries

/-- The transport with its default limit. -/
def transport : DevinTransport where
  statusError code := ⟨"HTTPStatusError", s!"status {code}"⟩

/-- A response to every attempt, as to the `DELETE` of a session that is gone. -/
def gone : ℕ → HttpOutcome Unit := fun _ => .response { statusCode := 404, body := () }

/-- A 429 that says when to come back, or how long ago that was. -/
def limited (retryAfter : RetryAfter) : ℕ → HttpOutcome Unit := fun _ =>
  .response { statusCode := 429, retryAfter := some retryAfter, body := () }

/-- A 404 is sent again, and what a 429 asks for raises. -/
theorem broken_by_statuses_and_headers :
    ¬RetryLaw gone 0 transport.maxRetries
        (transport.request "DELETE" "/sessions/devin-1" gone) ∧
      ¬RetryLaw (limited (.text "Wed, 21 Oct 2026 07:28:00 GMT")) 0 transport.maxRetries
        (transport.request "GET" "/sessions/devin-1"
          (limited (.text "Wed, 21 Oct 2026 07:28:00 GMT"))) ∧
      ¬RetryLaw (limited (.number (-1))) 0 transport.maxRetries
        (transport.request "GET" "/sessions/devin-1" (limited (.number (-1)))) := by
  refine ⟨fun h => ?_, fun h => ?_, fun h => ?_⟩
  · have hone := (h.settled 0 le_rfl (by decide) (by decide) (unsettled_self gone 0)).1
    exact absurd hone (by decide +kernel)
  · have hname := h.raises ⟨"ValueError", _⟩ rfl
    exact absurd hname (by decide)
  · have hwait : sleep (-1) = .error ⟨"ValueError", "sleep length must be non-negative"⟩ := by
      rw [sleep, if_neg (by norm_num), if_pos (by norm_num)]
    obtain ⟨_, hloop⟩ := requestLoop_none transport "GET" "/sessions/devin-1"
      (limited (.number (-1))) 2 none rfl
    have hfirst : (limited (.number (-1)) 0).wait 0 = sleep (-1) := rfl
    rw [hfirst, hwait] at hloop
    have hname := h.raises _ (congrArg Prod.fst hloop)
    exact absurd hname (by decide)

end Retries

end Remediation
