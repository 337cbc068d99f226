import Remediation.Spec.Devin

/-!
# The client of the Devin API

`DevinTransport.request` (`app/devin/http.py`) and `HttpDevinClient.create_session`
(`app/devin/client.py`). The outcome of every attempt is given; what the loop decides
is which attempts are made and what the caller gets to see.

Beside the result, both functions say how many attempts were sent: a request that
fails for the caller may still have been processed on the other side.
-/

namespace Remediation

open PyText

/-- What `float` makes of a `Retry-After` header; it raises on other text than numbers. -/
inductive RetryAfter
  | number (q : ℚ)
  | infinity (negative : Bool)
  | nan
  | text (s : String)

structure Response (β : Type) where
  statusCode : ℕ
  retryAfter : Option RetryAfter := none
  body : β

/-- What the client sees of one request: a response, or an `httpx.HTTPError`. -/
inductive HttpOutcome (β : Type)
  | response (resp : Response β)
  | transportError (exc : Exc)

/-- The response, if the request has been answered with a 2xx status. -/
def HttpOutcome.success {β : Type} : HttpOutcome β → Option (Response β)
  | response resp => if 200 ≤ resp.statusCode ∧ resp.statusCode < 300 then some resp else none
  | transportError _ => none

/-- `statusError` is what `raise_for_status` raises on a status that is not 2xx. -/
structure DevinTransport where
  maxRetries : ℕ := 3
  statusError : ℕ → Exc

/-- The system keeps its times as 64-bit numbers of nanoseconds. -/
def timestampTooLarge : Exc := ⟨"OverflowError", "timestamp too large to convert to C PyTime_t"⟩

/-- `time.sleep(delay)`. The bounds are those of 64 bits, as doubles are rounded there. -/
def sleep (delay : ℚ) : Except Exc Unit :=
  if 2 ^ 63 - 512 ≤ delay * 10 ^ 9 ∨ delay * 10 ^ 9 < -(2 ^ 63 + 1024) then .error timestampTooLarge
  else if delay < 0 then .error ⟨"ValueError", "sleep length must be non-negative"⟩
  else .ok ()

/-- Wait as long as a 429 response asks for, `2**attempt` seconds if it does not say.
Neither `float` nor `time.sleep` raises an `httpx.HTTPError`. -/
def waitRateLimited (retryAfter : Option RetryAfter) (attempt : ℕ) : Except Exc Unit :=
  match retryAfter with
  | none => sleep (2 ^ attempt)
  | some (.number q) => sleep q
  | some (.infinity _) => .error timestampTooLarge
  | some .nan => .error ⟨"ValueError", "Invalid value NaN (not a number)"⟩
  | some (.text s) => .error ⟨"ValueError", s!"could not convert string to float: '{s}'"⟩

/-- The wait after an attempt that has not been answered with a 2xx status. -/
def HttpOutcome.wait {β : Type} (attempt : ℕ) : HttpOutcome β → Except Exc Unit
  | transportError _ => sleep (2 ^ attempt)
  | response resp =>
    if resp.statusCode = 429 then waitRateLimited resp.retryAfter attempt else sleep (2 ^ attempt)

/-- Another attempt is made after this one, if there is one left: neither has it been
answered with a 2xx status, nor does waiting raise. -/
def HttpOutcome.retried {β : Type} (attempt : ℕ) (o : HttpOutcome β) : Bool :=
  o.success.isNone && (o.wait attempt).isOk

namespace DevinTransport

variable {β : Type} (T : DevinTransport) (method path : String) (outcome : ℕ → HttpOutcome β)

/-- The loop of `request` with `left` attempts to go, and how many have been sent when
it ends. -/
def requestLoop : (left attempt : ℕ) → (lastExc : Option Exc) → Except Exc (Response β) × ℕ
  | 0, attempt, lastExc =>
    (.error ⟨"RuntimeError",
      s!"Devin API {method} {path} failed after {T.maxRetries} attempts: " ++
        str (lastExc.map (·.message))⟩, attempt)
  | left + 1, attempt, lastExc =>
    -- what waiting raises is no `httpx.HTTPError`, and leaves the loop
    let retry (wait : Except Exc Unit) (lastExc : Option Exc) : Except Exc (Response β) × ℕ :=
      match wait with
      | .error exc => (.error exc, attempt + 1)
      | .ok () => requestLoop left (attempt + 1) lastExc
    match outcome attempt with
    | .transportError exc => retry (sleep (2 ^ attempt)) (some exc)
    | .response resp =>
      if resp.statusCode = 429 then retry (waitRateLimited resp.retryAfter attempt) lastExc
      else if 500 ≤ resp.statusCode ∧ resp.statusCode < 600 then
        -- sent again, though the request may have been processed
        retry (sleep (2 ^ attempt)) lastExc
      else if 200 ≤ resp.statusCode ∧ resp.statusCode < 300 then (.ok resp, attempt + 1)
      -- `HTTPStatusError` is caught with the transport errors: a 404 is retried as well
      else retry (sleep (2 ^ attempt)) (some (T.statusError resp.statusCode))

def request : Except Exc (Response β) × ℕ :=
  T.requestLoop method path outcome T.maxRetries 0 none

end DevinTransport

/-! ## `POST /sessions` -/

/-- The arguments of `create_session` that the handlers pass. The schema of the
structured output is always the same one. -/
structure CreateRequest where
  prompt : String
  repos : List String
  title : String
  tags : List String
  maxAcuLimit : ℤ
  devinMode : String
  parentSessionId : Option String := none
  structuredOutputSchema : Bool := false

/-- The JSON body of `POST /sessions`; a field that is `none` is not sent. -/
structure CreateBody where
  prompt : String
  repos : Option (List String)
  title : Option String
  tags : Option (List String)
  maxAcuLimit : ℤ
  devinMode : Option String
  parentSessionId : Option String
  structuredOutputSchema : Bool

def CreateRequest.body (req : CreateRequest) : CreateBody where
  prompt := req.prompt
  repos := if req.repos = [] then none else some req.repos
  title := if req.title = "" then none else some (String.ofList (req.title.toList.take 200))
  tags := if req.tags = [] then none else some (req.tags.take 50)
  maxAcuLimit := req.maxAcuLimit
  devinMode := truthy (some req.devinMode)
  parentSessionId := truthy req.parentSessionId
  structuredOutputSchema := req.structuredOutputSchema

/-- One `POST /sessions`: the session that Devin creates for it, if it processes it, and
what the client sees. The body of a response is what reading `session_id` and `url` out
of it gives. -/
structure Attempt where
  processed : Option String
  seen : HttpOutcome (Except Exc SessionCreated)

/-- The session that the client learns of: from a 2xx response that can be read. -/
def Attempt.confirmed (a : Attempt) : Option SessionCreated :=
  a.seen.success.bind fun resp => resp.body.toOption

namespace HttpDevinClient

variable (T : DevinTransport) (attempts : ℕ → Attempt)

/-- The result of `create_session`. -/
def createSession : Except Exc SessionCreated :=
  match (T.request "POST" "/sessions" fun i => (attempts i).seen).1 with
  | .ok resp => resp.body
  | .error exc => .error exc

/-- How many requests `create_session` sends. -/
def sent : ℕ := (T.request "POST" "/sessions" fun i => (attempts i).seen).2

/-- The sessions that Devin creates for it. -/
def spawned : List String := (List.range (sent T attempts)).filterMap fun i => (attempts i).processed

end HttpDevinClient

/-! ## Which attempts are sent, and which one is returned -/

section Loop

variable {β : Type} (T : DevinTransport) (method path : String) (outcome : ℕ → HttpOutcome β)

/-- An attempt that is retried has not been answered with a 2xx status. -/
theorem success_of_retried {attempt : ℕ} {o : HttpOutcome β} (h : o.retried attempt = true) :
    o.success = none :=
  Option.isNone_iff_eq_none.1 (Bool.and_eq_true_iff.1 h).1

/-- **One round of the loop**, on an attempt without a 2xx status: the wait raises, or the loop
goes on. -/
theorem requestLoop_none (left : ℕ) {attempt : ℕ} (lastExc : Option Exc)
    (h : (outcome attempt).success = none) :
    ∃ last, T.requestLoop method path outcome (left + 1) attempt lastExc =
      match (outcome attempt).wait attempt with
      | .error exc => (.error exc, attempt + 1)
      | .ok () => T.requestLoop method path outcome left (attempt + 1) last := by
  rw [DevinTransport.requestLoop]
  cases ho : outcome attempt with
  | transportError exc => exact ⟨_, rfl⟩
  | response resp =>
    rw [ho] at h
    have h2xx : ¬(200 ≤ resp.statusCode ∧ resp.statusCode < 300) := by
      intro h2xx
      rw [HttpOutcome.success, if_pos h2xx] at h
      cases h
    simp only [HttpOutcome.wait]
    by_cases h429 : resp.statusCode = 429
    · rw [if_pos h429, if_pos h429]
      exact ⟨_, rfl⟩
    · rw [if_neg h429, if_neg h429, if_neg h2xx]
      split <;> exact ⟨_, rfl⟩

/-- On a 2xx response it ends. -/
theorem requestLoop_some (left : ℕ) {attempt : ℕ} (lastExc : Option Exc) {resp : Response β}
    (h : (outcome attempt).success = some resp) :
    T.requestLoop method path outcome (left + 1) attempt lastExc = (.ok resp, attempt + 1) := by
  rw [DevinTransport.requestLoop]
  cases ho : outcome attempt with
  | transportError exc => rw [ho] at h; cases h
  | response resp' =>
    rw [ho, HttpOutcome.success] at h
    split at h
    · rename_i h2xx
      cases h
      have h429 : resp.statusCode ≠ 429 := by omega
      have h5xx : ¬(500 ≤ resp.statusCode ∧ resp.statusCode < 600) := by omega
      simp only
      rw [if_neg h429, if_neg h5xx, if_pos h2xx]
    · cases h

/-- An attempt that is retried is followed by the rest of the loop; any other one is the last,
and its answer is the result if it has a 2xx status. -/
theorem requestLoop_succ (left attempt : ℕ) (lastExc : Option Exc) :
    if (outcome attempt).retried attempt then
      ∃ last, T.requestLoop method path outcome (left + 1) attempt lastExc =
        T.requestLoop method path outcome left (attempt + 1) last
    else
      ∃ r, T.requestLoop method path outcome (left + 1) attempt lastExc = (r, attempt + 1) ∧
        (outcome attempt).success = r.toOption := by
  unfold HttpOutcome.retried
  cases hs : (outcome attempt).success with
  | some resp =>
    exact ⟨_, requestLoop_some T method path outcome left lastExc hs, rfl⟩
  | none =>
    obtain ⟨last, hloop⟩ := requestLoop_none T method path outcome left lastExc hs
    rw [hloop]
    cases (outcome attempt).wait attempt with
    | ok _ => exact ⟨last, rfl⟩
    | error exc => exact ⟨.error exc, rfl, rfl⟩

/-- **What the loop decides**: it returns the first 2xx response, which is then the last
attempt it sends; if it fails, no attempt that it has sent was answered with one. -/
theorem requestLoop_spec (left attempt : ℕ) (lastExc : Option Exc) :
    let r := T.requestLoop method path outcome left attempt lastExc
    (∀ resp, r.1 = .ok resp → ∃ n, r.2 = n + 1 ∧ attempt ≤ n ∧ (outcome n).success = some resp ∧
      ∀ i, attempt ≤ i → i < n → (outcome i).success = none) ∧
    (∀ exc, r.1 = .error exc → ∀ i, attempt ≤ i → i < r.2 → (outcome i).success = none) := by
  induction left generalizing attempt lastExc with
  | zero =>
    unfold DevinTransport.requestLoop
    refine ⟨fun resp h => (by cases h), ?_⟩
    intro exc _ i hle hlt
    simp only at hlt
    omega
  | succ left ih =>
    have hloop := requestLoop_succ T method path outcome left attempt lastExc
    split at hloop
    · -- one more attempt without a 2xx status, and then the rest of the loop
      rename_i hretried
      obtain ⟨last, hloop⟩ := hloop
      have hno := success_of_retried hretried
      obtain ⟨hok, herr⟩ := ih (attempt + 1) last
      rw [← hloop] at hok herr
      constructor
      · intro resp h
        obtain ⟨n, hr, hle, hs, hn⟩ := hok resp h
        refine ⟨n, hr, by omega, hs, ?_⟩
        intro i hle' hlt
        rcases Nat.eq_or_lt_of_le hle' with rfl | h'
        · exact hno
        · exact hn i h' hlt
      · intro exc h i hle hlt
        rcases Nat.eq_or_lt_of_le hle with rfl | h'
        · exact hno
        · exact herr exc h i h' hlt
    · obtain ⟨r, hloop, hs⟩ := hloop
      rw [hloop]
      constructor
      · rintro resp rfl
        exact ⟨attempt, rfl, le_rfl, hs, fun i hle hlt => absurd hlt (by omega)⟩
      · rintro exc rfl i hle hlt
        obtain rfl : i = attempt := by simp only at hlt; omega
        exact hs

theorem le_requestLoop (left attempt : ℕ) (lastExc : Option Exc) :
    attempt ≤ (T.requestLoop method path outcome left attempt lastExc).2 := by
  induction left generalizing attempt lastExc with
  | zero => exact le_rfl
  | succ left ih =>
    have hloop := requestLoop_succ T method path outcome left attempt lastExc
    split at hloop
    · obtain ⟨last, hloop⟩ := hloop
      rw [hloop]
      exact (Nat.le_succ _).trans (ih (attempt + 1) last)
    · obtain ⟨r, hloop, -⟩ := hloop
      rw [hloop]
      exact Nat.le_succ _

/-- **Which attempts are sent**: those that all earlier ones are retried before, up to the
limit. -/
theorem lt_requestLoop_iff (left attempt : ℕ) (lastExc : Option Exc) (i : ℕ) (hi : attempt ≤ i) :
    i < (T.requestLoop method path outcome left attempt lastExc).2 ↔
      i < attempt + left ∧ ∀ j, attempt ≤ j → j < i → (outcome j).retried j = true := by
  induction left generalizing attempt lastExc with
  | zero =>
    simp only [DevinTransport.requestLoop]
    omega
  | succ left ih =>
    have hloop := requestLoop_succ T method path outcome left attempt lastExc
    split at hloop
    · rename_i hr
      obtain ⟨last, hloop⟩ := hloop
      rw [hloop]
      rcases Nat.eq_or_lt_of_le hi with rfl | hlt
      · -- the first attempt is always sent
        have hsent := le_requestLoop T method path outcome left (attempt + 1) last
        exact ⟨fun _ => ⟨by omega, fun j h1 h2 => by omega⟩, fun _ => hsent⟩
      · rw [ih (attempt + 1) last hlt]
        refine and_congr (by omega) ⟨?_, fun h j h1 h2 => h j (by omega) h2⟩
        intro h j h1 h2
        rcases Nat.eq_or_lt_of_le h1 with rfl | h1
        · exact hr
        · exact h j h1 h2
    · rename_i hr
      obtain ⟨r, hloop, -⟩ := hloop
      rw [hloop]
      refine ⟨fun h => ⟨?_, ?_⟩, ?_⟩
      · simp only at h
        omega
      · intro j h1 h2
        simp only at h
        omega
      · intro h
        by_contra hge
        exact hr (h.2 attempt le_rfl (by simp only at hge; omega))

end Loop

namespace HttpDevinClient

variable {T : DevinTransport} {attempts : ℕ → Attempt}

theorem lt_sent_iff {i : ℕ} :
    i < sent T attempts ↔
      i < T.maxRetries ∧ ∀ j, j < i → (attempts j).seen.retried j = true := by
  rw [sent, DevinTransport.request, lt_requestLoop_iff _ _ _ _ _ _ _ _ (Nat.zero_le i)]
  simp

/-- A session that `create_session` returns was confirmed by the last attempt, and by no
other. -/
theorem createSession_ok {created : SessionCreated} (h : createSession T attempts = .ok created) :
    ∃ n, sent T attempts = n + 1 ∧ (attempts n).confirmed = some created ∧
      ∀ i, i < n → (attempts i).confirmed = none := by
  obtain ⟨hok, -⟩ := requestLoop_spec T "POST" "/sessions" (fun i => (attempts i).seen) T.maxRetries 0
    none
  unfold createSession at h
  split at h
  · rename_i resp hr
    obtain ⟨n, hn, -, hs, hno⟩ := hok resp hr
    refine ⟨n, hn, by simp [Attempt.confirmed, hs, h, Except.toOption], ?_⟩
    intro i hi
    simp [Attempt.confirmed, hno i (Nat.zero_le _) hi]
  · cases h

/-- If `create_session` fails, no attempt was confirmed. -/
theorem createSession_error {exc : Exc} (h : createSession T attempts = .error exc) :
    ∀ i, i < sent T attempts → (attempts i).confirmed = none := by
  obtain ⟨hok, herr⟩ := requestLoop_spec T "POST" "/sessions" (fun i => (attempts i).seen) T.maxRetries
    0 none
  unfold createSession at h
  intro i hi
  split at h
  · rename_i resp hr
    obtain ⟨n, hn, -, hs, hno⟩ := hok resp hr
    have hi' : i < n + 1 := hn ▸ hi
    rcases Nat.lt_succ_iff_lt_or_eq.1 hi' with hlt | rfl
    · simp [Attempt.confirmed, hno i (Nat.zero_le _) hlt]
    · simp [Attempt.confirmed, hs, h, Except.toOption]
  · rename_i exc' hr
    simp [Attempt.confirmed, herr exc' hr i (Nat.zero_le _) hi]

end HttpDevinClient

end Remediation
