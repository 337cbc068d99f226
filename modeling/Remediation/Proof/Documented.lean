import Remediation.Proof.AnyAnswer
import Remediation.Proof.Reached

/-!
# Documented answers

What `AnyAnswer` comes down to where Devin answers as documented: `from_api_response` then accepts the
answer, as the typed one of `Devin` (`fromApiResponse_encodes`), and to every tick of `Orchestrator`
there is a clock with which the tick here makes the same of every row (`pollOnce_documented`).
-/

namespace Remediation.AnyAnswer

open Interaction Prog PyText

/-! ## Texts -/

theorem pyStr_injective : Function.Injective pyStr := by
  intro a b h
  have hinj : Function.Injective Char.toNat := fun c c' hc => Char.toNat_inj.1 hc
  exact String.toList_injective (List.map_injective_iff.2 hinj h)

theorem ofNat_pyStr (s : String) : String.ofList ((pyStr s).map Char.ofNat) = s := by
  rw [pyStr, List.map_map]
  have hid : Char.ofNat ∘ Char.toNat = id := funext Char.ofNat_toNat
  rw [hid, List.map_id, String.ofList_toList]

theorem storable_text (s : String) : (Json.text s).storable = true :=
  storable_of_isText (s := some s) (decide_eq_true rfl)

theorem column_text (codec : Codec) (s : String) : column codec (.text s) = some s := by
  have hbind : bindValue 0 (.text s) = .ok (.text (pyStr s)) := if_pos (storable_text s)
  rw [column, hbind]
  exact congrArg some (ofNat_pyStr s)

/-- A text, or null. -/
def optText (s : Option String) : Json := s.elim .null .text

theorem storable_optText (s : Option String) : (optText s).storable = true := by
  cases s with
  | none => rfl
  | some s => exact storable_text s

theorem isText_optText (a b : Option String) : isText (optText a) b = decide (a = b) := by
  cases a with
  | none => cases b <;> rfl
  | some a =>
    cases b with
    | none => rfl
    | some b =>
      change decide (pyStr a = pyStr b) = _
      simp [pyStr_injective.eq_iff]

theorem truthy_optText (s : Option String) : (optText s).truthy = (truthy s).isSome := by
  cases s with
  | none => rfl
  | some s =>
    change (!(s.toList.map Char.toNat).isEmpty) = _
    by_cases h : s = "" <;> simp [truthy, h]

/-! ## `from_api_response` -/

/-- The value at a key, null where it is missing. -/
def field (items : List (PyStr × Json)) (key : String) : Json :=
  (items.lookup (pyStr key)).getD .null

/-- A JSON object that is typed as documented, and what `ApiSession` has of it. -/
structure Encodes (codec : Codec) (items : List (PyStr × Json)) (data : ApiSession) : Prop where
  sessionId : (items.lookup (pyStr "session_id")).isSome = true
  status : field items "status" = optText data.status
  acusConsumed : toFloat codec (orElse (items.lookup (pyStr "acus_consumed")) (.int 0)) =
    .ok (.finite (data.acusConsumed.getD 0))
  pullRequests : ∃ prs : List (List (PyStr × Json)),
    orElse (items.lookup (pyStr "pull_requests")) (.list []) = .list (prs.map .dict) ∧
      List.Forall₂ (fun pr p => field pr "pr_url" = optText p.prUrl ∧
        field pr "pr_state" = optText p.prState) prs data.pullRequests
  childSessionIds : ∃ ids, orElse (items.lookup (pyStr "child_session_ids")) (.list []) = .list ids
  structuredOutput : data.structuredOutput = match items.lookup (pyStr "structured_output") with
    | some (.dict so) => some (codec.dumpsSorted (.dict so))
    | _ => none
  /-- no other object has the text of the empty one -/
  dumpsSorted : ∀ so, codec.dumpsSorted (.dict so) = "{}" ↔ so = []
  updatedAt : rawTime (field items "updated_at") = data.updatedAt

/-- The same details, typed. -/
structure Documented (codec : Codec) (d : SessionDetails) (d' : Remediation.SessionDetails) :
    Prop where
  status : d.status = d'.status
  rawStatus : d.rawStatus = .text d'.rawStatus
  acusConsumed : d.acusConsumed = .finite d'.acusConsumed
  pullRequests : d.pullRequests = d'.pullRequests.map fun p => ⟨.text p.prUrl, optText p.prState⟩
  structuredOutput : d.structuredOutputJson codec = d'.structuredOutputJson
  updatedAt : rawTime d.updatedAt = d'.updatedAt

variable {codec : Codec}

theorem orElse_eq (x : Option Json) (y : Json) :
    orElse x y = if (x.getD .null).truthy then x.getD .null else y := by
  cases x <;> rfl

theorem orElse_optText {items : List (PyStr × Json)} {key : String} {s : Option String}
    (h : field items key = optText s) (y : String) :
    orElse (items.lookup (pyStr key)) (.text y) = .text ((truthy s).getD y) := by
  unfold field at h
  rw [orElse_eq, h, truthy_optText]
  cases hs : truthy s with
  | none => rfl
  | some x =>
    rw [(truthy_eq_some.1 hs).1]
    rfl

theorem mapStatus_text (s : String) : mapStatus (.text s) = .ok (Remediation.mapStatus s) :=
  congrArg (fun s => Except.ok (Remediation.mapStatus s)) (ofNat_pyStr s)

theorem pullRequestRef_dict {pr : List (PyStr × Json)} {p : ApiPullRequest}
    (hurl : field pr "pr_url" = optText p.prUrl) (hstate : field pr "pr_state" = optText p.prState) :
    pullRequestRef (.dict pr) =
      .ok ((truthy p.prUrl).map fun url => ⟨.text url, optText p.prState⟩) := by
  change Except.ok (if (field pr "pr_url").truthy then
    some (PullRequestRef.mk (field pr "pr_url") (field pr "pr_state")) else none) = _
  rw [hurl, hstate, truthy_optText]
  cases hp : truthy p.prUrl with
  | none => rfl
  | some url =>
    rw [(truthy_eq_some.1 hp).1]
    rfl

theorem mapM_pullRequestRef {prs : List (List (PyStr × Json))} {ps : List ApiPullRequest}
    (h : List.Forall₂ (fun pr p => field pr "pr_url" = optText p.prUrl ∧
      field pr "pr_state" = optText p.prState) prs ps) :
    (prs.map Json.dict).mapM pullRequestRef =
      .ok (ps.map fun p => (truthy p.prUrl).map fun url => ⟨.text url, optText p.prState⟩) := by
  induction h with
  | nil => rfl
  | cons hp _ ih =>
    rw [List.map_cons, List.mapM_cons, pullRequestRef_dict hp.1 hp.2, ih]
    rfl

/-- **A documented answer is accepted**, with the details that the typed one has. -/
theorem fromApiResponse_encodes {items : List (PyStr × Json)} {data : ApiSession}
    (h : Encodes codec items data) :
    ∃ d, fromApiResponse codec (.dict items) = .ok d ∧
      Documented codec d (Remediation.fromApiResponse data) := by
  obtain ⟨sessionId, hid⟩ := Option.isSome_iff_exists.1 h.sessionId
  obtain ⟨prs, hprs, hpr⟩ := h.pullRequests
  obtain ⟨ids, hids⟩ := h.childSessionIds
  have hok : ∀ {α β : Type} (a : α) (f : α → Except Exc β), (Except.ok a >>= f) = f a :=
    fun _ _ => rfl
  have hget : ∀ key, (Json.dict items).get key = .ok (items.lookup (pyStr key)) := fun _ => rfl
  unfold fromApiResponse
  simp only [hget, hok, hid, hprs, hids, iterate, mapM_pullRequestRef hpr,
    orElse_optText h.status, mapStatus_text, h.acusConsumed]
  refine ⟨_, rfl, rfl, rfl, rfl, ?_, ?_, h.updatedAt⟩
  · rw [Remediation.fromApiResponse, List.filterMap_map, List.map_filterMap]
    refine List.filterMap_congr fun p _ => ?_
    dsimp only [Function.comp]
    cases truthy p.prUrl <;> rfl
  · unfold SessionDetails.structuredOutputJson Remediation.SessionDetails.structuredOutputJson
    rw [Remediation.fromApiResponse, h.structuredOutput]
    dsimp only
    cases hso : items.lookup (pyStr "structured_output") with
    | none => rfl
    | some so =>
      cases so with
      | dict so =>
        have hempty := h.dumpsSorted so
        cases so <;> simp [Option.filter, Json.truthy, hempty]
      | _ => rfl

/-! ## One row -/

/-- The text for `pr_urls_json`. -/
def urlsText (codec : Codec) (urls : List (String × Option String)) : String :=
  codec.dumps <| .list <| urls.map fun p =>
    .dict [(pyStr "pr_url", .text p.1), (pyStr "pr_state", optText p.2)]

/-- What `Row` adds to a row of `Sessions`. -/
def Cells.of (codec : Codec) (r : SessionRow) : Cells where
  acus := some (.finite r.acusConsumed)
  prUrls := r.prUrlsJson.map (urlsText codec)

/-- A row of `Sessions` as it is here. -/
def Row.of (codec : Codec) (r : SessionRow) : Row := (Cells.of codec r).row r

section Row

variable {S : Settings} {r : SessionRow} {d : SessionDetails}
  {d' : Remediation.SessionDetails} {m : Moment} {t : Time}

theorem truthy_rawTime (x : Json) : (rawTime x).truthy = x.truthy := by
  cases x with
  | bool b => cases b <;> decide +kernel
  | int i => simp [rawTime, RawTime.truthy, Json.truthy]
  | float x =>
    cases x with
    | finite q => simp [rawTime, RawTime.truthy, Json.truthy]
    | _ => rfl
  | null => rfl
  | str s => cases s <;> rfl
  | list elems => cases elems <;> rfl
  | dict items => cases items <;> rfl

theorem Documented.firstPrUrl (h : Documented codec d d') :
    d.firstPrUrl = d'.firstPrUrl.map .text := by
  unfold SessionDetails.firstPrUrl Remediation.SessionDetails.firstPrUrl
  rw [h.pullRequests, List.head?_map, Option.map_map, Option.map_map]
  rfl

theorem Documented.firstPrUrl_getD (h : Documented codec d d') :
    d.firstPrUrl.getD .null = optText d'.firstPrUrl := by
  rw [h.firstPrUrl]
  cases d'.firstPrUrl <;> rfl

theorem Documented.prState (h : Documented codec d d') : d.prState = optText d'.prState := by
  unfold SessionDetails.prState Remediation.SessionDetails.prState
  rw [h.pullRequests, List.head?_map]
  cases d'.pullRequests.head? <;> rfl

theorem Documented.undatable (h : Documented codec d d') : d.undatable = d'.undatable := by
  unfold SessionDetails.undatable Remediation.SessionDetails.undatable
  rw [h.status, ← truthy_rawTime, h.updatedAt]

theorem Documented.unstorable (h : Documented codec d d') : d.unstorable = false := by
  rw [SessionDetails.unstorable, h.rawStatus, h.firstPrUrl_getD, storable_text, storable_optText]
  rfl

theorem Documented.differs (h : Documented codec d d') (r : SessionRow) :
    differs codec (Row.of codec r) d = r.differs d' := by
  have hraw : d.rawStatus = optText (some d'.rawStatus) := h.rawStatus
  change (decide (d.status ≠ r.status) || !isText d.rawStatus r.rawStatus ||
    !isText (d.firstPrUrl.getD .null) r.prUrl ||
    (d.acusConsumed = .nan || d.acusConsumed ≠ .finite r.acusConsumed) ||
    decide (d.structuredOutputJson codec ≠ r.structuredOutputJson)) = _
  rw [h.firstPrUrl_getD, hraw, isText_optText, isText_optText, h.status, h.acusConsumed,
    h.structuredOutput]
  simp [SessionRow.differs]

theorem Documented.prUrlsJson (h : Documented codec d d') (t : Time) :
    d.prUrlsJson codec = (Remediation.pollUpdate d' t).prUrlsJson.map (urlsText codec) := by
  unfold SessionDetails.prUrlsJson Remediation.pollUpdate
  rw [h.pullRequests]
  cases d'.pullRequests with
  | nil => rfl
  | cons p ps => simp [urlsText, Function.comp_def]

theorem Documented.mirrored (h : Documented codec d d') (r : SessionRow) (m : Moment) :
    mirrored codec (Row.of codec r) d m =
      Row.of codec ((Remediation.pollUpdate d' m.polledAt).apply r) := by
  have hurl : (d.firstPrUrl.map (column codec)).getD r.prUrl = d'.firstPrUrl.or r.prUrl := by
    rw [h.firstPrUrl]
    cases d'.firstPrUrl with
    | none => rfl
    | some url => exact column_text codec url
  have hurls : (d.prUrlsJson codec).or (r.prUrlsJson.map (urlsText codec)) =
      ((Remediation.pollUpdate d' m.polledAt).prUrlsJson.or r.prUrlsJson).map (urlsText codec) := by
    rw [h.prUrlsJson m.polledAt]
    cases (Remediation.pollUpdate d' m.polledAt).prUrlsJson <;> rfl
  have hraw : column codec d.rawStatus = some d'.rawStatus := by
    rw [h.rawStatus, column_text]
  unfold AnyAnswer.mirrored Row.of Cells.of Cells.row
  dsimp only
  rw [hurl, hurls, hraw, h.status, h.acusConsumed, h.structuredOutput]
  rfl

/-- **What is written of a documented answer.** -/
theorem Documented.written (h : Documented codec d d') (r : SessionRow) (m : Moment) :
    written codec (Row.of codec r) d m =
      Row.of codec ((writeVerdict r d').row r d' m.polledAt m.completedAt) := by
  have hstatus : (Row.of codec r).status = r.status := rfl
  have hcompleted : (Row.of codec r).completedAt = r.completedAt := rfl
  unfold AnyAnswer.written writeVerdict
  rw [h.differs r, h.prState, isText_optText, isText_optText, h.mirrored r m, h.status, hstatus,
    hcompleted]
  simp only [decide_eq_true_eq, Bool.not_eq_true']
  split_ifs <;> rfl

theorem Documented.inactivityAt (h : Documented codec d d') (r : SessionRow) (t : Time) (i : ℤ) :
    inactivityAt (Row.of codec r) d t = .ok i ↔ Remediation.inactivityAt r d' t = .ok i := by
  unfold AnyAnswer.inactivityAt Remediation.inactivityAt
  rw [← truthy_rawTime, h.updatedAt]
  split
  · cases fromTimestamp d'.updatedAt <;> simp
  · rfl

/-- **The row after a documented answer.** -/
theorem Documented.after (h : Documented codec d d') (r : SessionRow) (m : Moment) :
    (Row.of codec r).after codec S d m =
      Row.of codec ((verdict S r d' m.now).row r d' m.polledAt m.completedAt) := by
  have hsame := h.inactivityAt r m.now
  unfold Row.after
  rcases overdue_cases S (Row.of codec r) d m.now with
    ⟨hdat, hover, hw, exc, hi⟩ | ⟨hdat, hw, i, hi, hlate, hover⟩ | ⟨hdat, hover, hi⟩
  · -- the tick ends
    rw [hover, hdat]
    rw [h.status] at hw
    cases hi' : Remediation.inactivityAt r d' m.now with
    | error exc' =>
      rw [verdict, if_pos hw, hi']
      rfl
    | ok i =>
      have hok := (hsame i).2 hi'
      rw [hi] at hok
      cases hok
  · rw [h.status] at hw
    rw [hover, verdict, if_pos hw, (hsame i).1 hi]
    dsimp only
    rw [if_pos hlate]
    rfl
  · have hin : InTime S r d' m.now := fun hw => by
      obtain ⟨i, hi, hle⟩ := hi (h.status ▸ hw)
      exact ⟨i, (hsame i).1 hi, hle⟩
    rw [hover, hdat, h.unstorable, hin.verdict_eq, ← h.written]
    rfl

/-- A documented answer ends the tick only if it cannot be dated. -/
theorem Documented.breaks (h : Documented codec d d') (row : Row) (t : Time) :
    d.breaks S row t = d'.undatable := by
  unfold SessionDetails.breaks
  rw [h.unstorable, Bool.or_false, ← h.undatable]
  rcases overdue_cases S row d t with ⟨hdat, hover, -⟩ | ⟨hdat, -⟩ | ⟨hdat, -⟩
  · rw [hdat, hover]
    rfl
  · rw [hdat, Bool.and_false]
  · rw [hdat, Bool.and_false]

end Row

/-! ## The tick -/

/-- `get_session` returns the same, typed, or raises in both. -/
def Agree (codec : Codec) (x : Except Exc Json) (y : Except Exc ApiSession) : Prop :=
  match x >>= fromApiResponse codec, y with
  | .error _, .error _ => True
  | .ok d, .ok data => Documented codec d (Remediation.fromApiResponse data)
  | _, _ => False

section Tick

variable {env : Outside} {S : Settings} {stored : ℕ → Cells} {w : World} {clock : ℕ → Moment}
  {resp : String → Except Exc Json} {resp' : String → Except Exc ApiSession} {r : SessionRow}

theorem answer_agree (h : ∀ x, Agree codec (resp x) (resp' x)) (r : SessionRow) :
    (answer codec resp (Row.of codec r) = none ∧
      ∀ x data, truthy r.devinSessionId = some x → resp' x ≠ .ok data) ∨
    ∃ x d data, truthy r.devinSessionId = some x ∧ resp' x = .ok data ∧
      answer codec resp (Row.of codec r) = some d ∧
      Documented codec d (Remediation.fromApiResponse data) := by
  have hid : (Row.of codec r).devinSessionId = r.devinSessionId := rfl
  unfold answer
  rw [hid]
  cases hx : truthy r.devinSessionId with
  | none => exact Or.inl ⟨rfl, fun _ _ h => by cases h⟩
  | some x =>
    have hagree := h x
    unfold Agree at hagree
    dsimp only
    cases hd : resp x >>= fromApiResponse codec with
    | error exc =>
      cases hdata : resp' x with
      | error exc' =>
        refine Or.inl ⟨rfl, fun y data hy => ?_⟩
        cases hy
        rw [hdata]
        rintro ⟨⟩
      | ok data =>
        rw [hd, hdata] at hagree
        cases hagree
    | ok d =>
      cases hdata : resp' x with
      | error exc' =>
        rw [hd, hdata] at hagree
        cases hagree
      | ok data =>
        rw [hd, hdata] at hagree
        exact Or.inr ⟨x, d, data, rfl, hdata, rfl, hagree⟩

theorem breaks_agree (h : ∀ x, Agree codec (resp x) (resp' x)) (clock : ℕ → Moment)
    (r : SessionRow) : (Row.of codec r).breaks codec S resp clock = r.breaks resp' := by
  unfold Row.breaks SessionRow.breaks
  rcases answer_agree h r with ⟨hans, hno⟩ | ⟨x, d, data, hx, hdata, hans, hd⟩
  · rw [hans]
    cases hx : truthy r.devinSessionId with
    | none => rfl
    | some x =>
      cases hdata : resp' x with
      | error exc => simp [hdata]
      | ok data => exact absurd hdata (hno x data hx)
  · rw [hans, hx]
    dsimp only
    rw [hdata]
    exact hd.breaks _ _

/-- What is stored in the two columns is what `Sessions` has of them. -/
def Stored (codec : Codec) (env : Outside) (S : Settings) (stored : ℕ → Cells) (w : World) : Prop :=
  ∀ r ∈ ((drainQueue S).eval (exec env) w).2.sessions.rows,
    (if r.id < w.sessions.next then stored r.id else {}) = Cells.of codec r

theorem found_rows (h : Stored codec env S stored w) :
    (found env S stored w).rows =
      ((drainQueue S).eval (exec env) w).2.sessions.rows.map (Row.of codec) := by
  refine List.map_congr_left fun r hr => ?_
  rw [h r hr]
  rfl

theorem reached_agree (hresp : ∀ x, Agree codec (resp x) (resp' x))
    (hstored : Stored codec env S stored w)
    (hr : r ∈ ((drainQueue S).eval (exec env) w).2.sessions.rows) :
    Reached codec S resp clock (found env S stored w) (Row.of codec r) ↔
      Served resp' ((drainQueue S).eval (exec env) w).2.sessions.listNonTerminal r := by
  rw [served_iff, and_iff_right hr, Reached, found_rows hstored, List.forall_mem_map]
  refine and_congr_right fun _ => forall₂_congr fun q hq => ?_
  have hne : Row.of codec q ≠ Row.of codec r ↔ q ≠ r :=
    not_congr ⟨fun he => Table.eq_of_id _ hq hr (congrArg (fun r => r.id) he), fun he => by rw [he]⟩
  rw [hne, breaks_agree hresp]
  rfl

/-- What the clock shows in a tick, at each row that it gets an answer about. -/
theorem exists_clock (env : Outside) (S : Settings) (w : World)
    (resp' : String → Except Exc ApiSession) :
    ∃ clock : ℕ → Moment, ∀ r ∈ ((drainQueue S).eval (exec env) w).2.sessions.rows,
      (∃ w₀, TickReaches (env.answering resp') S w r w₀) → ∀ x data,
        truthy r.devinSessionId = some x → resp' x = .ok data →
        ((Remediation.pollOnce S).eval (exec (env.answering resp')) w).2.sessions.get r.id =
          some ((verdict S r (Remediation.fromApiResponse data) (clock r.id).now).row r
            (Remediation.fromApiResponse data) (clock r.id).polledAt (clock r.id).completedAt) := by
  set drained := ((drainQueue S).eval (exec env) w).2.sessions
  have hclock : ∀ pk, ∃ m : Moment, ∀ r ∈ drained.rows, r.id = pk →
      (∃ w₀, TickReaches (env.answering resp') S w r w₀) → ∀ x data,
        truthy r.devinSessionId = some x → resp' x = .ok data →
        ((Remediation.pollOnce S).eval (exec (env.answering resp')) w).2.sessions.get r.id =
          some ((verdict S r (Remediation.fromApiResponse data) m.now).row r
            (Remediation.fromApiResponse data) m.polledAt m.completedAt) := by
    intro pk
    by_cases hpk : ∃ r ∈ drained.rows, r.id = pk ∧
        ∃ w₀ x data, TickReaches (env.answering resp') S w r w₀ ∧
          truthy r.devinSessionId = some x ∧ resp' x = .ok data
    · obtain ⟨r, hr, rfl, w₀, x, data, hreach, hx, hdata⟩ := hpk
      obtain ⟨⟨polledAt, t, -, -, hrow⟩, -⟩ := hreach.acts hx hdata
      refine ⟨⟨readAt (env.answering resp') w₀ x, polledAt, t⟩, ?_⟩
      intro q hq hid _ y data' hy hdata'
      -- it is the same row, with the same answer
      obtain rfl := drained.eq_of_id hq hr hid
      rw [hx] at hy
      cases hy
      rw [hdata] at hdata'
      cases hdata'
      exact hrow
    · refine ⟨⟨0, 0, 0⟩, fun r hr hid hreach x data hx hdata => absurd ?_ hpk⟩
      obtain ⟨w₀, hreach⟩ := hreach
      exact ⟨r, hr, hid, w₀, x, data, hreach, hx, hdata⟩
  choose clock hclock using hclock
  exact ⟨clock, fun r hr => hclock r.id r hr rfl⟩

/-- **To every tick with documented answers there is a clock with which the tick here makes the same
of every row.** -/
theorem pollOnce_documented (hresp : ∀ x, Agree codec (resp x) (resp' x))
    (hstored : Stored codec env S stored w) :
    ∃ clock, ∀ r ∈ ((drainQueue S).eval (exec env) w).2.sessions.rows, ∃ r',
      ((Remediation.pollOnce S).eval (exec (env.answering resp')) w).2.sessions.get r.id = some r' ∧
      (pollOnce codec env S stored resp clock w).2.get r.id = some (Row.of codec r') := by
  set drained := ((drainQueue S).eval (exec env) w).2.sessions
  obtain ⟨clock, hclock⟩ := exists_clock env S w resp'
  refine ⟨clock, fun r hr => ?_⟩
  have hmem : Row.of codec r ∈ (found env S stored w).rows := by
    rw [found_rows hstored]
    exact List.mem_map_of_mem hr
  have hturn : (∃ w₀, TickReaches (env.answering resp') S w r w₀) ↔ Connected env S w ∧
      Reached codec S resp clock (found env S stored w) (Row.of codec r) := by
    rw [reached_agree hresp hstored hr]
    exact tickReaches_iff
  have hfound : ((drainQueue S).eval (exec (env.answering resp')) w).2.sessions.get r.id =
      some r := by
    rw [eval_answering (unpolled_drainQueue (S := S) (h := [])) env resp' w]
    exact drained.get_eq_some.2 ⟨hr, rfl⟩
  by_cases hreach : ∃ w₀, TickReaches (env.answering resp') S w r w₀
  · obtain ⟨hc, hreached⟩ := hturn.1 hreach
    have hpolled := get_of_reached hc hmem hreached
    unfold Row.polled at hpolled
    rcases answer_agree hresp r with ⟨hans, hno⟩ | ⟨x, d, data, hx, hdata, hans, hd⟩
    · rw [hans] at hpolled
      exact ⟨r, get_of_unanswered hfound fun x data w₀ _ hx => hno x data hx, hpolled⟩
    · rw [hans] at hpolled
      refine ⟨_, hclock r hr hreach x data hx hdata, hpolled.trans ?_⟩
      exact congrArg some (hd.after r _)
  · refine ⟨r, get_of_unanswered hfound fun x data w₀ h => absurd ⟨w₀, h⟩ hreach, ?_⟩
    exact get_of_unreached hmem fun hc h => hreach (hturn.2 ⟨hc, h⟩)

end Tick

end Remediation.AnyAnswer
