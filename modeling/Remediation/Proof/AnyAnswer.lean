import Remediation.Spec.AnyAnswer

/-!
# What a tick makes of any answer

An answer ends the tick where `datetime.fromtimestamp` raises on its `updated_at`, and where it is to be
written and has a status or a URL that SQLite does not take (`SessionDetails.breaks`). Otherwise it
leaves the row that `Row.after` gives. A tick polls the active rows before which no row breaks
(`get_of_reached`), and leaves all others alone (`get_of_unreached`).
-/

namespace Remediation

open Interaction PyText

/-- SQLite has a value for it. -/
def Json.storable : Json → Bool
  | .null | .bool _ | .float _ => true
  | .int i => -2 ^ 63 ≤ i ∧ i < 2 ^ 63
  | .str s => s.all fun c => c.isValidChar
  | .list _ | .dict _ => false

/-- A statement takes exactly these values, and the same as any of its parameters. -/
theorem bindValue_storable {x : Json} (h : x.storable = true) :
    ∃ v, ∀ param, bindValue param x = .ok v := by
  cases x with
  | int i => exact ⟨.integer i, fun _ => if_pos (of_decide_eq_true h)⟩
  | str s => exact ⟨.text s, fun _ => if_pos h⟩
  | float x => cases x <;> exact ⟨_, fun _ => rfl⟩
  | list elems => cases h
  | dict items => cases h
  | _ => exact ⟨_, fun _ => rfl⟩

theorem bindValue_unstorable {x : Json} (h : x.storable = false) (param : ℕ) :
    ∃ exc, bindValue param x = .error exc := by
  cases x with
  | int i => exact ⟨_, if_neg (of_decide_eq_false h)⟩
  | str s => exact ⟨_, if_neg (by rw [← Bool.not_eq_true] at h; exact h)⟩
  | list elems => exact ⟨_, rfl⟩
  | dict items => exact ⟨_, rfl⟩
  | _ => cases h

namespace AnyAnswer

/-! ## What there is to an answer -/

/-- The session is at work, and its `updated_at` is no time. -/
def SessionDetails.undatable (d : SessionDetails) : Bool :=
  (d.status = .pending || d.status = .running) && d.updatedAt.truthy &&
    (fromTimestamp (rawTime d.updatedAt)).isNone

/-- The raw status or the first URL cannot be written. -/
def SessionDetails.unstorable (d : SessionDetails) : Bool :=
  !d.rawStatus.storable || !(d.firstPrUrl.getD .null).storable

/-- The seconds without activity, if they are over the limit for a session at work. -/
def overdue (S : Settings) (row : Row) (d : SessionDetails) (t : Time) : Option ℤ :=
  if d.status = .pending ∨ d.status = .running then
    match inactivityAt row d t with
    | .error _ => none
    | .ok inactive =>
      if (S.sessionTimeoutSeconds : ℤ) * 1000000 < inactive then some (inactive / 1000000) else none
  else none

/-- What a column of type TEXT has after a value has been stored there. -/
def column (codec : Codec) (x : Json) : Option String :=
  match bindValue 0 x with
  | .ok v => asText codec v
  | .error _ => none

/-- The row has what would be written. -/
structure Row.Holds (codec : Codec) (row : Row) (d : SessionDetails) : Prop where
  status : d.status = row.status
  rawStatus : column codec d.rawStatus = row.rawStatus
  acus : realColumn d.acusConsumed = row.acus
  prUrl : ∀ url, d.firstPrUrl = some url → column codec url = row.prUrl
  prUrls : ∀ urls, d.prUrlsJson codec = some urls → row.prUrls = some urls
  structuredOutput : ∀ so, d.structuredOutputJson codec = some so →
    row.structuredOutputJson = some so

/-- There is nothing to write but times: the poller sees no difference, or it finds the first pull
request neither merged nor closed and writes what the row has. -/
def Row.Settled (codec : Codec) (row : Row) (d : SessionDetails) : Prop :=
  differs codec row d = false ∨
    (isText d.prState (some "merged") = false ∧ isText d.prState (some "closed") = false ∧
      row.Holds codec d)

/-- The answer ends the tick: the session has not timed out as far as can be told, and the answer cannot
be dated or cannot be stored. -/
def SessionDetails.breaks (S : Settings) (row : Row) (d : SessionDetails) (t : Time) : Bool :=
  (overdue S row d t).isNone && (d.undatable || d.unstorable)

/-- The answer changes nothing but times. -/
def Unmoved (codec : Codec) (S : Settings) (row : Row) (d : SessionDetails) (t : Time) : Prop :=
  overdue S row d t = none ∧ (d.undatable = true ∨ d.unstorable = true ∨ row.Settled codec d)

/-! ## The row after an answer -/

def timedOut (row : Row) (seconds : ℤ) (m : Moment) : Row :=
  { row with
    status := .timeout
    errorMessage := some s!"inactive for {seconds}s"
    completedAt := some m.completedAt
    lastPolledAt := some m.polledAt }

/-- All columns as the answer has them. -/
def mirrored (codec : Codec) (row : Row) (d : SessionDetails) (m : Moment) : Row :=
  { row with
    status := d.status
    rawStatus := column codec d.rawStatus
    acus := realColumn d.acusConsumed
    lastPolledAt := some m.polledAt
    prUrl := (d.firstPrUrl.map (column codec)).getD row.prUrl
    prUrls := (d.prUrlsJson codec).or row.prUrls
    structuredOutputJson := (d.structuredOutputJson codec).or row.structuredOutputJson }

def written (codec : Codec) (row : Row) (d : SessionDetails) (m : Moment) : Row :=
  if !differs codec row d then { row with lastPolledAt := some m.polledAt }
  else if isText d.prState (some "merged") ∧ row.status.terminal = false then
    { mirrored codec row d m with status := .completed, completedAt := some m.completedAt }
  else if isText d.prState (some "closed") ∧ row.status.terminal = false then
    { mirrored codec row d m with
      status := .cancelled
      errorMessage := some "pr_closed_without_merge"
      completedAt := some m.completedAt }
  else if d.status.terminal ∧ row.completedAt = none then
    { mirrored codec row d m with completedAt := some m.completedAt }
  else mirrored codec row d m

/-- The row after an answer, whether or not the tick goes on. -/
def Row.after (codec : Codec) (S : Settings) (row : Row) (d : SessionDetails) (m : Moment) : Row :=
  match overdue S row d m.now with
  | some seconds => timedOut row seconds m
  | none => if d.undatable || d.unstorable then row else written codec row d m

variable {codec : Codec} {S : Settings} {row : Row} {d : SessionDetails} {m : Moment} {t : Time}

theorem textColumn_storable {param : ℕ} {x : Option Json} (h : (x.getD .null).storable = true) :
    textColumn codec param x = .ok (x.map (column codec)) := by
  cases x with
  | none => rfl
  | some x =>
    obtain ⟨v, hv⟩ := bindValue_storable (x := x) h
    rw [textColumn, hv, Option.map_some, column, hv]
    rfl

theorem textColumn_unstorable (codec : Codec) (param : ℕ) {x : Option Json}
    (h : (x.getD .null).storable = false) : ∃ exc, textColumn codec param x = .error exc := by
  cases x with
  | none => cases h
  | some x =>
    obtain ⟨exc, hexc⟩ := bindValue_unstorable (x := x) h param
    exact ⟨exc, by rw [textColumn, hexc]; rfl⟩

/-- What has been read from a column of type TEXT can be written there. -/
theorem storable_of_isText {x : Json} {s : Option String} (h : isText x s = true) :
    x.storable = true := by
  cases x with
  | null => rfl
  | str p =>
    cases s with
    | none => cases h
    | some s =>
      have hp : p = pyStr s := of_decide_eq_true h
      rw [hp, Json.storable, List.all_eq_true]
      intro c hc
      obtain ⟨ch, -, rfl⟩ := List.mem_map.1 hc
      exact decide_eq_true ch.valid
  | _ => cases h

/-- An answer that is not written need not be stored. -/
theorem storable_of_same (h : differs codec row d = false) : d.unstorable = false := by
  simp only [differs, Bool.or_eq_false_iff, Bool.not_eq_false'] at h
  obtain ⟨⟨⟨⟨-, hraw⟩, hurl⟩, -⟩, -⟩ := h
  simp [SessionDetails.unstorable, storable_of_isText hraw, storable_of_isText hurl]

/-! ## The UPDATE -/

theorem bind_storable {u : Update} (hraw : (u.rawStatus.getD .null).storable = true)
    (hurl : (u.prUrl.getD .null).storable = true) :
    u.bind codec = .ok
      { status := u.status
        rawStatus := u.rawStatus.map (column codec)
        acus := u.acusConsumed.map realColumn
        lastPolledAt := u.lastPolledAt
        prUrl := u.prUrl.map (column codec)
        prUrls := u.prUrlsJson
        structuredOutputJson := u.structuredOutputJson
        completedAt := u.completedAt
        errorMessage := u.errorMessage } := by
  unfold Update.bind
  rw [textColumn_storable hraw, textColumn_storable hurl]
  rfl

theorem bind_unstorable {u : Update}
    (h : (u.rawStatus.getD .null).storable = false ∨ (u.prUrl.getD .null).storable = false) :
    ∃ exc, u.bind codec = .error exc := by
  unfold Update.bind
  cases hraw : (u.rawStatus.getD .null).storable with
  | false =>
    obtain ⟨exc, hexc⟩ := textColumn_unstorable codec 2 hraw
    exact ⟨exc, by rw [hexc]; rfl⟩
  | true =>
    obtain ⟨exc, hexc⟩ := textColumn_unstorable codec 5 (h.resolve_left (by simp [hraw]))
    exact ⟨exc, by rw [textColumn_storable hraw, hexc]; rfl⟩

/-- What the UPDATE for an answer in time has for the two columns that can fail. -/
theorem writeBack_of_differs (h : differs codec row d = true) :
    (writeBack codec row d m).rawStatus = some d.rawStatus ∧
      (writeBack codec row d m).prUrl = d.firstPrUrl := by
  unfold writeBack
  rw [h]
  simp only [Bool.not_true, Bool.false_eq_true, if_false]
  split_ifs <;> exact ⟨rfl, rfl⟩

theorem bind_writeBack (h : d.unstorable = false) :
    ∃ c, (writeBack codec row d m).bind codec = .ok c ∧ c.apply row = written codec row d m := by
  simp only [SessionDetails.unstorable, Bool.or_eq_false_iff, Bool.not_eq_false'] at h
  cases hd : differs codec row d with
  | false =>
    have hw : writeBack codec row d m = { lastPolledAt := m.polledAt } := by
      rw [writeBack, hd]
      rfl
    rw [hw]
    refine ⟨_, bind_storable rfl rfl, ?_⟩
    rw [written, hd]
    rfl
  | true =>
    obtain ⟨hraw, hurl⟩ := writeBack_of_differs (m := m) hd
    refine ⟨_, bind_storable (by rw [hraw]; exact h.1) (by rw [hurl]; exact h.2), ?_⟩
    unfold writeBack written
    rw [hd]
    simp only [Bool.not_true, Bool.false_eq_true, if_false]
    split_ifs <;> rfl

theorem bind_writeBack_unstorable (h : d.unstorable = true) :
    ∃ exc, (writeBack codec row d m).bind codec = .error exc := by
  cases hd : differs codec row d with
  | false =>
    rw [storable_of_same hd] at h
    cases h
  | true =>
    obtain ⟨hraw, hurl⟩ := writeBack_of_differs (m := m) hd
    refine bind_unstorable ?_
    rw [hraw, hurl, Option.getD_some]
    simpa only [SessionDetails.unstorable, Bool.or_eq_true, Bool.not_eq_true'] using h

theorem bind_timeOut (codec : Codec) (row : Row) (i : ℤ) (m : Moment) :
    ∃ c, (timeOut i m).bind codec = .ok c ∧ c.apply row = timedOut row (i / 1000000) m :=
  ⟨_, bind_storable rfl rfl, rfl⟩

/-! ## One answer -/

/-- **What the time has to do with an answer**: the inactivity cannot be computed, or it is over the
limit, or it is not or does not matter. -/
theorem overdue_cases (S : Settings) (row : Row) (d : SessionDetails) (t : Time) :
    (d.undatable = true ∧ overdue S row d t = none ∧
      (d.status = .pending ∨ d.status = .running) ∧ ∃ exc, inactivityAt row d t = .error exc) ∨
    (d.undatable = false ∧ (d.status = .pending ∨ d.status = .running) ∧
      ∃ i, inactivityAt row d t = .ok i ∧ (S.sessionTimeoutSeconds : ℤ) * 1000000 < i ∧
        overdue S row d t = some (i / 1000000)) ∨
    (d.undatable = false ∧ overdue S row d t = none ∧
      (d.status = .pending ∨ d.status = .running →
        ∃ i, inactivityAt row d t = .ok i ∧ i ≤ (S.sessionTimeoutSeconds : ℤ) * 1000000)) := by
  unfold overdue
  by_cases hw : d.status = .pending ∨ d.status = .running
  · have hw' : (decide (d.status = .pending) || decide (d.status = .running)) = true := by
      simpa using hw
    have hundatable : (∃ exc, inactivityAt row d t = .error exc) ↔ d.undatable = true := by
      unfold inactivityAt SessionDetails.undatable
      rw [hw', Bool.true_and]
      cases d.updatedAt.truthy with
      | false => simp
      | true => cases fromTimestamp (rawTime d.updatedAt) <;> simp
    rw [if_pos hw]
    cases hi : inactivityAt row d t with
    | error exc => exact Or.inl ⟨hundatable.1 ⟨exc, hi⟩, rfl, hw, exc, rfl⟩
    | ok i =>
      have hdat : d.undatable = false := by
        rw [← Bool.not_eq_true, ← hundatable, hi]
        rintro ⟨exc, ⟨⟩⟩
      by_cases hlate : (S.sessionTimeoutSeconds : ℤ) * 1000000 < i
      · exact Or.inr (Or.inl ⟨hdat, hw, i, rfl, hlate, if_pos hlate⟩)
      · exact Or.inr (Or.inr ⟨hdat, if_neg hlate, fun _ => ⟨i, rfl, not_lt.1 hlate⟩⟩)
  · refine Or.inr (Or.inr ⟨?_, if_neg hw, fun h => absurd h hw⟩)
    rw [not_or] at hw
    simp [SessionDetails.undatable, hw]

/-- **What becomes of an answer.** -/
theorem processAnswer_cases (codec : Codec) (S : Settings) (row : Row) (d : SessionDetails)
    (m : Moment) :
    (d.undatable = true ∧ overdue S row d m.now = none ∧
      ∃ exc, processAnswer codec S row d m = .error exc) ∨
    (d.undatable = false ∧ ∃ i, overdue S row d m.now = some (i / 1000000) ∧
      processAnswer codec S row d m = .ok (timeOut i m)) ∨
    (d.undatable = false ∧ overdue S row d m.now = none ∧
      processAnswer codec S row d m = .ok (writeBack codec row d m)) := by
  unfold processAnswer
  rcases overdue_cases S row d m.now with
    ⟨hdat, hover, hw, exc, hi⟩ | ⟨hdat, hw, i, hi, hlate, hover⟩ | ⟨hdat, hover, hi⟩
  · rw [if_pos hw, hi]
    exact Or.inl ⟨hdat, hover, exc, rfl⟩
  · rw [if_pos hw, hi]
    exact Or.inr (Or.inl ⟨hdat, i, hover, if_pos hlate⟩)
  · refine Or.inr (Or.inr ⟨hdat, hover, ?_⟩)
    split
    · rename_i hw
      obtain ⟨i, hi, hle⟩ := hi hw
      rw [hi]
      exact if_neg (not_lt.2 hle)
    · rfl

theorem processAnswer_breaks (codec : Codec) (h : d.breaks S row m.now = true) :
    ∃ exc, (processAnswer codec S row d m >>= (·.bind codec)) = .error exc := by
  unfold SessionDetails.breaks at h
  rcases processAnswer_cases codec S row d m with
    ⟨-, -, exc, hp⟩ | ⟨-, i, hover, hp⟩ | ⟨hdat, hover, hp⟩
  · exact ⟨exc, by rw [hp]; rfl⟩
  · rw [hover] at h
    cases h
  · rw [hdat, hover] at h
    rw [hp]
    exact bind_writeBack_unstorable h

theorem processAnswer_after (codec : Codec) (h : d.breaks S row m.now = false) :
    ∃ c, (processAnswer codec S row d m >>= (·.bind codec)) = .ok c ∧
      c.apply row = row.after codec S d m := by
  unfold SessionDetails.breaks at h
  unfold Row.after
  rcases processAnswer_cases codec S row d m with
    ⟨hdat, hover, -⟩ | ⟨-, i, hover, hp⟩ | ⟨hdat, hover, hp⟩
  · rw [hdat, hover] at h
    cases h
  · rw [hp, hover]
    exact bind_timeOut codec row i m
  · rw [hdat, hover] at h
    rw [hp, hover, hdat, Bool.false_or, if_neg (by rw [show d.unstorable = false from h]; simp)]
    exact bind_writeBack h

/-- Where the tick ends, the row stays as it is. -/
theorem after_breaks (h : d.breaks S row m.now = true) : row.after codec S d m = row := by
  simp only [SessionDetails.breaks, Bool.and_eq_true, Option.isNone_iff_eq_none] at h
  rw [Row.after, h.1]
  exact if_pos h.2

/-! ## The row without times -/

/-- The contents of a row, without the times that a tick writes: of a completion it is kept that
there is one. -/
def Row.timeless (r : Row) : Row :=
  { r with lastPolledAt := none, completedAt := r.completedAt.map fun _ => 0 }

theorem timeless_after (codec : Codec) {m' : Moment}
    (h : overdue S row d m.now = overdue S row d m'.now) :
    (row.after codec S d m).timeless = (row.after codec S d m').timeless := by
  unfold Row.after
  rw [← h]
  cases overdue S row d m.now with
  | some seconds => rfl
  | none =>
    dsimp only
    unfold written mirrored
    split_ifs <;> rfl

theorem working_of_overdue {n : ℤ} (h : overdue S row d t = some n) :
    d.status = .pending ∨ d.status = .running := by
  by_contra hw
  rw [overdue, if_neg hw] at h
  cases h

/-- A row in time shows no time-out. -/
theorem in_time_status (ha : row.status.active = true)
    (hw : d.status = .pending ∨ d.status = .running) :
    (if d.undatable || d.unstorable then row else written codec row d m).status ≠ .timeout := by
  have hrow : row.status ≠ .timeout := by
    intro he
    rw [he] at ha
    cases ha
  have hd : d.status ≠ .timeout := by
    rcases hw with h | h <;> rw [h] <;> decide
  unfold written mirrored
  split_ifs <;> simp [hrow, hd]

theorem or_eq_right_iff {α : Type} {a b : Option α} : a.or b = b ↔ ∀ x, a = some x → b = some x := by
  cases a with
  | none => simp
  | some x => simp [eq_comm]

theorem timeless_mirrored :
    (mirrored codec row d m).timeless = row.timeless ↔ row.Holds codec d := by
  constructor
  · intro h
    have hurl : (d.firstPrUrl.map (column codec)).getD row.prUrl = row.prUrl :=
      congrArg (fun r => r.prUrl) h
    refine ⟨congrArg (fun r => r.status) h, congrArg (fun r => r.rawStatus) h,
      congrArg (fun r => r.acus) h, fun url hu => ?_,
      or_eq_right_iff.1 (congrArg (fun r => r.prUrls) h),
      or_eq_right_iff.1 (congrArg (fun r => r.structuredOutputJson) h)⟩
    rw [hu] at hurl
    exact hurl
  · rintro ⟨hst, hraw, hacus, hurl, hurls, hso⟩
    have hurl' : (d.firstPrUrl.map (column codec)).getD row.prUrl = row.prUrl := by
      cases hu : d.firstPrUrl with
      | none => rfl
      | some url => exact hurl url hu
    unfold Row.timeless mirrored
    rw [hst, hraw, hacus, hurl', or_eq_right_iff.2 hurls, or_eq_right_iff.2 hso]

/-- **A row is as it was exactly if there is nothing new**: a row that is merged, closed or ended has a
status that no active row has. -/
theorem timeless_written (ha : row.status.active = true) :
    (written codec row d m).timeless = row.timeless ↔ row.Settled codec d := by
  have hterm : row.status.terminal = false := by rw [Status.terminal_eq, ha]; rfl
  have hmoved : ∀ {r : Row}, r.status.terminal = true → r.timeless ≠ row.timeless := by
    intro r hr h
    have hsame : r.status.terminal = row.status.terminal := congrArg (fun r => r.status.terminal) h
    rw [hr, hterm] at hsame
    cases hsame
  unfold Row.Settled written
  cases hd : differs codec row d with
  | false => exact iff_of_true rfl (Or.inl rfl)
  | true =>
    simp only [Bool.not_true, Bool.false_eq_true, if_false, Bool.true_eq_false, false_or, hterm,
      and_true]
    split_ifs with hm hc he
    · exact iff_of_false (hmoved rfl) (by simp [hm])
    · exact iff_of_false (hmoved rfl) (by simp [hc])
    · refine iff_of_false (hmoved he.1) fun h => ?_
      rw [h.2.2.status, hterm] at he
      cases he.1
    · rw [timeless_mirrored, Bool.not_eq_true] at *
      simp [hm, hc]

/-- The time that a row has been inactive for can be read off it. -/
theorem timedOut_injective {n k : ℤ} {m' : Moment}
    (h : (timedOut row n m).timeless = (timedOut row k m').timeless) : n = k := by
  have hmessage : s!"inactive for {n}s" = s!"inactive for {k}s" :=
    Option.some.inj (congrArg (fun r => r.errorMessage) h)
  have hl := congrArg String.toList hmessage
  simp only [toString, String.toList_append, List.append_cancel_left_eq,
    List.append_cancel_right_eq] at hl
  exact toString_int_injective (String.toList_injective hl)

/-- **What the clock has to do with it**: times aside, it is the time-out. -/
theorem timeless_after_iff {m' : Moment} (ha : row.status.active = true) :
    (row.after codec S d m).timeless = (row.after codec S d m').timeless ↔
      overdue S row d m.now = overdue S row d m'.now := by
  refine ⟨fun h => ?_, timeless_after codec⟩
  have hstatus := congrArg (fun r => r.status) h
  unfold Row.after at h hstatus
  cases hover : overdue S row d m.now with
  | none =>
    cases hover' : overdue S row d m'.now with
    | none => rfl
    | some n =>
      rw [hover, hover'] at hstatus
      exact absurd hstatus (in_time_status ha (working_of_overdue hover'))
  | some n =>
    cases hover' : overdue S row d m'.now with
    | none =>
      rw [hover, hover'] at hstatus
      exact absurd hstatus.symm (in_time_status ha (working_of_overdue hover))
    | some n' =>
      rw [hover, hover'] at h
      rw [timedOut_injective h]

theorem timeless_after_same (ha : row.status.active = true) :
    (row.after codec S d m).timeless = row.timeless ↔ Unmoved codec S row d m.now := by
  unfold Unmoved Row.after
  cases hover : overdue S row d m.now with
  | some n =>
    refine iff_of_false (fun h => ?_) (by simp)
    have hst : Status.timeout = row.status := congrArg (fun r => r.status) h
    rw [← hst] at ha
    cases ha
  | none =>
    simp only [true_and]
    split_ifs with hbad
    · rw [Bool.or_eq_true] at hbad
      exact iff_of_true rfl (hbad.imp_right Or.inl)
    · rw [Bool.not_eq_true, Bool.or_eq_false_iff] at hbad
      rw [timeless_written ha, hbad.1, hbad.2]
      simp

/-! ## The rows, one after the other -/

section Rows

variable {resp : String → Except Exc Json} {clock : ℕ → Moment} {rows pre post : List Row}
  {t t' : Rows} {r q : Row}

/-- The tick ends at the row. -/
def Row.breaks (codec : Codec) (S : Settings) (resp : String → Except Exc Json)
    (clock : ℕ → Moment) (r : Row) : Bool :=
  match answer codec resp r with
  | none => false
  | some d => d.breaks S r (clock r.id).now

/-- The row when the poller is done with it. -/
def Row.polled (codec : Codec) (S : Settings) (resp : String → Except Exc Json)
    (clock : ℕ → Moment) (r : Row) : Row :=
  match answer codec resp r with
  | none => r
  | some d => r.after codec S d (clock r.id)

theorem polled_of_breaks (h : r.breaks codec S resp clock = true) :
    r.polled codec S resp clock = r := by
  unfold Row.breaks at h
  unfold Row.polled
  cases hd : answer codec resp r with
  | none => rfl
  | some d =>
    rw [hd] at h
    exact after_breaks h

theorem pollRow_breaks (h : r.breaks codec S resp clock = true) (t : Rows) :
    ∃ exc, pollRow codec S resp clock r t = .error exc := by
  unfold Row.breaks at h
  unfold pollRow
  cases hd : answer codec resp r with
  | none =>
    rw [hd] at h
    cases h
  | some d =>
    rw [hd] at h
    obtain ⟨exc, hexc⟩ := processAnswer_breaks codec h
    refine ⟨exc, ?_⟩
    dsimp only
    rw [← bind_assoc, hexc]
    rfl

/-- **What is done about one row.** -/
theorem pollRow_ok (h : r.breaks codec S resp clock = false) (hr : t.get r.id = some r) :
    ∃ t', pollRow codec S resp clock r t = .ok t' ∧
      t'.get r.id = some (r.polled codec S resp clock) := by
  unfold Row.breaks at h
  unfold pollRow Row.polled
  cases hd : answer codec resp r with
  | none => exact ⟨t, rfl, hr⟩
  | some d =>
    rw [hd] at h
    obtain ⟨c, hc, happly⟩ := processAnswer_after codec h
    refine ⟨t.update r.id c, ?_, ?_⟩
    · dsimp only
      rw [← bind_assoc, hc]
      rfl
    · rw [Rows.get_update, hr, Option.map_some, if_pos rfl, happly]

/-- The other rows are left alone. -/
theorem get_pollRow {pk : ℕ} (h : pollRow codec S resp clock r t = .ok t') (hpk : pk ≠ r.id) :
    t'.get pk = t.get pk := by
  unfold pollRow at h
  cases hd : answer codec resp r with
  | none =>
    rw [hd] at h
    cases h
    rfl
  | some d =>
    rw [hd] at h
    dsimp only at h
    rw [← bind_assoc] at h
    cases hc : processAnswer codec S r d (clock r.id) >>= (·.bind codec) with
    | error exc =>
      rw [hc] at h
      cases h
    | ok c =>
      rw [hc] at h
      cases h
      rw [Rows.get_update]
      simp [hpk]

theorem get_pollRows_of_not_mem {pk : ℕ} (hpk : pk ∉ rows.map fun q => q.id) (t : Rows) :
    (pollRows codec S resp clock rows t).2.get pk = t.get pk := by
  induction rows generalizing t with
  | nil => rfl
  | cons q rest ih =>
    rw [List.map_cons, List.mem_cons, not_or] at hpk
    rw [pollRows]
    cases hq : pollRow codec S resp clock q t with
    | error exc => rfl
    | ok t' => exact (ih hpk.2 t').trans (get_pollRow hq hpk.1)

/-- **What the poller makes of a row**, if there is none before it that ends the tick. -/
theorem get_pollRows (hnd : ((pre ++ r :: post).map fun q => q.id).Nodup)
    (hcur : ∀ q ∈ pre ++ r :: post, t.get q.id = some q) :
    (pollRows codec S resp clock (pre ++ r :: post) t).2.get r.id =
      some (if pre.any (Row.breaks codec S resp clock) then r else r.polled codec S resp clock) := by
  induction pre generalizing t with
  | nil =>
    rw [List.nil_append] at hcur hnd ⊢
    have hr := hcur r List.mem_cons_self
    rw [pollRows]
    cases hb : r.breaks codec S resp clock with
    | true =>
      obtain ⟨exc, hexc⟩ := pollRow_breaks hb t
      rw [hexc]
      simpa [polled_of_breaks hb] using hr
    | false =>
      obtain ⟨t', ht', hpolled⟩ := pollRow_ok hb hr
      rw [List.map_cons, List.nodup_cons] at hnd
      rw [ht']
      exact (get_pollRows_of_not_mem hnd.1 t').trans hpolled
  | cons q pre ih =>
    rw [List.cons_append] at hcur hnd ⊢
    rw [List.map_cons, List.nodup_cons] at hnd
    obtain ⟨hq, hnd⟩ := hnd
    rw [pollRows]
    cases hb : q.breaks codec S resp clock with
    | true =>
      obtain ⟨exc, hexc⟩ := pollRow_breaks hb t
      rw [hexc]
      simpa [hb] using hcur r (by simp)
    | false =>
      obtain ⟨t', ht', -⟩ := pollRow_ok hb (hcur q List.mem_cons_self)
      rw [ht']
      -- the rows to come are in the table as they were listed
      have hcur' : ∀ p ∈ pre ++ r :: post, t'.get p.id = some p := fun p hp => by
        rw [get_pollRow ht' fun he => hq (List.mem_map.2 ⟨p, hp, he⟩)]
        exact hcur p (List.mem_cons_of_mem _ hp)
      simpa [hb] using ih hnd hcur'

end Rows

/-! ## The tick -/

section Tick

variable {env : Outside} {stored : ℕ → Cells} {resp : String → Except Exc Json} {clock : ℕ → Moment}
  {w : World} {t : Rows} {r q : Row}

/-- There is a client for the tick. -/
def Connected (env : Outside) (S : Settings) (w : World) : Prop :=
  (exec env .getClient ((drainQueue S).eval (exec env) w).2).1 = .ok ()

/-- A row whose turn comes: it is active, and no active row before it ends the tick. -/
def Reached (codec : Codec) (S : Settings) (resp : String → Except Exc Json) (clock : ℕ → Moment)
    (t : Rows) (r : Row) : Prop :=
  r.status.active = true ∧ ∀ q ∈ t.rows, q.status.active = true → q.PolledBefore r → q ≠ r →
    q.breaks codec S resp clock = false

instance : IsTrans Row Row.PolledBefore := ⟨fun _ _ _ => le_trans⟩

instance : Std.Total Row.PolledBefore :=
  ⟨fun r s => le_total r.toSessionRow.pollKey s.toSessionRow.pollKey⟩

theorem mem_listNonTerminal : r ∈ listNonTerminal t ↔ r ∈ t.rows ∧ r.status.active = true := by
  rw [listNonTerminal, (List.perm_insertionSort _ _).mem_iff, List.mem_filter]

theorem nodup_listNonTerminal (t : Rows) : ((listNonTerminal t).map fun r => r.id).Nodup := by
  have hp := (List.perm_insertionSort Row.PolledBefore
    (t.rows.filter fun r => r.status.active)).map fun r => r.id
  exact hp.nodup_iff.2 (t.ids.sublist (List.filter_sublist.map _))

theorem mem_listed_before {pre post : List Row} (h : listNonTerminal t = pre ++ r :: post) :
    q ∈ pre ↔ q ∈ t.rows ∧ q.status.active = true ∧ q.PolledBefore r ∧ q ≠ r := by
  have hnd : (t.rows.filter fun r => r.status.active).Nodup :=
    (List.Nodup.of_map _ t.ids).filter _
  have hanti : ∀ b ∈ t.rows.filter (fun r => r.status.active),
      ∀ c ∈ t.rows.filter (fun r => r.status.active), b.PolledBefore c → c.PolledBefore b → b = c :=
    fun b hb c hc hbc hcb => t.eq_of_id (List.mem_of_mem_filter hb) (List.mem_of_mem_filter hc)
      (SessionRow.PolledBefore.antisymm hbc hcb)
  rw [mem_before_iff hnd hanti h, List.mem_filter, and_assoc]

theorem pollOnce_rows (h : Connected env S w) :
    (pollOnce codec env S stored resp clock w).2 =
      (pollRows codec S resp clock (listNonTerminal (found env S stored w)) (found env S stored w)).2 := by
  unfold pollOnce
  dsimp only
  rw [show (exec env .getClient ((drainQueue S).eval (exec env) w).2).1 = .ok () from h]

theorem any_breaks {pre post : List Row} (h : listNonTerminal t = pre ++ r :: post) :
    pre.any (Row.breaks codec S resp clock) = false ↔ Reached codec S resp clock t r := by
  have hr := (mem_listNonTerminal (t := t) (r := r)).1 (by rw [h]; simp)
  rw [List.any_eq_false]
  constructor
  · intro hpre
    refine ⟨hr.2, fun q hq ha hbefore hne => ?_⟩
    simpa using hpre q ((mem_listed_before h).2 ⟨hq, ha, hbefore, hne⟩)
  · rintro ⟨-, hreach⟩ q hq
    obtain ⟨hmem, ha, hbefore, hne⟩ := (mem_listed_before h).1 hq
    simp [hreach q hmem ha hbefore hne]

theorem get_found (hr : r ∈ t.rows) : t.get r.id = some r := t.get_eq_some.2 ⟨hr, rfl⟩

/-- A listed row, by whether the rows before it end the tick. -/
theorem get_pollOnce_listed {pre post : List Row} (hc : Connected env S w)
    (h : listNonTerminal (found env S stored w) = pre ++ r :: post) :
    (pollOnce codec env S stored resp clock w).2.get r.id =
      some (if pre.any (Row.breaks codec S resp clock) then r else r.polled codec S resp clock) := by
  have hnd := nodup_listNonTerminal (found env S stored w)
  rw [pollOnce_rows hc, h]
  rw [h] at hnd
  refine get_pollRows hnd fun q hq => get_found ?_
  rw [← h] at hq
  exact (mem_listNonTerminal.1 hq).1

/-- **A row whose turn comes is polled.** -/
theorem get_of_reached (hc : Connected env S w) (hr : r ∈ (found env S stored w).rows)
    (h : Reached codec S resp clock (found env S stored w) r) :
    (pollOnce codec env S stored resp clock w).2.get r.id =
      some (r.polled codec S resp clock) := by
  obtain ⟨pre, post, hsplit⟩ := List.append_of_mem (mem_listNonTerminal.2 ⟨hr, h.1⟩)
  rw [get_pollOnce_listed hc hsplit, (any_breaks hsplit).2 h]
  rfl

/-- **Any other row is left alone.** -/
theorem get_of_unreached (hr : r ∈ (found env S stored w).rows)
    (h : Connected env S w → ¬Reached codec S resp clock (found env S stored w) r) :
    (pollOnce codec env S stored resp clock w).2.get r.id = some r := by
  by_cases hc : Connected env S w
  · by_cases ha : r.status.active = true
    · obtain ⟨pre, post, hsplit⟩ := List.append_of_mem (mem_listNonTerminal.2 ⟨hr, ha⟩)
      have hany : pre.any (Row.breaks codec S resp clock) = true := by
        rw [← Bool.not_eq_false, any_breaks hsplit]
        exact h hc
      rw [get_pollOnce_listed hc hsplit, hany]
      rfl
    · -- it is not listed
      rw [pollOnce_rows hc, get_pollRows_of_not_mem fun hids => ?_]
      · exact get_found hr
      · obtain ⟨q, hq, hid⟩ := List.mem_map.1 hids
        obtain ⟨hmem, hact⟩ := mem_listNonTerminal.1 hq
        rw [Table.eq_of_id _ hmem hr hid] at hact
        exact ha hact
  · unfold pollOnce
    dsimp only
    cases hclient : (exec env .getClient ((drainQueue S).eval (exec env) w).2).1 with
    | error exc => exact get_found hr
    | ok _ => exact absurd hclient hc

end Tick

end AnyAnswer

end Remediation
