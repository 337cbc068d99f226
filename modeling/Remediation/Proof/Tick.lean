import Remediation.Proof.Effects

/-!
# A tick, row by row

A tick polls the rows of its snapshot one after the other, and writes to no row but the one
that it polls. So what becomes of a row is what the tick does when it comes to it
(`TickReaches`): nothing done about other rows before or after shows in it.
-/

namespace Remediation

open Interaction Prog

variable {env : Outside} {S : Settings} {w : World}

/-! ## Rows are polled one at a time -/

/-- What a tick does about the rows in `ids`: it updates them, and apart from that it neither
writes nor creates anything. -/
def polling (ids : List ℕ) : Contract Ans where
  pre _ op := (op.quiet = true ∧ op.logs = false) ∨ ∃ pk ∈ ids, ∃ u, op = .update pk u
  post _ _ _ := True

/-- Writes to no row but those in `ids`. -/
def touches (ids : List ℕ) : Contract Ans where
  pre _ op := op.writes = true → ∃ pk ∈ ids, ∃ u, op = .update pk u
  post _ _ _ := True

/-- A program that writes to no other row leaves the rest of the table alone. -/
theorem get_of_touches {α : Type} (env : Outside) (w : World) {p : M α} {ids : List ℕ}
    {Q : Hist → α → Prop} {h : Hist} (hp : p.Keeps (touches ids) Q h) {pk : ℕ} (hpk : pk ∉ ids) :
    (p.eval (exec env) w).2.sessions.get pk = w.sessions.get pk := by
  have hstep : ∀ (h' : Hist) (w' : World) (op : Op), w'.sessions.get pk = w.sessions.get pk →
      (touches ids).pre h' op → True → (exec env op w').2.sessions.get pk = w.sessions.get pk := by
    intro h' w' op hJ hpre _
    cases hop : op.writes with
    | false =>
      rw [exec_sessions hop]
      exact hJ
    | true =>
      obtain ⟨pk', hpk', u, rfl⟩ := hpre hop
      have hne : pk ≠ pk' := fun he => hpk (he ▸ hpk')
      rw [exec_update_sessions, Sessions.get_update, hJ]
      simp [hne]
  obtain ⟨-, hJ, -⟩ := eval_inv (R := fun _ _ _ _ => True)
    (J := fun _ w' => w'.sessions.get pk = w.sessions.get pk) (fun _ _ _ _ _ => trivial) hstep p hp
    rfl (along_true p w)
  exact hJ

section Polling

variable {ids : List ℕ} {h : Hist} {row : SessionRow} {x : String} {remote : SessionDetails}
  {α : Type} {Q : Hist → α → Prop}

/-- Anything but a write may come first. -/
theorem polling_call {op : Op} (hop : op.quiet = true) (hlog : op.logs = false) {k : Ans op → M α}
    (hk : ∀ a, (k a).Keeps (polling ids) Q (⟨op, a⟩ :: h)) :
    (Prog.call op k).Keeps (polling ids) Q h :=
  ⟨Or.inl ⟨hop, hlog⟩, fun a _ => hk a⟩

theorem polling_update (hrow : row.id ∈ ids) (u : Update) (v : α) :
    (Prog.call (.update row.id u) fun _ => .ret v).Keeps (polling ids) (fun _ _ => True) h :=
  ⟨Or.inr ⟨row.id, hrow, u, rfl⟩, fun _ _ => trivial⟩

theorem polling_writeBack (hrow : row.id ∈ ids) (summary : Summary) :
    (writeBack summary row x remote).Keeps (polling ids) (fun _ _ => True) h := by
  unfold writeBack
  simp only [perform, bind_eq, call_bind, ret_bind]
  apply polling_call rfl rfl
  intro t
  split
  · exact polling_update hrow _ _
  split
  · exact polling_call rfl rfl fun _ => polling_call rfl rfl fun _ => polling_update hrow _ _
  split
  · exact polling_call rfl rfl fun _ => polling_update hrow _ _
  split
  · exact polling_call rfl rfl fun _ => polling_update hrow _ _
  · exact polling_update hrow _ _

theorem polling_timeOut (hrow : row.id ∈ ids) (inactive : ℤ) :
    (timeOut row x inactive).Keeps (polling ids) (fun _ _ => True) h :=
  polling_call rfl rfl fun _ => polling_call rfl rfl fun _ => polling_call rfl rfl fun _ =>
    polling_update hrow _ ()

theorem polling_timeOutOrWriteBack (hrow : row.id ∈ ids) (summary : Summary) (inactive : ℤ) :
    (timeOutOrWriteBack S summary row x remote inactive).Keeps (polling ids) (fun _ _ => True) h := by
  unfold timeOutOrWriteBack
  split
  · exact (polling_timeOut hrow inactive).bind fun _ _ _ => trivial
  · exact polling_writeBack hrow summary

theorem polling_processAnswer (hrow : row.id ∈ ids) (summary : Summary) :
    (processAnswer S summary row x remote).Keeps (polling ids) (fun _ _ => True) h := by
  unfold processAnswer
  split
  · simp only [perform, bind_eq, call_bind, ret_bind]
    apply polling_call rfl rfl
    intro t
    split
    · trivial
    · exact (polling_timeOutOrWriteBack hrow _ _).bind fun _ _ _ => trivial
  · exact (polling_writeBack hrow _).bind fun _ _ _ => trivial

theorem polling_pollRow (hrow : row.id ∈ ids) (summary : Summary) :
    (pollRow S summary row).Keeps (polling ids) (fun _ _ => True) h := by
  unfold pollRow
  split
  · trivial
  simp only [perform, bind_eq, call_bind, ret_bind]
  apply polling_call rfl rfl
  intro answer
  cases answer with
  | error exc => trivial
  | ok data => exact polling_processAnswer hrow _

theorem polling_pollRows {rows : List SessionRow} (hrows : ∀ r ∈ rows, r.id ∈ ids)
    (summary : Summary) : (pollRows S rows summary).Keeps (polling ids) (fun _ _ => True) h := by
  induction rows generalizing h summary with
  | nil => trivial
  | cons row rest ih =>
    have hrest : ∀ r ∈ rest, r.id ∈ ids := fun r hr => hrows r (List.mem_cons_of_mem _ hr)
    unfold pollRows
    refine (polling_pollRow (hrows row List.mem_cons_self) summary).bind ?_
    intro h' result _
    cases result with
    | error exc => trivial
    | ok summary => exact ih hrest _

theorem touches_of_polling {p : M α} (hp : p.Keeps (polling ids) Q h) : p.Keeps (touches ids) Q h := by
  refine hp.weaken (fun _ op hop => ?_) fun _ _ _ _ => trivial
  rcases hop with ⟨hquiet, -⟩ | hupdate
  · intro hw
    rw [writes_of_quiet hquiet] at hw
    cases hw
  · exact fun _ => hupdate

/-- **A tick writes to the rows that it polls only.** -/
theorem touches_pollRows (rows : List SessionRow) (summary : Summary) :
    (pollRows S rows summary).Keeps (touches (rows.map (·.id))) (fun _ _ => True) h :=
  touches_of_polling (polling_pollRows (fun _ hr => List.mem_map.2 ⟨_, hr, rfl⟩) summary)

end Polling

/-! ## The tick and the row -/

/-- The sessions that an operation tells to stop. -/
def Op.terminates : Op → Option String
  | .terminateSession x => some x
  | _ => none

/-- How often `terminate_session` has been called for a session. -/
def terminateCount (x : String) (h : Hist) : ℕ := h.countP fun e => e.1.terminates = some x

/-- The tick that starts in `w` comes to the row `r` of its snapshot, and is then in `w₀`. -/
def TickReaches (env : Outside) (S : Settings) (w : World) (r : SessionRow) (w₀ : World) : Prop :=
  let drained := (drainQueue S).eval (exec env) w
  let connected := exec env .getClient drained.2
  let listed := exec env .listNonTerminal connected.2
  connected.1 = .ok () ∧ ∃ pre post summary, listed.1 = pre ++ r :: post ∧
    (pollRows S pre drained.1).eval (exec env) listed.2 = (.ok summary, w₀)

theorem terminateCount_eval {α : Type} (env : Outside) (p : M α) (x : String) (w : World) :
    terminateCount x w.trace ≤ terminateCount x (p.eval (exec env) w).2.trace := by
  obtain ⟨later, hl⟩ := trace_eval env p w
  rw [hl, terminateCount, terminateCount, List.countP_append]
  exact Nat.le_add_left _ _

theorem now_eval {α : Type} (env : Outside) (p : M α) (w : World) :
    w.now ≤ (p.eval (exec env) w).2.now := by
  induction p generalizing w with
  | ret a => exact le_rfl
  | call op k ih => exact (now_le op).trans (ih _ _)

theorem pollRows_append (pre post : List SessionRow) (summary : Summary) :
    pollRows S (pre ++ post) summary = (pollRows S pre summary).bind fun
      | .error exc => .ret (.error exc)
      | .ok summary => pollRows S post summary := by
  induction pre generalizing summary with
  | nil => rfl
  | cons row rest ih =>
    show (pollRow S summary row).bind _ = ((pollRow S summary row).bind _).bind _
    rw [bind_assoc]
    congr 1
    funext result
    cases result with
    | error exc => rfl
    | ok summary => exact ih summary

/-- Without room the drain only counts. -/
theorem eval_drainQueue_full (env : Outside)
    (hfull : S.maxConcurrentSessions ≤ w.sessions.countActive) :
    (drainQueue S).eval (exec env) w = ({}, (exec env .countActive w).2) := by
  have hactive : (exec env .countActive w).1 = w.sessions.countActive := rfl
  unfold drainQueue
  simp only [perform, bind_eq, call_bind, ret_bind, eval_call, hactive]
  rw [if_pos hfull]
  rfl

/-- With room it takes as many events from the queue, and dispatches them. -/
theorem eval_drainQueue_room (env : Outside)
    (hroom : w.sessions.countActive < S.maxConcurrentSessions) :
    let queued := exec env (.listQueued (S.maxConcurrentSessions - w.sessions.countActive))
      (exec env .countActive w).2
    (drainQueue S).eval (exec env) w =
      (retryQueued S queued.1 { queueSeen := queued.1.length }).eval (exec env) queued.2 := by
  have hactive : (exec env .countActive w).1 = w.sessions.countActive := rfl
  intro queued
  unfold drainQueue
  simp only [perform, bind_eq, call_bind, ret_bind, eval_call, hactive]
  rw [if_neg (by omega)]
  rfl

/-- **A tick** drains the queue, and then polls the rows of its snapshot, if there is a client. -/
theorem eval_pollOnce (env : Outside) (S : Settings) (w : World) :
    let drained := (drainQueue S).eval (exec env) w
    let connected := exec env .getClient drained.2
    let listed := exec env .listNonTerminal connected.2
    ((pollOnce S).eval (exec env) w).2 = match connected.1 with
      | .error _ => connected.2
      | .ok _ => ((pollRows S listed.1 drained.1).eval (exec env) listed.2).2 := by
  intro drained connected listed
  unfold pollOnce
  simp only [perform, bind_eq, call_bind, ret_bind, eval_bind, eval_call]
  change (Prog.eval (exec env) (match connected.1 with
    | .error exc => .ret (.error exc)
    | .ok _ => _ : M (Except Exc Summary)) connected.2).2 = _
  cases connected.1 with
  | error exc => rfl
  | ok _ => rfl

section Row

variable {r : SessionRow} {x : String} {data : ApiSession} {remote : SessionDetails} {w₀ : World}

/-- In a snapshot of the table, no other row has the primary key of a row. -/
theorem not_mem_of_snapshot {t : Sessions} {pre post : List SessionRow}
    (hrows : t.listNonTerminal = pre ++ r :: post) :
    r.id ∉ pre.map (·.id) ∧ r.id ∉ post.map (·.id) := by
  have hnd : ((pre ++ r :: post).map (·.id)).Nodup := by
    rw [← hrows]
    exact t.listNonTerminal_ids
  rw [List.map_append, List.map_cons, List.nodup_append, List.nodup_cons] at hnd
  obtain ⟨-, ⟨hpost, -⟩, hdisj⟩ := hnd
  exact ⟨fun h => hdisj _ h _ List.mem_cons_self rfl, hpost⟩

/-- The row is in the table once the queue has been drained. -/
theorem TickReaches.listed (h : TickReaches env S w r w₀) :
    ((drainQueue S).eval (exec env) w).2.sessions.get r.id = some r ∧ r.status.active = true := by
  obtain ⟨-, pre, post, summary, hrows, -⟩ := h
  set drained := ((drainQueue S).eval (exec env) w).2
  have hsnap : drained.sessions.listNonTerminal = pre ++ r :: post := hrows
  have hmem : r ∈ drained.sessions.listNonTerminal := by rw [hsnap]; simp
  obtain ⟨hrow, hact⟩ := Sessions.mem_listNonTerminal.1 hmem
  exact ⟨drained.sessions.get_eq_some.2 ⟨hrow, rfl⟩, hact⟩

/-- When the tick comes to a row, the row is in the table as in the snapshot. -/
theorem TickReaches.current (h : TickReaches env S w r w₀) :
    w₀.sessions.get r.id = some r ∧ r.status.active = true := by
  obtain ⟨hrow, hact⟩ := h.listed
  refine ⟨?_, hact⟩
  obtain ⟨-, pre, post, summary, hrows, hpre⟩ := h
  set connected := exec env .getClient ((drainQueue S).eval (exec env) w).2
  set listed := exec env .listNonTerminal connected.2
  have hsnap : connected.2.sessions.listNonTerminal = pre ++ r :: post := hrows
  -- the rows before it have been polled, which does not touch it
  have hkept := get_of_touches env listed.2 (touches_pollRows (S := S) (h := []) pre
    ((drainQueue S).eval (exec env) w).1) (not_mem_of_snapshot hsnap).1
  rw [hpre] at hkept
  exact hkept.trans hrow

theorem TickReaches.now_le (h : TickReaches env S w r w₀) : w.now ≤ w₀.now := by
  obtain ⟨-, pre, post, summary, -, hpre⟩ := h
  set drained := (drainQueue S).eval (exec env) w
  set listed := exec env .listNonTerminal (exec env .getClient drained.2).2
  have hqueue : w.now ≤ drained.2.now := now_eval env (drainQueue S) w
  have hread : drained.2.now ≤ listed.2.now :=
    (Remediation.now_le .getClient).trans (Remediation.now_le .listNonTerminal)
  have hrows : listed.2.now ≤ w₀.now := by
    have hle := now_eval env (pollRows S pre drained.1) listed.2
    rw [hpre] at hle
    exact hle
  exact (hqueue.trans hread).trans hrows

/-- What is left of the tick then: the row, and other rows. -/
theorem TickReaches.rest (h : TickReaches env S w r w₀) :
    ∃ post summary, r.id ∉ post.map (·.id) ∧
      ((pollOnce S).eval (exec env) w).2 = ((pollRows S (r :: post) summary).eval (exec env) w₀).2 := by
  obtain ⟨hclient, pre, post, summary, hrows, hpre⟩ := h
  set drained := (drainQueue S).eval (exec env) w with hdrained
  set connected := exec env .getClient drained.2 with hconn
  set listed := exec env .listNonTerminal connected.2 with hlisted
  have hsnap : connected.2.sessions.listNonTerminal = pre ++ r :: post := hrows
  refine ⟨post, summary, (not_mem_of_snapshot hsnap).2, ?_⟩
  rw [eval_pollOnce, ← hdrained, ← hconn, hclient]
  simp only
  rw [← hlisted, hrows, pollRows_append, eval_bind, hpre]

theorem TickReaches.terminateCount_le (h : TickReaches env S w r w₀) (x : String) :
    terminateCount x w.trace ≤ terminateCount x w₀.trace := by
  obtain ⟨-, pre, post, summary, -, hpre⟩ := h
  set drained := (drainQueue S).eval (exec env) w
  set listed := exec env .listNonTerminal (exec env .getClient drained.2).2 with hlisted
  have hqueue : terminateCount x w.trace ≤ terminateCount x drained.2.trace :=
    terminateCount_eval env (drainQueue S) x w
  have hread : terminateCount x listed.2.trace = terminateCount x drained.2.trace := by
    simp [hlisted, terminateCount, Op.terminates]
  have hrows : terminateCount x listed.2.trace ≤ terminateCount x w₀.trace := by
    have hle := terminateCount_eval env (pollRows S pre drained.1) x listed.2
    rw [hpre] at hle
    exact hle
  omega

/-- Polling the rows after a row takes back nothing of what has been done about it. -/
theorem pollRows_cons (env : Outside) {post : List SessionRow} (hpost : r.id ∉ post.map (·.id)) (x : String)
    (summary : Summary) (w : World) :
    let w₁ := ((pollRow S summary r).eval (exec env) w).2
    let w₂ := ((pollRows S (r :: post) summary).eval (exec env) w).2
    w₂.sessions.get r.id = w₁.sessions.get r.id ∧
      terminateCount x w₁.trace ≤ terminateCount x w₂.trace := by
  simp only [pollRows, bind_eq, eval_bind]
  split
  · -- the tick has ended at the row
    exact ⟨rfl, le_rfl⟩
  · exact ⟨get_of_touches env _ (touches_pollRows (h := []) post _) hpost, terminateCount_eval env _ x _⟩

end Row

end Remediation
