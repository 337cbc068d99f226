import Remediation.Proof.Dispatch
import Remediation.Proof.Verdict

/-!
# Which rows a tick comes to

Where `get_session` gives a fixed answer about each session, a tick comes to the rows before which
no row ends it (`tickReaches_iff`): a row ends the tick if its session is at work and
`datetime.fromtimestamp` raises on its `updated_at`.
-/

namespace Remediation

open Interaction Prog

/-- `get_session` gives a fixed answer about each session. -/
def Outside.answering (env : Outside) (resp : String → Except Exc ApiSession) : Outside :=
  { env with getSession := fun _ => resp }

/-- The session is at work, and its `updated_at` is no time. -/
def SessionDetails.undatable (d : SessionDetails) : Bool :=
  (d.status = .pending || d.status = .running) && d.updatedAt.truthy &&
    (fromTimestamp d.updatedAt).isNone

/-- The tick ends at the row. -/
def SessionRow.breaks (resp : String → Except Exc ApiSession) (r : SessionRow) : Bool :=
  match PyText.truthy r.devinSessionId with
  | none => false
  | some x =>
    match resp x with
    | .error _ => false
    | .ok data => (fromApiResponse data).undatable

/-- No row before `r` ends the tick. -/
def Served (resp : String → Except Exc ApiSession) (rows : List SessionRow) (r : SessionRow) :
    Prop :=
  ∃ pre post, rows = pre ++ r :: post ∧ ∀ s ∈ pre, s.breaks resp = false

variable {env : Outside} {S : Settings} {w w₀ : World} {r : SessionRow}
  {resp : String → Except Exc ApiSession}

/-! ## Where a tick ends -/

theorem aborts_verdict (S : Settings) (r : SessionRow) (remote : SessionDetails) (t : Time) :
    (verdict S r remote t).aborts = remote.undatable := by
  unfold verdict inactivityAt SessionDetails.undatable
  by_cases hw : remote.status = .pending ∨ remote.status = .running
  · have hw' : (decide (remote.status = .pending) || decide (remote.status = .running)) = true := by
      simpa using hw
    rw [if_pos hw, hw', Bool.true_and]
    cases remote.updatedAt.truthy with
    | false =>
      simp only [Bool.false_eq_true, if_false, Bool.false_and]
      split
      · rfl
      · exact aborts_writeVerdict r remote
    | true =>
      simp only [if_true, Bool.true_and]
      cases fromTimestamp remote.updatedAt with
      | none => rfl
      | some updatedAt =>
        dsimp only
        split
        · rfl
        · exact aborts_writeVerdict r remote
  · have hw' : (decide (remote.status = .pending) || decide (remote.status = .running)) = false := by
      simpa using hw
    rw [if_neg hw, hw', aborts_writeVerdict]
    rfl

theorem isOk_pollRow (env : Outside) (resp : String → Except Exc ApiSession) (r : SessionRow)
    (summary : Summary) (w : World) :
    ((pollRow S summary r).eval (exec (env.answering resp)) w).1.isOk = !r.breaks resp := by
  unfold SessionRow.breaks
  cases hx : PyText.truthy r.devinSessionId with
  | none =>
    refine (eval_pollRow_skip (fun x hx' => ?_) summary).2.2
    rw [hx] at hx'
    cases hx'
  | some x =>
    dsimp only
    cases hget : resp x with
    | error exc =>
      refine (eval_pollRow_skip (fun y hy => ⟨exc, ?_⟩) summary).2.2
      rw [hx] at hy
      cases hy
      exact hget
    | ok data =>
      have hanswer : (exec (env.answering resp) (.getSession x) w).1 = .ok data := hget
      rw [(eval_pollRow hx hanswer summary).2, aborts_verdict]

/-- **A tick gets past exactly the rows that do not end it.** -/
theorem isOk_pollRows (env : Outside) (resp : String → Except Exc ApiSession)
    (rows : List SessionRow) (summary : Summary) (w : World) :
    ((pollRows S rows summary).eval (exec (env.answering resp)) w).1.isOk = true ↔
      ∀ r ∈ rows, r.breaks resp = false := by
  induction rows generalizing summary w with
  | nil => simp [pollRows, Except.isOk, Except.toBool]
  | cons r rest ih =>
    have hr := isOk_pollRow (S := S) env resp r summary w
    rw [pollRows, bind_eq, eval_bind, List.forall_mem_cons]
    cases hres : ((pollRow S summary r).eval (exec (env.answering resp)) w).1 with
    | error exc =>
      rw [hres] at hr
      have hb : r.breaks resp = true := by simpa [Except.isOk, Except.toBool] using hr
      simp [hb, Except.isOk, Except.toBool]
    | ok summary' =>
      rw [hres] at hr
      have hb : r.breaks resp = false := by simpa [Except.isOk, Except.toBool] using hr
      simp only [hb, true_and]
      exact ih summary' _

/-- The queue is drained in the same way whatever Devin says about sessions. -/
theorem eval_answering {α : Type} {Q : Hist → α → Prop} {p : M α} {h : Hist}
    (hp : p.Keeps unpolled Q h) (env : Outside) (resp : String → Except Exc ApiSession) (w : World) :
    p.eval (exec (env.answering resp)) w = p.eval (exec env) w := by
  induction p generalizing h w with
  | ret a => rfl
  | call op k ih =>
    have hexec : exec (env.answering resp) op w = exec env op w := by
      have hop : op.unpolled = true := hp.1
      cases op with
      | getSession x => cases hop
      | _ => rfl
    rw [eval_call, eval_call, hexec]
    exact ih _ (hp.2 _ trivial) _

/-- **The rows that a tick comes to.** -/
theorem tickReaches_iff : (∃ w₀, TickReaches (env.answering resp) S w r w₀) ↔
    (exec env .getClient ((drainQueue S).eval (exec env) w).2).1 = .ok () ∧
      Served resp ((drainQueue S).eval (exec env) w).2.sessions.listNonTerminal r := by
  unfold TickReaches
  rw [eval_answering (unpolled_drainQueue (S := S) (h := [])) env resp w]
  set drained := (drainQueue S).eval (exec env) w
  set listed := exec (env.answering resp) .listNonTerminal
    (exec (env.answering resp) .getClient drained.2).2
  have hok : ∀ pre, ((pollRows S pre drained.1).eval (exec (env.answering resp)) listed.2).1.isOk =
      true ↔ ∀ s ∈ pre, s.breaks resp = false :=
    fun pre => isOk_pollRows env resp pre drained.1 listed.2
  constructor
  · rintro ⟨w₀, hclient, pre, post, summary, hrows, hpre⟩
    refine ⟨hclient, pre, post, hrows, (hok pre).1 ?_⟩
    rw [hpre]
    rfl
  · rintro ⟨hclient, pre, post, hrows, hpre⟩
    have hpre' := (hok pre).2 hpre
    cases hres : ((pollRows S pre drained.1).eval (exec (env.answering resp)) listed.2).1 with
    | error exc =>
      rw [hres] at hpre'
      cases hpre'
    | ok summary => exact ⟨_, hclient, pre, post, summary, hrows, Prod.ext hres rfl⟩

/-- In terms of the order only: no active row that is polled before `r` ends the tick. -/
theorem served_iff {t : Sessions} :
    Served resp t.listNonTerminal r ↔ (r ∈ t.rows ∧ r.status.active = true) ∧
      ∀ s ∈ t.rows, s.status.active = true → s.PolledBefore r → s ≠ r → s.breaks resp = false := by
  constructor
  · rintro ⟨pre, post, hsplit, hpre⟩
    have hmem : r ∈ t.listNonTerminal := by rw [hsplit]; simp
    refine ⟨Sessions.mem_listNonTerminal.1 hmem, ?_⟩
    intro s hs hact hbefore hne
    exact hpre s ((Sessions.mem_listed_before hsplit).2 ⟨hs, hact, hbefore, hne⟩)
  · rintro ⟨hr, hpre⟩
    obtain ⟨pre, post, hsplit⟩ := List.append_of_mem (Sessions.mem_listNonTerminal.2 hr)
    refine ⟨pre, post, hsplit, ?_⟩
    intro s hs
    obtain ⟨hmem, hact, hbefore, hne⟩ := (Sessions.mem_listed_before hsplit).1 hs
    exact hpre s hmem hact hbefore hne

/-- Where no time passes, the clock shows the same all along. -/
theorem TickReaches.readAt_eq (hreach : TickReaches env S w r w₀) (h : ∀ n, env.elapse n = 0)
    (x : String) : readAt env w₀ x = w.now := by
  have hnow : ∀ (op : Op) (w : World), (exec env op w).2.now = w.now := fun op w => by
    rw [exec_now, h, Nat.cast_zero, add_zero]
  have heval : ∀ {α : Type} (p : M α) (w : World), (p.eval (exec env) w).2.now = w.now := by
    intro α p w
    induction p generalizing w with
    | ret a => rfl
    | call op k ih => exact (ih _ _).trans (hnow op w)
  obtain ⟨-, pre, post, summary, -, hpre⟩ := hreach
  have hw₀ := heval (pollRows S pre ((drainQueue S).eval (exec env) w).1)
    (exec env .listNonTerminal (exec env .getClient ((drainQueue S).eval (exec env) w).2).2).2
  rw [hpre, hnow, hnow, heval] at hw₀
  exact (hnow .now _).trans ((hnow _ _).trans hw₀)

namespace TwoAtWork

def session (id : ℕ) : SessionRow where
  id := id
  workKey := s!"issue:o/r:{id}:devin-security"
  devinSessionId := some s!"devin-{id}"
  triggerType := .cveIssue
  triggerRef := s!"https://github.com/o/r/issues/{id}"
  status := .running
  startedAt := 1000000 * id

def world : World where
  sessions := ⟨[session 1, session 2], 3, by decide, by decide, by decide⟩
  events := .empty
  now := 2000000

/-- Time stands still. -/
def outside : Outside := { Outside.calm with elapse := fun _ => 0 }

end TwoAtWork

end Remediation
