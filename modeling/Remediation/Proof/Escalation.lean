import Remediation.Proof.Absorbing
import Remediation.Proof.Serial

/-!
# Escalation

`_escalate_to_human` marks the parent `needs_attention`, which is also what keeps a
second escalation away. But the poller goes on writing Devin's status to the row. Along
serial runs in which no answer of Devin does so (`LeftAlone`), an escalated row keeps its
mark and gets one comment at most (`escalated_once`). Devin's usual report, that the
session has ended, removes the mark and lets the next CI failure escalate again
(`tick_undoes_escalation`).
-/

namespace Remediation

open Interaction

/-- The row whose escalation an operation announces on its PR. -/
def Op.comments : Op → Option ℕ
  | .postPrComment pk _ _ _ => some pk
  | _ => none

/-- How often an escalation of the row `pk` has been announced. -/
def commentCount (pk : ℕ) (h : Hist) : ℕ := h.countP fun e => e.1.comments = some pk

/-- What Devin reports about a session. -/
def reported : (op : Op) → Ans op → Option (String × ApiSession)
  | .getSession x, .ok data => some (x, data)
  | _, _ => none

/-- The report leaves a row that needs attention as it is: the status is one that the
client does not know, and no pull request that is merged or closed comes with a change. -/
def Leaves (r : SessionRow) (remote : SessionDetails) : Prop :=
  remote.status = .needsAttention ∧
    (r.differs remote = true → remote.prState ≠ some "merged" ∧ remote.prState ≠ some "closed")

instance (r : SessionRow) (remote : SessionDetails) : Decidable (Leaves r remote) :=
  inferInstanceAs (Decidable (_ ∧ (_ → _)))

/-- The write with which `_escalate_to_human` cancels a child. -/
def Update.cancelsChild (u : Update) : Bool := u.status = some .cancelled && u.rawStatus.isNone

/-- Escalated rows are left alone: every report about the session of one leaves it as it is,
and none is cancelled as the child of another. -/
def LeftAlone (_ : Hist) (w : World) (op : Op) (a : Ans op) : Prop :=
  (∀ p ∈ reported op a, ∀ r ∈ w.sessions.rows, r.devinSessionId = some p.1 →
    0 < escalationCount r.id w.trace → Leaves r (fromApiResponse p.2)) ∧
  ∀ x ∈ op.updates, x.2.cancelsChild = true → escalationCount x.1 w.trace = 0

instance (h : Hist) (w : World) (op : Op) (a : Ans op) : Decidable (LeftAlone h w op a) :=
  inferInstanceAs (Decidable ((∀ p ∈ reported op a, ∀ r ∈ w.sessions.rows,
    r.devinSessionId = some p.1 → 0 < escalationCount r.id w.trace → Leaves r (fromApiResponse p.2)) ∧
    ∀ x ∈ op.updates, x.2.cancelsChild = true → escalationCount x.1 w.trace = 0))

variable {env : Outside} {S : Settings} {w : World} {h : Hist}

/-- Between tasks: a row is announced no more often than it is escalated, escalated once at
most, and once escalated it needs attention. -/
def EscalatedOnce (w : World) : Prop :=
  ∀ pk, commentCount pk w.trace ≤ escalationCount pk w.trace ∧ escalationCount pk w.trace ≤ 1 ∧
    (0 < escalationCount pk w.trace → w.sessions.statusOf pk = some .needsAttention)

/-- Inside a task: one announcement may still be due, and what Devin has last said about an
escalated row leaves it as it is. -/
structure Escalating (h : Hist) (w : World) : Prop where
  announced : ∀ pk, commentCount pk w.trace + (if announcing h = some pk then 1 else 0) ≤
    escalationCount pk w.trace
  once : ∀ pk, escalationCount pk w.trace ≤ 1
  marked : ∀ pk, 0 < escalationCount pk w.trace → w.sessions.statusOf pk = some .needsAttention
  leaves : ∀ x data, answered x h = some data → ∀ r ∈ w.sessions.rows, r.devinSessionId = some x →
    0 < escalationCount r.id w.trace → Leaves r (fromApiResponse data)

theorem commentCount_exec (op : Op) (pk : ℕ) :
    commentCount pk (exec env op w).2.trace =
      (if op.comments = some pk then 1 else 0) + commentCount pk w.trace := by
  rw [exec_trace, commentCount, List.countP_cons, Nat.add_comm]
  simp [commentCount]

/-- What a permitted UPDATE does to a row that has been escalated and left alone: nothing
that shows in its status, and it is no second escalation. -/
theorem update_escalated (hJ : Escalating h w) (hC : Current h w) {pk : ℕ} {u : Update}
    (hp : Permits S h (.update pk u)) (hR : LeftAlone h w (.update pk u) ())
    (he : 0 < escalationCount pk w.trace) :
    u.escalates = false ∧ (u.status = none ∨ u.status = some .needsAttention) := by
  have hst := hJ.marked pk he
  cases hp with
  | quiet hop => cases hop
  | fail hh =>
    -- a reserved row has not been escalated
    obtain ⟨t, ht⟩ := hC.heldRow _ hh
    rw [Sessions.statusOf, ht] at hst
    cases hst
  | activate hj =>
    obtain ⟨res, t, ht⟩ := hC.spawnedRow _ _ hj
    rw [Sessions.statusOf, ht] at hst
    cases hst
  | escalate _ hm _ hterm =>
    -- the parent has just been read, and was terminal
    have hf := hC.chosenRow _ _ (chosen_of_counted hm)
    rw [statusOf_of_mem (Sessions.mem_of_findByPr hf).1] at hst
    cases Option.some.inj hst ▸ hterm
  | cancelChild _ _ _ _ =>
    exact absurd (hR.2 (_, _) rfl rfl) (Nat.pos_iff_ne_zero.1 he)
  | poll _ hs hact hx hd hu =>
    -- the poller mirrors a report that leaves the row as it is
    have hrow := hC.seenRow _ _ hs
    have hmem := (w.sessions.get_eq_some.1 hrow).1
    obtain ⟨hna, hpr⟩ := hJ.leaves _ _ hd _ hmem hx he
    cases hu with
    | timedOut _ _ _ hst' _ => rw [hna] at hst'; simp at hst'
    | unchanged => exact ⟨rfl, Or.inl rfl⟩
    | merged _ _ hdiff hm _ => exact absurd hm (hpr hdiff).1
    | closed _ _ hdiff hc => exact absurd hc (hpr hdiff).2
    | ended _ _ _ _ _ ht _ => rw [hna] at ht; cases ht
    | mirrored _ _ _ _ _ =>
      exact ⟨pollUpdate_escalates _ _, Or.inr (by rw [pollUpdate, hna])⟩

/-- Only an existing row is escalated. -/
theorem exists_of_escalates (hC : Current h w) {pk : ℕ} {u : Update}
    (hp : Permits S h (.update pk u)) (hu : u.escalates = true) :
    ∃ s, w.sessions.statusOf pk = some s := by
  cases hp with
  | quiet hop => cases hop
  | fail _ => cases hu
  | activate _ => cases hu
  | escalate _ hm _ _ =>
    have hf := hC.chosenRow _ _ (chosen_of_counted hm)
    exact ⟨_, statusOf_of_mem (Sessions.mem_of_findByPr hf).1⟩
  | cancelChild _ _ _ _ => cases hu
  | poll _ hs _ _ _ _ => exact ⟨_, by rw [Sessions.statusOf, hC.seenRow _ _ hs]; rfl⟩

theorem escalating_update (hJ : Escalating h w) (hC : Current h w) {pk : ℕ} {u : Update}
    (hp : Permits S h (.update pk u)) (hR : LeftAlone h w (.update pk u) ()) :
    Escalating (⟨.update pk u, ()⟩ :: h) (exec env (.update pk u) w).2 := by
  have hesc : ∀ pk', escalationCount pk' (exec env (.update pk u) w).2.trace =
      (if u.escalates = true ∧ pk = pk' then 1 else 0) + escalationCount pk' w.trace := by
    intro pk'
    rw [escalationCount_exec]
    cases hu : u.escalates <;> simp [Op.escalates, hu]
  have hcom : ∀ pk',
      commentCount pk' (exec env (.update pk u) w).2.trace = commentCount pk' w.trace := by
    intro pk'
    rw [commentCount_exec]
    simp [Op.comments]
  -- an escalation is the first one of its row
  have hfirst : u.escalates = true → escalationCount pk w.trace = 0 := by
    intro hu
    by_contra hne
    obtain ⟨hno, -⟩ := update_escalated hJ hC hp hR (Nat.pos_of_ne_zero hne)
    rw [hu] at hno
    cases hno
  refine ⟨?_, ?_, ?_, fun _ _ h => by cases h⟩
  · intro pk'
    have hold := hJ.announced pk'
    rw [hesc, hcom]
    simp only [announcing]
    by_cases hu : u.escalates = true
    · by_cases hpk : pk = pk'
      · -- the announcement of this escalation is due now
        subst hpk
        have hzero := hfirst hu
        simp only [hu, if_true, and_self]
        omega
      · simp only [hu, hpk, if_true, Option.some.injEq, if_false, and_false]
        omega
    · simpa [hu] using hold
  · intro pk'
    have hold := hJ.once pk'
    rw [hesc]
    split
    · rename_i hu
      have hzero := hfirst hu.1
      rw [hu.2] at hzero
      omega
    · omega
  · intro pk' hpos
    rw [exec_update_sessions, statusOf_update]
    rw [hesc] at hpos
    by_cases hpk : pk' = pk
    swap
    · have hpos' : 0 < escalationCount pk' w.trace := by simpa [Ne.symm hpk] using hpos
      rw [hJ.marked pk' hpos']
      simp [hpk]
    subst hpk
    by_cases hold : 0 < escalationCount pk' w.trace
    · -- escalated before, and left alone by this write
      obtain ⟨-, hst⟩ := update_escalated hJ hC hp hR hold
      rw [hJ.marked pk' hold]
      rcases hst with hst | hst <;> simp [hst]
    · -- escalated by this write
      have hu : u.escalates = true := by
        by_contra hno
        simp [hno, hold] at hpos
      obtain ⟨s, hs⟩ := exists_of_escalates hC hp hu
      have hst : u.status = some .needsAttention := by
        simp only [Update.escalates, Bool.and_eq_true, decide_eq_true_eq] at hu
        exact hu.1.1
      simp [hs, hst]

/-- Anything but an UPDATE announces at most what is due. -/
theorem announced_exec {op : Op} (hJ : Escalating h w) (hp : Permits S h op)
    (hop : ∀ pk u, op ≠ .update pk u) (pk : ℕ) :
    commentCount pk (exec env op w).2.trace +
      (if announcing (⟨op, (exec env op w).1⟩ :: h) = some pk then 1 else 0) ≤
        escalationCount pk w.trace := by
  have hold := hJ.announced pk
  rw [commentCount_exec]
  cases op with
  | postPrComment pk' repo number body =>
    have hdue : announcing h = some pk' := by
      cases hp with
      | quiet hop => cases hop
      | comment _ ha => exact ha
    rw [hdue] at hold
    simpa [announcing, Op.comments, Nat.add_comm] using hold
  | update pk' u => exact absurd rfl (hop pk' u)
  | _ =>
    show _ + (if announcing h = some pk then 1 else 0) ≤ _
    simpa [Op.comments] using hold

/-- What Devin has last said about an escalated row leaves it as it is. -/
theorem leaves_exec {op : Op} (hJ : Escalating h w) (hR : LeftAlone h w op (exec env op w).1)
    {x : String} {data : ApiSession}
    (hx : answered x (⟨op, (exec env op w).1⟩ :: h) = some data) {r : SessionRow}
    (hr : r ∈ (exec env op w).2.sessions.rows) (hdev : r.devinSessionId = some x)
    (hpos : 0 < escalationCount r.id w.trace) : Leaves r (fromApiResponse data) := by
  rcases op.write_cases with hw | ⟨res, rfl⟩ | ⟨pk, u, rfl⟩
  · rw [exec_sessions hw] at hr
    cases op with
    | getSession y =>
      cases ha : (exec env (.getSession y) w).1 with
      | error exc =>
        rw [ha] at hx
        exact hJ.leaves x data hx r hr hdev hpos
      | ok data' =>
        rw [ha] at hx hR
        simp only [answered] at hx
        split at hx
        · -- it is what has just been said
          rename_i he
          cases hx
          exact hR.1 (y, data) rfl r hr (he ▸ hdev) hpos
        · exact hJ.leaves x data hx r hr hdev hpos
    | tryReserve res => cases hw
    | update pk u => cases hw
    | createSession key req => cases hx
    | _ => exact hJ.leaves x data hx r hr hdev hpos
  · cases hx
  · cases hx

/-- One permitted operation of a task that runs alone, where escalated rows are left alone. -/
theorem escalating_step {op : Op} (hJ : Escalating h w) (hC : Current h w) (hp : Permits S h op)
    (hR : LeftAlone h w op (exec env op w).1) :
    Escalating (⟨op, (exec env op w).1⟩ :: h) (exec env op w).2 := by
  by_cases hop : ∃ pk u, op = .update pk u
  · obtain ⟨pk, u, rfl⟩ := hop
    exact escalating_update hJ hC hp hR
  have hop' : ∀ pk u, op ≠ .update pk u := fun pk u he => hop ⟨pk, u, he⟩
  -- nothing is escalated, so the counts stay
  have hesc : ∀ pk, escalationCount pk (exec env op w).2.trace = escalationCount pk w.trace := by
    intro pk
    have hno : op.escalates = none := by
      cases op with
      | update pk u => exact absurd rfl (hop' pk u)
      | _ => rfl
    rw [escalationCount_exec, hno]
    simp
  constructor
  · intro pk
    rw [hesc]
    exact announced_exec hJ hp hop' pk
  · intro pk
    rw [hesc]
    exact hJ.once pk
  · intro pk hpos
    rw [hesc] at hpos
    have hmarked := hJ.marked pk hpos
    rcases op.write_cases with hw | ⟨res, rfl⟩ | hw
    · rw [exec_sessions hw]
      exact hmarked
    · exact statusOf_tryReserve res hmarked
    · exact absurd hw hop
  · intro x data hx r hr hdev hpos
    rw [hesc] at hpos
    exact leaves_exec hJ hR hx hr hdev hpos

/-- **Escalation is permanent and announced once**, along every serial run in which escalated
rows are left alone. -/
theorem escalated_once (sessions : Sessions) (events : WebhookEvents) (now : Time)
    (tasks : List Task) (hR : SerialOK env S LeftAlone { sessions, events, now } tasks) (pk : ℕ) :
    let w := runSerial env S { sessions, events, now } tasks
    commentCount pk w.trace ≤ 1 ∧
      (0 < escalationCount pk w.trace → w.sessions.statusOf pk = some .needsAttention) := by
  intro w
  have hinv : EscalatedOnce w := by
    have henter : ∀ w, EscalatedOnce w → Escalating [] w := by
      intro w hI
      refine ⟨?_, fun pk => (hI pk).2.1, fun pk => (hI pk).2.2, fun _ _ h => by cases h⟩
      intro pk
      simpa [announcing] using (hI pk).1
    have hleave : ∀ h w, Escalating h w → Idle h → EscalatedOnce w := by
      intro h w hJ _ pk
      exact ⟨le_trans (Nat.le_add_right _ _) (hJ.announced pk), hJ.once pk, hJ.marked pk⟩
    have hstart : EscalatedOnce { sessions, events, now } :=
      fun pk => ⟨le_rfl, Nat.zero_le _, fun h => absurd h (Nat.lt_irrefl 0)⟩
    exact serial_inv EscalatedOnce Escalating henter hleave
      (fun h w op hJ hC hp hr => escalating_step hJ hC hp hr) tasks hstart hR
  obtain ⟨h1, h2, h3⟩ := hinv pk
  exact ⟨h1.trans h2, h3⟩

/-! ## A tick after an escalation -/

namespace Undone

/-- The original session has ended with the PR, and Devin goes on saying so. -/
def outside : Outside :=
  { Outside.calm with
    getSession := fun _ sessionId =>
      if sessionId = "devin-4" then .ok .exited else .ok { status := some "running" } }

def settings : Settings := { maxFixAttempts := 1 }

/-- An issue and its session's end; a CI failure, which gets the one fix session allowed; and
a second one, which is escalated. -/
def escalated : List Task :=
  [.securityIssue (.sample 1), .poll, .ciFailure (.sample 100), .ciFailure (.sample 101)]

/-- From the escalation on, the status of the original session is one that the client does not know. -/
def waiting : Outside :=
  { outside with
    getSession := fun n sessionId =>
      if 33 ≤ n ∧ sessionId = "devin-4" then
        .ok { ApiSession.exited with status := some "waiting_for_user" }
      else outside.getSession n sessionId }

/-- A tick and a CI failure after the escalation. The tick writes the report to the row. -/
def later : List Task := escalated ++ [.poll, .ciFailure (.sample 102)]

theorem unknown_status_keeps_the_mark :
    let w := runSerial waiting settings (.initial 0) later
    (w.sessions.get 1).bind (·.rawStatus) = some "waiting_for_user" ∧
      commentCount 1 w.trace = 1 ∧ w.sessions.statusOf 1 = some .needsAttention := by
  intro w
  have hR : SerialOK waiting settings LeftAlone (.initial 0) later := by decide +kernel
  obtain ⟨honce, hmarked⟩ := escalated_once .empty .empty 0 later hR 1
  have hcomment : 1 ≤ commentCount 1 w.trace := by decide +kernel
  exact ⟨by decide +kernel, le_antisymm honce hcomment, hmarked (by decide +kernel)⟩

/-- **A tick undoes the escalation**: Devin reports what it has reported before, the parent
goes back to `completed`, and the next CI failure is escalated and announced again. -/
theorem tick_undoes_escalation :
    (runSerial outside settings (.initial 0) escalated).sessions.statusOf 1 =
        some .needsAttention ∧
      (runSerial outside settings (.initial 0) (escalated ++ [.poll])).sessions.statusOf 1 =
        some .completed ∧
      commentCount 1 (runSerial outside settings (.initial 0)
        (escalated ++ [.poll, .ciFailure (.sample 102)])).trace = 2 := by
  decide +kernel

end Undone

end Remediation
