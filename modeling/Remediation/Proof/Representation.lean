import Remediation.Proof.FixAttempts
import Remediation.Proof.Remote

/-!
# The representation invariant of `sessions`

What every row satisfies between tasks that run one after the other (`RowOK`): nothing is
left reserved, only failed rows have no Devin id, a row with a pull request has one, and
each fix attempt has a parent, earlier than itself and with a smaller number. The cap on
attempts, the escalation and the poller rely on it without a check.
-/

namespace Remediation

open Interaction

/-- The session that an operation has just returned. -/
def Op.returned : (op : Op) → Ans op → Option SessionCreated
  | .createSession _ _, .ok created => some created
  | _, _ => none

/-- Devin's session ids are not empty, and new. -/
def FreshIds (_ : Hist) (w : World) (op : Op) (a : Ans op) : Prop :=
  ∀ created ∈ op.returned a, created.devinSessionId ≠ "" ∧
    ∀ r ∈ w.sessions.rows, r.devinSessionId ≠ some created.devinSessionId

instance (h : Hist) (w : World) (op : Op) (a : Ans op) : Decidable (FreshIds h w op a) :=
  inferInstanceAs (Decidable (∀ created ∈ op.returned a, _))

structure RowOK (t : Sessions) (r : SessionRow) : Prop where
  known : r.status.active = true ∨ r.status.terminal = true
  settled : r.status ≠ .reserving
  unnamed : PyText.truthy r.devinSessionId = none → r.status = .failed
  pr : r.prUrl.isSome = true → (PyText.truthy r.devinSessionId).isSome = true
  parent : r.triggerType = .ciFailure ↔ r.parentDevinSessionId.isSome = true
  attempt : r.triggerType = .ciFailure ↔ 1 ≤ r.fixAttemptNumber
  chain : ∀ x, r.parentDevinSessionId = some x → ∃ p ∈ t.rows, p.devinSessionId = some x ∧
    p.id < r.id ∧ p.fixAttemptNumber < r.fixAttemptNumber

/-- Inside a task: all of that, but for the row that is in hand. -/
structure Represented (h : Hist) (w : World) : Prop where
  settled : ∀ r ∈ w.sessions.rows, r.status = .reserving → inHand h = some r.id
  unnamed : ∀ r ∈ w.sessions.rows, r.devinSessionId = none →
    r.status = .failed ∨ inHand h = some r.id
  nonempty : ∀ r ∈ w.sessions.rows, r.devinSessionId ≠ some ""
  pr : ∀ r ∈ w.sessions.rows, r.prUrl.isSome = true → r.devinSessionId.isSome = true
  parent : ∀ r ∈ w.sessions.rows, r.triggerType = .ciFailure ↔ r.parentDevinSessionId.isSome = true
  attempt : ∀ r ∈ w.sessions.rows, r.triggerType = .ciFailure ↔ 1 ≤ r.fixAttemptNumber
  chain : ∀ r ∈ w.sessions.rows, ∀ x, r.parentDevinSessionId = some x → ∃ p ∈ w.sessions.rows,
    p.devinSessionId = some x ∧ p.id < r.id ∧ p.fixAttemptNumber < r.fixAttemptNumber
  counts : ∀ prUrl p m, counted h = some (prUrl, p, m) →
    w.sessions.maxFixAttemptForParent p.devinSessionId = m
  spawned : ∀ pk created, justSpawned h = some (pk, created) → created.devinSessionId ≠ ""

variable {env : Outside} {S : Settings} {w : World} {h : Hist} {op : Op}

/-! ## What an UPDATE writes -/

theorem mapStatus_ne_reserving (raw : String) : mapStatus raw ≠ .reserving := by
  unfold mapStatus
  split_ifs <;> exact nofun

theorem fromApiResponse_status (data : ApiSession) : (fromApiResponse data).status ≠ .reserving :=
  mapStatus_ne_reserving _

/-- No UPDATE makes a row reserved again, or changes its parent; only a poll leaves the
status as it is. -/
theorem Permits.update_status {pk : ℕ} {u : Update} (hp : Permits S h (.update pk u)) :
    u.status ≠ some .reserving ∧ u.parentDevinSessionId = none ∧ (u.status = none → Idle h) := by
  cases hp with
  | quiet hop => cases hop
  | poll hi _ _ _ _ hu =>
    have hs : ∀ data, (fromApiResponse data).status ≠ .reserving := fromApiResponse_status
    cases hu <;> exact ⟨by simp [pollUpdate, hs], rfl, fun _ => hi⟩
  | _ => exact ⟨by simp, rfl, fun hu => by cases hu⟩

/-- **Which rows an UPDATE is for**: it marks the row in hand as failed, or stores the id of the
session just returned, or the row has a Devin id already. -/
theorem Permits.update_named {pk : ℕ} {u : Update} (hJ : Represented h w) (hC : Current h w)
    (hp : Permits S h (.update pk u)) :
    (u.status = some .failed ∧ u.devinSessionId = none ∧ u.prUrl = none) ∨
      (∃ x, u.devinSessionId = some x ∧ x ≠ "" ∧ u.status = some .pending ∧ u.prUrl = none) ∨
      (u.devinSessionId = none ∧ ∀ r ∈ w.sessions.rows, r.id = pk → r.devinSessionId.isSome = true) := by
  have hrow : ∀ {pk p}, w.sessions.get pk = some p → ∀ r ∈ w.sessions.rows, r.id = pk → r = p := by
    intro pk p hget r hr hid
    rw [w.sessions.get_eq_some.2 ⟨hr, hid⟩] at hget
    exact Option.some.inj hget
  cases hp with
  | quiet hop => cases hop
  | fail _ => exact Or.inl ⟨rfl, rfl, rfl⟩
  | activate hs => exact Or.inr (Or.inl ⟨_, rfl, hJ.spawned _ _ hs, rfl, rfl⟩)
  | escalate hi hm =>
    refine Or.inr (Or.inr ⟨rfl, fun r hr hid => ?_⟩)
    -- it has been picked by the URL of its pull request
    obtain ⟨hp, hpr⟩ := Sessions.mem_of_findByPr (hC.chosenRow _ _ (chosen_of_counted hm))
    obtain rfl := w.sessions.eq_of_id hr hp hid
    exact hJ.pr r hr (by rw [hpr]; rfl)
  | cancelChild hi hs hact =>
    refine Or.inr (Or.inr ⟨rfl, fun r hr hid => ?_⟩)
    obtain rfl := hrow (hC.seenRow _ _ hs) r hr hid
    cases hx : r.devinSessionId with
    | some x => rfl
    | none =>
      rcases hJ.unnamed r hr hx with hf | hh
      · rw [hf] at hact
        cases hact
      · rw [inHand_of_idle hi] at hh
        cases hh
  | poll hi hs _ hx _ hu =>
    refine Or.inr (Or.inr ⟨by cases hu <;> rfl, fun r hr hid => ?_⟩)
    obtain rfl := hrow (hC.seenRow _ _ hs) r hr hid
    rw [hx]
    rfl

/-! ## One operation -/

/-- What a task has in hand it keeps there until it writes to that row. -/
theorem Permits.inHand_exec {pk : ℕ} (hp : Permits S h op) (hh : inHand h = some pk)
    (hu : ∀ u, op ≠ .update pk u) (a : Ans op) : inHand (⟨op, a⟩ :: h) = some pk := by
  rcases op.write_cases with hop | ⟨res, rfl⟩ | ⟨pk', u, rfl⟩
  · exact hp.inHand_cons hop hh a
  · -- nothing is reserved while something is in hand
    cases hp with
    | quiet hop => cases hop
    | reserveIssue hi => rw [inHand_of_idle hi] at hh; cases hh
    | reserveFix hi => rw [inHand_of_idle hi] at hh; cases hh
  · exact absurd rfl (hp.update_inHand hh ▸ hu u)

/-- What a task has counted is what the table says, for as long as it remembers. -/
theorem counts_exec (hJ : Represented h w) (hp : Permits S h op) {prUrl : String}
    {p : SessionRow} {m : ℕ} (hm : counted (⟨op, (exec env op w).1⟩ :: h) = some (prUrl, p, m)) :
    (exec env op w).2.sessions.maxFixAttemptForParent p.devinSessionId = m := by
  cases op with
  | maxFixAttemptForParent parent =>
    obtain ⟨c, hc, he⟩ := Option.map_eq_some_iff.1 hm
    cases he
    cases hp with
    | quiet _ _ hg =>
      -- it has been counted for the row that is chosen
      obtain ⟨c', hc', hparent⟩ := hg
      rw [hc] at hc'
      cases hc'
      rw [hparent]
      rfl
  | findByPr prUrl => cases hm
  | tryReserve res => cases hm
  | update pk u => cases hm
  | _ =>
    rw [exec_sessions rfl]
    exact hJ.counts prUrl p m hm

/-- A row with a session id is there after any operation, with all that an UPDATE leaves alone. -/
theorem named_exec (env : Outside) (hp : Permits S h op) (hC : Current h w) {p : SessionRow}
    {x : String} (hmem : p ∈ w.sessions.rows) (hx : p.devinSessionId = some x) :
    ∃ p' ∈ (exec env op w).2.sessions.rows, p'.devinSessionId = some x ∧ p'.id = p.id ∧
      p'.fixAttemptNumber = p.fixAttemptNumber := by
  rcases row_exec env hp hC hmem hx with hp' | ⟨u, -, hu, hp'⟩
  · exact ⟨p, hp', hx, rfl, rfl⟩
  · exact ⟨_, hp', by rw [Update.apply_devinSessionId, hu]; exact hx, rfl, rfl⟩

/-- **What a reservation inserts**: an issue without a parent and attempts, or the next attempt
for a row that is there. -/
theorem Permits.tryReserve_chain {res : Reservation} (hJ : Represented h w) (hC : Current h w)
    (hp : Permits S h (.tryReserve res)) :
    (res.triggerType = .cveIssue ∧ res.parentDevinSessionId = none ∧ res.fixAttemptNumber = 0) ∨
      (res.triggerType = .ciFailure ∧ 1 ≤ res.fixAttemptNumber ∧
        ∃ x, res.parentDevinSessionId = some x ∧ ∃ p ∈ w.sessions.rows,
          p.devinSessionId = some x ∧ p.fixAttemptNumber < res.fixAttemptNumber) := by
  cases hp with
  | quiet hop => cases hop
  | reserveIssue => exact Or.inl ⟨rfl, rfl, rfl⟩
  | @reserveFix t _ m _ _ _ hm =>
    refine Or.inr ⟨rfl, Nat.le_add_left 1 m, ?_⟩
    obtain ⟨hmem, hpr⟩ := Sessions.mem_of_findByPr (hC.chosenRow _ _ (chosen_of_counted hm))
    obtain ⟨x, hx⟩ := Option.isSome_iff_exists.1 (hJ.pr _ hmem (by rw [hpr]; rfl))
    refine ⟨x, hx, t.parent, hmem, hx, ?_⟩
    -- the number counted covers the parent's own
    have hsome : t.parent.devinSessionId.isSome = true := by
      rw [hx]
      rfl
    have hle := Sessions.le_maxFixAttemptForParent hmem hsome (Or.inl rfl)
    rw [hJ.counts _ _ _ hm] at hle
    exact Nat.lt_succ_of_le hle

/-- **Every operation that is permitted preserves the invariant.** -/
theorem represented_step (hJ : Represented h w) (hC : Current h w) (hp : Permits S h op)
    (hD : FreshIds h w op (exec env op w).1) :
    Represented (⟨op, (exec env op w).1⟩ :: h) (exec env op w).2 where
  settled := by
    intro r hr hst
    rcases mem_exec hr with ⟨hr, hu⟩ | ⟨res, -, -, hh⟩ | ⟨r', hr', u, rfl, rfl⟩
    · exact hp.inHand_exec (hJ.settled r hr hst) hu _
    · exact hh h
    · obtain ⟨hne, -, hi⟩ := hp.update_status
      rw [Update.apply_status] at hst
      cases hu : u.status with
      | some s =>
        rw [hu] at hst hne
        cases hst
        exact absurd rfl hne
      | none =>
        rw [hu] at hst
        have hh := hJ.settled r' hr' hst
        rw [inHand_of_idle (hi hu)] at hh
        cases hh
  unnamed := by
    intro r hr hx
    rcases mem_exec hr with ⟨hr, hu⟩ | ⟨res, -, -, hh⟩ | ⟨r', hr', u, rfl, rfl⟩
    · rcases hJ.unnamed r hr hx with hf | hh
      · exact Or.inl hf
      · exact Or.inr (hp.inHand_exec hh hu _)
    · exact Or.inr (hh h)
    · rw [Update.apply_devinSessionId, Option.or_eq_none_iff] at hx
      rcases hp.update_named hJ hC with ⟨hs, -, -⟩ | ⟨x, hu, -, -, -⟩ | ⟨-, hnamed⟩
      · exact Or.inl (by rw [Update.apply_status, hs]; rfl)
      · rw [hu] at hx
        cases hx.1
      · have := hnamed r' hr' rfl
        rw [hx.2] at this
        cases this
  nonempty := by
    intro r hr hx
    rcases mem_exec hr with ⟨hr, -⟩ | ⟨res, -, rfl, -⟩ | ⟨r', hr', u, rfl, rfl⟩
    · exact hJ.nonempty r hr hx
    · cases hx
    · rw [Update.apply_devinSessionId] at hx
      rcases hp.update_named hJ hC with ⟨-, hu, -⟩ | ⟨x, hu, hne, -, -⟩ | ⟨hu, -⟩
      · rw [hu] at hx
        exact hJ.nonempty r' hr' hx
      · rw [hu] at hx
        exact hne (Option.some.inj hx)
      · rw [hu] at hx
        exact hJ.nonempty r' hr' hx
  pr := by
    intro r hr hpr
    rcases mem_exec hr with ⟨hr, -⟩ | ⟨res, -, rfl, -⟩ | ⟨r', hr', u, rfl, rfl⟩
    · exact hJ.pr r hr hpr
    · cases hpr
    · rw [Update.apply_devinSessionId, Option.isSome_or]
      rcases hp.update_named hJ hC with ⟨-, -, hu⟩ | ⟨x, hu, -, -, -⟩ | ⟨-, hnamed⟩
      · have hpr' : (u.prUrl.or r'.prUrl).isSome = true := hpr
        rw [hu] at hpr'
        rw [hJ.pr r' hr' hpr', Bool.or_true]
      · rw [hu]
        rfl
      · rw [hnamed r' hr' rfl, Bool.or_true]
  parent := by
    intro r hr
    rcases mem_exec hr with ⟨hr, -⟩ | ⟨res, rfl, rfl, -⟩ | ⟨r', hr', u, rfl, rfl⟩
    · exact hJ.parent r hr
    · rcases hp.tryReserve_chain hJ hC with ⟨ht, hx, -⟩ | ⟨ht, -, x, hx, -⟩
      · simp [Reservation.row, ht, hx]
      · simp [Reservation.row, ht, hx]
    · have hpar : (u.apply r').parentDevinSessionId = r'.parentDevinSessionId := by
        simp [Update.apply, hp.update_status.2.1]
      rw [Update.apply_triggerType, hpar]
      exact hJ.parent r' hr'
  attempt := by
    intro r hr
    rcases mem_exec hr with ⟨hr, -⟩ | ⟨res, rfl, rfl, -⟩ | ⟨r', hr', u, rfl, rfl⟩
    · exact hJ.attempt r hr
    · rcases hp.tryReserve_chain hJ hC with ⟨ht, -, hn⟩ | ⟨ht, hn, -⟩
      · simp [Reservation.row, ht, hn]
      · simp [Reservation.row, ht, hn]
    · exact hJ.attempt r' hr'
  chain := by
    intro r hr x hx
    rcases mem_exec hr with ⟨hr, -⟩ | ⟨res, rfl, rfl, -⟩ | ⟨r', hr', u, rfl, rfl⟩
    · obtain ⟨p, hmem, hpx, hid, hn⟩ := hJ.chain r hr x hx
      obtain ⟨p', hp', hpx', hid', hn'⟩ := named_exec env hp hC hmem hpx
      exact ⟨p', hp', hpx', by omega, by omega⟩
    · rcases hp.tryReserve_chain hJ hC with ⟨-, hnone, -⟩ | ⟨-, -, y, hy, p, hmem, hpx, hn⟩
      · rw [Reservation.row, hnone] at hx
        cases hx
      · obtain rfl : y = x := Option.some.inj (hy.symm.trans hx)
        obtain ⟨p', hp', hpx', hid', hn'⟩ := named_exec env hp hC hmem hpx
        have hold := w.sessions.fresh p hmem
        refine ⟨p', hp', hpx', ?_, ?_⟩
        · change p'.id < w.sessions.next
          omega
        · change p'.fixAttemptNumber < res.fixAttemptNumber
          omega
    · have hpar : (u.apply r').parentDevinSessionId = r'.parentDevinSessionId := by
        simp [Update.apply, hp.update_status.2.1]
      rw [hpar] at hx
      obtain ⟨p, hmem, hpx, hid, hn⟩ := hJ.chain r' hr' x hx
      obtain ⟨p', hp', hpx', hid', hn'⟩ := named_exec env hp hC hmem hpx
      refine ⟨p', hp', hpx', ?_, ?_⟩
      · rw [Update.apply_id]
        omega
      · rw [Update.apply_fixAttemptNumber]
        omega
  counts := fun _ _ _ hm => counts_exec hJ hp hm
  spawned := by
    intro pk created hj
    cases op with
    | createSession key req =>
      cases ha : (exec env (.createSession key req) w).1 with
      | error exc => rw [ha] at hj; cases hj
      | ok created' =>
        rw [ha] at hj hD
        obtain ⟨hd, -, he⟩ := Option.map_eq_some_iff.1 hj
        cases he
        exact (hD created rfl).1
    | _ => cases hj

/-! ## Runs -/

theorem Represented.initial (now : Time) : Represented [] (.initial now) where
  settled _ hr := by cases hr
  unnamed _ hr := by cases hr
  nonempty _ hr := by cases hr
  pr _ hr := by cases hr
  parent _ hr := by cases hr
  attempt _ hr := by cases hr
  chain _ hr := by cases hr
  counts _ _ _ hm := by cases hm
  spawned _ _ hj := by cases hj

/-- What a task that ends leaves to the next one. -/
theorem Represented.leave (hJ : Represented h w) (hi : Idle h) : Represented [] w where
  settled r hr hst := by
    have hh := hJ.settled r hr hst
    rw [inHand_of_idle hi] at hh
    cases hh
  unnamed r hr hx := by
    rcases hJ.unnamed r hr hx with hf | hh
    · exact Or.inl hf
    · rw [inHand_of_idle hi] at hh
      cases hh
  nonempty := hJ.nonempty
  pr := hJ.pr
  parent := hJ.parent
  attempt := hJ.attempt
  chain := hJ.chain
  counts _ _ _ hm := by cases hm
  spawned _ _ hj := by cases hj

/-- Between tasks nothing is in hand. -/
theorem Represented.rowOK (hJ : Represented [] w) :
    ∀ r ∈ w.sessions.rows, RowOK w.sessions r := by
  intro r hr
  have htruthy : PyText.truthy r.devinSessionId = r.devinSessionId := by
    cases hx : r.devinSessionId with
    | none => rfl
    | some x =>
      have hne : x ≠ "" := fun he => hJ.nonempty r hr (by rw [hx, he])
      exact PyText.truthy_eq_some.2 ⟨rfl, hne⟩
  refine ⟨?_, ?_, ?_, ?_, hJ.parent r hr, hJ.attempt r hr, hJ.chain r hr⟩
  · rw [Status.terminal_eq]
    cases r.status.active <;> simp
  · intro hst
    cases hJ.settled r hr hst
  · intro hx
    rw [htruthy] at hx
    rcases hJ.unnamed r hr hx with hf | hh
    · exact hf
    · cases hh
  · rw [htruthy]
    exact hJ.pr r hr

/-- **The representation invariant**, after every serial run from the empty database in which
Devin's session ids are new and not empty. -/
theorem rows_represented (now : Time) (tasks : List Task)
    (hD : SerialOK env S FreshIds (.initial now) tasks) :
    ∀ r ∈ (runSerial env S (.initial now) tasks).sessions.rows,
      RowOK (runSerial env S (.initial now) tasks).sessions r := by
  have hinv : Represented [] (runSerial env S (.initial now) tasks) :=
    serial_inv (R := FreshIds) (Represented []) Represented (fun w hI => hI)
      (fun h w hJ hi => hJ.leave hi) (fun h w op hJ hC hp hD => represented_step hJ hC hp hD)
      tasks (Represented.initial now) hD
  exact hinv.rowOK

/-- The runs that take a CI failure to its fix sessions meet the condition. -/
theorem rows_represented_two_fixes :
    SerialOK Siblings.outside {} FreshIds (.initial 0) Siblings.twoFixes ∧
      ∀ r ∈ (runSerial Siblings.outside {} (.initial 0) Siblings.twoFixes).sessions.rows,
        RowOK (runSerial Siblings.outside {} (.initial 0) Siblings.twoFixes).sessions r := by
  have hfresh : SerialOK Siblings.outside {} FreshIds (.initial 0) Siblings.twoFixes := by
    decide +kernel
  exact ⟨hfresh, rows_represented 0 Siblings.twoFixes hfresh⟩

end Remediation
