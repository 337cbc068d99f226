import Remediation.Proof.Tasks

/-!
# What an operation does to the rows

The effect of one operation on the row with a given primary key, and on the number
of active rows. An UPDATE reaches one row; a reservation adds one; a restart changes
work keys only.
-/

namespace Remediation

open Interaction

variable {env : Outside} {S : Settings} {w : World} {h : Hist}

/-- The status of the row with a primary key. -/
def Sessions.statusOf (t : Sessions) (pk : ℕ) : Option Status := (t.get pk).map (·.status)

theorem statusOf_of_mem {t : Sessions} {r : SessionRow} (hr : r ∈ t.rows) :
    t.statusOf r.id = some r.status := by
  simp [Sessions.statusOf, t.get_eq_some.2 ⟨hr, rfl⟩]

theorem statusOf_update (pk : ℕ) (u : Update) (t : Sessions) (j : ℕ) :
    (t.update pk u).statusOf j =
      (t.statusOf j).map fun s => if j = pk then u.status.getD s else s := by
  rw [Sessions.statusOf, Sessions.get_update, Sessions.statusOf, Option.map_map, Option.map_map]
  congr 1
  funext r
  by_cases hj : j = pk <;> simp [hj]

theorem statusOf_boot (n : ℕ) (w : World) (j : ℕ) :
    (w.boot n).sessions.statusOf j = w.sessions.statusOf j := by
  -- the column of ids and statuses together is what a lookup of a status reads
  have hmap := map_backfillMissingWorkKeys (fun r => (r.id, r.status)) (fun _ _ => rfl) n w.sessions
  have hfind : ∀ l : List SessionRow, (l.find? fun r => decide (r.id = j)).map (·.status) =
      ((l.map fun r => (r.id, r.status)).find? fun p => decide (p.1 = j)).map (·.2) := by
    intro l
    rw [List.find?_map, Option.map_map]
    rfl
  rw [Sessions.statusOf, Table.get, hfind, Sessions.statusOf, Table.get, hfind, ← hmap]
  rfl

/-- A reservation leaves every other row alone. -/
theorem statusOf_tryReserve (res : Reservation) {j : ℕ} {s : Status}
    (hs : w.sessions.statusOf j = some s) :
    (exec env (.tryReserve res) w).2.sessions.statusOf j = some s := by
  obtain ⟨r, hr, hst⟩ := Option.map_eq_some_iff.1 hs
  rw [Sessions.statusOf, get_tryReserve res hr]
  exact congrArg some hst

/-- **Where a row comes from**: it was there and has not been written to, or has just been
inserted, or is what an UPDATE has made of a row that was there. -/
theorem mem_exec {op : Op} {r : SessionRow} (hr : r ∈ (exec env op w).2.sessions.rows) :
    (r ∈ w.sessions.rows ∧ ∀ u, op ≠ .update r.id u) ∨
    (∃ res, op = .tryReserve res ∧ r = res.row (w.tick env).now w.sessions.next ∧
      ∀ h, inHand (⟨op, (exec env op w).1⟩ :: h) = some r.id) ∨
    ∃ r' ∈ w.sessions.rows, ∃ u, op = .update r'.id u ∧ r = u.apply r' := by
  rcases op.write_cases with hop | ⟨res, rfl⟩ | ⟨pk, u, rfl⟩
  · rw [exec_sessions hop] at hr
    refine Or.inl ⟨hr, ?_⟩
    rintro u rfl
    cases hop
  · rcases exec_tryReserve env w res with ⟨pk, t, ha, ht, hw⟩ | ⟨-, -, hw⟩
    · obtain ⟨rfl, -, hrows⟩ := Sessions.tryReserve_eq_some ht
      rw [hw, hrows, List.mem_append, List.mem_singleton] at hr
      rcases hr with hr | rfl
      · exact Or.inl ⟨hr, fun u he => by cases he⟩
      · refine Or.inr (Or.inl ⟨res, rfl, rfl, ?_⟩)
        intro h
        rw [ha]
        rfl
    · rw [hw] at hr
      exact Or.inl ⟨hr, fun u he => by cases he⟩
  · rcases Sessions.mem_update.1 hr with ⟨hr, hne⟩ | ⟨r', hr', rfl, rfl⟩
    · refine Or.inl ⟨hr, ?_⟩
      rintro u' he
      cases he
      exact hne rfl
    · exact Or.inr (Or.inr ⟨r', hr', u, rfl, rfl⟩)

theorem writes_of_quiet {op : Op} (h : op.quiet = true) : op.writes = false := by
  cases op <;> first | rfl | cases h

/-- What has been issued is on record from then on. -/
theorem trace_eval {α : Type} (env : Outside) (p : M α) (w : World) :
    ∃ later, (p.eval (exec env) w).2.trace = later ++ w.trace := by
  induction p generalizing w with
  | ret a => exact ⟨[], rfl⟩
  | call op k ih =>
    obtain ⟨later, hl⟩ := ih (exec env op w).1 (exec env op w).2
    exact ⟨later ++ [⟨op, (exec env op w).1⟩], by simp [hl]⟩

/-! ## Counting active rows -/

theorem countActive_boot (n : ℕ) (w : World) :
    (w.boot n).sessions.countActive = w.sessions.countActive := by
  have hmap := map_backfillMissingWorkKeys (·.status) (fun _ _ => rfl) n w.sessions
  have hcount : ∀ l : List SessionRow, l.countP (fun r => r.status.active) =
      (l.map (·.status)).countP Status.active := fun l => by rw [List.countP_map]; rfl
  rw [Sessions.countActive, hcount, Sessions.countActive, hcount, ← hmap]
  rfl

theorem countActive_tryReserve_le (res : Reservation) :
    (exec env (.tryReserve res) w).2.sessions.countActive ≤ w.sessions.countActive + 1 := by
  unfold Sessions.countActive
  rcases rows_tryReserve env w res with hrows | ⟨pk, hrows⟩
  · rw [hrows]
    omega
  · have hone : ([res.row (w.tick env).now pk].countP fun r => r.status.active) ≤ 1 :=
      List.countP_le_length
    rw [hrows, List.countP_append]
    omega

/-- An UPDATE that makes no row active does not raise the count. -/
theorem countActive_update_le {pk : ℕ} {u : Update} {t : Sessions}
    (h : ∀ s s', u.status = some s → s.active = true → t.statusOf pk = some s' → s'.active = true) :
    (t.update pk u).countActive ≤ t.countActive := by
  refine Table.countP_update_mono _ ?_
  intro r hr hi ha
  cases hu : u.status with
  | none => simpa [hu] using ha
  | some s =>
    have hs : t.statusOf pk = some r.status := hi ▸ statusOf_of_mem hr
    exact h s r.status hu (by simpa [hu] using ha) hs

theorem countActive_update_succ (pk : ℕ) (u : Update) (t : Sessions) :
    (t.update pk u).countActive ≤ t.countActive + 1 :=
  Table.countP_update_le _

/-! ## Invariants of the service -/

/-- **Invariant rule for the service**: what a restart and every operation that the contract
permits preserve holds along every interleaving. -/
theorem service_inv {R : Hist → World → (op : Op) → Ans op → Prop} (J : World → Prop)
    (hboot : ∀ w n, J w → J (w.boot n))
    (hstep : ∀ w h op, J w → Permits S h op → R h w op (exec env op w).1 → J (exec env op w).2)
    (acts : List (Act Task ℕ)) {c : Config Ans Unit World} (hJ : J c.world)
    (hK : System.KeepsAll (contract S) Settled c) (hR : (service env S).RunOK R c acts) :
    J ((service env S).run c acts).world ∧
      System.KeepsAll (contract S) Settled ((service env S).run c acts) := by
  exact System.run_inv (fun w _ => J w) keeps_task (fun _ _ hJ => hJ)
    (fun w _ n hJ => hboot w n hJ) (fun w _ _ op _ _ _ => exec_honest env op w)
    (fun w _ _ h op hJ _ hp hR => hstep w h op hJ hp hR) acts hJ hK hR

/-- All threads of a run keep to the contract. -/
theorem service_keeps (w : World) (acts : List (Act Task ℕ)) :
    System.KeepsAll (contract S) Settled ((service env S).run ⟨w, []⟩ acts) :=
  (service_inv (R := fun _ _ _ _ => True) (fun _ => True) (fun _ _ _ => trivial)
    (fun _ _ _ _ _ _ => trivial) acts trivial (by simp [System.KeepsAll])
    (System.runOK_true _ acts)).2

end Remediation
