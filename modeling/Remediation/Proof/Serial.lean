import Remediation.Proof.Effects

/-!
# Tasks that run alone

Where tasks run one after the other, what a task has read is still so, until it writes
itself (`Current`). `serial_inv` is the invariant rule for such runs: an invariant of
the state between tasks, strengthened inside a task by what its history says.
-/

namespace Remediation

open Interaction Prog

variable {env : Outside} {S : Settings} {w w' : World} {h : Hist}

/-- What the history of a task says about the table is so. -/
structure Current (h : Hist) (w : World) : Prop where
  seenRow : ∀ pk r, seen pk h = some r → w.sessions.get pk = some r
  chosenRow : ∀ prUrl p, chosen h = some (prUrl, p) → w.sessions.findByPr prUrl = some p
  heldRow : ∀ hd, held h = some hd → ∃ t, w.sessions.get hd.pk = some (hd.res.row t hd.pk)
  spawnedRow : ∀ pk created, justSpawned h = some (pk, created) →
    ∃ res t, w.sessions.get pk = some (Reservation.row res t pk)

theorem Current.nil (w : World) : Current [] w where
  seenRow _ _ h := by cases h
  chosenRow _ _ h := by cases h
  heldRow _ h := by cases h
  spawnedRow _ _ h := by cases h

/-- An operation that neither writes to the table nor reads rows from it. -/
theorem Current.skip (hC : Current h w) (hw : w'.sessions = w.sessions) {e : Entry Ans}
    (hs : ∀ pk, seen pk (e :: h) = seen pk h) (hc : chosen (e :: h) = chosen h)
    (hh : held (e :: h) = held h) (hj : justSpawned (e :: h) = none) : Current (e :: h) w' where
  seenRow pk r h := by rw [hs] at h; rw [hw]; exact hC.seenRow pk r h
  chosenRow u p h := by rw [hc] at h; rw [hw]; exact hC.chosenRow u p h
  heldRow hd h := by rw [hh] at h; rw [hw]; exact hC.heldRow hd h
  spawnedRow pk c h := by rw [hj] at h; cases h

/-- Reading rows adds to what is known. -/
theorem Current.read {rows : List SessionRow} (hrows : ∀ r ∈ rows, r ∈ w.sessions.rows)
    (hC : Current h w) {pk : ℕ} {r : SessionRow}
    (hr : (rows.find? fun r => r.id = pk).or (seen pk h) = some r) :
    w.sessions.get pk = some r := by
  rcases Option.or_eq_some_iff.1 hr with hf | ⟨-, hs⟩
  · exact w.sessions.get_eq_some.2
      ⟨hrows r (List.mem_of_find?_eq_some hf), by simpa using List.find?_some hf⟩
  · exact hC.seenRow pk r hs

theorem Current.update (hC : Current h w) (pk : ℕ) (u : Update) :
    Current (⟨.update pk u, ()⟩ :: h) (exec env (.update pk u) w).2 where
  seenRow pk' r hs := by
    simp only [seen] at hs
    split at hs
    · cases hs
    · rename_i hne
      rw [exec_update_sessions, Sessions.get_update, hC.seenRow pk' r hs]
      simp [Ne.symm hne]
  chosenRow _ _ h := by cases h
  heldRow _ h := by cases h
  spawnedRow _ _ h := by cases h

theorem Current.tryReserve (hC : Current h w) (res : Reservation) :
    Current (⟨.tryReserve res, (exec env (.tryReserve res) w).1⟩ :: h)
      (exec env (.tryReserve res) w).2 where
  seenRow pk r hs := get_tryReserve res (hC.seenRow pk r hs)
  chosenRow _ _ h := by cases h
  heldRow hd hh := by
    rcases exec_tryReserve env w res with ⟨pk', t, ha, ht, hw⟩ | ⟨ha, -, -⟩
    · rw [ha] at hh
      cases hh
      refine ⟨(w.tick env).now, ?_⟩
      rw [hw, Sessions.get_tryReserve ht, if_pos rfl]
    · rw [ha] at hh
      obtain ⟨t, ht⟩ := hC.heldRow hd hh
      exact ⟨t, get_tryReserve res ht⟩
  spawnedRow _ _ h := by cases h

theorem Current.createSession (hC : Current h w) (key : String) (req : CreateRequest) :
    Current (⟨.createSession key req, (exec env (.createSession key req) w).1⟩ :: h)
      (exec env (.createSession key req) w).2 := by
  cases (exec env (.createSession key req) w).1 with
  | error exc =>
    -- the reservation is held on to
    refine ⟨hC.seenRow, hC.chosenRow, fun hd hh => ?_, fun _ _ h => (by cases h)⟩
    obtain ⟨hd', hh', rfl⟩ := Option.map_eq_some_iff.1 hh
    exact hC.heldRow hd' hh'
  | ok created =>
    -- the row that was held is the one of the session
    refine ⟨hC.seenRow, hC.chosenRow, fun hd hh => (by cases hh), ?_⟩
    intro pk c hj
    obtain ⟨hd', hh', he⟩ := Option.map_eq_some_iff.1 hj
    cases he
    obtain ⟨t, ht⟩ := hC.heldRow hd' hh'
    exact ⟨_, t, ht⟩

/-- **Nothing overtakes a task that runs alone.** -/
theorem Current.step (hC : Current h w) (op : Op) :
    Current (⟨op, (exec env op w).1⟩ :: h) (exec env op w).2 := by
  cases op with
  | update pk u => exact hC.update pk u
  | tryReserve res => exact hC.tryReserve res
  | createSession key req => exact hC.createSession key req
  | listNonTerminal =>
    exact ⟨fun pk r hr => hC.read (fun r hr => (Sessions.mem_listNonTerminal.1 hr).1) hr,
      hC.chosenRow, hC.heldRow, fun _ _ h => by cases h⟩
  | findActiveChildren parent =>
    exact ⟨fun pk r hr => hC.read (fun r hr => (Sessions.mem_findActiveChildren.1 hr).1) hr,
      hC.chosenRow, hC.heldRow, fun _ _ h => by cases h⟩
  | findByPr prUrl =>
    refine ⟨hC.seenRow, fun u p hc => ?_, hC.heldRow, fun _ _ h => by cases h⟩
    change w.sessions.findByPr u = some p
    cases hf : w.sessions.findByPr prUrl with
    | none =>
      refine hC.chosenRow u p ?_
      have : (exec env (.findByPr prUrl) w).1 = none := hf
      rwa [this] at hc
    | some q =>
      have : (exec env (.findByPr prUrl) w).1 = some q := hf
      rw [this] at hc
      cases hc
      exact hf
  | getSession x =>
    refine hC.skip ?_ (fun _ => ?_) ?_ ?_ ?_ <;> rfl
  | record d e a p => refine hC.skip (exec_sessions rfl) (fun _ => ?_) ?_ ?_ ?_ <;> rfl
  | _ => refine hC.skip ?_ (fun _ => ?_) ?_ ?_ ?_ <;> rfl

/-! ## Runs -/

/-- The state after a task that runs alone. -/
def World.after (env : Outside) (S : Settings) (w : World) (task : Task) : World :=
  ((task.prog S).eval (exec env) w).2

/-- `R` holds of every operation of every task of a serial run. -/
def SerialOK (env : Outside) (S : Settings) (R : Hist → World → (op : Op) → Ans op → Prop) :
    World → List Task → Prop
  | _, [] => True
  | w, task :: tasks =>
    (task.prog S).Along (exec env) R [] w ∧ SerialOK env S R (w.after env S task) tasks

instance decidableSerialOK (R : Hist → World → (op : Op) → Ans op → Prop)
    [∀ h w op a, Decidable (R h w op a)] :
    (tasks : List Task) → (w : World) → Decidable (SerialOK env S R w tasks)
  | [], _ => .isTrue trivial
  | task :: tasks, w =>
    @instDecidableAnd _ _ (decidableAlong (task.prog S) [] w)
      (decidableSerialOK R tasks (w.after env S task))

variable {R R' : Hist → World → (op : Op) → Ans op → Prop}

theorem SerialOK.and {tasks : List Task} (hR : SerialOK env S R w tasks)
    (hR' : SerialOK env S R' w tasks) :
    SerialOK env S (fun h w op a => R h w op a ∧ R' h w op a) w tasks := by
  induction tasks generalizing w with
  | nil => trivial
  | cons task tasks ih => exact ⟨hR.1.and hR'.1, ih hR.2 hR'.2⟩

theorem SerialOK.mono (hRR' : ∀ h w op a, R h w op a → R' h w op a) {tasks : List Task}
    (hR : SerialOK env S R w tasks) : SerialOK env S R' w tasks := by
  induction tasks generalizing w with
  | nil => trivial
  | cons task tasks ih => exact ⟨hR.1.mono hRR', ih hR.2⟩

theorem serialOK_true (tasks : List Task) : SerialOK env S (fun _ _ _ _ => True) w tasks := by
  induction tasks generalizing w with
  | nil => trivial
  | cons task tasks ih => exact ⟨along_true _ _, ih⟩

/-- What holds before every operation and at the end holds at the start. -/
theorem SerialOK.first {P : World → Prop} {tasks : List Task}
    (hP : SerialOK env S (fun _ w _ _ => P w) w tasks) (hend : P (runSerial env S w tasks)) :
    P w := by
  induction tasks generalizing w with
  | nil => exact hend
  | cons task tasks ih => exact hP.1.first (ih hP.2 hend)

/-- It holds after every operation as well. -/
theorem SerialOK.next {P : World → Prop} {tasks : List Task}
    (hP : SerialOK env S (fun _ w _ _ => P w) w tasks) (hend : P (runSerial env S w tasks)) :
    SerialOK env S (fun _ w op _ => P (exec env op w).2) w tasks := by
  induction tasks generalizing w with
  | nil => trivial
  | cons task tasks ih => exact ⟨hP.1.next (hP.2.first hend), ih hP.2 hend⟩

/-- The invariant rule for one task. -/
theorem task_inv (J : Hist → World → Prop)
    (hstep : ∀ h w op, J h w → Current h w → Permits S h op → R h w op (exec env op w).1 →
      J (⟨op, (exec env op w).1⟩ :: h) (exec env op w).2)
    (task : Task) (hJ : J [] w) (hR : (task.prog S).Along (exec env) R [] w) :
    ∃ h, J h (w.after env S task) ∧ Idle h := by
  -- `J` is carried together with what the history says about the table
  obtain ⟨h, ⟨hJ, -⟩, hQ⟩ := eval_inv (C := contract S) (R := R) (J := fun h w => J h w ∧ Current h w)
    (fun _ w op _ _ => exec_honest env op w)
    (fun h w op hJ hp hr => ⟨hstep h w op hJ.1 hJ.2 hp hr, hJ.2.step op⟩)
    (task.prog S) (keeps_task task) ⟨hJ, Current.nil w⟩ hR
  exact ⟨h, hJ, hQ⟩

/-- **Invariant rule for serial runs.** -/
theorem serial_inv (I : World → Prop) (J : Hist → World → Prop) (henter : ∀ w, I w → J [] w)
    (hleave : ∀ h w, J h w → Idle h → I w)
    (hstep : ∀ h w op, J h w → Current h w → Permits S h op → R h w op (exec env op w).1 →
      J (⟨op, (exec env op w).1⟩ :: h) (exec env op w).2)
    (tasks : List Task) (hI : I w) (hR : SerialOK env S R w tasks) :
    I (runSerial env S w tasks) := by
  induction tasks generalizing w with
  | nil => exact hI
  | cons task tasks ih =>
    obtain ⟨h, hJ, hs⟩ := task_inv J hstep task (henter w hI) hR.1
    exact ih (hleave h _ hJ hs) hR.2

/-- Along such a run the invariant of the tasks holds before each operation. -/
theorem serial_along (I : World → Prop) (J : Hist → World → Prop) (henter : ∀ w, I w → J [] w)
    (hleave : ∀ h w, J h w → Idle h → I w)
    (hstep : ∀ h w op, J h w → Current h w → Permits S h op → R h w op (exec env op w).1 →
      J (⟨op, (exec env op w).1⟩ :: h) (exec env op w).2)
    (tasks : List Task) (hI : I w) (hR : SerialOK env S R w tasks) :
    SerialOK env S (fun h w _ _ => J h w) w tasks := by
  induction tasks generalizing w with
  | nil => trivial
  | cons task tasks ih =>
    obtain ⟨h, hJ, hs⟩ := task_inv J hstep task (henter w hI) hR.1
    refine ⟨?_, ih (hleave h _ hJ hs) hR.2⟩
    have halong := along_inv (C := contract S) (R := R) (J := fun h w => J h w ∧ Current h w)
      (fun _ w op _ _ => exec_honest env op w)
      (fun h w op hJ hp hr => ⟨hstep h w op hJ.1 hJ.2 hp hr, hJ.2.step op⟩)
      (task.prog S) (keeps_task task) ⟨henter w hI, Current.nil w⟩ hR.1
    exact halong.mono fun _ _ _ _ hJ => hJ.1

end Remediation
