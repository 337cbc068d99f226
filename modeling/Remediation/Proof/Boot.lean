import Remediation.Proof.Restart
import Remediation.Spec.World

/-!
# Starting up, as the service sees it

In the runs of the service, a start-up is `World.boot`: some UPDATE statements of the
backfill, on a table with distinct keys. On a database with the current schema this is all
that `init_db` does to `sessions`, wherever it dies (`initDb_boots`).
-/

namespace Remediation

namespace Migration

open Interaction

/-! ## A table of the current schema -/

def currentSchema : Schema where
  workKeyColumn := .notNull
  idsNotNull := false
  structuredOutputColumn := true
  indexes := {.status, .triggerRef, .parent, .started, .devinId}
  uniqueWorkKey := true

def LegacyRow.current (r : SessionRow) : LegacyRow := ⟨some r.workKey, r, rfl⟩

/-- `ORDER BY id` -/
def byId (rows : List SessionRow) : List SessionRow := rows.insertionSort fun r s => r.id ≤ s.id

section ById

variable {rows : List SessionRow}

theorem byId_perm (rows : List SessionRow) : (byId rows).Perm rows := List.perm_insertionSort _ rows

theorem byId_ascending (hnd : (rows.map (·.id)).Nodup) :
    (byId rows).Pairwise fun r s => r.id < s.id := by
  have hle : (byId rows).Pairwise fun r s => r.id ≤ s.id := List.pairwise_insertionSort _ rows
  have hne : ((byId rows).map (·.id)).Nodup := ((byId_perm rows).map _).nodup_iff.2 hnd
  rw [List.Nodup, List.pairwise_map] at hne
  exact (hle.and hne).imp fun h => lt_of_le_of_ne h.1 h.2

/-- There is one way only to list rows by their ids. -/
theorem eq_byId {l : List SessionRow} (hp : l.Perm rows) (hl : l.Pairwise fun r s => r.id < s.id) :
    l = byId rows := by
  have hnd : (rows.map (·.id)).Nodup := by
    rw [← (hp.map _).nodup_iff, List.Nodup, List.pairwise_map]
    exact hl.imp fun h => h.ne
  refine List.Perm.eq_of_pairwise ?_ hl (byId_ascending hnd) (hp.trans (byId_perm rows).symm)
  intro r s _ _ h h'
  omega

/-- A change that leaves the ids alone leaves the order alone. -/
theorem byId_map (hnd : (rows.map (·.id)).Nodup) {f : SessionRow → SessionRow}
    (hf : ∀ r, (f r).id = r.id) : byId (rows.map f) = (byId rows).map f := by
  refine (eq_byId ((byId_perm rows).map f) ?_).symm
  rw [List.pairwise_map]
  exact (byId_ascending hnd).imp fun h => by rwa [hf, hf]

end ById

theorem filterMap_current (rows : List SessionRow) :
    (rows.map LegacyRow.current).filterMap (·.workKey) = rows.map (·.workKey) := by
  rw [List.filterMap_map]
  exact congrFun List.filterMap_eq_map rows

/-- The table of a `Sessions`. -/
def current (t : Sessions) : SessionsTable where
  schema := currentSchema
  rows := (byId t.rows).map LegacyRow.current
  admits :=
    { ascending := by
        rw [List.pairwise_map]
        exact byId_ascending t.ids
      absent := nofun
      notNull := by
        intro _ r hr
        obtain ⟨s, -, rfl⟩ := List.mem_map.1 hr
        exact nofun
      ids := nofun
      structured := nofun
      unique := by
        intro _
        rw [filterMap_current]
        exact ((byId_perm t.rows).map _).nodup_iff.2 t.keys }

section Current

variable {t t' : Sessions}

theorem current_rows (t : Sessions) : (current t).rows = (byId t.rows).map LegacyRow.current := rfl

theorem current_rows_row (t : Sessions) : (current t).rows.map (·.row) = byId t.rows := by
  rw [current, List.map_map]
  exact List.map_id _

/-- The rows the backfill goes through. -/
theorem current_missing (t : Sessions) :
    (current t).missing = byId (t.rows.filter fun r => r.workKey = "") := by
  rw [SessionsTable.missing, current_rows_row]
  exact eq_byId ((byId_perm t.rows).filter _) ((byId_ascending t.ids).filter _)

theorem mem_current_workKeys (t : Sessions) (k : String) : k ∈ (current t).workKeys ↔
    k ∈ (t.rows.filter fun r => r.workKey ≠ "").map (·.workKey) := by
  have hrows : (current t).rows.map (·.row.workKey) = (byId t.rows).map (·.workKey) := by
    rw [← current_rows_row, List.map_map]
    rfl
  rw [SessionsTable.workKeys, hrows, List.filter_map, (((byId_perm t.rows).filter _).map _).mem_iff]
  rfl

/-- **One UPDATE**, in both models. -/
theorem current_updateWorkKey (t : Sessions) (i : ℕ) (k : String) :
    (current t).updateWorkKey i k =
      match t.rekey i k SessionRow.setWorkKey (fun _ _ => rfl) with
      | some t' => .ok (current t')
      | none => .error .integrityError := by
  have hid : ∀ r : SessionRow, (if r.id = i then r.setWorkKey k else r).id = r.id := by
    intro r
    split <;> rfl
  have hrows : ((current t).rows.map fun r => if r.row.id = i then r.setWorkKey k else r) =
      (byId (t.rows.map fun r => if r.id = i then r.setWorkKey k else r)).map LegacyRow.current := by
    rw [byId_map t.ids hid, current_rows, List.map_map, List.map_map]
    refine List.map_congr_left fun r _ => ?_
    have hrow : (LegacyRow.current r).row.id = r.id := rfl
    by_cases hr : r.id = i
    · simp only [Function.comp, hrow, if_pos hr]
      rfl
    · simp only [Function.comp, hrow, if_neg hr]
  rw [SessionsTable.updateWorkKey, if_neg nofun, hrows]
  cases hk : t.rekey i k SessionRow.setWorkKey (fun _ _ => rfl) with
  | some t' =>
    refine SessionsTable.check_eq_ok.2 ⟨rfl, ?_⟩
    rw [current_rows, (Table.rekey_eq_some hk).1]
  | none =>
    refine dif_neg fun hadm => Table.rekey_eq_none.1 hk ?_
    have hnd := hadm.unique rfl
    rw [filterMap_current] at hnd
    exact ((byId_perm _).map _).nodup_iff.1 hnd

end Current

/-! ## The start-up in both models -/

section Boot

variable {t : Sessions}

/-- A database of the service after a start-up that died at some point. -/
def Booted (t : Sessions) (d : Db) : Prop :=
  ∃ w n, d = .legacy w (current (Remediation.backfillMissingWorkKeys n t))

/-- The table of the service after some of the UPDATE statements. -/
def Rekeyed (t : Sessions) (ups : List (ℕ × String)) (d : Db) : Prop :=
  ∃ w n, d = .legacy w (current (t.rekeyAll (ups.take n)))

theorem rekeyed_start (w : Bool) (ups : List (ℕ × String)) :
    Rekeyed t ups (.legacy w (current t)) := ⟨w, 0, rfl⟩

theorem Rekeyed.of_rekey {t' : Sessions} {i : ℕ} {k : String} {ups : List (ℕ × String)} {d : Db}
    (h : Rekeyed t' ups d)
    (hk : t.rekey i k SessionRow.setWorkKey (fun _ _ => rfl) = some t') :
    Rekeyed t ((i, k) :: ups) d := by
  obtain ⟨w, n, rfl⟩ := h
  refine ⟨w, n + 1, ?_⟩
  rw [List.take_succ_cons, Sessions.rekeyAll, hk]

theorem throughout_assign_current (e : List String) (rs : List SessionRow) :
    Throughout (Rekeyed t (backfill e rs)) (assignWorkKeys e rs) (.legacy true (current t)) := by
  induction rs generalizing e t with
  | nil => exact (throughout_pure ()).2 (rekeyed_start true _)
  | cons r rs ih =>
    rw [assignWorkKeys]
    split
    · exact (throughout_throw _).2 (rekeyed_start true _)
    · have hnext : ∀ s, (current t).updateWorkKey r.id (backfilledKey e r) = .ok s → ∃ t',
          t.rekey r.id (backfilledKey e r) SessionRow.setWorkKey (fun _ _ => rfl) = some t' ∧
            s = current t' := by
        intro s hs
        rw [current_updateWorkKey] at hs
        split at hs
        · rename_i t' hk
          cases hs
          exact ⟨t', hk, rfl⟩
        · cases hs
      refine Throughout.seq (outcome_execute fun _ => rfl)
        (throughout_statement (fun _ => rfl) (rekeyed_start true _) ?_) ?_
      · intro s hs
        obtain ⟨t', hk, rfl⟩ := hnext s hs
        exact (rekeyed_start true _).of_rekey hk
      · intro s hs
        obtain ⟨t', hk, rfl⟩ := hnext s hs
        exact fun n => (ih (t := t') _ n).of_rekey hk

theorem backfill_congr {e e' : List String} (he : ∀ k, k ∈ e ↔ k ∈ e') (rs : List SessionRow) :
    backfill e rs = backfill e' rs := by
  induction rs generalizing e e' with
  | nil => rfl
  | cons r rs ih =>
    rw [backfill, backfill, backfilledKey_congr he r, ih (mem_cons_congr he _)]

theorem booted_of_rekeyed {d : Db}
    (h : Rekeyed t (backfill (current t).workKeys (current t).missing) d) : Booted t d := by
  obtain ⟨w, n, rfl⟩ := h
  refine ⟨w, n, ?_⟩
  rw [current_missing, backfill_congr (mem_current_workKeys t)]
  rfl

theorem throughout_backfill_current (t : Sessions) :
    Throughout (Booted t) backfillMissingWorkKeys (.legacy true (current t)) :=
  throughout_backfill_of_loop nofun fun n => booted_of_rekeyed (throughout_assign_current _ _ n)

theorem current_ready (t : Sessions) : Ready (current t) where
  indexes := by
    intro i
    cases i <;> simp [current, currentSchema]
  column := nofun

/-- **What the runs of the service assume of a start-up**: wherever `init_db` dies on a
database of the current schema, the table is that after some of the UPDATE statements. -/
theorem initDb_boots (w : Bool) (t : Sessions) :
    Throughout (Booted t) initDb (.legacy w (current t)) := by
  have hback := throughout_backfill_current t
  have hJ : ∀ w, Booted t (.legacy w (current t)) := fun w => ⟨w, 0, rfl⟩
  have hindex : ∀ i, (Stmt.createIndex i).exec (.legacy true (current t)) =
      (.ok (), .legacy true (current t)) := by
    intro i
    have hself := SessionsTable.createIndex_eq_self ((current_ready t).indexes i)
    simp only [Stmt.exec, Db.onSessions, Db.legacy, hself]
  have hscript : Throughout (Booted t) schemaScript (.legacy w (current t)) := by
    refine throughout_then rfl (hJ w) (throughout_then rfl (hJ true) ?_)
    refine throughout_then (hindex .status) (hJ true) ?_
    refine throughout_then (hindex .triggerRef) (hJ true) ?_
    refine throughout_then (hindex .parent) (hJ true) ?_
    refine throughout_then (hindex .started) (hJ true) ?_
    exact throughout_execute.2 ⟨hJ true, by rw [hindex]; exact hJ true⟩
  have heval : schemaScript.run.eval exec (.legacy w (current t)) =
      (.ok (), .legacy true (current t)) := by
    refine (eval_schemaScript w (current t)).trans ?_
    rw [SessionsTable.indexed_eq_self (current_ready t).indexes]
    rfl
  refine (throughout_bind heval).2 ⟨hscript, ?_⟩
  have hkeyed : Throughout (Booted t) addWorkKeyColumn (.legacy true (current t)) :=
    throughout_columnExists.2 ⟨hJ true, (throughout_pure ()).2 (hJ true)⟩
  have hout : Outcome none addWorkKeyColumn (current t) (.ok (current t)) := rfl
  refine Throughout.seq hout hkeyed ?_
  rintro t₀ ⟨⟩
  have hbout : Outcome none backfillMissingWorkKeys (current t) (current t).backfilled :=
    outcome_backfill fun h => by cases h
  refine Throughout.seq hbout hback ?_
  intro t₁ ht₁
  rw [ht₁] at hbout
  obtain ⟨_, n, he⟩ := hback.finish hbout
  cases he
  -- the table is of the current schema still, so that the rest has nothing to do
  have hJ' : Booted t (.legacy true (current (Remediation.backfillMissingWorkKeys n t))) :=
    ⟨true, n, rfl⟩
  generalize Remediation.backfillMissingWorkKeys n t = t' at hJ'
  have hrelax : Throughout (Booted t) relaxNotNull (.legacy true (current t')) :=
    throughout_columnIsNotNull.2 ⟨hJ', (throughout_pure ()).2 hJ'⟩
  refine Throughout.seq outcome_relaxNotNull hrelax ?_
  rintro t₂ ⟨⟩
  have hunique : ∀ s, (current t').createUniqueIndex = .ok s → s = current t' := fun s hs =>
    SessionsTable.ext (SessionsTable.createUniqueIndex_eq_ok hs).1
      (SessionsTable.createUniqueIndex_eq_ok hs).2
  refine Throughout.seq (outcome_execute fun _ => rfl)
    (throughout_statement (fun _ => rfl) hJ' fun s hs => hunique s hs ▸ hJ') ?_
  intro s hs
  rw [hunique s hs]
  exact throughout_columnExists.2 ⟨hJ', (throughout_pure ()).2 hJ'⟩

end Boot

end Migration

end Remediation
