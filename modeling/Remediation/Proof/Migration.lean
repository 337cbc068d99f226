import Remediation.Proof.Backfill

/-!
# What the migration does to a table

`migrate` says what `init_db` makes of a legacy table, without the statements it takes
there; `initDb_realises` ties the two together. When it gets through is `migrate_succeeds`;
it loses nothing then but `structured_output_json`, where the table has to be rebuilt
(`migrate_loses_nothing_iff`).
-/

namespace Remediation

namespace Migration

open Interaction

/-! ## The whole migration of a table -/

namespace SessionsTable

/-- With all the indexes of the fresh-install schema. -/
def indexed (t : SessionsTable) : SessionsTable :=
  t |>.createIndex .status |>.createIndex .triggerRef |>.createIndex .parent
    |>.createIndex .started |>.createIndex .devinId

/-- M1 -/
def keyed (t : SessionsTable) : SessionsTable :=
  match t.addWorkKey with
  | .ok t' => t'
  | .error _ => t

/-- M2 -/
def relaxed (t : SessionsTable) : Except Error SessionsTable :=
  if t.schema.idsNotNull then t.insertCopies freshSessionsNew else .ok t

/-- M4 -/
def structured (t : SessionsTable) : SessionsTable :=
  match t.addStructuredOutput with
  | .ok t' => t'
  | .error _ => t

end SessionsTable

/-- What `init_db` makes of a table. -/
def migrate (t : SessionsTable) : Except Error SessionsTable := do
  let t ← t.indexed.keyed.backfilled
  let t ← t.relaxed
  let t ← t.createUniqueIndex
  return t.structured

namespace SessionsTable

variable {t t' : SessionsTable}

theorem workKeys_congr (h : t'.rows.map (·.row.workKey) = t.rows.map (·.row.workKey)) :
    t'.workKeys = t.workKeys := by
  rw [workKeys, h, workKeys]

theorem missing_eq_nil_congr (h : t'.rows.map (·.row.workKey) = t.rows.map (·.row.workKey)) :
    t'.missing = [] ↔ t.missing = [] := by
  have hall : ∀ s : SessionsTable, s.missing = [] ↔ ∀ k ∈ s.rows.map (·.row.workKey), k ≠ "" := by
    intro s
    rw [missing_eq_nil_iff, List.forall_mem_map]
  rw [hall, hall, h]

theorem missing_congr (h : t'.rows = t.rows) : t'.missing = t.missing := by rw [missing, h, missing]

theorem addWorkKey_eq_ok (h : t.addWorkKey = .ok t') :
    t'.schema = { t.schema with workKeyColumn := .nullable } ∧ t'.rows = t.rows := by
  unfold addWorkKey at h
  split at h
  · cases h
    exact ⟨rfl, rfl⟩
  · cases h

@[simp] theorem keyed_rows (t : SessionsTable) : t.keyed.rows = t.rows := by
  unfold keyed
  split
  · rename_i h
    exact (addWorkKey_eq_ok h).2
  · rfl

theorem keyed_of_ne (h : t.schema.workKeyColumn ≠ .absent) : t.keyed = t := by
  simp [keyed, addWorkKey, h]

theorem keyed_column (t : SessionsTable) : t.keyed.schema.workKeyColumn ≠ .absent := by
  by_cases h : t.schema.workKeyColumn = .absent
  · simp [keyed, addWorkKey, h]
  · rwa [keyed_of_ne h]

theorem keyed_idsNotNull (t : SessionsTable) :
    t.keyed.schema.idsNotNull = t.schema.idsNotNull := by
  unfold keyed
  split
  · rename_i h
    rw [(addWorkKey_eq_ok h).1]
  · rfl

theorem relaxed_of_nullable (h : t.schema.idsNotNull = false) : t.relaxed = .ok t := by
  simp [relaxed, h]

theorem copied_sorted (t : SessionsTable) :
    (t.rows.map LegacyRow.copied).Pairwise fun r r' => r.row.id ≤ r'.row.id := by
  rw [List.pairwise_map]
  exact t.admits.ascending.imp fun h => Nat.le_of_lt h

/-- **What the rebuild does**: every row is copied, into the schema of `sessions_new`. -/
theorem relaxed_eq_ok (hn : t.schema.idsNotNull = true) (h : t.relaxed = .ok t') :
    t'.schema = freshSessionsNew.schema ∧ t'.rows = t.rows.map LegacyRow.copied := by
  rw [relaxed, if_pos hn, insertCopies] at h
  split at h
  · cases h
  · obtain ⟨hs, hr⟩ := check_eq_ok.1 h
    refine ⟨hs, hr.trans ?_⟩
    -- the rows come in the order of their ids
    exact t.copied_sorted.insertionSort_eq

theorem copied_admits (hm : t.missing = []) :
    freshSessionsNew.schema.Admits (t.rows.map LegacyRow.copied) where
  ascending := by
    rw [List.pairwise_map]
    exact t.admits.ascending
  absent := nofun
  notNull := by
    intro _ r hr
    obtain ⟨s, hs, rfl⟩ := List.mem_map.1 hr
    have hk := LegacyRow.workKey_eq (missing_eq_nil_iff.1 hm s hs)
    exact fun he => by cases hk.symm.trans he
  ids := nofun
  structured := by
    intro _ r hr
    obtain ⟨s, -, rfl⟩ := List.mem_map.1 hr
    rfl
  unique := nofun

theorem relaxed_succeeds (hm : t.missing = []) (hc : t.schema.workKeyColumn ≠ .absent) :
    ∃ t', t.relaxed = .ok t' := by
  unfold relaxed
  split
  · refine ⟨⟨freshSessionsNew.schema, t.rows.map LegacyRow.copied, copied_admits hm⟩, ?_⟩
    rw [insertCopies, if_neg (by simp [hc, freshSessionsNew])]
    exact check_eq_ok.2 ⟨rfl, t.copied_sorted.insertionSort_eq.symm⟩
  · exact ⟨t, rfl⟩

/-- Whatever `relaxed` does, the keys stay. -/
theorem relaxed_keys (h : t.relaxed = .ok t') :
    t'.rows.map (·.row.workKey) = t.rows.map (·.row.workKey) := by
  cases hn : t.schema.idsNotNull with
  | false =>
    rw [relaxed_of_nullable hn] at h
    cases h
    rfl
  | true =>
    rw [(relaxed_eq_ok hn h).2, List.map_map]
    rfl

theorem relaxed_column (hc : t.schema.workKeyColumn ≠ .absent) (h : t.relaxed = .ok t') :
    t'.schema.workKeyColumn ≠ .absent := by
  cases hn : t.schema.idsNotNull with
  | false =>
    rw [relaxed_of_nullable hn] at h
    cases h
    exact hc
  | true =>
    rw [(relaxed_eq_ok hn h).1]
    exact nofun

theorem createUniqueIndex_eq_ok (h : t.createUniqueIndex = .ok t') :
    t'.schema = { t.schema with uniqueWorkKey := true } ∧ t'.rows = t.rows := by
  unfold createUniqueIndex at h
  split at h
  · cases h
  · exact check_eq_ok.1 h

/-- **The unique index** can be built exactly if the keys that count are distinct, once no
key is missing. -/
theorem createUniqueIndex_iff (hm : t.missing = []) (hc : t.schema.workKeyColumn ≠ .absent) :
    (∃ t', t.createUniqueIndex = .ok t') ↔ t.workKeys.Nodup := by
  constructor
  · rintro ⟨t', h⟩
    obtain ⟨hs, hr⟩ := createUniqueIndex_eq_ok h
    have hu := t'.admits.unique (by rw [hs])
    rw [workKeys_of_missing hm, ← hr]
    exact hu
  · intro hn
    rw [workKeys_of_missing hm] at hn
    have hadm : ({ t.schema with uniqueWorkKey := true } : Schema).Admits t.rows :=
      { t.admits with unique := fun _ => hn }
    exact ⟨_, (if_neg hc).trans (check_of_admits hadm)⟩

theorem addStructuredOutput_eq_ok (h : t.addStructuredOutput = .ok t') :
    t'.schema = { t.schema with structuredOutputColumn := true } ∧ t'.rows = t.rows := by
  unfold addStructuredOutput at h
  split at h
  · cases h
    exact ⟨rfl, rfl⟩
  · cases h

@[simp] theorem structured_rows (t : SessionsTable) : t.structured.rows = t.rows := by
  unfold structured
  split
  · rename_i h
    exact (addStructuredOutput_eq_ok h).2
  · rfl

theorem structured_of_true (h : t.schema.structuredOutputColumn = true) : t.structured = t := by
  simp [structured, addStructuredOutput, h]

end SessionsTable

/-! ## Which tables can be migrated -/

/-- What the steps of the migration did. -/
theorem migrate_eq_ok {t t' : SessionsTable} (h : migrate t = .ok t') :
    ∃ t₁ t₂ t₃, t.indexed.keyed.backfilled = .ok t₁ ∧ t₁.relaxed = .ok t₂ ∧
      t₂.createUniqueIndex = .ok t₃ ∧ t' = t₃.structured := by
  unfold migrate at h
  cases h₁ : t.indexed.keyed.backfilled with
  | error e => rw [h₁] at h; cases h
  | ok t₁ =>
    rw [h₁] at h
    cases h₂ : t₁.relaxed with
    | error e => simp only [bind, Except.bind, h₂] at h; cases h
    | ok t₂ =>
      cases h₃ : t₂.createUniqueIndex with
      | error e => simp only [bind, Except.bind, h₂, h₃] at h; cases h
      | ok t₃ =>
        simp only [bind, Except.bind, h₂, h₃, pure, Except.pure] at h
        exact ⟨t₁, t₂, t₃, rfl, h₂, h₃, (Except.ok.inj h).symm⟩

/-- The backfill leaves the schema alone. -/
theorem backfilled_idsNotNull {t t₁ : SessionsTable} (h : t.indexed.keyed.backfilled = .ok t₁) :
    t₁.schema.idsNotNull = t.schema.idsNotNull := by
  rw [(SessionsTable.assign_eq_ok rfl h).schema, SessionsTable.keyed_idsNotNull]
  rfl

theorem migrate_of_steps {t t₁ t₂ t₃ : SessionsTable} (h₁ : t.indexed.keyed.backfilled = .ok t₁)
    (h₂ : t₁.relaxed = .ok t₂) (h₃ : t₂.createUniqueIndex = .ok t₃) :
    migrate t = .ok t₃.structured := by
  simp only [migrate, h₁, h₂, h₃, bind, Except.bind, pure, Except.pure]

/-- The migration gets through if the keys are distinct, those given are fresh, and no
number is too long. -/
theorem migrate_succeeds_iff (t : SessionsTable) : (∃ t', migrate t = .ok t') ↔
    t.workKeys.Nodup ∧ (∀ r ∈ t.missing, numberTooLong r = false) ∧ Fresh t.workKeys t.missing := by
  have hrows : t.indexed.keyed.rows = t.rows := SessionsTable.keyed_rows _
  have hm := SessionsTable.missing_congr hrows
  have hk := SessionsTable.workKeys_congr (congrArg (List.map (·.row.workKey)) hrows)
  have hc := t.indexed.keyed_column
  constructor
  · rintro ⟨t', h⟩
    obtain ⟨t₁, t₂, t₃, h₁, h₂, h₃, -⟩ := migrate_eq_ok h
    obtain ⟨hs, hmiss, -, hshort, hkeys⟩ := SessionsTable.assign_eq_ok rfl h₁
    have hrk := SessionsTable.relaxed_keys h₂
    have hmiss₂ := (SessionsTable.missing_eq_nil_congr hrk).2 hmiss
    have hc₂ := SessionsTable.relaxed_column (by rwa [hs]) h₂
    -- the index could be built, so that the keys are distinct after the backfill
    have hnd := (SessionsTable.createUniqueIndex_iff hmiss₂ hc₂).1 ⟨t₃, h₃⟩
    rw [SessionsTable.workKeys_congr hrk, hkeys.nodup_iff, nodup_given_iff (fun _ => Iff.rfl),
      hk, hm] at hnd
    rw [hm] at hshort
    exact ⟨hnd.1, hshort, hnd.2⟩
  · rintro ⟨hnd, hshort, hf⟩
    obtain ⟨t₁, h₁⟩ := SessionsTable.assign_succeeds rfl (fun _ => Iff.rfl) hc
      (by rwa [hm]) fun _ => by rwa [hm, hk]
    obtain ⟨hs, hmiss, -, -, hkeys⟩ := SessionsTable.assign_eq_ok rfl h₁
    have hc₁ : t₁.schema.workKeyColumn ≠ .absent := by rwa [hs]
    obtain ⟨t₂, h₂⟩ := SessionsTable.relaxed_succeeds hmiss hc₁
    have hrk := SessionsTable.relaxed_keys h₂
    have hnd₂ : t₂.workKeys.Nodup := by
      rw [SessionsTable.workKeys_congr hrk, hkeys.nodup_iff, nodup_given_iff (fun _ => Iff.rfl),
        hk, hm]
      exact ⟨hnd, hf⟩
    obtain ⟨t₃, h₃⟩ := (SessionsTable.createUniqueIndex_iff
      ((SessionsTable.missing_eq_nil_congr hrk).2 hmiss)
      (SessionsTable.relaxed_column hc₁ h₂)).2 hnd₂
    exact ⟨_, migrate_of_steps h₁ h₂ h₃⟩

/-- A table is what the migration was to make of another. -/
structure LosesNothing (t t' : SessionsTable) : Prop extends Kept t t' where
  nonempty : ∀ r ∈ t'.rows, r.row.workKey ≠ ""
  distinct : (t'.rows.map (·.row.workKey)).Nodup

/-- **Nothing is lost but `structured_output_json`**, and that only if the table has to be
rebuilt. -/
theorem migrate_loses_nothing_iff {t t' : SessionsTable} (h : migrate t = .ok t') :
    LosesNothing t t' ↔
      (t.schema.idsNotNull = true → ∀ r ∈ t.rows, r.row.structuredOutputJson = none) := by
  obtain ⟨t₁, t₂, t₃, h₁, h₂, h₃, rfl⟩ := migrate_eq_ok h
  obtain ⟨-, hmiss, hkept₀, -, -⟩ := SessionsTable.assign_eq_ok rfl h₁
  have hrows₀ : t.indexed.keyed.rows = t.rows := SessionsTable.keyed_rows _
  have hkept : Kept t t₁ := ⟨by rw [hkept₀.others, hrows₀], by rw [← hrows₀]; exact hkept₀.keyed⟩
  have hnull := backfilled_idsNotNull h₁
  obtain ⟨hs₃, hr₃⟩ := SessionsTable.createUniqueIndex_eq_ok h₃
  have hrows : t₃.structured.rows = t₂.rows := (SessionsTable.structured_rows _).trans hr₃
  have hmiss₃ : t₃.structured.missing = [] :=
    (SessionsTable.missing_eq_nil_congr (by rw [hrows, SessionsTable.relaxed_keys h₂])).2 hmiss
  have hdistinct : (t₃.structured.rows.map (·.row.workKey)).Nodup := by
    rw [← SessionsTable.workKeys_eq_map hmiss₃, SessionsTable.workKeys_of_missing hmiss₃,
      SessionsTable.structured_rows]
    exact t₃.admits.unique (by rw [hs₃])
  constructor
  · rintro ⟨hk, -, -⟩ hn r hr
    have hr₂ := (SessionsTable.relaxed_eq_ok (hnull.trans hn) h₂).2
    obtain ⟨s, hs, he⟩ := hk.exists_row' SessionRow.structuredOutputJson (fun _ _ => rfl) hr
    rw [hrows, hr₂] at hs
    obtain ⟨q, -, rfl⟩ := List.mem_map.1 hs
    exact he.symm
  · intro hso
    have hr₂ : t₂.rows = t₁.rows := by
      cases hn : t.schema.idsNotNull with
      | false =>
        rw [SessionsTable.relaxed_of_nullable (hnull.trans hn)] at h₂
        cases h₂
        rfl
      | true =>
        -- a copy of a row without structured output is that row
        rw [(SessionsTable.relaxed_eq_ok (hnull.trans hn) h₂).2]
        refine (List.map_congr_left fun r hr => LegacyRow.copied_eq_self ?_).trans (List.map_id _)
        obtain ⟨s, hs, he⟩ := hkept.exists_row SessionRow.structuredOutputJson (fun _ _ => rfl) hr
        exact he.symm.trans (hso hn s hs)
    rw [hr₂] at hrows
    refine ⟨⟨by rw [hrows, hkept.others], by rw [hrows]; exact hkept.keyed⟩, ?_, hdistinct⟩
    exact SessionsTable.missing_eq_nil_iff.1 hmiss₃

/-! ## The statements come to that -/

section Outcome

variable {new : Option SessionsTable} {t : SessionsTable}

/-- A program that finds the table `t` leaves what `r` says, or raises what `r` says. -/
def Outcome (new : Option SessionsTable) (p : M Unit) (t : SessionsTable)
    (r : Except Error SessionsTable) : Prop :=
  match r with
  | .ok t' => p.run.eval exec ⟨true, some t, new⟩ = (.ok (), ⟨true, some t', new⟩)
  | .error e => (p.run.eval exec ⟨true, some t, new⟩).1 = .error e

theorem Outcome.bind {p q : M Unit} {r : Except Error SessionsTable}
    {g : SessionsTable → Except Error SessionsTable} (hp : Outcome new p t r)
    (hq : ∀ t', r = .ok t' → Outcome new q t' (g t')) :
    Outcome new (do p; q) t (r >>= g) := by
  cases r with
  | ok t' =>
    have hq' := hq t' rfl
    have heval : (do p; q : M Unit).run.eval exec ⟨true, some t, new⟩ =
        q.run.eval exec ⟨true, some t', new⟩ := Prog.eval_bind_ok hp
    change Outcome new (do p; q) t (g t')
    unfold Outcome at hq' ⊢
    rw [heval]
    exact hq'
  | error e =>
    exact congrArg Prod.fst (Prog.eval_bind_error (f := fun _ => q) (Prod.ext hp rfl))

/-- A statement on `sessions`. -/
theorem outcome_execute {s : Stmt} {f : SessionsTable → Except Error SessionsTable}
    (hs : ∀ d, s.exec d = d.onSessions f) : Outcome new (execute s) t (f t) := by
  have heval : (execute s).run.eval exec ⟨true, some t, new⟩ =
      (⟨true, some t, new⟩ : Db).onSessions f := hs _
  unfold Outcome
  rw [heval]
  simp only [Db.onSessions]
  cases f t with
  | ok t' => rfl
  | error e => rfl

theorem eval_schemaScript (w : Bool) (t : SessionsTable) :
    schemaScript.run.eval exec ⟨w, some t, new⟩ = (.ok (), ⟨true, some t.indexed, new⟩) := rfl

/-- Asking for a column leads to one of two programs. -/
theorem outcome_columnExists (c : Column) {p q : M Unit} {r : Except Error SessionsTable}
    (h : Outcome new (if t.columnExists c then p else q) t r) :
    Outcome new (do if ← columnExists c then p else q) t r := h

theorem outcome_addWorkKeyColumn : Outcome new addWorkKeyColumn t (.ok t.keyed) := by
  refine outcome_columnExists .workKey ?_
  have hadd : Outcome new (execute .addWorkKey) t t.addWorkKey := outcome_execute fun _ => rfl
  by_cases h : t.schema.workKeyColumn = .absent
  · rw [if_neg (by simp [SessionsTable.columnExists, h])]
    simpa [SessionsTable.keyed, SessionsTable.addWorkKey, h] using hadd
  · rw [if_pos (by simp [SessionsTable.columnExists, h]), SessionsTable.keyed_of_ne h]
    exact rfl

theorem outcome_addStructuredOutputColumn :
    Outcome new addStructuredOutputColumn t (.ok t.structured) := by
  refine outcome_columnExists .structuredOutputJson ?_
  have hadd : Outcome new (execute .addStructuredOutput) t t.addStructuredOutput :=
    outcome_execute fun _ => rfl
  cases h : t.schema.structuredOutputColumn with
  | false =>
    rw [if_neg (by simp [SessionsTable.columnExists, h])]
    simpa [SessionsTable.structured, SessionsTable.addStructuredOutput, h] using hadd
  | true =>
    rw [if_pos (by simp [SessionsTable.columnExists, h]), SessionsTable.structured_of_true h]
    exact rfl

theorem outcome_assignWorkKeys (e : List String) (rs : List SessionRow) :
    Outcome new (assignWorkKeys e rs) t (t.assign e rs) := by
  induction rs generalizing e t with
  | nil => exact rfl
  | cons r rs ih =>
    rw [assignWorkKeys, SessionsTable.assign]
    split
    · exact rfl
    · have hu : Outcome new (execute (.updateWorkKey r.id (backfilledKey e r))) t
          (t.updateWorkKey r.id (backfilledKey e r)) := outcome_execute fun _ => rfl
      exact hu.bind fun t' _ => ih _

/-- What the queries of the backfill find. -/
theorem backfill_eval (hc : t.schema.workKeyColumn ≠ .absent) :
    backfillMissingWorkKeys.run.eval exec ⟨true, some t, new⟩ =
      (assignWorkKeys t.workKeys t.missing).run.eval exec ⟨true, some t, new⟩ := by
  have hm : selectMissing.run.eval exec ⟨true, some t, new⟩ =
      (.ok t.missing, ⟨true, some t, new⟩) := Prod.ext (if_neg hc) rfl
  have hk : selectWorkKeys.run.eval exec ⟨true, some t, new⟩ =
      (.ok t.workKeys, ⟨true, some t, new⟩) := Prod.ext (if_neg hc) rfl
  rw [backfillMissingWorkKeys, Prog.eval_bind_ok hm]
  cases hmiss : t.missing with
  | nil => rfl
  | cons r rs => exact Prog.eval_bind_ok hk

theorem outcome_backfill (hc : t.schema.workKeyColumn ≠ .absent) :
    Outcome new backfillMissingWorkKeys t t.backfilled := by
  have hassign : Outcome new (assignWorkKeys t.workKeys t.missing) t t.backfilled :=
    outcome_assignWorkKeys _ _
  unfold Outcome at hassign ⊢
  rwa [backfill_eval hc]

theorem outcome_columnIsNotNull (c : Column) {p q : M Unit} {r : Except Error SessionsTable}
    (h : Outcome new (if t.columnIsNotNull c then p else q) t r) :
    Outcome new (do if ← columnIsNotNull c then p else q) t r := h

/-- The rebuild, where the name of the new table is free. -/
theorem outcome_rebuildSessionsTable :
    Outcome none rebuildSessionsTable t (t.insertCopies freshSessionsNew) := by
  have hcreate : (execute .createSessionsNew).run.eval exec ⟨true, some t, none⟩ =
      (.ok (), ⟨true, some t, some freshSessionsNew⟩) := rfl
  have hcopy : (execute .copySessions).run.eval exec ⟨true, some t, some freshSessionsNew⟩ =
      Stmt.copySessions.exec ⟨true, some t, some freshSessionsNew⟩ := rfl
  unfold Outcome
  rw [rebuildSessionsTable, Prog.eval_bind_ok hcreate]
  simp only [Stmt.exec] at hcopy
  cases hins : t.insertCopies freshSessionsNew with
  | ok t' =>
    rw [hins] at hcopy
    simp only
    rw [Prog.eval_bind_ok hcopy]
    rfl
  | error e =>
    rw [hins] at hcopy
    simp only
    rw [Prog.eval_bind_error hcopy]

theorem outcome_relaxNotNull : Outcome none relaxNotNull t t.relaxed := by
  refine outcome_columnIsNotNull .devinSessionId ?_
  cases hn : t.schema.idsNotNull with
  | false =>
    rw [if_neg (by simp [SessionsTable.columnIsNotNull, hn]), SessionsTable.relaxed_of_nullable hn]
    exact rfl
  | true =>
    rw [if_pos (by simp [SessionsTable.columnIsNotNull, hn]), SessionsTable.relaxed, if_pos hn]
    exact outcome_rebuildSessionsTable

/-- **The migration statement by statement** does to a legacy table what `migrate` says. -/
theorem initDb_realises (w : Bool) (t : SessionsTable) :
    match migrate t with
    | .ok t' => initDb.run.eval exec ⟨w, some t, none⟩ = (.ok (), ⟨true, some t', none⟩)
    | .error e => (initDb.run.eval exec ⟨w, some t, none⟩).1 = .error e := by
  have hrest : Outcome none
      (do addWorkKeyColumn; backfillMissingWorkKeys; relaxNotNull; execute .createUniqueIndex
          addStructuredOutputColumn) t.indexed (migrate t) := by
    have hmigrate : migrate t = (Except.ok t.indexed.keyed >>= fun t => t.backfilled >>= fun t =>
      t.relaxed >>= fun t => t.createUniqueIndex >>= fun t => .ok t.structured) := rfl
    rw [hmigrate]
    refine outcome_addWorkKeyColumn.bind ?_
    rintro t₀ ⟨⟩
    refine (outcome_backfill t.indexed.keyed_column).bind ?_
    intro t₁ _
    refine outcome_relaxNotNull.bind ?_
    intro t₂ _
    have hunique : Outcome none (execute .createUniqueIndex) t₂ t₂.createUniqueIndex :=
      outcome_execute fun _ => rfl
    exact hunique.bind fun t₃ _ => outcome_addStructuredOutputColumn
  have heval : initDb.run.eval exec ⟨w, some t, none⟩ = _ := Prog.eval_bind_ok (eval_schemaScript w t)
  rw [heval]
  exact hrest

end Outcome

/-! ## The migration is total and loses nothing -/

/-- A database with a table of an earlier schema, or of this one. -/
def Db.legacy (webhookEvents : Bool) (t : SessionsTable) : Db := ⟨webhookEvents, some t, none⟩

/-- Starting up succeeds, and loses nothing. -/
def Migrates (d : Db) (t : SessionsTable) : Prop :=
  (initDb.run.eval exec d).1 = .ok () ∧
    ∃ t', (initDb.run.eval exec d).2.sessions = some t' ∧ LosesNothing t t'

instance (t : SessionsTable) (r : SessionRow) : Decidable (Clash t r) :=
  inferInstanceAs (Decidable (_ ∨ _))

theorem migrates_iff (w : Bool) (t : SessionsTable) :
    Migrates (.legacy w t) t ↔ ∃ t', migrate t = .ok t' ∧ LosesNothing t t' := by
  have hreal := initDb_realises w t
  unfold Migrates Db.legacy
  cases hm : migrate t with
  | ok t' =>
    rw [hm] at hreal
    simp only [hreal, Option.some.injEq, Except.ok.injEq, true_and]
  | error e =>
    rw [hm] at hreal
    simp [hreal]

/-- The migration gets through, in terms of the table it is given. -/
theorem migrate_succeeds (t : SessionsTable) : (∃ t', migrate t = .ok t') ↔
    t.workKeys.Nodup ∧ ∀ r ∈ t.missing, numberTooLong r = false ∧ (Taken t r → ¬Clash t r) := by
  rw [migrate_succeeds_iff, fresh_iff, forall₂_and]
  simp only [not_and]

/-- **The migration is total and loses nothing**, for every table with distinct keys, exactly
if a table that has to be rebuilt has no structured output in it, no issue number is too long
for `int`, and no keyless row whose canonical key is taken finds its suffixed key taken as
well. -/
theorem migration_loses_nothing_iff (w : Bool) (t : SessionsTable) (hk : t.workKeys.Nodup) :
    Migrates (.legacy w t) t ↔
      (t.schema.idsNotNull = true → ∀ r ∈ t.rows, r.row.structuredOutputJson = none) ∧
        ∀ r ∈ t.missing, numberTooLong r = false ∧ (Taken t r → ¬Clash t r) := by
  rw [migrates_iff]
  constructor
  · rintro ⟨t', hm, hl⟩
    exact ⟨(migrate_loses_nothing_iff hm).1 hl, ((migrate_succeeds t).1 ⟨t', hm⟩).2⟩
  · rintro ⟨hso, hrows⟩
    obtain ⟨t', hm⟩ := (migrate_succeeds t).2 ⟨hk, hrows⟩
    exact ⟨t', hm, (migrate_loses_nothing_iff hm).2 hso⟩

namespace Legacy

/-- A row for issue 7. -/
def row (id : ℕ) (workKey structuredOutputJson : Option String) : LegacyRow where
  workKey := workKey
  row :=
    { id := id
      workKey := workKey.getD ""
      devinSessionId := some "devin-1"
      triggerType := .cveIssue
      triggerRef := "https://github.com/o/r/issues/7"
      issueNumber := some 7
      label := some "bug"
      status := .completed
      startedAt := 0
      structuredOutputJson := structuredOutputJson }
  agree := rfl

/-- The original schema, with two rows for one issue. -/
def twoAlike : SessionsTable where
  schema :=
    { workKeyColumn := .absent, idsNotNull := true, structuredOutputColumn := false
      indexes := ∅, uniqueWorkKey := false }
  rows := [row 1 none none, row 2 none none]
  admits := by decide

/-- The third row finds its canonical key taken by the first, and its suffixed key by the
second, the row of a label that ends in a suffix. -/
def namesakes : SessionsTable where
  schema :=
    { workKeyColumn := .nullable, idsNotNull := false, structuredOutputColumn := true
      indexes := ∅, uniqueWorkKey := false }
  rows :=
    [row 1 (some "issue:o/r:7:bug") none, row 2 (some "issue:o/r:7:bug:dup:3") none,
      row 3 none none]
  admits := by decide

/-- A row with structured output in a table that has to be rebuilt. -/
def withOutput : SessionsTable where
  schema :=
    { workKeyColumn := .nullable, idsNotNull := true, structuredOutputColumn := true
      indexes := ∅, uniqueWorkKey := false }
  rows := [row 1 none (some "{}")]
  admits := by decide

theorem two_alike_migrated : Migrates (.legacy false twoAlike) twoAlike :=
  (migration_loses_nothing_iff false twoAlike (by decide)).2
    ⟨by decide, fun r hr =>
      ⟨(by decide +kernel : ∀ r ∈ twoAlike.missing, numberTooLong r = false) r hr, fun _ =>
        (by decide +kernel : ∀ r ∈ twoAlike.missing, ¬Clash twoAlike r) r hr⟩⟩

/-- The unique index cannot be built, and the output is lost. -/
theorem not_total_and_lossy :
    (namesakes.workKeys.Nodup ∧ ¬Migrates (.legacy false namesakes) namesakes) ∧
      withOutput.workKeys.Nodup ∧ ¬Migrates (.legacy false withOutput) withOutput := by
  have hfail : (initDb.run.eval exec (.legacy false namesakes)).1 = .error .integrityError := by
    decide +kernel
  have hlost : (initDb.run.eval exec (.legacy false withOutput)).2.sessions.map
      (fun t => t.rows.map fun r => r.row.structuredOutputJson) = some [none] := by
    decide +kernel
  refine ⟨⟨by decide, fun h => ?_⟩, by decide, ?_⟩
  · rw [Migrates, hfail] at h
    cases h.1
  · rintro ⟨-, t', ht', hl⟩
    rw [ht', Option.map_some, hl.map_eq SessionRow.structuredOutputJson fun _ _ => rfl] at hlost
    cases hlost

end Legacy

end Migration

end Remediation
