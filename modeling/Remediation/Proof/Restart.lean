import Remediation.Proof.Migration

/-!
# Dying during the migration

A start-up may be killed between any two of its statements, and the next one begins with
what it left. As long as the table is not rebuilt, no statement changes what `migrate`
makes of the table (`migrate_throughout`), so that the next start-up ends where the killed
one would have. The rebuild loses this: between its CREATE and its DROP no start-up succeeds
any more, and between its DROP and its RENAME the next one succeeds without the rows.
-/

namespace Remediation

namespace Migration

open Interaction

/-! ## What holds wherever a program may die -/

section Throughout

variable {α β : Type} {J : Db → Prop} {d d' : Db} {w : Bool} {t : SessionsTable}
  {new : Option SessionsTable}

/-- `J` holds wherever the program may die. -/
def Throughout (J : Db → Prop) (p : M α) (d : Db) : Prop := ∀ n, J (p.run.killedAfter exec n d)

theorem Throughout.start {p : M α} (h : Throughout J p d) : J d := by
  have h₀ := h 0
  cases hp : p.run <;> rw [hp] at h₀ <;> exact h₀

theorem throughout_bind {p : M α} {f : α → M β} {a : α} (hp : p.run.eval exec d = (.ok a, d')) :
    Throughout J (p >>= f) d ↔ Throughout J p d ∧ Throughout J (f a) d' :=
  Prog.killedAfter_bind_ok_iff hp

theorem throughout_pure (a : α) : Throughout J (pure a : M α) d ↔ J d :=
  Prog.killedAfter_ret_iff _

theorem throughout_throw (e : Error) : Throughout J (throw e : M α) d ↔ J d :=
  Prog.killedAfter_ret_iff _

theorem throughout_execute {s : Stmt} :
    Throughout J (execute s) d ↔ J d ∧ J (s.exec d).2 := by
  refine (Prog.killedAfter_call_iff (Op.execute s) Prog.ret).trans (and_congr_right fun _ => ?_)
  exact Prog.killedAfter_ret_iff _

/-- A statement that succeeds, and what comes after it. -/
theorem throughout_then {s : Stmt} {q : M β} (hs : s.exec d = (.ok (), d')) (hJ : J d)
    (hq : Throughout J q d') : Throughout J (do execute s; q) d := by
  have heval : (execute s).run.eval exec d = (.ok (), d') := hs
  refine (throughout_bind heval).2 ⟨throughout_execute.2 ⟨hJ, ?_⟩, hq⟩
  rw [hs]
  exact hq.start

/-- Asking for a column changes nothing. -/
theorem throughout_columnExists {c : Column} {p q : M β} :
    Throughout J (do if ← columnExists c then p else q) ⟨w, some t, new⟩ ↔
      J ⟨w, some t, new⟩ ∧ Throughout J (if t.columnExists c then p else q) ⟨w, some t, new⟩ :=
  Prog.killedAfter_call_iff (Op.columnExists c) fun b : Bool => (if b then p else q : M β).run

theorem throughout_columnIsNotNull {c : Column} {p q : M β} :
    Throughout J (do if ← columnIsNotNull c then p else q) ⟨w, some t, new⟩ ↔
      J ⟨w, some t, new⟩ ∧ Throughout J (if t.columnIsNotNull c then p else q) ⟨w, some t, new⟩ :=
  Prog.killedAfter_call_iff (Op.columnIsNotNull c) fun b : Bool => (if b then p else q : M β).run

/-- Nor does a query. -/
theorem throughout_query {op : Op} (hop : ∀ d, (exec op d).2 = d) :
    (∀ n, J ((Prog.call op Prog.ret).killedAfter exec n d)) ↔ J d := by
  rw [Prog.killedAfter_call_iff, hop, Prog.killedAfter_ret_iff, and_self]

/-- `J` holds in the end as well. -/
theorem Throughout.finish {p : M α} {a : Except Error α} (h : Throughout J p d)
    (hp : p.run.eval exec d = (a, d')) : J d' := by
  have hJ := Prog.eval_of_killedAfter p.run h
  rwa [hp] at hJ

/-- The second of two programs starts where the first one got to, if it did. -/
theorem Throughout.seq {p q : M Unit} {r : Except Error SessionsTable} (hr : Outcome new p t r)
    (hp : Throughout J p ⟨true, some t, new⟩)
    (hq : ∀ t', r = .ok t' → Throughout J q ⟨true, some t', new⟩) :
    Throughout J (do p; q) ⟨true, some t, new⟩ := by
  cases r with
  | ok t' => exact (throughout_bind hr).2 ⟨hp, hq t' rfl⟩
  | error e => exact (Prog.killedAfter_bind_error_iff (Prod.ext hr rfl)).2 hp

/-- A statement on `sessions` that keeps `J` if it succeeds. -/
theorem throughout_statement {s : Stmt} {f : SessionsTable → Except Error SessionsTable}
    (hs : ∀ d, s.exec d = d.onSessions f) (hJ : J ⟨w, some t, new⟩)
    (hJ' : ∀ t', f t = .ok t' → J ⟨w, some t', new⟩) : Throughout J (execute s) ⟨w, some t, new⟩ := by
  refine throughout_execute.2 ⟨hJ, ?_⟩
  rw [hs]
  simp only [Db.onSessions]
  cases hf : f t with
  | ok t' => exact hJ' t' hf
  | error e => exact hJ

/-- The queries of the backfill change nothing. -/
theorem throughout_backfill_of_loop (hc : t.schema.workKeyColumn ≠ .absent)
    (hloop : Throughout J (assignWorkKeys t.workKeys t.missing) (.legacy true t)) :
    Throughout J backfillMissingWorkKeys (.legacy true t) := by
  have hJ := hloop.start
  have hmissing : selectMissing.run.eval exec (.legacy true t) = (.ok t.missing, .legacy true t) :=
    Prod.ext (if_neg hc) rfl
  have hkeys : selectWorkKeys.run.eval exec (.legacy true t) = (.ok t.workKeys, .legacy true t) :=
    Prod.ext (if_neg hc) rfl
  refine (throughout_bind hmissing).2 ⟨(throughout_query fun _ => rfl).2 hJ, ?_⟩
  split
  · exact (throughout_pure ()).2 hJ
  · exact (throughout_bind hkeys).2 ⟨(throughout_query fun _ => rfl).2 hJ, hloop⟩

end Throughout

/-! ## Statements that leave the outcome alone -/

section Invariance

variable {t t' : SessionsTable}

theorem SessionsTable.mem_indexed (t : SessionsTable) (i : SessionsIndex) :
    i ∈ t.indexed.schema.indexes := by
  cases i <;> simp [SessionsTable.indexed, SessionsTable.createIndex]

/-- An index that is there is not created again. -/
theorem SessionsTable.createIndex_eq_self {i : SessionsIndex} (h : i ∈ t.schema.indexes) :
    t.createIndex i = t := by
  refine SessionsTable.ext ?_ rfl
  simp [SessionsTable.createIndex, h]

theorem SessionsTable.indexed_eq_self (h : ∀ i, i ∈ t.schema.indexes) : t.indexed = t := by
  simp only [SessionsTable.indexed, SessionsTable.createIndex_eq_self (h _)]

theorem migrate_createIndex (i : SessionsIndex) (t : SessionsTable) :
    migrate (t.createIndex i) = migrate t := by
  have hind : (t.createIndex i).indexed = t.indexed := by
    refine SessionsTable.ext ?_ rfl
    cases i <;> simp [SessionsTable.indexed, SessionsTable.createIndex, Finset.insert_comm]
  rw [migrate, hind, migrate]

/-- The indexes and the column `work_key` are there. -/
structure Ready (t : SessionsTable) : Prop where
  indexes : ∀ i, i ∈ t.schema.indexes
  column : t.schema.workKeyColumn ≠ .absent

theorem Ready.of_schema (h : Ready t) (hs : t'.schema = t.schema) : Ready t' :=
  ⟨by rw [hs]; exact h.indexes, by rw [hs]; exact h.column⟩

theorem Ready.eq_self (h : Ready t) : t.indexed.keyed = t := by
  rw [SessionsTable.indexed_eq_self h.indexes, SessionsTable.keyed_of_ne h.column]

theorem Ready.of_indexes (hi : ∀ i, i ∈ t.schema.indexes) : Ready t.keyed where
  indexes := by
    unfold SessionsTable.keyed
    split
    · rename_i h
      rw [(SessionsTable.addWorkKey_eq_ok h).1]
      exact hi
    · exact hi
  column := t.keyed_column

theorem migrate_keyed (hi : ∀ i, i ∈ t.schema.indexes) : migrate t.keyed = migrate t := by
  rw [migrate, (Ready.of_indexes hi).eq_self, migrate, SessionsTable.indexed_eq_self hi]

/-- Once no key is missing, the backfill has nothing to do. -/
theorem backfilled_of_missing (hm : t.missing = []) : t.backfilled = .ok t := by
  rw [SessionsTable.backfilled, hm]
  rfl

/-- **An UPDATE leaves the outcome alone**: the rest of the backfill is what it was. -/
theorem migrate_updateWorkKey (ht : Ready t) {e : List String} {r : SessionRow}
    {rs : List SessionRow} (hm : t.missing = r :: rs) (he : ∀ k, k ∈ e ↔ k ∈ t.workKeys)
    (hshort : numberTooLong r = false)
    (h : t.updateWorkKey r.id (backfilledKey e r) = .ok t') : migrate t' = migrate t := by
  have hs := (SessionsTable.updateWorkKey_eq_ok h).2.1
  obtain ⟨_, _, _, -, -, -, hm', hkeys⟩ :=
    SessionsTable.updateWorkKey_missing hm (backfilledKey_ne e r) h
  have hrest : t'.backfilled = t.backfilled := by
    have hstep : t.backfilled = t.assign e (r :: rs) := by
      rw [SessionsTable.backfilled, hm]
      exact SessionsTable.assign_congr (fun k => (he k).symm) _ t
    rw [hstep, SessionsTable.assign, if_neg (by simp [hshort]), h, SessionsTable.backfilled, hm']
    refine SessionsTable.assign_congr (fun k => ?_) rs t'
    rw [hkeys.mem_iff, mem_cons_congr he]
  rw [migrate, (ht.of_schema hs).eq_self, hrest, migrate, ht.eq_self]

/-- A table that has been migrated up to M4. -/
structure Settled (t : SessionsTable) : Prop extends Ready t where
  missing : t.missing = []
  nullable : t.schema.idsNotNull = false
  unique : t.schema.uniqueWorkKey = true

theorem Settled.migrate_eq (h : Settled t) : migrate t = .ok t.structured := by
  refine migrate_of_steps ?_ (SessionsTable.relaxed_of_nullable h.nullable) ?_
  · rw [h.toReady.eq_self]
    exact backfilled_of_missing h.missing
  · rw [SessionsTable.createUniqueIndex, if_neg h.column]
    exact SessionsTable.check_eq_ok.2 ⟨by rw [← h.unique], rfl⟩

theorem SessionsTable.structured_schema (t : SessionsTable) :
    t.structured.schema = { t.schema with structuredOutputColumn := true } := by
  cases h : t.schema.structuredOutputColumn with
  | false => simp [SessionsTable.structured, SessionsTable.addStructuredOutput, h]
  | true => rw [SessionsTable.structured_of_true h, ← h]

theorem Settled.structured (h : Settled t) : Settled t.structured where
  indexes := by rw [SessionsTable.structured_schema]; exact h.indexes
  column := by rw [SessionsTable.structured_schema]; exact h.column
  missing := (SessionsTable.missing_congr (SessionsTable.structured_rows t)).trans h.missing
  nullable := by rw [SessionsTable.structured_schema]; exact h.nullable
  unique := by rw [SessionsTable.structured_schema]; exact h.unique

/-- A further run changes nothing. -/
theorem Settled.migrate_structured (h : Settled t) : migrate t.structured = migrate t := by
  rw [h.structured.migrate_eq, h.migrate_eq,
    SessionsTable.structured_of_true (by rw [SessionsTable.structured_schema])]

theorem Settled.of_createUniqueIndex (ht : Ready t) (hm : t.missing = [])
    (hn : t.schema.idsNotNull = false) (h : t.createUniqueIndex = .ok t') : Settled t' := by
  obtain ⟨hs, hr⟩ := SessionsTable.createUniqueIndex_eq_ok h
  exact
    { indexes := by rw [hs]; exact ht.indexes
      column := by rw [hs]; exact ht.column
      missing := (SessionsTable.missing_congr hr).trans hm
      nullable := by rw [hs]; exact hn
      unique := by rw [hs] }

/-- Building the unique index leaves the outcome alone. -/
theorem migrate_createUniqueIndex (ht : Ready t) (hm : t.missing = [])
    (hn : t.schema.idsNotNull = false) (h : t.createUniqueIndex = .ok t') :
    migrate t' = migrate t := by
  rw [(Settled.of_createUniqueIndex ht hm hn h).migrate_eq]
  refine (migrate_of_steps ?_ (SessionsTable.relaxed_of_nullable hn) h).symm
  rw [ht.eq_self]
  exact backfilled_of_missing hm

end Invariance

/-! ## The outcome is the same wherever the process dies -/

section Nullable

variable {r : Except Error SessionsTable} {t : SessionsTable}

/-- A table that will not be rebuilt, and of which `migrate` makes `r`. -/
structure LeadsTo (r : Except Error SessionsTable) (t : SessionsTable) : Prop where
  nullable : t.schema.idsNotNull = false
  outcome : migrate t = r

/-- The same of a database with that table. -/
def DbLeadsTo (r : Except Error SessionsTable) (d : Db) : Prop :=
  ∃ w t, d = .legacy w t ∧ LeadsTo r t

theorem LeadsTo.db (h : LeadsTo r t) (w : Bool) : DbLeadsTo r (.legacy w t) := ⟨w, t, rfl, h⟩

theorem dbLeadsTo_legacy {w : Bool} : DbLeadsTo r (.legacy w t) ↔ LeadsTo r t := by
  constructor
  · rintro ⟨w', t', he, h⟩
    cases he
    exact h
  · exact fun h => h.db w

theorem LeadsTo.createIndex (h : LeadsTo r t) (i : SessionsIndex) : LeadsTo r (t.createIndex i) :=
  ⟨h.nullable, (migrate_createIndex i t).trans h.outcome⟩

theorem LeadsTo.indexed (h : LeadsTo r t) : LeadsTo r t.indexed :=
  h.createIndex .status |>.createIndex .triggerRef |>.createIndex .parent |>.createIndex .started
    |>.createIndex .devinId

theorem throughout_schemaScript (h : LeadsTo r t) (w : Bool) :
    Throughout (DbLeadsTo r) schemaScript (.legacy w t) := by
  have h₁ := h.createIndex .status
  have h₂ := h₁.createIndex .triggerRef
  have h₃ := h₂.createIndex .parent
  have h₄ := h₃.createIndex .started
  refine throughout_then rfl (h.db w) ?_
  refine throughout_then rfl (h.db true) ?_
  refine throughout_then rfl (h.db true) ?_
  refine throughout_then rfl (h₁.db true) ?_
  refine throughout_then rfl (h₂.db true) ?_
  refine throughout_then rfl (h₃.db true) ?_
  exact throughout_execute.2 ⟨h₄.db true, (h₄.createIndex .devinId).db true⟩

theorem LeadsTo.keyed (h : LeadsTo r t) (hi : ∀ i, i ∈ t.schema.indexes) : LeadsTo r t.keyed :=
  ⟨t.keyed_idsNotNull.trans h.nullable, (migrate_keyed hi).trans h.outcome⟩

theorem throughout_addWorkKeyColumn (h : LeadsTo r t) (hi : ∀ i, i ∈ t.schema.indexes) :
    Throughout (DbLeadsTo r) addWorkKeyColumn (.legacy true t) := by
  refine throughout_columnExists.2 ⟨h.db true, ?_⟩
  split
  · exact (throughout_pure ()).2 (h.db true)
  · refine throughout_statement (fun _ => rfl) (h.db true) ?_
    intro t' ht'
    have hkeyed : t.keyed = t' := by rw [SessionsTable.keyed, ht']
    rw [← hkeyed]
    exact (h.keyed hi).db true

/-- The loop of the backfill, from any of its rounds on. -/
theorem throughout_assignWorkKeys {e : List String} {rs : List SessionRow} (h : LeadsTo r t)
    (ht : Ready t) (hm : t.missing = rs) (he : ∀ k, k ∈ e ↔ k ∈ t.workKeys) :
    Throughout (DbLeadsTo r) (assignWorkKeys e rs) (.legacy true t) := by
  induction rs generalizing e t with
  | nil => exact (throughout_pure ()).2 (h.db true)
  | cons q rs ih =>
    rw [assignWorkKeys]
    split
    · exact (throughout_throw _).2 (h.db true)
    · rename_i hlong
      have hu : Outcome none (execute (.updateWorkKey q.id (backfilledKey e q))) t
          (t.updateWorkKey q.id (backfilledKey e q)) := outcome_execute fun _ => rfl
      have hstep : ∀ t', t.updateWorkKey q.id (backfilledKey e q) = .ok t' → LeadsTo r t' := by
        intro t' ht'
        refine ⟨?_, ?_⟩
        · rw [(SessionsTable.updateWorkKey_eq_ok ht').2.1]
          exact h.nullable
        · exact (migrate_updateWorkKey ht hm he (by simpa using hlong) ht').trans h.outcome
      refine Throughout.seq hu ?_ ?_
      · exact throughout_statement (fun _ => rfl) (h.db true) fun t' ht' => (hstep t' ht').db true
      · intro t' ht'
        obtain ⟨_, _, _, -, -, -, hm', hkeys⟩ :=
          SessionsTable.updateWorkKey_missing hm (backfilledKey_ne e q) ht'
        refine ih (hstep t' ht') (ht.of_schema (SessionsTable.updateWorkKey_eq_ok ht').2.1) hm' ?_
        intro k
        rw [hkeys.mem_iff, mem_cons_congr he]

theorem throughout_backfill (h : LeadsTo r t) (ht : Ready t) :
    Throughout (DbLeadsTo r) backfillMissingWorkKeys (.legacy true t) :=
  throughout_backfill_of_loop ht.column (throughout_assignWorkKeys h ht rfl fun _ => Iff.rfl)

/-- **No statement of a start-up changes the outcome**, if there is nothing to rebuild. -/
theorem migrate_throughout (w : Bool) (h : LeadsTo r t) :
    Throughout (DbLeadsTo r) initDb (.legacy w t) := by
  have hall := t.mem_indexed
  have ht₀ := Ready.of_indexes hall
  refine (throughout_bind (eval_schemaScript w t)).2 ⟨throughout_schemaScript h w, ?_⟩
  refine Throughout.seq outcome_addWorkKeyColumn (throughout_addWorkKeyColumn h.indexed hall) ?_
  rintro t₀ ⟨⟩
  have hback := throughout_backfill (h.indexed.keyed hall) ht₀
  refine Throughout.seq (outcome_backfill ht₀.column) hback ?_
  intro t₁ ht₁
  obtain ⟨hs, hm, -, -, -⟩ := SessionsTable.assign_eq_ok rfl ht₁
  have ht₁' := ht₀.of_schema hs
  have h₁ : LeadsTo r t₁ := by
    have hout : Outcome none backfillMissingWorkKeys _ _ := outcome_backfill ht₀.column
    rw [ht₁] at hout
    exact dbLeadsTo_legacy.1 (hback.finish hout)
  have hrelax : Throughout (DbLeadsTo r) relaxNotNull (.legacy true t₁) := by
    refine throughout_columnIsNotNull.2 ⟨h₁.db true, ?_⟩
    rw [if_neg (by simp [SessionsTable.columnIsNotNull, h₁.nullable])]
    exact (throughout_pure ()).2 (h₁.db true)
  refine Throughout.seq outcome_relaxNotNull hrelax ?_
  intro t₂ ht₂
  rw [SessionsTable.relaxed_of_nullable h₁.nullable] at ht₂
  cases ht₂
  have hunique : ∀ t', t₁.createUniqueIndex = .ok t' → Settled t' ∧ LeadsTo r t' := by
    intro t' ht'
    have hset := Settled.of_createUniqueIndex ht₁' hm h₁.nullable ht'
    exact ⟨hset, hset.nullable,
      (migrate_createUniqueIndex ht₁' hm h₁.nullable ht').trans h₁.outcome⟩
  refine Throughout.seq (outcome_execute fun _ => rfl)
    (throughout_statement (fun _ => rfl) (h₁.db true) fun t' ht' => (hunique t' ht').2.db true) ?_
  intro t₃ ht₃
  obtain ⟨hset, h₃⟩ := hunique t₃ ht₃
  refine throughout_columnExists.2 ⟨h₃.db true, ?_⟩
  split
  · exact (throughout_pure ()).2 (h₃.db true)
  · refine throughout_statement (fun _ => rfl) (h₃.db true) ?_
    intro t' ht'
    have hstr : t₃.structured = t' := by rw [SessionsTable.structured, ht']
    have h' : LeadsTo r t₃.structured :=
      ⟨hset.structured.nullable, hset.migrate_structured.trans h₃.outcome⟩
    rw [← hstr]
    exact h'.db true

end Nullable

/-! ## Restarting -/

/-- The process dies after `n` operations of a start-up, and the next one runs to its end. -/
def restarted (d : Db) (n : ℕ) : Except Error Unit × Db :=
  initDb.run.eval exec (initDb.run.killedAfter exec n d)

def Db.ids (d : Db) : List ℕ := (d.sessions.map fun t => t.rows.map (·.row.id)).getD []

/-- **The migration is restartable**: wherever the first start-up dies, the second one
succeeds, ends as if the first had not died, has lost no row, and leaves nothing to do. -/
structure Restartable (d : Db) : Prop where
  completes : ∀ n, (restarted d n).1 = .ok ()
  same : ∀ n, (restarted d n).2.sessions = (initDb.run.eval exec d).2.sessions
  keepsRows : ∀ n, (restarted d n).2.ids = d.ids
  settled : ∀ n, initDb.run.eval exec (restarted d n).2 = (.ok (), (restarted d n).2)

theorem initDb_of_leadsTo {t' : SessionsTable} {d : Db} (h : DbLeadsTo (.ok t') d) :
    initDb.run.eval exec d = (.ok (), .legacy true t') := by
  obtain ⟨w, t, rfl, -, hm⟩ := h
  have hreal := initDb_realises w t
  rw [hm] at hreal
  exact hreal

/-- Without a rebuild, a migration that gets through is restartable. -/
theorem restartable_of_nullable (w : Bool) {t t' : SessionsTable}
    (hn : t.schema.idsNotNull = false) (hm : migrate t = .ok t') : Restartable (.legacy w t) := by
  have hlead : LeadsTo (.ok t') t := ⟨hn, hm⟩
  have hthrough := migrate_throughout w hlead
  have hrun := initDb_of_leadsTo (hlead.db w)
  have hre : ∀ n, restarted (.legacy w t) n = (.ok (), .legacy true t') := fun n =>
    initDb_of_leadsTo (hthrough n)
  have hagain := initDb_of_leadsTo (hthrough.finish hrun)
  have hkept := ((migrate_loses_nothing_iff hm).2 fun h => by rw [hn] at h; cases h).toKept
  refine ⟨fun n => by rw [hre], fun n => by rw [hre, hrun], fun n => ?_, fun n => by rw [hre, hagain]⟩
  rw [hre]
  exact hkept.map_eq SessionRow.id fun _ _ => rfl

/-- The name of the new table is not free any more. -/
theorem outcome_relaxNotNull_again {t new : SessionsTable} (hn : t.schema.idsNotNull = true) :
    Outcome (some new) relaxNotNull t (.error .operationalError) := by
  refine outcome_columnIsNotNull .devinSessionId ?_
  rw [if_pos (by simp [SessionsTable.columnIsNotNull, hn])]
  exact rfl

/-- Once the rebuild has begun, no start-up succeeds before it has dropped the old table. -/
theorem initDb_stuck {w : Bool} {t new : SessionsTable} (hn : t.schema.idsNotNull = true) :
    (initDb.run.eval exec ⟨w, some t, some new⟩).1 ≠ .ok () := by
  have hrest : Outcome (some new)
      (do addWorkKeyColumn; backfillMissingWorkKeys; relaxNotNull; execute .createUniqueIndex
          addStructuredOutputColumn) t.indexed
      (Except.ok t.indexed.keyed >>= fun t => t.backfilled >>= fun _ =>
        Except.error Error.operationalError >>= Except.ok) := by
    refine outcome_addWorkKeyColumn.bind ?_
    rintro t₀ ⟨⟩
    refine (outcome_backfill t.indexed.keyed_column).bind ?_
    intro t₁ h₁
    exact (outcome_relaxNotNull_again ((backfilled_idsNotNull h₁).trans hn)).bind nofun
  have heval : initDb.run.eval exec ⟨w, some t, some new⟩ = _ :=
    Prog.eval_bind_ok (eval_schemaScript w t)
  rw [heval]
  -- whether the backfill gets through or not, there is no table in the end
  cases hb : t.indexed.keyed.backfilled with
  | ok t₁ =>
    simp only [bind, Except.bind, hb] at hrest
    exact fun h => by cases hrest.symm.trans h
  | error e =>
    simp only [bind, Except.bind, hb] at hrest
    exact fun h => by cases hrest.symm.trans h

/-- A start-up that succeeds has migrated the table. -/
theorem migrate_of_run {w : Bool} {t : SessionsTable}
    (h : (initDb.run.eval exec (.legacy w t)).1 = .ok ()) : ∃ t', migrate t = .ok t' := by
  have hreal := initDb_realises w t
  cases hm : migrate t with
  | ok t' => exact ⟨t', rfl⟩
  | error e =>
    rw [hm] at hreal
    cases hreal.symm.trans h

/-- A rebuild is never restartable. -/
theorem not_restartable_of_notNull (w : Bool) {t : SessionsTable}
    (hn : t.schema.idsNotNull = true) : ¬Restartable (.legacy w t) := by
  intro h
  have hok : Throughout (fun d => (initDb.run.eval exec d).1 = .ok ()) initDb (.legacy w t) :=
    h.completes
  obtain ⟨t', hm⟩ := migrate_of_run hok.start
  obtain ⟨t₁, t₂, -, h₁, h₂, -, -⟩ := migrate_eq_ok hm
  have hback : Outcome none backfillMissingWorkKeys t.indexed.keyed t.indexed.keyed.backfilled :=
    outcome_backfill t.indexed.keyed_column
  have hrelax : Outcome none relaxNotNull t₁ t₁.relaxed := outcome_relaxNotNull
  rw [h₁] at hback
  rw [h₂] at hrelax
  have hn₁ := (backfilled_idsNotNull h₁).trans hn
  -- up to the first statement of the rebuild
  have hok₁ := ((throughout_bind (eval_schemaScript w t)).1 hok).2
  have hok₂ := ((throughout_bind outcome_addWorkKeyColumn).1 hok₁).2
  have hok₃ := ((throughout_bind hback).1 hok₂).2
  have hok₄ := (throughout_columnIsNotNull.1 ((throughout_bind hrelax).1 hok₃).1).2
  rw [if_pos (by simp [SessionsTable.columnIsNotNull, hn₁])] at hok₄
  have hcreate : (execute .createSessionsNew).run.eval exec ⟨true, some t₁, none⟩ =
      (.ok (), ⟨true, some t₁, some freshSessionsNew⟩) := rfl
  exact initDb_stuck hn₁ ((throughout_bind hcreate).1 hok₄).2.start

/-- **The migration is restartable** exactly if it gets through and has no table to rebuild. -/
theorem restartable_iff (w : Bool) (t : SessionsTable) : Restartable (.legacy w t) ↔
    t.schema.idsNotNull = false ∧ t.workKeys.Nodup ∧
      ∀ r ∈ t.missing, numberTooLong r = false ∧ (Taken t r → ¬Clash t r) := by
  rw [← migrate_succeeds]
  constructor
  · intro h
    refine ⟨?_, ?_⟩
    · by_contra hn
      exact not_restartable_of_notNull w (by simpa using hn) h
    · -- a start-up that dies at once leaves an uninterrupted one to be run
      exact migrate_of_run (h.completes 0)
  · rintro ⟨hn, t', hm⟩
    exact restartable_of_nullable w hn hm

/-- A start-up that dies between the DROP and the RENAME: the next one succeeds, without
any of the rows. -/
theorem Legacy.rows_lost_on_restart :
    (initDb.run.eval exec (.legacy false twoAlike)).1 = .ok () ∧
      (restarted (.legacy false twoAlike) 17).1 = .ok () ∧
      (restarted (.legacy false twoAlike) 17).2.ids = [] ∧ ¬Restartable (.legacy false twoAlike) := by
  have hlost : (restarted (.legacy false twoAlike) 17).2.ids = [] := by decide +kernel
  refine ⟨by decide +kernel, by decide +kernel, hlost, fun h => ?_⟩
  have hids := h.keepsRows 17
  rw [hlost] at hids
  exact absurd hids (by decide)

end Migration

end Remediation
