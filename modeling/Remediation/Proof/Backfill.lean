import Remediation.Lib.Text
import Remediation.Spec.Migration

/-!
# What the backfill does to a table

`assign` is the loop of `_backfill_missing_work_keys` as a function on tables. A key it
gives is either free or was taken before, so that it all depends on the suffixed keys:
`fresh_iff` says, in terms of the table before the start-up, when none of them is taken
(`Clash`) where it is needed (`Taken`).
-/

namespace Remediation

namespace Migration

open Interaction Regex

/-! ## Tables, rows and keys -/

@[ext] theorem SessionsTable.ext {t t' : SessionsTable} (hs : t.schema = t'.schema)
    (hr : t.rows = t'.rows) : t = t' := by
  obtain ⟨s, rows, h⟩ := t
  obtain ⟨s', rows', h'⟩ := t'
  simp only at hs hr
  subst hs hr
  rfl

@[simp] theorem LegacyRow.setWorkKey_row (k : String) (r : LegacyRow) :
    (r.setWorkKey k).row = r.row.setWorkKey k := rfl

/-- A row with a key that counts has it in its column. -/
theorem LegacyRow.workKey_eq {r : LegacyRow} (h : r.row.workKey ≠ "") :
    r.workKey = some r.row.workKey := by
  have ha := r.agree
  cases hk : r.workKey with
  | none => rw [hk] at ha; exact absurd ha h
  | some k => rw [hk] at ha; rw [ha]; rfl

theorem LegacyRow.copied_eq_self {r : LegacyRow} (h : r.row.structuredOutputJson = none) :
    r.copied = r := by
  obtain ⟨k, row, ha⟩ := r
  obtain ⟨_, _, _, _, _, _, _, _, _, _, _, _, _, _, _, _, _, _, _, _, _⟩ := row
  simp only at h
  subst h
  rfl

/-- The keys that count are those in the unique index, but for the empty one. -/
theorem filter_filterMap_workKey (rows : List LegacyRow) :
    (rows.filterMap (·.workKey)).filter (fun k => k ≠ "") =
      (rows.map (·.row.workKey)).filter fun k => k ≠ "" := by
  induction rows with
  | nil => rfl
  | cons r rows ih =>
    by_cases hr : r.row.workKey = ""
    · have ha := r.agree
      cases hk : r.workKey with
      | none => simpa [hk, hr] using ih
      | some k =>
        have hk' : k = "" := by rw [hk, hr] at ha; exact ha.symm
        simpa [hk, hk', hr] using ih
    · simpa [LegacyRow.workKey_eq hr, hr] using ih

namespace SessionsTable

variable {t t' : SessionsTable}

theorem check_eq_ok {s : Schema} {rows : List LegacyRow} :
    check s rows = .ok t' ↔ t'.schema = s ∧ t'.rows = rows := by
  unfold check
  constructor
  · intro h
    split at h
    · cases h
      exact ⟨rfl, rfl⟩
    · cases h
  · rintro ⟨rfl, rfl⟩
    rw [dif_pos t'.admits]

theorem check_of_admits {s : Schema} {rows : List LegacyRow} (h : s.Admits rows) :
    check s rows = .ok ⟨s, rows, h⟩ := dif_pos h

theorem missing_ascending (t : SessionsTable) :
    t.missing.Pairwise fun r r' => r.id < r'.id := by
  refine List.Pairwise.filter _ ?_
  rw [List.pairwise_map]
  exact t.admits.ascending

theorem missing_eq_nil_iff : t.missing = [] ↔ ∀ r ∈ t.rows, r.row.workKey ≠ "" := by
  simp [missing]

/-- If no key is missing, the unique index has exactly the keys that count. -/
theorem workKeys_of_missing (h : t.missing = []) : t.workKeys = t.rows.filterMap (·.workKey) := by
  have hne := missing_eq_nil_iff.1 h
  rw [workKeys, ← filter_filterMap_workKey, List.filter_eq_self]
  intro k hk
  obtain ⟨r, hr, he⟩ := List.mem_filterMap.1 hk
  rw [LegacyRow.workKey_eq (hne r hr)] at he
  cases he
  exact decide_eq_true (hne r hr)

theorem workKeys_eq_map (h : t.missing = []) : t.workKeys = t.rows.map (·.row.workKey) := by
  rw [workKeys, List.filter_eq_self]
  intro k hk
  obtain ⟨r, hr, rfl⟩ := List.mem_map.1 hk
  exact decide_eq_true (missing_eq_nil_iff.1 h r hr)

/-! ## One UPDATE -/

/-- **What a successful UPDATE does.** -/
theorem updateWorkKey_eq_ok {id : ℕ} {k : String} (h : t.updateWorkKey id k = .ok t') :
    t.schema.workKeyColumn ≠ .absent ∧ t'.schema = t.schema ∧
      t'.rows = t.rows.map fun r => if r.row.id = id then r.setWorkKey k else r := by
  unfold updateWorkKey at h
  split at h
  · cases h
  · rename_i hc
    exact ⟨hc, check_eq_ok.1 h⟩

/-- The first row without a key, and what is around it. -/
theorem missing_cons {r : SessionRow} {rs : List SessionRow} (hm : t.missing = r :: rs) :
    ∃ l₁ x l₂, t.rows = l₁ ++ x :: l₂ ∧ x.row = r ∧ r.workKey = "" ∧
      (∀ y ∈ l₁, y.row.workKey ≠ "" ∧ y.row.id ≠ r.id) ∧ (∀ y ∈ l₂, y.row.id ≠ r.id) ∧
      (l₂.map (·.row)).filter (fun s => s.workKey = "") = rs := by
  obtain ⟨m₁, m₂, he, h₁, hr, h₂⟩ := List.filter_eq_cons_iff.1 hm
  obtain ⟨l₁, l₃, hl, rfl, h₃⟩ := List.map_eq_append_iff.1 he
  obtain ⟨x, l₂, rfl, hx, rfl⟩ := List.map_eq_cons_iff.1 h₃
  have hasc := t.admits.ascending
  rw [hl, List.pairwise_append, List.pairwise_cons] at hasc
  obtain ⟨-, ⟨hx₂, -⟩, h₁x⟩ := hasc
  refine ⟨l₁, x, l₂, hl, hx, of_decide_eq_true hr, ?_, ?_, h₂⟩
  · intro y hy
    have hid := h₁x y hy x List.mem_cons_self
    exact ⟨fun hk => h₁ y.row (List.mem_map_of_mem hy) (decide_eq_true hk), by rw [← hx]; omega⟩
  · intro y hy
    have hid := hx₂ y hy
    rw [← hx]
    omega

/-- **One step of the backfill**: the first keyless row gets a key, and nothing else happens. -/
theorem updateWorkKey_missing {r : SessionRow} {rs : List SessionRow} {k : String}
    (hm : t.missing = r :: rs) (hk : k ≠ "") (h : t.updateWorkKey r.id k = .ok t') :
    ∃ l₁ x l₂, t.rows = l₁ ++ x :: l₂ ∧ t'.rows = l₁ ++ x.setWorkKey k :: l₂ ∧
      x.row.workKey = "" ∧ t'.missing = rs ∧ t'.workKeys.Perm (k :: t.workKeys) := by
  obtain ⟨l₁, x, l₂, hl, rfl, hx, h₁, h₂, hrs⟩ := missing_cons hm
  obtain ⟨-, -, hrows⟩ := updateWorkKey_eq_ok h
  have hl₁ : l₁.map (fun y => if y.row.id = x.row.id then y.setWorkKey k else y) = l₁ :=
    (List.map_congr_left fun y hy => if_neg (h₁ y hy).2).trans (List.map_id _)
  have hl₂ : l₂.map (fun y => if y.row.id = x.row.id then y.setWorkKey k else y) = l₂ :=
    (List.map_congr_left fun y hy => if_neg (h₂ y hy)).trans (List.map_id _)
  rw [hl, List.map_append, List.map_cons, hl₁, hl₂, if_pos rfl] at hrows
  refine ⟨l₁, x, l₂, hl, hrows, hx, ?_, ?_⟩
  · have hnil : (l₁.map (·.row)).filter (fun s => s.workKey = "") = [] := by
      rw [List.filter_eq_nil_iff]
      intro s hs
      obtain ⟨y, hy, rfl⟩ := List.mem_map.1 hs
      simpa using (h₁ y hy).1
    rw [missing, hrows, List.map_append, List.map_cons, List.filter_append, hnil, List.nil_append,
      List.filter_cons_of_neg (by simp [SessionRow.setWorkKey, hk]), hrs]
  · have hxk : ((x.setWorkKey k).row.workKey) = k := rfl
    rw [workKeys, workKeys, hrows, hl, List.map_append, List.map_append, List.map_cons,
      List.map_cons, List.filter_append, List.filter_append, hxk, hx,
      List.filter_cons_of_pos (by simpa using hk), List.filter_cons_of_neg (by simp)]
    exact List.perm_middle

/-- A schema puts up with a new key, unless it has the unique index and a row has that key. -/
theorem admits_setWorkKey (id : ℕ) {k : String} (hc : t.schema.workKeyColumn ≠ .absent)
    (hnew : t.schema.uniqueWorkKey = true → ∀ r ∈ t.rows, r.workKey ≠ some k) :
    t.schema.Admits (t.rows.map fun r => if r.row.id = id then r.setWorkKey k else r) where
  ascending := by
    have hid : ∀ r : LegacyRow, (if r.row.id = id then r.setWorkKey k else r).row.id = r.row.id := by
      intro r
      split <;> rfl
    rw [List.pairwise_map]
    exact t.admits.ascending.imp fun h => by rwa [hid, hid]
  absent ha := absurd ha hc
  notNull := by
    intro hn r hr
    obtain ⟨s, hs, rfl⟩ := List.mem_map.1 hr
    split
    · exact nofun
    · exact t.admits.notNull hn s hs
  ids := by
    intro hn r hr
    obtain ⟨s, hs, rfl⟩ := List.mem_map.1 hr
    have hs' := t.admits.ids hn s hs
    split <;> exact hs'
  structured := by
    intro hn r hr
    obtain ⟨s, hs, rfl⟩ := List.mem_map.1 hr
    have hs' := t.admits.structured hn s hs
    split <;> exact hs'
  unique := by
    intro hu
    have hnd := t.admits.unique hu
    rw [List.Nodup, List.pairwise_filterMap] at hnd ⊢
    rw [List.pairwise_map]
    refine (hnd.and t.admits.ascending).imp_of_mem ?_
    rintro r s hr hs ⟨hrs, hlt⟩ a ha b hb
    -- one of the two rows at most is the one that is changed
    split at ha <;> split at hb
    · omega
    · cases ha
      rintro rfl
      exact hnew hu s hs hb
    · cases hb
      rintro rfl
      exact hnew hu r hr ha
    · exact hrs a ha b hb

/-- The keys that count, as they are stored. -/
theorem mem_workKeys {k : String} (hk : k ≠ "") :
    k ∈ t.workKeys ↔ ∃ r ∈ t.rows, r.workKey = some k := by
  rw [workKeys, ← filter_filterMap_workKey, List.mem_filter, List.mem_filterMap]
  exact and_iff_left (decide_eq_true hk)

/-- An UPDATE to a key that is not there yet succeeds. -/
theorem updateWorkKey_fresh (id : ℕ) {k : String} (hc : t.schema.workKeyColumn ≠ .absent)
    (hk : k ≠ "") (hfresh : t.schema.uniqueWorkKey = true → k ∉ t.workKeys) :
    ∃ t', t.updateWorkKey id k = .ok t' := by
  have hnew : t.schema.uniqueWorkKey = true → ∀ r ∈ t.rows, r.workKey ≠ some k :=
    fun hu r hr he => hfresh hu ((mem_workKeys hk).2 ⟨r, hr, he⟩)
  exact ⟨_, (if_neg hc).trans (check_of_admits (admits_setWorkKey id hc hnew))⟩

end SessionsTable

/-! ## The keys that are given -/

/-- The key a row is to have, if it is not taken. -/
def canonical (r : SessionRow) : String := canonicalKey r.id r.triggerRef r.issueNumber r.label

/-- The key it gets otherwise. -/
def suffixed (r : SessionRow) : String := s!"{canonical r}:dup:{r.id}"

theorem backfilledKey_eq (existing : List String) (r : SessionRow) :
    backfilledKey existing r = if canonical r ∈ existing then suffixed r else canonical r := by
  simp [backfilledKey, canonical, suffixed]

theorem canonical_ne (r : SessionRow) : canonical r ≠ "" := by
  unfold canonical canonicalKey
  split <;> simp [makeWorkKey, ToString.toString]

theorem backfilledKey_ne (existing : List String) (r : SessionRow) :
    backfilledKey existing r ≠ "" := by
  rw [backfilledKey_eq]
  split
  · simp [suffixed, ToString.toString]
  · exact canonical_ne r

/-- Which keys exist matters, not how they are listed. -/
theorem backfilledKey_congr {e e' : List String} (he : ∀ k, k ∈ e ↔ k ∈ e') (r : SessionRow) :
    backfilledKey e r = backfilledKey e' r := by
  rw [backfilledKey_eq, backfilledKey_eq, if_congr (he _) rfl rfl]

theorem mem_cons_congr {e e' : List String} (he : ∀ k, k ∈ e ↔ k ∈ e') (x : String) :
    ∀ k, k ∈ x :: e ↔ k ∈ x :: e' := by
  intro k
  rw [List.mem_cons, List.mem_cons, he]

/-- No row is given a key that exists. -/
def Fresh : List String → List SessionRow → Prop
  | _, [] => True
  | e, r :: rs => backfilledKey e r ∉ e ∧ Fresh (backfilledKey e r :: e) rs

/-- The keys that are given. -/
def given (e : List String) (rs : List SessionRow) : List String := (backfill e rs).map (·.2)

theorem given_cons (e : List String) (r : SessionRow) (rs : List SessionRow) :
    given e (r :: rs) = backfilledKey e r :: given (backfilledKey e r :: e) rs := rfl

/-- All keys are distinct in the end if they are at the start, and each one given is fresh. -/
theorem nodup_given_iff {e keys : List String} (he : ∀ k, k ∈ e ↔ k ∈ keys)
    (rs : List SessionRow) : (given e rs ++ keys).Nodup ↔ keys.Nodup ∧ Fresh e rs := by
  induction rs generalizing e keys with
  | nil => simp [given, backfill, Fresh]
  | cons r rs ih =>
    have hperm : (given e (r :: rs) ++ keys).Perm
        (given (backfilledKey e r :: e) rs ++ backfilledKey e r :: keys) := by
      rw [given_cons]
      exact List.perm_middle.symm
    rw [hperm.nodup_iff, ih (mem_cons_congr he _), List.nodup_cons, ← he, Fresh]
    tauto

namespace SessionsTable

/-- What the loop of the backfill does to a table. -/
def assign : (existing : List String) → List SessionRow → SessionsTable →
    Except Error SessionsTable
  | _, [], t => .ok t
  | existing, r :: rs, t =>
    if numberTooLong r then .error .valueError
    else
      t.updateWorkKey r.id (backfilledKey existing r) >>=
        assign (backfilledKey existing r :: existing) rs

/-- What the backfill does to a table. -/
def backfilled (t : SessionsTable) : Except Error SessionsTable := t.assign t.workKeys t.missing

variable {t t' : SessionsTable}

theorem assign_congr {e e' : List String} (he : ∀ k, k ∈ e ↔ k ∈ e') (rs : List SessionRow)
    (t : SessionsTable) : t.assign e rs = t.assign e' rs := by
  induction rs generalizing e e' t with
  | nil => rfl
  | cons r rs ih =>
    have hk := backfilledKey_congr he r
    unfold assign
    rw [hk]
    split
    · rfl
    · cases t.updateWorkKey r.id (backfilledKey e' r) with
      | ok t₁ => exact ih (mem_cons_congr he _) t₁
      | error x => rfl

end SessionsTable

/-- Every row is kept, up to a key that it did not have. -/
structure Kept (t t' : SessionsTable) : Prop where
  others : t'.rows.map (·.row.setWorkKey "") = t.rows.map (·.row.setWorkKey "")
  keyed : ∀ r ∈ t.rows, r.row.workKey ≠ "" → r ∈ t'.rows

theorem Kept.refl (t : SessionsTable) : Kept t t := ⟨rfl, fun _ hr _ => hr⟩

theorem Kept.trans {t t' t'' : SessionsTable} (h : Kept t t') (h' : Kept t' t'') : Kept t t'' :=
  ⟨h'.others.trans h.others, fun r hr hk => h'.keyed r (h.keyed r hr hk) hk⟩

/-- The other columns stay as they are. -/
theorem Kept.map_eq {β : Type} {t t' : SessionsTable} (h : Kept t t') (g : SessionRow → β)
    (hg : ∀ k r, g (r.setWorkKey k) = g r) :
    t'.rows.map (fun r => g r.row) = t.rows.map fun r => g r.row := by
  have hmap : ∀ s : SessionsTable,
      s.rows.map (fun r => g r.row) = (s.rows.map (·.row.setWorkKey "")).map g := by
    intro s
    rw [List.map_map]
    exact List.map_congr_left fun r _ => (hg "" r.row).symm
  rw [hmap, hmap, h.others]

/-- No row has a value in another column that it did not have. -/
theorem Kept.exists_row {β : Type} {t t' : SessionsTable} (h : Kept t t') (g : SessionRow → β)
    (hg : ∀ k r, g (r.setWorkKey k) = g r) {r : LegacyRow} (hr : r ∈ t'.rows) :
    ∃ s ∈ t.rows, g s.row = g r.row := by
  have hmem : g r.row ∈ t'.rows.map fun r => g r.row := List.mem_map.2 ⟨r, hr, rfl⟩
  rw [h.map_eq g hg] at hmem
  exact List.mem_map.1 hmem

/-- Nor has a row lost one. -/
theorem Kept.exists_row' {β : Type} {t t' : SessionsTable} (h : Kept t t') (g : SessionRow → β)
    (hg : ∀ k r, g (r.setWorkKey k) = g r) {r : LegacyRow} (hr : r ∈ t.rows) :
    ∃ s ∈ t'.rows, g s.row = g r.row := by
  have hmem : g r.row ∈ t.rows.map fun r => g r.row := List.mem_map.2 ⟨r, hr, rfl⟩
  rw [← h.map_eq g hg] at hmem
  exact List.mem_map.1 hmem

theorem Kept.update {t t' : SessionsTable} {l₁ l₂ : List LegacyRow} {x : LegacyRow} {k : String}
    (hl : t.rows = l₁ ++ x :: l₂) (hl' : t'.rows = l₁ ++ x.setWorkKey k :: l₂)
    (hx : x.row.workKey = "") : Kept t t' where
  others := by
    rw [hl, hl', List.map_append, List.map_append, List.map_cons, List.map_cons]
    rfl
  keyed := by
    intro r hr hk
    rw [hl, List.mem_append, List.mem_cons] at hr
    rw [hl', List.mem_append, List.mem_cons]
    rcases hr with hr | rfl | hr
    · exact Or.inl hr
    · exact absurd hx hk
    · exact Or.inr (Or.inr hr)

/-- What a backfill that gets through has done. -/
structure Assigned (e : List String) (rs : List SessionRow) (t t' : SessionsTable) : Prop where
  schema : t'.schema = t.schema
  missing : t'.missing = []
  kept : Kept t t'
  short : ∀ r ∈ rs, numberTooLong r = false
  keys : t'.workKeys.Perm (given e rs ++ t.workKeys)

namespace SessionsTable

variable {t t' : SessionsTable}

/-- The loop starts with the rows that have no key. -/
theorem assign_eq_ok {e : List String} {rs : List SessionRow} (hm : t.missing = rs)
    (h : t.assign e rs = .ok t') : Assigned e rs t t' := by
  induction rs generalizing e t with
  | nil =>
    cases h
    exact ⟨rfl, hm, Kept.refl _, by simp, List.Perm.refl _⟩
  | cons r rs ih =>
    unfold assign at h
    split at h
    · cases h
    rename_i hlong
    cases hu : t.updateWorkKey r.id (backfilledKey e r) with
    | error x => rw [hu] at h; cases h
    | ok t₁ =>
      rw [hu] at h
      obtain ⟨l₁, x, l₂, hl, hl', hx, hm₁, hkeys⟩ :=
        updateWorkKey_missing hm (backfilledKey_ne e r) hu
      obtain ⟨hs, hmiss, hkept, hshort, hperm⟩ := ih hm₁ h
      refine ⟨hs.trans (updateWorkKey_eq_ok hu).2.1, hmiss, (Kept.update hl hl' hx).trans hkept,
        ?_, ?_⟩
      · intro q hq
        rcases List.mem_cons.1 hq with rfl | hq
        · simpa using hlong
        · exact hshort q hq
      · rw [given_cons]
        exact hperm.trans ((hkeys.append_left _).trans List.perm_middle)

/-- The backfill gets through if the keys it gives are fresh, or nobody asks. -/
theorem assign_succeeds {e : List String} {rs : List SessionRow} (hm : t.missing = rs)
    (he : ∀ k, k ∈ e ↔ k ∈ t.workKeys) (hc : t.schema.workKeyColumn ≠ .absent)
    (hshort : ∀ r ∈ rs, numberTooLong r = false)
    (hf : t.schema.uniqueWorkKey = true → Fresh e rs) : ∃ t', t.assign e rs = .ok t' := by
  induction rs generalizing e t with
  | nil => exact ⟨t, rfl⟩
  | cons r rs ih =>
    have hne := backfilledKey_ne e r
    obtain ⟨t₁, hu⟩ := updateWorkKey_fresh r.id hc hne fun hi hmem => (hf hi).1 ((he _).2 hmem)
    have hs := (updateWorkKey_eq_ok hu).2.1
    obtain ⟨_, _, _, -, -, -, hm₁, hkeys⟩ := updateWorkKey_missing hm hne hu
    have he₁ : ∀ k, k ∈ backfilledKey e r :: e ↔ k ∈ t₁.workKeys := by
      intro k
      rw [mem_cons_congr he, hkeys.mem_iff]
    have hc₁ : t₁.schema.workKeyColumn ≠ .absent := by rwa [hs]
    obtain ⟨t', ht'⟩ := ih hm₁ he₁ hc₁ (fun q hq => hshort q (List.mem_cons_of_mem _ hq))
      fun hi => (hf (hs ▸ hi)).2
    refine ⟨t', ?_⟩
    rw [assign, if_neg (by simp [hshort r List.mem_cons_self]), hu]
    exact ht'

end SessionsTable

/-! ## When the keys are fresh -/

section Clash

variable {t : SessionsTable}

/-- A keyless row does not find its canonical key free when its turn comes: the key is
stored, or an older keyless row has got it, canonical or suffixed. -/
inductive Taken (t : SessionsTable) : SessionRow → Prop
  | stored {r : SessionRow} : canonical r ∈ t.workKeys → Taken t r
  | canonical {q r : SessionRow} : q ∈ t.missing → q.id < r.id → canonical q = canonical r → Taken t r
  | suffixed {q r : SessionRow} : q ∈ t.missing → q.id < r.id → Taken t q →
      suffixed q = canonical r → Taken t r

/-- The suffixed key of a row is stored, or is the canonical key of an older keyless row. -/
def Clash (t : SessionsTable) (r : SessionRow) : Prop :=
  suffixed r ∈ t.workKeys ∨ ∃ q ∈ t.missing, q.id < r.id ∧ canonical q = suffixed r

theorem suffixed_inj {q r : SessionRow} (h : suffixed q = suffixed r) : q.id = r.id := by
  have hcolon : (':').isDigit = false := rfl
  refine PyText.numeral_inj (a := canonical q ++ ":dup") (b := canonical r ++ ":dup") hcolon ?_
  simpa [suffixed, ToString.toString, String.append_assoc] using h

open Classical in
/-- The key that a row gets. -/
noncomputable def keyOf (t : SessionsTable) (r : SessionRow) : String :=
  if Taken t r then suffixed r else canonical r

/-- Some key is there before the turn of a row. -/
def Before (t : SessionsTable) (r : SessionRow) (k : String) : Prop :=
  k ∈ t.workKeys ∨ ∃ q ∈ t.missing, q.id < r.id ∧ keyOf t q = k

theorem keyOf_of_taken {r : SessionRow} (h : Taken t r) : keyOf t r = suffixed r := if_pos h

theorem keyOf_of_not_taken {r : SessionRow} (h : ¬Taken t r) : keyOf t r = canonical r := if_neg h

/-- An older row with the same canonical key has got it, or has found it taken as well. -/
theorem before_canonical {r : SessionRow} {k : String} {q : SessionRow} (hq : q ∈ t.missing)
    (hlt : q.id < r.id) (hk : canonical q = k) (ih : Taken t q → Before t q (canonical q)) :
    Before t r k := by
  by_cases ht : Taken t q
  · rcases ih ht with hst | ⟨p, hp, hpq, hpk⟩
    · exact Or.inl (hk ▸ hst)
    · exact Or.inr ⟨p, hp, hpq.trans hlt, hpk.trans hk⟩
  · exact Or.inr ⟨q, hq, hlt, (keyOf_of_not_taken ht).trans hk⟩

/-- **The code's test is the one stated.** -/
theorem before_canonical_iff (t : SessionsTable) (r : SessionRow) :
    Before t r (canonical r) ↔ Taken t r := by
  induction hn : r.id using Nat.strong_induction_on generalizing r with
  | h n ih =>
    subst hn
    constructor
    · rintro (hst | ⟨q, hq, hlt, hk⟩)
      · exact .stored hst
      · by_cases ht : Taken t q
        · exact .suffixed hq hlt ht ((keyOf_of_taken ht).symm.trans hk)
        · exact .canonical hq hlt ((keyOf_of_not_taken ht).symm.trans hk)
    · rintro (hst | ⟨hq, hlt, hk⟩ | ⟨hq, hlt, ht, hk⟩)
      · exact Or.inl hst
      · exact before_canonical hq hlt hk (ih _ hlt _ rfl).2
      · exact Or.inr ⟨_, hq, hlt, (keyOf_of_taken ht).trans hk⟩

/-- A row gets a key that is there already exactly if even its suffixed key is. -/
theorem before_keyOf_iff (t : SessionsTable) (r : SessionRow) :
    Before t r (keyOf t r) ↔ Taken t r ∧ Clash t r := by
  by_cases ht : Taken t r
  · rw [keyOf_of_taken ht, and_iff_right ht]
    constructor
    · rintro (hst | ⟨q, hq, hlt, hk⟩)
      · exact Or.inl hst
      · by_cases htq : Taken t q
        -- suffixed keys of different rows are different
        · rw [keyOf_of_taken htq] at hk
          exact absurd (suffixed_inj hk) hlt.ne
        · exact Or.inr ⟨q, hq, hlt, (keyOf_of_not_taken htq).symm.trans hk⟩
    · rintro (hst | ⟨q, hq, hlt, hk⟩)
      · exact Or.inl hst
      · exact before_canonical hq hlt hk (before_canonical_iff t q).2
  · rw [keyOf_of_not_taken ht, before_canonical_iff]
    exact ⟨fun h => absurd h ht, fun h => absurd h.1 ht⟩

/-- The loop, from any of its rounds on: `e` has the keys that are there by then. -/
theorem fresh_iff_of_done {done rs : List SessionRow} {e : List String}
    (hm : t.missing = done ++ rs)
    (he : ∀ k, k ∈ e ↔ k ∈ t.workKeys ∨ ∃ q ∈ done, keyOf t q = k) :
    Fresh e rs ↔ ∀ r ∈ rs, ¬(Taken t r ∧ Clash t r) := by
  induction rs generalizing done e with
  | nil => simp [Fresh]
  | cons r rs ih =>
    have hasc := t.missing_ascending
    rw [hm, List.pairwise_append, List.pairwise_cons] at hasc
    obtain ⟨-, ⟨hafter, -⟩, hdone⟩ := hasc
    -- the rows that have had their turn are the older ones
    have hbefore : ∀ k, k ∈ e ↔ Before t r k := by
      intro k
      rw [he, Before]
      refine or_congr_right ⟨?_, ?_⟩
      · rintro ⟨q, hq, hk⟩
        exact ⟨q, by rw [hm]; exact List.mem_append_left _ hq, hdone q hq r List.mem_cons_self, hk⟩
      · rintro ⟨q, hq, hlt, hk⟩
        rw [hm, List.mem_append, List.mem_cons] at hq
        rcases hq with hq | rfl | hq
        · exact ⟨q, hq, hk⟩
        · exact absurd hlt (lt_irrefl _)
        · exact absurd (hafter q hq) hlt.not_gt
    have hkey : backfilledKey e r = keyOf t r := by
      have htest := (hbefore (canonical r)).trans (before_canonical_iff t r)
      rw [backfilledKey_eq]
      by_cases ht : Taken t r
      · rw [if_pos (htest.2 ht), keyOf_of_taken ht]
      · rw [if_neg fun h => ht (htest.1 h), keyOf_of_not_taken ht]
    have hm' : t.missing = (done ++ [r]) ++ rs := by rw [hm, List.append_assoc, List.singleton_append]
    have he' : ∀ k, k ∈ keyOf t r :: e ↔ k ∈ t.workKeys ∨ ∃ q ∈ done ++ [r], keyOf t q = k := by
      intro k
      rw [List.mem_cons, he]
      simp only [List.mem_append, List.mem_singleton, or_and_right, exists_or, exists_eq_left]
      rw [or_left_comm, eq_comm]
      exact or_congr_right or_comm
    rw [Fresh, hkey, hbefore, before_keyOf_iff, ih hm' he', List.forall_mem_cons]

/-- **The keys given are fresh** exactly if no row has both its keys taken. -/
theorem fresh_iff (t : SessionsTable) :
    Fresh t.workKeys t.missing ↔ ∀ r ∈ t.missing, ¬(Taken t r ∧ Clash t r) :=
  fresh_iff_of_done (List.nil_append _).symm (by simp)

end Clash

end Migration

end Remediation
