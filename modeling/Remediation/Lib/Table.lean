import Mathlib.Data.List.Nodup
import Mathlib.Tactic.Common

/-!
# Tables with a primary key and a unique column

`Table ρ κ id key` is a list of rows with an autoincrement primary key `id` and a
unique index on `key`. Both constraints are fields, so that a table that breaks
them cannot be built: `insert` refuses a taken key, `update` takes only changes
that leave `id` and `key` alone, and `rekey` refuses a key that another row has.
-/

namespace Interaction

structure Table (ρ κ : Type) (id : ρ → ℕ) (key : ρ → κ) where
  rows : List ρ
  next : ℕ
  ids : (rows.map id).Nodup
  fresh : ∀ r ∈ rows, id r < next
  keys : (rows.map key).Nodup

namespace Table

variable {ρ κ : Type} {id : ρ → ℕ} {key : ρ → κ}

def empty : Table ρ κ id key := ⟨[], 1, by simp, by simp, by simp⟩

/-- The row with a given primary key. -/
def get (t : Table ρ κ id key) (i : ℕ) : Option ρ := t.rows.find? fun r => id r = i

/-- Append the row `mk n` under the next primary key `n`, unless its key is taken. -/
def insert [DecidableEq κ] (t : Table ρ κ id key) (mk : ℕ → ρ) (hid : ∀ n, id (mk n) = n) :
    Option (ℕ × Table ρ κ id key) :=
  if hk : key (mk t.next) ∈ t.rows.map key then none
  else some (t.next,
    { rows := t.rows ++ [mk t.next]
      next := t.next + 1
      ids := by
        have hn : t.next ∉ t.rows.map id := by
          intro hm
          obtain ⟨r, hr, he⟩ := List.mem_map.1 hm
          exact absurd (t.fresh r hr) (by omega)
        simpa [List.nodup_append, hid] using ⟨t.ids, fun r hr he => hn (List.mem_map.2 ⟨r, hr, he⟩)⟩
      fresh := by
        intro r hr
        rcases List.mem_append.1 hr with hr | hr
        · exact Nat.lt_succ_of_lt (t.fresh r hr)
        · rw [List.mem_singleton.1 hr, hid]; exact Nat.lt_succ_self _
      keys := by
        -- no other row has the key of the new one
        simpa [List.nodup_append] using
          ⟨t.keys, fun r hr he => hk (List.mem_map.2 ⟨r, hr, he⟩)⟩ })

/-- A change at one primary key that leaves a column alone leaves the whole column alone. -/
theorem map_update {β : Type} (g : ρ → β) (rows : List ρ) (i : ℕ) (f : ρ → ρ)
    (hf : ∀ r, g (f r) = g r) :
    (rows.map fun r => if id r = i then f r else r).map g = rows.map g := by
  rw [List.map_map]
  apply List.map_congr_left
  intro r _
  by_cases h : id r = i <;> simp [h, hf]

theorem lt_update {rows : List ρ} {n : ℕ} (hlt : ∀ r ∈ rows, id r < n) (i : ℕ) {f : ρ → ρ}
    (hf : ∀ r, id (f r) = id r) :
    ∀ r ∈ rows.map (fun r => if id r = i then f r else r), id r < n := by
  intro r hr
  obtain ⟨s, hs, rfl⟩ := List.mem_map.1 hr
  by_cases h : id s = i
  · simpa [h, hf] using h ▸ hlt s hs
  · simpa [h] using hlt s hs

/-- Change the row with primary key `i`, if there is one. -/
def update (t : Table ρ κ id key) (i : ℕ) (f : ρ → ρ) (hid : ∀ r, id (f r) = id r)
    (hkey : ∀ r, key (f r) = key r) : Table ρ κ id key where
  rows := t.rows.map fun r => if id r = i then f r else r
  next := t.next
  ids := by rw [map_update id t.rows i f hid]; exact t.ids
  fresh := lt_update t.fresh i hid
  keys := by rw [map_update key t.rows i f hkey]; exact t.keys

/-- Give the row with primary key `i` the key `k`, unless another row has that key. -/
def rekey [DecidableEq κ] (t : Table ρ κ id key) (i : ℕ) (k : κ) (set : κ → ρ → ρ)
    (hid : ∀ k r, id (set k r) = id r) : Option (Table ρ κ id key) :=
  let rows := t.rows.map fun r => if id r = i then set k r else r
  -- as with any statement, the unique index is checked for the table after it
  if hk : (rows.map key).Nodup then
    some
      { rows := rows
        next := t.next
        ids := by rw [map_update id t.rows i (set k) (hid k)]; exact t.ids
        fresh := lt_update t.fresh i (hid k)
        keys := hk }
  else none

/-- Delete all rows. A primary key that has been given out is not given again. -/
def clear (t : Table ρ κ id key) : Table ρ κ id key :=
  { rows := [], next := t.next, ids := by simp, fresh := by simp, keys := by simp }

/-! ## Inserting -/

section Insert

variable [DecidableEq κ] {t t' : Table ρ κ id key} {mk : ℕ → ρ} {hid : ∀ n, id (mk n) = n} {n : ℕ}

/-- **What a successful insert does**: the key was free, and the new row comes last
under the next primary key. -/
theorem insert_eq_some (h : t.insert mk hid = some (n, t')) :
    n = t.next ∧ key (mk n) ∉ t.rows.map key ∧ t'.rows = t.rows ++ [mk n] ∧ t'.next = n + 1 := by
  unfold insert at h
  split at h
  · cases h
  · rename_i hk
    simp only [Option.some.injEq, Prod.mk.injEq] at h
    obtain ⟨rfl, rfl⟩ := h
    exact ⟨rfl, hk, rfl, rfl⟩

/-- An insert is refused exactly if the key is taken. -/
theorem insert_eq_none : t.insert mk hid = none ↔ key (mk t.next) ∈ t.rows.map key := by
  unfold insert
  split <;> simp_all

end Insert

/-! ## Updating -/

variable {t : Table ρ κ id key} {i : ℕ} {f : ρ → ρ} {hid : ∀ r, id (f r) = id r}
  {hkey : ∀ r, key (f r) = key r}

@[simp] theorem update_rows :
    (t.update i f hid hkey).rows = t.rows.map fun r => if id r = i then f r else r := rfl

theorem mem_update {r : ρ} :
    r ∈ (t.update i f hid hkey).rows ↔
      (r ∈ t.rows ∧ id r ≠ i) ∨ ∃ s ∈ t.rows, id s = i ∧ r = f s := by
  simp only [update_rows, List.mem_map]
  constructor
  · rintro ⟨s, hs, rfl⟩
    by_cases h : id s = i
    · exact Or.inr ⟨s, hs, h, by simp [h]⟩
    · exact Or.inl (by simpa [h] using hs)
  · rintro (⟨hr, h⟩ | ⟨s, hs, h, rfl⟩)
    · exact ⟨r, hr, by simp [h]⟩
    · exact ⟨s, hs, by simp [h]⟩

theorem update_keys : (t.update i f hid hkey).rows.map key = t.rows.map key :=
  map_update key t.rows i f hkey

theorem countP_map_le (p : ρ → Bool) (i : ℕ) (f : ρ → ρ) {rows : List ρ}
    (hnd : (rows.map id).Nodup) :
    (rows.map fun r => if id r = i then f r else r).countP p ≤ rows.countP p + 1 := by
  induction rows with
  | nil => simp
  | cons r rs ih =>
    rw [List.map_cons, List.nodup_cons] at hnd
    obtain ⟨hr, hnd⟩ := hnd
    by_cases h : id r = i
    · -- the row itself: no other one is touched
      have hrest : (rs.map fun s => if id s = i then f s else s) = rs := by
        refine (List.map_congr_left (g := fun s => s) fun s hs => ?_).trans (List.map_id' rs)
        have hne : id s ≠ i := fun he => hr (List.mem_map.2 ⟨s, hs, he.trans h.symm⟩)
        simp [hne]
      rw [List.map_cons, hrest]
      simp only [List.countP_cons]
      split <;> split <;> omega
    · have := ih hnd
      simp only [List.map_cons, if_neg h, List.countP_cons]
      omega

/-- An update makes at most one more row satisfy `p`. -/
theorem countP_update_le (p : ρ → Bool) :
    (t.update i f hid hkey).rows.countP p ≤ t.rows.countP p + 1 :=
  countP_map_le p i f t.ids

/-- It makes none do so if the row it changes did already. -/
theorem countP_update_mono (p : ρ → Bool) (h : ∀ r ∈ t.rows, id r = i → p (f r) = true → p r = true) :
    (t.update i f hid hkey).rows.countP p ≤ t.rows.countP p := by
  rw [update_rows, List.countP_map]
  apply List.countP_mono_left
  intro r hr hp
  by_cases hi : id r = i
  · exact h r hr hi (by simpa [hi] using hp)
  · simpa [hi] using hp

/-! ## Looking up -/

/-- Two rows with one primary key are the same row. -/
theorem eq_of_id (t : Table ρ κ id key) {r s : ρ} (hr : r ∈ t.rows) (hs : s ∈ t.rows)
    (h : id r = id s) : r = s :=
  List.inj_on_of_nodup_map t.ids hr hs h

/-- Among rows with distinct primary keys, each is found by its own. -/
theorem find?_id (id : ρ → ℕ) {rows : List ρ} (hnd : (rows.map id).Nodup) {r : ρ} (hr : r ∈ rows) :
    rows.find? (fun s => id s = id r) = some r := by
  cases hf : rows.find? (fun s => decide (id s = id r)) with
  | none => simpa using List.find?_eq_none.1 hf r hr
  | some s =>
    have hs := List.mem_of_find?_eq_some hf
    rw [List.inj_on_of_nodup_map hnd hs hr (by simpa using List.find?_some hf)]

theorem get_eq_some (t : Table ρ κ id key) {r : ρ} : t.get i = some r ↔ r ∈ t.rows ∧ id r = i := by
  unfold get
  constructor
  · intro h
    exact ⟨List.mem_of_find?_eq_some h, by simpa using List.find?_some h⟩
  · rintro ⟨hr, rfl⟩
    exact find?_id id t.ids hr

/-- A table with the same primary keys in the same order has, for each row, the one that is
found under its key. -/
theorem rows_of_ids {t t' : Table ρ κ id key} (h : t'.rows.map id = t.rows.map id) :
    t'.rows = t.rows.map fun r => (t'.get (id r)).getD r := by
  have hlen : t'.rows.length = t.rows.length := by simpa using congrArg List.length h
  refine List.ext_getElem (by simpa using hlen) fun n hn hn' => ?_
  have hid : id t'.rows[n] = id t.rows[n] := by
    have hmap := List.getElem_of_eq h (i := n) (by rwa [List.length_map])
    rwa [List.getElem_map, List.getElem_map] at hmap
  rw [List.getElem_map, (t'.get_eq_some).2 ⟨List.getElem_mem hn, hid⟩]
  rfl

/-- What a lookup finds after an update. -/
theorem get_update (j : ℕ) :
    (t.update i f hid hkey).get j = (t.get j).map fun r => if j = i then f r else r := by
  have hcomp : ((fun r => decide (id r = j)) ∘ fun r => if id r = i then f r else r) =
      fun r => decide (id r = j) := by
    funext r
    by_cases h : id r = i <;> simp [h, hid]
  rw [get, update_rows, List.find?_map, hcomp, get]
  cases hf : t.rows.find? fun r => decide (id r = j) with
  | none => rfl
  | some r =>
    have hj : id r = j := by simpa using List.find?_some hf
    simp [hj]

/-- What a lookup finds after an insertion. -/
theorem get_insert [DecidableEq κ] {t' : Table ρ κ id key} {mk : ℕ → ρ} {hid : ∀ n, id (mk n) = n}
    {n : ℕ} (h : t.insert mk hid = some (n, t')) (j : ℕ) :
    t'.get j = if j = n then some (mk n) else t.get j := by
  obtain ⟨rfl, -, hrows, -⟩ := insert_eq_some h
  -- no row has had the new primary key before
  have hold : t.rows.find? (fun r => decide (id r = t.next)) = none := by
    rw [List.find?_eq_none]
    intro r hr
    have := t.fresh r hr
    simp only [decide_eq_true_eq]
    omega
  rw [get, hrows, List.find?_append, get]
  by_cases hj : j = t.next
  · subst hj
    simp [hold, hid]
  · have : t.next ≠ j := fun h => hj h.symm
    simp [hj, hid, this]

/-! ## Renaming a key -/

/-- **What a successful rename does**: only the row with primary key `i` changes. -/
theorem rekey_eq_some [DecidableEq κ] {t t' : Table ρ κ id key} {k : κ} {set : κ → ρ → ρ}
    {hid : ∀ k r, id (set k r) = id r} (h : t.rekey i k set hid = some t') :
    t'.rows = t.rows.map (fun r => if id r = i then set k r else r) ∧ t'.next = t.next := by
  unfold rekey at h
  dsimp only at h
  split at h
  · cases h; exact ⟨rfl, rfl⟩
  · cases h

/-- A rename is refused exactly if two rows would have the same key. -/
theorem rekey_eq_none [DecidableEq κ] {t : Table ρ κ id key} {k : κ} {set : κ → ρ → ρ}
    {hid : ∀ k r, id (set k r) = id r} : t.rekey i k set hid = none ↔
      ¬((t.rows.map fun r => if id r = i then set k r else r).map key).Nodup := by
  unfold rekey
  dsimp only
  split
  · rename_i hk
    exact ⟨nofun, fun hn => absurd hk hn⟩
  · rename_i hk
    exact ⟨fun _ => hk, fun _ => rfl⟩

end Table

end Interaction
