import Mathlib.Algebra.BigOperators.Group.List.Basic
import Mathlib.Algebra.GroupWithZero.Nat
import Mathlib.Data.List.Nodup
import Mathlib.Tactic.Common

/-!
# Tallies

A dictionary of counts, built up in one pass over a list of keys. Its keys are in the order in
which they first come up. A tally has an entry for exactly the keys of the list, with their
multiplicities (`mem_tally`), and its counts add up to the length of the list (`sum_tally`).
-/

namespace Tally

variable {κ : Type} [DecidableEq κ]

/-- Count one key more. -/
def bump (k : κ) : List (κ × ℕ) → List (κ × ℕ)
  | [] => [(k, 1)]
  | (l, n) :: d => if l = k then (l, n + 1) :: d else (l, n) :: bump k d

def tally (ks : List κ) : List (κ × ℕ) := ks.foldl (fun d k => bump k d) []

variable {k l : κ} {n : ℕ} {d : List (κ × ℕ)}

theorem keys_bump (k : κ) (d : List (κ × ℕ)) :
    (bump k d).map Prod.fst = if k ∈ d.map Prod.fst then d.map Prod.fst else d.map Prod.fst ++ [k] := by
  induction d with
  | nil => rfl
  | cons e d ih =>
    obtain ⟨l, n⟩ := e
    by_cases hl : l = k
    · simp [bump, hl]
    · have hl' : k ≠ l := fun he => hl he.symm
      simp only [bump, if_neg hl, List.map_cons, ih, List.mem_cons, hl', false_or]
      split <;> rfl

theorem nodup_bump (hd : (d.map Prod.fst).Nodup) (k : κ) : ((bump k d).map Prod.fst).Nodup := by
  rw [keys_bump]
  split
  · exact hd
  · rename_i hk
    refine List.nodup_append.2 ⟨hd, List.nodup_singleton k, ?_⟩
    rintro l hl _ hk' rfl
    exact hk (List.mem_singleton.1 hk' ▸ hl)

theorem sum_bump (k : κ) (d : List (κ × ℕ)) :
    ((bump k d).map Prod.snd).sum = (d.map Prod.snd).sum + 1 := by
  induction d with
  | nil => rfl
  | cons e d ih =>
    obtain ⟨l, n⟩ := e
    by_cases hl : l = k
    · simp only [bump, if_pos hl, List.map_cons, List.sum_cons]
      omega
    · simp only [bump, if_neg hl, List.map_cons, List.sum_cons, ih]
      omega

/-- The other entries stay as they are. -/
theorem mem_bump_of_ne (hkl : l ≠ k) : (l, n) ∈ bump k d ↔ (l, n) ∈ d := by
  induction d with
  | nil => simp [bump, hkl]
  | cons e d ih =>
    obtain ⟨m, c⟩ := e
    by_cases hm : m = k
    · simp [bump, hm, hkl]
    · simp [bump, hm, ih]

/-- The entry of the key itself goes up by one, from none to one if there is none. -/
theorem mem_bump_self (hd : (d.map Prod.fst).Nodup) :
    (k, n) ∈ bump k d ↔ (∃ m, (k, m) ∈ d ∧ n = m + 1) ∨ (k ∉ d.map Prod.fst ∧ n = 1) := by
  induction d with
  | nil => simp [bump]
  | cons e d ih =>
    obtain ⟨l, c⟩ := e
    rw [List.map_cons, List.nodup_cons] at hd
    obtain ⟨hl, hd⟩ := hd
    by_cases hlk : l = k
    · subst hlk
      have hno : ∀ m, (l, m) ∉ d := fun m hm => hl (List.mem_map.2 ⟨(l, m), hm, rfl⟩)
      simp [bump, hno]
    · have hkl : k ≠ l := fun he => hlk he.symm
      simp only [bump, if_neg hlk, List.mem_cons, Prod.mk.injEq, hkl, false_and, false_or, ih hd,
        List.map_cons]

/-- What a pass over more keys makes of a dictionary that is right for the keys so far. -/
theorem foldl_bump (ks done : List κ) (hnd : (d.map Prod.fst).Nodup)
    (hd : ∀ l n, (l, n) ∈ d ↔ 0 < n ∧ n = done.count l) :
    ((ks.foldl (fun d k => bump k d) d).map Prod.fst).Nodup ∧
      ∀ l n, (l, n) ∈ ks.foldl (fun d k => bump k d) d ↔ 0 < n ∧ n = (done ++ ks).count l := by
  induction ks generalizing d done with
  | nil => simpa using ⟨hnd, hd⟩
  | cons k ks ih =>
    have hstep := ih (d := bump k d) (done ++ [k]) (nodup_bump hnd k) ?_
    · simpa using hstep
    intro l n
    by_cases hlk : l = k
    · subst hlk
      rw [mem_bump_self hnd, List.count_append, List.count_singleton_self]
      have habsent : l ∉ d.map Prod.fst ↔ done.count l = 0 := by
        constructor
        · intro hl
          by_contra hpos
          have hmem := (hd l (done.count l)).2 ⟨by omega, rfl⟩
          exact hl (List.mem_map.2 ⟨_, hmem, rfl⟩)
        · intro hzero hl
          obtain ⟨⟨l', m⟩, hm, he⟩ := List.mem_map.1 hl
          have hl' : l' = l := he
          rw [hl'] at hm
          have := (hd l m).1 hm
          omega
      rw [habsent]
      constructor
      · rintro (⟨m, hm, rfl⟩ | ⟨hzero, rfl⟩)
        · have := (hd l m).1 hm
          omega
        · omega
      · rintro ⟨-, rfl⟩
        by_cases hzero : done.count l = 0
        · exact Or.inr ⟨hzero, by omega⟩
        · exact Or.inl ⟨done.count l, (hd _ _).2 ⟨by omega, rfl⟩, rfl⟩
    · rw [mem_bump_of_ne hlk, hd, List.count_append]
      have hother : [k].count l = 0 := List.count_eq_zero.2 (by simpa using hlk)
      rw [hother, Nat.add_zero]

/-- The empty dictionary is right for no keys. -/
theorem mem_nil_iff (k : κ) (n : ℕ) :
    (k, n) ∈ ([] : List (κ × ℕ)) ↔ 0 < n ∧ n = ([] : List κ).count k := by
  simp only [List.not_mem_nil, List.count_nil, false_iff]
  omega

theorem nodup_tally (ks : List κ) : ((tally ks).map Prod.fst).Nodup :=
  (foldl_bump (d := []) ks [] List.nodup_nil mem_nil_iff).1

/-- **The entries of a tally** are the keys that come up, each with how often it does. -/
theorem mem_tally (ks : List κ) : (k, n) ∈ tally ks ↔ 0 < n ∧ n = ks.count k :=
  (foldl_bump (d := []) ks [] List.nodup_nil mem_nil_iff).2 k n

/-- Nothing is counted twice, and nothing is left out. -/
theorem sum_tally (ks : List κ) : ((tally ks).map Prod.snd).sum = ks.length := by
  have hpass : ∀ d : List (κ × ℕ), ((ks.foldl (fun d k => bump k d) d).map Prod.snd).sum =
      (d.map Prod.snd).sum + ks.length := by
    induction ks with
    | nil => intro d; rfl
    | cons k ks ih =>
      intro d
      rw [List.foldl_cons, ih, sum_bump, List.length_cons]
      omega
  exact (hpass []).trans (Nat.zero_add _)

end Tally
