import Mathlib.Data.List.Sort

/-!
# Rows in order

A query sorts its rows. Where no two of them are level, the rows before a row are those that the
order puts before it (`mem_before_iff`).
-/

namespace Interaction

variable {α : Type} {r : α → α → Prop} [DecidableRel r] [IsTrans α r] [Std.Total r]
  {l pre post : List α} {a b : α}

theorem mem_before_iff (hnd : l.Nodup) (hanti : ∀ b ∈ l, ∀ c ∈ l, r b c → r c b → b = c)
    (h : l.insertionSort r = pre ++ a :: post) : b ∈ pre ↔ b ∈ l ∧ r b a ∧ b ≠ a := by
  have hperm := List.perm_insertionSort r l
  have hsorted := List.pairwise_insertionSort r l
  rw [h] at hperm hsorted
  have hmem : ∀ c, c ∈ l ↔ c ∈ pre ∨ c = a ∨ c ∈ post := by
    intro c
    rw [← hperm.mem_iff, List.mem_append, List.mem_cons]
  obtain ⟨-, hafter, hbefore⟩ := List.pairwise_append.1 hsorted
  obtain ⟨-, hnd', hdisj⟩ := List.nodup_append.1 (hperm.nodup_iff.2 hnd)
  constructor
  · intro hb
    exact ⟨(hmem b).2 (Or.inl hb), hbefore b hb a List.mem_cons_self,
      hdisj b hb a List.mem_cons_self⟩
  · rintro ⟨hbl, hba, hne⟩
    rcases (hmem b).1 hbl with hb | rfl | hb
    · exact hb
    · exact absurd rfl hne
    · -- it comes after `a` as well, so it is level with it
      have hab : r a b := (List.pairwise_cons.1 hafter).1 b hb
      exact absurd (hanti b hbl a ((hmem a).2 (Or.inr (Or.inl rfl))) hba hab) hne

end Interaction
