import Mathlib.Logic.Relation
import Remediation.Lib.Claim

/-!
# A value that is made once

Double-checked locking: a cell is read without a lock, and only where it is empty a caller takes
the lock, reads it again, makes the value and leaves the lock. Whoever finds the cell filled reads
it once more for the result. Callers come at any time and move in any order; making the value may
fail, which the caller reports without filling the cell.

`good_reach`: at most one caller is inside the lock, one value at most is ever made, and it is what
every caller returns. `can_move`: while a caller has not finished, some caller can move.
`moves_le`: no schedule goes on for ever.
-/

namespace Once

open Interaction Relation

variable {β ε : Type}

/-- Where a caller stands. -/
inductive Pc (β ε : Type)
  | start
  | waiting
  | locked
  | building
  | leaving (exc : Option ε)
  /-- the cell is filled, as far as the caller knows -/
  | found
  | returned (v : Option β)
  | raised (exc : ε)

namespace Pc

/-- Between taking the lock and leaving it. -/
def inside : Pc β ε → Bool
  | locked => true
  | building => true
  | leaving _ => true
  | _ => false

def finished : Pc β ε → Bool
  | returned _ => true
  | raised _ => true
  | _ => false

/-- How many moves are left at most. -/
def rank : Pc β ε → ℕ
  | start => 6
  | waiting => 5
  | locked => 4
  | building => 3
  | leaving _ => 2
  | found => 1
  | returned _ => 0
  | raised _ => 0

end Pc

/-- The cell, the caller that has the lock, how often the value has been tried to make, and what
has been made, newest first. -/
structure State (β ε : Type) where
  cell : Option β := none
  holder : Option ℕ := none
  tries : ℕ := 0
  built : List β := []
  callers : List (Pc β ε) := []

namespace State

/-- The caller `i` goes on to `pc`. -/
def goto (s : State β ε) (i : ℕ) (pc : Pc β ε) : State β ε := { s with callers := s.callers.set i pc }

def call (s : State β ε) : State β ε := { s with callers := s.callers ++ [.start] }

variable (make : ℕ → Except ε β)

/-- The move of a caller at `pc`, unless it waits for the lock or has finished. -/
def move (s : State β ε) (i : ℕ) : Pc β ε → Option (State β ε)
  | .start => some (s.goto i (if s.cell.isSome then .found else .waiting))
  | .waiting => if s.holder = none then some { s.goto i .locked with holder := some i } else none
  | .locked => some (s.goto i (if s.cell.isNone then .building else .leaving none))
  | .building =>
    match make s.tries with
    | .ok v =>
      some { s.goto i (.leaving none) with cell := some v, tries := s.tries + 1, built := v :: s.built }
    | .error exc => some { s.goto i (.leaving (some exc)) with tries := s.tries + 1 }
  | .leaving none => some { s.goto i .found with holder := none }
  | .leaving (some exc) => some { s.goto i (.raised exc) with holder := none }
  -- the cell is read again
  | .found => some (s.goto i (.returned s.cell))
  | .returned _ => none
  | .raised _ => none

def step (s : State β ε) (i : ℕ) : Option (State β ε) := s.callers[i]?.bind (s.move make i)

/-- A caller comes, or one moves. -/
inductive Next : State β ε → State β ε → Prop
  | call (s : State β ε) : Next s s.call
  | step {s s' : State β ε} {i : ℕ} (h : s.step make i = some s') : Next s s'

def Reach (s : State β ε) : Prop := ReflTransGen (Next make) {} s

end State

open State

/-- What a caller at `pc` knows of the cell. -/
def Knows (make : ℕ → Except ε β) (cell : Option β) : Pc β ε → Prop
  | .building => cell = none
  | .leaving none => cell.isSome = true
  | .leaving (some exc) => ∃ n, make n = .error exc
  | .found => cell.isSome = true
  | .returned v => v = cell ∧ v.isSome = true
  | .raised exc => ∃ n, make n = .error exc
  | _ => True

/-- The invariant of the pattern. -/
structure Good (make : ℕ → Except ε β) (s : State β ε) : Prop where
  /-- the caller inside the lock is the one that has it -/
  lock : ∀ i pc, s.callers[i]? = some pc → (pc.inside = true ↔ s.holder = some i)
  held : ∀ i, s.holder = some i → ∃ pc, s.callers[i]? = some pc
  once : s.built = s.cell.toList
  made : ∀ v ∈ s.cell, ∃ n, make n = .ok v
  knows : ∀ pc ∈ s.callers, Knows make s.cell pc

variable {make : ℕ → Except ε β} {s s' : State β ε}

theorem good_initial : Good make ({} : State β ε) where
  lock i pc h := by cases h
  held i h := by cases h
  once := rfl
  made v h := by cases h
  knows pc h := by cases h

theorem Good.call (hg : Good make s) : Good make s.call where
  lock i pc h := by
    rcases getElem?_snoc_cases h with ⟨rfl, rfl⟩ | h
    · -- the new caller is not inside, and nobody has given it the lock
      refine iff_of_false Bool.false_ne_true ?_
      intro hh
      obtain ⟨pc', hpc'⟩ := hg.held _ hh
      exact Nat.lt_irrefl _ (List.getElem?_eq_some_iff.1 hpc').1
    · exact hg.lock i pc h
  held i h := by
    obtain ⟨pc, hpc⟩ := hg.held i h
    have hi := (List.getElem?_eq_some_iff.1 hpc).1
    exact ⟨pc, (List.getElem?_append_left hi).trans hpc⟩
  once := hg.once
  made := hg.made
  knows pc h := by
    rcases List.mem_append.1 h with h | h
    · exact hg.knows pc h
    · rw [List.mem_singleton.1 h]
      trivial

/-- A caller that moves without touching the lock, on to a place on the same side of it. -/
theorem Good.goto (hg : Good make s) {i : ℕ} {pc pc' : Pc β ε} (hi : s.callers[i]? = some pc)
    (hin : pc'.inside = pc.inside) (hk : Knows make s.cell pc') : Good make (s.goto i pc') where
  lock j pc'' h := by
    rcases getElem?_set_cases h with ⟨rfl, rfl⟩ | ⟨-, h⟩
    · rw [hin]
      exact hg.lock j pc hi
    · exact hg.lock j pc'' h
  held j h := by
    obtain ⟨pc'', hpc''⟩ := hg.held j h
    have hlt := (List.getElem?_eq_some_iff.1 hpc'').1
    exact ⟨_, List.getElem?_eq_getElem (by simpa [State.goto] using hlt)⟩
  once := hg.once
  made := hg.made
  knows pc'' h := by
    rcases List.mem_or_eq_of_mem_set h with h | rfl
    · exact hg.knows pc'' h
    · exact hk

theorem set_isSome {l : List (Pc β ε)} {i j : ℕ} {pc pc' : Pc β ε} (hj : l[j]? = some pc) :
    ∃ pc'', (l.set i pc')[j]? = some pc'' := by
  have hlt := (List.getElem?_eq_some_iff.1 hj).1
  exact ⟨_, List.getElem?_eq_getElem (by simpa using hlt)⟩

/-- A caller that takes the lock, which nobody has. -/
theorem Good.acquire (hg : Good make s) {i : ℕ} {pc : Pc β ε} (hi : s.callers[i]? = some pc)
    (hfree : s.holder = none) : Good make { s.goto i .locked with holder := some i } where
  lock j pc' h := by
    rcases getElem?_set_cases h with ⟨rfl, rfl⟩ | ⟨hne, h⟩
    · exact iff_of_true rfl rfl
    · rw [hg.lock j pc' h, hfree, Option.some.injEq]
      exact iff_of_false (fun h => by cases h) fun h => hne h.symm
  held j h := by
    cases h
    exact set_isSome hi
  once := hg.once
  made := hg.made
  knows pc' h := by
    rcases List.mem_or_eq_of_mem_set h with h | rfl
    · exact hg.knows pc' h
    · trivial

/-- The caller that has the lock leaves it. -/
theorem Good.release (hg : Good make s) {i : ℕ} {pc pc' : Pc β ε} (hi : s.callers[i]? = some pc)
    (hin : pc.inside = true) (hout : pc'.inside = false) (hk : Knows make s.cell pc') :
    Good make { s.goto i pc' with holder := none } where
  lock j pc'' h := by
    have hheld := (hg.lock i pc hi).1 hin
    rcases getElem?_set_cases h with ⟨rfl, rfl⟩ | ⟨hne, h⟩
    · rw [hout]
      exact iff_of_false Bool.false_ne_true fun h => by cases h
    · rw [hg.lock j pc'' h, hheld, Option.some.injEq]
      exact iff_of_false (fun h => hne h.symm) fun h => by cases h
  held j h := by cases h
  once := hg.once
  made := hg.made
  knows pc'' h := by
    rcases List.mem_or_eq_of_mem_set h with h | rfl
    · exact hg.knows pc'' h
    · exact hk

/-- The caller that has the lock fills the cell, which is empty. -/
theorem Good.build (hg : Good make s) {i : ℕ} (hi : s.callers[i]? = some .building) {v : β} {n : ℕ}
    (hv : make n = .ok v) :
    Good make { s.goto i (.leaving none) with
      cell := some v, tries := s.tries + 1, built := v :: s.built } := by
  have hempty : s.cell = none := hg.knows .building (List.mem_of_getElem? hi)
  have hheld := (hg.lock i _ hi).1 rfl
  refine ⟨?_, ?_, ?_, ?_, ?_⟩
  · intro j pc' h
    rcases getElem?_set_cases h with ⟨rfl, rfl⟩ | ⟨-, h⟩
    · exact iff_of_true rfl hheld
    · exact hg.lock j pc' h
  · intro j h
    obtain ⟨pc', hpc'⟩ := hg.held j h
    exact set_isSome hpc'
  · have hnone := hg.once
    rw [hempty] at hnone
    simp [hnone]
  · intro v' hv'
    cases hv'
    exact ⟨n, hv⟩
  · intro pc' h
    obtain ⟨j, hj⟩ := List.mem_iff_getElem?.1 h
    rcases getElem?_set_cases hj with ⟨rfl, rfl⟩ | ⟨hne, hj⟩
    · rfl
    have hold := hg.knows pc' (List.mem_of_getElem? hj)
    rw [hempty] at hold
    -- nobody else is inside, and nobody has found the cell filled
    cases pc' with
    | building =>
      have hj' := (hg.lock j _ hj).1 rfl
      rw [hheld] at hj'
      exact absurd (Option.some.inj hj').symm hne
    | leaving exc =>
      cases exc with
      | none => rfl
      | some exc => exact hold
    | found => rfl
    | returned v' =>
      obtain ⟨rfl, hsome⟩ := hold
      cases hsome
    | raised exc => exact hold
    | _ => trivial

/-- **Every move keeps the invariant.** -/
theorem Good.step (hg : Good make s) {i : ℕ} (h : s.step make i = some s') : Good make s' := by
  obtain ⟨pc, hi, hm⟩ := Option.bind_eq_some_iff.1 h
  have hk := hg.knows pc (List.mem_of_getElem? hi)
  cases pc with
  | start =>
    cases hm
    cases hc : s.cell with
    | none => exact hg.goto hi rfl trivial
    | some v => exact hg.goto hi rfl (by rw [hc]; rfl)
  | waiting =>
    simp only [State.move] at hm
    split at hm
    · rename_i hfree
      cases hm
      exact hg.acquire hi hfree
    · cases hm
  | locked =>
    cases hm
    cases hc : s.cell with
    | none => exact hg.goto hi rfl hc
    | some v => exact hg.goto hi rfl (by rw [hc]; rfl)
  | building =>
    simp only [State.move] at hm
    split at hm
    · rename_i v hv
      cases hm
      exact hg.build hi hv
    · rename_i exc he
      cases hm
      have hgo : Good make (s.goto i (.leaving (some exc))) := hg.goto hi rfl ⟨s.tries, he⟩
      exact ⟨hgo.lock, hgo.held, hgo.once, hgo.made, hgo.knows⟩
  | leaving exc =>
    cases exc with
    | none =>
      cases hm
      exact hg.release hi rfl rfl hk
    | some exc =>
      cases hm
      exact hg.release hi rfl rfl hk
  | found =>
    cases hm
    exact hg.goto hi rfl ⟨rfl, hk⟩
  | returned v => cases hm
  | raised exc => cases hm

/-- **The invariant of the pattern** holds wherever callers come and move. -/
theorem good_reach (h : Reach make s) : Good make s := by
  induction h with
  | refl => exact good_initial
  | tail _ hnext ih =>
    cases hnext with
    | call => exact ih.call
    | step hstep => exact ih.step hstep

/-! ## Progress -/

/-- **No deadlock.** While a caller has not finished, some caller can move. -/
theorem can_move (hg : Good make s) (h : ∃ pc ∈ s.callers, pc.finished = false) :
    ∃ i s', s.step make i = some s' := by
  have hgo : ∀ i pc, s.callers[i]? = some pc → (s.move make i pc).isSome = true →
      ∃ i s', s.step make i = some s' := by
    intro i pc hi hm
    obtain ⟨s', hs'⟩ := Option.isSome_iff_exists.1 hm
    exact ⟨i, s', Option.bind_eq_some_iff.2 ⟨pc, hi, hs'⟩⟩
  obtain ⟨pc, hpc, hfin⟩ := h
  obtain ⟨i, hi⟩ := List.mem_iff_getElem?.1 hpc
  -- whoever has the lock can move
  have hinside : ∀ (j : ℕ) (pc : Pc β ε), s.callers[j]? = some pc → pc.inside = true →
      ∃ i s', s.step make i = some s' := by
    intro j pc hj hin
    refine hgo j pc hj ?_
    cases pc with
    | locked => rfl
    | building =>
      simp only [State.move]
      split <;> rfl
    | leaving exc => cases exc <;> rfl
    | _ => cases hin
  cases pc with
  | start => exact hgo i _ hi rfl
  | waiting =>
    cases hh : s.holder with
    | none => exact hgo i _ hi (by simp [State.move, hh])
    | some j =>
      obtain ⟨pc', hj⟩ := hg.held j hh
      exact hinside j pc' hj ((hg.lock j pc' hj).2 hh)
  | found => exact hgo i _ hi rfl
  | returned v => cases hfin
  | raised exc => cases hfin
  | _ => exact hinside i _ hi rfl

/-- The moves that are left at most. -/
def State.left (s : State β ε) : ℕ := (s.callers.map Pc.rank).sum

theorem left_goto {i : ℕ} {pc pc' : Pc β ε} (hi : s.callers[i]? = some pc) :
    (s.goto i pc').left + pc.rank = s.left + pc'.rank :=
  ClaimProtocol.sum_map_set Pc.rank hi

theorem left_step {i : ℕ} (h : s.step make i = some s') : s'.left < s.left := by
  obtain ⟨pc, hi, hm⟩ := Option.bind_eq_some_iff.1 h
  -- what a move does to the callers is one of these
  have hgo : ∀ pc' : Pc β ε, s'.callers = (s.goto i pc').callers → pc'.rank < pc.rank →
      s'.left < s.left := by
    intro pc' hs hlt
    have hleft : (s.goto i pc').left + pc.rank = s.left + pc'.rank := left_goto hi
    have hsame : s'.left = (s.goto i pc').left := by
      unfold State.left
      rw [hs]
    omega
  cases pc with
  | start =>
    cases hm
    exact hgo _ rfl (by split <;> simp [Pc.rank])
  | waiting =>
    simp only [State.move] at hm
    split at hm
    · cases hm
      exact hgo .locked rfl (by simp [Pc.rank])
    · cases hm
  | locked =>
    cases hm
    exact hgo _ rfl (by split <;> simp [Pc.rank])
  | building =>
    simp only [State.move] at hm
    split at hm
    · cases hm
      exact hgo (.leaving none) rfl (by simp [Pc.rank])
    · cases hm
      exact hgo (.leaving (some _)) rfl (by simp [Pc.rank])
  | leaving exc =>
    cases exc with
    | none =>
      cases hm
      exact hgo .found rfl (by simp [Pc.rank])
    | some exc =>
      cases hm
      exact hgo (.raised exc) rfl (by simp [Pc.rank])
  | found =>
    cases hm
    exact hgo (.returned s.cell) rfl (by simp [Pc.rank])
  | returned v => cases hm
  | raised exc => cases hm

theorem left_le (s : State β ε) : s.left ≤ 6 * s.callers.length := by
  unfold State.left
  induction s.callers with
  | nil => exact Nat.zero_le _
  | cons pc callers ih =>
    have hrank : pc.rank ≤ 6 := by cases pc <;> simp [Pc.rank]
    rw [List.map_cons, List.sum_cons, List.length_cons]
    omega

/-- Callers move one after the other, as a schedule says; a move that is not possible ends it. -/
def State.run (make : ℕ → Except ε β) (s : State β ε) (moves : List ℕ) : Option (State β ε) :=
  moves.foldlM (fun s i => s.step make i) s

/-- **Termination**: without further callers, a schedule has so many moves at most. -/
theorem moves_le {moves : List ℕ} (h : s.run make moves = some s') :
    moves.length + s'.left ≤ s.left := by
  induction moves generalizing s with
  | nil =>
    cases h
    exact Nat.le_of_eq (Nat.zero_add _)
  | cons i moves ih =>
    simp only [State.run, List.foldlM_cons] at h
    obtain ⟨s₁, hs₁, hrest⟩ := Option.bind_eq_some_iff.1 h
    have hfirst := left_step hs₁
    have hmoves := ih hrest
    rw [List.length_cons]
    omega

theorem reach_run {moves : List ℕ} (hr : Reach make s) (h : s.run make moves = some s') :
    Reach make s' := by
  induction moves generalizing s with
  | nil =>
    cases h
    exact hr
  | cons i moves ih =>
    simp only [State.run, List.foldlM_cons] at h
    obtain ⟨s₁, hs₁, hrest⟩ := Option.bind_eq_some_iff.1 h
    exact ih (hr.tail (.step hs₁)) hrest

end Once
