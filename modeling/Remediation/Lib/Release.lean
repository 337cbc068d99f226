import Remediation.Lib.Claim

/-!
# Claims that may be released

The protocol of `Claim`, where some operations release every key that is taken. A key can then be
claimed again, so that it may be acted on once more for each release and no more often
(`at_most_once_each`): after any number of releases the acts on a key, with the threads that have
it open, are one more than the releases at most, and no more than those if it is free.
-/

namespace Interaction

variable {Op : Type} {Ans : Op → Type} {α σ T B K : Type} [DecidableEq K]

namespace ClaimProtocol

variable (P : ClaimProtocol Ans σ K)

/-- The state keeps the books up to the operations that `frees` names, which `freed` counts. -/
structure HonestUpTo (exec : (op : Op) → σ → Ans op × σ) (boot : B → σ → σ) (frees : Op → Bool)
    (freed : σ → ℕ) : Prop where
  stays : ∀ op w k, frees op = false → P.taken w k → P.taken (exec op w).2 k
  wins_free : ∀ op w k, P.wins ⟨op, (exec op w).1⟩ = some k → ¬P.taken w k
  wins_takes : ∀ op w k, P.wins ⟨op, (exec op w).1⟩ = some k → P.taken (exec op w).2 k
  wins_idle : ∀ op w k, P.wins ⟨op, (exec op w).1⟩ = some k → P.acts op = none ∧ frees op = false
  acts_keeps : ∀ op k, P.acts op = some k → frees op = false
  counts : ∀ op w k, P.count (exec op w).2 k = P.count w k + (decide (P.acts op = some k)).toNat
  releases : ∀ op w, freed (exec op w).2 = freed w + (frees op).toNat
  boot_stays : ∀ b w k, P.taken w k → P.taken (boot b w) k
  boot_counts : ∀ b w k, P.count (boot b w) k = P.count w k
  boot_releases : ∀ b w, freed (boot b w) = freed w

/-- For every key, what has been done and what is still open is one more than the releases at
most, and no more than those while the key is free. -/
def BalancedUpTo (freed : σ → ℕ) (w : σ) (hs : List (List (Entry Ans))) : Prop :=
  ∀ k, P.count w k + P.openCount k hs ≤ freed w + 1 ∧
    (¬P.taken w k → P.count w k + P.openCount k hs ≤ freed w)

variable {P} {frees : Op → Bool} {freed : σ → ℕ}

/-- One permitted operation keeps the books balanced. -/
theorem balancedUpTo_step {exec : (op : Op) → σ → Ans op × σ} {boot : B → σ → σ}
    (hP : P.HonestUpTo exec boot frees freed) {w : σ} {hs : List (List (Entry Ans))} {i : ℕ}
    {h : List (Entry Ans)} {op : Op} (hb : P.BalancedUpTo freed w hs) (hi : hs[i]? = some h)
    (hpre : P.ActsWhenOpen h op) :
    P.BalancedUpTo freed (exec op w).2 (hs.set i (⟨op, (exec op w).1⟩ :: h)) := by
  intro k
  obtain ⟨h1, h2⟩ := hb k
  have hset := openCount_set (P := P) (k := k) (⟨op, (exec op w).1⟩ :: h) hi
  have hcnt := hP.counts op w k
  have hrel := hP.releases op w
  by_cases hw : P.wins ⟨op, (exec op w).1⟩ = some k
  · -- the claim: the key was free, so that what is open is within the releases
    obtain ⟨hidle, hno⟩ := hP.wins_idle op w k hw
    have hfree := h2 (hP.wins_free op w k hw)
    have hopen : P.isOpen k (⟨op, (exec op w).1⟩ :: h) = true := by simp [isOpen, hw]
    rw [hopen] at hset
    simp only [hidle, reduceCtorEq, decide_false, Bool.toNat_false, Bool.toNat_true] at hcnt hset
    rw [hno, Bool.toNat_false] at hrel
    exact ⟨by omega, fun hnot => absurd (hP.wins_takes op w k hw) hnot⟩
  by_cases ha : P.acts op = some k
  · -- the act: it uses up this thread's own permission
    have hold : P.isOpen k h = true := hpre k ha
    have hnew : P.isOpen k (⟨op, (exec op w).1⟩ :: h) = false := by simp [isOpen, hw, ha]
    have hno := hP.acts_keeps op k ha
    rw [hold, hnew] at hset
    simp only [ha, decide_true, Bool.toNat_true, Bool.toNat_false] at hcnt hset
    rw [hno, Bool.toNat_false] at hrel
    have hstill : ¬P.taken (exec op w).2 k → ¬P.taken w k := mt (hP.stays op w k hno)
    exact ⟨by omega, fun hnot => by have := h2 (hstill hnot); omega⟩
  have hsame : P.isOpen k (⟨op, (exec op w).1⟩ :: h) = P.isOpen k h := by simp [isOpen, hw, ha]
  rw [hsame] at hset
  simp only [ha, decide_false, Bool.toNat_false] at hcnt
  cases hno : frees op with
  | true =>
    -- a release makes up for what was there before it
    rw [hno, Bool.toNat_true] at hrel
    exact ⟨by omega, fun _ => by omega⟩
  | false =>
    rw [hno, Bool.toNat_false] at hrel
    have hstill : ¬P.taken (exec op w).2 k → ¬P.taken w k := mt (hP.stays op w k hno)
    exact ⟨by omega, fun hnot => by have := h2 (hstill hnot); omega⟩

variable {S : System Ans α σ T B} {C : Prog.Contract Ans} {Q : List (Entry Ans) → α → Prop}

/-- **At most once for each release**, and once more. -/
theorem at_most_once_each (hP : P.HonestUpTo S.exec S.boot frees freed)
    (hC : ∀ h op, C.pre h op → P.ActsWhenOpen h op)
    (hpost : ∀ h op w, C.post h op (S.exec op w).1)
    (hprog : ∀ t, (S.prog t).Keeps C Q []) {w : σ} (h0 : ∀ k, P.count w k = 0)
    (acts : List (Act T B)) :
    P.BalancedUpTo freed (S.run ⟨w, []⟩ acts).world (S.run ⟨w, []⟩ acts).hists := by
  refine (System.run_inv (R := fun _ _ _ _ => True) (P.BalancedUpTo freed) hprog ?_ ?_
    (fun w _ h op _ _ _ => hpost h op w)
    (fun _ _ _ _ _ hb hi hpre _ => balancedUpTo_step hP hb hi (hC _ _ hpre)) acts ?_
    (by simp [System.KeepsAll]) (System.runOK_true _ acts)).1
  · intro w hs hb k
    have hnew : P.openCount k (hs ++ [[]]) = P.openCount k hs := by simp [openCount, isOpen]
    rw [hnew]
    exact hb k
  · intro w hs b hb k
    have hz : P.openCount k [] = 0 := rfl
    obtain ⟨h1, h2⟩ := hb k
    rw [hP.boot_counts, hP.boot_releases, hz]
    refine ⟨by omega, fun hnot => ?_⟩
    have := h2 (mt (hP.boot_stays b w k) hnot)
    omega
  · intro k
    have hz : P.openCount k (Config.hists (⟨w, []⟩ : Config Ans α σ)) = 0 := rfl
    simp only [h0, hz]
    exact ⟨by omega, fun _ => by omega⟩

end ClaimProtocol

end Interaction
