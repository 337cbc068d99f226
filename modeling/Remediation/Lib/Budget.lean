import Mathlib.Algebra.BigOperators.Group.List.Basic
import Mathlib.Algebra.GroupWithZero.Nat
import Remediation.Lib.Pool

/-!
# Budgets

Each operation has a cost. A program costs at most `n` when, whatever the answers are, what it
issues from now on adds up to no more (`Prog.Costs`). In every interleaving, with crashes, the
operations that have been performed cost no more than the tasks that have been spawned may
(`System.run_costs`).
-/

namespace Interaction

variable {Op : Type} {Ans : Op → Type} {α β σ T B : Type}

namespace Prog

/-- What the program issues costs `n` at most, as long as the answers satisfy `ok`. -/
def Costs (cost : Op → ℕ) (ok : (op : Op) → Ans op → Prop) : Prog Op Ans α → ℕ → Prop
  | ret _, _ => True
  | call op k, n => cost op ≤ n ∧ ∀ x, ok op x → (k x).Costs cost ok (n - cost op)

variable {cost : Op → ℕ} {ok : (op : Op) → Ans op → Prop}

@[simp] theorem costs_ret (a : α) (n : ℕ) : (ret a : Prog Op Ans α).Costs cost ok n ↔ True := Iff.rfl

@[simp] theorem costs_call (op : Op) (k : Ans op → Prog Op Ans α) (n : ℕ) :
    (call op k).Costs cost ok n ↔
      cost op ≤ n ∧ ∀ x, ok op x → (k x).Costs cost ok (n - cost op) := Iff.rfl

theorem Costs.mono {p : Prog Op Ans α} {m n : ℕ} (hp : p.Costs cost ok m) (hmn : m ≤ n) :
    p.Costs cost ok n := by
  induction p generalizing m n with
  | ret a => trivial
  | call op k ih =>
    obtain ⟨hle, hk⟩ := hp
    exact ⟨Nat.le_trans hle hmn, fun x hx => ih x (hk x hx) (by omega)⟩

/-- **Sequencing.** -/
theorem Costs.bind {p : Prog Op Ans α} {f : α → Prog Op Ans β} {m n : ℕ} (hp : p.Costs cost ok m)
    (hf : ∀ a, (f a).Costs cost ok n) : (p.bind f).Costs cost ok (m + n) := by
  induction p generalizing m with
  | ret a => exact (hf a).mono (Nat.le_add_left n m)
  | call op k ih =>
    obtain ⟨hle, hk⟩ := hp
    refine ⟨by omega, fun x hx => ?_⟩
    have hrest : m + n - cost op = m - cost op + n := by omega
    rw [hrest]
    exact ih x (hk x hx)

/-- What is done with the result costs nothing. -/
theorem Costs.map {p : Prog Op Ans α} {n : ℕ} (hp : p.Costs cost ok n) (g : α → β) :
    (p.bind fun a => ret (g a)).Costs cost ok n :=
  hp.bind (n := 0) fun _ => trivial

/-- An operation that costs nothing. -/
theorem costs_call_free {op : Op} {k : Ans op → Prog Op Ans α} {n : ℕ} (hop : cost op = 0)
    (hk : ∀ x, ok op x → (k x).Costs cost ok n) : (call op k).Costs cost ok n := by
  rw [costs_call, hop]
  exact ⟨Nat.zero_le n, hk⟩

/-- A program that only issues operations without a cost. -/
theorem costs_of_keeps {C : Contract Ans} {Q : List (Entry Ans) → α → Prop} {h : List (Entry Ans)}
    {p : Prog Op Ans α} {n : ℕ} (hfree : ∀ h op, C.pre h op → cost op = 0)
    (hpost : ∀ h op x, ok op x → C.post h op x) (hp : p.Keeps C Q h) : p.Costs cost ok n := by
  induction p generalizing h with
  | ret a => trivial
  | call op k ih =>
    obtain ⟨hpre, hk⟩ := hp
    exact costs_call_free (hfree _ _ hpre) fun x hx => ih x (hk x (hpost _ _ _ hx))

end Prog

namespace System

/-- What the tasks that a schedule spawns may cost. -/
def spawned (budget : T → ℕ) (acts : List (Act T B)) : ℕ :=
  (acts.map fun a => match a with
    | .spawn t => budget t
    | _ => 0).sum

theorem spawned_mul (budget : T → ℕ) (p : ℕ) (acts : List (Act T B)) :
    spawned (fun t => budget t * p) acts = spawned budget acts * p := by
  induction acts with
  | nil => exact (Nat.zero_mul p).symm
  | cons a as ih =>
    unfold spawned at ih ⊢
    rw [List.map_cons, List.map_cons, List.sum_cons, List.sum_cons, ih, Nat.add_mul]
    cases a <;> simp

variable {S : System Ans α σ T B} {cost : Op → ℕ} {ok : (op : Op) → Ans op → Prop}

/-- Each thread has what is left of its budget. -/
def Funded (cost : Op → ℕ) (ok : (op : Op) → Ans op → Prop) (threads : List (Thread Ans α))
    (left : List ℕ) : Prop :=
  List.Forall₂ (fun t n => t.prog.Costs cost ok n) threads left

theorem Funded.snoc {threads : List (Thread Ans α)} {left : List ℕ} (hf : Funded cost ok threads left)
    {t : Thread Ans α} {n : ℕ} (ht : t.prog.Costs cost ok n) :
    Funded cost ok (threads ++ [t]) (left ++ [n]) :=
  List.rel_append hf (List.Forall₂.cons ht List.Forall₂.nil)

/-- A thread issues an operation and pays for it. -/
theorem Funded.pay {threads : List (Thread Ans α)} {left : List ℕ} (hf : Funded cost ok threads left)
    {i : ℕ} {h : List (Entry Ans)} {op : Op} {k : Ans op → Prog Op Ans α}
    (hi : threads[i]? = some ⟨h, .call op k⟩) {x : Ans op} (hx : ok op x) :
    ∃ left', Funded cost ok (threads.set i ⟨⟨op, x⟩ :: h, k x⟩) left' ∧
      left'.sum + cost op = left.sum := by
  induction hf generalizing i with
  | nil => cases hi
  | @cons t n threads left ht hrest ih =>
    cases i with
    | zero =>
      have hfirst : t = ⟨h, .call op k⟩ := Option.some.inj hi
      rw [hfirst] at ht
      obtain ⟨hle, hk⟩ := ht
      refine ⟨(n - cost op) :: left, List.Forall₂.cons (hk x hx) hrest, ?_⟩
      simp only [List.sum_cons]
      omega
    | succ i =>
      obtain ⟨left', hf', hsum⟩ := ih (i := i) (by simpa using hi)
      refine ⟨n :: left', List.Forall₂.cons ht hf', ?_⟩
      simp only [List.sum_cons]
      omega

variable {budget : T → ℕ}

/-- **Within the budget.** Where every task keeps within its own, whatever a run has spent was
there at the start, is left to a thread that was there, or was given to a task it has spawned. -/
theorem run_costs (spent : σ → ℕ) (hok : ∀ op w, ok op (S.exec op w).1)
    (hexec : ∀ op w, spent (S.exec op w).2 ≤ spent w + cost op)
    (hboot : ∀ b w, spent (S.boot b w) = spent w)
    (hprog : ∀ t, (S.prog t).Costs cost ok (budget t)) (acts : List (Act T B))
    {c : Config Ans α σ} {left : List ℕ} (hc : Funded cost ok c.threads left) :
    spent (S.run c acts).world ≤ spent c.world + left.sum + spawned budget acts := by
  induction acts generalizing c left with
  | nil => exact Nat.le_add_right _ _
  | cons a as ih =>
    have hcons : spawned budget (a :: as) = spawned budget [a] + spawned budget as := by
      simp [spawned]
    rw [hcons]
    change spent (S.run (S.step c a) as).world ≤ _
    cases a with
    | spawn t =>
      have hnext := ih (c := S.step c (.spawn t)) (hc.snoc (t := ⟨[], S.prog t⟩) (hprog t))
      have hone : spawned (B := B) budget [.spawn t] = budget t := by simp [spawned]
      have hworld : (S.step c (.spawn t)).world = c.world := rfl
      rw [hworld, List.sum_append, List.sum_singleton] at hnext
      omega
    | crash b =>
      have hnext := ih (c := S.step c (.crash b)) List.Forall₂.nil
      have hworld : spent (S.step c (.crash b)).world = spent c.world := hboot b c.world
      rw [hworld, List.sum_nil] at hnext
      omega
    | run i =>
      cases hi : c.threads[i]? with
      | none =>
        have hsame : S.step c (.run i) = c := by simp [step, hi]
        rw [hsame]
        have hnext := ih hc
        omega
      | some t =>
        obtain ⟨h, p⟩ := t
        cases p with
        | ret a =>
          have hsame : S.step c (.run i) = c := by simp [step, hi]
          rw [hsame]
          have hnext := ih hc
          omega
        | call op k =>
          obtain ⟨left', hf', hsum⟩ := hc.pay hi (hok op c.world)
          have hstep : S.step c (.run i) =
              { world := (S.exec op c.world).2
                threads := c.threads.set i
                  ⟨⟨op, (S.exec op c.world).1⟩ :: h, k (S.exec op c.world).1⟩ } := by
            simp [step, hi]
          rw [hstep]
          have hnext := ih (c := ⟨(S.exec op c.world).2, _⟩) hf'
          have hspent := hexec op c.world
          dsimp only at hnext ⊢
          omega

end System

end Interaction
