import Mathlib.Data.List.Basic
import Remediation.Lib.Prog

/-!
# Programs interleaved

A configuration is a shared state and a list of threads, each a program with the
history of what it has issued so far. An act spawns a task, lets one thread issue
its next operation, or crashes the process: every thread is lost and the state is
booted again.

`run_inv` is the invariant rule. An invariant over the shared state and the
histories of the threads survives every interleaving when it survives each
operation that the contract permits, every spawn and every crash.
-/

namespace Interaction

variable {Op : Type} {Ans : Op → Type} {α β σ T B : Type}

/-- What is found in a list after one entry has been replaced. -/
theorem getElem?_set_cases {l : List β} {i j : ℕ} {x y : β} (hj : (l.set i x)[j]? = some y) :
    (j = i ∧ y = x) ∨ (j ≠ i ∧ l[j]? = some y) := by
  rw [List.getElem?_set] at hj
  split at hj
  · rename_i hij
    split at hj
    · exact Or.inl ⟨hij.symm, (Option.some.inj hj).symm⟩
    · cases hj
  · rename_i hij
    exact Or.inr ⟨fun he => hij he.symm, hj⟩

/-- What is found after an entry has been added at the end. -/
theorem getElem?_snoc_cases {l : List β} {j : ℕ} {x y : β} (hj : (l ++ [x])[j]? = some y) :
    (j = l.length ∧ y = x) ∨ l[j]? = some y := by
  rw [List.getElem?_append] at hj
  split at hj
  · exact Or.inr hj
  · rename_i hlt
    obtain ⟨hlast, rfl⟩ := List.getElem?_eq_some_iff.1 hj
    rw [List.length_singleton] at hlast
    exact Or.inl ⟨by omega, List.getElem_singleton _⟩

structure Thread (Ans : Op → Type) (α : Type) where
  hist : List (Entry Ans)
  prog : Prog Op Ans α

/-- The thread has not returned. -/
def Thread.running (t : Thread Ans α) : Bool :=
  match t.prog with
  | .ret _ => false
  | .call _ _ => true

structure Config (Ans : Op → Type) (α σ : Type) where
  world : σ
  threads : List (Thread Ans α)

/-- What the scheduler may do next. -/
inductive Act (T B : Type)
  | spawn (t : T)
  | run (i : ℕ)
  | crash (b : B)

/-- How operations are answered, what each task runs, and how the state is booted. -/
structure System (Ans : Op → Type) (α σ T B : Type) where
  exec : (op : Op) → σ → Ans op × σ
  prog : T → Prog Op Ans α
  boot : B → σ → σ

namespace Config

def hists (c : Config Ans α σ) : List (List (Entry Ans)) := c.threads.map (·.hist)

end Config

namespace System

variable (S : System Ans α σ T B)

/-- One act. Running a thread that has returned, or that does not exist, does nothing. -/
def step (c : Config Ans α σ) : Act T B → Config Ans α σ
  | .spawn t => { c with threads := c.threads ++ [⟨[], S.prog t⟩] }
  | .run i =>
    match c.threads[i]? with
    | some ⟨h, .call op k⟩ =>
      { world := (S.exec op c.world).2,
        threads := c.threads.set i
          ⟨⟨op, (S.exec op c.world).1⟩ :: h, k (S.exec op c.world).1⟩ }
    | _ => c
  | .crash b => { world := S.boot b c.world, threads := [] }

def run (c : Config Ans α σ) (acts : List (Act T B)) : Config Ans α σ := acts.foldl S.step c

/-- The operation that an act performs, if it performs one, with the history before it. -/
def performs (c : Config Ans α σ) : Act T B → Option (List (Entry Ans) × Op)
  | .run i =>
    match c.threads[i]? with
    | some ⟨h, .call op _⟩ => some (h, op)
    | _ => none
  | _ => none

/-- `R` holds of the operation that an act performs, if it performs one. -/
def StepOK (R : List (Entry Ans) → σ → (op : Op) → Ans op → Prop) (c : Config Ans α σ)
    (a : Act T B) : Prop :=
  ∀ p ∈ performs c a, R p.1 c.world p.2 (S.exec p.2 c.world).1

/-- `P` holds of every act of a schedule, in the configuration that it meets. -/
def Throughout (P : Config Ans α σ → Act T B → Prop) (c : Config Ans α σ) (acts : List (Act T B)) :
    Prop :=
  ∀ before a, before ++ [a] <+: acts → P (S.run c before) a

/-- `R` holds of every operation performed along a schedule. -/
def RunOK (R : List (Entry Ans) → σ → (op : Op) → Ans op → Prop) :
    Config Ans α σ → List (Act T B) → Prop
  | _, [] => True
  | c, a :: as => S.StepOK R c a ∧ RunOK R (S.step c a) as

section Decidable

variable {R : List (Entry Ans) → σ → (op : Op) → Ans op → Prop} [∀ h w op a, Decidable (R h w op a)]

instance (c : Config Ans α σ) (a : Act T B) : Decidable (S.StepOK R c a) :=
  inferInstanceAs (Decidable (∀ p ∈ performs c a, R p.1 c.world p.2 (S.exec p.2 c.world).1))

instance decidableRunOK : (acts : List (Act T B)) → (c : Config Ans α σ) →
    Decidable (S.RunOK R c acts)
  | [], _ => .isTrue trivial
  | a :: as, c =>
    @instDecidableAnd _ _ (inferInstanceAs (Decidable (S.StepOK R c a)))
      (decidableRunOK as (S.step c a))

end Decidable

variable {S} {C : Prog.Contract Ans} {R : List (Entry Ans) → σ → (op : Op) → Ans op → Prop}
  {Q : List (Entry Ans) → α → Prop}

theorem runOK_true (c : Config Ans α σ) (acts : List (Act T B)) :
    S.RunOK (fun _ _ _ _ => True) c acts := by
  induction acts generalizing c with
  | nil => trivial
  | cons a as ih => exact ⟨fun _ _ => trivial, ih _⟩

theorem run_snoc (c : Config Ans α σ) (acts : List (Act T B)) (a : Act T B) :
    S.run c (acts ++ [a]) = S.step (S.run c acts) a := by
  simp [run]

/-- Where one entry of a list is replaced, every other one stays. -/
theorem mem_set_or_eq {l : List β} {i : ℕ} {x y : β} (hi : l[i]? = some x) (z : β)
    (hy : y ∈ l) : y = x ∨ y ∈ l.set i z := by
  obtain ⟨j, hj, rfl⟩ := List.mem_iff_getElem.1 hy
  by_cases hij : i = j
  · subst hij
    rw [List.getElem?_eq_getElem hj] at hi
    exact Or.inl (Option.some.inj hi)
  · exact Or.inr (List.mem_iff_getElem.2 ⟨j, by simpa using hj, List.getElem_set_ne hij _⟩)

theorem mem_set_self {l : List β} {i : ℕ} {x : β} (hi : l[i]? = some x) (z : β) :
    z ∈ l.set i z := by
  obtain ⟨hlt, -⟩ := List.getElem?_eq_some_iff.1 hi
  exact List.mem_iff_getElem.2 ⟨i, by simpa using hlt, by simp⟩

/-- The system in which only the tasks in `A` do anything. -/
def only (S : System Ans α σ T B) (A : T → Prop) [DecidablePred A] (a : α) : System Ans α σ T B :=
  { S with prog := fun t => if A t then S.prog t else .ret a }

/-- A run that spawns no other task is one of it. -/
theorem run_only (A : T → Prop) [DecidablePred A] (a : α) (acts : List (Act T B))
    (c : Config Ans α σ) (hacts : ∀ t, .spawn t ∈ acts → A t) : (S.only A a).run c acts = S.run c acts := by
  induction acts generalizing c with
  | nil => rfl
  | cons b as ih =>
    have hstep : (S.only A a).step c b = S.step c b := by
      cases b with
      | spawn t => simp only [step, only, if_pos (hacts t List.mem_cons_self)]
      | run i => rfl
      | crash b => rfl
    have hrest := ih (S.step c b) fun t ht => hacts t (List.mem_cons_of_mem _ ht)
    rw [run, List.foldl_cons, hstep]
    exact hrest

/-- **Invariant rule for a condition on acts**: what every act that meets its condition
preserves holds at the end. -/
theorem run_throughout {P : Config Ans α σ → Act T B → Prop} (I : Config Ans α σ → Prop)
    (hstep : ∀ c a, I c → P c a → I (S.step c a)) (acts : List (Act T B)) {c : Config Ans α σ}
    (hI : I c) (hP : S.Throughout P c acts) : I (S.run c acts) := by
  induction acts generalizing c with
  | nil => exact hI
  | cons a as ih =>
    have hrest : S.Throughout P (S.step c a) as := fun before b h =>
      hP (a :: before) b ((List.prefix_cons_inj a).2 h)
    exact ih (hstep c a hI (hP [] a ((List.prefix_cons_inj a).2 (List.nil_prefix)))) hrest

/-- **Invariant rule for the shared state**: what every operation and every boot preserves, no
matter which task issues it. -/
theorem world_inv (I : σ → Prop) (hexec : ∀ op w, I w → I (S.exec op w).2)
    (hboot : ∀ b w, I w → I (S.boot b w)) (acts : List (Act T B)) {c : Config Ans α σ}
    (hI : I c.world) : I (S.run c acts).world := by
  induction acts generalizing c with
  | nil => exact hI
  | cons a as ih =>
    refine ih ?_
    cases a with
    | spawn t => exact hI
    | crash b => exact hboot b _ hI
    | run i =>
      simp only [step]
      split
      · exact hexec _ _ hI
      · exact hI

/-- Every thread keeps the contract from where it stands, and so will end in `Q`. -/
def KeepsAll (C : Prog.Contract Ans) (Q : List (Entry Ans) → α → Prop) (c : Config Ans α σ) : Prop :=
  ∀ t ∈ c.threads, t.prog.Keeps C Q t.hist

/-- The invariant rule for a single act. -/
theorem step_inv (J : σ → List (List (Entry Ans)) → Prop)
    (hprog : ∀ t, (S.prog t).Keeps C Q [])
    (hspawn : ∀ w hs, J w hs → J w (hs ++ [[]]))
    (hpost : ∀ w hs h op, J w hs → h ∈ hs → C.pre h op → C.post h op (S.exec op w).1)
    (hstep : ∀ w hs i h op, J w hs → hs[i]? = some h → C.pre h op → R h w op (S.exec op w).1 →
      J (S.exec op w).2 (hs.set i (⟨op, (S.exec op w).1⟩ :: h)))
    {c : Config Ans α σ} (a : Act T B) (hcrash : ∀ b, a = .crash b → J (S.boot b c.world) [])
    (hJ : J c.world c.hists) (hK : KeepsAll C Q c) (hR : S.StepOK R c a) :
    J (S.step c a).world (S.step c a).hists ∧ KeepsAll C Q (S.step c a) := by
  cases a with
  | spawn t =>
    refine ⟨by simpa [step, Config.hists] using hspawn _ _ hJ, ?_⟩
    intro u hu
    simp only [step, List.mem_append, List.mem_singleton] at hu
    rcases hu with hu | rfl
    · exact hK u hu
    · exact hprog t
  | crash b => exact ⟨by simpa [step, Config.hists] using hcrash b rfl, by simp [step, KeepsAll]⟩
  | run i =>
    simp only [step]
    split
    · rename_i h op k hi
      have hR' : R h c.world op (S.exec op c.world).1 := hR (h, op) (by simp [performs, hi])
      have hm : (⟨h, .call op k⟩ : Thread Ans α) ∈ c.threads := List.mem_of_getElem? hi
      obtain ⟨hpre, hk⟩ := hK _ hm
      have hh : c.hists[i]? = some h := by simp [Config.hists, hi]
      refine ⟨?_, ?_⟩
      · simpa [Config.hists, List.map_set] using hstep _ _ i h op hJ hh hpre hR'
      · intro u hu
        rcases List.mem_or_eq_of_mem_set hu with hu | rfl
        · exact hK u hu
        · have hmem : h ∈ c.hists := List.mem_of_getElem? hh
          exact hk _ (hpost _ _ h op hJ hmem hpre)
    · -- a thread that has returned
      exact ⟨hJ, hK⟩

/-- **Invariant rule for interleavings.** -/
theorem run_inv (J : σ → List (List (Entry Ans)) → Prop)
    (hprog : ∀ t, (S.prog t).Keeps C Q [])
    (hspawn : ∀ w hs, J w hs → J w (hs ++ [[]]))
    (hcrash : ∀ w hs b, J w hs → J (S.boot b w) [])
    (hpost : ∀ w hs h op, J w hs → h ∈ hs → C.pre h op → C.post h op (S.exec op w).1)
    (hstep : ∀ w hs i h op, J w hs → hs[i]? = some h → C.pre h op → R h w op (S.exec op w).1 →
      J (S.exec op w).2 (hs.set i (⟨op, (S.exec op w).1⟩ :: h)))
    (acts : List (Act T B)) {c : Config Ans α σ} (hJ : J c.world c.hists) (hK : KeepsAll C Q c)
    (hR : S.RunOK R c acts) :
    J (S.run c acts).world (S.run c acts).hists ∧ KeepsAll C Q (S.run c acts) := by
  induction acts generalizing c with
  | nil => exact ⟨hJ, hK⟩
  | cons a as ih =>
    obtain ⟨h1, h2⟩ := step_inv J hprog hspawn hpost hstep a (fun b _ => hcrash _ _ b hJ) hJ hK hR.1
    exact ih h1 h2 hR.2

end System

end Interaction
