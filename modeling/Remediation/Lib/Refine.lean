import Mathlib.Logic.Relation
import Remediation.Lib.Pool

/-!
# Refinement of an abstract transition relation

A system refines a relation `R` along an abstraction `abs` of its shared state when every act
leaves the abstraction as it is or takes it one step of `R` further. The acts are looked at where
an invariant `I` holds (`Refines`). Every run then is a path of `R` (`Refines.run`).

`refines_of_exec` reduces this to the single operations that a contract permits.
-/

namespace Interaction

open Relation

variable {Op : Type} {Ans : Op → Type} {α σ T B P : Type}

namespace System

/-- Where `I` holds, every act is at most one step of `R`, and `I` holds after it. -/
structure Refines (S : System Ans α σ T B) (abs : σ → P) (R : P → P → Prop)
    (I : Config Ans α σ → Prop) : Prop where
  keeps : ∀ c a, I c → I (S.step c a)
  steps : ∀ c a, I c → ReflGen R (abs c.world) (abs (S.step c a).world)

variable {S : System Ans α σ T B} {abs : σ → P} {R : P → P → Prop} {I : Config Ans α σ → Prop}

theorem Refines.run_keeps (h : S.Refines abs R I) (acts : List (Act T B)) {c : Config Ans α σ}
    (hI : I c) : I (S.run c acts) := by
  induction acts generalizing c with
  | nil => exact hI
  | cons a as ih => exact ih (h.keeps c a hI)

/-- **Every run is a path of the abstract relation.** -/
theorem Refines.run (h : S.Refines abs R I) (acts : List (Act T B)) {c : Config Ans α σ}
    (hI : I c) : ReflTransGen R (abs c.world) (abs (S.run c acts).world) := by
  induction acts generalizing c with
  | nil => exact ReflTransGen.refl
  | cons a as ih =>
    have hfirst := (h.steps c a hI).to_reflTransGen
    exact hfirst.trans (ih (h.keeps c a hI))

variable {C : Prog.Contract Ans} {Q : List (Entry Ans) → α → Prop}

/-- **Refinement, operation by operation.** The invariant is one over the shared state and the
histories of threads that keep a contract. -/
theorem refines_of_exec (J : σ → List (List (Entry Ans)) → Prop)
    (hprog : ∀ t, (S.prog t).Keeps C Q [])
    (hspawn : ∀ w hs, J w hs → J w (hs ++ [[]]))
    (hcrash : ∀ w hs b, J w hs → J (S.boot b w) [])
    (hpost : ∀ w hs h op, J w hs → h ∈ hs → C.pre h op → C.post h op (S.exec op w).1)
    (hstep : ∀ w hs i h op, J w hs → hs[i]? = some h → C.pre h op →
      J (S.exec op w).2 (hs.set i (⟨op, (S.exec op w).1⟩ :: h)))
    (habs : ∀ w hs h op, J w hs → h ∈ hs → C.pre h op → ReflGen R (abs w) (abs (S.exec op w).2))
    (hboot : ∀ w hs b, J w hs → abs (S.boot b w) = abs w) :
    S.Refines abs R fun c => J c.world c.hists ∧ KeepsAll C Q c where
  keeps c a hI :=
    step_inv (R := fun _ _ _ _ => True) J hprog hspawn hpost
      (fun w hs i h op hJ hi hpre _ => hstep w hs i h op hJ hi hpre) a
      (fun b _ => hcrash _ _ b hI.1) hI.1 hI.2 fun _ _ => trivial
  steps c a hI := by
    cases a with
    | spawn t => exact ReflGen.refl
    | crash b =>
      exact (reflGen_iff _ _ _).2 (Or.inl (hboot _ _ b hI.1))
    | run i =>
      simp only [step]
      split
      · rename_i h op k hi
        have hm : (⟨h, .call op k⟩ : Thread Ans α) ∈ c.threads := List.mem_of_getElem? hi
        have hpre : C.pre h op := (hI.2 _ hm).1
        exact habs _ _ h op hI.1 (List.mem_map.2 ⟨_, hm, rfl⟩) hpre
      · exact ReflGen.refl

end System

end Interaction
