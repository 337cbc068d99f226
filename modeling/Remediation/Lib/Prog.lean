import Mathlib.Logic.Basic
import Mathlib.Tactic.Common

/-!
# Programs that call out

A program over a signature of operations either returns, or issues one operation
and goes on with the answer. The same program text is given three readings:

* `eval`: run it to completion against a state that answers every operation;
* `Keeps`: what it issues, whatever the answers are (a contract over histories);
* `Along`: what holds at each operation of one particular evaluation.

`eval_inv` ties the three together: a program that keeps a contract preserves any
invariant that each permitted operation preserves. `killedAfter` is a fourth reading:
the state left behind by a process that dies on the way.
-/

namespace Interaction

variable {Op : Type} {Ans : Op → Type} {α β γ σ : Type}

/-- A program over operations `Op`, the answer to `op` being an `Ans op`. -/
inductive Prog (Op : Type) (Ans : Op → Type) (α : Type) : Type
  | ret (a : α) : Prog Op Ans α
  | call (op : Op) (k : Ans op → Prog Op Ans α) : Prog Op Ans α

/-- An operation with the answer it got. A history lists entries newest first. -/
abbrev Entry (Ans : Op → Type) : Type := (op : Op) × Ans op

namespace Prog

def bind : Prog Op Ans α → (α → Prog Op Ans β) → Prog Op Ans β
  | ret a, f => f a
  | call op k, f => call op fun x => (k x).bind f

instance : Monad (Prog Op Ans) where
  pure := ret
  bind := bind

@[simp] theorem pure_eq (a : α) : (pure a : Prog Op Ans α) = ret a := rfl

@[simp] theorem bind_eq (p : Prog Op Ans α) (f : α → Prog Op Ans β) : (p >>= f) = p.bind f := rfl

@[simp] theorem ret_bind (a : α) (f : α → Prog Op Ans β) : (ret a).bind f = f a := rfl

@[simp] theorem call_bind (op : Op) (k : Ans op → Prog Op Ans α) (f : α → Prog Op Ans β) :
    (call op k).bind f = call op fun x => (k x).bind f := rfl

theorem bind_assoc (p : Prog Op Ans α) (f : α → Prog Op Ans β) (g : β → Prog Op Ans γ) :
    (p.bind f).bind g = p.bind fun a => (f a).bind g := by
  induction p with
  | ret a => rfl
  | call op k ih => simp only [call_bind]; congr 1; funext x; exact ih x

/-! ## Running to completion -/

/-- Run a program alone, every operation answered by `exec`. -/
def eval (exec : (op : Op) → σ → Ans op × σ) : Prog Op Ans α → σ → α × σ
  | ret a, s => (a, s)
  | call op k, s => (k (exec op s).1).eval exec (exec op s).2

variable {exec : (op : Op) → σ → Ans op × σ}

@[simp] theorem eval_ret (a : α) (s : σ) : (ret a : Prog Op Ans α).eval exec s = (a, s) := rfl

@[simp] theorem eval_call (op : Op) (k : Ans op → Prog Op Ans α) (s : σ) :
    (call op k).eval exec s = (k (exec op s).1).eval exec (exec op s).2 := rfl

theorem eval_bind (p : Prog Op Ans α) (f : α → Prog Op Ans β) (s : σ) :
    (p.bind f).eval exec s = (f (p.eval exec s).1).eval exec (p.eval exec s).2 := by
  induction p generalizing s with
  | ret a => rfl
  | call op k ih => simp only [call_bind, eval_call]; exact ih _ _

/-! ## Contracts -/

/-- What a program guarantees of each operation it issues, and what it may take
for granted of the answers, both seen from its own history. -/
structure Contract (Ans : Op → Type) where
  pre : List (Entry Ans) → Op → Prop
  post : List (Entry Ans) → (op : Op) → Ans op → Prop

/-- **The program keeps the contract** from history `h` on, and every way it can
return satisfies `Q`. -/
def Keeps (C : Contract Ans) (Q : List (Entry Ans) → α → Prop) :
    Prog Op Ans α → List (Entry Ans) → Prop
  | ret a, h => Q h a
  | call op k, h => C.pre h op ∧ ∀ x, C.post h op x → (k x).Keeps C Q (⟨op, x⟩ :: h)

variable {C : Contract Ans} {Q Q' : List (Entry Ans) → α → Prop} {h : List (Entry Ans)}

@[simp] theorem keeps_ret (a : α) : (ret a : Prog Op Ans α).Keeps C Q h ↔ Q h a := Iff.rfl

@[simp] theorem keeps_call (op : Op) (k : Ans op → Prog Op Ans α) :
    (call op k).Keeps C Q h ↔
      C.pre h op ∧ ∀ x, C.post h op x → (k x).Keeps C Q (⟨op, x⟩ :: h) := Iff.rfl

theorem keeps_mono (p : Prog Op Ans α) (hQ : ∀ h a, Q h a → Q' h a) (hp : p.Keeps C Q h) :
    p.Keeps C Q' h := by
  induction p generalizing h with
  | ret a => exact hQ h a hp
  | call op k ih => exact ⟨hp.1, fun x hx => ih x (hp.2 x hx)⟩

/-- A program that keeps a contract keeps one that allows more and assumes no more. -/
theorem Keeps.weaken {C' : Contract Ans} {p : Prog Op Ans α} (hpre : ∀ h op, C.pre h op → C'.pre h op)
    (hpost : ∀ h op a, C'.post h op a → C.post h op a) (hp : p.Keeps C Q h) : p.Keeps C' Q h := by
  induction p generalizing h with
  | ret a => exact hp
  | call op k ih => exact ⟨hpre _ _ hp.1, fun x hx => ih x (hp.2 x (hpost _ _ _ hx))⟩

/-- The same where something holds of the history that stays true of a longer one, and so holds
at the end. -/
theorem Keeps.weaken_given {C' : Contract Ans} {p : Prog Op Ans α} {I : List (Entry Ans) → Prop}
    (hI : ∀ h e, I h → I (e :: h)) (hpre : ∀ h op, I h → C.pre h op → C'.pre h op)
    (hpost : ∀ h op a, C'.post h op a → C.post h op a) (hp : p.Keeps C Q h) (h0 : I h) :
    p.Keeps C' (fun h a => Q h a ∧ I h) h := by
  induction p generalizing h with
  | ret a => exact ⟨hp, h0⟩
  | call op k ih =>
    exact ⟨hpre _ _ h0 hp.1, fun x hx => ih x (hp.2 x (hpost _ _ _ hx)) (hI _ _ h0)⟩

/-- Both contracts at once. -/
def Contract.and (C C' : Contract Ans) : Contract Ans where
  pre h op := C.pre h op ∧ C'.pre h op
  post h op a := C.post h op a ∧ C'.post h op a

theorem Keeps.and {C' : Contract Ans} {p : Prog Op Ans α} (hp : p.Keeps C Q h)
    (hp' : p.Keeps C' Q' h) : p.Keeps (C.and C') (fun h a => Q h a ∧ Q' h a) h := by
  induction p generalizing h with
  | ret a => exact ⟨hp, hp'⟩
  | call op k ih => exact ⟨⟨hp.1, hp'.1⟩, fun x hx => ih x (hp.2 x hx.1) (hp'.2 x hx.2)⟩

/-- **Sequencing.** A composite keeps the contract when its first part does, ending
wherever the second part may start. -/
theorem keeps_bind {P : List (Entry Ans) → β → Prop} (p : Prog Op Ans α) (f : α → Prog Op Ans β) :
    (p.bind f).Keeps C P h ↔ p.Keeps C (fun h a => (f a).Keeps C P h) h := by
  induction p generalizing h with
  | ret a => exact Iff.rfl
  | call op k ih =>
    simp only [call_bind, keeps_call]
    exact and_congr_right fun _ => forall_congr' fun x => imp_congr_right fun _ => ih x

theorem Keeps.bind {P : List (Entry Ans) → β → Prop} {p : Prog Op Ans α} {f : α → Prog Op Ans β}
    (hp : p.Keeps C Q h) (hf : ∀ h a, Q h a → (f a).Keeps C P h) : (p.bind f).Keeps C P h :=
  (keeps_bind p f).2 (keeps_mono p hf hp)

/-! ## One evaluation, operation by operation -/

/-- Every operation of the evaluation of a program from state `s` and history `h`
satisfies `R` (history, state before, operation, answer). -/
def Along (exec : (op : Op) → σ → Ans op × σ)
    (R : List (Entry Ans) → σ → (op : Op) → Ans op → Prop) :
    Prog Op Ans α → List (Entry Ans) → σ → Prop
  | ret _, _, _ => True
  | call op k, h, s => R h s op (exec op s).1 ∧
      (k (exec op s).1).Along exec R (⟨op, (exec op s).1⟩ :: h) (exec op s).2

section Decidable

variable {R : List (Entry Ans) → σ → (op : Op) → Ans op → Prop} [∀ h s op a, Decidable (R h s op a)]

instance decidableAlong : (p : Prog Op Ans α) → (h : List (Entry Ans)) → (s : σ) →
    Decidable (p.Along exec R h s)
  | ret _, _, _ => .isTrue trivial
  | call op k, h, s =>
    @instDecidableAnd _ _ (inferInstanceAs (Decidable (R h s op (exec op s).1)))
      (decidableAlong (k (exec op s).1) (⟨op, (exec op s).1⟩ :: h) (exec op s).2)

end Decidable

/-- The trivial side condition holds along every evaluation. -/
theorem along_true (p : Prog Op Ans α) (s : σ) :
    p.Along exec (fun _ _ _ _ => True) h s := by
  induction p generalizing h s with
  | ret a => trivial
  | call op k ih => exact ⟨trivial, ih _ _⟩

theorem Along.and {R R' : List (Entry Ans) → σ → (op : Op) → Ans op → Prop}
    {p : Prog Op Ans α} {s : σ} (hR : p.Along exec R h s) (hR' : p.Along exec R' h s) :
    p.Along exec (fun h s op a => R h s op a ∧ R' h s op a) h s := by
  induction p generalizing h s with
  | ret a => trivial
  | call op k ih => exact ⟨⟨hR.1, hR'.1⟩, ih _ hR.2 hR'.2⟩

theorem Along.mono {R R' : List (Entry Ans) → σ → (op : Op) → Ans op → Prop}
    (hRR' : ∀ h s op a, R h s op a → R' h s op a) {p : Prog Op Ans α} {s : σ}
    (hR : p.Along exec R h s) : p.Along exec R' h s := by
  induction p generalizing h s with
  | ret a => trivial
  | call op k ih => exact ⟨hRR' _ _ _ _ hR.1, ih _ hR.2⟩

section Next

variable {P : σ → Prop} {p : Prog Op Ans α} {s : σ}

/-- What holds before every operation and at the end holds at the start. -/
theorem Along.first (hp : p.Along exec (fun _ s _ _ => P s) h s) (hend : P (p.eval exec s).2) :
    P s := by
  cases p with
  | ret a => exact hend
  | call op k => exact hp.1

/-- It holds after every operation as well. -/
theorem Along.next (hp : p.Along exec (fun _ s _ _ => P s) h s) (hend : P (p.eval exec s).2) :
    p.Along exec (fun _ s op _ => P (exec op s).2) h s := by
  induction p generalizing h s with
  | ret a => trivial
  | call op k ih => exact ⟨hp.2.first hend, ih _ hp.2 hend⟩

end Next

/-- A condition that does not look at the history. -/
theorem along_any {R : σ → (op : Op) → Ans op → Prop} (p : Prog Op Ans α)
    {h h' : List (Entry Ans)} {s : σ} (hp : p.Along exec (fun _ => R) h s) :
    p.Along exec (fun _ => R) h' s := by
  induction p generalizing h h' s with
  | ret a => trivial
  | call op k ih => exact ⟨hp.1, ih _ hp.2⟩

/-- **Sequencing** for such a condition. -/
theorem along_bind {R : σ → (op : Op) → Ans op → Prop} (p : Prog Op Ans α) (f : α → Prog Op Ans β)
    (h h' : List (Entry Ans)) (s : σ) :
    (p.bind f).Along exec (fun _ => R) h s ↔ p.Along exec (fun _ => R) h s ∧
      (f (p.eval exec s).1).Along exec (fun _ => R) h' (p.eval exec s).2 := by
  induction p generalizing h s with
  | ret a => exact ⟨fun hf => ⟨trivial, along_any _ hf⟩, fun hf => along_any _ hf.2⟩
  | call op k ih =>
    rw [call_bind, eval_call]
    constructor
    · rintro ⟨hop, hrest⟩
      obtain ⟨hk, hf⟩ := (ih _ _ _).1 hrest
      exact ⟨⟨hop, hk⟩, hf⟩
    · rintro ⟨⟨hop, hk⟩, hf⟩
      exact ⟨hop, (ih _ _ _).2 ⟨hk, hf⟩⟩

/-- **Invariant rule.** If the program keeps a contract whose assumptions the state
honours, and every permitted operation preserves `J`, then `J` holds at the end. -/
theorem eval_inv {R : List (Entry Ans) → σ → (op : Op) → Ans op → Prop}
    {J : List (Entry Ans) → σ → Prop}
    (hpost : ∀ h s op, J h s → C.pre h op → C.post h op (exec op s).1)
    (hstep : ∀ h s op, J h s → C.pre h op → R h s op (exec op s).1 →
      J (⟨op, (exec op s).1⟩ :: h) (exec op s).2)
    (p : Prog Op Ans α) {s : σ} (hp : p.Keeps C Q h) (hJ : J h s) (hR : p.Along exec R h s) :
    ∃ h', J h' (p.eval exec s).2 ∧ Q h' (p.eval exec s).1 := by
  induction p generalizing h s with
  | ret a => exact ⟨h, hJ, hp⟩
  | call op k ih =>
    obtain ⟨hpre, hk⟩ := hp
    -- the answer is one that the contract allows, so the rest keeps it as well
    have hrest := hk _ (hpost _ _ _ hJ hpre)
    have hJ' := hstep _ _ _ hJ hpre hR.1
    exact ih _ hrest hJ' hR.2

/-- The invariant holds before each operation as well. -/
theorem along_inv {R : List (Entry Ans) → σ → (op : Op) → Ans op → Prop}
    {J : List (Entry Ans) → σ → Prop}
    (hpost : ∀ h s op, J h s → C.pre h op → C.post h op (exec op s).1)
    (hstep : ∀ h s op, J h s → C.pre h op → R h s op (exec op s).1 →
      J (⟨op, (exec op s).1⟩ :: h) (exec op s).2)
    (p : Prog Op Ans α) {s : σ} (hp : p.Keeps C Q h) (hJ : J h s) (hR : p.Along exec R h s) :
    p.Along exec (fun h s _ _ => J h s) h s := by
  induction p generalizing h s with
  | ret a => trivial
  | call op k ih =>
    obtain ⟨hpre, hk⟩ := hp
    have hrest := hk _ (hpost _ _ _ hJ hpre)
    have hJ' := hstep _ _ _ hJ hpre hR.1
    exact ⟨hJ, ih _ hrest hJ' hR.2⟩

/-- **Exactness rule.** Let `A` hold throughout. If moreover the first operation that breaks
`R` leads to a state in `K`, and no permitted operation leads out of `K` again, then an
evaluation that does not satisfy `R` throughout ends in `K`. -/
theorem eval_inv_break {A R : List (Entry Ans) → σ → (op : Op) → Ans op → Prop}
    {J K : List (Entry Ans) → σ → Prop}
    (hpost : ∀ h s op, C.pre h op → C.post h op (exec op s).1)
    (hstep : ∀ h s op, J h s → C.pre h op → A h s op (exec op s).1 → R h s op (exec op s).1 →
      J (⟨op, (exec op s).1⟩ :: h) (exec op s).2)
    (hbreak : ∀ h s op, J h s → C.pre h op → A h s op (exec op s).1 → ¬R h s op (exec op s).1 →
      K (⟨op, (exec op s).1⟩ :: h) (exec op s).2)
    (hkeep : ∀ h s op, K h s → C.pre h op → A h s op (exec op s).1 →
      K (⟨op, (exec op s).1⟩ :: h) (exec op s).2)
    (p : Prog Op Ans α) {s : σ} (hp : p.Keeps C Q h) (hJ : J h s) (hA : p.Along exec A h s)
    (hR : ¬p.Along exec R h s) :
    ∃ h', K h' (p.eval exec s).2 ∧ Q h' (p.eval exec s).1 := by
  induction p generalizing h s with
  | ret a => exact absurd trivial hR
  | call op k ih =>
    obtain ⟨hpre, hk⟩ := hp
    have hk' := hk _ (hpost _ s _ hpre)
    by_cases hr : R h s op (exec op s).1
    · exact ih _ hk' (hstep _ _ _ hJ hpre hA.1 hr) hA.2 fun hrest => hR ⟨hr, hrest⟩
    · -- from here on only `K` matters, whatever the rest does
      exact eval_inv (R := A) (fun h s op _ => hpost h s op) hkeep (k (exec op s).1) hk'
        (hbreak _ _ _ hJ hpre hA.1 hr) hA.2

/-! ## Dying on the way -/

/-- The state left behind by a process that dies after at most `n` operations. -/
def killedAfter (exec : (op : Op) → σ → Ans op × σ) : ℕ → Prog Op Ans α → σ → σ
  | 0, _, s => s
  | _ + 1, ret _, s => s
  | n + 1, call op k, s => killedAfter exec n (k (exec op s).1) (exec op s).2

section Killed

variable {J : σ → Prop} {s : σ}

theorem killedAfter_ret_iff (a : α) :
    (∀ n, J ((ret a : Prog Op Ans α).killedAfter exec n s)) ↔ J s := by
  constructor
  · intro hJ
    exact hJ 0
  · rintro hJ (_ | n) <;> exact hJ

theorem killedAfter_call_iff (op : Op) (k : Ans op → Prog Op Ans α) :
    (∀ n, J ((call op k).killedAfter exec n s)) ↔
      J s ∧ ∀ n, J ((k (exec op s).1).killedAfter exec n (exec op s).2) := by
  constructor
  · intro hJ
    exact ⟨hJ 0, fun n => hJ (n + 1)⟩
  · rintro ⟨hJ, hk⟩ (_ | n)
    · exact hJ
    · exact hk n

/-- **Sequencing.** A composite dies in its first part, or in its second part. -/
theorem killedAfter_bind_iff (p : Prog Op Ans α) (f : α → Prog Op Ans β) :
    (∀ n, J ((p.bind f).killedAfter exec n s)) ↔ (∀ n, J (p.killedAfter exec n s)) ∧
      ∀ n, J ((f (p.eval exec s).1).killedAfter exec n (p.eval exec s).2) := by
  induction p generalizing s with
  | ret a =>
    rw [killedAfter_ret_iff, ret_bind, eval_ret]
    exact ⟨fun hJ => ⟨hJ 0, hJ⟩, fun hJ => hJ.2⟩
  | call op k ih => rw [call_bind, killedAfter_call_iff, killedAfter_call_iff, eval_call, ih, and_assoc]

/-- A process may also die right after its last operation. -/
theorem eval_of_killedAfter (p : Prog Op Ans α) (hJ : ∀ n, J (p.killedAfter exec n s)) :
    J (p.eval exec s).2 := by
  induction p generalizing s with
  | ret a => exact hJ 0
  | call op k ih => exact ih _ ((killedAfter_call_iff op k).1 hJ).2

end Killed

/-! ## Programs that may fail -/

section Fallible

variable {ε : Type} {p : ExceptT ε (Prog Op Ans) α} {f : α → ExceptT ε (Prog Op Ans) β} {s s' : σ}

theorem eval_bind_ok {a : α} (hp : p.run.eval exec s = (.ok a, s')) :
    (p >>= f).run.eval exec s = (f a).run.eval exec s' := by
  refine (eval_bind p.run _ s).trans ?_
  rw [hp]
  rfl

/-- Nothing is done after a failure. -/
theorem eval_bind_error {e : ε} (hp : p.run.eval exec s = (.error e, s')) :
    (p >>= f).run.eval exec s = (.error e, s') := by
  refine (eval_bind p.run _ s).trans ?_
  rw [hp]
  rfl

theorem killedAfter_bind_ok_iff {J : σ → Prop} {a : α} (hp : p.run.eval exec s = (.ok a, s')) :
    (∀ n, J ((p >>= f).run.killedAfter exec n s)) ↔ (∀ n, J (p.run.killedAfter exec n s)) ∧
      ∀ n, J ((f a).run.killedAfter exec n s') := by
  refine (killedAfter_bind_iff p.run _).trans ?_
  rw [hp]
  rfl

theorem killedAfter_bind_error_iff {J : σ → Prop} {e : ε}
    (hp : p.run.eval exec s = (.error e, s')) :
    (∀ n, J ((p >>= f).run.killedAfter exec n s)) ↔ ∀ n, J (p.run.killedAfter exec n s) := by
  refine (killedAfter_bind_iff p.run _).trans ?_
  rw [hp]
  exact ⟨fun hJ => hJ.1, fun hJ => ⟨hJ, (killedAfter_ret_iff _).2 (hp ▸ eval_of_killedAfter _ hJ)⟩⟩

end Fallible

end Prog

end Interaction
