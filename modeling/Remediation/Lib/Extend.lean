import Remediation.Lib.Budget

/-!
# More operations

A program over a signature is one over any larger signature (`Prog.extend`). What its contract
says of its history, it says of the part of the history that the smaller signature knows (`known`).
-/

namespace Interaction

variable {Op X : Type} {Ans : Op → Type} {AnsX : X → Type} {α : Type}

/-- The answers of a signature, and of one that is added to it. -/
@[reducible] def Plus (Ans : Op → Type) (AnsX : X → Type) : Op ⊕ X → Type
  | .inl op => Ans op
  | .inr x => AnsX x

/-- The entry, if it is one of the smaller signature. -/
def Entry.known : Entry (Plus Ans AnsX) → Option (Entry Ans)
  | ⟨.inl op, a⟩ => some ⟨op, a⟩
  | ⟨.inr _, _⟩ => none

/-- The part of a history that the smaller signature knows. -/
def known (h : List (Entry (Plus Ans AnsX))) : List (Entry Ans) := h.filterMap Entry.known

@[simp] theorem known_nil : known ([] : List (Entry (Plus Ans AnsX))) = [] := rfl

@[simp] theorem known_inl (op : Op) (a : Ans op) (h : List (Entry (Plus Ans AnsX))) :
    known (⟨.inl op, a⟩ :: h) = ⟨op, a⟩ :: known h := rfl

@[simp] theorem known_inr (x : X) (a : AnsX x) (h : List (Entry (Plus Ans AnsX))) :
    known (⟨.inr x, a⟩ :: h) = known h := rfl

namespace Prog

/-- The contract of the smaller signature, where an added operation is permitted if `D` allows it. -/
def Contract.extend (C : Contract Ans) (D : X → Prop) : Contract (Plus Ans AnsX) where
  pre
    | h, .inl op => C.pre (known h) op
    | _, .inr x => D x
  post
    | h, .inl op, a => C.post (known h) op a
    | _, .inr _, _ => True

/-- The same program over the larger signature. -/
def extend (AnsX : X → Type) : Prog Op Ans α → Prog (Op ⊕ X) (Plus Ans AnsX) α
  | ret a => ret a
  | call op k => call (.inl op) fun x => (k x).extend AnsX

/-- It keeps its contract there as well. -/
theorem Keeps.extend {C : Contract Ans} {D : X → Prop} {Q : List (Entry Ans) → α → Prop}
    {p : Prog Op Ans α} {h : List (Entry (Plus Ans AnsX))} (hp : p.Keeps C Q (known h)) :
    (p.extend AnsX).Keeps (C.extend D) (fun h a => Q (known h) a) h := by
  induction p generalizing h with
  | ret a => exact hp
  | call op k ih =>
    obtain ⟨hpre, hk⟩ := hp
    refine ⟨hpre, ?_⟩
    intro x hx
    exact ih x (hk x hx)

/-- Where only the added operations have a cost, it costs nothing. -/
theorem costs_extend {cost : Op ⊕ X → ℕ} {ok : (op : Op ⊕ X) → Plus Ans AnsX op → Prop}
    (hfree : ∀ op, cost (.inl op) = 0) (p : Prog Op Ans α) (n : ℕ) :
    (p.extend AnsX).Costs cost ok n := by
  induction p with
  | ret a => trivial
  | call op k ih => exact costs_call_free (hfree op) fun x _ => ih x

end Prog

end Interaction
