import Mathlib.Algebra.Order.BigOperators.Group.List
import Mathlib.Algebra.Order.Monoid.Defs
import Mathlib.Algebra.GroupWithZero.Nat
import Mathlib.Algebra.Order.Group.Nat
import Remediation.Lib.Pool

/-!
# Claim a key, then act on it once

The protocol behind at-most-once side effects: a party first claims a key in the
shared state, which at most one party can ever do, and only then acts on it.
An entry *wins* key `k` when it is a successful claim of `k`; an operation *acts*
on `k` when it performs the side effect for `k`.

A history is `isOpen` at `k` when it has won `k` and not acted on it since. If
programs act only on keys that are open in their own history (`ActsWhenOpen`),
then in every interleaving, with crashes, each key is acted on at most once, and
only after it was taken (`at_most_once`).
-/

namespace Interaction

variable {Op : Type} {Ans : Op → Type} {α σ T B K : Type} [DecidableEq K]

/-- Which entries win a key, which operations act on one, which keys are taken in a
state, and how often each has been acted on. -/
structure ClaimProtocol (Ans : Op → Type) (σ K : Type) where
  wins : Entry Ans → Option K
  acts : Op → Option K
  taken : σ → K → Prop
  count : σ → K → ℕ

namespace ClaimProtocol

variable (P : ClaimProtocol Ans σ K)

/-- The history has won `k` and has not acted on it since. -/
def isOpen (k : K) : List (Entry Ans) → Bool
  | [] => false
  | e :: h => if P.wins e = some k then true
    else if P.acts e.1 = some k then false else isOpen k h

/-- How many of the threads have `k` open. -/
def openCount (k : K) (hs : List (List (Entry Ans))) : ℕ :=
  (hs.map fun h => (P.isOpen k h).toNat).sum

/-- The state keeps the books: a taken key stays taken, a key is won only while it
is not taken, and the counter counts exactly the acts. -/
structure Honest (exec : (op : Op) → σ → Ans op × σ) (boot : B → σ → σ) : Prop where
  stays : ∀ op w k, P.taken w k → P.taken (exec op w).2 k
  wins_free : ∀ op w k, P.wins ⟨op, (exec op w).1⟩ = some k → ¬ P.taken w k
  wins_takes : ∀ op w k, P.wins ⟨op, (exec op w).1⟩ = some k → P.taken (exec op w).2 k
  wins_idle : ∀ op w k, P.wins ⟨op, (exec op w).1⟩ = some k → P.acts op = none
  counts : ∀ op w k, P.count (exec op w).2 k = P.count w k + (decide (P.acts op = some k)).toNat
  boot_stays : ∀ b w k, P.taken w k → P.taken (boot b w) k
  boot_counts : ∀ b w k, P.count (boot b w) k = P.count w k

/-- What a party must keep to: it acts on a key only while that key is open to it. -/
def ActsWhenOpen (h : List (Entry Ans)) (op : Op) : Prop :=
  ∀ k, P.acts op = some k → P.isOpen k h = true

/-- **The books balance**: acts done and acts still permitted never exceed one per
key, and any of them means that the key is taken. -/
def Balanced (w : σ) (hs : List (List (Entry Ans))) : Prop :=
  ∀ k, P.count w k + P.openCount k hs ≤ 1 ∧ (0 < P.count w k + P.openCount k hs → P.taken w k)

variable {P}

theorem sum_map_set {β : Type} (f : β → ℕ) {l : List β} {i : ℕ} {a b : β} (hi : l[i]? = some a) :
    ((l.set i b).map f).sum + f a = (l.map f).sum + f b := by
  induction l generalizing i with
  | nil => simp at hi
  | cons x xs ih =>
    cases i with
    | zero => simp at hi; subst hi; simp; omega
    | succ i =>
      have := ih (i := i) (by simpa using hi)
      simp only [List.set_cons_succ, List.map_cons, List.sum_cons]
      omega

theorem openCount_set {k : K} {hs : List (List (Entry Ans))} {i : ℕ} {h : List (Entry Ans)}
    (h' : List (Entry Ans)) (hi : hs[i]? = some h) :
    P.openCount k (hs.set i h') + (P.isOpen k h).toNat =
      P.openCount k hs + (P.isOpen k h').toNat :=
  sum_map_set _ hi

/-- One permitted operation keeps the books balanced. -/
theorem balanced_step {exec : (op : Op) → σ → Ans op × σ} {boot : B → σ → σ}
    (hP : P.Honest exec boot) {w : σ} {hs : List (List (Entry Ans))} {i : ℕ}
    {h : List (Entry Ans)} {op : Op} (hb : P.Balanced w hs) (hi : hs[i]? = some h)
    (hpre : P.ActsWhenOpen h op) :
    P.Balanced (exec op w).2 (hs.set i (⟨op, (exec op w).1⟩ :: h)) := by
  intro k
  obtain ⟨h1, h2⟩ := hb k
  have hset := openCount_set (P := P) (k := k) (⟨op, (exec op w).1⟩ :: h) hi
  have hcnt := hP.counts op w k
  by_cases hw : P.wins ⟨op, (exec op w).1⟩ = some k
  · -- the claim: nobody can have had `k` open before
    have hidle : P.acts op = none := hP.wins_idle op w k hw
    have hfree : ¬ 0 < P.count w k + P.openCount k hs := fun hpos => hP.wins_free op w k hw (h2 hpos)
    have hopen : P.isOpen k (⟨op, (exec op w).1⟩ :: h) = true := by simp [isOpen, hw]
    have hle := Bool.toNat_le (P.isOpen k h)
    rw [hopen] at hset
    simp only [hidle, reduceCtorEq, decide_false, Bool.toNat_false, Bool.toNat_true] at hcnt hset
    exact ⟨by omega, fun _ => hP.wins_takes op w k hw⟩
  by_cases ha : P.acts op = some k
  · -- the act: it uses up this thread's own permission
    have hold : P.isOpen k h = true := hpre k ha
    have hnew : P.isOpen k (⟨op, (exec op w).1⟩ :: h) = false := by simp [isOpen, hw, ha]
    rw [hold, hnew] at hset
    simp only [ha, decide_true, Bool.toNat_true, Bool.toNat_false] at hcnt hset
    exact ⟨by omega, fun hpos => hP.stays op w k (h2 (by omega))⟩
  · have hsame : P.isOpen k (⟨op, (exec op w).1⟩ :: h) = P.isOpen k h := by simp [isOpen, hw, ha]
    rw [hsame] at hset
    simp only [ha, decide_false, Bool.toNat_false] at hcnt
    exact ⟨by omega, fun hpos => hP.stays op w k (h2 (by omega))⟩

variable {S : System Ans α σ T B} {C : Prog.Contract Ans} {Q : List (Entry Ans) → α → Prop}

/-- **At most once.** In every interleaving of programs that act only on keys open to
them, from a state in which nothing has been acted on yet, every key is acted on at
most once, and a key that has been acted on, or is open to some thread, is taken. -/
theorem at_most_once (hP : P.Honest S.exec S.boot) (hC : ∀ h op, C.pre h op → P.ActsWhenOpen h op)
    (hpost : ∀ h op w, C.post h op (S.exec op w).1)
    (hprog : ∀ t, (S.prog t).Keeps C Q []) {w : σ}
    (h0 : ∀ k, P.count w k = 0) (acts : List (Act T B)) :
    P.Balanced (S.run ⟨w, []⟩ acts).world (S.run ⟨w, []⟩ acts).hists ∧
      System.KeepsAll C Q (S.run ⟨w, []⟩ acts) := by
  refine System.run_inv (R := fun _ _ _ _ => True) P.Balanced hprog ?_ ?_
    (fun w _ h op _ _ _ => hpost h op w)
    (fun _ _ _ _ _ hb hi hpre _ => balanced_step hP hb hi (hC _ _ hpre)) acts ?_
    (by simp [System.KeepsAll]) (System.runOK_true _ acts)
  · intro w hs hb k
    have : P.openCount k (hs ++ [[]]) = P.openCount k hs := by simp [openCount, isOpen]
    rw [this]; exact hb k
  · intro w hs b hb k
    have hz : P.openCount k [] = 0 := rfl
    obtain ⟨h1, h2⟩ := hb k
    rw [hP.boot_counts, hz]
    exact ⟨by omega, fun hpos => hP.boot_stays b w k (h2 (by omega))⟩
  · intro k
    have hz : P.openCount k (Config.hists (⟨w, []⟩ : Config Ans α σ)) = 0 := rfl
    simp only [h0, hz]
    exact ⟨by omega, fun hpos => absurd hpos (by omega)⟩

/-- A key that somebody else has taken: nobody acts on it, and it is open to nobody. -/
structure Untouched (P : ClaimProtocol Ans σ K) (k : K) (w : σ) (hs : List (List (Entry Ans))) :
    Prop where
  taken : P.taken w k
  count : P.count w k = 0
  closed : ∀ h ∈ hs, P.isOpen k h = false

theorem untouched_step {exec : (op : Op) → σ → Ans op × σ} {boot : B → σ → σ}
    (hP : P.Honest exec boot) {k : K} {w : σ} {hs : List (List (Entry Ans))} {i : ℕ}
    {h : List (Entry Ans)} {op : Op} (hu : P.Untouched k w hs) (hi : hs[i]? = some h)
    (hpre : P.ActsWhenOpen h op) :
    P.Untouched k (exec op w).2 (hs.set i (⟨op, (exec op w).1⟩ :: h)) := by
  obtain ⟨ht, hc, ho⟩ := hu
  have hclosed : P.isOpen k h = false := ho h (List.mem_of_getElem? hi)
  have hno : P.acts op ≠ some k := by
    intro ha
    have := hpre k ha
    rw [hclosed] at this
    cases this
  refine ⟨hP.stays op w k ht, by simp [hP.counts, hc, hno], ?_⟩
  intro h' hh'
  rcases List.mem_or_eq_of_mem_set hh' with hh' | rfl
  · exact ho h' hh'
  · have hw : P.wins ⟨op, (exec op w).1⟩ ≠ some k := fun hw => hP.wins_free op w k hw ht
    simp [isOpen, hw, hno, hclosed]

/-- **Never**: a key that is taken from the start is not acted on at all. -/
theorem never_of_taken (hP : P.Honest S.exec S.boot)
    (hC : ∀ h op, C.pre h op → P.ActsWhenOpen h op)
    (hpost : ∀ h op w, C.post h op (S.exec op w).1)
    (hprog : ∀ t, (S.prog t).Keeps C Q []) {w : σ} {k : K} (hk : P.taken w k)
    (h0 : P.count w k = 0) (acts : List (Act T B)) :
    P.Untouched k (S.run ⟨w, []⟩ acts).world (S.run ⟨w, []⟩ acts).hists := by
  refine (System.run_inv (R := fun _ _ _ _ => True) (P.Untouched k) hprog ?_ ?_
    (fun w _ h op _ _ _ => hpost h op w)
    (fun _ _ _ _ _ hu hi hpre _ => untouched_step hP hu hi (hC _ _ hpre)) acts
    ⟨hk, h0, by simp [Config.hists]⟩ (by simp [System.KeepsAll]) (System.runOK_true _ acts)).1
  · rintro w hs ⟨ht, hc, ho⟩
    refine ⟨ht, hc, fun h hh => ?_⟩
    -- a new thread has won nothing
    rcases List.mem_append.1 hh with hh | hh
    · exact ho h hh
    · rw [List.mem_singleton.1 hh]
      rfl
  · rintro w hs b ⟨ht, hc, -⟩
    exact ⟨hP.boot_stays b w k ht, (hP.boot_counts b w k).trans hc, by simp⟩

/-- A thread that is about to act on a key has a taken key. -/
theorem taken_of_about_to_act {c : Config Ans α σ} (hC : ∀ h op, C.pre h op → P.ActsWhenOpen h op)
    (hb : P.Balanced c.world c.hists) (hK : System.KeepsAll C Q c) {t : Thread Ans α}
    (ht : t ∈ c.threads) {op : Op} {next : Ans op → Prog Op Ans α} (hp : t.prog = .call op next)
    {k : K} (hk : P.acts op = some k) : P.taken c.world k := by
  have hpre := hK t ht
  rw [hp] at hpre
  have hopen : P.isOpen k t.hist = true := hC _ _ hpre.1 k hk
  have hpos : 0 < P.openCount k c.hists := by
    have hm : (P.isOpen k t.hist).toNat ∈ c.hists.map fun h => (P.isOpen k h).toNat :=
      List.mem_map.2 ⟨t.hist, List.mem_map.2 ⟨t, ht, rfl⟩, rfl⟩
    have := List.single_le_sum (fun _ _ => Nat.zero_le _) _ hm
    rw [hopen] at this
    exact this
  exact (hb k).2 (by omega)

end ClaimProtocol

end Interaction
