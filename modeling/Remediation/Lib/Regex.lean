import Mathlib.Data.List.Basic
import Mathlib.Tactic.Common

/-!
# Backtracking regular expressions

Patterns are sequences of items: single characters of a class, greedy and lazy
repetitions of a class, line anchors (`^` and `$` under `MULTILINE`) and group
brackets. `run` matches a pattern at one position, trying the alternatives of each
repetition in the order of a backtracking engine; `finditer` collects the matches
of a text from left to right, without overlaps.

The text to the left of a position matters only through its last character, so a
position is that character (none at the start of the text) and the text to its
right. Patterns are expected to consume at least one character.
-/

namespace Regex

inductive Item
  /-- one character of a class -/
  | chr (p : Char → Bool)
  /-- at least `min` characters of a class, as many as possible first if `greedy` -/
  | rep (p : Char → Bool) (min : ℕ) (greedy : Bool)
  /-- `^` -/
  | bol
  /-- `$` -/
  | eol
  /-- `(` -/
  | opn
  /-- `)` -/
  | cls

/-- The position is at the start of a line. -/
def atBol (prev : Option Char) : Bool := prev = none || prev = some '\n'

/-- The position is at the end of a line. -/
def atEol (s : List Char) : Bool := s.head? = none || s.head? = some '\n'

section Loops

variable {β : Type} (p : Char → Bool) (k : Option Char → List Char → Option β)

/-- Consume as many characters as possible, then give them back one by one. -/
def greedyLoop : ℕ → Option Char → List Char → Option β
  | 0, prev, [] => k prev []
  | 0, prev, c :: cs =>
    if p c then
      -- one more character first; if that leads nowhere, stop here after all
      match greedyLoop 0 (some c) cs with
      | some b => some b
      | none => k prev (c :: cs)
    else k prev (c :: cs)
  | _ + 1, _, [] => none
  | n + 1, _, c :: cs => if p c then greedyLoop n (some c) cs else none

/-- Consume as few characters as possible, then take one more at a time. -/
def lazyLoop : ℕ → Option Char → List Char → Option β
  | 0, prev, [] => k prev []
  | 0, prev, c :: cs =>
    match k prev (c :: cs) with
    | some b => some b
    | none => if p c then lazyLoop 0 (some c) cs else none
  | _ + 1, _, [] => none
  | n + 1, _, c :: cs => if p c then lazyLoop n (some c) cs else none

end Loops

/-- A match: the text of the groups in order of their closing, and the position after it. -/
structure Match where
  groups : List (List Char)
  rest : List Char

/-- Match a pattern at a position. `starts` holds the text from each open bracket on,
`groups` the texts of the closed ones, newest first. -/
def run : List Item → List (List Char) → List (List Char) → Option Char → List Char → Option Match
  | [], _, groups, _, s => some ⟨groups.reverse, s⟩
  | .chr _ :: _, _, _, _, [] => none
  | .chr p :: is, starts, groups, _, c :: cs =>
    if p c then run is starts groups (some c) cs else none
  | .rep p n true :: is, starts, groups, prev, s => greedyLoop p (run is starts groups) n prev s
  | .rep p n false :: is, starts, groups, prev, s => lazyLoop p (run is starts groups) n prev s
  | .bol :: is, starts, groups, prev, s =>
    if atBol prev then run is starts groups prev s else none
  | .eol :: is, starts, groups, prev, s =>
    if atEol s then run is starts groups prev s else none
  | .opn :: is, starts, groups, prev, s => run is (s :: starts) groups prev s
  | .cls :: _, [], _, _, _ => none
  | .cls :: is, t :: starts, groups, prev, s =>
    run is starts (t.take (t.length - s.length) :: groups) prev s

/-- The groups of all matches, left to right. The first argument counts the characters
that the match found last still covers. -/
def finditer (r : List Item) : ℕ → Option Char → List Char → List (List (List Char))
  | _, _, [] => []
  | n + 1, _, c :: cs => finditer r n (some c) cs
  | 0, prev, c :: cs =>
    match run r [] [] prev (c :: cs) with
    | some m => m.groups :: finditer r (cs.length - m.rest.length) (some c) cs
    | none => finditer r 0 (some c) cs

/-- The matches themselves, each with the text from its start on. -/
def spans (r : List Item) : ℕ → Option Char → List Char → List (List Char × Match)
  | _, _, [] => []
  | n + 1, _, c :: cs => spans r n (some c) cs
  | 0, prev, c :: cs =>
    match run r [] [] prev (c :: cs) with
    | some m => (c :: cs, m) :: spans r (cs.length - m.rest.length) (some c) cs
    | none => spans r 0 (some c) cs

/-- The groups of the leftmost match. -/
def search (r : List Item) (s : List Char) : Option (List (List Char)) :=
  (finditer r 0 none s).head?

/-! ## Literal text and repetitions that succeed -/

/-- A literal string as a pattern. -/
def lit (s : List Char) : List Item := s.map fun c => .chr (· == c)

/-- The character before the position reached by reading `l` from after `prev`. -/
def lastOf : Option Char → List Char → Option Char
  | prev, [] => prev
  | _, c :: cs => lastOf (some c) cs

@[simp] theorem lastOf_nil (prev : Option Char) : lastOf prev [] = prev := rfl

@[simp] theorem lastOf_cons (prev : Option Char) (c : Char) (cs : List Char) :
    lastOf prev (c :: cs) = lastOf (some c) cs := rfl

theorem lastOf_append (prev : Option Char) (l l' : List Char) :
    lastOf prev (l ++ l') = lastOf (lastOf prev l) l' := by
  induction l generalizing prev with
  | nil => rfl
  | cons c cs ih => exact ih _

theorem dropPrefix?_eq_some {l s t : List Char} : s.dropPrefix? l = some t ↔ s = l ++ t := by
  rw [List.dropPrefix?_eq_some_iff]
  constructor
  · rintro ⟨p, rfl, hp⟩
    rw [eq_of_beq hp]
  · rintro rfl
    exact ⟨l, rfl, beq_self_eq_true l⟩

/-- A literal matches where it is the start of the text. -/
theorem run_lit_eq (l : List Char) (r : List Item) (st gs : List (List Char)) (prev : Option Char)
    (s : List Char) : run (lit l ++ r) st gs prev s =
      (s.dropPrefix? l).bind fun t => run r st gs (lastOf prev l) t := by
  induction l generalizing prev s with
  | nil =>
    rw [List.dropPrefix?_nil]
    rfl
  | cons c l ih =>
    cases s with
    | nil => rfl
    | cons d s =>
      have hstep : run (lit (c :: l) ++ r) st gs prev (d :: s) =
          if d == c then run (lit l ++ r) st gs (some d) s else none := rfl
      rw [hstep, List.dropPrefix?, lastOf_cons]
      split
      · rename_i hd
        rw [ih, eq_of_beq hd]
      · rfl

/-- It does not match before a character of a class that its first one is not in. -/
theorem run_lit_none {p : Char → Bool} {c : Char} {l : List Char} {r : List Item}
    {st gs : List (List Char)} (hc : p c = false) (q : Option Char) (d : Char) (cs : List Char)
    (hd : p d = true) : run (lit (c :: l) ++ r) st gs q (d :: cs) = none := by
  have hne : (d == c) = false := by
    rw [beq_eq_false_iff_ne]
    rintro rfl
    rw [hc] at hd
    cases hd
  simp [lit, run, hne]

/-- The text of a group: what has been read since its bracket was opened. -/
theorem take_group (l s : List Char) : (l ++ s).take ((l ++ s).length - s.length) = l := by simp

variable {β : Type} {p : Char → Bool} {k : Option Char → List Char → Option β}

/-- A greedy repetition reads all of `l` if it can stop there, and cannot go on. -/
theorem greedyLoop_all {l s : List Char} {prev : Option Char} {b : β} (hl : l.all p = true)
    (hs : ∀ c, s.head? = some c → p c = false) (hk : k (lastOf prev l) s = some b) :
    greedyLoop p k 0 prev (l ++ s) = some b := by
  induction l generalizing prev with
  | nil =>
    cases s with
    | nil => exact hk
    | cons c cs => simpa [greedyLoop, hs c rfl] using hk
  | cons c cs ih =>
    rw [List.all_cons, Bool.and_eq_true] at hl
    have : greedyLoop p k 0 (some c) (cs ++ s) = some b := ih hl.2 (by simpa using hk)
    simp [greedyLoop, hl.1, this]

/-- So does one that has to read a character, where there is one. -/
theorem greedyLoop_one_all {l s : List Char} {prev : Option Char} {b : β} (hne : l ≠ [])
    (hl : l.all p = true) (hs : ∀ c, s.head? = some c → p c = false)
    (hk : k (lastOf prev l) s = some b) : greedyLoop p k 1 prev (l ++ s) = some b := by
  cases l with
  | nil => exact absurd rfl hne
  | cons c cs =>
    rw [List.all_cons, Bool.and_eq_true] at hl
    rw [List.cons_append, greedyLoop, if_pos hl.1]
    exact greedyLoop_all hl.2 hs hk

/-- A lazy repetition that fails to stop inside `l` reads all of it. -/
theorem lazyLoop_all {l s : List Char} {prev : Option Char} {b : β} (hl : l.all p = true)
    (hno : ∀ l₁ l₂, l = l₁ ++ l₂ → l₂ ≠ [] → k (lastOf prev l₁) (l₂ ++ s) = none)
    (hk : k (lastOf prev l) s = some b) : lazyLoop p k 0 prev (l ++ s) = some b := by
  induction l generalizing prev with
  | nil =>
    rw [lastOf_nil] at hk
    cases s with
    | nil => exact hk
    | cons d ds => simp [lazyLoop, hk]
  | cons c cs ih =>
    rw [List.all_cons, Bool.and_eq_true] at hl
    have h0 : k prev (c :: (cs ++ s)) = none := by simpa using hno [] (c :: cs) rfl (by simp)
    have h1 : lazyLoop p k 0 (some c) (cs ++ s) = some b :=
      ih hl.2 (fun l₁ l₂ h hne => by simpa using hno (c :: l₁) l₂ (by rw [h, List.cons_append]) hne)
        (by simpa using hk)
    simp [lazyLoop, h0, hl.1, h1]

/-- A greedy repetition that has to stop in `l`, and can stop nowhere there. -/
theorem greedyLoop_none {l s : List Char} {prev : Option Char} (hne : l ≠ [])
    (hlast : p (l.getLast hne) = false)
    (hk : ∀ prev' l₁ l₂, l = l₁ ++ l₂ → l₂ ≠ [] → k prev' (l₂ ++ s) = none) :
    greedyLoop p k 0 prev (l ++ s) = none := by
  induction l generalizing prev with
  | nil => exact absurd rfl hne
  | cons c cs ih =>
    have h0 : k prev (c :: (cs ++ s)) = none := hk prev [] (c :: cs) rfl hne
    rw [List.cons_append, greedyLoop]
    by_cases hp : p c = true
    · have hcs : cs ≠ [] := by
        rintro rfl
        rw [List.getLast_singleton, hp] at hlast
        cases hlast
      rw [if_pos hp, ih hcs (by rwa [List.getLast_cons hcs] at hlast) fun prev' l₁ l₂ h hne' =>
        hk prev' (c :: l₁) l₂ (by rw [h, List.cons_append]) hne']
      exact h0
    · rw [if_neg hp]
      exact h0

/-! ## The matches with their positions -/

variable {r : List Item}

theorem finditer_eq_spans (r : List Item) (n : ℕ) (prev : Option Char) (s : List Char) :
    finditer r n prev s = (spans r n prev s).map (·.2.groups) := by
  induction s generalizing n prev with
  | nil => cases n <;> rfl
  | cons c cs ih =>
    cases n with
    | zero =>
      rw [finditer, spans]
      split
      · rw [List.map_cons, ih]
      · exact ih _ _
    | succ n => exact ih _ _

theorem spans_skip (l s : List Char) (prev : Option Char) :
    spans r l.length prev (l ++ s) = spans r 0 (lastOf prev l) s := by
  induction l generalizing prev with
  | nil => rfl
  | cons c cs ih => rw [lastOf_cons, ← ih]; simp [spans]

/-- The search goes on where a match has ended. -/
theorem spans_match {l s : List Char} {prev : Option Char} {m : Match} (hl : l ≠ [])
    (h : run r [] [] prev (l ++ s) = some m) (hm : m.rest = s) :
    spans r 0 prev (l ++ s) = (l ++ s, m) :: spans r 0 (lastOf prev l) s := by
  cases l with
  | nil => exact absurd rfl hl
  | cons c cs =>
    have hlen : (cs ++ s).length - m.rest.length = cs.length := by rw [hm]; simp
    rw [List.cons_append] at h ⊢
    rw [spans, h]
    simp only [hlen]
    rw [spans_skip, lastOf_cons]

theorem spans_none {c : Char} {s : List Char} {prev : Option Char}
    (h : run r [] [] prev (c :: s) = none) : spans r 0 prev (c :: s) = spans r 0 (some c) s := by
  rw [spans, h]

theorem mem_spans {n : ℕ} {prev : Option Char} {s b : List Char} {m : Match}
    (h : (b, m) ∈ spans r n prev s) : ∃ a, s = a ++ b ∧ run r [] [] (lastOf prev a) b = some m := by
  induction s generalizing n prev with
  | nil => cases n <;> cases h
  | cons c cs ih =>
    have hlater : ∀ n', (b, m) ∈ spans r n' (some c) cs →
        ∃ a, c :: cs = a ++ b ∧ run r [] [] (lastOf prev a) b = some m := by
      intro n' h
      obtain ⟨a, rfl, hrun⟩ := ih h
      exact ⟨c :: a, rfl, hrun⟩
    cases n with
    | zero =>
      rw [spans] at h
      split at h
      · rename_i m' hm
        rcases List.mem_cons.1 h with he | h
        · cases he
          exact ⟨[], rfl, hm⟩
        · exact hlater _ h
      · exact hlater _ h
    | succ n => exact hlater n h

/-! ## Stepping `finditer` -/

/-- A match that covers exactly `c :: l` is reported, and the search goes on after it. -/
theorem finditer_match {c : Char} {l s : List Char} {prev : Option Char} {m : Match}
    (h : run r [] [] prev (c :: (l ++ s)) = some m) (hm : m.rest = s) :
    finditer r 0 prev (c :: (l ++ s)) = m.groups :: finditer r 0 (lastOf (some c) l) s := by
  rw [finditer_eq_spans, finditer_eq_spans, ← List.cons_append,
    spans_match (List.cons_ne_nil c l) h hm, List.map_cons, lastOf_cons]

theorem finditer_none {c : Char} {s : List Char} {prev : Option Char}
    (h : run r [] [] prev (c :: s) = none) :
    finditer r 0 prev (c :: s) = finditer r 0 (some c) s := by
  rw [finditer_eq_spans, finditer_eq_spans, spans_none h]

theorem head?_finditer {c : Char} {s : List Char} {prev : Option Char} {m : Match}
    (h : run r [] [] prev (c :: s) = some m) :
    (finditer r 0 prev (c :: s)).head? = some m.groups := by
  rw [finditer, h]
  rfl

/-- Characters that a literal does not start with are passed over. -/
theorem finditer_skip {c : Char} {l a s : List Char} {prev : Option Char} (ha : c ∉ a) :
    finditer (lit (c :: l) ++ r) 0 prev (a ++ s) =
      finditer (lit (c :: l) ++ r) 0 (lastOf prev a) s := by
  induction a generalizing prev with
  | nil => rfl
  | cons d a ih =>
    rw [List.mem_cons, not_or] at ha
    have hd : (d == c) = false := beq_eq_false_iff_ne.2 fun he => ha.1 he.symm
    rw [List.cons_append, finditer_none (by simp [lit, run, hd]), lastOf_cons, ih ha.2]

/-- After another character than a line break, no line starts. -/
theorem atBol_of_ne {c : Char} {l : List Char} (hl : '\n' ∉ c :: l) : atBol (some c) = false := by
  have hc : c ≠ '\n' := fun he => hl (he ▸ List.mem_cons_self)
  simpa [atBol] using hc

/-- A pattern that starts with `^` matches nowhere inside a line. -/
theorem finditer_inside_line {l s : List Char} {prev : Option Char} (hp : atBol prev = false)
    (hl : '\n' ∉ l) :
    finditer (.bol :: r) 0 prev (l ++ s) = finditer (.bol :: r) 0 (lastOf prev l) s := by
  induction l generalizing prev with
  | nil => rfl
  | cons c cs ih =>
    rw [List.cons_append, finditer_none (by simp [run, hp]), lastOf_cons,
      ih (atBol_of_ne hl) fun h => hl (List.mem_cons_of_mem _ h)]

theorem atBol_lastOf {l : List Char} {prev : Option Char} (hp : atBol prev = false)
    (hl : '\n' ∉ l) : atBol (lastOf prev l) = false := by
  induction l generalizing prev with
  | nil => exact hp
  | cons c cs ih =>
    exact ih (atBol_of_ne hl) fun h => hl (List.mem_cons_of_mem _ h)

/-- If it does not match at the start of the line either, the line is passed over. -/
theorem finditer_line {c : Char} {l s : List Char} {prev : Option Char}
    (h : run (.bol :: r) [] [] prev (c :: (l ++ s)) = none) (hl : '\n' ∉ c :: l) :
    finditer (.bol :: r) 0 prev (c :: (l ++ s)) = finditer (.bol :: r) 0 (lastOf (some c) l) s := by
  rw [finditer_none h]
  exact finditer_inside_line (atBol_of_ne hl) fun h => hl (List.mem_cons_of_mem _ h)

/-- The end of a line is no start of one: the search goes on with the next line. -/
theorem finditer_newline {s : List Char} {prev : Option Char} (hp : atBol prev = false) :
    finditer (.bol :: r) 0 prev ('\n' :: s) = finditer (.bol :: r) 0 (some '\n') s :=
  finditer_none (by simp [run, hp])

theorem run_of_finditer {c : Char} {s : List Char} {prev : Option Char}
    (h : finditer r 0 prev (c :: s) = []) : run r [] [] prev (c :: s) = none := by
  rw [finditer] at h
  split at h
  · cases h
  · assumption

/-- Where nothing is found, nothing is found further right. -/
theorem finditer_eq_nil_of_le {s : List Char} {prev : Option Char} (h : finditer r 0 prev s = [])
    (n : ℕ) : finditer r n prev s = [] := by
  induction s generalizing prev n with
  | nil => cases n <;> rfl
  | cons c cs ih =>
    cases n with
    | zero => exact h
    | succ n =>
      refine ih ?_ n
      rw [finditer] at h
      split at h
      · cases h
      · exact h

/-- Where nothing is found further right, the only match is the one at the start. -/
theorem mem_finditer_cons {c : Char} {s : List Char} {prev : Option Char} {g : List (List Char)}
    (hs : finditer r 0 (some c) s = []) (hg : g ∈ finditer r 0 prev (c :: s)) :
    ∃ m, run r [] [] prev (c :: s) = some m ∧ g = m.groups := by
  rw [finditer] at hg
  split at hg
  · rename_i m hm
    rw [finditer_eq_nil_of_le hs, List.mem_singleton] at hg
    exact ⟨m, hm, hg⟩
  · rw [hs] at hg
    cases hg

/-! ## What a match consists of -/

/-- A greedy repetition reads characters of its class, and the rest matches after them. -/
theorem split_of_greedyLoop {b : β} {n : ℕ} {prev : Option Char} {s : List Char}
    (h : greedyLoop p k n prev s = some b) :
    ∃ l₁ l₂, s = l₁ ++ l₂ ∧ l₁.all p = true ∧ k (lastOf prev l₁) l₂ = some b := by
  induction s generalizing n prev with
  | nil =>
    cases n with
    | zero => exact ⟨[], [], rfl, rfl, h⟩
    | succ n => cases h
  | cons c cs ih =>
    -- it either reads `c` and stops later, or stops here
    have hlater : ∀ n', p c = true → greedyLoop p k n' (some c) cs = some b →
        ∃ l₁ l₂, c :: cs = l₁ ++ l₂ ∧ l₁.all p = true ∧ k (lastOf prev l₁) l₂ = some b := by
      intro n' hc h
      obtain ⟨l₁, l₂, rfl, hl, hk⟩ := ih h
      exact ⟨c :: l₁, l₂, rfl, by rw [List.all_cons, hc, hl]; rfl, hk⟩
    have hhere : k prev (c :: cs) = some b →
        ∃ l₁ l₂, c :: cs = l₁ ++ l₂ ∧ l₁.all p = true ∧ k (lastOf prev l₁) l₂ = some b :=
      fun h => ⟨[], _, rfl, rfl, h⟩
    cases n with
    | zero =>
      rw [greedyLoop] at h
      split at h
      · rename_i hc
        split at h
        · rename_i b' hb
          exact hlater 0 hc (hb.trans h)
        · exact hhere h
      · exact hhere h
    | succ n =>
      rw [greedyLoop] at h
      split at h
      · rename_i hc
        exact hlater n hc h
      · cases h

/-- So does a lazy one. -/
theorem split_of_lazyLoop {b : β} {n : ℕ} {prev : Option Char} {s : List Char}
    (h : lazyLoop p k n prev s = some b) :
    ∃ l₁ l₂, s = l₁ ++ l₂ ∧ l₁.all p = true ∧ k (lastOf prev l₁) l₂ = some b := by
  induction s generalizing n prev with
  | nil =>
    cases n with
    | zero => exact ⟨[], [], rfl, rfl, h⟩
    | succ n => cases h
  | cons c cs ih =>
    have hlater : ∀ n', p c = true → lazyLoop p k n' (some c) cs = some b →
        ∃ l₁ l₂, c :: cs = l₁ ++ l₂ ∧ l₁.all p = true ∧ k (lastOf prev l₁) l₂ = some b := by
      intro n' hc h
      obtain ⟨l₁, l₂, rfl, hl, hk⟩ := ih h
      exact ⟨c :: l₁, l₂, rfl, by rw [List.all_cons, hc, hl]; rfl, hk⟩
    cases n with
    | zero =>
      rw [lazyLoop] at h
      split at h
      · rename_i b' hb
        exact ⟨[], _, rfl, rfl, hb.trans h⟩
      · split at h
        · rename_i hc
          exact hlater 0 hc h
        · cases h
    | succ n =>
      rw [lazyLoop] at h
      split at h
      · rename_i hc
        exact hlater n hc h
      · cases h

/-- Where the rest does not match before a character of the class, a greedy repetition reads
all that it can. -/
theorem greedyLoop_forced (hk : ∀ q c cs, p c = true → k q (c :: cs) = none) (prev : Option Char)
    (s : List Char) :
    greedyLoop p k 0 prev s = k (lastOf prev (s.takeWhile p)) (s.dropWhile p) := by
  induction s generalizing prev with
  | nil => rfl
  | cons c cs ih =>
    rw [greedyLoop]
    cases hc : p c with
    | true =>
      rw [if_pos rfl, ih, hk prev c cs hc, List.takeWhile_cons_of_pos hc,
        List.dropWhile_cons_of_pos hc, lastOf_cons]
      generalize k _ _ = o
      cases o <;> rfl
    | false =>
      rw [if_neg (by simp), List.takeWhile_cons_of_neg (by simp [hc]),
        List.dropWhile_cons_of_neg (by simp [hc])]
      rfl

theorem greedyLoop_forced_one (hk : ∀ q c cs, p c = true → k q (c :: cs) = none)
    (prev : Option Char) (s : List Char) :
    greedyLoop p k 1 prev s =
      if s.takeWhile p = [] then none
      else k (lastOf prev (s.takeWhile p)) (s.dropWhile p) := by
  cases s with
  | nil => rfl
  | cons c cs =>
    rw [greedyLoop]
    cases hc : p c with
    | true =>
      rw [if_pos rfl, greedyLoop_forced hk, List.takeWhile_cons_of_pos hc,
        List.dropWhile_cons_of_pos hc, if_neg (List.cons_ne_nil _ _), lastOf_cons]
    | false =>
      rw [if_neg (by simp), List.takeWhile_cons_of_neg (by simp [hc]), if_pos rfl]

/-- A greedy repetition may stop at once. -/
theorem isSome_greedyLoop {prev : Option Char} {s : List Char} (h : (k prev s).isSome = true) :
    (greedyLoop p k 0 prev s).isSome = true := by
  cases s with
  | nil => exact h
  | cons c cs =>
    rw [greedyLoop]
    split
    · split
      · rfl
      · exact h
    · exact h

/-- A lazy repetition goes on to where the rest matches. -/
theorem isSome_lazyLoop {l s : List Char} {prev : Option Char} (hl : l.all p = true)
    (h : ∀ q, (k q s).isSome = true) : (lazyLoop p k 0 prev (l ++ s)).isSome = true := by
  have hhere : ∀ q, (lazyLoop p k 0 q s).isSome = true := by
    intro q
    cases s with
    | nil => exact h q
    | cons c cs =>
      obtain ⟨b, hb⟩ := Option.isSome_iff_exists.1 (h q)
      rw [lazyLoop, hb]
      rfl
  induction l generalizing prev with
  | nil => exact hhere prev
  | cons c cs ih =>
    rw [List.all_cons, Bool.and_eq_true] at hl
    rw [List.cons_append, lazyLoop]
    split
    · rfl
    · rw [if_pos hl.1]
      exact ih hl.2

/-! ## The start of a text

A position matters only through what is to its right and whether it is at the start of
a line. -/

theorem greedyLoop_congr {prev prev' : Option Char} (n : ℕ) (s : List Char)
    (h : k prev s = k prev' s) : greedyLoop p k n prev s = greedyLoop p k n prev' s := by
  cases n <;> cases s <;> simp only [greedyLoop, h]

theorem lazyLoop_congr {prev prev' : Option Char} (n : ℕ) (s : List Char)
    (h : k prev s = k prev' s) : lazyLoop p k n prev s = lazyLoop p k n prev' s := by
  cases n <;> cases s <;> simp only [lazyLoop, h]

theorem run_congr {prev prev' : Option Char} (h : atBol prev = atBol prev')
    (st gs : List (List Char)) (s : List Char) : run r st gs prev s = run r st gs prev' s := by
  induction r generalizing st gs with
  | nil => rfl
  | cons i is ih =>
    cases i with
    | chr p => cases s <;> rfl
    | rep p n greedy =>
      cases greedy with
      | true => exact greedyLoop_congr n s (ih st gs)
      | false => exact lazyLoop_congr n s (ih st gs)
    | bol => rw [run, run, h, ih]
    | eol => rw [run, run, ih]
    | opn => exact ih _ _
    | cls =>
      cases st with
      | nil => rfl
      | cons t st => exact ih _ _

/-- The search is the same at the start of a text and at the start of a later line. -/
theorem finditer_congr {prev prev' : Option Char} (h : atBol prev = atBol prev') (s : List Char) :
    finditer r 0 prev s = finditer r 0 prev' s := by
  cases s with
  | nil => rfl
  | cons c cs => rw [finditer, finditer, run_congr h]

end Regex
