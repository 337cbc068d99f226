import Mathlib.Data.List.DropRight
import Mathlib.Data.List.Infix
import Mathlib.Logic.Function.Defs

/-!
# Python's string methods

Strings as lists of code points, with the methods of `str` that the code uses:
`isspace`, `strip`, `lower`, `startswith`, `removeprefix` and the operator `in`.
-/

namespace PyText

/-- `str.isspace` on one code point, which is also what `\s` matches in a `str` pattern. -/
def isSpace (c : Char) : Bool :=
  let n := c.toNat
  (9 ≤ n && n ≤ 13) || (28 ≤ n && n ≤ 32) || n = 0x85 || n = 0xA0 || n = 0x1680 ||
    (0x2000 ≤ n && n ≤ 0x200A) || n = 0x2028 || n = 0x2029 || n = 0x202F || n = 0x205F || n = 0x3000

/-- `str.strip()`. -/
def strip (s : List Char) : List Char := (s.dropWhile isSpace).rdropWhile isSpace

/-- `str.lower()` as far as comparisons with ASCII text can tell: besides the ASCII
letters, only the Kelvin sign has an ASCII lower case. -/
def lower (s : List Char) : List Char :=
  s.map fun c => if c = '\u212a' then 'k' else c.toLower

theorem lower_append (a b : List Char) : lower (a ++ b) = lower a ++ lower b := List.map_append

/-- No white space at either end. -/
def Trimmed (s : List Char) : Prop :=
  s.head?.all (fun c => !isSpace c) = true ∧ s.getLast?.all (fun c => !isSpace c) = true

instance (s : List Char) : Decidable (Trimmed s) := inferInstanceAs (Decidable (_ ∧ _))

theorem Trimmed.head {s : List Char} (h : Trimmed s) {c : Char} (hc : c ∈ s.head?) :
    isSpace c = false := by
  simpa using (Option.all_eq_true _ _).1 h.1 c hc

theorem Trimmed.getLast {s : List Char} (h : Trimmed s) {c : Char} (hc : c ∈ s.getLast?) :
    isSpace c = false := by
  simpa using (Option.all_eq_true _ _).1 h.2 c hc

theorem strip_of_trimmed {s : List Char} (h : Trimmed s) : strip s = s := by
  unfold strip
  have hd : s.dropWhile isSpace = s := by
    cases s with
    | nil => rfl
    | cons c cs => simp [h.head (c := c) rfl]
  rw [hd, List.rdropWhile_eq_self_iff]
  intro hne
  have := h.getLast (List.getLast?_eq_some_getLast hne)
  simp [this]

theorem dropWhile_isSpace_eq_nil {s : List Char} :
    s.dropWhile isSpace = [] ↔ s.all isSpace = true := by
  rw [List.dropWhile_eq_nil_iff, List.all_eq_true]

theorem strip_eq_nil {s : List Char} : strip s = [] ↔ s.all isSpace = true := by
  rw [← dropWhile_isSpace_eq_nil, strip, List.rdropWhile_eq_nil_iff]
  constructor
  · intro h
    cases hd : s.dropWhile isSpace with
    | nil => rfl
    | cons c cs =>
      -- what is left starts with a character that is no white space
      have hc := List.head?_dropWhile_not isSpace s
      rw [hd, List.head?_cons] at hc
      have hc' := h c (hd ▸ List.mem_cons_self)
      simp [hc'] at hc
  · intro h c hc
    rw [h] at hc
    cases hc

theorem strip_space_append {a s : List Char} (ha : a.all isSpace = true) :
    strip (a ++ s) = strip s := by
  rw [strip, List.dropWhile_append_of_pos (List.all_eq_true.1 ha), strip]

theorem strip_append_space {a s : List Char} (ha : a.all isSpace = true) :
    strip (s ++ a) = strip s := by
  have hend : ∀ l : List Char, (l ++ a).rdropWhile isSpace = l.rdropWhile isSpace := by
    intro l
    rw [List.rdropWhile, List.rdropWhile, List.reverse_append, List.dropWhile_append_of_pos]
    exact fun c hc => List.all_eq_true.1 ha c (List.mem_reverse.1 hc)
  rw [strip, strip, List.dropWhile_append]
  split
  · rename_i hs
    rw [List.isEmpty_iff] at hs
    rw [hs, dropWhile_isSpace_eq_nil.2 ha]
  · exact hend _

/-- `s.startswith(p)`. -/
def startsWith (s p : String) : Bool := p.toList.isPrefixOf s.toList

/-- `x in s` -/
def isIn (x s : String) : Bool := x.toList <:+: s.toList

/-- `s.removeprefix(p)`. -/
def removePrefix (s p : String) : String :=
  if startsWith s p then String.ofList (s.toList.drop p.toList.length) else s

/-- `f"{x}"` for an optional value. -/
def str {α : Type} [ToString α] : Option α → String
  | some a => toString a
  | none => "None"

/-- A string that Python counts as true: there, and not empty. -/
def truthy (s : Option String) : Option String := s.filter (· ≠ "")

theorem truthy_eq_some {s : Option String} {x : String} :
    truthy s = some x ↔ s = some x ∧ x ≠ "" := by
  simp [truthy, Option.filter_eq_some_iff]

theorem startsWith_append (p x : String) : startsWith (p ++ x) p = true := by
  simp [startsWith]

theorem removePrefix_append (p x : String) : removePrefix (p ++ x) p = x := by
  rw [removePrefix, if_pos (startsWith_append p x), String.toList_append, List.drop_left,
    String.ofList_toList]

theorem startsWith_of_ne {s p : String} {c d : Char} {cs ds : List Char} (hs : s.toList = c :: cs)
    (hp : p.toList = d :: ds) (hne : d ≠ c) : startsWith s p = false := by
  simp [startsWith, hs, hp, List.isPrefixOf, hne]

/-! ## Numerals -/

theorem digits_of_append {a b d d' : List Char} {x : Char} (hd : x ∉ d) (hd' : x ∉ d')
    (h : a ++ x :: d = b ++ x :: d') : d = d' := by
  rcases List.append_eq_append_iff.1 h with ⟨as, -, has⟩ | ⟨as, -, has⟩
  · cases as with
    | nil => exact (List.cons.inj has).2
    | cons y as =>
      rw [(List.cons.inj has).2] at hd
      exact absurd (List.mem_append_right _ List.mem_cons_self) hd
  · cases as with
    | nil => exact (List.cons.inj has).2.symm
    | cons y as =>
      rw [(List.cons.inj has).2] at hd'
      exact absurd (List.mem_append_right _ List.mem_cons_self) hd'

/-- What comes before the first separator, and what comes after it. -/
theorem split_of_append {a b d d' : List Char} {x : Char} (ha : x ∉ a) (hb : x ∉ b)
    (h : a ++ x :: d = b ++ x :: d') : a = b ∧ d = d' := by
  rcases List.append_eq_append_iff.1 h with ⟨as, rfl, has⟩ | ⟨as, rfl, has⟩
  · cases as with
    | nil => exact ⟨(List.append_nil a).symm, (List.cons.inj has).2⟩
    | cons y as =>
      rw [(List.cons.inj has).1] at hb
      exact absurd (List.mem_append_right _ List.mem_cons_self) hb
  · cases as with
    | nil => exact ⟨List.append_nil b, (List.cons.inj has).2.symm⟩
    | cons y as =>
      rw [(List.cons.inj has).1] at ha
      exact absurd (List.mem_append_right _ List.mem_cons_self) ha

/-- A numeral has digits in it. -/
theorem not_mem_repr {x : Char} (hx : x.isDigit = false) (n : ℕ) : x ∉ n.repr.toList := by
  intro hn
  rw [Nat.toList_repr] at hn
  rw [Nat.isDigit_of_mem_toDigits (by decide) (by decide) hn] at hx
  cases hx

/-- They have no lower case. -/
theorem lower_repr (n : ℕ) : lower n.repr.toList = n.repr.toList := by
  have hdigit : ∀ c ∈ n.repr.toList, (if c = '\u212a' then 'k' else c.toLower) = id c := by
    intro c hc
    rw [Nat.toList_repr] at hc
    have hd : c.isDigit = true := Nat.isDigit_of_mem_toDigits (by decide) (by decide) hc
    have hk : c ≠ '\u212a' := by
      rintro rfl
      revert hd
      decide
    have hup : ¬(c.val ≥ 'A'.val ∧ c.val ≤ 'Z'.val) := by
      simp only [Char.isDigit, Bool.and_eq_true, decide_eq_true_eq] at hd
      rintro ⟨hge, -⟩
      have hle : 'A'.val ≤ '9'.val := UInt32.le_trans hge hd.2
      revert hle
      decide
    have hlower : c.toLower = c := dif_neg hup
    rw [if_neg hk, hlower]
    rfl
  rw [lower, List.map_congr_left hdigit, List.map_id]

theorem repr_injective {m n : ℕ} (h : m.repr.toList = n.repr.toList) : m = n := by
  rw [Nat.toList_repr, Nat.toList_repr] at h
  rw [← Nat.ofDigitChars_ten_toDigits (n := m), h, Nat.ofDigitChars_ten_toDigits]

theorem toString_negSucc (n : ℕ) :
    (toString (Int.negSucc n)).toList = '-' :: (n + 1).repr.toList := by
  rw [Int.toString_eq_repr, Int.repr, String.toList_append]
  rfl

/-- And a sign at most. -/
theorem not_mem_toString_int {x : Char} (hx : x.isDigit = false) (hsign : x ≠ '-') (i : ℤ) :
    x ∉ (toString i).toList := by
  cases i with
  | ofNat n => exact not_mem_repr hx n
  | negSucc n =>
    rw [toString_negSucc, List.mem_cons, not_or]
    exact ⟨hsign, not_mem_repr hx _⟩

theorem toString_int_injective : Function.Injective (toString : ℤ → String) := by
  have hsign : ∀ m n : ℕ, (toString (Int.ofNat m)).toList ≠ (toString (Int.negSucc n)).toList := by
    intro m n h
    rw [toString_negSucc] at h
    exact not_mem_repr (by decide) m (h ▸ List.mem_cons_self)
  rintro (m | m) (n | n) h
  · exact congrArg Int.ofNat (repr_injective (congrArg String.toList h))
  · exact absurd (congrArg String.toList h) (hsign m n)
  · exact absurd (congrArg String.toList h).symm (hsign n m)
  · have hl := congrArg String.toList h
    rw [toString_negSucc, toString_negSucc] at hl
    rw [Nat.succ.inj (repr_injective (List.cons.inj hl).2)]

theorem str_int_injective : Function.Injective (str : Option ℤ → String) := by
  have hnone : ∀ i : ℤ, toString i ≠ "None" := by
    intro i h
    have hmem : 'N' ∈ (toString i).toList := by
      rw [h]
      decide
    exact not_mem_toString_int (by decide) (by decide) i hmem
  rintro (_ | i) (_ | j) h
  · rfl
  · exact absurd h.symm (hnone j)
  · exact absurd h (hnone i)
  · exact congrArg some (toString_int_injective h)

/-- The number at the end of a text can be read back, if it comes after something that is
not a digit. -/
theorem numeral_inj {a b : String} {x : Char} {m n : ℕ} (hx : x.isDigit = false)
    (h : a ++ String.ofList [x] ++ toString m = b ++ String.ofList [x] ++ toString n) : m = n := by
  have hl := congrArg String.toList h
  simp only [String.toList_append, String.toList_ofList, List.append_assoc, List.singleton_append,
    Nat.toString_eq_repr] at hl
  exact repr_injective (digits_of_append (not_mem_repr hx m) (not_mem_repr hx n) hl)

end PyText
