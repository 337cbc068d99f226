import Remediation.Lib.Text

/-!
# Lines

`str.splitlines`, which reads back what has been written a line at a time, and what `strip` takes
off a line.
-/

namespace PyText

/-- What a line ends with. -/
def isLineBreak (c : Char) : Bool :=
  let n := c.toNat
  (10 ≤ n && n ≤ 13) || (28 ≤ n && n ≤ 30) || n = 0x85 || n = 0x2028 || n = 0x2029

/-- `str.splitlines()`. -/
def splitlines : List Char → List (List Char)
  | [] => []
  | c :: cs =>
    if isLineBreak c then
      -- a carriage return and a line feed are one break
      [] :: (if c = '\r' ∧ cs.head? = some '\n' then (splitlines cs).tail else splitlines cs)
    else
      match splitlines cs with
      | [] => [[c]]
      | l :: ls => (c :: l) :: ls

/-- There is no break in the line. -/
def OneLine (l : List Char) : Prop := l.all (fun c => !isLineBreak c) = true

instance (l : List Char) : Decidable (OneLine l) := inferInstanceAs (Decidable (_ = true))

/-- Lines, each with a line feed after it. -/
def unlines (ls : List (List Char)) : List Char := ls.flatMap (· ++ ['\n'])

theorem isSpace_of_isLineBreak {c : Char} (hc : isLineBreak c = true) : isSpace c = true := by
  simp only [isLineBreak, isSpace, Bool.or_eq_true, Bool.and_eq_true, decide_eq_true_eq] at hc ⊢
  omega

theorem oneLine_append {a b : List Char} : OneLine (a ++ b) ↔ OneLine a ∧ OneLine b := by
  rw [OneLine, List.all_append, Bool.and_eq_true, OneLine, OneLine]

/-- Without white space, there is no break. -/
theorem oneLine_of_all {p : Char → Bool} {l : List Char} (hl : l.all p = true)
    (hp : ∀ c, p c = true → isSpace c = false) : OneLine l := by
  refine List.all_eq_true.2 fun c hc => ?_
  have hspace : isSpace c = false := hp c (List.all_eq_true.1 hl c hc)
  cases hbreak : isLineBreak c with
  | false => rfl
  | true =>
    rw [isSpace_of_isLineBreak hbreak] at hspace
    cases hspace

theorem splitlines_line {l s : List Char} (hl : OneLine l) :
    splitlines (l ++ '\n' :: s) = l :: splitlines s := by
  induction l with
  | nil => rfl
  | cons c cs ih =>
    rw [OneLine, List.all_cons, Bool.and_eq_true, Bool.not_eq_true'] at hl
    obtain ⟨hc, hcs⟩ := hl
    rw [List.cons_append, splitlines, hc, if_neg Bool.false_ne_true, ih hcs]

/-- **Lines are read back** as they are written. -/
theorem splitlines_unlines {ls : List (List Char)} (hls : ∀ l ∈ ls, OneLine l) :
    splitlines (unlines ls) = ls := by
  induction ls with
  | nil => rfl
  | cons l ls ih =>
    obtain ⟨hl, hrest⟩ := List.forall_mem_cons.1 hls
    have hcons : unlines (l :: ls) = l ++ '\n' :: unlines ls := by simp [unlines]
    rw [hcons, splitlines_line hl, ih hrest]

/-- There are no breaks in the lines of a text. -/
theorem oneLine_of_mem_splitlines {s l : List Char} (hl : l ∈ splitlines s) : OneLine l := by
  induction s generalizing l with
  | nil => cases hl
  | cons c cs ih =>
    rw [splitlines] at hl
    split at hl
    · rcases List.mem_cons.1 hl with rfl | hl
      · rfl
      · split at hl
        · exact ih (List.mem_of_mem_tail hl)
        · exact ih hl
    · rename_i hc
      have hfirst : OneLine [c] := by simp [OneLine, hc]
      split at hl
      · rw [List.mem_singleton.1 hl]
        exact hfirst
      · rename_i l' ls hsplit
        rcases List.mem_cons.1 hl with rfl | hl
        · exact oneLine_append.2 ⟨hfirst, ih (by rw [hsplit]; exact List.mem_cons_self)⟩
        · exact ih (by rw [hsplit]; exact List.mem_cons_of_mem _ hl)

theorem splitlines_oneLine {l : List Char} (hl : OneLine l) (hne : l ≠ []) :
    splitlines l = [l] := by
  induction l with
  | nil => exact absurd rfl hne
  | cons c cs ih =>
    rw [OneLine, List.all_cons, Bool.and_eq_true, Bool.not_eq_true'] at hl
    obtain ⟨hc, hcs⟩ := hl
    rw [splitlines, hc, if_neg Bool.false_ne_true]
    cases cs with
    | nil => rfl
    | cons d ds => rw [ih hcs (List.cons_ne_nil d ds)]

/-- Lines with a line feed between them, `"\n".join(ls)`. -/
def joinLines (ls : List (List Char)) : List Char := ['\n'].intercalate ls

/-- **Lines that have been joined are read back**, but for an empty one at the end. -/
theorem splitlines_joinLines {ls : List (List Char)} (hls : ∀ l ∈ ls, OneLine l) :
    splitlines (joinLines ls) = if ls.getLast? = some [] then ls.dropLast else ls := by
  induction ls with
  | nil => rfl
  | cons l ls ih =>
    obtain ⟨hl, hrest⟩ := List.forall_mem_cons.1 hls
    cases ls with
    | nil =>
      have hone : joinLines [l] = l := by simp [joinLines]
      rw [hone]
      by_cases hne : l = []
      · rw [hne]
        rfl
      · rw [splitlines_oneLine hl hne, if_neg]
        simpa using hne
    | cons l' ls =>
      have hcons : joinLines (l :: l' :: ls) = l ++ '\n' :: joinLines (l' :: ls) := by
        simp [joinLines, List.intercalate]
      rw [hcons, splitlines_line hl, ih hrest, List.getLast?_cons_cons, List.dropLast_cons_cons]
      split <;> rfl

/-! ## What `strip` takes off -/

theorem strip_split (s : List Char) :
    ∃ a b, s = a ++ strip s ++ b ∧ a.all isSpace = true ∧ b.all isSpace = true := by
  refine ⟨s.takeWhile isSpace, (s.dropWhile isSpace).rtakeWhile isSpace, ?_, ?_, ?_⟩
  · rw [List.append_assoc, strip, List.rdropWhile_append_rtakeWhile, List.takeWhile_append_dropWhile]
  · exact List.all_eq_true.2 fun c hc => List.mem_takeWhile_imp hc
  · exact List.all_eq_true.2 fun c hc => List.mem_rtakeWhile_imp hc

/-- The text that is left at the end, after one that does not end with white space. -/
theorem strip_append {a s b : List Char} (ha : a.all isSpace = true) (hne : s ≠ [])
    (hs : Trimmed s) : strip (a ++ (s ++ b)) = s ++ b.rdropWhile isSpace := by
  have hhead : (s ++ b).dropWhile isSpace = s ++ b := by
    cases s with
    | nil => exact absurd rfl hne
    | cons c cs =>
      rw [List.cons_append, List.dropWhile_cons_of_neg]
      simp [hs.head (c := c) rfl]
  have hlast : s.reverse.dropWhile isSpace = s.reverse := by
    have hself : s.rdropWhile isSpace = s := by
      rw [List.rdropWhile_eq_self_iff]
      intro hne'
      simp [hs.getLast (List.getLast?_eq_some_getLast hne')]
    rw [← List.reverse_eq_iff, ← List.rdropWhile, hself]
  rw [strip_space_append ha, strip, hhead, List.rdropWhile, List.reverse_append,
    List.dropWhile_append, hlast, List.rdropWhile]
  split
  · rename_i hempty
    rw [List.isEmpty_iff.1 hempty, List.reverse_reverse, List.reverse_nil, List.append_nil]
  · rw [List.reverse_append, List.reverse_reverse]

end PyText
