import Remediation.Spec.Prompts

/-!
# How a field is read

`_FIELD` reads a marker, `- **Name:**`, and then a value. Whether there is a marker takes no
backtracking to tell (`run_fieldPattern`). The value is the rest of a line, white space around
it aside: of the line on which there is text again after the marker (`of_run_valuePattern`).
-/

namespace Remediation

open PyText Regex

/-! ## The marker -/

/-- A marker from its dash on: the white space after the dash, the name, and the text that
follows. -/
structure Marker where
  lead : List Char
  name : List Char
  after : List Char

def readMarker (d : List Char) : Option Marker :=
  (d.dropPrefix? ['-']).bind fun t =>
    ((t.dropWhile isSpace).dropPrefix? ['*', '*']).bind fun u =>
      if u.takeWhile isFieldNameChar = [] then none
      else ((u.dropWhile isFieldNameChar).dropPrefix? [':', '*', '*']).bind fun after =>
        some ⟨t.takeWhile isSpace, u.takeWhile isFieldNameChar, after⟩

/-- What `_FIELD` looks for after the marker. -/
def valuePattern : List Item :=
  [.rep isSpace 0 true, .opn, .rep (· != '\n') 1 false, .cls, .rep isSpace 0 true, .eol]

variable {name s : List Char} {prev : Option Char} {m : Match}

theorem readMarker_eq_some {d : List Char} {mk : Marker} (h : readMarker d = some mk) :
    d = '-' :: (mk.lead ++ '*' :: '*' :: (mk.name ++ ':' :: '*' :: '*' :: mk.after)) ∧
      mk.lead.all isSpace = true ∧ mk.name.all isFieldNameChar = true := by
  obtain ⟨t, ht, h⟩ := Option.bind_eq_some_iff.1 h
  obtain ⟨u, hu, h⟩ := Option.bind_eq_some_iff.1 h
  split at h
  · cases h
  obtain ⟨after, hafter, h⟩ := Option.bind_eq_some_iff.1 h
  cases h
  rw [dropPrefix?_eq_some] at ht hu hafter
  refine ⟨?_, List.all_takeWhile, List.all_takeWhile⟩
  calc d
    _ = '-' :: t := ht
    _ = '-' :: (t.takeWhile isSpace ++ t.dropWhile isSpace) := by rw [List.takeWhile_append_dropWhile]
    _ = '-' :: (t.takeWhile isSpace ++ '*' :: '*' ::
          (u.takeWhile isFieldNameChar ++ u.dropWhile isFieldNameChar)) := by
        rw [hu, List.takeWhile_append_dropWhile]
        rfl
    _ = _ := by
        rw [hafter]
        rfl

/-- **The marker is read without backtracking.** -/
theorem run_fieldPattern (prev : Option Char) (s : List Char) :
    run fieldPattern [] [] prev s =
      if atBol prev then
        (readMarker (s.dropWhile isSpace)).bind fun mk =>
          run valuePattern [] [mk.name] (some '*') mk.after
      else none := by
  have hpattern : fieldPattern = .bol :: .rep isSpace 0 true :: (lit ['-'] ++
      .rep isSpace 0 true :: (lit ['*', '*'] ++ .opn :: .rep isFieldNameChar 1 true :: .cls ::
        (lit [':', '*', '*'] ++ valuePattern))) := rfl
  rw [hpattern, run, run, greedyLoop_forced (run_lit_none rfl), run_lit_eq, readMarker,
    Option.bind_assoc]
  split
  swap
  · rfl
  congr 1
  funext t
  rw [run, greedyLoop_forced (run_lit_none rfl), run_lit_eq, Option.bind_assoc]
  congr 1
  funext u
  -- a colon is no letter of the name
  have hcolon : ∀ q c cs, isFieldNameChar c = true →
      run (.cls :: (lit [':', '*', '*'] ++ valuePattern)) [u] [] q (c :: cs) = none :=
    fun q c cs hc => run_lit_none rfl q c cs hc
  rw [run, run, greedyLoop_forced_one hcolon]
  by_cases hname : u.takeWhile isFieldNameChar = []
  · rw [if_pos hname, if_pos hname]
    rfl
  have hgroup : u.take (u.length - (u.dropWhile isFieldNameChar).length) =
      u.takeWhile isFieldNameChar := by
    have h := take_group (u.takeWhile isFieldNameChar) (u.dropWhile isFieldNameChar)
    rwa [List.takeWhile_append_dropWhile] at h
  rw [if_neg hname, if_neg hname, run, hgroup, run_lit_eq, Option.bind_assoc]
  rfl

/-- A match starts with a marker. -/
theorem of_run_fieldPattern (h : run fieldPattern [] [] prev s = some m) :
    atBol prev = true ∧ ∃ mk, readMarker (s.dropWhile isSpace) = some mk ∧
      run valuePattern [] [mk.name] (some '*') mk.after = some m := by
  rw [run_fieldPattern] at h
  split at h
  · rename_i hp
    obtain ⟨mk, hread, h⟩ := Option.bind_eq_some_iff.1 h
    exact ⟨hp, mk, hread, h⟩
  · cases h

/-! ## The value -/

/-- After white space comes something else. -/
theorem isSpace_of_dropWhile {c : Char} {cs : List Char} (hd : s.dropWhile isSpace = c :: cs) :
    isSpace c = false := by
  have hc := List.head?_dropWhile_not isSpace s
  rwa [hd, List.head?_cons] at hc

/-- The line that a text starts with, without its end. -/
def lineOf (s : List Char) : List Char := s.takeWhile (· != '\n')

theorem lineOf_append {v : List Char} (hv : '\n' ∉ v) (t : List Char) :
    lineOf (v ++ t) = v ++ lineOf t :=
  List.takeWhile_append_of_pos fun _ hc => bne_iff_ne.2 fun he => hv (he ▸ hc)

/-- White space to the end of a line, and the end of a line. -/
theorem lineOf_space {ws r : List Char} (hws : ws.all isSpace = true) (hr : atEol r = true) :
    (lineOf (ws ++ r)).all isSpace = true := by
  induction ws with
  | nil =>
    cases r with
    | nil => rfl
    | cons c cs =>
      obtain rfl : c = '\n' := by simpa [atEol] using hr
      rfl
  | cons c cs ih =>
    rw [List.all_cons, Bool.and_eq_true] at hws
    unfold lineOf
    rw [List.cons_append, List.takeWhile_cons]
    split
    · rw [List.all_cons, hws.1]
      exact ih hws.2
    · rfl

/-- A text is split into a gap, the value, white space to the end of a line, and the rest. -/
structure ReadsValue (s gap value space : List Char) (m : Match) : Prop where
  text : s = gap ++ (value ++ (space ++ m.rest))
  gap_space : gap.all isSpace = true
  value_line : '\n' ∉ value
  space_space : space.all isSpace = true
  rest_eol : atEol m.rest = true

/-- The group of the value, after the gap. -/
def groupPattern : List Item :=
  [.opn, .rep (· != '\n') 1 false, .cls, .rep isSpace 0 true, .eol]

theorem of_run_groupPattern (h : run groupPattern [] [name] prev s = some m) :
    ∃ value space, m.groups = [name, value] ∧ ReadsValue s [] value space m := by
  obtain ⟨value, t, rfl, hvalue, h⟩ := split_of_lazyLoop h
  rw [run, take_group] at h
  obtain ⟨space, r, rfl, hspace, h⟩ := split_of_greedyLoop h
  rw [run] at h
  split at h
  · rename_i hr
    cases h
    exact ⟨value, space, rfl, rfl, rfl,
      fun hv => absurd rfl (bne_iff_ne.1 (List.all_eq_true.1 hvalue _ hv)), hspace, hr⟩
  · cases h

/-- There is a value wherever there is text. -/
theorem isSome_groupPattern (name : List Char) (prev : Option Char) {c : Char} (s : List Char)
    (hc : isSpace c = false) :
    (run groupPattern [] [name] prev (c :: s)).isSome = true := by
  have hne : (c != '\n') = true := by
    rw [bne_iff_ne]
    rintro rfl
    cases hc
  rw [groupPattern, run, run, lazyLoop, if_pos hne,
    ← List.takeWhile_append_dropWhile (p := (· != '\n')) (l := s)]
  refine isSome_lazyLoop List.all_takeWhile fun q => ?_
  refine isSome_greedyLoop ?_
  rw [run, if_pos]
  · rfl
  · have hend := List.head?_dropWhile_not (· != '\n') s
    unfold atEol
    cases hd : (s.dropWhile (· != '\n')).head? with
    | none => rfl
    | some d =>
      rw [hd] at hend
      simpa using hend

/-- If there is text after the marker, all of the white space before it is read first. -/
theorem run_valuePattern (name : List Char) (prev : Option Char) {c : Char} {cs : List Char}
    (hd : s.dropWhile isSpace = c :: cs) :
    ∃ m, run valuePattern [] [name] prev s = some m ∧
      run groupPattern [] [name] (lastOf prev (s.takeWhile isSpace)) (c :: cs) = some m := by
  have hc := isSpace_of_dropWhile hd
  obtain ⟨m, hm⟩ := Option.isSome_iff_exists.1
    (isSome_groupPattern name (lastOf prev (s.takeWhile isSpace)) cs hc)
  refine ⟨m, ?_, hm⟩
  rw [← List.takeWhile_append_dropWhile (p := isSpace) (l := s), hd]
  exact greedyLoop_all List.all_takeWhile (fun d hd => by cases hd; exact hc) hm

/-- **The value is on the line of the first text after the marker.** -/
theorem of_run_valuePattern (h : run valuePattern [] [name] prev s = some m) :
    ∃ gap value space, m.groups = [name, value] ∧ ReadsValue s gap value space m ∧
      strip value = strip (lineOf (s.dropWhile isSpace)) ∧
      (s.all isSpace = false → gap = s.takeWhile isSpace) := by
  cases hd : s.dropWhile isSpace with
  | nil =>
    -- only white space is left, and so it is in the value
    rw [dropWhile_isSpace_eq_nil] at hd
    obtain ⟨gap, t, rfl, hgap, h⟩ := split_of_greedyLoop h
    obtain ⟨value, space, hgroups, hread⟩ := of_run_groupPattern h
    refine ⟨gap, value, space, hgroups, ⟨by rw [hread.text]; rfl, hgap, hread.value_line,
      hread.space_space, hread.rest_eol⟩, ?_, fun hs => by rw [hd] at hs; cases hs⟩
    rw [List.all_append, hread.text] at hd
    simp only [List.nil_append, List.all_append, Bool.and_eq_true] at hd
    exact strip_eq_nil.2 hd.2.1
  | cons c cs =>
    have hs : s = s.takeWhile isSpace ++ c :: cs := by rw [← hd, List.takeWhile_append_dropWhile]
    obtain ⟨m', hall, hm'⟩ := run_valuePattern name prev hd
    rw [h] at hall
    cases hall
    obtain ⟨value, space, hgroups, hread⟩ := of_run_groupPattern hm'
    refine ⟨s.takeWhile isSpace, value, space, hgroups, ⟨?_, List.all_takeWhile, hread.value_line,
      hread.space_space, hread.rest_eol⟩, ?_, fun _ => rfl⟩
    · rw [← List.nil_append (value ++ _), ← hread.text]
      exact hs
    · have hline : lineOf (c :: cs) = value ++ lineOf (space ++ m.rest) := by
        rw [hread.text, List.nil_append]
        exact lineOf_append hread.value_line _
      rw [hline, strip_append_space (lineOf_space hread.space_space hread.rest_eol)]

end Remediation
