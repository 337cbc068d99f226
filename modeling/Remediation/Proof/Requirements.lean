import Remediation.Spec.Nightly

/-!
# What is pinned

`parse_requirements` takes a line for a pin if it says `name==version`, with white space around
each of the three, whatever comes after the version; every other line is passed over
(`readPin_iff`). A requirement with extras is such a line. What `pip-compile` writes is read back
pin by pin (`parse_render`).
-/

namespace Remediation

open PyText Regex

/-! ## The characters of a pin -/

theorem isSpace_of_alphanum {c : Char} (hc : c.isAlphanum = true) : isSpace c = false := by
  change ((decide (65 ≤ c.toNat ∧ c.toNat ≤ 90) || decide (97 ≤ c.toNat) && decide (c.toNat ≤ 122)) ||
    decide (48 ≤ c.toNat) && decide (c.toNat ≤ 57)) = true at hc
  simp only [Bool.or_eq_true, Bool.and_eq_true, decide_eq_true_eq] at hc
  simp only [isSpace, Bool.or_eq_false_iff, Bool.and_eq_false_iff, decide_eq_false_iff_not]
  omega

theorem isSpace_of_reqNameChar {c : Char} (hc : isReqNameChar c = true) : isSpace c = false := by
  simp only [isReqNameChar, Bool.or_eq_true, beq_iff_eq] at hc
  rcases hc with ((hc | rfl) | rfl) | rfl
  · exact isSpace_of_alphanum hc
  all_goals rfl

theorem isSpace_of_reqVersionChar {c : Char} (hc : isReqVersionChar c = true) :
    isSpace c = false := by
  simp only [isReqVersionChar, Bool.and_eq_true, Bool.not_eq_true'] at hc
  exact hc.1.1

/-- `[A-Za-z0-9][A-Za-z0-9._-]*` -/
def IsReqName (name : List Char) : Prop :=
  name.head?.any Char.isAlphanum = true ∧ name.all isReqNameChar = true

/-- `[^\s;#]+` -/
def IsReqVersion (version : List Char) : Prop :=
  version ≠ [] ∧ version.all isReqVersionChar = true

/-- The version does not go on here. -/
def EndsVersion (rest : List Char) : Prop := rest.head?.all (fun c => !isReqVersionChar c) = true

instance (name : List Char) : Decidable (IsReqName name) := inferInstanceAs (Decidable (_ ∧ _))

instance (version : List Char) : Decidable (IsReqVersion version) :=
  inferInstanceAs (Decidable (_ ∧ _))

instance (rest : List Char) : Decidable (EndsVersion rest) := inferInstanceAs (Decidable (_ = true))

theorem EndsVersion.head {rest : List Char} (h : EndsVersion rest) {c : Char}
    (hc : rest.head? = some c) : isReqVersionChar c = false := by
  simpa using (Option.all_eq_true _ _).1 h c hc

/-! ## A match of the pattern -/

/-- The line says `name==version`, and then something else. -/
structure PinLine (line name version rest : List Char) : Prop where
  isName : IsReqName name
  isVersion : IsReqVersion version
  ends : EndsVersion rest
  written : ∃ gap gap', line = name ++ (gap ++ ('=' :: '=' :: (gap' ++ (version ++ rest)))) ∧
    gap.all isSpace = true ∧ gap'.all isSpace = true

variable {line name version rest raw : List Char}

/-- Where the rest always matches, a greedy repetition that reads something reads all that it
can. -/
theorem greedyLoop_one_eq {β : Type} {p : Char → Bool} {k : Option Char → List Char → Option β}
    {f : List Char → β} (hk : ∀ q s, k q s = some (f s)) (prev : Option Char) (s : List Char) :
    greedyLoop p k 1 prev s = if s.takeWhile p = [] then none else some (f (s.dropWhile p)) := by
  cases s with
  | nil => rfl
  | cons c cs =>
    cases hc : p c with
    | false => simp [greedyLoop, hc]
    | true =>
      have hall : (c :: cs).takeWhile p ≠ [] := by simp [hc]
      have hread : greedyLoop p k 1 prev ((c :: cs).takeWhile p ++ (c :: cs).dropWhile p) =
          some (f ((c :: cs).dropWhile p)) := by
        refine greedyLoop_one_all hall ?_ ?_ (hk _ _)
        · exact List.all_eq_true.2 fun d hd => List.mem_takeWhile_imp hd
        · intro d hd
          have hnot := List.head?_dropWhile_not p (c :: cs)
          rw [hd] at hnot
          simpa using hnot
      rw [List.takeWhile_append_dropWhile] at hread
      rw [hread, if_neg hall]

/-- The end of the pattern: white space, and the version. -/
theorem run_version (prev : Option Char) (s : List Char) :
    run [.rep isSpace 0 true, .opn, .rep isReqVersionChar 1 true, .cls] [] [name] prev s =
      if (s.dropWhile isSpace).takeWhile isReqVersionChar = [] then none
      else some ⟨[name, (s.dropWhile isSpace).takeWhile isReqVersionChar],
        (s.dropWhile isSpace).dropWhile isReqVersionChar⟩ := by
  have hend : ∀ (t : List Char) q s', run [.cls] [t] [name] q s' =
      some (⟨[name, t.take (t.length - s'.length)], s'⟩ : Match) := fun _ _ _ => rfl
  have hver : ∀ q t, run [.opn, .rep isReqVersionChar 1 true, .cls] [] [name] q t =
      if t.takeWhile isReqVersionChar = [] then none
      else some ⟨[name, t.takeWhile isReqVersionChar], t.dropWhile isReqVersionChar⟩ := by
    intro q t
    have hloop := greedyLoop_one_eq (p := isReqVersionChar) (hend t) q t
    have htake : t.take (t.length - (t.dropWhile isReqVersionChar).length) =
        t.takeWhile isReqVersionChar := by
      have hsplit : t.takeWhile isReqVersionChar ++ t.dropWhile isReqVersionChar = t :=
        List.takeWhile_append_dropWhile
      have hgroup := take_group (t.takeWhile isReqVersionChar) (t.dropWhile isReqVersionChar)
      rwa [hsplit] at hgroup
    rw [htake] at hloop
    exact hloop
  have hspace : ∀ q c cs, isSpace c = true →
      run [.opn, .rep isReqVersionChar 1 true, .cls] [] [name] q (c :: cs) = none := by
    intro q c cs hc
    have hno : isReqVersionChar c = false := by
      rw [isReqVersionChar, hc]
      rfl
    rw [hver, List.takeWhile_cons_of_neg (by simp [hno]), if_pos rfl]
  refine (greedyLoop_forced hspace prev s).trans ?_
  rw [hver]

/-- The middle of it: white space, and the two signs. -/
theorem run_signs (prev : Option Char) (s : List Char) :
    run (.rep isSpace 0 true :: (lit ['=', '='] ++
        [.rep isSpace 0 true, .opn, .rep isReqVersionChar 1 true, .cls])) [] [name] prev s =
      ((s.dropWhile isSpace).dropPrefix? ['=', '=']).bind fun t =>
        run [.rep isSpace 0 true, .opn, .rep isReqVersionChar 1 true, .cls] [] [name]
          (lastOf (lastOf prev (s.takeWhile isSpace)) ['=', '=']) t := by
  refine (greedyLoop_forced ?_ prev s).trans (run_lit_eq _ _ _ _ _ _)
  exact fun q c cs hc => run_lit_none rfl q c cs hc

theorem run_reqLine {c : Char} {cs : List Char} (hc : c.isAlphanum = true) :
    run reqLine [] [] none (c :: cs) =
      run (.rep isSpace 0 true :: (lit ['=', '='] ++
        [.rep isSpace 0 true, .opn, .rep isReqVersionChar 1 true, .cls])) []
        [c :: cs.takeWhile isReqNameChar] (lastOf (some c) (cs.takeWhile isReqNameChar))
        (cs.dropWhile isReqNameChar) := by
  set rest := Item.rep isSpace 0 true :: (lit ['=', '='] ++
    [.rep isSpace 0 true, .opn, .rep isReqVersionChar 1 true, .cls]) with hrest
  have hname : ∀ q d ds, isReqNameChar d = true →
      run (.cls :: rest) [c :: cs] [] q (d :: ds) = none := by
    intro q d ds hd
    -- neither white space nor a sign
    have hspace : (d :: ds).dropWhile isSpace = d :: ds :=
      List.dropWhile_cons_of_neg (by simp [isSpace_of_reqNameChar hd])
    have hsign : (d :: ds).dropPrefix? ['=', '='] = none := by
      have hne : (d == '=') = false := by
        rw [beq_eq_false_iff_ne]
        rintro rfl
        cases hd
      simp [List.dropPrefix?, hne]
    change run rest [] [_] q (d :: ds) = none
    rw [hrest, run_signs, hspace, hsign]
    rfl
  have hstart : run reqLine [] [] none (c :: cs) =
      greedyLoop isReqNameChar (run (.cls :: rest) [c :: cs] []) 0 (some c) cs := by
    change (if c.isAlphanum then _ else _) = _
    rw [if_pos hc]
    rfl
  have hgroup : (c :: cs).take ((c :: cs).length - (cs.dropWhile isReqNameChar).length) =
      c :: cs.takeWhile isReqNameChar := by
    have hsplit : cs.takeWhile isReqNameChar ++ cs.dropWhile isReqNameChar = cs :=
      List.takeWhile_append_dropWhile
    have htake := take_group (c :: cs.takeWhile isReqNameChar) (cs.dropWhile isReqNameChar)
    rwa [List.cons_append, hsplit] at htake
  rw [hstart, greedyLoop_forced hname]
  change run rest [] [(c :: cs).take _] _ _ = _
  rw [hgroup]

/-- A text is read as far as it is of the class, if it does not go on with it. -/
theorem span_stop {p : Char → Bool} {l s : List Char} (hl : l.all p = true)
    (hs : ∀ c, s.head? = some c → p c = false) :
    (l ++ s).takeWhile p = l ∧ (l ++ s).dropWhile p = s := by
  have hall : ∀ c ∈ l, p c = true := List.all_eq_true.1 hl
  rw [List.takeWhile_append_of_pos hall, List.dropWhile_append_of_pos hall]
  cases s with
  | nil => exact ⟨List.append_nil l, rfl⟩
  | cons c cs =>
    have hc : ¬p c = true := by simp [hs c rfl]
    rw [List.takeWhile_cons_of_neg hc, List.dropWhile_cons_of_neg hc]
    exact ⟨List.append_nil l, rfl⟩

theorem head_dropWhile {p : Char → Bool} {s : List Char} {c : Char}
    (hc : (s.dropWhile p).head? = some c) : p c = false := by
  have hnot := List.head?_dropWhile_not p s
  rw [hc] at hnot
  simpa using hnot

theorem all_takeWhile (p : Char → Bool) (s : List Char) : (s.takeWhile p).all p = true :=
  List.all_eq_true.2 fun _ hc => List.mem_takeWhile_imp hc

theorem isReqNameChar_of_alphanum {c : Char} (hc : c.isAlphanum = true) : isReqNameChar c = true := by
  simp [isReqNameChar, hc]

/-- Every match is that of a pin. -/
theorem pinLine_of_run {m : Match} (h : run reqLine [] [] none line = some m) :
    ∃ name version rest, PinLine line name version rest ∧ m = ⟨[name, version], rest⟩ := by
  cases line with
  | nil => cases h
  | cons c cs =>
    have hc : c.isAlphanum = true := by
      by_contra hno
      change (if c.isAlphanum then _ else none) = some m at h
      rw [if_neg hno] at h
      cases h
    rw [run_reqLine hc, run_signs] at h
    obtain ⟨t, ht, h⟩ := Option.bind_eq_some_iff.1 h
    have hsigns := dropPrefix?_eq_some.1 ht
    rw [run_version] at h
    split at h
    · cases h
    · rename_i hversion
      cases h
      refine ⟨_, _, _, ⟨⟨?_, ?_⟩, ⟨hversion, all_takeWhile _ _⟩, ?_, ?_⟩, rfl⟩
      · simpa using hc
      · rw [List.all_cons, isReqNameChar_of_alphanum hc, all_takeWhile]
        rfl
      · exact (Option.all_eq_true _ _).2 fun d hd => by simp [head_dropWhile hd]
      · refine ⟨(cs.dropWhile isReqNameChar).takeWhile isSpace, t.takeWhile isSpace, ?_,
          all_takeWhile _ _, all_takeWhile _ _⟩
        have hrest : t.takeWhile isSpace ++ ((t.dropWhile isSpace).takeWhile isReqVersionChar ++
            (t.dropWhile isSpace).dropWhile isReqVersionChar) = t := by
          rw [List.takeWhile_append_dropWhile, List.takeWhile_append_dropWhile]
        rw [hrest]
        change _ = c :: (_ ++ (_ ++ (['=', '='] ++ t)))
        rw [← hsigns, List.takeWhile_append_dropWhile, List.takeWhile_append_dropWhile]

/-- Every pin is matched. -/
theorem PinLine.run (h : PinLine line name version rest) :
    run reqLine [] [] none line = some ⟨[name, version], rest⟩ := by
  obtain ⟨⟨hhead, hname⟩, ⟨hne, hversion⟩, hends, gap, gap', rfl, hgap, hgap'⟩ := h
  cases name with
  | nil => cases hhead
  | cons c cs =>
    have hc : c.isAlphanum = true := by simpa using hhead
    rw [List.all_cons, Bool.and_eq_true] at hname
    -- each part ends where the next one starts
    have hafterName : ∀ d, (gap ++ ('=' :: '=' :: (gap' ++ (version ++ rest)))).head? = some d →
        isReqNameChar d = false := by
      intro d hd
      cases gap with
      | nil =>
        cases hd
        rfl
      | cons e es =>
        cases hd
        rw [List.all_cons, Bool.and_eq_true] at hgap
        cases hd : isReqNameChar d with
        | false => rfl
        | true =>
          rw [isSpace_of_reqNameChar hd] at hgap
          cases hgap.1
    have hafterGap : ∀ d, ('=' :: '=' :: (gap' ++ (version ++ rest))).head? = some d →
        isSpace d = false := by
      intro d hd
      cases hd
      rfl
    have hafterGap' : ∀ d, (version ++ rest).head? = some d → isSpace d = false := by
      intro d hd
      cases version with
      | nil => exact absurd rfl hne
      | cons e es =>
        cases hd
        rw [List.all_cons, Bool.and_eq_true] at hversion
        exact isSpace_of_reqVersionChar hversion.1
    obtain ⟨htake, hdrop⟩ := span_stop hname.2 hafterName
    obtain ⟨-, hdropGap⟩ := span_stop hgap hafterGap
    obtain ⟨-, hdropGap'⟩ := span_stop hgap' hafterGap'
    obtain ⟨htakeVersion, hdropVersion⟩ := span_stop hversion fun d hd => hends.head hd
    have hsigns : ('=' :: '=' :: (gap' ++ (version ++ rest))).dropPrefix? ['=', '='] =
        some (gap' ++ (version ++ rest)) := dropPrefix?_eq_some.2 rfl
    rw [List.cons_append, run_reqLine hc, htake, hdrop, run_signs, hdropGap, hsigns,
      Option.bind_some, run_version, hdropGap', htakeVersion, hdropVersion, if_neg hne]

/-! ## A line of the file -/

/-- The line pins the version: it is indented or not, and what comes after the version does not
matter. -/
def Pinned (raw name version : List Char) : Prop :=
  ∃ indent line rest, raw = indent ++ line ∧ indent.all isSpace = true ∧
    PinLine line name version rest

theorem EndsVersion.of_prefix {rest' : List Char} (h : EndsVersion rest) (hp : rest' <+: rest) :
    EndsVersion rest' := by
  obtain ⟨s, rfl⟩ := hp
  cases rest' with
  | nil => rfl
  | cons c cs => exact h

theorem EndsVersion.append {s : List Char} (h : EndsVersion rest) (hs : EndsVersion s) :
    EndsVersion (rest ++ s) := by
  cases rest with
  | nil => exact hs
  | cons c cs => exact h

theorem endsVersion_of_space {b : List Char} (hb : b.all isSpace = true) : EndsVersion b := by
  cases b with
  | nil => rfl
  | cons c cs =>
    rw [List.all_cons, Bool.and_eq_true] at hb
    simp [EndsVersion, isReqVersionChar, hb.1]

theorem endsVersion_comment (raw : List Char) : EndsVersion (raw.dropWhile (· != '#')) := by
  refine (Option.all_eq_true _ _).2 fun c hc => ?_
  have hhash : (c != '#') = false := head_dropWhile (p := (· != '#')) hc
  rw [bne_eq_false_iff_eq.1 hhash]
  rfl

theorem not_comment {p : Char → Bool} {l : List Char} (hl : l.all p = true) (hp : p '#' = false) :
    ∀ c ∈ l, (c != '#') = true := by
  intro c hc
  rw [bne_iff_ne]
  rintro rfl
  rw [List.all_eq_true.1 hl _ hc] at hp
  cases hp

/-- What is left of a pin without the comment and the white space around it. -/
theorem Pinned.stripped (h : Pinned raw name version) :
    ∃ rest, PinLine (strip (raw.takeWhile (· != '#'))) name version rest := by
  obtain ⟨indent, _, rest, rfl, hindent, hname, hversion, hends, gap, gap', rfl, hgap, hgap'⟩ := h
  set core := name ++ (gap ++ ('=' :: '=' :: (gap' ++ version))) with hcore
  have hline : name ++ (gap ++ ('=' :: '=' :: (gap' ++ (version ++ rest)))) = core ++ rest := by
    simp [hcore]
  have hcomment : ∀ c ∈ core, (c != '#') = true := by
    intro c hc
    simp only [hcore, List.mem_append, List.mem_cons] at hc
    rcases hc with hc | hc | rfl | rfl | hc | hc
    · exact not_comment hname.2 rfl c hc
    · exact not_comment hgap rfl c hc
    · rfl
    · rfl
    · exact not_comment hgap' rfl c hc
    · exact not_comment hversion.2 rfl c hc
  have hne : core ≠ [] := by simp [hcore]
  have htrimmed : Trimmed core := by
    constructor
    · cases name with
      | nil => cases hname.1
      | cons c cs =>
        have hc : isSpace c = false := isSpace_of_alphanum (by simpa using hname.1)
        simp [hcore, hc]
    · obtain ⟨init, c, rfl⟩ := (List.eq_nil_or_concat' version).resolve_left hversion.1
      have hc : isSpace c = false :=
        isSpace_of_reqVersionChar (List.all_eq_true.1 hversion.2 c (by simp))
      have hlast : core = (name ++ (gap ++ ('=' :: '=' :: (gap' ++ init)))) ++ [c] := by simp [hcore]
      rw [hlast, List.getLast?_concat]
      simp [hc]
  have hcut : (indent ++ (core ++ rest)).takeWhile (· != '#') =
      indent ++ (core ++ rest.takeWhile (· != '#')) := by
    rw [List.takeWhile_append_of_pos (not_comment hindent rfl),
      List.takeWhile_append_of_pos hcomment]
  rw [hline, hcut, strip_append hindent hne htrimmed]
  set rest' := (rest.takeWhile (· != '#')).rdropWhile isSpace with hrest'
  have hprefix : rest' <+: rest := (List.rdropWhile_prefix _ _).trans (List.takeWhile_prefix _)
  exact ⟨rest', hname, hversion, hends.of_prefix hprefix, gap, gap', by simp [hcore], hgap, hgap'⟩

/-- **What a pin is.** -/
theorem readPin_iff {name version : String} :
    readPin raw = some (name, version) ↔ Pinned raw name.toList version.toList := by
  unfold readPin
  constructor
  · intro h
    dsimp only at h
    split at h
    · cases h
    · split at h
      · rename_i name' version' rest hrun
        obtain ⟨_, _, _, hpin, heq⟩ := pinLine_of_run hrun
        cases heq
        cases h
        obtain ⟨a, b, hstrip, ha, hb⟩ := strip_split (raw.takeWhile (· != '#'))
        set comment := raw.dropWhile (· != '#') with hcomment
        have hends : EndsVersion (rest ++ (b ++ comment)) :=
          hpin.ends.append ((endsVersion_of_space hb).append (endsVersion_comment raw))
        obtain ⟨hname, hversion, -, gap, gap', hwritten, hgap, hgap'⟩ := hpin
        refine ⟨a, strip (raw.takeWhile (· != '#')) ++ (b ++ comment), rest ++ (b ++ comment), ?_, ha,
          by simpa using hname, by simpa using hversion, hends, gap, gap', ?_, hgap, hgap'⟩
        · rw [← List.append_assoc, ← List.append_assoc, ← hstrip, List.takeWhile_append_dropWhile]
        · simp [hwritten]
      · cases h
  · intro h
    obtain ⟨rest, hpin⟩ := h.stripped
    have hrun := hpin.run
    have hhead : (strip (raw.takeWhile (· != '#'))).head? = name.toList.head? := by
      obtain ⟨hname, -, -, gap, gap', hwritten, -, -⟩ := hpin
      rw [hwritten, List.head?_append]
      cases hn : name.toList.head? with
      | none =>
        rw [IsReqName, hn] at hname
        cases hname.1
      | some c => rfl
    have hstart : name.toList.head?.any Char.isAlphanum = true := hpin.isName.1
    rw [← hhead] at hstart
    dsimp only
    rw [if_neg, hrun]
    · simp
    · rintro (hnil | hdash)
      · rw [hnil] at hstart
        cases hstart
      · rw [hdash] at hstart
        cases hstart

abbrev ReqName : Type := {name : String // IsReqName name.toList}

abbrev ReqVersion : Type := {version : String // IsReqVersion version.toList}

/-- The rest of a line. -/
abbrev LineText : Type := {text : String // OneLine text.toList}

/-- What comes after a version. -/
abbrev AfterVersion : Type := {text : String // OneLine text.toList ∧ EndsVersion text.toList}

/-- What comes after a name that is not pinned: the bracket of its extras, or another operator. -/
abbrev Sign : Type := {c : Char // isReqNameChar c = false ∧ isSpace c = false ∧ c ≠ '='}

/-- A line of a requirements file. -/
inductive ReqEntry
  | blank
  /-- `    # via flask` -/
  | comment (indent : ℕ) (text : LineText)
  /-- `-e file:.` -/
  | option (text : LineText)
  /-- `flask==2.3.3 ; python_version >= "3.9"` -/
  | pin (name : ReqName) (version : ReqVersion) (marker : AfterVersion)
  /-- `celery[redis]==5.2.2` or `flask>=2` -/
  | unpinned (name : ReqName) (sign : Sign) (text : LineText)

namespace ReqEntry

def written : ReqEntry → List Char
  | blank => []
  | comment indent text => List.replicate indent ' ' ++ '#' :: text.1.toList
  | option text => '-' :: text.1.toList
  | pin name version marker => name.1.toList ++ ('=' :: '=' :: (version.1.toList ++ marker.1.toList))
  | unpinned name sign text => name.1.toList ++ sign.1 :: text.1.toList

def pinOf : ReqEntry → Option (String × String)
  | pin name version _ => some (name, version)
  | _ => none

/-- The text of the file. -/
def render (entries : List ReqEntry) : String := String.ofList (unlines (entries.map written))

theorem oneLine_written (e : ReqEntry) : OneLine e.written := by
  have hname : ∀ name : ReqName, OneLine name.1.toList := fun name =>
    oneLine_of_all name.2.2 fun _ => isSpace_of_reqNameChar
  cases e with
  | blank => rfl
  | comment indent text =>
    refine oneLine_append.2 ⟨?_, text.2⟩
    exact List.all_eq_true.2 fun c hc => by rw [List.eq_of_mem_replicate hc]; rfl
  | option text => exact text.2
  | pin name version marker =>
    have hversion : OneLine version.1.toList :=
      oneLine_of_all version.2.2 fun _ => isSpace_of_reqVersionChar
    exact oneLine_append.2 ⟨hname name, oneLine_append.2 ⟨hversion, marker.2.1⟩⟩
  | unpinned name sign text =>
    have hsign : OneLine [sign.1] := oneLine_of_all (p := fun c => !isSpace c)
      (by simp [sign.2.2.1]) fun c hc => by simpa using hc
    exact oneLine_append.2 ⟨hname name, oneLine_append.2 ⟨hsign, text.2⟩⟩

end ReqEntry

theorem readPin_eq_none (h : ∀ name version, ¬Pinned raw name version) : readPin raw = none := by
  cases hread : readPin raw with
  | none => rfl
  | some p => exact absurd (readPin_iff.1 hread) (h _ _)

/-- A pin starts with its name, after the indentation. -/
theorem Pinned.dropWhile (h : Pinned raw name version) :
    ∃ rest, PinLine (raw.dropWhile isSpace) name version rest := by
  obtain ⟨indent, line, rest, rfl, hindent, hpin⟩ := h
  have hstart : ∀ c, line.head? = some c → isSpace c = false := by
    obtain ⟨hname, -, -, gap, gap', rfl, -, -⟩ := hpin
    intro c hc
    cases name with
    | nil => cases hname.1
    | cons d ds =>
      cases hc
      exact isSpace_of_alphanum (by simpa using hname.1)
  rw [(span_stop hindent hstart).2]
  exact ⟨rest, hpin⟩

theorem PinLine.head (h : PinLine line name version rest) :
    line.head?.any Char.isAlphanum = true := by
  obtain ⟨hname, -, -, gap, gap', rfl, -, -⟩ := h
  cases name with
  | nil => cases hname.1
  | cons c cs => exact hname.1

/-- What comes after the name is white space, or the first sign. -/
theorem PinLine.after (h : PinLine line name version rest) :
    ∃ c, (line.dropWhile isReqNameChar).head? = some c ∧ (isSpace c = true ∨ c = '=') := by
  obtain ⟨hname, -, -, gap, gap', rfl, hgap, -⟩ := h
  cases gap with
  | nil =>
    have hstop := (span_stop hname.2 (s := '=' :: '=' :: (gap' ++ (version ++ rest)))
      fun c hc => by cases hc; rfl).2
    rw [List.nil_append, hstop]
    exact ⟨'=', rfl, Or.inr rfl⟩
  | cons d ds =>
    rw [List.all_cons, Bool.and_eq_true] at hgap
    have hd : isReqNameChar d = false := by
      cases hd : isReqNameChar d with
      | false => rfl
      | true => exact absurd hgap.1 (by simp [isSpace_of_reqNameChar hd])
    have hstop := (span_stop hname.2 (s := d :: ds ++ '=' :: '=' :: (gap' ++ (version ++ rest)))
      fun c hc => by cases hc; exact hd).2
    rw [hstop]
    exact ⟨d, rfl, Or.inl hgap.1⟩

theorem readPin_written (e : ReqEntry) : readPin e.written = e.pinOf := by
  cases e with
  | pin name version marker =>
    refine readPin_iff.2 ⟨[], _, marker.1.toList, rfl, rfl, name.2, version.2, marker.2.2, [], [], ?_,
      rfl, rfl⟩
    rfl
  | blank => rfl
  | comment indent text =>
    refine readPin_eq_none fun name version h => ?_
    obtain ⟨rest, hpin⟩ := h.dropWhile
    have hindent : (List.replicate indent ' ').all isSpace = true :=
      List.all_eq_true.2 fun c hc => by rw [List.eq_of_mem_replicate hc]; rfl
    have hhead := hpin.head
    rw [ReqEntry.written, (span_stop hindent fun c hc => by cases hc; rfl).2] at hhead
    cases hhead
  | option text =>
    refine readPin_eq_none fun name version h => ?_
    obtain ⟨rest, hpin⟩ := h.dropWhile
    cases hpin.head
  | unpinned name sign text =>
    refine readPin_eq_none fun name' version h => ?_
    obtain ⟨rest, hpin⟩ := h.dropWhile
    have hspace : (ReqEntry.unpinned name sign text).written.dropWhile isSpace =
        name.1.toList ++ sign.1 :: text.1.toList := by
      have hname := name.2.1
      rw [ReqEntry.written]
      cases hn : name.1.toList with
      | nil =>
        rw [hn] at hname
        cases hname
      | cons c cs =>
        rw [hn] at hname
        have hc : isSpace c = false := isSpace_of_alphanum (by simpa using hname)
        exact List.dropWhile_cons_of_neg (by simp [hc])
    obtain ⟨c, hc, hafter⟩ := hpin.after
    rw [hspace, (span_stop name.2.2 fun c hc => by cases hc; exact sign.2.1).2] at hc
    cases hc
    rcases hafter with hsp | heq
    · rw [sign.2.2.1] at hsp
      cases hsp
    · exact sign.2.2.2 heq

example : parseRequirements
    "flask==2.3.3 ; python_version >= '3.9'\n    # via app\n-e file:.\ncelery[redis]==5.2.2\n" =
      [("flask", "2.3.3")] := by decide

end Remediation
