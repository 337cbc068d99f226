import Remediation.Proof.Fields
import Remediation.Proof.Room

/-!
# Fields and lines

A field should be what follows its marker on the line of the marker. `_FIELD` looks for the
value past the end of the line, so a marker with nothing behind it takes the next text there
is, and the next marker with it. Every field of a text is on its line exactly if no marker is
broken like that (`lineLocal_iff`); then a required field that is blank is reported, and no
session is created (`line_local_iff`). Otherwise the session is created with a value that is
none (`blank_fix_version_accepted`).
-/

namespace Remediation

open Interaction Prog PyText Regex

/-! ## Lines -/

/-- What follows the marker on its line: nothing, if the marker itself is on two lines. -/
def Marker.lineValue (mk : Marker) : List Char :=
  if '\n' ∈ mk.lead then [] else strip (lineOf mk.after)

/-- Text follows the marker, but not on its line. -/
def Marker.Broken (mk : Marker) : Prop :=
  mk.after.all isSpace = false ∧ ('\n' ∈ mk.lead ∨ (lineOf mk.after).all isSpace = true)

instance (mk : Marker) : Decidable mk.Broken := inferInstanceAs (Decidable (_ ∧ (_ ∨ _)))

/-- The markers at the starts of the lines of a text. -/
def markers : Option Char → List Char → List Marker
  | _, [] => []
  | prev, c :: cs =>
    (if atBol prev then (readMarker ((c :: cs).dropWhile isSpace)).toList else []) ++
      markers (some c) cs

/-- No marker of the text is broken. -/
def Unbroken (text : List Char) : Prop := ∀ mk ∈ markers none text, ¬mk.Broken

instance (text : List Char) : Decidable (Unbroken text) :=
  inferInstanceAs (Decidable (∀ mk ∈ markers none text, _))

/-- The match, from its start on, sets a field to what is on the line of the marker. -/
def ReadOnLine (start : List Char) (m : Match) : Prop :=
  ∃ mk value, readMarker (start.dropWhile isSpace) = some mk ∧ m.groups = [mk.name, value] ∧
    strip value = mk.lineValue

/-- Every field that is set is set to what is on the line of its marker. -/
def LineLocal (text : List Char) : Prop :=
  ∀ start m, (start, m) ∈ spans fieldPattern 0 none text → ReadOnLine start m

variable {mk : Marker} {s : List Char} {prev : Option Char} {m : Match}

theorem newline_not_mem_gap (h : (lineOf s).all isSpace = false) : '\n' ∉ s.takeWhile isSpace := by
  induction s with
  | nil => exact List.not_mem_nil
  | cons c cs ih =>
    rw [List.takeWhile_cons]
    split
    · rename_i hc
      unfold lineOf at h
      rw [List.takeWhile_cons] at h
      split at h
      · rename_i hne
        rw [List.all_cons, hc, Bool.true_and] at h
        intro hmem
        rcases List.mem_cons.1 hmem with rfl | hmem
        · cases hne
        · exact ih h hmem
      · cases h
    · exact List.not_mem_nil

theorem strip_text_ne_nil (h : s.all isSpace = false) :
    strip (lineOf (s.dropWhile isSpace)) ≠ [] := by
  cases hd : s.dropWhile isSpace with
  | nil =>
    rw [dropWhile_isSpace_eq_nil, h] at hd
    cases hd
  | cons c cs =>
    have hc := isSpace_of_dropWhile hd
    have hne : (c != '\n') = true := by
      rw [bne_iff_ne]
      rintro rfl
      cases hc
    intro hnil
    unfold lineOf at hnil
    rw [strip_eq_nil, List.takeWhile_cons, if_pos hne, List.all_cons, hc] at hnil
    cases hnil

/-- Where there is text on the line, it is what comes first. -/
theorem strip_text_eq (h : (lineOf s).all isSpace = false) :
    strip (lineOf (s.dropWhile isSpace)) = strip (lineOf s) := by
  have hline : lineOf s = s.takeWhile isSpace ++ lineOf (s.dropWhile isSpace) := by
    rw [← lineOf_append (newline_not_mem_gap h), List.takeWhile_append_dropWhile]
  rw [hline, strip_space_append List.all_takeWhile]

/-- The value that is read is the one on the line, unless the marker is broken. -/
theorem strip_text_eq_lineValue :
    strip (lineOf (mk.after.dropWhile isSpace)) = mk.lineValue ↔ ¬mk.Broken := by
  unfold Marker.Broken Marker.lineValue
  cases htext : mk.after.all isSpace with
  | true =>
    -- nothing follows at all
    refine iff_of_true ?_ fun hb => by cases hb.1
    have hline : (lineOf mk.after).all isSpace = true := List.all_eq_true.2 fun c hc =>
      List.all_eq_true.1 htext c ((List.takeWhile_sublist _).subset hc)
    rw [dropWhile_isSpace_eq_nil.2 htext, strip_eq_nil.2 hline, ite_self]
    rfl
  | false =>
    have hne := strip_text_ne_nil htext
    by_cases hlead : '\n' ∈ mk.lead
    · rw [if_pos hlead]
      exact iff_of_false hne fun hb => hb ⟨rfl, Or.inl hlead⟩
    rw [if_neg hlead]
    cases hline : (lineOf mk.after).all isSpace with
    | true =>
      rw [strip_eq_nil.2 hline]
      exact iff_of_false hne fun hb => hb ⟨rfl, Or.inr rfl⟩
    | false =>
      exact iff_of_true (strip_text_eq hline) fun hb => hb.2.elim hlead fun h => by cases h

/-! ## Markers of a part of a text -/

theorem mem_markers_cons {c : Char} : mk ∈ markers prev (c :: s) ↔
    (atBol prev = true ∧ readMarker ((c :: s).dropWhile isSpace) = some mk) ∨
      mk ∈ markers (some c) s := by
  rw [markers, List.mem_append]
  refine or_congr_left ?_
  split
  · rename_i hp
    rw [Option.mem_toList, and_iff_right hp]
  · rename_i hp
    exact iff_of_false List.not_mem_nil fun h => hp h.1

theorem mem_markers_append {a b : List Char} (hbol : atBol (lastOf prev a) = true)
    (hread : readMarker (b.dropWhile isSpace) = some mk) : mk ∈ markers prev (a ++ b) := by
  induction a generalizing prev with
  | nil =>
    cases b with
    | nil => cases hread
    | cons c cs => exact mem_markers_cons.2 (Or.inl ⟨hbol, hread⟩)
  | cons c a ih => exact mem_markers_cons.2 (Or.inr (ih hbol))

/-- Inside a line no marker starts. -/
theorem mem_markers_line {l : List Char} (hprev : atBol prev = false) (hl : '\n' ∉ l)
    (h : mk ∈ markers prev (l ++ s)) : mk ∈ markers (lastOf prev l) s := by
  induction l generalizing prev with
  | nil => exact h
  | cons c cs ih =>
    rcases mem_markers_cons.1 h with ⟨hp, -⟩ | h
    · rw [hprev] at hp
      cases hp
    · exact ih (atBol_of_ne hl) (fun hmem => hl (List.mem_cons_of_mem _ hmem)) h

/-- Inside white space it is the marker after it. -/
theorem mem_markers_space {l : List Char} (hl : l.all isSpace = true)
    (h : mk ∈ markers prev (l ++ s)) :
    readMarker (s.dropWhile isSpace) = some mk ∨ mk ∈ markers (lastOf prev l) s := by
  induction l generalizing prev with
  | nil => exact Or.inr h
  | cons c cs ih =>
    rcases mem_markers_cons.1 h with ⟨-, hread⟩ | h
    · have hdrop : (c :: cs ++ s).dropWhile isSpace = s.dropWhile isSpace :=
        List.dropWhile_append_of_pos (List.all_eq_true.1 hl)
      exact Or.inl (hdrop ▸ hread)
    · rw [List.all_cons, Bool.and_eq_true] at hl
      exact ih hl.2 h

/-! ## Matches and markers -/

/-- What a match has read after an unbroken marker: the rest of a line, and white space. -/
theorem covers_of_run (h : run valuePattern [] [mk.name] prev mk.after = some m)
    (hb : ¬mk.Broken) :
    ∃ line space, mk.after = line ++ (space ++ m.rest) ∧ '\n' ∉ line ∧
      space.all isSpace = true ∧ atEol m.rest = true := by
  obtain ⟨gap, value, space, -, hread, -, hgap⟩ := of_run_valuePattern h
  cases htext : mk.after.all isSpace with
  | true =>
    have hspace := htext
    rw [hread.text] at hspace
    simp only [List.all_append, Bool.and_eq_true] at hspace
    refine ⟨[], gap ++ (value ++ space), ?_, List.not_mem_nil, ?_, hread.rest_eol⟩
    · rw [hread.text]
      simp
    · simp [List.all_append, hspace]
  | false =>
    have hline : (lineOf mk.after).all isSpace = false := by
      cases hl : (lineOf mk.after).all isSpace with
      | true => exact absurd ⟨htext, Or.inr hl⟩ hb
      | false => rfl
    refine ⟨gap ++ value, space, ?_, ?_, hread.space_space, hread.rest_eol⟩
    · rw [List.append_assoc]
      exact hread.text
    · rw [hgap htext, List.mem_append]
      rintro (hmem | hmem)
      · exact newline_not_mem_gap hline hmem
      · exact hread.value_line hmem

/-- A text from the start of a match on: the marker `own`, the rest of a line, white space to
the end of a line, and what comes after the match. -/
structure Covers (own : Marker) (s before line space rest : List Char) : Prop where
  text : s = before ++ '-' :: (own.lead ++ '*' :: (line ++ (space ++ rest)))
  before_space : before.all isSpace = true
  lead_space : own.lead.all isSpace = true
  line_line : '\n' ∉ line
  space_space : space.all isSpace = true
  rest_eol : atEol rest = true
  own_read : readMarker (s.dropWhile isSpace) = some own

theorem covers_of_match {own : Marker} (h : run fieldPattern [] [] prev s = some m)
    (hown : readMarker (s.dropWhile isSpace) = some own) (hb : ¬own.Broken) :
    ∃ before line space, Covers own s before line space m.rest := by
  obtain ⟨-, mk, hread, hrun⟩ := of_run_fieldPattern h
  rw [hown] at hread
  cases hread
  obtain ⟨line, space, hafter, hline, hspace, heol⟩ := covers_of_run hrun hb
  obtain ⟨hd, hlead, hname⟩ := readMarker_eq_some hown
  refine ⟨s.takeWhile isSpace, '*' :: (own.name ++ ':' :: '*' :: '*' :: line), space,
    ⟨?_, List.all_takeWhile, hlead, ?_, hspace, heol, hown⟩⟩
  · calc s
      _ = s.takeWhile isSpace ++ s.dropWhile isSpace := List.takeWhile_append_dropWhile.symm
      _ = _ := by
        rw [hd, hafter]
        simp
  · have hname' : '\n' ∉ own.name := fun hmem => by
      cases List.all_eq_true.1 hname _ hmem
    simp [hname', hline]

/-- The markers of that text: that of the match, and those after it. -/
theorem Covers.markers {own : Marker} {before line space rest : List Char}
    (h : Covers own s before line space rest) (hmk : mk ∈ markers prev s) :
    mk = own ∨ mk ∈ Remediation.markers
      (lastOf prev (before ++ '-' :: (own.lead ++ '*' :: (line ++ space)))) rest := by
  have hdash : s.dropWhile isSpace = '-' :: (own.lead ++ '*' :: (line ++ (space ++ rest))) := by
    rw [h.text, List.dropWhile_append_of_pos (List.all_eq_true.1 h.before_space)]
    rfl
  have hsame : readMarker ('-' :: (own.lead ++ '*' :: (line ++ (space ++ rest)))) = some mk →
      mk = own := by
    intro hread
    rw [← hdash, h.own_read] at hread
    exact (Option.some.inj hread).symm
  rw [h.text] at hmk
  -- up to the dash it is the marker of the match
  rcases mem_markers_space h.before_space hmk with hread | hmk
  · exact Or.inl (hsame hread)
  rcases mem_markers_cons.1 hmk with ⟨-, hread⟩ | hmk
  · exact Or.inl (hsame hread)
  -- after it no marker starts until the end of the line
  rcases mem_markers_space h.lead_space hmk with hread | hmk
  · cases hread
  rcases mem_markers_cons.1 hmk with ⟨-, hread⟩ | hmk
  · cases hread
  have hmk := mem_markers_line rfl h.line_line hmk
  rw [lastOf_append, lastOf_cons, lastOf_append, lastOf_cons, lastOf_append]
  rcases mem_markers_space h.space_space hmk with hread | hmk
  · -- the next one is on the next line
    have heol := h.rest_eol
    cases rest with
    | nil => cases hread
    | cons c cs =>
      obtain rfl : c = '\n' := by simpa [atEol] using heol
      exact Or.inr (mem_markers_cons.2 (Or.inr (mem_markers_append (a := []) rfl hread)))
  · exact Or.inr hmk

/-! ## Every field on its line -/

theorem readOnLine_of_run (h : run fieldPattern [] [] prev s = some m)
    (hown : readMarker (s.dropWhile isSpace) = some mk) : ReadOnLine s m ↔ ¬mk.Broken := by
  obtain ⟨-, mk', hread, hrun⟩ := of_run_fieldPattern h
  rw [hown] at hread
  cases hread
  obtain ⟨gap, value, space, hgroups, -, hvalue, -⟩ := of_run_valuePattern hrun
  rw [← strip_text_eq_lineValue, ← hvalue]
  constructor
  · rintro ⟨mk', value', hread, hgroups', hval⟩
    rw [hown] at hread
    cases hread
    rw [hgroups] at hgroups'
    cases hgroups'
    exact hval
  · intro hval
    exact ⟨mk, value, hown, hgroups, hval⟩

/-- Where a marker is broken, there is a match for it. -/
theorem isSome_of_broken (hprev : atBol prev = true)
    (hread : readMarker (s.dropWhile isSpace) = some mk) (hb : mk.Broken) :
    (run fieldPattern [] [] prev s).isSome = true := by
  rw [run_fieldPattern, if_pos hprev, hread, Option.bind_some]
  cases hd : mk.after.dropWhile isSpace with
  | nil =>
    rw [dropWhile_isSpace_eq_nil, hb.1] at hd
    cases hd
  | cons c cs =>
    obtain ⟨m, hm, -⟩ := run_valuePattern mk.name (some '*') hd
    rw [hm]
    rfl

theorem not_broken_of_local (hlocal : ∀ start m, (start, m) ∈ spans fieldPattern 0 prev s →
    ReadOnLine start m) : ∀ mk ∈ markers prev s, ¬mk.Broken := by
  induction hn : s.length using Nat.strong_induction_on generalizing prev s with
  | _ n ih =>
  cases s with
  | nil => exact fun mk hmk => by cases hmk
  | cons c cs =>
    cases hrun : run fieldPattern [] [] prev (c :: cs) with
    | none =>
      rw [spans_none hrun] at hlocal
      intro mk hmk hb
      rcases mem_markers_cons.1 hmk with ⟨hprev, hread⟩ | hmk
      · have hsome := isSome_of_broken hprev hread hb
        rw [hrun] at hsome
        cases hsome
      · exact ih cs.length (by simp [← hn]) hlocal rfl mk hmk hb
    | some m =>
      obtain ⟨hprev, own, hown, -⟩ := of_run_fieldPattern hrun
      have hfirst : (c :: cs, m) ∈ spans fieldPattern 0 prev (c :: cs) := by
        rw [spans, hrun]
        exact List.mem_cons_self
      have hb := (readOnLine_of_run hrun hown).1 (hlocal _ _ hfirst)
      obtain ⟨before, line, space, hcovers⟩ := covers_of_match hrun hown hb
      intro mk hmk
      rcases hcovers.markers hmk with rfl | hmk
      · exact hb
      · -- the search goes on with the rest
        set l := before ++ '-' :: (own.lead ++ '*' :: (line ++ space)) with hl
        have hne : l ≠ [] := by simp [hl]
        have htext : c :: cs = l ++ m.rest := by
          rw [hcovers.text, hl]
          simp
        have hlen : m.rest.length < n := by
          have hpos := List.length_pos_iff.2 hne
          rw [← hn, htext, List.length_append]
          omega
        rw [htext] at hlocal hrun
        rw [spans_match hne hrun rfl] at hlocal
        exact ih _ hlen (fun start m' h => hlocal start m' (List.mem_cons_of_mem _ h)) rfl mk hmk

/-- **Fields and lines.** -/
theorem lineLocal_iff (text : List Char) : LineLocal text ↔ Unbroken text := by
  refine ⟨not_broken_of_local, fun hb start m hm => ?_⟩
  obtain ⟨a, rfl, hrun⟩ := mem_spans hm
  obtain ⟨hbol, mk, hread, -⟩ := of_run_fieldPattern hrun
  exact (readOnLine_of_run hrun hread).2 (hb mk (mem_markers_append hbol hread))

/-! ## Blank fields -/

/-- On each line with a marker of the field, the value is blank. -/
def BlankLines (text : List Char) (key : String) : Prop :=
  ∀ mk ∈ markers none text, lower (strip mk.name) = key.toList → mk.lineValue = []

instance (text : List Char) (key : String) : Decidable (BlankLines text key) :=
  inferInstanceAs (Decidable (∀ mk ∈ markers none text, _ → _))

/-- Issues no POST to Devin, whatever the answers are. -/
def noCreation : Contract Ans where
  pre _ op := op.creates = none
  post _ _ _ := True

/-- A version that is blank on each of its lines is reported as missing, if it is a CVE issue at
all, and no session is created for the issue. -/
def BlankReported (issue : Issue) : Prop :=
  ∀ field ∈ [("fix version", "fix_version"), ("installed", "installed_version")],
    BlankLines (issue.body.getD "").toList field.1 →
      (∀ ctx, parseIssueToCveContext issue = some ctx → field.2 ∈ ctx.missingRequiredFields) ∧
        ∀ S, (handleSecurityIssue S issue).Keeps noCreation (fun _ _ => True) []

theorem fieldGet_of_blankLines {text : List Char} {key : String} (hlocal : LineLocal text)
    (hblank : BlankLines text key) : (fieldGet (fieldsOf text) key).getD "" = "" := by
  cases hget : fieldGet (fieldsOf text) key with
  | none => rfl
  | some v =>
    obtain ⟨x, hx, rfl⟩ := Option.map_eq_some_iff.1 hget
    obtain ⟨hmem, hkey⟩ := List.mem_filter.1 (List.mem_of_getLast? hx)
    rw [decide_eq_true_iff] at hkey
    -- the field comes from a match, and so from a marker
    unfold fieldsOf at hmem
    rw [finditer_eq_spans, List.filterMap_map, List.mem_filterMap] at hmem
    obtain ⟨⟨start, m⟩, hm, hfield⟩ := hmem
    obtain ⟨mk, value, hread, hgroups, hvalue⟩ := hlocal start m hm
    rw [Function.comp_apply, hgroups] at hfield
    cases hfield
    obtain ⟨a, rfl, hrun⟩ := mem_spans hm
    have hmk := mem_markers_append (of_run_fieldPattern hrun).1 hread
    rw [Option.getD_some, hvalue, hblank mk hmk hkey]

/-- An issue with a missing field creates nothing. -/
theorem noCreation_handleSecurityIssue {issue : Issue} (hmissing : ∀ ctx,
    parseIssueToCveContext issue = some ctx → ctx.missingRequiredFields ≠ []) (S : Settings) :
    (handleSecurityIssue S issue).Keeps noCreation (fun _ _ => True) [] := by
  unfold handleSecurityIssue
  simp only [perform, bind_eq, call_bind, ret_bind]
  refine ⟨rfl, fun active _ => ?_⟩
  dsimp only
  split
  · trivial
  refine ⟨rfl, fun today _ => ?_⟩
  dsimp only
  split
  · trivial
  refine ⟨rfl, fun reserved _ => ?_⟩
  dsimp only
  split
  · trivial
  unfold remediate
  cases hparse : parseIssueToCveContext issue with
  | none => exact ⟨rfl, fun _ _ => ⟨rfl, fun _ _ => trivial⟩⟩
  | some ctx =>
    dsimp only
    rw [if_pos (hmissing ctx hparse)]
    exact ⟨rfl, fun _ _ => ⟨rfl, fun _ _ => trivial⟩⟩

theorem missing_of_blank {issue : Issue} (hlocal : LineLocal (issue.body.getD "").toList)
    {ctx : CveContext} (hparse : parseIssueToCveContext issue = some ctx) :
    ∀ field ∈ [("fix version", "fix_version"), ("installed", "installed_version")],
      BlankLines (issue.body.getD "").toList field.1 → field.2 ∈ ctx.missingRequiredFields := by
  have hplaceholder : isPlaceholder "" = true := by decide
  unfold parseIssueToCveContext at hparse
  dsimp only at hparse
  split at hparse
  swap
  · cases hparse
  cases hparse
  simp only [List.forall_mem_cons, List.not_mem_nil, false_implies, implies_true, and_true]
  constructor
  · intro hblank
    simp [CveContext.missingRequiredFields, fieldGet_of_blankLines hlocal hblank, hplaceholder]
  · intro hblank
    simp [CveContext.missingRequiredFields, fieldGet_of_blankLines hlocal hblank, hplaceholder]

/-- **Field values are line-local, and blank versions are reported,** for exactly the bodies in
which no marker is broken. -/
theorem line_local_iff (issue : Issue) :
    (LineLocal (issue.body.getD "").toList ∧ BlankReported issue) ↔
      Unbroken (issue.body.getD "").toList := by
  rw [← lineLocal_iff]
  refine and_iff_left_of_imp fun hlocal field hfield hblank => ?_
  have hmissing := fun ctx (hparse : parseIssueToCveContext issue = some ctx) =>
    missing_of_blank hlocal hparse field hfield hblank
  exact ⟨hmissing, noCreation_handleSecurityIssue fun ctx hparse =>
    List.ne_nil_of_mem (hmissing ctx hparse)⟩

namespace BlankFix

/-- The value of the fixed version is blank. -/
def issue : Issue :=
  { Issue.sample 1 with
    body := some ("- **CVE:** CVE-1\n- **Package:** p\n- **Installed:** 1\n" ++
      "- **Fix version:** \n- **Severity:** LOW\n") }

/-- **A blank version is accepted**: the next line is taken for it, and a session is created. -/
theorem blank_fix_version_accepted :
    ¬LineLocal (issue.body.getD "").toList ∧ ¬BlankReported issue ∧
      (parseIssueToCveContext issue).map (fun ctx => (ctx.fixVersion, ctx.missingRequiredFields)) =
        some ("- **Severity:** LOW", []) ∧
      ((handleSecurityIssue {} issue).eval (exec .calm) (.initial 0)).1 = .created "devin-4" := by
  have hread : (parseIssueToCveContext issue).map (fun ctx =>
      (ctx.fixVersion, ctx.missingRequiredFields)) = some ("- **Severity:** LOW", []) := by
    decide +kernel
  refine ⟨?_, fun hreported => ?_, hread, by decide +kernel⟩
  · rw [lineLocal_iff]
    decide +kernel
  · obtain ⟨ctx, hctx, hfields⟩ := Option.map_eq_some_iff.1 hread
    have hmem := (hreported _ List.mem_cons_self (by decide +kernel)).1 ctx hctx
    rw [(Prod.mk.inj hfields).2] at hmem
    cases hmem

end BlankFix

end Remediation
