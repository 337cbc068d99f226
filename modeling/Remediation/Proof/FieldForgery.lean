import Remediation.Proof.Fields
import Remediation.Spec.FileIssues

/-!
# Issues that are filed and read back

`file_issue` writes a finding's five trusted fields and its summary into one text, and the
parser reads the fields out of it again, the last one of each name. The fields come back as
they were exactly when what `_FIELD` finds from the summary on sets none of them
differently (`trusted_fields_iff`). A summary of one line never does
(`unforged_of_one_line`); one with a line that looks like a field does
(`summary_forges_fix_version`).
-/

namespace Remediation

open PyText Regex

/-! ## One field line -/

def fieldLine (name value : List Char) : List Char :=
  '-' :: ' ' :: '*' :: '*' :: (name ++ ':' :: '*' :: '*' :: ' ' :: value)

variable {name value s : List Char} {prev : Option Char}

/-- After a value, the pattern takes the white space up to the end of the line. -/
theorem run_end (gs : List (List Char)) (hs : ∃ c ∈ s.head?, isSpace c = false) :
    run [.rep isSpace 0 true, .eol] [] gs prev ('\n' :: s) = some ⟨gs.reverse, '\n' :: s⟩ := by
  obtain ⟨c, hc, hsp⟩ := hs
  cases s with
  | nil => cases hc
  | cons d ds =>
    cases hc
    have hd : c ≠ '\n' := by rintro rfl; cases hsp
    simp [run, greedyLoop, show isSpace '\n' = true from rfl, hsp, atEol, hd]

/-- Inside a value it does not come to the end of a line. -/
theorem run_end_none (gs : List (List Char)) {l : List Char} (hne : l ≠ [])
    (hlast : isSpace (l.getLast hne) = false) (hl : '\n' ∉ l) :
    run [.rep isSpace 0 true, .eol] [] gs prev (l ++ s) = none := by
  refine greedyLoop_none hne hlast ?_
  intro prev' l₁ l₂ h hne'
  cases l₂ with
  | nil => exact absurd rfl hne'
  | cons c cs =>
    have hc : c ≠ '\n' := fun he => hl (by simp [h, he])
    simp [run, atEol, hc]

/-- The group of the value matches the value. -/
theorem run_value (gs : List (List Char)) (hne : value ≠ []) (ht : Trimmed value)
    (hl : '\n' ∉ value) (hs : ∃ c ∈ s.head?, isSpace c = false) :
    run [.opn, .rep (· != '\n') 1 false, .cls, .rep isSpace 0 true, .eol] [] gs prev
      (value ++ '\n' :: s) = some ⟨(value :: gs).reverse, '\n' :: s⟩ := by
  cases value with
  | nil => exact absurd rfl hne
  | cons c cs =>
    have hall : (c :: cs).all (· != '\n') = true :=
      List.all_eq_true.2 fun d hd => bne_iff_ne.2 fun he => hl (he ▸ hd)
    rw [List.all_cons, Bool.and_eq_true] at hall
    obtain ⟨hc, hcs⟩ := hall
    simp only [run, List.cons_append, lazyLoop, hc, if_true]
    refine lazyLoop_all hcs (fun l₁ l₂ h hne' => ?_) ?_
    · -- the rest of the value ends with a character that is no white space
      have hlast : isSpace (l₂.getLast hne') = false := by
        refine ht.getLast ?_
        rw [h, ← List.cons_append, List.getLast?_append, List.getLast?_eq_some_getLast hne']
        rfl
      exact run_end_none _ hne' hlast fun hmem => hl (by simp [h, hmem])
    · rw [← List.cons_append, take_group]
      exact run_end _ hs

/-- The marker of a field line. -/
theorem readMarker_fieldLine (hname : name ≠ []) (hn : name.all isFieldNameChar = true) :
    readMarker (fieldLine name value ++ s) = some ⟨[' '], name, ' ' :: (value ++ s)⟩ := by
  set u := name ++ ':' :: '*' :: '*' :: ' ' :: (value ++ s) with hu
  have htext : fieldLine name value ++ s = '-' :: ' ' :: '*' :: '*' :: u := by simp [fieldLine, hu]
  have hdash : List.dropPrefix? ('-' :: ' ' :: '*' :: '*' :: u) ['-'] =
      some (' ' :: '*' :: '*' :: u) := dropPrefix?_eq_some.2 rfl
  have hstars : List.dropPrefix? ((' ' :: '*' :: '*' :: u).dropWhile isSpace) ['*', '*'] =
      some u := dropPrefix?_eq_some.2 rfl
  rw [htext, readMarker, hdash, Option.bind_some, hstars, Option.bind_some, hu]
  -- the name ends at the colon
  rw [List.takeWhile_append_of_pos (List.all_eq_true.1 hn),
    List.dropWhile_append_of_pos (List.all_eq_true.1 hn),
    List.takeWhile_cons_of_neg (by decide), List.append_nil, if_neg hname]
  rfl

/-- **A field line matches**, from its start to its end. -/
theorem run_fieldLine (hprev : atBol prev = true) (hname : name ≠ [])
    (hn : name.all isFieldNameChar = true) (hne : value ≠ []) (ht : Trimmed value)
    (hl : '\n' ∉ value) (hs : ∃ c ∈ s.head?, isSpace c = false) :
    run fieldPattern [] [] prev (fieldLine name value ++ '\n' :: s) =
      some ⟨[name, value], '\n' :: s⟩ := by
  have hvalue : ∀ c ∈ (value ++ '\n' :: s).head?, isSpace c = false := by
    intro c hc
    refine ht.head ?_
    cases value with
    | nil => exact absurd rfl hne
    | cons d ds => exact hc
  have hdash : (fieldLine name value ++ '\n' :: s).dropWhile isSpace =
      fieldLine name value ++ '\n' :: s := rfl
  rw [run_fieldPattern, if_pos hprev, hdash, readMarker_fieldLine hname hn, Option.bind_some]
  exact greedyLoop_all (l := [' ']) (by decide) hvalue (run_value [name] hne ht hl hs)

theorem newline_not_mem_fieldLine (hn : name.all isFieldNameChar = true) (hl : '\n' ∉ value) :
    '\n' ∉ fieldLine name value := by
  have hname : '\n' ∉ name := fun h => by cases List.all_eq_true.1 hn _ h
  simp [fieldLine, hname, hl]

/-- A field line contributes its field, and the search goes on with the next line. -/
theorem finditer_fieldLine (hprev : atBol prev = true) (hname : name ≠ [])
    (hn : name.all isFieldNameChar = true) (hne : value ≠ []) (ht : Trimmed value)
    (hl : '\n' ∉ value) (hs : ∃ c ∈ s.head?, isSpace c = false) :
    finditer fieldPattern 0 prev (fieldLine name value ++ '\n' :: s) =
      [name, value] :: finditer fieldPattern 0 (some '\n') s := by
  have hrun := run_fieldLine hprev hname hn hne ht hl hs
  refine (finditer_match (l := (fieldLine name value).tail) hrun rfl).trans ?_
  refine congrArg ([name, value] :: ·) (finditer_newline (atBol_lastOf rfl ?_))
  intro h
  exact newline_not_mem_fieldLine hn hl (List.mem_of_mem_tail h)

/-! ## The lines of the trusted fields -/

/-- A field that comes back as it is written. -/
structure FieldOK (p : String × String) : Prop where
  name : p.1.toList ≠ [] ∧ Trimmed p.1.toList ∧ p.1.toList.all isFieldNameChar = true
  nonempty : p.2.toList ≠ []
  trimmed : Trimmed p.2.toList
  oneLine : '\n' ∉ p.2.toList

/-- Field lines, and then some text. -/
def fieldLines (fields : List (String × String)) (s : List Char) : List Char :=
  fields.foldr (fun p s => fieldLine p.1.toList p.2.toList ++ '\n' :: s) s

theorem finditer_fieldLines {fields : List (String × String)} (hf : ∀ p ∈ fields, FieldOK p)
    (hs : ∃ c ∈ s.head?, isSpace c = false) :
    finditer fieldPattern 0 (some '\n') (fieldLines fields s) =
      fields.map (fun p => [p.1.toList, p.2.toList]) ++ finditer fieldPattern 0 (some '\n') s := by
  induction fields with
  | nil => rfl
  | cons p fields ih =>
    have hp := hf p List.mem_cons_self
    have hhead : ∃ c ∈ (fieldLines fields s).head?, isSpace c = false := by
      cases fields with
      | nil => exact hs
      | cons q qs => exact ⟨'-', rfl, rfl⟩
    rw [List.map_cons, List.cons_append, ← ih fun q hq => hf q (List.mem_cons_of_mem _ hq)]
    exact finditer_fieldLine rfl hp.name.1 hp.name.2.2 hp.nonempty hp.trimmed hp.oneLine hhead

/-! ## The body -/

/-- The trusted fields, under the names that `file_issue` gives them. -/
def Finding.trusted (f : Finding) : List (String × String) :=
  [("CVE", f.cveId), ("Package", f.package), ("Installed", f.installedVersion),
   ("Fix version", f.fixVersion), ("Severity", f.severity)]

/-- The part of the body from the summary on. -/
def Finding.tail (f : Finding) : List Char := ['\n'].intercalate (f.tailLines.map String.toList)

theorem body_toList (f : Finding) :
    (fileIssue f).body.toList = "## Vulnerability".toList ++ '\n' :: fieldLines f.trusted f.tail := by
  rw [fileIssue, String.intercalate_append_of_ne_nil (by simp [Finding.headLines])
    (by simp [Finding.tailLines]), Finding.tail, String.toList_append, String.toList_intercalate]
  generalize f.tailLines = lines
  simp [Finding.headLines, String.intercalate_cons_cons, fieldLines, Finding.trusted, fieldLine]

/-- The five trusted fields are not empty, have no line break and no white space around. -/
def Finding.WellFormed (f : Finding) : Prop :=
  ∀ p ∈ f.trusted, p.2 ≠ "" ∧ Trimmed p.2.toList ∧ '\n' ∉ p.2.toList

instance (f : Finding) : Decidable f.WellFormed :=
  inferInstanceAs (Decidable (∀ p ∈ f.trusted, _))

theorem trusted_ok {f : Finding} (hf : f.WellFormed) : ∀ p ∈ f.trusted, FieldOK p := by
  intro p hp
  obtain ⟨hne, ht, hl⟩ := hf p hp
  have hnames : ∀ n ∈ ["CVE", "Package", "Installed", "Fix version", "Severity"],
      n.toList ≠ [] ∧ Trimmed n.toList ∧ n.toList.all isFieldNameChar = true := by decide
  exact ⟨hnames p.1 (List.mem_map.2 ⟨p, hp, rfl⟩), by simpa using hne, ht, hl⟩

theorem run_heading (s : List Char) : run fieldPattern [] [] prev ('#' :: s) = none := by
  rw [run_fieldPattern]
  exact ite_self none

/-- The heading contributes nothing. -/
theorem finditer_heading (s : List Char) :
    finditer fieldPattern 0 none ("## Vulnerability".toList ++ '\n' :: s) =
      finditer fieldPattern 0 (some '\n') s := by
  rw [show "## Vulnerability".toList = '#' :: "# Vulnerability".toList from by decide]
  refine (finditer_line (run_heading _) (by decide)).trans (finditer_newline ?_)
  exact atBol_lastOf rfl (by decide)

theorem head_tail (f : Finding) : ∃ c ∈ f.tail.head?, isSpace c = false := by
  refine ⟨'-', ?_, rfl⟩
  rw [Finding.tail, Finding.tailLines, List.map_cons, List.map_cons, List.intercalate_cons_cons]
  simp only [String.toList_append, List.append_assoc, List.head?_append]
  rfl

/-- What the parser looks a field up by. -/
def fieldKey (name : String) : String := String.ofList (lower name.toList)

/-- What the parser reads out of the body: the trusted fields, and then whatever it finds
from the summary on. -/
theorem fieldsOf_body {f : Finding} (hf : f.WellFormed) :
    fieldsOf (fileIssue f).body.toList =
      f.trusted.map (fun p => ((fieldKey p.1).toList, p.2.toList)) ++ fieldsOf f.tail := by
  have hfields : (f.trusted.map fun p => [p.1.toList, p.2.toList]).filterMap fieldOfGroups =
      f.trusted.map fun p => ((fieldKey p.1).toList, p.2.toList) := by
    rw [List.filterMap_map, ← List.filterMap_eq_map]
    refine List.filterMap_congr ?_
    intro p hp
    have hok := trusted_ok hf p hp
    simp [fieldOfGroups, fieldKey, strip_of_trimmed hok.name.2.1, strip_of_trimmed hok.trimmed]
  have hstart : atBol none = atBol (some '\n') := rfl
  rw [fieldsOf, body_toList, finditer_heading, finditer_fieldLines (trusted_ok hf) (head_tail f),
    List.filterMap_append, hfields, fieldsOf, finditer_congr hstart]

/-! ## The round trip -/

/-- What is found from the summary on sets no trusted field, or only to the value it has. -/
def Finding.Unforged (f : Finding) : Prop :=
  ∀ p ∈ f.trusted, ∀ v ∈ fieldGet (fieldsOf f.tail) (fieldKey p.1), v = p.2

instance (f : Finding) : Decidable f.Unforged :=
  inferInstanceAs (Decidable (∀ p ∈ f.trusted, ∀ v ∈ fieldGet (fieldsOf f.tail) (fieldKey p.1), _))

/-- The context has the trusted fields of the finding. -/
def CveContext.Carries (ctx : CveContext) (f : Finding) : Prop :=
  ctx.cveId = f.cveId ∧ ctx.package = f.package ∧ ctx.installedVersion = f.installedVersion ∧
    ctx.fixVersion = f.fixVersion ∧ ctx.severity = f.severity

/-- Of two texts, the later one decides. -/
theorem fieldGet_append (a b : List (List Char × List Char)) (name : String) :
    fieldGet (a ++ b) name = (fieldGet b name).or (fieldGet a name) := by
  simp [fieldGet, List.filter_append, List.getLast?_append, Option.map_or]

/-- Of fields with different keys, each is found under its own. -/
theorem fieldGet_of_nodup {fields : List (String × String)} {key : String → String}
    (hnd : (fields.map fun p => key p.1).Nodup) {p : String × String} (hp : p ∈ fields) :
    fieldGet (fields.map fun p => ((key p.1).toList, p.2.toList)) (key p.1) = some p.2 := by
  induction fields with
  | nil => cases hp
  | cons q qs ih =>
    rw [List.map_cons, List.nodup_cons] at hnd
    rw [List.map_cons, ← List.singleton_append, fieldGet_append]
    rcases List.mem_cons.1 hp with rfl | hp
    · have hnone : fieldGet (qs.map fun p => ((key p.1).toList, p.2.toList)) (key p.1) = none := by
        rw [fieldGet, List.filter_eq_nil_iff.2 ?_]
        · rfl
        · rintro _ hx hk
          obtain ⟨q, hq, rfl⟩ := List.mem_map.1 hx
          exact hnd.1 (List.mem_map.2 ⟨q, hq, String.toList_inj.1 (by simpa using hk)⟩)
      rw [hnone]
      simp [fieldGet]
    · rw [ih hnd.2 hp]
      rfl

theorem fieldGet_body {f : Finding} (hf : f.WellFormed) {p : String × String} (hp : p ∈ f.trusted) :
    fieldGet (fieldsOf (fileIssue f).body.toList) (fieldKey p.1) =
      (fieldGet (fieldsOf f.tail) (fieldKey p.1)).or (some p.2) := by
  have hkeys : (f.trusted.map fun p => fieldKey p.1).Nodup := by
    show (["CVE", "Package", "Installed", "Fix version", "Severity"].map fieldKey).Nodup
    decide
  rw [fieldsOf_body hf, fieldGet_append, fieldGet_of_nodup hkeys hp]

theorem eq_some_of_getD {o : Option String} {d v : String} (ho : o ≠ none) (h : o.getD d = v) :
    o = some v := by
  cases o with
  | none => exact absurd rfl ho
  | some x => exact congrArg some h

/-- The parser returns the trusted fields if it finds each of them, and not otherwise. -/
theorem parse_carries_iff {f : Finding} {issue : Issue} (hne : ∀ p ∈ f.trusted, p.2 ≠ "")
    (hsome : ∀ p ∈ f.trusted, fieldGet (fieldsOf (issue.body.getD "").toList) (fieldKey p.1) ≠ none) :
    (∃ ctx, parseIssueToCveContext issue = some ctx ∧ ctx.Carries f) ↔
      ∀ p ∈ f.trusted, fieldGet (fieldsOf (issue.body.getD "").toList) (fieldKey p.1) = some p.2 := by
  unfold parseIssueToCveContext CveContext.Carries
  generalize fieldsOf (issue.body.getD "").toList = fields at hsome ⊢
  simp only [Finding.trusted, List.forall_mem_cons, List.not_mem_nil, false_implies, implies_true,
    and_true, show fieldKey "CVE" = "cve" from by decide,
    show fieldKey "Package" = "package" from by decide,
    show fieldKey "Installed" = "installed" from by decide,
    show fieldKey "Fix version" = "fix version" from by decide,
    show fieldKey "Severity" = "severity" from by decide] at hne hsome ⊢
  obtain ⟨-, -, hi, hx, hv⟩ := hsome
  constructor
  · rintro ⟨ctx, hctx, h1, h2, h3, h4, h5⟩
    split at hctx
    · rename_i c p hc hp
      cases hctx
      exact ⟨h1 ▸ (truthy_eq_some.1 hc).1, h2 ▸ (truthy_eq_some.1 hp).1, eq_some_of_getD hi h3,
        eq_some_of_getD hx h4, eq_some_of_getD hv h5⟩
    · cases hctx
  · rintro ⟨h1, h2, h3, h4, h5⟩
    rw [truthy_eq_some.2 ⟨h1, hne.1⟩, truthy_eq_some.2 ⟨h2, hne.2.1⟩, h3, h4, h5]
    exact ⟨_, rfl, rfl, rfl, rfl, rfl, rfl⟩

/-- What is filed is read back if no trusted field is overwritten, and not otherwise. -/
theorem parse_body_iff {f : Finding} (hf : f.WellFormed) {issue : Issue}
    (hbody : issue.body = some (fileIssue f).body) :
    (∃ ctx, parseIssueToCveContext issue = some ctx ∧ ctx.Carries f) ↔
      ∀ p ∈ f.trusted, (fieldGet (fieldsOf f.tail) (fieldKey p.1)).or (some p.2) = some p.2 := by
  have hget : ∀ p ∈ f.trusted, fieldGet (fieldsOf (issue.body.getD "").toList) (fieldKey p.1) =
      (fieldGet (fieldsOf f.tail) (fieldKey p.1)).or (some p.2) := by
    intro p hp
    rw [hbody, Option.getD_some]
    exact fieldGet_body hf hp
  rw [parse_carries_iff (fun p hp => (hf p hp).1) fun p hp => ?_]
  · exact forall_congr' fun p => forall_congr' fun hp => by rw [hget p hp]
  · rw [hget p hp]
    cases fieldGet (fieldsOf f.tail) (fieldKey p.1) <;> simp

/-- **What is filed is read back exactly where the summary forges nothing.** -/
theorem trusted_fields_iff (f : Finding) (hf : f.WellFormed) (issue : Issue)
    (hbody : issue.body = some (fileIssue f).body) :
    (∃ ctx, parseIssueToCveContext issue = some ctx ∧ ctx.Carries f) ↔ f.Unforged := by
  rw [parse_body_iff hf hbody]
  refine forall_congr' fun p => forall_congr' ?_
  intro hp
  cases fieldGet (fieldsOf f.tail) (fieldKey p.1) <;> simp

/-! ## Summaries of one line -/

/-- The part of the body after the summary. -/
def Finding.footer (f : Finding) : List Char :=
  ['\n'].intercalate (f.tailLines.tail.map String.toList)

theorem tail_eq (f : Finding) :
    f.tail = fieldLine "Summary".toList f.summaryText.toList ++ '\n' :: f.footer := by
  rw [Finding.tail, Finding.footer, Finding.tailLines, List.tail_cons, List.map_cons, List.map_cons,
    List.intercalate_cons_cons]
  generalize List.intercalate _ _ = footer
  simp [fieldLine]

/-- A line on which no field starts: it is empty, or begins with something else than a dash,
or with two dashes. -/
def Inert (l : List Char) : Prop :=
  '\n' ∉ l ∧
    (l = [] ∨ l.head?.any (fun c => !isSpace c && c != '-') = true ∨ ['-', '-'] <+: l)

instance (l : List Char) : Decidable (Inert l) := inferInstanceAs (Decidable (_ ∧ (_ ∨ _ ∨ _)))

/-- A line break is passed over. -/
theorem run_blank (s : List Char) (h : run fieldPattern [] [] (some '\n') s = none) :
    run fieldPattern [] [] prev ('\n' :: s) = none := by
  rw [run_fieldPattern] at h ⊢
  split
  · exact h
  · rfl

/-- No field starts on an inert line, if none starts after it. -/
theorem finditer_inert {l : List Char} (hl : Inert l)
    (hs : s = [] ∨ ∃ t, s = '\n' :: t ∧ finditer fieldPattern 0 (some '\n') t = []) :
    finditer fieldPattern 0 prev (l ++ s) = [] := by
  obtain ⟨hnl, hl⟩ := hl
  cases l with
  | nil =>
    rcases hs with rfl | ⟨t, rfl, ht⟩
    · rfl
    refine (finditer_none (run_blank t ?_)).trans ht
    cases t with
    | nil => rfl
    | cons c cs => exact run_of_finditer ht
  | cons c cs =>
    have hrun : run fieldPattern [] [] prev (c :: (cs ++ s)) = none := by
      rcases hl with hl | hl | hl
      · cases hl
      · simp only [List.head?_cons, Option.any_some, Bool.and_eq_true, Bool.not_eq_true',
          bne_iff_ne] at hl
        simp [run_fieldPattern, readMarker, List.dropPrefix?, hl.1, hl.2]
      · obtain ⟨u, hu⟩ := hl
        cases hu
        rw [run_fieldPattern]
        exact ite_self none
    refine (finditer_line hrun hnl).trans ?_
    rcases hs with rfl | ⟨t, rfl, ht⟩
    · rfl
    · exact (finditer_newline (atBol_lastOf (atBol_of_ne hnl)
        fun h => hnl (List.mem_cons_of_mem _ h))).trans ht

theorem finditer_inertLines {ls : List (List Char)} (hl : ∀ l ∈ ls, Inert l) :
    finditer fieldPattern 0 (some '\n') (['\n'].intercalate ls) = [] := by
  induction ls with
  | nil => rfl
  | cons l ls ih =>
    have hl' := hl l List.mem_cons_self
    cases ls with
    | nil =>
      rw [List.intercalate_singleton, ← List.append_nil l]
      exact finditer_inert hl' (Or.inl rfl)
    | cons l' ls =>
      rw [List.intercalate_cons_cons, List.append_assoc]
      exact finditer_inert hl' (Or.inr ⟨_, rfl, ih fun l hm => hl l (List.mem_cons_of_mem _ hm)⟩)

theorem finditer_footer {f : Finding} (hl : '\n' ∉ f.cveId.toList) :
    finditer fieldPattern 0 (some '\n') f.footer = [] := by
  refine finditer_inertLines ?_
  have hurl : Inert ("https://osv.dev/vulnerability/" ++ f.cveId).toList := by
    have hbase : '\n' ∉ "https://osv.dev/vulnerability/".toList := by decide
    rw [String.toList_append]
    exact ⟨fun h => (List.mem_append.1 h).elim hbase hl, Or.inr (Or.inl rfl)⟩
  simp only [Finding.tailLines, List.tail_cons, List.map_cons, List.map_nil, List.forall_mem_cons]
  refine ⟨by decide, by decide, hurl, by decide, by decide, by decide, by decide, by decide, by decide,
    by decide, fun l hm => by cases hm⟩

/-- On the line of a field, the name that is read is the one that is written. -/
theorem run_name {m : Match} (hname : name ≠ []) (hn : name.all isFieldNameChar = true)
    (h : run fieldPattern [] [] prev (fieldLine name value ++ s) = some m) :
    ∃ v, m.groups = [name, v] := by
  obtain ⟨-, mk, hread, hrun⟩ := of_run_fieldPattern h
  have hdash : (fieldLine name value ++ s).dropWhile isSpace = fieldLine name value ++ s := rfl
  rw [hdash, readMarker_fieldLine hname hn] at hread
  cases hread
  obtain ⟨gap, v, space, hgroups, -⟩ := of_run_valuePattern hrun
  exact ⟨v, hgroups⟩

/-- **A summary of one line forges nothing**, whatever it says. -/
theorem unforged_of_one_line {f : Finding} (hf : f.WellFormed)
    (hs : '\n' ∉ f.summaryText.toList) : f.Unforged := by
  have hname : "Summary".toList.all isFieldNameChar = true := by decide
  -- nothing is found after the start of the summary line
  have hline : finditer fieldPattern 0 (some '-')
      ((fieldLine "Summary".toList f.summaryText.toList).tail ++ '\n' :: f.footer) = [] := by
    have hnl : '\n' ∉ (fieldLine "Summary".toList f.summaryText.toList).tail :=
      fun h => newline_not_mem_fieldLine hname hs (List.mem_of_mem_tail h)
    refine (finditer_inside_line rfl hnl).trans ((finditer_newline (atBol_lastOf rfl hnl)).trans ?_)
    exact finditer_footer (hf _ List.mem_cons_self).2.2
  have hkey : lower (strip "Summary".toList) = "summary".toList := by decide
  have hfields : ∀ x ∈ fieldsOf f.tail, x.1 = "summary".toList := by
    intro x hx
    obtain ⟨g, hg, hx⟩ := List.mem_filterMap.1 hx
    rw [tail_eq] at hg
    obtain ⟨m, hm, rfl⟩ := mem_finditer_cons hline hg
    obtain ⟨v, hv⟩ := run_name (by decide) hname hm
    rw [hv] at hx
    cases hx
    exact hkey
  intro p hp v hv
  obtain ⟨x, hx, -⟩ := Option.map_eq_some_iff.1 hv
  obtain ⟨hmem, hk⟩ := List.mem_filter.1 (List.mem_of_getLast? hx)
  have hkeys : ∀ n ∈ ["CVE", "Package", "Installed", "Fix version", "Severity"],
      (fieldKey n).toList ≠ "summary".toList := by decide
  refine absurd ?_ (hkeys p.1 (List.mem_map.2 ⟨p, hp, rfl⟩))
  rw [← hfields x hmem]
  simpa using (of_decide_eq_true hk).symm

/-! ## Two summaries of two lines -/

namespace Advisory

/-- A finding with some summary. -/
def finding (summary : String) : Finding where
  cveId := "CVE-2026-1"
  package := "flask"
  installedVersion := "2.3.3"
  fixVersion := "3.1.3"
  severity := "LOW"
  summary := some summary

/-- The issue that is filed for it. -/
def issue (summary : String) : Issue := { body := some (fileIssue (finding summary)).body }

theorem wellFormed (summary : String) : (finding summary).WellFormed := by
  show ∀ p ∈ (finding "").trusted, _
  decide +kernel

/-- The second line is a field that the parser does not use. -/
theorem other_field_is_harmless :
    ∃ ctx, parseIssueToCveContext (issue "Open redirect\n- **CVSS:** 6.1") = some ctx ∧
      ctx.Carries (finding "Open redirect\n- **CVSS:** 6.1") := by
  have hu : (finding "Open redirect\n- **CVSS:** 6.1").Unforged := by decide +kernel
  exact (trusted_fields_iff _ (wellFormed _) (issue "Open redirect\n- **CVSS:** 6.1") rfl).2 hu

/-- **A summary forges the fixed version**: the second line is read as the field. -/
theorem summary_forges_fix_version :
    (finding "Open redirect\n- **Fix version:** 3.1.4").WellFormed ∧
      ¬∃ ctx, parseIssueToCveContext (issue "Open redirect\n- **Fix version:** 3.1.4") = some ctx ∧
        ctx.Carries (finding "Open redirect\n- **Fix version:** 3.1.4") := by
  have hf := wellFormed "Open redirect\n- **Fix version:** 3.1.4"
  have hread : fieldGet (fieldsOf (finding "Open redirect\n- **Fix version:** 3.1.4").tail)
      (fieldKey "Fix version") = some "3.1.4" := by decide +kernel
  refine ⟨hf, ?_⟩
  intro hex
  have := (parse_body_iff hf rfl).1 hex ("Fix version", "3.1.3") (by decide)
  rw [hread] at this
  exact absurd this (by decide)

end Advisory

end Remediation
