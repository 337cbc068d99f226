import Remediation.Spec.FileIssues
import Remediation.Spec.Settings

/-!
# Issues that are filed once

A run of `file_issues.py` goes through the ids of a scan. Each turn looks an id up among the issues
of the repository and files an issue for it if none is found. The look-up asks whether a title
contains the id, and not whether it names it, and an id may be a part of another one
(`ten_hides_one`). `filed_once_iff` says when a run is complete and idempotent all the same.
-/

namespace Remediation

open PyText

namespace Filing

/-! ## Titles -/

/-- What an identifier is written in. -/
def isIdChar (c : Char) : Bool := c.isAlphanum || c == '-' || c == '_'

/-- The title has the id as a whole identifier: it does not go on before it or after it. -/
def Names (cveId title : String) : Prop :=
  ∃ before after : List Char, title.toList = before ++ cveId.toList ++ after ∧
    (∀ c ∈ before.getLast?, isIdChar c = false) ∧ ∀ c ∈ after.head?, isIdChar c = false

/-- The id is here, as a whole: `prev` is the character before it. -/
def isWholeAt (cveId : List Char) (prev : Option Char) (s : List Char) : Bool :=
  cveId.isPrefixOf s && prev.all (!isIdChar ·) && (s.drop cveId.length).head?.all (!isIdChar ·)

/-- The id is here or in what follows, as a whole. -/
def findsWhole (cveId : List Char) (prev : Option Char) : List Char → Bool
  | [] => isWholeAt cveId prev []
  | c :: cs => isWholeAt cveId prev (c :: cs) || findsWhole cveId (some c) cs

theorem isWholeAt_iff (cveId : List Char) (prev : Option Char) (s : List Char) :
    isWholeAt cveId prev s = true ↔ ∃ after, s = cveId ++ after ∧
      (∀ c ∈ prev, isIdChar c = false) ∧ ∀ c ∈ after.head?, isIdChar c = false := by
  have hall : ∀ o : Option Char, o.all (!isIdChar ·) = true ↔ ∀ c ∈ o, isIdChar c = false := by
    intro o
    cases o <;> simp
  rw [isWholeAt, Bool.and_eq_true, Bool.and_eq_true, hall, hall, List.isPrefixOf_iff_prefix]
  constructor
  · rintro ⟨⟨⟨after, rfl⟩, hprev⟩, hafter⟩
    rw [List.drop_left] at hafter
    exact ⟨after, rfl, hprev, hafter⟩
  · rintro ⟨after, rfl, hprev, hafter⟩
    rw [List.drop_left]
    exact ⟨⟨⟨after, rfl⟩, hprev⟩, hafter⟩

theorem findsWhole_iff (cveId : List Char) (prev : Option Char) (s : List Char) :
    findsWhole cveId prev s = true ↔ ∃ before after : List Char, s = before ++ cveId ++ after ∧
      (∀ c ∈ before.getLast?.or prev, isIdChar c = false) ∧
      ∀ c ∈ after.head?, isIdChar c = false := by
  induction s generalizing prev with
  | nil =>
    rw [findsWhole, isWholeAt_iff]
    constructor
    · rintro ⟨after, hs, hprev, hafter⟩
      exact ⟨[], after, hs, hprev, hafter⟩
    · rintro ⟨before, after, hs, hprev, hafter⟩
      obtain ⟨hbefore, rfl⟩ := List.append_eq_nil_iff.1 hs.symm
      obtain ⟨rfl, rfl⟩ := List.append_eq_nil_iff.1 hbefore
      exact ⟨[], rfl, hprev, hafter⟩
  | cons c cs ih =>
    have hlast : ∀ before : List Char,
        (c :: before).getLast?.or prev = before.getLast?.or (some c) := by
      intro before
      rw [List.getLast?_cons]
      cases before.getLast? with
      | none => rfl
      | some d => rfl
    rw [findsWhole, Bool.or_eq_true, isWholeAt_iff, ih]
    constructor
    · rintro (⟨after, hs, hprev, hafter⟩ | ⟨before, after, hs, hprev, hafter⟩)
      · exact ⟨[], after, hs, hprev, hafter⟩
      · rw [← hlast before] at hprev
        exact ⟨c :: before, after, congrArg (c :: ·) hs, hprev, hafter⟩
    · rintro ⟨before, after, hs, hprev, hafter⟩
      cases before with
      | nil => exact Or.inl ⟨after, hs, hprev, hafter⟩
      | cons d before =>
        obtain ⟨rfl, hcs⟩ := List.cons.inj hs
        rw [hlast before] at hprev
        exact Or.inr ⟨before, after, hcs, hprev, hafter⟩

instance (cveId title : String) : Decidable (Names cveId title) :=
  decidable_of_iff (findsWhole cveId.toList none title.toList = true) <| by
    rw [findsWhole_iff, Names]
    simp only [Option.or_none]

theorem Names.contains {cveId title : String} (h : Names cveId title) :
    isIn cveId title = true := by
  obtain ⟨before, after, htitle, -, -⟩ := h
  exact decide_eq_true ⟨before, after, htitle.symm⟩

/-- The title of an issue that is filed names its id: it is in parentheses. -/
theorem names_fileIssue (f : Finding) : Names f.cveId (fileIssue f).title := by
  set head := "[CVE] " ++ f.package ++ " " ++ f.installedVersion ++ " → " ++ f.fixVersion with hhead
  have htitle : (fileIssue f).title = head ++ " (" ++ f.cveId ++ ")" := rfl
  have hopen : " (".toList = [' ', '('] := rfl
  refine ⟨head.toList ++ [' ', '('], [')'], ?_, ?_, ?_⟩
  · rw [htitle, String.toList_append, String.toList_append, String.toList_append, hopen]
    rfl
  · intro c hc
    rw [List.getLast?_append] at hc
    cases hc
    decide
  · intro c hc
    cases hc
    decide

/-! ## What is assumed of `gh` -/

/-- No call fails, and `issue list` returns every issue with the gate label whose title contains
the id. It may return others as well. -/
structure Works (gh : Gh) : Prop where
  listed : ∀ issues cveId, ∃ rows, gh.issueList issues cveId = some rows ∧
    ∀ i ∈ issues, gateLabel ∈ i.labels → isIn cveId i.title = true → i ∈ rows
  created : ∀ issues n, ∃ url, gh.issueCreate issues n = some url

/-- Some issue names the id. -/
def Named (cveId : String) (issues : List RepoIssue) : Prop :=
  ∃ i ∈ issues, Names cveId i.title

/-- Some issue with the gate label contains the id, so that it must be found. -/
def Covered (cveId : String) (issues : List RepoIssue) : Prop :=
  ∃ i ∈ issues, gateLabel ∈ i.labels ∧ isIn cveId i.title = true

/-- The id is found. -/
def Found (gh : Gh) (cveId : String) (issues : List RepoIssue) : Prop :=
  ∃ url, existingIssueFor gh issues cveId = some url

variable {gh : Gh} {s : Filing} {issues : List RepoIssue} {cveId : String} {f : Finding}

theorem gateLabel_mem_created (f : Finding) (url : IssueUrl) :
    gateLabel ∈ ((fileIssue f).created url).labels := by
  simp only [NewIssue.created, fileIssue]
  decide

theorem found_of_covered (hgh : Works gh) (h : Covered cveId issues) : Found gh cveId issues := by
  obtain ⟨i, hi, hlabel, htitle⟩ := h
  obtain ⟨rows, hrows, hall⟩ := hgh.listed issues cveId
  have hsome : (rows.find? fun r => isIn cveId r.title).isSome = true :=
    List.find?_isSome.2 ⟨i, hall i hi hlabel htitle, htitle⟩
  obtain ⟨r, hr⟩ := Option.isSome_iff_exists.1 hsome
  refine ⟨r.url, ?_⟩
  rw [existingIssueFor, hrows]
  simp only [hr, Option.map_some]

/-! ## One turn -/

theorem next_of_found (h : Found gh f.cveId s.issues) :
    (s.next gh f).issues = s.issues ∧ (s.next gh f).filed = s.filed := by
  obtain ⟨url, hurl⟩ := h
  rw [next, hurl]
  exact ⟨rfl, rfl⟩

theorem next_of_not_found (hgh : Works gh) (h : ¬Found gh f.cveId s.issues) :
    ∃ url, (s.next gh f).issues = s.issues ++ [(fileIssue f).created url] ∧
      (s.next gh f).filed = s.filed ++ [(f.cveId, url)] := by
  have hnone : existingIssueFor gh s.issues f.cveId = none :=
    Option.eq_none_iff_forall_ne_some.2 fun url hurl => h ⟨url, hurl⟩
  obtain ⟨url, hurl⟩ := hgh.created s.issues (fileIssue f)
  refine ⟨url, ?_⟩
  rw [next, hnone]
  simp only [hurl, and_self]

/-! ## A run -/

/-- The turns of a run: the state before the turn and the finding. -/
def turns (gh : Gh) (s : Filing) : List Finding → List (Filing × Finding)
  | [] => []
  | f :: fs => (s, f) :: turns gh (s.next gh f) fs

/-- In the turn the id is found. -/
def Skips (gh : Gh) (t : Filing × Finding) : Prop := Found gh t.2.cveId t.1.issues

variable {fs : List Finding}

/-- Every turn is one of the run: what comes after it is the run from there. -/
theorem turns_suffix {t : Filing × Finding} {later : List (Filing × Finding)}
    (h : t :: later <:+ turns gh s fs) :
    ∃ fs', t :: later = turns gh t.1 (t.2 :: fs') ∧
      (t.2 :: fs').foldl (Filing.next gh) t.1 = fs.foldl (Filing.next gh) s ∧
      ∃ before, before.foldl (Filing.next gh) s = t.1 ∧ fs = before ++ t.2 :: fs' := by
  induction fs generalizing s with
  | nil =>
    rw [turns, List.suffix_nil] at h
    cases h
  | cons f fs ih =>
    rw [turns, List.suffix_cons_iff] at h
    rcases h with heq | hrest
    · cases heq
      exact ⟨fs, rfl, rfl, [], rfl, rfl⟩
    · obtain ⟨fs', hturns, hrun, before, hbefore, hfs⟩ := ih hrest
      refine ⟨fs', hturns, hrun, f :: before, hbefore, ?_⟩
      rw [hfs]
      rfl

theorem map_turns (gh : Gh) (s : Filing) (fs : List Finding) : (turns gh s fs).map (·.2) = fs := by
  induction fs generalizing s with
  | nil => rfl
  | cons f fs ih => rw [turns, List.map_cons, ih]

/-- **What is filed**: an id in every turn that does not find it. -/
theorem filed_run (hgh : Works gh) (s : Filing) (fs : List Finding) :
    ∃ new : List Finding, (fs.foldl (Filing.next gh) s).filed.map Prod.fst =
        s.filed.map Prod.fst ++ new.map (·.cveId) ∧ new.Sublist fs ∧
      ∀ f, f ∈ new ↔ ∃ t ∈ turns gh s fs, ¬Skips gh t ∧ t.2 = f := by
  induction fs generalizing s with
  | nil => exact ⟨[], by simp [turns]⟩
  | cons f fs ih =>
    obtain ⟨new, hfiled, hsub, hmem⟩ := ih (s.next gh f)
    rw [List.foldl_cons, hfiled]
    by_cases h : Found gh f.cveId s.issues
    · obtain ⟨-, hsame⟩ := next_of_found h
      refine ⟨new, by rw [hsame], hsub.cons f, fun g => ?_⟩
      rw [hmem, turns, List.exists_mem_cons_iff]
      exact ⟨Or.inr, fun hg => hg.resolve_left fun hs => hs.1 h⟩
    · obtain ⟨url, -, hnew⟩ := next_of_not_found hgh h
      refine ⟨f :: new, by rw [hnew]; simp, hsub.cons_cons f, fun g => ?_⟩
      rw [List.mem_cons, hmem, turns, List.exists_mem_cons_iff]
      exact or_congr ⟨fun hg => ⟨h, hg.symm⟩, fun hg => hg.2.symm⟩ Iff.rfl

/-- **Which issues there are afterwards**: those that were there, and one for each turn that does
not find its id. -/
theorem exists_issue_run (hgh : Works gh) {P : RepoIssue → Prop} {Q : Finding → Prop}
    (hPQ : ∀ f url, P ((fileIssue f).created url) ↔ Q f) (s : Filing) (fs : List Finding) :
    (∃ i ∈ (fs.foldl (Filing.next gh) s).issues, P i) ↔
      (∃ i ∈ s.issues, P i) ∨ ∃ t ∈ turns gh s fs, ¬Skips gh t ∧ Q t.2 := by
  induction fs generalizing s with
  | nil => simp [turns]
  | cons f fs ih =>
    rw [List.foldl_cons, ih, turns, List.exists_mem_cons_iff]
    by_cases h : Found gh f.cveId s.issues
    · obtain ⟨hsame, -⟩ := next_of_found h
      have hskip : ¬(¬Skips gh (s, f) ∧ Q f) := fun hs => hs.1 h
      rw [hsame, or_iff_right hskip]
    · obtain ⟨url, hnew, -⟩ := next_of_not_found hgh h
      have hskip : (¬Skips gh (s, f) ∧ Q f) ↔ Q f := and_iff_right h
      rw [hnew, hskip, ← or_assoc]
      refine or_congr ?_ Iff.rfl
      rw [← hPQ f url]
      simp only [List.mem_append, List.mem_singleton, or_and_right, exists_or, exists_eq_left]

/-- An issue that was not there before has the gate label. -/
theorem gateLabel_of_new (hgh : Works gh) (s : Filing) (fs : List Finding) :
    ∀ i ∈ (fs.foldl (Filing.next gh) s).issues, i ∈ s.issues ∨ gateLabel ∈ i.labels := by
  intro i hi
  by_contra hnot
  obtain ⟨hold, hlabel⟩ := not_or.1 hnot
  have hrun := (exists_issue_run hgh (P := fun j => j = i ∧ j ∉ s.issues ∧ gateLabel ∉ j.labels)
    (Q := fun _ => False) (fun f url => ?_) s fs).1 ⟨i, hi, rfl, hold, hlabel⟩
  · rcases hrun with ⟨j, hj, -, hnew, -⟩ | ⟨t, -, -, hfalse⟩
    · exact hnew hj
    · exact hfalse
  · exact iff_of_false (fun h => h.2.2 (gateLabel_mem_created f url)) id

theorem mem_issues_run (hgh : Works gh) (s : Filing) (fs : List Finding) {i : RepoIssue}
    (hi : i ∈ s.issues) : i ∈ (fs.foldl (Filing.next gh) s).issues := by
  induction fs generalizing s with
  | nil => exact hi
  | cons f fs ih =>
    refine ih (s.next gh f) ?_
    by_cases h : Found gh f.cveId s.issues
    · obtain ⟨hsame, -⟩ := next_of_found h
      rw [hsame]
      exact hi
    · obtain ⟨url, hnew, -⟩ := next_of_not_found hgh h
      rw [hnew]
      exact List.mem_append_left _ hi

/-- A run that files nothing has found every id where it started. -/
theorem filed_eq_iff (hgh : Works gh) (s : Filing) (fs : List Finding) :
    (fs.foldl (Filing.next gh) s).filed = s.filed ↔ ∀ f ∈ fs, Found gh f.cveId s.issues := by
  induction fs generalizing s with
  | nil => simp
  | cons f fs ih =>
    rw [List.foldl_cons, List.forall_mem_cons]
    by_cases h : Found gh f.cveId s.issues
    · obtain ⟨hissues, hfiled⟩ := next_of_found h
      rw [← hfiled, ih, hissues, and_iff_right h]
    · refine iff_of_false (fun heq => ?_) fun hall => h hall.1
      -- what has been filed stays
      obtain ⟨url, -, hfiled⟩ := next_of_not_found hgh h
      obtain ⟨new, hnew, -, -⟩ := filed_run hgh (s.next gh f) fs
      have hlen := congrArg List.length hnew
      rw [heq, hfiled] at hlen
      simp only [List.map_append, List.length_append, List.length_map, List.map_cons, List.map_nil,
        List.length_cons, List.length_nil] at hlen
      omega

/-! ## The ids of a scan -/

theorem uniqueFixable_sound (seen : List String) (fs : List Finding) :
    ((uniqueFixable seen fs).map (·.cveId)).Nodup ∧
      ∀ f ∈ uniqueFixable seen fs, f ∈ fs ∧ f.cveId ∉ seen := by
  induction fs generalizing seen with
  | nil => exact ⟨List.nodup_nil, fun f hf => absurd hf List.not_mem_nil⟩
  | cons f fs ih =>
    rw [uniqueFixable]
    split
    · obtain ⟨hnodup, hmem⟩ := ih seen
      exact ⟨hnodup, fun g hg => ⟨List.mem_cons_of_mem f (hmem g hg).1, (hmem g hg).2⟩⟩
    · rename_i hseen
      obtain ⟨hnodup, hmem⟩ := ih (f.cveId :: seen)
      refine ⟨List.nodup_cons.2 ⟨fun h => ?_, hnodup⟩, fun g hg => ?_⟩
      · obtain ⟨g, hg, heq⟩ := List.mem_map.1 h
        exact (hmem g hg).2 (heq ▸ List.mem_cons_self)
      · rcases List.mem_cons.1 hg with rfl | hg
        · exact ⟨List.mem_cons_self, hseen⟩
        · obtain ⟨hfs, hnew⟩ := hmem g hg
          exact ⟨List.mem_cons_of_mem f hfs, fun h => hnew (List.mem_cons_of_mem _ h)⟩

theorem uniqueFixable_complete (seen : List String) {fs : List Finding} (hf : f ∈ fs)
    (hseen : f.cveId ∉ seen) : ∃ g ∈ uniqueFixable seen fs, g.cveId = f.cveId := by
  induction fs generalizing seen with
  | nil => cases hf
  | cons g fs ih =>
    rw [uniqueFixable]
    by_cases heq : g.cveId = f.cveId
    · rw [if_neg (heq ▸ hseen)]
      exact ⟨g, List.mem_cons_self, heq⟩
    · have hfs : f ∈ fs := (List.mem_cons.1 hf).resolve_left fun h => heq (by rw [h])
      split
      · exact ih seen hfs hseen
      · have hnew : f.cveId ∉ g.cveId :: seen := fun h =>
          (List.mem_cons.1 h).elim (fun h => heq h.symm) hseen
        obtain ⟨g', hg', heq'⟩ := ih (g.cveId :: seen) hfs hnew
        exact ⟨g', List.mem_cons_of_mem g hg', heq'⟩

theorem nodup_lookedUp (findings : List ScanFinding) :
    ((lookedUp findings).map (·.cveId)).Nodup :=
  (uniqueFixable_sound [] _).1

/-- The ids that are looked up are those of the findings that can be fixed. -/
theorem forall_lookedUp (findings : List ScanFinding) {P : String → Prop} :
    (∀ f ∈ lookedUp findings, P f.cveId) ↔ ∀ f ∈ findings, f.fixable = true → P f.cveId := by
  constructor
  · intro h f hf hfix
    have hmem : f.toFinding ∈ (findings.filter (·.fixable)).map (·.toFinding) :=
      List.mem_map_of_mem (List.mem_filter.2 ⟨hf, hfix⟩)
    obtain ⟨g, hg, heq⟩ := uniqueFixable_complete [] hmem List.not_mem_nil
    exact heq ▸ h g hg
  · intro h g hg
    obtain ⟨f, hf, rfl⟩ := List.mem_map.1 ((uniqueFixable_sound [] _).2 g hg).1
    obtain ⟨hmem, hfix⟩ := List.mem_filter.1 hf
    exact h f hmem hfix

/-! ## When a run is complete and idempotent -/

/-- What a run shall do: each id that can be fixed has an issue that names it; at most one has been
filed for an id, and none for an id that had one; another run, whatever else `gh` lists in it, files
nothing. -/
structure FiledOnce (gh : Gh) (issues : List RepoIssue) (findings : List ScanFinding) : Prop where
  complete : ∀ f ∈ findings, f.fixable = true →
    Named f.cveId (fileIssues gh issues findings).issues
  once : ((fileIssues gh issues findings).filed.map Prod.fst).Nodup
  new : ∀ cveId ∈ (fileIssues gh issues findings).filed.map Prod.fst, ¬Named cveId issues
  again : ∀ gh', Works gh' →
    (fileIssues gh' (fileIssues gh issues findings).issues findings).filed = []

/-- A title is there in the turn, or it is filed in a later one. -/
def ThereOrLater (gh : Gh) (there : Prop) (p : String → Prop) (later : List (Filing × Finding)) :
    Prop :=
  there ∨ ∃ t ∈ later, ¬Skips gh t ∧ p (fileIssue t.2).title

/-- An id that is found in the turn is named by an issue, and contained in one with the gate label;
an id that is named is found. -/
def Exact (gh : Gh) (t : Filing × Finding) (later : List (Filing × Finding)) : Prop :=
  (Skips gh t →
    ThereOrLater gh (Named t.2.cveId t.1.issues) (Names t.2.cveId) later ∧
    ThereOrLater gh (Covered t.2.cveId t.1.issues) (isIn t.2.cveId · = true) later) ∧
  (Named t.2.cveId t.1.issues → Skips gh t)

/-- The state at the start. -/
def start (issues : List RepoIssue) : Filing := ⟨issues, [], [], 0⟩

section Run

variable {t : Filing × Finding} {later : List (Filing × Finding)}

/-- Every finding has its turn. -/
theorem forall_turns (gh : Gh) (s : Filing) (fs : List Finding) {P : Finding → Prop} :
    (∀ f ∈ fs, P f) ↔ ∀ t later, t :: later <:+ turns gh s fs → P t.2 := by
  constructor
  · intro h t later hs
    have hmem : t.2 ∈ (turns gh s fs).map (·.2) := List.mem_map_of_mem (hs.subset List.mem_cons_self)
    rw [map_turns] at hmem
    exact h _ hmem
  · intro h f hf
    rw [← map_turns gh s fs] at hf
    obtain ⟨t, ht, rfl⟩ := List.mem_map.1 hf
    obtain ⟨before, later, heq⟩ := List.append_of_mem ht
    exact h t later ⟨before, heq.symm⟩

/-- Where the turn finds its id, what is there afterwards is there already or is filed later. -/
theorem exists_issue_after (hgh : Works gh) (hs : t :: later <:+ turns gh s fs)
    (hskip : Skips gh t) {P : RepoIssue → Prop} {p : String → Prop}
    (hPp : ∀ f url, P ((fileIssue f).created url) ↔ p (fileIssue f).title) :
    (∃ i ∈ (fs.foldl (Filing.next gh) s).issues, P i) ↔
      ThereOrLater gh (∃ i ∈ t.1.issues, P i) p later := by
  obtain ⟨fs', hturns, hrun, -⟩ := turns_suffix hs
  have hthis : ¬(¬Skips gh t ∧ p (fileIssue t.2).title) := fun h => h.1 hskip
  rw [← hrun, exists_issue_run hgh (Q := fun f => p (fileIssue f).title) hPp, ← hturns,
    List.exists_mem_cons_iff, or_iff_right hthis, ThereOrLater]

/-- Whether there is an issue afterwards for every id, if the one that is filed for an id is such
an issue. -/
theorem issue_after_iff (hgh : Works gh) {P : String → RepoIssue → Prop} {p : String → String → Prop}
    (hPp : ∀ cveId f url, P cveId ((fileIssue f).created url) ↔ p cveId (fileIssue f).title)
    (hp : ∀ f, p f.cveId (fileIssue f).title) (s : Filing) (fs : List Finding) :
    (∀ f ∈ fs, ∃ i ∈ (fs.foldl (Filing.next gh) s).issues, P f.cveId i) ↔
      ∀ t later, t :: later <:+ turns gh s fs → Skips gh t →
        ThereOrLater gh (∃ i ∈ t.1.issues, P t.2.cveId i) (p t.2.cveId) later := by
  rw [forall_turns gh s fs]
  refine forall₃_congr fun t later hs => ⟨fun h hskip => ?_, fun h => ?_⟩
  · exact (exists_issue_after hgh hs hskip (hPp t.2.cveId)).1 h
  · by_cases hskip : Skips gh t
    · exact (exists_issue_after hgh hs hskip (hPp t.2.cveId)).2 (h hskip)
    · have hmem : t ∈ turns gh s fs := hs.subset List.mem_cons_self
      exact (exists_issue_run hgh (hPp t.2.cveId) s fs).2 (Or.inr ⟨t, hmem, hskip, hp t.2⟩)

theorem complete_iff (hgh : Works gh) (s : Filing) (fs : List Finding) :
    (∀ f ∈ fs, Named f.cveId (fs.foldl (Filing.next gh) s).issues) ↔
      ∀ t later, t :: later <:+ turns gh s fs → Skips gh t →
        ThereOrLater gh (Named t.2.cveId t.1.issues) (Names t.2.cveId) later :=
  issue_after_iff hgh (P := fun cveId i => Names cveId i.title) (p := Names)
    (fun _ _ _ => Iff.rfl) names_fileIssue s fs

theorem covered_iff (hgh : Works gh) (s : Filing) (fs : List Finding) :
    (∀ f ∈ fs, Covered f.cveId (fs.foldl (Filing.next gh) s).issues) ↔
      ∀ t later, t :: later <:+ turns gh s fs → Skips gh t →
        ThereOrLater gh (Covered t.2.cveId t.1.issues) (isIn t.2.cveId · = true) later :=
  issue_after_iff hgh
    (P := fun cveId i => gateLabel ∈ i.labels ∧ isIn cveId i.title = true)
    (p := (isIn · · = true))
    (fun _ f url => and_iff_right (gateLabel_mem_created f url))
    (fun f => (names_fileIssue f).contains) s fs

/-- An id that is filed had no issue, if those are found that have one in their turn: a run files
no issue that names an id and is not found later. -/
theorem new_iff (hgh : Works gh) (s : Filing) (fs : List Finding) :
    (∀ t ∈ turns gh s fs, ¬Skips gh t → ¬Named t.2.cveId s.issues) ↔
      ∀ t ∈ turns gh s fs, Named t.2.cveId t.1.issues → Skips gh t := by
  refine forall₂_congr fun t ht => ?_
  obtain ⟨before, later, heq⟩ := List.append_of_mem ht
  have hs : t :: later <:+ turns gh s fs := ⟨before, heq.symm⟩
  obtain ⟨-, -, -, fs', hrun, -⟩ := turns_suffix hs
  constructor
  · intro h hnamed
    by_contra hskip
    obtain ⟨i, hi, hnames⟩ := hnamed
    have hi' := hi
    rw [← hrun] at hi'
    rcases gateLabel_of_new hgh s fs' i hi' with hold | hlabel
    · exact h hskip ⟨i, hold, hnames⟩
    · exact hskip (found_of_covered hgh ⟨i, hi, hlabel, hnames.contains⟩)
  · rintro h hskip ⟨i, hi, hnames⟩
    refine hskip (h ⟨i, ?_, hnames⟩)
    rw [← hrun]
    exact mem_issues_run hgh s fs' hi

/-- A `gh` that lists what it must and nothing else. -/
def strict (gh : Gh) : Gh where
  issueList issues cveId := some <| issues.filter fun i =>
    decide (gateLabel ∈ i.labels) && isIn cveId i.title
  issueCreate := gh.issueCreate

theorem strict_works (hgh : Works gh) : Works (strict gh) where
  listed issues cveId := by
    refine ⟨_, rfl, fun i hi hlabel htitle => ?_⟩
    rw [List.mem_filter, Bool.and_eq_true, decide_eq_true_eq]
    exact ⟨hi, hlabel, htitle⟩
  created := hgh.created

theorem covered_of_strict (h : Found (strict gh) cveId issues) : Covered cveId issues := by
  obtain ⟨url, hurl⟩ := h
  obtain ⟨i, hi, -⟩ := Option.map_eq_some_iff.1 hurl
  have hmem := List.mem_of_find?_eq_some hi
  rw [List.mem_filter, Bool.and_eq_true, decide_eq_true_eq] at hmem
  exact ⟨i, hmem⟩

/-- Another run files nothing, whatever else is listed in it, if every id is contained in an issue
that must be listed. -/
theorem again_iff (hgh : Works gh) (s : Filing) (fs : List Finding) :
    (∀ gh', Works gh' → (fs.foldl (Filing.next gh') s).filed = s.filed) ↔
      ∀ f ∈ fs, Covered f.cveId s.issues := by
  constructor
  · intro h f hf
    have hstrict := strict_works hgh
    exact covered_of_strict ((filed_eq_iff hstrict s fs).1 (h _ hstrict) f hf)
  · intro h gh' hgh'
    exact (filed_eq_iff hgh' s fs).2 fun f hf => found_of_covered hgh' (h f hf)

theorem once (hgh : Works gh) (issues : List RepoIssue) (findings : List ScanFinding) :
    ((fileIssues gh issues findings).filed.map Prod.fst).Nodup := by
  obtain ⟨new, hfiled, hsub, -⟩ := filed_run hgh (start issues) (lookedUp findings)
  have hnew : (fileIssues gh issues findings).filed.map Prod.fst = new.map (·.cveId) := hfiled
  rw [hnew]
  exact (nodup_lookedUp findings).sublist (hsub.map _)

/-- **When a run is complete and idempotent**: exactly if in every turn the look-up finds an id that
is named and no other one. -/
theorem filed_once_iff (hgh : Works gh) (issues : List RepoIssue) (findings : List ScanFinding) :
    FiledOnce gh issues findings ↔
      ∀ t later, t :: later <:+ turns gh (start issues) (lookedUp findings) → Exact gh t later := by
  have hcomplete := complete_iff hgh (start issues) (lookedUp findings)
  have hfixable := forall_lookedUp findings
    (P := fun cveId => Named cveId (fileIssues gh issues findings).issues)
  have hcovered := covered_iff hgh (start issues) (lookedUp findings)
  have hnew := new_iff hgh (start issues) (lookedUp findings)
  have hagain := again_iff hgh (start (fileIssues gh issues findings).issues) (lookedUp findings)
  obtain ⟨new, hfiled, -, hmem⟩ := filed_run hgh (start issues) (lookedUp findings)
  have hids : ∀ P : String → Prop, (∀ x ∈ (fileIssues gh issues findings).filed.map Prod.fst, P x) ↔
      ∀ t ∈ turns gh (start issues) (lookedUp findings), ¬Skips gh t → P t.2.cveId := by
    intro P
    have hnew : (fileIssues gh issues findings).filed.map Prod.fst = new.map (·.cveId) := hfiled
    rw [hnew, List.forall_mem_map]
    constructor
    · intro h t ht hskip
      exact h t.2 ((hmem t.2).2 ⟨t, ht, hskip, rfl⟩)
    · intro h f hf
      obtain ⟨t, ht, hskip, rfl⟩ := (hmem f).1 hf
      exact h t ht hskip
  constructor
  · rintro ⟨hc, -, hn, ha⟩ t later hs
    have hnamed := hcomplete.1 (hfixable.2 hc) t later hs
    have hcontained := hcovered.1 (hagain.1 ha) t later hs
    have hfound := hnew.1 ((hids _).1 hn) t (hs.subset List.mem_cons_self)
    exact ⟨fun hskip => ⟨hnamed hskip, hcontained hskip⟩, hfound⟩
  · intro h
    refine ⟨hfixable.1 (hcomplete.2 fun t later hs hskip => ((h t later hs).1 hskip).1),
      once hgh issues findings, (hids _).2 (hnew.2 fun t ht => ?_),
      hagain.2 (hcovered.2 fun t later hs hskip => ((h t later hs).1 hskip).2)⟩
    obtain ⟨before, later, heq⟩ := List.append_of_mem ht
    exact (h t later ⟨before, heq.symm⟩).2

end Run

/-! ## Two scans -/

/-- Every issue with the gate label is listed. -/
def labelled : Gh where
  issueList issues _ := some (issues.filter fun i => gateLabel ∈ i.labels)
  issueCreate _ _ := some ⟨"https://github.com/o/superset/issues/7", by decide⟩

theorem labelled_works : Works labelled where
  listed _ _ :=
    ⟨_, rfl, fun _ hi hlabel _ => List.mem_filter.2 ⟨hi, decide_eq_true hlabel⟩⟩
  created _ _ := ⟨_, rfl⟩

def scanned (cveId : String) : ScanFinding where
  cveId := cveId
  package := "pillow"
  installedVersion := "9.0.0"
  fixVersion := "10.0.1"
  severity := "HIGH"
  summary := none
  fixable := true

/-- Neither id is a part of the other one: both are filed, and the alias is not. -/
theorem aliases_filed_once :
    FiledOnce labelled [] (["PYSEC-2024-2", "PYSEC-2024-1", "PYSEC-2024-2"].map scanned) := by
  refine (filed_once_iff labelled_works _ _).2 fun t later hs => ?_
  have hturns : ∀ t ∈ turns labelled (start [])
      (lookedUp (["PYSEC-2024-2", "PYSEC-2024-1", "PYSEC-2024-2"].map scanned)),
      existingIssueFor labelled t.1.issues t.2.cveId = none ∧
        ∀ i ∈ t.1.issues, ¬Names t.2.cveId i.title := by decide +kernel
  obtain ⟨hnone, hnamed⟩ := hturns t (hs.subset List.mem_cons_self)
  have hskip : ¬Skips labelled t := by
    rintro ⟨url, hurl⟩
    rw [hnone] at hurl
    cases hurl
  exact ⟨fun h => absurd h hskip, fun ⟨i, hi, h⟩ => absurd h (hnamed i hi)⟩

/-- **An id that is never filed**: its characters are in the title of the issue that has just been
filed for another one. -/
theorem ten_hides_one : Works labelled ∧
    ¬FiledOnce labelled [] (["PYSEC-2024-10", "PYSEC-2024-1"].map scanned) := by
  refine ⟨labelled_works, fun h => ?_⟩
  have hfinal : ∀ i ∈ (fileIssues labelled []
      (["PYSEC-2024-10", "PYSEC-2024-1"].map scanned)).issues,
      ¬Names "PYSEC-2024-1" i.title := by decide +kernel
  obtain ⟨i, hi, hnames⟩ := h.complete (scanned "PYSEC-2024-1")
    (List.mem_cons_of_mem _ List.mem_cons_self) rfl
  exact hfinal i hi hnames

end Filing

end Remediation
