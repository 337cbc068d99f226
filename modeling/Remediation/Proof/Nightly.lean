import Remediation.Proof.Dispatch
import Remediation.Proof.FieldForgery
import Remediation.Proof.FiledOnce
import Remediation.Proof.FixVersion
import Remediation.Proof.Requirements

/-!
# What a night files

From the requirements to the orchestrator. Each vulnerability that OSV reports for a pin, and that
has a fix, is printed as filed or as skipped, once under its id, or counts as failed, whatever `gh`
answers (`night_accounts`).
An issue that is filed goes to the handler of security issues, and what the handler reads out of it
is what the scan has found: the pin and the fixed version (`filed_reads_back`).
-/

namespace Remediation

open Interaction PyText Regex

variable {osv : Osv} {gh : Gh} {text : String} {issues : List RepoIssue} {s : Filing}

/-! ## The findings of a scan -/

/-- What has been collected is what there is for one of the inputs. -/
theorem mem_mapM_ok {α β ε : Type} {g : α → Except ε β} {as : List α} {bs : List β}
    (h : as.mapM g = .ok bs) (b : β) : b ∈ bs ↔ ∃ a ∈ as, g a = .ok b := by
  induction as generalizing bs with
  | nil =>
    cases h
    simp
  | cons a as ih =>
    rw [List.mapM_cons] at h
    cases hb : g a with
    | error exc =>
      rw [hb] at h
      cases h
    | ok b' =>
      cases hbs : as.mapM g with
      | error exc =>
        rw [hb, hbs] at h
        cases h
      | ok bs' =>
        rw [hb, hbs] at h
        cases h
        rw [List.mem_cons, ih hbs, List.exists_mem_cons_iff, hb, Except.ok.injEq, eq_comm]

/-- The finding for an id. -/
def foundAs (name version vid : String) (vuln : Vuln String) : ScanFinding :=
  scanFinding name version { vuln with id := vid }

theorem mem_packageFindings {name version : String} {ids : List String}
    {findings : List ScanFinding} (h : packageFindings osv name version ids = .ok findings)
    (f : ScanFinding) : f ∈ findings ↔
      ∃ vid ∈ ids, ∃ vuln, osv.osvDetails vid = .ok vuln ∧ f = foundAs name version vid vuln := by
  rw [mem_mapM_ok h]
  refine exists_congr fun vid => and_congr_right fun _ => ?_
  cases hv : osv.osvDetails vid with
  | error exc => exact iff_of_false (fun he => by cases he) fun ⟨_, he, _⟩ => by cases he
  | ok vuln =>
    constructor
    · intro he
      cases he
      exact ⟨vuln, rfl, rfl⟩
    · rintro ⟨vuln', he, rfl⟩
      cases he
      rfl

theorem mem_scanResults {pkgs : List (String × String)} {results : List (List String)}
    {findings : List ScanFinding} (h : scanResults osv pkgs results = .ok findings)
    (f : ScanFinding) : f ∈ findings ↔
      ∃ p ids, (p, ids) ∈ pkgs.zip results ∧ ∃ vid ∈ ids, ∃ vuln, osv.osvDetails vid = .ok vuln ∧
        f = foundAs p.1 p.2 vid vuln := by
  induction pkgs generalizing results findings with
  | nil =>
    cases results with
    | nil =>
      cases h
      simp
    | cons ids results => cases h
  | cons p pkgs ih =>
    cases results with
    | nil => cases h
    | cons ids results =>
      obtain ⟨name, version⟩ := p
      rw [scanResults] at h
      cases hhere : packageFindings osv name version ids with
      | error exc =>
        rw [hhere] at h
        cases h
      | ok here =>
        cases hrest : scanResults osv pkgs results with
        | error exc =>
          rw [hhere, hrest] at h
          cases h
        | ok rest =>
          rw [hhere, hrest] at h
          cases h
          rw [List.mem_append, mem_packageFindings hhere, ih hrest, List.zip_cons_cons]
          constructor
          · rintro (hf | ⟨p, ids', hp, hf⟩)
            · exact ⟨_, _, List.mem_cons_self, hf⟩
            · exact ⟨p, ids', List.mem_cons_of_mem _ hp, hf⟩
          · rintro ⟨p, ids', hp, hf⟩
            rcases List.mem_cons.1 hp with heq | hp
            · cases heq
              exact Or.inl hf
            · exact Or.inr ⟨p, ids', hp, hf⟩

/-- OSV lists the id for a pin of the file, and this is its record. -/
structure Osv.Reports (osv : Osv) (text name version vid : String) (vuln : Vuln String) : Prop where
  listed : ∃ results ids, osv.osvBatch (parseRequirements text) = .ok results ∧
    ((name, version), ids) ∈ (parseRequirements text).zip results ∧ vid ∈ ids
  details : osv.osvDetails vid = .ok vuln

theorem Osv.Reports.pinned {name version vid : String} {vuln : Vuln String}
    (h : osv.Reports text name version vid vuln) : (name, version) ∈ parseRequirements text := by
  obtain ⟨results, ids, -, hzip, -⟩ := h.listed
  exact (List.of_mem_zip hzip).1

theorem mem_scanOsv {findings : List ScanFinding} (h : scanOsv osv text = .ok findings)
    (f : ScanFinding) : f ∈ findings ↔
      ∃ name version vid vuln, osv.Reports text name version vid vuln ∧
        f = foundAs name version vid vuln := by
  rw [scanOsv] at h
  cases hbatch : osv.osvBatch (parseRequirements text) with
  | error exc =>
    rw [hbatch] at h
    cases h
  | ok results =>
    rw [hbatch] at h
    rw [mem_scanResults h]
    constructor
    · rintro ⟨⟨name, version⟩, ids, hzip, vid, hvid, vuln, hvuln, rfl⟩
      exact ⟨name, version, vid, vuln, ⟨⟨results, ids, hbatch, hzip, hvid⟩, hvuln⟩, rfl⟩
    · rintro ⟨name, version, vid, vuln, ⟨⟨results', ids, hbatch', hzip, hvid⟩, hvuln⟩, rfl⟩
      rw [hbatch] at hbatch'
      cases hbatch'
      exact ⟨(name, version), ids, hzip, vid, hvid, vuln, hvuln, rfl⟩

theorem nightly_cases (h : nightly osv gh text issues = .ok s) :
    ∃ findings, scanOsv osv text = .ok findings ∧ s = fileIssues gh issues findings := by
  rw [nightly] at h
  cases hscan : scanOsv osv text with
  | error exc =>
    rw [hscan] at h
    cases h
  | ok findings =>
    rw [hscan] at h
    cases h
    exact ⟨findings, rfl, rfl⟩

/-! ## The books of a run -/

namespace Filing

variable {f : Finding}

/-- **What a turn does**: it skips the finding, files it, or fails. -/
theorem next_cases (gh : Gh) (s : Filing) (f : Finding) :
    (∃ url, s.next gh f = { s with skipped := s.skipped ++ [(f.cveId, url)] }) ∨
    (∃ url, s.next gh f =
      { s with
        issues := s.issues ++ [(fileIssue f).created url]
        filed := s.filed ++ [(f.cveId, url)] }) ∨
    s.next gh f = { s with failed := s.failed + 1 } := by
  rw [Filing.next]
  cases existingIssueFor gh s.issues f.cveId with
  | some url => exact Or.inl ⟨url, rfl⟩
  | none =>
    cases gh.issueCreate s.issues (fileIssue f) with
    | some url => exact Or.inr (Or.inl ⟨url, rfl⟩)
    | none => exact Or.inr (Or.inr rfl)

/-- The ids that the run has printed with an address. -/
def printed (s : Filing) : List String := s.filed.map (·.1) ++ s.skipped.map (·.1)

/-- A turn prints the id, or fails. -/
theorem printed_next (gh : Gh) (s : Filing) (f : Finding) :
    ∃ lost : List String, ((s.next gh f).printed ++ lost).Perm (f.cveId :: s.printed) ∧
      (s.next gh f).failed = s.failed + lost.length := by
  rcases next_cases gh s f with ⟨url, h⟩ | ⟨url, h⟩ | h
  · refine ⟨[], ?_, by rw [h]; rfl⟩
    simp only [h, printed, List.map_append, List.map_cons, List.map_nil, List.append_nil]
    exact (List.perm_append_singleton _ _).append_left _ |>.trans List.perm_middle
  · refine ⟨[], ?_, by rw [h]; rfl⟩
    simp only [h, printed, List.map_append, List.map_cons, List.map_nil, List.append_nil,
      List.append_assoc]
    exact List.perm_middle
  · refine ⟨[f.cveId], ?_, by rw [h]; rfl⟩
    rw [h]
    exact List.perm_append_singleton _ _

/-- **The books of a run**: of the ids that it looks up, it prints all but those that it counts as
failed. -/
theorem printed_run (gh : Gh) (s : Filing) (fs : List Finding) :
    ∃ lost : List String,
      ((fs.foldl (Filing.next gh) s).printed ++ lost).Perm (fs.map (·.cveId) ++ s.printed) ∧
      (fs.foldl (Filing.next gh) s).failed = s.failed + lost.length := by
  induction fs generalizing s with
  | nil => exact ⟨[], by simp, rfl⟩
  | cons f fs ih =>
    obtain ⟨lost, hperm, hfailed⟩ := ih (s.next gh f)
    obtain ⟨now, hnow, hone⟩ := printed_next gh s f
    have hall := (hperm.append_right now).trans (by rw [List.append_assoc])
    refine ⟨lost ++ now, ?_, ?_⟩
    · rw [← List.append_assoc]
      exact (hall.trans (hnow.append_left _)).trans List.perm_middle
    · rw [List.foldl_cons, hfailed, hone, List.length_append]
      omega

/-- The issues and what has been filed fit together: a new issue is filed for a finding under its
id, and for what is filed there is an issue. -/
structure Booked (issues : List RepoIssue) (fs : List Finding) (s : Filing) : Prop where
  ofIssue : ∀ i ∈ s.issues, i ∈ issues ∨
    ∃ f ∈ fs, ∃ url, i = (fileIssue f).created url ∧ (f.cveId, url) ∈ s.filed
  ofFiled : ∀ p ∈ s.filed, ∃ f ∈ fs, f.cveId = p.1 ∧ (fileIssue f).created p.2 ∈ s.issues

theorem Booked.next {fs : List Finding} (hb : Booked issues fs s) (hf : f ∈ fs) :
    Booked issues fs (s.next gh f) := by
  rcases next_cases gh s f with ⟨url, h⟩ | ⟨url, h⟩ | h
  · rw [h]
    exact ⟨hb.ofIssue, hb.ofFiled⟩
  · rw [h]
    constructor
    · intro i hi
      rcases List.mem_append.1 hi with hi | hi
      · rcases hb.ofIssue i hi with hold | ⟨g, hg, url', rfl, hfiled⟩
        · exact Or.inl hold
        · exact Or.inr ⟨g, hg, url', rfl, List.mem_append_left _ hfiled⟩
      · rw [List.mem_singleton.1 hi]
        exact Or.inr ⟨f, hf, url, rfl, List.mem_append_right _ List.mem_cons_self⟩
    · intro p hp
      rcases List.mem_append.1 hp with hp | hp
      · obtain ⟨g, hg, hid, hi⟩ := hb.ofFiled p hp
        exact ⟨g, hg, hid, List.mem_append_left _ hi⟩
      · rw [List.mem_singleton.1 hp]
        exact ⟨f, hf, rfl, List.mem_append_right _ List.mem_cons_self⟩
  · rw [h]
    exact ⟨hb.ofIssue, hb.ofFiled⟩

theorem booked_run (gh : Gh) (issues : List RepoIssue) (findings : List ScanFinding) :
    Booked issues (lookedUp findings) (fileIssues gh issues findings) := by
  have hstart : Booked issues (lookedUp findings) ⟨issues, [], [], 0⟩ :=
    ⟨fun _ hi => Or.inl hi, fun _ hp => by cases hp⟩
  exact List.foldlRecOn (lookedUp findings) (Filing.next gh) hstart fun _ hs _ hf => hs.next hf

theorem exists_lookedUp (findings : List ScanFinding) (cveId : String) :
    (∃ f ∈ lookedUp findings, f.cveId = cveId) ↔
      ∃ f ∈ findings, f.fixable = true ∧ f.cveId = cveId := by
  have hnone := not_congr (forall_lookedUp findings (P := fun id => id ≠ cveId))
  simpa only [not_forall, not_not, exists_prop] using hnone

theorem mem_lookedUp {findings : List ScanFinding} (hf : f ∈ lookedUp findings) :
    ∃ g ∈ findings, g.fixable = true ∧ f = g.toFinding := by
  obtain ⟨g, hg, rfl⟩ := List.mem_map.1 ((uniqueFixable_sound [] _).2 f hf).1
  obtain ⟨hmem, hfix⟩ := List.mem_filter.1 hg
  exact ⟨g, hmem, hfix, rfl⟩

end Filing

/-- The id that a record is filed under. -/
def cveOf (vid : String) (vuln : Vuln String) : String :=
  (vuln.aliases.find? fun a => startsWith a "CVE-").getD vid

open Filing

/-- **Every vulnerability is accounted for**, whatever `gh` answers. Of the ids of the vulnerabilities
of pinned versions that have a fix, a night prints each once with the address of an issue, or counts
it as failed; what it has filed is in an issue that names the id, with both labels; and it exits with
0 exactly if it has printed them all. -/
theorem night_accounts (h : nightly osv gh text issues = .ok s) :
    ∃ ids : List String, ids.Nodup ∧
      (∀ cveId, cveId ∈ ids ↔ ∃ name version vid vuln,
        osv.Reports text name version vid vuln ∧ (extractFixVersion vuln).isSome = true ∧
          cveOf vid vuln = cveId) ∧
      (s.printed.Nodup ∧ s.printed ⊆ ids ∧ s.printed.length + s.failed = ids.length) ∧
      (∀ p ∈ s.filed, ∃ i ∈ s.issues, Names p.1 i.title ∧ gateLabel ∈ i.labels ∧
        securityLabel ∈ i.labels) ∧
      (s.exitCode = 0 ↔ ids ⊆ s.printed) := by
  obtain ⟨findings, hscan, rfl⟩ := nightly_cases h
  obtain ⟨lost, hperm, hfailed⟩ : ∃ lost : List String,
      ((fileIssues gh issues findings).printed ++ lost).Perm ((lookedUp findings).map (·.cveId)) ∧
        (fileIssues gh issues findings).failed = lost.length := by
    obtain ⟨lost, hperm, hfailed⟩ := printed_run gh ⟨issues, [], [], 0⟩ (lookedUp findings)
    have hnone : (⟨issues, [], [], 0⟩ : Filing).printed = [] := rfl
    rw [hnone, List.append_nil] at hperm
    exact ⟨lost, hperm, hfailed.trans (Nat.zero_add _)⟩
  have hids : ((lookedUp findings).map (·.cveId)).Nodup := nodup_lookedUp findings
  obtain ⟨hprinted, -, hdisj⟩ := List.nodup_append.1 (hperm.nodup_iff.2 hids)
  refine ⟨(lookedUp findings).map (·.cveId), hids, ?_, ⟨hprinted, ?_, ?_⟩, ?_, ?_⟩
  · intro cveId
    rw [List.mem_map, exists_lookedUp]
    constructor
    · rintro ⟨f, hf, hfix, rfl⟩
      obtain ⟨name, version, vid, vuln, hreports, rfl⟩ := (mem_scanOsv hscan f).1 hf
      exact ⟨name, version, vid, vuln, hreports, hfix, rfl⟩
    · rintro ⟨name, version, vid, vuln, hreports, hfix, rfl⟩
      exact ⟨_, (mem_scanOsv hscan _).2 ⟨name, version, vid, vuln, hreports, rfl⟩, hfix, rfl⟩
  · intro cveId hmem
    exact hperm.subset (List.mem_append_left _ hmem)
  · rw [hfailed, ← List.length_append, hperm.length_eq]
  · intro p hp
    obtain ⟨f, -, hid, hi⟩ := (booked_run gh issues findings).ofFiled p hp
    refine ⟨_, hi, ?_, gateLabel_mem_created f p.2, ?_⟩
    · rw [← hid]
      exact names_fileIssue f
    · simp only [NewIssue.created, fileIssue]
      decide
  · have hexit : (fileIssues gh issues findings).exitCode = 0 ↔ lost = [] := by
      rw [exitCode, hfailed, ite_eq_left_iff]
      simp
    rw [hexit]
    constructor
    · rintro rfl cveId hmem
      simpa using hperm.symm.subset hmem
    · intro hall
      refine List.eq_nil_iff_forall_not_mem.2 fun x hx => ?_
      -- an id that has failed is not printed as well
      have hmem : x ∈ (fileIssues gh issues findings).printed :=
        hall (hperm.subset (List.mem_append_right _ hx))
      exact hdisj x hmem x hx rfl

/-! ## What the orchestrator reads -/

/-- Not empty, without a line break and without white space around. -/
def IsWord (w : String) : Prop := w ≠ "" ∧ Trimmed w.toList ∧ '\n' ∉ w.toList

/-- A record as OSV documents them: ids, versions and scores are words, and the summary is one
line. -/
structure Vuln.Tidy (vuln : Vuln String) : Prop where
  aliases : ∀ a ∈ vuln.aliases, IsWord a
  fixed : ∀ p ∈ vuln.fixedEvents, IsWord p.2
  score : ∀ s ∈ vuln.severity, ∀ x ∈ s.score, IsWord x
  databaseSeverity : ∀ x ∈ truthy vuln.databaseSeverity, IsWord x
  summary : '\n' ∉ vuln.summary.toList

structure Osv.Tidy (osv : Osv) : Prop where
  id : ∀ pkgs results, osv.osvBatch pkgs = .ok results → ∀ ids ∈ results, ∀ vid ∈ ids, IsWord vid
  record : ∀ vid vuln, osv.osvDetails vid = .ok vuln → vuln.Tidy

theorem isWord_of_all {p : Char → Bool} {w : String} (hne : w.toList ≠ []) (hw : w.toList.all p = true)
    (hp : ∀ c, p c = true → isSpace c = false) : IsWord w := by
  have hspace : ∀ c ∈ w.toList, isSpace c = false := fun c hc => hp c (List.all_eq_true.1 hw c hc)
  refine ⟨?_, ⟨?_, ?_⟩, ?_⟩
  · rintro rfl
    exact hne rfl
  · exact (Option.all_eq_true _ _).2 fun c hc => by simp [hspace c (List.mem_of_head? hc)]
  · exact (Option.all_eq_true _ _).2 fun c hc => by simp [hspace c (List.mem_of_getLast? hc)]
  · intro hn
    cases hspace _ hn

theorem isWord_of_pinned {name version : String} (h : (name, version) ∈ parseRequirements text) :
    IsWord name ∧ IsWord version := by
  obtain ⟨raw, -, hread⟩ := List.mem_filterMap.1 h
  obtain ⟨indent, line, rest, -, -, hpin⟩ := readPin_iff.1 hread
  have hname : name.toList ≠ [] := by
    intro hnil
    have hhead := hpin.isName.1
    rw [hnil] at hhead
    cases hhead
  exact ⟨isWord_of_all hname hpin.isName.2 fun _ => isSpace_of_reqNameChar,
    isWord_of_all hpin.isVersion.1 hpin.isVersion.2 fun _ => isSpace_of_reqVersionChar⟩

theorem Vuln.Tidy.cveOf {vid : String} {vuln : Vuln String} (h : vuln.Tidy) (hvid : IsWord vid) :
    IsWord (cveOf vid vuln) := by
  unfold Remediation.cveOf
  cases hfind : vuln.aliases.find? fun a => startsWith a "CVE-" with
  | none => exact hvid
  | some a => exact h.aliases a (List.mem_of_find?_eq_some hfind)

theorem Vuln.Tidy.severityOf {vuln : Vuln String} (h : vuln.Tidy) :
    IsWord (severityOf vuln) := by
  unfold Remediation.severityOf
  cases hfind : vuln.severity.find? fun s => isIn "CVSS_V3" s.type with
  | some s =>
    dsimp only
    cases hscore : s.score with
    | none =>
      rw [Option.getD_none]
      unfold IsWord
      decide
    | some x => exact h.score s (List.mem_of_find?_eq_some hfind) x hscore
  | none =>
    dsimp only
    cases hdb : truthy vuln.databaseSeverity with
    | none =>
      rw [Option.getD_none]
      unfold IsWord
      decide
    | some x => exact h.databaseSeverity x hdb

theorem Vuln.Tidy.fix {vuln : Vuln String} (h : vuln.Tidy) {fix : String}
    (hfix : extractFixVersion vuln = some fix) : IsWord fix := by
  rw [extractFixVersion_eq] at hfix
  obtain ⟨p, hp, rfl⟩ := Option.map_eq_some_iff.1 hfix
  exact h.fixed p (List.mem_of_head? hp)

/-- The finding can be read back. -/
theorem wellFormed_foundAs {name version vid : String} {vuln : Vuln String}
    (htidy : osv.Tidy) (h : osv.Reports text name version vid vuln) {fix : String}
    (hfix : extractFixVersion vuln = some fix) :
    (foundAs name version vid vuln).WellFormed ∧
      '\n' ∉ (foundAs name version vid vuln).summaryText.toList := by
  obtain ⟨hname, hversion⟩ := isWord_of_pinned h.pinned
  obtain ⟨results, ids, hbatch, hzip, hvid⟩ := h.listed
  have hrecord : vuln.Tidy := htidy.record vid vuln h.details
  have hid : IsWord vid := htidy.id _ results hbatch ids (List.of_mem_zip hzip).2 vid hvid
  have hfixed : (foundAs name version vid vuln).fixVersion = fix := by
    change str (extractFixVersion vuln) = fix
    rw [hfix]
    rfl
  constructor
  · intro p hp
    simp only [Finding.trusted, hfixed, List.mem_cons, List.not_mem_nil, or_false] at hp
    rcases hp with rfl | rfl | rfl | rfl | rfl
    · exact hrecord.cveOf hid
    · exact hname
    · exact hversion
    · exact hrecord.fix hfix
    · exact hrecord.severityOf
  · have hsummary : ∀ c ∈ ((vuln.summary.toList.take 200).take 300), c ≠ '\n' := by
      intro c hc hn
      rw [hn] at hc
      exact hrecord.summary (List.mem_of_mem_take (List.mem_of_mem_take hc))
    unfold Finding.summaryText
    dsimp only
    split
    · decide
    · intro hn
      refine hsummary '\n' ?_ rfl
      simpa [foundAs, scanFinding] using hn

/-- What GitHub delivers when the issue is opened. -/
structure Opened (f : Finding) (payload : Payload) : Prop where
  body : payload.issue.body = some (fileIssue f).body
  labels : payload.issue.labels = ((fileIssue f).label.toList.splitOn ',').map fun l =>
    some (String.ofList l)

/-- The delivery goes to the handler of security issues, which reads the fields of the finding, and
misses none, unless one is a placeholder or the issue has no address. -/
structure Understood (S : Settings) (f : Finding) (payload : Payload) : Prop where
  routed : dispatch S "issues" (some "opened") payload =
    (handleSecurityIssue S payload.issue).bind fun o => .ret (.ok o)
  read : ∃ ctx, parseIssueToCveContext payload.issue = some ctx ∧ ctx.Carries f ∧
    ((∀ v ∈ [f.cveId, f.installedVersion, f.fixVersion], isPlaceholder v = false) →
      payload.issue.htmlUrl.getD "" ≠ "" → ctx.missingRequiredFields = [])

theorem parse_issueUrl {issue : Issue} {ctx : CveContext}
    (h : parseIssueToCveContext issue = some ctx) : ctx.issueUrl = issue.htmlUrl.getD "" := by
  unfold parseIssueToCveContext at h
  dsimp only at h
  split at h
  · cases h
    rfl
  · cases h

theorem Opened.understood {f : Finding} {payload : Payload} (ho : Opened f payload)
    (hf : f.WellFormed) (hsummary : '\n' ∉ f.summaryText.toList) (S : Settings) :
    Understood S f payload where
  routed := by
    refine dispatch_security ?_
    have hlabels : payload.issue.labels.filterMap truthy = [gateLabel, securityLabel] := by
      have hlabel : (fileIssue f).label = "devin-remediate,devin-security" := rfl
      rw [ho.labels, hlabel]
      decide
    rw [isSecurity, hlabels]
    decide
  read := by
    have hread := (parse_body_iff hf ho.body).2 fun p hp => ?_
    · obtain ⟨ctx, hctx, hcarries⟩ := hread
      refine ⟨ctx, hctx, hcarries, fun hplain hurl => ?_⟩
      rw [← parse_issueUrl hctx] at hurl
      obtain ⟨h1, h2, h3, h4, -⟩ := hcarries
      have hpackage : f.package ≠ "" :=
        (hf ("Package", f.package) (by simp [Finding.trusted])).1
      simp only [List.forall_mem_cons] at hplain
      simp [CveContext.missingRequiredFields, h1, h2, h3, h4, hplain.1, hplain.2.1, hplain.2.2.1,
        hpackage, hurl]
    · have hunforged := unforged_of_one_line hf hsummary p hp
      cases hget : fieldGet (fieldsOf f.tail) (fieldKey p.1) with
      | none => rfl
      | some v => exact congrArg some (hunforged v hget)

/-- **What is filed is what the scan has found, and what the orchestrator reads.** Each new issue is
for a vulnerability that OSV reports for a pin of the file. Opened, it goes to the handler of
security issues, which reads the pin, the fixed version, the id and the severity. -/
theorem filed_reads_back (S : Settings) (htidy : osv.Tidy)
    (h : nightly osv gh text issues = .ok s) :
    ∀ i ∈ s.issues, i ∈ issues ∨ ∃ name version vid vuln fix,
      osv.Reports text name version vid vuln ∧ extractFixVersion vuln = some fix ∧
        ∃ f : Finding, (f.package = name ∧ f.installedVersion = version ∧ f.fixVersion = fix ∧
          f.cveId = cveOf vid vuln ∧ f.severity = severityOf vuln) ∧
          (∃ url, i = (fileIssue f).created url) ∧
          ∀ payload, Opened f payload → Understood S f payload := by
  obtain ⟨findings, hscan, rfl⟩ := nightly_cases h
  intro i hi
  refine ((booked_run gh issues findings).ofIssue i hi).imp_right ?_
  rintro ⟨f, hf, url, rfl, -⟩
  obtain ⟨g, hg, hfixable, rfl⟩ := mem_lookedUp hf
  obtain ⟨name, version, vid, vuln, hreports, rfl⟩ := (mem_scanOsv hscan g).1 hg
  obtain ⟨fix, hfix⟩ := Option.isSome_iff_exists.1 hfixable
  obtain ⟨hwf, hsummary⟩ := wellFormed_foundAs htidy hreports hfix
  have hfixed : (foundAs name version vid vuln).fixVersion = fix := by
    change str (extractFixVersion vuln) = fix
    rw [show extractFixVersion vuln = some fix from hfix]
    rfl
  exact ⟨name, version, vid, vuln, fix, hreports, hfix, (foundAs name version vid vuln).toFinding,
    ⟨rfl, rfl, hfixed, rfl, rfl⟩, ⟨url, rfl⟩, fun payload ho => ho.understood hwf hsummary S⟩

/-! ## A night with one finding -/

namespace Urllib3

/-- One of two pins has a vulnerability. -/
def records : Osv where
  osvBatch pkgs := .ok (pkgs.map fun p => if p.1 = "urllib3" then ["GHSA-g4mx-q9vg-27p4"] else [])
  osvDetails _ := .ok Vuln.newerFirst

theorem tidy : records.Tidy where
  id pkgs results h ids hids vid hvid := by
    cases h
    obtain ⟨p, -, rfl⟩ := List.mem_map.1 hids
    split at hvid
    · rw [List.mem_singleton.1 hvid]
      unfold IsWord
      decide
    · cases hvid
  record _ vuln h := by
    cases h
    exact
      { aliases := by unfold IsWord; decide
        fixed := by unfold IsWord; decide
        score := by unfold IsWord; decide
        databaseSeverity := by unfold IsWord; decide
        summary := by decide }

def requirements : String := "flask==2.3.3\nurllib3==1.26.17\n    # via requests\n"

/-- What the scan prints. -/
def findings : List ScanFinding :=
  [foundAs "urllib3" "1.26.17" "GHSA-g4mx-q9vg-27p4" Vuln.newerFirst]

theorem nightly_requirements : nightly records labelled requirements [] =
    .ok (fileIssues labelled [] findings) := by
  have hpins : parseRequirements requirements = [("flask", "2.3.3"), ("urllib3", "1.26.17")] := by
    decide
  have hscan : scanOsv records requirements = .ok findings := by
    rw [scanOsv, hpins]
    rfl
  rw [nightly, hscan]
  rfl

/-- The one id is printed, as that of an issue. -/
theorem filed_under_alias : "CVE-2023-45803" ∈ (fileIssues labelled [] findings).printed ∧
    ∀ p ∈ (fileIssues labelled [] findings).filed, ∃ i ∈ (fileIssues labelled [] findings).issues,
      Names p.1 i.title := by
  obtain ⟨ids, -, hids, -, hfiled, hexit⟩ := night_accounts nightly_requirements
  have hmem : "CVE-2023-45803" ∈ ids := by
    refine (hids _).2
      ⟨"urllib3", "1.26.17", "GHSA-g4mx-q9vg-27p4", Vuln.newerFirst, ⟨?_, rfl⟩, ?_, ?_⟩
    · exact ⟨_, ["GHSA-g4mx-q9vg-27p4"], rfl, by decide, by decide⟩
    · decide
    · decide
  exact ⟨hexit.1 (by decide) hmem, fun p hp => (hfiled p hp).imp fun i hi => ⟨hi.1, hi.2.1⟩⟩

/-- One issue is filed, and it is read back. -/
theorem issue_understood : (fileIssues labelled [] findings).issues.length = 1 ∧
    ∀ i ∈ (fileIssues labelled [] findings).issues, ∃ f : Finding,
      (∃ url, i = (fileIssue f).created url) ∧
        ∀ payload, Opened f payload → Understood {} f payload := by
  refine ⟨by decide, ?_⟩
  intro i hi
  have hread := filed_reads_back {} tidy nightly_requirements i hi
  obtain ⟨-, -, -, -, -, -, -, f, -, hcreated, hopened⟩ := hread.resolve_left List.not_mem_nil
  exact ⟨f, hcreated, hopened⟩

end Urllib3

end Remediation
