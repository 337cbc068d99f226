import Mathlib.Order.Bounds.Basic
import Mathlib.Data.String.Basic
import Remediation.Spec.ScanOsv

/-!
# The version that fixes a vulnerability

`extract_fix_version` is to return the smallest version that fixes a vulnerability, whatever the
order of the versions is. It returns the first value of a `fixed` event that it comes to, also if
that is a commit or if a smaller version comes later (`commit_and_newer_version`).
-/

namespace Remediation

variable {ν : Type}

/-- The `fixed` events of a range, each with the type of the range. -/
def OsvRange.fixedEvents (r : OsvRange ν) : List (RangeType × ν) :=
  r.events.filterMap fun event => event.fixed.map (r.type, ·)

theorem OsvRange.mem_fixedEvents {r : OsvRange ν} {t : RangeType} {x : ν} :
    (t, x) ∈ r.fixedEvents ↔ r.type = t ∧ ∃ event ∈ r.events, event.fixed = some x := by
  rw [OsvRange.fixedEvents, List.mem_filterMap]
  constructor
  · rintro ⟨event, hevent, hmap⟩
    obtain ⟨y, hfixed, hpair⟩ := Option.map_eq_some_iff.1 hmap
    cases hpair
    exact ⟨rfl, event, hevent, hfixed⟩
  · rintro ⟨rfl, event, hevent, hfixed⟩
    exact ⟨event, hevent, by rw [hfixed]; rfl⟩

/-- The loop over the events returns the first one. -/
theorem OsvRange.findSome?_events (r : OsvRange ν) :
    r.events.findSome? (fun event => event.fixed) = r.fixedEvents.head?.map (·.2) := by
  rw [OsvRange.fixedEvents, List.head?_filterMap, List.map_findSome?]
  refine congrArg (List.findSome? · r.events) (funext fun event => ?_)
  rw [Function.comp, Option.map_map]
  exact Option.map_id'.symm

namespace Vuln

variable {vuln : Vuln ν}

/-- A version that fixes the vulnerability: it is in a range of versions of a package of PyPI. -/
def IsFix (vuln : Vuln ν) (x : ν) : Prop :=
  ∃ aff ∈ vuln.affected, aff.ecosystem = some "PyPI" ∧
    ∃ r ∈ aff.ranges, r.type ≠ .git ∧ ∃ event ∈ r.events, event.fixed = some x

/-- The `fixed` events of the packages of PyPI as they are in the record. -/
def fixedEvents (vuln : Vuln ν) : List (RangeType × ν) :=
  vuln.affected.flatMap fun aff =>
    if aff.ecosystem ≠ some "PyPI" then [] else aff.ranges.flatMap OsvRange.fixedEvents

theorem mem_fixedEvents {t : RangeType} {x : ν} :
    (t, x) ∈ vuln.fixedEvents ↔ ∃ aff ∈ vuln.affected, aff.ecosystem = some "PyPI" ∧
      ∃ r ∈ aff.ranges, r.type = t ∧ ∃ event ∈ r.events, event.fixed = some x := by
  rw [fixedEvents, List.mem_flatMap]
  refine exists_congr fun aff => and_congr_right fun haff => ?_
  by_cases h : aff.ecosystem = some "PyPI"
  · rw [if_neg (not_not_intro h), List.mem_flatMap, and_iff_right h]
    simp only [OsvRange.mem_fixedEvents]
  · rw [if_pos h]
    exact iff_of_false List.not_mem_nil fun hpypi => h hpypi.1

theorem isFix_iff {x : ν} : vuln.IsFix x ↔ ∃ t ≠ RangeType.git, (t, x) ∈ vuln.fixedEvents := by
  simp only [mem_fixedEvents]
  constructor
  · rintro ⟨aff, haff, hpypi, r, hr, ht, hfixed⟩
    exact ⟨r.type, ht, aff, haff, hpypi, r, hr, rfl, hfixed⟩
  · rintro ⟨t, ht, aff, haff, hpypi, r, hr, rfl, hfixed⟩
    exact ⟨aff, haff, hpypi, r, hr, ht, hfixed⟩

/-- The three loops return the value of the first `fixed` event. -/
theorem extractFixVersion_eq (vuln : Vuln ν) :
    extractFixVersion vuln = vuln.fixedEvents.head?.map (·.2) := by
  rw [extractFixVersion, fixedEvents, List.head?_flatMap, List.map_findSome?]
  refine congrArg (List.findSome? · vuln.affected) (funext fun aff => ?_)
  by_cases h : aff.ecosystem = some "PyPI"
  · rw [if_neg (not_not_intro h), Function.comp, if_neg (not_not_intro h), List.head?_flatMap,
      List.map_findSome?]
    exact congrArg (List.findSome? · aff.ranges) (funext OsvRange.findSome?_events)
  · rw [if_pos h, Function.comp, if_pos h]
    rfl

/-- What `extract_fix_version` shall return: nothing if there is no version that fixes the
vulnerability, and else the smallest one. -/
structure Smallest [Preorder ν] (vuln : Vuln ν) : Prop where
  none_iff : extractFixVersion vuln = none ↔ ¬∃ x, vuln.IsFix x
  least : ∀ x, extractFixVersion vuln = some x → IsLeast {y | vuln.IsFix y} x

/-- **When it is the smallest version**: exactly if the first `fixed` event, if there is one, has
the least version of all those in ranges of versions. -/
theorem smallest_iff [Preorder ν] (vuln : Vuln ν) :
    Smallest vuln ↔ ∀ e ∈ vuln.fixedEvents.head?, IsLeast {y | vuln.IsFix y} e.2 := by
  constructor
  · intro h e he
    have hfirst : vuln.fixedEvents.head? = some e := he
    refine h.least e.2 ?_
    rw [extractFixVersion_eq, hfirst]
    rfl
  · intro h
    cases hfirst : vuln.fixedEvents.head? with
    | none =>
      have hnone : extractFixVersion vuln = none := by
        rw [extractFixVersion_eq, hfirst]
        rfl
      have hempty : vuln.fixedEvents = [] := List.head?_eq_none_iff.1 hfirst
      refine ⟨iff_of_true hnone ?_, fun x hx => ?_⟩
      · rintro ⟨x, hx⟩
        obtain ⟨t, -, hmem⟩ := isFix_iff.1 hx
        rw [hempty] at hmem
        cases hmem
      · rw [hnone] at hx
        cases hx
    | some e =>
      have hsome : extractFixVersion vuln = some e.2 := by
        rw [extractFixVersion_eq, hfirst]
        rfl
      have hleast := h e hfirst
      refine ⟨iff_of_false ?_ (not_not_intro ⟨e.2, hleast.1⟩), fun x hx => ?_⟩
      · rw [hsome]
        exact Option.some_ne_none e.2
      · rw [hsome] at hx
        cases hx
        exact hleast

/-! ## Two records -/

def ofRanges (ranges : List (OsvRange String)) : Vuln String where
  id := "GHSA-g4mx-q9vg-27p4"
  aliases := ["CVE-2023-45803"]
  summary := "urllib3's request body not stripped after redirect"
  severity := []
  databaseSeverity := some "MODERATE"
  affected := [⟨some "PyPI", ranges⟩]

/-- The commit that fixes a vulnerability comes first. -/
def commitFirst : Vuln String :=
  ofRanges [⟨.git, [⟨none⟩, ⟨some "4e98d57809dacab1cbe625fddeec1a290c478ea9"⟩]⟩,
    ⟨.ecosystem, [⟨none⟩, ⟨some "1.26.18"⟩]⟩]

/-- The newer one of two branches comes first. -/
def newerFirst : Vuln String :=
  ofRanges [⟨.ecosystem, [⟨none⟩, ⟨some "2.0.7"⟩, ⟨none⟩, ⟨some "1.26.18"⟩]⟩]

/-- **A commit, and a version that is not the smallest**, the order being that of the texts, which
here is also that of the versions. -/
theorem commit_and_newer_version : ¬Smallest commitFirst ∧ ¬Smallest newerFirst := by
  constructor
  · intro h
    have hleast := h.least "4e98d57809dacab1cbe625fddeec1a290c478ea9" (by decide)
    obtain ⟨t, ht, hmem⟩ := isFix_iff.1 hleast.1
    have hevents : commitFirst.fixedEvents =
        [(.git, "4e98d57809dacab1cbe625fddeec1a290c478ea9"), (.ecosystem, "1.26.18")] := rfl
    rw [hevents, List.mem_cons, List.mem_singleton] at hmem
    rcases hmem with heq | heq
    · exact ht (congrArg Prod.fst heq)
    · have hne : "4e98d57809dacab1cbe625fddeec1a290c478ea9" ≠ "1.26.18" := by decide
      exact hne (congrArg Prod.snd heq)
  · intro h
    have hleast := h.least "2.0.7" (by decide)
    have hfix : newerFirst.IsFix "1.26.18" :=
      isFix_iff.2 ⟨.ecosystem, by decide, by decide⟩
    have hle : "2.0.7" ≤ "1.26.18" := hleast.2 hfix
    revert hle
    decide

end Vuln

end Remediation
