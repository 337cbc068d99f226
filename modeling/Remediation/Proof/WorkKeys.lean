import Remediation.Proof.Backfill
import Remediation.Proof.Tasks

/-!
# What a work key says

The four formats of work keys have unescaped separators. A key can be read back nevertheless, as
a repository has no colon in its name and a number has none either (`makeWorkKey_inj`), and the
first and the last characters tell the formats apart.
-/

namespace Remediation

open PyText Regex

/-! ## Reading a key back -/

theorem makeWorkKey_toList (repo : String) (n : ℤ) (label : String) :
    (makeWorkKey repo n label).toList = "issue:".toList ++
      (repo.toList ++ ':' :: ((toString n).toList ++ ':' :: label.toList)) := by
  have hcolon : ":".toList = [':'] := rfl
  have hparts : makeWorkKey repo n label = "issue:" ++ repo ++ ":" ++ toString n ++ ":" ++ label := rfl
  rw [hparts, String.toList_append, String.toList_append, String.toList_append,
    String.toList_append, String.toList_append, hcolon]
  simp only [List.append_assoc, List.cons_append, List.nil_append]

theorem makeCiFixWorkKey_toList (repo runId : String) :
    (makeCiFixWorkKey repo runId).toList =
      "ci_fix:".toList ++ (repo.toList ++ ':' :: runId.toList) := by
  have hcolon : ":".toList = [':'] := rfl
  have hparts : makeCiFixWorkKey repo runId = "ci_fix:" ++ repo ++ ":" ++ runId := rfl
  rw [hparts, String.toList_append, String.toList_append, String.toList_append, hcolon]
  simp only [List.append_assoc, List.cons_append, List.nil_append]

variable {repo repo' : String}

theorem colon_not_mem_toString (n : ℤ) : ':' ∉ (toString n).toList :=
  not_mem_toString_int (by decide) (by decide) n

theorem makeWorkKey_inj (hr : ':' ∉ repo.toList) (hr' : ':' ∉ repo'.toList) {n n' : ℤ}
    {label label' : String} (h : makeWorkKey repo n label = makeWorkKey repo' n' label') :
    repo = repo' ∧ n = n' ∧ label = label' := by
  have hl := congrArg String.toList h
  rw [makeWorkKey_toList, makeWorkKey_toList] at hl
  obtain ⟨hrepo, hrest⟩ := split_of_append hr hr' (List.append_cancel_left hl)
  obtain ⟨hn, hlabel⟩ := split_of_append (colon_not_mem_toString n) (colon_not_mem_toString n') hrest
  exact ⟨String.toList_inj.1 hrepo, toString_int_injective (String.toList_inj.1 hn),
    String.toList_inj.1 hlabel⟩

theorem makeCiFixWorkKey_inj (hr : ':' ∉ repo.toList) (hr' : ':' ∉ repo'.toList)
    {runId runId' : Option ℤ}
    (h : makeCiFixWorkKey repo (str runId) = makeCiFixWorkKey repo' (str runId')) :
    repo = repo' ∧ runId = runId' := by
  have hl := congrArg String.toList h
  rw [makeCiFixWorkKey_toList, makeCiFixWorkKey_toList] at hl
  obtain ⟨hrepo, hrun⟩ := split_of_append hr hr' (List.append_cancel_left hl)
  exact ⟨String.toList_inj.1 hrepo, str_int_injective (String.toList_inj.1 hrun)⟩

/-! ## Telling the formats apart -/

theorem makeWorkKey_head (repo : String) (n : ℤ) (label : String) :
    (makeWorkKey repo n label).toList.head? = some 'i' := by
  rw [makeWorkKey_toList]
  rfl

theorem makeWorkKey_ne_ciFix (repo repo' : String) (n : ℤ) (label runId : String) :
    makeWorkKey repo n label ≠ makeCiFixWorkKey repo' runId := by
  intro h
  have hhead := makeWorkKey_head repo n label
  rw [h, makeCiFixWorkKey_toList] at hhead
  cases hhead

theorem legacy_ne_makeWorkKey (id : ℕ) (repo : String) (n : ℤ) (label : String) :
    s!"legacy:{id}" ≠ makeWorkKey repo n label := by
  intro h
  have hhead := makeWorkKey_head repo n label
  have hparts : s!"legacy:{id}" = "legacy:" ++ toString id := rfl
  rw [← h, hparts, String.toList_append] at hhead
  cases hhead

/-- A suffixed key ends in a digit, the label in a letter. -/
theorem suffix_ne_makeWorkKey (canonical : String) (id : ℕ) (repo : String) (n : ℤ) :
    s!"{canonical}:dup:{id}" ≠ makeWorkKey repo n securityLabel := by
  intro h
  have hlast : (makeWorkKey repo n securityLabel).toList.getLast? = some 'y' := by
    have hlabel : ':' :: securityLabel.toList = ":devin-securit".toList ++ ['y'] := rfl
    rw [makeWorkKey_toList, hlabel, ← List.append_assoc, ← List.cons_append, ← List.append_assoc,
      ← List.append_assoc]
    exact List.getLast?_concat
  have hparts : s!"{canonical}:dup:{id}" = canonical ++ ":dup:" ++ id.repr := rfl
  have hdigits : id.repr.toList ≠ [] := by
    rw [Nat.toList_repr]
    exact Nat.toDigits_ne_nil
  rw [← h, hparts, String.toList_append, List.getLast?_append_of_ne_nil _ hdigits] at hlast
  exact not_mem_repr (by decide) id (List.mem_of_getLast? hlast)

/-- A key of a repository without a colon has three colons. -/
theorem makeWorkKey_inj_right (hr : ':' ∉ repo.toList) {n n' : ℤ} {label : String}
    (h : makeWorkKey repo' n' label = makeWorkKey repo n securityLabel) :
    repo' = repo ∧ n' = n ∧ label = securityLabel := by
  refine makeWorkKey_inj ?_ hr h
  have hl := congrArg (fun s : String => s.toList.count ':') h
  have hlabel : ':' ∉ securityLabel.toList := by decide
  simp only [makeWorkKey_toList, List.count_append, List.count_cons_self,
    List.count_eq_zero.2 (colon_not_mem_toString _), List.count_eq_zero.2 hr,
    List.count_eq_zero.2 hlabel] at hl
  rw [← List.count_eq_zero]
  omega

/-! ## What the backfill gives away -/

/-- The row is about the issue: its URL names the repository, and it has the number or has none. -/
def About (repo : String) (n : ℤ) (row : SessionRow) : Prop :=
  ∃ number, search issueUrlPattern row.triggerRef.toList = some [repo.toList, number] ∧
    row.issueNumber.getD (intOfDigits number) = n

/-- A key of an issue goes to a row of that issue. -/
theorem about_of_backfilledKey (hr : ':' ∉ repo.toList) {existing : List String} {row : SessionRow}
    {n : ℤ} (h : backfilledKey existing row = makeWorkKey repo n securityLabel) :
    About repo n row ∧ row.label = some securityLabel := by
  rw [Migration.backfilledKey_eq] at h
  split at h
  · exact absurd h (suffix_ne_makeWorkKey _ _ _ _)
  unfold Migration.canonical canonicalKey at h
  split at h
  · rename_i found number label hurl hlabel
    obtain ⟨hrepo, hn, rfl⟩ := makeWorkKey_inj_right hr h
    refine ⟨⟨number, ?_, hn⟩, (truthy_eq_some.1 hlabel).1⟩
    rw [hurl, ← hrepo, String.toList_ofList]
  · exact absurd h (legacy_ne_makeWorkKey _ _ _ _)

/-- **Work keys identify work.** For repositories without a colon in their names, equal keys are
keys of the same issue and label, or of the same workflow run; and no key that the backfill makes
up for want of a better one is that of a security issue: what has such a key is a row about it. -/
theorem work_keys_identify (hr : ':' ∉ repo.toList) (hr' : ':' ∉ repo'.toList) :
    (∀ n n' label label', makeWorkKey repo n label = makeWorkKey repo' n' label' →
      repo = repo' ∧ n = n' ∧ label = label') ∧
    (∀ runId runId' : Option ℤ,
      makeCiFixWorkKey repo (str runId) = makeCiFixWorkKey repo' (str runId') →
        repo = repo' ∧ runId = runId') ∧
    (∀ n label, ∀ runId : Option ℤ, makeWorkKey repo n label ≠ makeCiFixWorkKey repo' (str runId)) ∧
    ∀ n, (∀ id : ℕ, s!"legacy:{id}" ≠ makeWorkKey repo n securityLabel) ∧
      (∀ (canonical : String) (id : ℕ),
        s!"{canonical}:dup:{id}" ≠ makeWorkKey repo n securityLabel) ∧
      ∀ existing row, backfilledKey existing row = makeWorkKey repo n securityLabel →
        About repo n row ∧ row.label = some securityLabel :=
  ⟨fun _ _ _ _ => makeWorkKey_inj hr hr', fun _ _ => makeCiFixWorkKey_inj hr hr',
    fun n label _ => makeWorkKey_ne_ciFix repo repo' n label _,
    fun n => ⟨fun id => legacy_ne_makeWorkKey id repo n securityLabel,
      fun canonical id => suffix_ne_makeWorkKey canonical id repo n,
      fun _ _ => about_of_backfilledKey hr⟩⟩

/-- Two repositories with numbers in their names. -/
theorem neighbours_apart :
    (∀ n n' label label', makeWorkKey "o/r1" n label ≠ makeWorkKey "o/r" n' label') ∧
      ∀ runId runId' : Option ℤ,
        makeCiFixWorkKey "o/r1" (str runId) ≠ makeCiFixWorkKey "o/r" (str runId') := by
  obtain ⟨hissue, hfix, -⟩ := @work_keys_identify "o/r1" "o/r" (by decide) (by decide)
  exact ⟨fun n n' label label' h => absurd (hissue n n' label label' h).1 (by decide),
    fun runId runId' h => absurd (hfix runId runId' h).1 (by decide)⟩

end Remediation
