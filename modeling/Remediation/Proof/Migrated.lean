import Remediation.Proof.Boot
import Remediation.Proof.FixAttempts
import Remediation.Proof.Guards

/-!
# Work from before there were keys

The backfill reads the key of an old row out of the URL of its issue, the handler puts it together
from the payload: `canonical_of_old` and `workKey_of_names` are one key. Which row gets it depends
on the other rows, but some row has it after the backfill (`canonical_mem_given`), and then
`create_session` is never called for the issue again.
-/

namespace Remediation

open Interaction Prog PyText Regex

/-! ## A key that is taken -/

section Taken

variable {env : Outside} {S : Settings} {w : World}

/-- An issue whose key is taken gets no session. -/
theorem not_creates_of_taken {issue : Issue}
    (hk : securityWorkKey S issue ∈ w.sessions.rows.map (·.workKey)) :
    ¬Creates env w (handleSecurityIssue S issue) := by
  unfold handleSecurityIssue
  simp only [perform, bind_eq, call_bind, ret_bind, pure_eq]
  rw [creates_call rfl]
  split
  · exact not_creates_ret _
  rw [creates_call rfl]
  split
  · exact not_creates_ret _
  rw [creates_call rfl]
  set w2 := (exec env .countStartedToday (exec env .countActive w).2).2 with hw2
  rcases exec_tryReserve env w2 (securityReservation S issue) with ⟨pk, t, -, ht, -⟩ | ⟨ha, -, -⟩
  · exact absurd hk (Sessions.tryReserve_eq_some ht).2.1
  · rw [ha]
    exact not_creates_ret _

/-- In a run from a table with the key, `create_session` is never called for it. -/
theorem never_created (env : Outside) (S : Settings) {sessions : Sessions} {k : String}
    (hne : k ≠ "") (hk : ∃ r ∈ sessions.rows, r.workKey = k) (events : WebhookEvents) (now : Time)
    (acts : List (Act Task ℕ)) :
    let c := (service env S).run ⟨{ sessions, events, now }, []⟩ acts
    createCount k c.world.trace = 0 ∧ k ∈ c.world.sessions.rows.map (·.workKey) := by
  obtain ⟨⟨-, htaken⟩, hcount, -⟩ := ClaimProtocol.never_of_taken (S := service env S)
    (C := contract S) (P := reservations) (w := { sessions, events, now }) (k := k)
    reservations_honest (fun _ _ => actsWhenOpen) (fun _ op w => exec_honest env op w) keeps_task
    ⟨hne, hk⟩ rfl acts
  exact ⟨hcount, List.mem_map.2 htaken⟩

end Taken

namespace Migration

/-- An issue of a repository. -/
structure IssueName where
  owner : String
  repo : String
  number : ℕ
  owner_ne : owner ≠ ""
  repo_ne : repo ≠ ""
  owner_slash : '/' ∉ owner.toList
  repo_slash : '/' ∉ repo.toList

namespace IssueName

variable (i : IssueName)

def fullName : String := i.owner ++ "/" ++ i.repo

def url : String := "https://github.com/" ++ i.fullName ++ "/issues/" ++ toString i.number

/-- The URL of the repository in GitHub's API. -/
def repositoryUrl : String := "https://api.github.com/repos/" ++ i.fullName

def workKey : String := makeWorkKey i.fullName i.number securityLabel

/-- A row about the issue without a key. -/
structure OldRow (r : LegacyRow) : Prop where
  keyless : r.workKey = none ∨ r.workKey = some ""
  triggerRef : r.row.triggerRef = i.url
  issueNumber : r.row.issueNumber = none ∨ r.row.issueNumber = some (i.number : ℤ)
  label : r.row.label = some securityLabel

/-- A payload about the issue. -/
structure Names (issue : Issue) : Prop where
  number : issue.number = some (i.number : ℤ)
  repositoryUrl : issue.repositoryUrl = some i.repositoryUrl
  fullName : ∀ name ∈ truthy issue.repositoryFullName, name = i.fullName

end IssueName

variable {i : IssueName}

/-! ## One key on both ways -/

theorem digitValue_of_isDigit {c : Char} (hc : c.isDigit = true) :
    digitValue c = some (c.toNat - '0'.toNat) := by
  have hrange : 48 ≤ c.toNat ∧ c.toNat ≤ 57 := by
    simpa [Char.isDigit, UInt32.le_iff_toNat_le] using hc
  have hfirst : (decide (0x30 ≤ c.toNat) && decide (c.toNat < 0x30 + 10)) = true := by
    rw [Bool.and_eq_true, decide_eq_true_iff, decide_eq_true_iff]
    omega
  obtain ⟨zeros, hzeros⟩ : ∃ zeros, decimalZeros = 0x30 :: zeros := ⟨_, rfl⟩
  rw [digitValue, hzeros, List.find?_cons_of_pos (p := fun z => z ≤ c.toNat && c.toNat < z + 10) hfirst]
  rfl

/-- Decimal digits are read back as the number. -/
theorem intOfDigits_toDigits (n : ℕ) : intOfDigits (Nat.toDigits 10 n) = n := by
  have hfold : ∀ (l : List Char) (m : ℕ), (∀ c ∈ l, c.isDigit = true) →
      l.foldl (fun n c => 10 * n + ((digitValue c).getD 0 : ℤ)) (m : ℤ) =
        (Nat.ofDigitChars 10 l m : ℤ) := by
    intro l
    induction l with
    | nil => intro m _; simp
    | cons c l ih =>
      intro m hl
      rw [List.foldl_cons, digitValue_of_isDigit (hl c List.mem_cons_self), Nat.ofDigitChars_cons,
        ← ih _ fun d hd => hl d (List.mem_cons_of_mem _ hd)]
      push_cast
      rfl
  have hdigits : ∀ c ∈ Nat.toDigits 10 n, c.isDigit = true := fun c hc =>
    Nat.isDigit_of_mem_toDigits (by decide) (by decide) hc
  rw [intOfDigits]
  refine (hfold _ 0 hdigits).trans ?_
  rw [Nat.ofDigitChars_ten_toDigits]

theorem url_toList (i : IssueName) : i.url.toList = "https://".toList ++ ("github.com/".toList ++
    (i.owner.toList ++ '/' :: (i.repo.toList ++
      ("/issues/".toList ++ (Nat.toDigits 10 i.number ++ []))))) := by
  have hhost : "https://github.com/".toList = "https://".toList ++ "github.com/".toList := rfl
  have hslash : "/".toList = ['/'] := rfl
  unfold IssueName.url IssueName.fullName
  rw [String.toList_append, String.toList_append, String.toList_append, String.toList_append,
    String.toList_append, Nat.toString_eq_repr, Nat.toList_repr, hhost, hslash]
  generalize "https://".toList = scheme, "github.com/".toList = host, "/issues/".toList = issues
  simp

theorem all_ne_slash {s : List Char} (h : '/' ∉ s) : s.all (· != '/') = true := by
  rw [List.all_eq_true]
  intro c hc
  exact bne_iff_ne.2 fun he => h (he ▸ hc)

/-- The pattern, after the host. -/
theorem run_issueUrlPattern (i : IssueName) (prev : Option Char) :
    run issueUrlPattern [] [] prev ("github.com/".toList ++ (i.owner.toList ++
      '/' :: (i.repo.toList ++ ("/issues/".toList ++ (Nat.toDigits 10 i.number ++ []))))) =
        some ⟨[i.fullName.toList, Nat.toDigits 10 i.number], []⟩ := by
  have hname : i.fullName.toList = i.owner.toList ++ '/' :: i.repo.toList := by
    have hslash : "/".toList = ['/'] := rfl
    rw [IssueName.fullName, String.toList_append, String.toList_append, hslash, List.append_assoc,
      List.singleton_append]
  have hdigits : (Nat.toDigits 10 i.number).all (fun c => (digitValue c).isSome) = true := by
    rw [List.all_eq_true]
    intro c hc
    rw [digitValue_of_isDigit (Nat.isDigit_of_mem_toDigits (by decide) (by decide) hc)]
    rfl
  rw [issueUrlPattern, run_lit_eq, dropPrefix?_eq_some.2 rfl]
  -- the owner, up to the slash
  refine greedyLoop_one_all (mt String.toList_eq_nil_iff.1 i.owner_ne)
    (all_ne_slash i.owner_slash) (fun c hc => by cases hc; rfl) ?_
  -- the repository, up to the next one
  refine greedyLoop_one_all (mt String.toList_eq_nil_iff.1 i.repo_ne)
    (all_ne_slash i.repo_slash) (fun c hc => by cases hc; rfl) ?_
  have hgroup := take_group (i.owner.toList ++ '/' :: i.repo.toList)
    ("/issues/".toList ++ (Nat.toDigits 10 i.number ++ []))
  rw [List.append_assoc, List.cons_append] at hgroup
  have hclose : run (.cls :: (lit "/issues/".toList ++
      [.opn, .rep (fun c => (digitValue c).isSome) 1 true, .cls]))
        [i.owner.toList ++ '/' :: (i.repo.toList ++ ("/issues/".toList ++
          (Nat.toDigits 10 i.number ++ [])))] []
        (lastOf (some '/') i.repo.toList) ("/issues/".toList ++ (Nat.toDigits 10 i.number ++ [])) =
      some ⟨[i.fullName.toList, Nat.toDigits 10 i.number], []⟩ := by
    rw [run, hgroup, run_lit_eq, dropPrefix?_eq_some.2 rfl, hname]
    -- the number, to the end
    refine greedyLoop_one_all Nat.toDigits_ne_nil hdigits (fun c hc => by cases hc) ?_
    simp [run]
  exact hclose

/-- **The pattern finds what the URL was made of.** -/
theorem search_url (i : IssueName) : search issueUrlPattern i.url.toList =
    some [i.fullName.toList, Nat.toDigits 10 i.number] := by
  -- nothing before the host starts as the pattern does
  have hskip : ∀ s, finditer issueUrlPattern 0 none ("https://".toList ++ s) =
      finditer issueUrlPattern 0 (lastOf none "https://".toList) s := fun s =>
    finditer_skip (c := 'g') (l := "ithub.com/".toList) (by decide)
  rw [search, url_toList, hskip]
  exact head?_finditer (run_issueUrlPattern i _)

/-- The key of an old row, before collisions are looked at. -/
theorem canonical_of_old {r : LegacyRow} (h : i.OldRow r) : canonical r.row = i.workKey := by
  obtain ⟨-, href, hnumber, hlabel⟩ := h
  have hlabel' : truthy r.row.label = some securityLabel := by
    rw [hlabel]
    rfl
  have hn : r.row.issueNumber.getD (intOfDigits (Nat.toDigits 10 i.number)) = (i.number : ℤ) := by
    rcases hnumber with h | h
    · rw [h, Option.getD_none, intOfDigits_toDigits]
    · rw [h, Option.getD_some]
  rw [canonical, canonicalKey, href, search_url, hlabel']
  simp only [hn, String.ofList_toList]
  rfl

/-- The key of a payload. -/
theorem workKey_of_names {S : Settings} {issue : Issue} (h : i.Names issue) :
    securityWorkKey S issue = i.workKey := by
  obtain ⟨hnumber, hurl, hname⟩ := h
  have hrepo : repoFullName S issue = i.fullName := by
    unfold repoFullName
    cases hn : truthy issue.repositoryFullName with
    | some name => exact hname name hn
    | none =>
      have hapi : startsWith i.repositoryUrl "https://api.github.com/repos/" = true :=
        startsWith_append _ _
      simp only [hurl, Option.getD_some, if_pos hapi]
      exact removePrefix_append _ _
  rw [securityWorkKey, hrepo, hnumber]
  rfl

/-! ## Some row has it -/

/-- The canonical key of a row was there before its turn, or is given to it. -/
theorem canonical_mem_given {e : List String} {rs : List SessionRow} {r : SessionRow}
    (hr : r ∈ rs) : canonical r ∈ given e rs ++ e := by
  induction rs generalizing e with
  | nil => cases hr
  | cons q rs ih =>
    rw [given_cons, List.cons_append]
    rcases List.mem_cons.1 hr with rfl | hr
    · rw [backfilledKey_eq]
      split
      · rename_i htaken
        exact List.mem_cons_of_mem _ (List.mem_append_right _ htaken)
      · exact List.mem_cons_self
    · have hmem := ih hr (e := backfilledKey e q :: e)
      rw [List.mem_append, List.mem_cons] at hmem
      rw [List.mem_cons, List.mem_append]
      tauto

/-- Some row has the key. -/
def Holds (t : SessionsTable) (k : String) : Prop := ∃ r ∈ t.rows, r.workKey = some k

section Holds

variable {t t' : SessionsTable}

theorem mem_missing_of_old {r : LegacyRow} (hr : r ∈ t.rows) (h : i.OldRow r) :
    r.row ∈ t.missing := by
  have hkey : r.row.workKey = "" := by
    rw [r.agree]
    rcases h.keyless with hk | hk
    · rw [hk, Option.getD_none]
    · rw [hk, Option.getD_some]
  exact List.mem_filter.2 ⟨List.mem_map.2 ⟨r, hr, rfl⟩, decide_eq_true hkey⟩

/-- **After the backfill** some row has the key of the issue. -/
theorem workKey_mem_backfilled {r : LegacyRow} (hr : r ∈ t.rows) (h : i.OldRow r)
    (hb : t.backfilled = .ok t') : i.workKey ∈ t'.workKeys := by
  have hkeys := (SessionsTable.assign_eq_ok rfl hb).keys
  rw [hkeys.mem_iff, ← canonical_of_old h]
  exact canonical_mem_given (mem_missing_of_old hr h)

/-- The backfill gets through exactly if no number is too long for `int` and, where the unique
index is there already, no keyless row finds both its keys taken. -/
theorem backfilled_iff (hc : t.schema.workKeyColumn ≠ .absent) : (∃ t', t.backfilled = .ok t') ↔
    (∀ r ∈ t.missing, numberTooLong r = false) ∧
      (t.schema.uniqueWorkKey = true → ∀ r ∈ t.missing, ¬(Taken t r ∧ Clash t r)) := by
  rw [← fresh_iff]
  constructor
  · rintro ⟨t', hb⟩
    obtain ⟨hs, hmiss, -, hshort, hkeys⟩ := SessionsTable.assign_eq_ok rfl hb
    refine ⟨hshort, fun hu => ?_⟩
    have hnd := t'.admits.unique (hs ▸ hu)
    rw [← SessionsTable.workKeys_of_missing hmiss, hkeys.nodup_iff,
      nodup_given_iff fun _ => Iff.rfl] at hnd
    exact hnd.2
  · rintro ⟨hshort, hf⟩
    exact SessionsTable.assign_succeeds rfl (fun _ => Iff.rfl) hc hshort hf

end Holds

/-! ## And so nobody pays for it -/

section Service

variable {t t' : SessionsTable}

/-- What a start-up that gets through leaves: a table with all keys, each of them once. -/
theorem migrated_keys (h : migrate t = .ok t') : t'.schema.uniqueWorkKey = true ∧ t'.missing = [] ∧
    ∃ t₁, t.indexed.keyed.backfilled = .ok t₁ ∧ t'.workKeys = t₁.workKeys := by
  obtain ⟨t₁, t₂, t₃, h₁, h₂, h₃, rfl⟩ := migrate_eq_ok h
  have hmiss := (SessionsTable.assign_eq_ok rfl h₁).missing
  obtain ⟨hs₃, hr₃⟩ := SessionsTable.createUniqueIndex_eq_ok h₃
  have hrows : t₃.structured.rows.map (·.row.workKey) = t₁.rows.map (·.row.workKey) := by
    rw [SessionsTable.structured_rows, hr₃, SessionsTable.relaxed_keys h₂]
  refine ⟨?_, (SessionsTable.missing_eq_nil_congr hrows).2 hmiss, t₁, h₁,
    SessionsTable.workKeys_congr hrows⟩
  unfold SessionsTable.structured
  split
  · rename_i h
    rw [(SessionsTable.addStructuredOutput_eq_ok h).1, hs₃]
  · rw [hs₃]

/-- With the unique index and all keys, it is a table of the service. -/
theorem exists_sessions (hu : t.schema.uniqueWorkKey = true) (hm : t.missing = []) :
    ∃ s : Sessions, s.rows = t.rows.map (·.row) := by
  have hids : ((t.rows.map (·.row)).map (·.id)).Nodup := by
    rw [List.map_map, List.Nodup, List.pairwise_map]
    exact t.admits.ascending.imp fun h => h.ne
  have hkeys : ((t.rows.map (·.row)).map (·.workKey)).Nodup := by
    rw [List.map_map]
    refine (SessionsTable.workKeys_eq_map hm) ▸ ?_
    rw [SessionsTable.workKeys_of_missing hm]
    exact t.admits.unique hu
  have hfresh : ∀ r ∈ t.rows.map (·.row), r.id < ((t.rows.map (·.row)).map (·.id)).sum + 1 :=
    fun r hr => Nat.lt_succ_of_le (List.single_le_sum (fun _ _ => Nat.zero_le _) _
      (List.mem_map_of_mem hr))
  exact ⟨⟨_, _, hids, hfresh, hkeys⟩, rfl⟩

theorem backfill_absent (hc : t.schema.workKeyColumn = .absent) (new : Option SessionsTable) :
    (backfillMissingWorkKeys.run.eval exec ⟨true, some t, new⟩).1 = .error .operationalError := by
  have hselect : selectMissing.run.eval exec ⟨true, some t, new⟩ =
      (.error .operationalError, ⟨true, some t, new⟩) := Prod.ext (if_pos hc) rfl
  rw [backfillMissingWorkKeys, Prog.eval_bind_error hselect]

/-- **Migrated work is never paid for twice.** For every table and every row of an issue without a
key: once the backfill is through, some row has the key of the issue, and once the start-up is
through, `create_session` is not called for that key in any run of the service, nor by
`handle_security_issue` for that issue. Before there is a unique index, the backfill gets through
unless a number is too long for `int`. -/
theorem migrated_never_paid_twice {r : LegacyRow} (hr : r ∈ t.rows) (hold : i.OldRow r) :
    (∀ new, let out := backfillMissingWorkKeys.run.eval exec ⟨true, some t, new⟩
      (t.schema.workKeyColumn ≠ .absent → t.schema.uniqueWorkKey = false →
        (∀ r ∈ t.missing, numberTooLong r = false) → out.1 = .ok ()) ∧
      (out.1 = .ok () → ∃ t', out.2 = ⟨true, some t', new⟩ ∧ Holds t' i.workKey)) ∧
    ∀ we, let out := initDb.run.eval exec (.legacy we t)
      out.1 = .ok () → ∃ t', out.2 = .legacy true t' ∧ t'.schema.uniqueWorkKey = true ∧
        (∃ sessions : Sessions, sessions.rows = t'.rows.map (·.row)) ∧
        ∀ env S events now acts, ∀ sessions : Sessions, sessions.rows = t'.rows.map (·.row) →
          let c := (service env S).run ⟨{ sessions, events, now }, []⟩ acts
          createCount i.workKey c.world.trace = 0 ∧
            ∀ issue, i.Names issue → ¬Creates env c.world (handleSecurityIssue S issue) := by
  constructor
  · intro new out
    by_cases hc : t.schema.workKeyColumn = .absent
    · exact ⟨fun hne => absurd hc hne, fun hok => by cases (backfill_absent hc new).symm.trans hok⟩
    have hout : Outcome new backfillMissingWorkKeys t t.backfilled := outcome_backfill hc
    cases hb : t.backfilled with
    | error e =>
      rw [hb] at hout
      refine ⟨fun _ hu hshort => ?_, fun hok => by cases hok.symm.trans hout⟩
      obtain ⟨t', ht'⟩ := (backfilled_iff hc).2 ⟨hshort, fun hi => by simp [hu] at hi⟩
      cases hb.symm.trans ht'
    | ok t' =>
      rw [hb] at hout
      refine ⟨fun _ _ _ => congrArg Prod.fst hout, fun _ => ⟨t', congrArg Prod.snd hout, ?_⟩⟩
      exact (SessionsTable.mem_workKeys (makeWorkKey_ne _ _ _)).1
        (workKey_mem_backfilled hr hold hb)
  · intro we out hok
    have hreal := initDb_realises we t
    cases hm : migrate t with
    | error e =>
      rw [hm] at hreal
      cases hok.symm.trans hreal
    | ok t' =>
      rw [hm] at hreal
      obtain ⟨hu, hmiss, t₁, hb, hkeys⟩ := migrated_keys hm
      have hrows : t.indexed.keyed.rows = t.rows := SessionsTable.keyed_rows _
      have hmem : i.workKey ∈ t'.workKeys := by
        rw [hkeys]
        exact workKey_mem_backfilled (by rwa [hrows]) hold hb
      refine ⟨t', congrArg Prod.snd hreal, hu, exists_sessions hu hmiss, ?_⟩
      intro env S events now acts sessions hsessions
      have hne : i.workKey ≠ "" := makeWorkKey_ne _ _ _
      have hkey : ∃ r ∈ sessions.rows, r.workKey = i.workKey := by
        rw [SessionsTable.workKeys_eq_map hmiss] at hmem
        rw [← List.mem_map, hsessions, List.map_map]
        exact hmem
      obtain ⟨hcount, htaken⟩ := never_created env S hne hkey events now acts
      exact ⟨hcount, fun issue hi => not_creates_of_taken (by rwa [workKey_of_names hi])⟩

end Service

namespace Legacy

def seven : IssueName where
  owner := "o"
  repo := "r"
  number := 7
  owner_ne := by decide
  repo_ne := by decide
  owner_slash := by decide
  repo_slash := by decide

/-- A row for issue 7 that the first version of the service has left. -/
def old (id : ℕ) (issueNumber : Option ℤ) : LegacyRow where
  workKey := none
  row := { (row id none none).row with issueNumber, label := some securityLabel }
  agree := rfl

/-- Two of them: the first one gets the key. -/
def sevenTwice : SessionsTable where
  schema := twoAlike.schema
  rows := [old 1 none, old 2 (some 7)]
  admits := by decide

theorem seven_never_paid_twice :
    (initDb.run.eval exec (.legacy false sevenTwice)).1 = .ok () ∧
      ∃ sessions : Sessions, sessions.rows.map (·.workKey) =
          ["issue:o/r:7:devin-security", "issue:o/r:7:devin-security:dup:2"] ∧ ∀ acts,
        let c := (service Siblings.outside {}).run ⟨{ sessions, events := .empty, now := 0 }, []⟩ acts
        createCount "issue:o/r:7:devin-security" c.world.trace = 0 ∧
          ¬Creates Siblings.outside c.world (handleSecurityIssue {}
            { number := some 7, repositoryUrl := some "https://api.github.com/repos/o/r" }) := by
  have hok : (initDb.run.eval exec (.legacy false sevenTwice)).1 = .ok () := by decide +kernel
  have hkeys : (initDb.run.eval exec (.legacy false sevenTwice)).2.sessions.map
      (fun t => t.rows.map (·.row.workKey)) =
        some ["issue:o/r:7:devin-security", "issue:o/r:7:devin-security:dup:2"] := by
    decide +kernel
  obtain ⟨t', ht', -, ⟨sessions, hs⟩, hnever⟩ := (migrated_never_paid_twice (i := seven)
    (t := sevenTwice) (r := old 2 (some 7)) (by simp [sevenTwice])
    ⟨Or.inl rfl, by decide, Or.inr rfl, rfl⟩).2 false hok
  rw [ht'] at hkeys
  refine ⟨hok, sessions, ?_, fun acts => ?_⟩
  · rw [hs, List.map_map]
    exact Option.some.inj hkeys
  obtain ⟨hcount, hissue⟩ := hnever Siblings.outside {} .empty 0 acts sessions hs
  exact ⟨hcount, hissue _ ⟨rfl, by decide, fun x hx => by cases hx⟩⟩

end Legacy

end Migration

end Remediation
