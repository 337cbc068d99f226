import Mathlib.Data.List.Perm.Subperm
import Remediation.Proof.AtMostOnce
import Remediation.Proof.Serial

/-!
# The cap on fix attempts

`MAX_FIX_ATTEMPTS` is counted for the row that `find_by_pr` picks: the newest one with
the URL of the PR. Where that count covers every earlier attempt on the PR (`CountsAll`),
the attempts are numbered without repetition and stay within the cap
(`fix_attempts_within_cap`). When a fix session itself reports the PR, it is picked, and
the attempts of its siblings are forgotten (`sibling_attempts_forgotten`).
-/

namespace Remediation

open Interaction

/-- The rows of fix attempts on a PR. -/
def isFixOf (prUrl : String) (r : SessionRow) : Bool :=
  r.triggerType = .ciFailure && r.triggerRef = prUrl

/-- The numbers of the fix attempts on a PR, in order of their rows. -/
def fixNumbers (t : Sessions) (prUrl : String) : List ℕ :=
  (t.rows.filter (isFixOf prUrl)).map (·.fixAttemptNumber)

/-- How many fix attempts on a PR have come as far as `create_session`. -/
def spawnedFixes (w : World) (prUrl : String) : ℕ :=
  w.sessions.rows.countP fun r => isFixOf prUrl r && 0 < createCount r.workKey w.trace

/-- The parent for which an operation counts the attempts. -/
def Op.countsFor : Op → Option (Option String)
  | .maxFixAttemptForParent parent => some parent
  | _ => none

/-- Whenever a CI failure has its parent's attempts counted, the count covers all earlier
attempts on the PR. -/
def CountsAll (h : Hist) (w : World) (op : Op) (_ : Ans op) : Prop :=
  ∀ parent ∈ op.countsFor, ∀ c ∈ chosen h,
    ∀ n ∈ fixNumbers w.sessions c.1, n ≤ w.sessions.maxFixAttemptForParent parent

instance (h : Hist) (w : World) (op : Op) (a : Ans op) : Decidable (CountsAll h w op a) :=
  inferInstanceAs (Decidable (∀ parent ∈ op.countsFor, ∀ c ∈ chosen h,
    ∀ n ∈ fixNumbers w.sessions c.1, n ≤ w.sessions.maxFixAttemptForParent parent))

variable {env : Outside} {S : Settings} {w : World} {h : Hist}

/-! ## Numbers from 1 to a cap -/

def Numbered (cap : ℕ) (l : List ℕ) : Prop := l.Nodup ∧ ∀ n ∈ l, 1 ≤ n ∧ n ≤ cap

/-- The number after a count that covers all of them. -/
theorem Numbered.snoc {cap m : ℕ} {l : List ℕ} (hl : Numbered cap l) (hle : ∀ n ∈ l, n ≤ m)
    (hlt : m < cap) : Numbered cap (l ++ [m + 1]) := by
  obtain ⟨hnd, hrange⟩ := hl
  constructor
  · rw [List.nodup_append]
    refine ⟨hnd, by simp, ?_⟩
    intro a ha b hb
    have := hle a ha
    rw [List.mem_singleton] at hb
    omega
  · intro n hn
    rcases List.mem_append.1 hn with hn | hn
    · exact hrange n hn
    · rw [List.mem_singleton] at hn
      omega

/-- Different numbers from 1 to the cap: no more of them than the cap. -/
theorem Numbered.length_le {cap : ℕ} {l : List ℕ} (hl : Numbered cap l) : l.length ≤ cap := by
  obtain ⟨hnd, hrange⟩ := hl
  have hsub : l ⊆ List.range' 1 cap := by
    intro n hn
    have := hrange n hn
    rw [List.mem_range'_1]
    omega
  simpa using (List.Nodup.subperm hnd hsub).length_le

/-! ## The numbers of some rows -/

/-- The attempt numbers of the rows that are selected, in order of the rows. -/
def numbersOf (sel : SessionRow → Bool) (t : Sessions) : List ℕ :=
  (t.rows.filter sel).map (·.fixAttemptNumber)

variable {sel : SessionRow → Bool}

theorem fixNumbers_eq (t : Sessions) (prUrl : String) :
    fixNumbers t prUrl = numbersOf (isFixOf prUrl) t := rfl

/-- They are read off two columns, that of the numbers and the one that selects. -/
theorem numbersOf_congr {t t' : Sessions}
    (hcols : (t.rows.map fun r => (sel r, r.fixAttemptNumber)) =
      t'.rows.map fun r => (sel r, r.fixAttemptNumber)) : numbersOf sel t = numbersOf sel t' := by
  have hf : ∀ l : List SessionRow, (l.filter sel).map (·.fixAttemptNumber) =
      (l.map fun r => (sel r, r.fixAttemptNumber)).filterMap
        fun p => if p.1 then some p.2 else none := by
    intro l
    induction l with
    | nil => rfl
    | cons r rs ih => cases hr : sel r <;> simp [hr, ih]
  rw [numbersOf, hf, hcols, ← hf, numbersOf]

/-- An UPDATE changes no attempt's number. -/
theorem numbersOf_update {pk : ℕ} {u : Update} (hsel : ∀ r, sel (u.apply r) = sel r)
    (t : Sessions) : numbersOf sel (t.update pk u) = numbersOf sel t := by
  refine numbersOf_congr ?_
  rw [Sessions.update_rows]
  refine Table.map_update (fun r => (sel r, r.fixAttemptNumber)) _ _ _ fun r => ?_
  rw [hsel, Update.apply_fixAttemptNumber]

/-- A reservation appends its own number, if its row is selected. -/
theorem numbersOf_tryReserve (sel : SessionRow → Bool) (env : Outside) (w : World)
    (res : Reservation) :
    numbersOf sel (exec env (.tryReserve res) w).2.sessions = numbersOf sel w.sessions ∨
      ∃ pk, sel (res.row (w.tick env).now pk) = true ∧
        numbersOf sel (exec env (.tryReserve res) w).2.sessions =
          numbersOf sel w.sessions ++ [res.fixAttemptNumber] := by
  unfold numbersOf
  rcases rows_tryReserve env w res with hrows | ⟨pk, hrows⟩
  · rw [hrows]
    exact Or.inl rfl
  rw [hrows, List.filter_append, List.map_append]
  cases hres : sel (res.row (w.tick env).now pk) with
  | false =>
    rw [List.filter_cons_of_neg (by simp [hres])]
    exact Or.inl (List.append_nil _)
  | true =>
    rw [List.filter_cons_of_pos hres]
    exact Or.inr ⟨pk, hres, rfl⟩

/-! ## Attempts on a PR -/

/-- The attempts on each PR have different numbers, from 1 to the cap. -/
def FixesNumbered (S : Settings) (t : Sessions) : Prop :=
  ∀ prUrl, Numbered S.maxFixAttempts (fixNumbers t prUrl)

/-- Inside a task: what it has counted covers all attempts on the PR. -/
def FixesCounted (S : Settings) (h : Hist) (w : World) : Prop :=
  FixesNumbered S w.sessions ∧
    ∀ prUrl p m, counted h = some (prUrl, p, m) → ∀ n ∈ fixNumbers w.sessions prUrl, n ≤ m

theorem fixesCounted_step {op : Op} (hJ : FixesCounted S h w) (hp : Permits S h op)
    (hR : CountsAll h w op (exec env op w).1) :
    FixesCounted S (⟨op, (exec env op w).1⟩ :: h) (exec env op w).2 := by
  obtain ⟨hnum, hcount⟩ := hJ
  rcases op.write_cases with hop | ⟨res, rfl⟩ | ⟨pk, u, rfl⟩
  · rw [FixesCounted, exec_sessions hop]
    refine ⟨hnum, ?_⟩
    intro prUrl p m hm
    cases op with
    | maxFixAttemptForParent parent =>
      -- what has just been counted covers all attempts, by the condition
      obtain ⟨c, hc, he⟩ := Option.map_eq_some_iff.1 hm
      cases he
      exact hR parent rfl c hc
    | findByPr prUrl => cases hm
    | tryReserve res => cases hop
    | update pk u => cases hop
    | _ => exact hcount prUrl p m hm
  · refine ⟨?_, fun _ _ _ hm => by cases hm⟩
    intro prUrl
    rw [fixNumbers_eq]
    rcases numbersOf_tryReserve (isFixOf prUrl) env w res with hsame | ⟨pk, hsel, happ⟩
    · rw [hsame]
      exact hnum prUrl
    simp only [isFixOf, Bool.and_eq_true, decide_eq_true_eq] at hsel
    obtain ⟨ht, hu⟩ := hsel
    -- a new attempt: its number is above all others
    have hnew : ∃ m, res.fixAttemptNumber = m + 1 ∧ m < S.maxFixAttempts ∧
        ∀ n ∈ fixNumbers w.sessions prUrl, n ≤ m := by
      cases hp with
      | quiet hop => cases hop
      | reserveIssue => cases ht
      | reserveFix _ _ _ hm hlt => cases hu; exact ⟨_, rfl, hlt, hcount _ _ _ hm⟩
    obtain ⟨m, hm, hlt, hle⟩ := hnew
    rw [happ, hm]
    exact (hnum prUrl).snoc hle hlt
  · refine ⟨?_, fun _ _ _ hm => by cases hm⟩
    intro prUrl
    rw [exec_update_sessions, fixNumbers_eq, numbersOf_update fun _ => rfl]
    exact hnum prUrl

theorem spawnedFixes_le (w : World) (prUrl : String) :
    spawnedFixes w prUrl ≤ (fixNumbers w.sessions prUrl).length := by
  rw [fixNumbers, List.length_map, ← List.countP_eq_length_filter]
  refine List.countP_mono_left ?_
  intro r _ hr
  simp only [Bool.and_eq_true] at hr
  exact hr.1

/-- **The cap on fix attempts**, along every serial run from the empty database in which the
attempts counted are all the attempts on the PR. -/
theorem fix_attempts_within_cap (now : Time) (tasks : List Task)
    (hR : SerialOK env S CountsAll (.initial now) tasks) (prUrl : String) :
    spawnedFixes (runSerial env S (.initial now) tasks) prUrl ≤ S.maxFixAttempts := by
  have hstart : FixesNumbered S (World.initial now).sessions :=
    fun prUrl => ⟨List.nodup_nil, fun n hn => by cases hn⟩
  have henter : ∀ w : World, FixesNumbered S w.sessions → FixesCounted S [] w :=
    fun w hI => ⟨hI, fun _ _ _ hm => by cases hm⟩
  have hinv : FixesNumbered S (runSerial env S (.initial now) tasks).sessions :=
    serial_inv (fun w => FixesNumbered S w.sessions) (FixesCounted S) henter (fun h w hJ _ => hJ.1)
      (fun h w op hJ _ hp hr => fixesCounted_step hJ hp hr) tasks hstart hR
  have hspawned := spawnedFixes_le (runSerial env S (.initial now) tasks) prUrl
  have hnumbered := (hinv prUrl).length_le
  omega

/-! ## Siblings -/

namespace Siblings

/-- The first fix session reports the PR as well as the original session does. -/
def outside : Outside :=
  { Outside.calm with
    getSession := fun _ sessionId =>
      if sessionId = "devin-4" ∨ sessionId = "devin-22" then .ok .exited
      else .ok { status := some "exit" } }

def settings : Settings := { maxFixAttempts := 2 }

/-- An issue and its session's end, and two CI failures, which get two fix sessions. -/
def twoFixes : List Task :=
  [.securityIssue (.sample 1), .poll, .ciFailure (.sample 100), .ciFailure (.sample 101), .poll]

theorem two_fixes_within_cap :
    spawnedFixes (runSerial outside settings (.initial 0) twoFixes) "https://github.com/o/r/pull/7" ≤
      2 :=
  fix_attempts_within_cap (S := settings) 0 twoFixes (by decide +kernel) _

/-- **The attempts of siblings are forgotten**: a third CI failure is counted against the
first fix session alone, and gets a third attempt where two are allowed. -/
theorem sibling_attempts_forgotten :
    ¬spawnedFixes (runSerial outside settings (.initial 0) (twoFixes ++ [.ciFailure (.sample 102)]))
      "https://github.com/o/r/pull/7" ≤ settings.maxFixAttempts := by
  decide +kernel

end Siblings

end Remediation
