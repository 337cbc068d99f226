import Remediation.Proof.Capacity
import Remediation.Proof.FixAttempts
import Remediation.Proof.Representation

/-!
# The numbers of fix attempts under concurrency

The number of an attempt is counted by one statement and inserted by another, with the
calls for the commits in between, and the work key is that of the run. The attempts on one
parent get different numbers within the cap along every interleaving in which no count is
overtaken (`attempts_numbered`); two runs that fail at once get the same number
(`same_number_twice`).
-/

namespace Remediation

open Interaction

/-- The rows of fix attempts on the session `x`. -/
def isChildOf (x : String) (r : SessionRow) : Bool := r.parentDevinSessionId = some x

/-- The attempts on a session have different numbers, and are no more than the cap. -/
def AttemptsNumbered (S : Settings) (t : Sessions) (x : String) : Prop :=
  ((t.rows.filter (isChildOf x)).map (·.fixAttemptNumber)).Nodup ∧
    t.rows.countP (isChildOf x) ≤ S.maxFixAttempts

instance (S : Settings) (t : Sessions) (x : String) : Decidable (AttemptsNumbered S t x) :=
  inferInstanceAs (Decidable (_ ∧ _))

/-- No count is overtaken: when a fix attempt is inserted, the attempts recorded for the
parent are no more than those that the handler has counted. -/
def CountStands (h : Hist) (w : World) (op : Op) (_ : Ans op) : Prop :=
  ∀ res ∈ op.reservation, res.triggerType = .ciFailure →
    res.workKey ∉ w.sessions.rows.map (·.workKey) → ∀ c ∈ counted h,
      w.sessions.maxFixAttemptForParent c.2.1.devinSessionId ≤ c.2.2

instance (h : Hist) (w : World) (op : Op) (a : Ans op) : Decidable (CountStands h w op a) :=
  inferInstanceAs (Decidable (∀ res ∈ op.reservation, _))

variable {env : Outside} {S : Settings} {w : World} {h : Hist} {op : Op} {x : String}

theorem le_max_of_child {t : Sessions} {n : ℕ} (hn : n ∈ numbersOf (isChildOf x) t) :
    n ≤ t.maxFixAttemptForParent (some x) := by
  obtain ⟨r, hr, rfl⟩ := List.mem_map.1 hn
  obtain ⟨hr, hx⟩ := List.mem_filter.1 hr
  exact Sessions.le_maxFixAttemptForParent hr rfl (Or.inr (by simpa [isChildOf] using hx))

/-- A restart leaves the attempts alone. -/
theorem numbersOf_boot (n : ℕ) (w : World) :
    numbersOf (isChildOf x) (w.boot n).sessions = numbersOf (isChildOf x) w.sessions :=
  numbersOf_congr (map_backfillMissingWorkKeys (fun r => (isChildOf x r, r.fixAttemptNumber))
    (fun _ _ => rfl) n w.sessions)

/-- An attempt that is inserted gets the next number, by the condition. -/
theorem numbered_tryReserve {res : Reservation} (hp : Permits S h (.tryReserve res))
    (hR : CountStands h w (.tryReserve res) (exec env (.tryReserve res) w).1)
    (hJ : Numbered S.maxFixAttempts (numbersOf (isChildOf x) w.sessions)) :
    Numbered S.maxFixAttempts
      (numbersOf (isChildOf x) (exec env (.tryReserve res) w).2.sessions) := by
  rcases exec_tryReserve env w res with ⟨pk, t, -, ht, -⟩ | ⟨-, -, hw⟩
  swap
  · rw [hw]
    exact hJ
  obtain ⟨-, hnew, -⟩ := Sessions.tryReserve_eq_some ht
  rcases numbersOf_tryReserve (isChildOf x) env w res with hsame | ⟨pk, hsel, happ⟩
  · rw [hsame]
    exact hJ
  have hparent : res.parentDevinSessionId = some x := of_decide_eq_true hsel
  cases hp with
  | quiet hop => cases hop
  | reserveIssue => cases hparent
  | @reserveFix t _ m _ _ _ hm hlt =>
    have hmax := hR _ rfl rfl hnew _ hm
    have hx : t.parent.devinSessionId = some x := hparent
    rw [hx] at hmax
    rw [happ]
    exact hJ.snoc (fun n hn => (le_max_of_child hn).trans hmax) hlt

theorem numbered_exec (hp : Permits S h op) (hR : CountStands h w op (exec env op w).1)
    (hJ : Numbered S.maxFixAttempts (numbersOf (isChildOf x) w.sessions)) :
    Numbered S.maxFixAttempts (numbersOf (isChildOf x) (exec env op w).2.sessions) := by
  rcases op.write_cases with hop | ⟨res, rfl⟩ | ⟨pk, u, rfl⟩
  · rw [exec_sessions hop]
    exact hJ
  · exact numbered_tryReserve hp hR hJ
  · rw [exec_update_sessions, numbersOf_update]
    · exact hJ
    · intro r
      -- no UPDATE moves an attempt to another parent
      simp [isChildOf, Update.apply, hp.update_status.2.1]

/-- **Attempts on one parent are numbered**: along every interleaving from the empty database
in which no count is overtaken, with crashes and restarts. -/
theorem attempts_numbered (now : Time) (acts : List (Act Task ℕ))
    (hR : (service env S).RunOK CountStands ⟨.initial now, []⟩ acts) (x : String) :
    AttemptsNumbered S ((service env S).run ⟨.initial now, []⟩ acts).world.sessions x := by
  have hboot : ∀ (w : World) n, Numbered S.maxFixAttempts (numbersOf (isChildOf x) w.sessions) →
      Numbered S.maxFixAttempts (numbersOf (isChildOf x) (w.boot n).sessions) := by
    intro w n hJ
    rw [numbersOf_boot]
    exact hJ
  have hstart : Numbered S.maxFixAttempts (numbersOf (isChildOf x) (World.initial now).sessions) :=
    ⟨List.nodup_nil, fun n hn => by cases hn⟩
  have hinv := (service_inv (R := CountStands)
    (fun w => Numbered S.maxFixAttempts (numbersOf (isChildOf x) w.sessions)) hboot
    (fun w h op hJ hp hR => numbered_exec hp hR hJ) acts hstart (by simp [System.KeepsAll]) hR).1
  refine ⟨hinv.1, ?_⟩
  have hlen := hinv.length_le
  rwa [numbersOf, List.length_map, ← List.countP_eq_length_filter] at hlen

/-! ## Two runs that fail at once -/

namespace TwoRuns

/-- An issue and the end of its session, and two CI failures. -/
def upTo : List (Act Task ℕ) :=
  .spawn (.securityIssue (.sample 1)) :: List.replicate 6 (.run 0) ++
  .spawn .poll :: List.replicate 8 (.run 1) ++
  [.spawn (.ciFailure (.sample 100)), .spawn (.ciFailure (.sample 101))]

def inTurn : List (Act Task ℕ) := upTo ++ List.replicate 10 (.run 2) ++ List.replicate 10 (.run 3)

theorem two_attempts_in_turn :
    AttemptsNumbered {}
      ((service Siblings.outside {}).run ⟨.initial 0, []⟩ inTurn).world.sessions "devin-4" :=
  attempts_numbered 0 inTurn (by decide +kernel) _

/-- Both handlers count before either inserts. -/
def raced : List (Act Task ℕ) :=
  upTo ++ List.replicate 3 (.run 2) ++ List.replicate 10 (.run 3) ++ List.replicate 7 (.run 2)

/-- **Two first attempts** on one parent, where one attempt is allowed. -/
theorem same_number_twice :
    ¬AttemptsNumbered { maxFixAttempts := 1 }
      ((service Siblings.outside { maxFixAttempts := 1 }).run ⟨.initial 0, []⟩ raced).world.sessions
      "devin-4" := by
  decide +kernel

end TwoRuns

end Remediation
