import Remediation.Lib.Refine
import Remediation.Proof.Daily
import Remediation.Proof.Fifo
import Remediation.Proof.Representation

/-!
# The audit trail

What a row was reserved with, its primary key and the time it was started at are its entry in the
audit trail (`SessionRow.reserved`). In every interleaving of tasks, with crashes and restarts, the
trail only grows at its end, in the order of keys and of times (`audit_trail`): no row is dropped,
and nothing that says what a row is about is written a second time.
-/

namespace Remediation

open Interaction Relation

/-- What a row was reserved with. -/
def SessionRow.reserved (r : SessionRow) : ℕ × Time × Reservation :=
  (r.id, r.startedAt,
    { workKey := r.workKey
      triggerType := r.triggerType
      triggerRef := r.triggerRef
      issueNumber := r.issueNumber
      label := r.label
      parentDevinSessionId := r.parentDevinSessionId
      fixAttemptNumber := r.fixAttemptNumber })

def World.trail (w : World) : List (ℕ × Time × Reservation) := w.sessions.rows.map (·.reserved)

/-! ## Logs -/

section Log

variable {ε : Type} {r : ε → ε → Prop}

/-- One entry more, to which all that are there already are related. -/
def Logged (r : ε → ε → Prop) (l l' : List ε) : Prop := ∃ e, l' = l ++ [e] ∧ ∀ d ∈ l, r d e

theorem prefix_of_logged {l l' : List ε} (h : ReflTransGen (Logged r) l l') : l <+: l' := by
  induction h with
  | refl => exact List.prefix_refl l
  | tail _ hlast ih =>
    obtain ⟨e, rfl, -⟩ := hlast
    exact ih.trans (List.prefix_append _ _)

theorem pairwise_of_logged {l l' : List ε} (h : ReflTransGen (Logged r) l l') (hl : l.Pairwise r) :
    l'.Pairwise r := by
  induction h with
  | refl => exact hl
  | tail _ hlast ih =>
    obtain ⟨e, rfl, he⟩ := hlast
    refine List.pairwise_append.2 ⟨ih, List.pairwise_singleton r e, ?_⟩
    intro d hd e' he'
    rw [List.mem_singleton.1 he']
    exact he d hd

end Log

/-- The first entry has the smaller key and no later time. -/
def Earlier (d e : ℕ × Time × Reservation) : Prop := d.1 < e.1 ∧ d.2.1 ≤ e.2.1

variable {env : Outside} {S : Settings} {w : World} {h : Hist} {op : Op}

/-- Every row has a work key, and was started at a time that has passed. -/
def Timely (w : World) : Prop :=
  ∀ r ∈ w.sessions.rows, r.workKey ≠ "" ∧ r.startedAt ≤ currentTimestamp w.now

theorem workKey_ne_of_tryReserve {res : Reservation} (hp : Permits S h (.tryReserve res)) :
    res.workKey ≠ "" := by
  cases hp with
  | quiet hop => cases hop
  | reserveIssue => exact makeWorkKey_ne _ _ _
  | reserveFix => exact makeCiFixWorkKey_ne _ _

theorem timely_exec (hJ : Timely w) (hp : Permits S h op) : Timely (exec env op w).2 := by
  have hlater : currentTimestamp w.now ≤ currentTimestamp (exec env op w).2.now :=
    currentTimestamp_mono (now_le op)
  intro r hr
  rcases mem_exec hr with ⟨hr, -⟩ | ⟨res, rfl, rfl, -⟩ | ⟨r', hr', u, rfl, rfl⟩
  · exact ⟨(hJ r hr).1, (hJ r hr).2.trans hlater⟩
  · refine ⟨workKey_ne_of_tryReserve hp, ?_⟩
    rw [exec_now]
    exact le_rfl
  · exact ⟨(hJ r' hr').1, (hJ r' hr').2.trans hlater⟩

/-- Starting up finds nothing to do where every row has a key. -/
theorem boot_of_timely (hJ : Timely w) (n : ℕ) : w.boot n = w := by
  have hnone : (w.sessions.rows.filter fun r => r.workKey = "") = [] := by
    rw [List.filter_eq_nil_iff]
    intro r hr
    simpa using (hJ r hr).1
  have hsame : backfillMissingWorkKeys n w.sessions = w.sessions := by
    unfold backfillMissingWorkKeys
    rw [hnone]
    simp [backfill, Sessions.rekeyAll]
  rw [World.boot, hsame]

/-- An UPDATE that is permitted leaves the entry of its row alone. -/
theorem Permits.reserved_apply {pk : ℕ} {u : Update} (hp : Permits S h (.update pk u))
    (r : SessionRow) : (u.apply r).reserved = r.reserved := by
  have hparent : u.parentDevinSessionId = none := hp.update_status.2.1
  simp [SessionRow.reserved, Update.apply, hparent]

theorem trail_exec (hJ : Timely w) (hp : Permits S h op) :
    ReflGen (Logged Earlier) w.trail (exec env op w).2.trail := by
  rcases op.write_cases with hop | ⟨res, rfl⟩ | ⟨pk, u, rfl⟩
  · rw [World.trail, World.trail, exec_sessions hop]
  · rcases exec_tryReserve env w res with ⟨pk, t, -, ht, hw⟩ | ⟨-, -, hw⟩
    · obtain ⟨rfl, -, hrows⟩ := Sessions.tryReserve_eq_some ht
      have htrail : (exec env (.tryReserve res) w).2.trail =
          w.trail ++ [(res.row (w.tick env).now w.sessions.next).reserved] := by
        rw [World.trail, hw, hrows, List.map_append]
        rfl
      rw [htrail]
      refine ReflGen.single ⟨_, rfl, ?_⟩
      intro d hd
      obtain ⟨r, hr, rfl⟩ := List.mem_map.1 hd
      have htime : currentTimestamp w.now ≤ currentTimestamp (w.tick env).now :=
        currentTimestamp_mono (Int.le_add_of_nonneg_right (Int.natCast_nonneg _))
      exact ⟨w.sessions.fresh r hr, (hJ r hr).2.trans htime⟩
    · rw [World.trail, World.trail, hw]
  · have hsame : (exec env (.update pk u) w).2.trail = w.trail := by
      rw [World.trail, exec_update_sessions, Sessions.update_rows]
      exact Table.map_update (·.reserved) _ pk u.apply hp.reserved_apply
    rw [hsame]

/-- The service refines a log that is written to at its end, in order. -/
theorem service_logs (env : Outside) (S : Settings) :
    (service env S).Refines World.trail (Logged Earlier) fun c =>
      Timely c.world ∧ System.KeepsAll (contract S) Settled c := by
  refine System.refines_of_exec (fun w _ => Timely w) keeps_task (fun _ _ hJ => hJ) ?_
    (fun w _ _ op _ _ _ => exec_honest env op w) (fun _ _ _ _ _ hJ _ hp => timely_exec hJ hp)
    (fun _ _ _ _ hJ _ hp => trail_exec hJ hp) ?_
  · intro w _ n hJ
    have hsame : (service env S).boot n w = w := boot_of_timely hJ n
    rw [hsame]
    exact hJ
  · intro w _ n hJ
    exact congrArg World.trail (boot_of_timely hJ n)

theorem timely_run (env : Outside) (S : Settings) (now : Time) (acts : List (Act Task ℕ)) :
    let c := (service env S).run ⟨.initial now, []⟩ acts
    Timely c.world ∧ System.KeepsAll (contract S) Settled c := by
  have hempty : Timely (World.initial now) := fun r hr => by cases hr
  exact (service_logs env S).run_keeps acts (c := ⟨.initial now, []⟩)
    ⟨hempty, fun t ht => by cases ht⟩

/-- The rows are in the order of their keys, and of the times they were started at. -/
theorem trail_ordered (env : Outside) (S : Settings) (now : Time) (acts : List (Act Task ℕ)) :
    ((service env S).run ⟨.initial now, []⟩ acts).world.trail.Pairwise Earlier :=
  pairwise_of_logged ((service_logs env S).run acts (timely_run env S now [])) List.Pairwise.nil

/-- **The audit trail.** From the empty database, in every interleaving of tasks with crashes and
restarts: what the rows were reserved with at one point is the beginning of what they were
reserved with at every later point, and the entries are in the order of their keys and times. -/
theorem audit_trail (now : Time) (acts acts' : List (Act Task ℕ)) :
    let c := (service env S).run ⟨.initial now, []⟩ acts
    c.world.trail <+: ((service env S).run c acts').world.trail ∧ c.world.trail.Pairwise Earlier := by
  intro c
  have hgo := (service_logs env S).run acts' (timely_run env S now acts)
  exact ⟨prefix_of_logged hgo, trail_ordered env S now acts⟩

end Remediation
