import Mathlib.Algebra.Order.Field.Rat
import Remediation.Proof.Absorbing
import Remediation.Proof.AuditTrail
import Remediation.Proof.LifeCycle
import Remediation.Spec.Dashboard

/-!
# What the dashboard says

The read side against the service. In every state that an interleaving of tasks with crashes and
restarts leads to, the most recent sessions are the last rows of the table (`listRecent_run`), and
as long as the limit of `/metrics` cuts off no row its figures are those of the table
(`metrics_of_run`). Sessions, sessions with a pull request and sessions with a label are counted
over the life of the table: these figures never go down (`lifetime_counts`).
-/

namespace Remediation

open Interaction

/-! ## Buckets -/

section Buckets

variable (V : ValueSettings) (rows : List SessionRow)

/-- A row counts once among the five figures, or twice if it is active and needs a human. -/
theorem buckets_row (s : Status) :
    (if s.active = true then 1 else 0) + (if decide (s = .completed) = true then 1 else 0) +
        (if decide (s = .failed) = true then 1 else 0) +
        (if decide (s = .cancelled) = true then 1 else 0) +
        (if needsHumanStatuses.contains s = true then 1 else 0) =
      1 + if (s.active && needsHumanStatuses.contains s) = true then 1 else 0 := by
  cases s <;> decide

/-- **The figures overlap** in the sessions that are active and need a human, and nowhere else. -/
theorem buckets_eq :
    let m := computeDashboardMetrics V rows
    m.activeSessions + m.completedSessions + m.failedSessions + m.cancelledSessions + m.needsHuman =
      m.totalSessions +
        rows.countP fun r => r.status.active && needsHumanStatuses.contains r.status := by
  dsimp only [computeDashboardMetrics]
  induction rows with
  | nil => rfl
  | cons r rows ih =>
    have hrow := buckets_row r.status
    simp only [List.countP_cons, List.length_cons]
    omega

/-! ## The success rate -/

theorem le_roundHalfEven {n : ℤ} {q : ℚ} (h : n ≤ q) : n ≤ roundHalfEven q := by
  have hfloor : n ≤ ⌊q⌋ := Int.le_floor.2 h
  unfold roundHalfEven
  dsimp only
  split_ifs <;> omega

theorem roundHalfEven_le {n : ℤ} {q : ℚ} (h : q ≤ n) : roundHalfEven q ≤ n := by
  have hfloor : ⌊q⌋ ≤ n := by exact_mod_cast (Int.floor_le q).trans h
  -- there is nothing to round up where the bound itself is reached
  have hbelow : ¬q - ⌊q⌋ < 1 / 2 → ⌊q⌋ < n := by
    intro hup
    by_contra hge
    have heq : ⌊q⌋ = n := by omega
    rw [heq] at hup
    exact hup (by linarith)
  unfold roundHalfEven
  dsimp only
  split_ifs with h1 h2 h3
  · exact hfloor
  · have := hbelow h1
    omega
  · exact hfloor
  · have := hbelow h1
    omega

theorem roundTo_mem_unit (digits : ℕ) {q : ℚ} (h0 : 0 ≤ q) (h1 : q ≤ 1) :
    0 ≤ roundTo digits q ∧ roundTo digits q ≤ 1 := by
  have hpow : (0 : ℚ) < 10 ^ digits := by positivity
  have hlow : (0 : ℤ) ≤ roundHalfEven (q * 10 ^ digits) :=
    le_roundHalfEven (by push_cast; positivity)
  have hhigh : roundHalfEven (q * 10 ^ digits) ≤ (10 ^ digits : ℤ) :=
    roundHalfEven_le (by push_cast; nlinarith)
  unfold roundTo
  refine ⟨div_nonneg (by exact_mod_cast hlow) hpow.le, ?_⟩
  rw [div_le_one hpow]
  exact_mod_cast hhigh

theorem successful_le_terminal :
    (rows.countP fun r => r.status.terminal && r.hasPr) ≤ rows.countP fun r => r.status.terminal := by
  refine List.countP_mono_left ?_
  intro r _ hr
  simp only [Bool.and_eq_true] at hr
  exact hr.1

/-- **The success rate is a rate**: what it counts is counted among the terminal sessions. -/
theorem successRate_mem_unit :
    0 ≤ (computeDashboardMetrics V rows).successRate ∧
      (computeDashboardMetrics V rows).successRate ≤ 1 := by
  have hle := successful_le_terminal rows
  dsimp only [computeDashboardMetrics]
  split_ifs with hzero
  · exact roundTo_mem_unit 3 le_rfl zero_le_one
  · have hpos : (0 : ℚ) < ((rows.countP fun r => r.status.terminal : ℕ) : ℚ) := by
      exact_mod_cast Nat.pos_of_ne_zero hzero
    refine roundTo_mem_unit 3 (div_nonneg (Nat.cast_nonneg _) hpos.le) ?_
    rw [div_le_one hpos]
    exact_mod_cast hle

end Buckets

/-! ## The window on the table -/

variable {env : Outside} {S : Settings} {w : World} {h : Hist} {op : Op}

theorem orderByStarted_run (env : Outside) (S : Settings) (now : Time) (acts : List (Act Task ℕ)) :
    let t := ((service env S).run ⟨.initial now, []⟩ acts).world.sessions
    orderByStarted t.rows = t.rows := by
  have hord := trail_ordered env S now acts
  rw [World.trail, List.pairwise_map] at hord
  exact List.Pairwise.insertionSort_eq (hord.imp fun h => h.2)

/-- **The newest first.** In every state that is reached, the most recent sessions are the last
rows of the table, up to the limit. -/
theorem listRecent_run (env : Outside) (S : Settings) (now : Time) (acts : List (Act Task ℕ))
    (limit : ℤ) :
    let t := ((service env S).run ⟨.initial now, []⟩ acts).world.sessions
    t.listRecent limit = if limit < 0 then t.rows.reverse else t.rows.reverse.take limit.toNat := by
  intro t
  have hsorted : orderByStarted t.rows = t.rows := orderByStarted_run env S now acts
  rw [Sessions.listRecent, hsorted]

theorem listRecent_all (env : Outside) (S : Settings) (now : Time) (acts : List (Act Task ℕ)) :
    let t := ((service env S).run ⟨.initial now, []⟩ acts).world.sessions
    t.rows.length ≤ 10000 → t.listRecent 10000 = t.rows.reverse := by
  intro t hfew
  have hrecent : t.listRecent 10000 = _ := listRecent_run env S now acts 10000
  rw [hrecent, if_neg (by decide), List.take_of_length_le]
  rw [List.length_reverse]
  exact hfew

/-! ## Labels -/

/-- The label that goes with a trigger. -/
def TriggerType.label : TriggerType → String
  | cveIssue => securityLabel
  | ciFailure => ciFixLabel

theorem label_of_tryReserve {res : Reservation} (hp : Permits S h (.tryReserve res)) :
    res.label = some res.triggerType.label := by
  cases hp with
  | quiet hop => cases hop
  | reserveIssue => rfl
  | reserveFix => rfl

theorem labelled_run (env : Outside) (S : Settings) (now : Time) (acts : List (Act Task ℕ)) :
    ∀ r ∈ ((service env S).run ⟨.initial now, []⟩ acts).world.sessions.rows,
      r.label = some r.triggerType.label := by
  refine (service_inv (R := fun _ _ _ _ => True)
    (fun w => ∀ r ∈ w.sessions.rows, r.label = some r.triggerType.label) ?_ ?_ acts
    (fun r hr => by cases hr) (fun t ht => by cases ht) (System.runOK_true _ acts)).1
  · intro w n hJ r hr
    let g : SessionRow → Option String × TriggerType := fun r => (r.label, r.triggerType)
    have hmap : (w.boot n).sessions.rows.map g = w.sessions.rows.map g :=
      map_backfillMissingWorkKeys g (fun _ _ => rfl) n w.sessions
    obtain ⟨r', hr', he⟩ := List.mem_map.1 (hmap ▸ List.mem_map_of_mem (f := g) hr)
    simp only [g, Prod.mk.injEq] at he
    rw [← he.1, ← he.2]
    exact hJ r' hr'
  · intro w h op hJ hp _ r hr
    rcases mem_exec hr with ⟨hr, -⟩ | ⟨res, rfl, rfl, -⟩ | ⟨r', hr', u, -, rfl⟩
    · exact hJ r hr
    · exact label_of_tryReserve hp
    · exact hJ r' hr'

/-- The labels that are counted: no row is without one. -/
theorem labels_eq {rows : List SessionRow} (hl : ∀ r ∈ rows, r.label = some r.triggerType.label) :
    (rows.filterMap fun r => PyText.truthy r.label) = rows.map fun r => r.triggerType.label := by
  rw [← List.filterMap_eq_map]
  refine List.filterMap_congr fun r hr => ?_
  have hne : r.triggerType.label ≠ "" := by cases r.triggerType <;> decide
  rw [hl r hr]
  exact PyText.truthy_eq_some.2 ⟨rfl, hne⟩

theorem count_label {rows : List SessionRow} (hl : ∀ r ∈ rows, r.label = some r.triggerType.label)
    (l : String) :
    (rows.filterMap fun r => PyText.truthy r.label).count l =
      rows.countP fun r => r.triggerType.label = l := by
  rw [labels_eq hl, List.count, List.countP_map]
  rfl

/-! ## The figures of a run -/

/-- **The figures of the table.** In every state that is reached with no more rows than `/metrics`
looks at: the active sessions are those that count against the cap; the five figures add up to all
sessions and those that need attention; the labels are those of the two triggers, each once and with
its number of rows, and every session has one; the success rate is one; and the last activity is the
start of the last row. -/
theorem metrics_of_run (V : ValueSettings) (now : Time) (acts : List (Act Task ℕ)) :
    let t := ((service env S).run ⟨.initial now, []⟩ acts).world.sessions
    let m := metricsEndpoint V t
    t.rows.length ≤ 10000 →
      m.totalSessions = t.rows.length ∧ m.activeSessions = t.countActive ∧
      m.activeSessions + m.completedSessions + m.failedSessions + m.cancelledSessions +
          m.needsHuman = m.totalSessions + (t.rows.countP fun r => r.status = .needsAttention) ∧
      (∀ l n, (l, n) ∈ m.byLabel ↔ 0 < n ∧ n = t.rows.countP fun r => r.triggerType.label = l) ∧
      ((m.byLabel.map Prod.fst).Nodup ∧ (m.byLabel.map Prod.snd).sum = m.totalSessions) ∧
      (0 ≤ m.successRate ∧ m.successRate ≤ 1) ∧
      m.lastActivityAt = t.rows.getLast?.map (·.startedAt) := by
  intro t m hfew
  have hrecent : t.listRecent 10000 = t.rows.reverse := listRecent_all env S now acts hfew
  have hm : m = computeDashboardMetrics V t.rows.reverse := by
    simp only [m, metricsEndpoint, hrecent]
  have hl : ∀ r ∈ t.rows.reverse, r.label = some r.triggerType.label := fun r hr =>
    labelled_run env S now acts r (List.mem_reverse.1 hr)
  refine ⟨?_, ?_, ?_, ?_, ⟨?_, ?_⟩, ?_, ?_⟩
  · rw [hm]
    exact List.length_reverse
  · rw [hm]
    exact List.countP_reverse
  · have hbuckets := buckets_eq V t.rows.reverse
    rw [← hm] at hbuckets
    rw [hbuckets, List.countP_reverse]
    refine congrArg _ (List.countP_congr fun r hr => ?_)
    -- no row is blocked
    have hlegal := legal_run env S now acts r.id
    rw [World.phase_of_mem hr, SessionRow.phase] at hlegal
    have hnb : r.status ≠ .blocked := by
      cases hx : r.devinSessionId with
      | none =>
        rw [hx] at hlegal
        rcases hlegal with hst | hst | hst <;> rw [hst] <;> decide
      | some x =>
        rw [hx] at hlegal
        exact hlegal.2
    cases hst : r.status <;> first | exact absurd hst hnb | decide
  · intro l n
    rw [hm]
    refine (Tally.mem_tally _).trans ?_
    rw [count_label hl, List.countP_reverse]
  · rw [hm]
    exact Tally.nodup_tally _
  · rw [hm]
    refine (Tally.sum_tally _).trans ?_
    rw [labels_eq hl, List.length_map]
    rfl
  · exact successRate_mem_unit V _
  · rw [hm]
    change t.rows.reverse.head?.map _ = _
    rw [List.head?_reverse]

namespace Escalated

open Overtaken

/-- The original session is escalated, and the fix cancelled. -/
theorem metrics_of_escalation :
    let m := metricsEndpoint {}
      ((service outside settings).run ⟨.initial 0, []⟩ before).world.sessions
    m.totalSessions = 2 ∧ m.activeSessions = 1 ∧
      m.activeSessions + m.completedSessions + m.failedSessions + m.cancelledSessions +
        m.needsHuman = 3 ∧ (securityLabel, 1) ∈ m.byLabel ∧ (ciFixLabel, 1) ∈ m.byLabel := by
  intro m
  have hrows : let t := ((service outside settings).run ⟨.initial 0, []⟩ before).world.sessions
      t.rows.length = 2 ∧ t.countActive = 1 ∧
        (t.rows.countP fun r => r.status = .needsAttention) = 1 ∧
        (t.rows.countP fun r => r.triggerType.label = securityLabel) = 1 ∧
        (t.rows.countP fun r => r.triggerType.label = ciFixLabel) = 1 := by decide +kernel
  obtain ⟨hlen, hact, hneeds, hissue, hfix⟩ := hrows
  obtain ⟨htotal, hactive, hsum, hlabel, -⟩ := @metrics_of_run outside settings {} 0 before
    (by omega)
  refine ⟨htotal.trans hlen, hactive.trans hact, ?_, (hlabel _ _).2 ⟨one_pos, hissue.symm⟩,
    (hlabel _ _).2 ⟨one_pos, hfix.symm⟩⟩
  rw [hsum, htotal, hlen, hneeds]

end Escalated

/-! ## Figures that never go down -/

/-- No permitted UPDATE takes the property away, and a restart does not touch it. -/
structure Lasting (S : Settings) (p : SessionRow → Bool) : Prop where
  update : ∀ {h pk u}, Permits S h (.update pk u) → ∀ r, p r = true → p (u.apply r) = true
  boot : ∀ k r, p (r.setWorkKey k) = p r

/-- What lasts is counted over the life of the table. -/
theorem Lasting.countP_le {p : SessionRow → Bool} (hp : Lasting S p) (acts : List (Act Task ℕ))
    {c : Config Ans Unit World} (hK : System.KeepsAll (contract S) Settled c) :
    c.world.sessions.rows.countP p ≤
      ((service env S).run c acts).world.sessions.rows.countP p := by
  refine (service_inv (R := fun _ _ _ _ => True)
    (fun w => c.world.sessions.rows.countP p ≤ w.sessions.rows.countP p) ?_ ?_ acts le_rfl hK
    (System.runOK_true _ acts)).1
  · intro w n hJ
    have hmap : (w.boot n).sessions.rows.map p = w.sessions.rows.map p :=
      map_backfillMissingWorkKeys p hp.boot n w.sessions
    have hcount : ∀ l : List SessionRow, l.countP p = (l.map p).countP id := fun l => by
      rw [List.countP_map]
      rfl
    rw [hcount (w.boot n).sessions.rows, hmap, ← hcount]
    exact hJ
  · intro w h op hJ hperm _
    refine hJ.trans ?_
    rcases op.write_cases with hop | ⟨res, rfl⟩ | ⟨pk, u, rfl⟩
    · rw [exec_sessions hop]
    · rcases rows_tryReserve env w res with hrows | ⟨pk, hrows⟩
      · rw [hrows]
      · rw [hrows, List.countP_append]
        exact Nat.le_add_right _ _
    · rw [exec_update_sessions, Sessions.update_rows, List.countP_map]
      refine List.countP_mono_left fun r _ hr => ?_
      by_cases hpk : r.id = pk
      · simpa [hpk] using hp.update hperm r hr
      · simpa [hpk] using hr

theorem lasting_all (S : Settings) : Lasting S fun _ => true where
  update _ _ h := h
  boot _ _ := rfl

theorem lasting_label (S : Settings) (l : String) : Lasting S fun r => r.triggerType.label = l where
  update _ _ h := h
  boot _ _ := rfl

/-- The poller never writes an empty address of a pull request. -/
theorem firstPrUrl_ne (data : ApiSession) : (fromApiResponse data).firstPrUrl ≠ some "" := by
  intro he
  unfold SessionDetails.firstPrUrl at he
  obtain ⟨p, hp, hurl⟩ := Option.map_eq_some_iff.1 he
  have hmem := List.mem_of_mem_head? hp
  simp only [fromApiResponse, List.mem_filterMap] at hmem
  obtain ⟨q, -, hq⟩ := hmem
  obtain ⟨url, hurl', rfl⟩ := Option.map_eq_some_iff.1 hq
  exact (PyText.truthy_eq_some.1 hurl').2 hurl

theorem Permits.update_prUrl {pk : ℕ} {u : Update} (hp : Permits S h (.update pk u)) :
    u.prUrl ≠ some "" := by
  cases hp with
  | quiet hop => cases hop
  | poll _ _ _ _ _ hu =>
    cases hu with
    | timedOut => simp
    | unchanged => simp
    | _ => exact firstPrUrl_ne _
  | _ => simp

theorem lasting_hasPr (S : Settings) : Lasting S SessionRow.hasPr where
  update hp r hr := by
    have hne := hp.update_prUrl
    have hpr : ∀ o : Option String, o ≠ some "" →
        (PyText.truthy (o.or r.prUrl)).isSome = true := by
      intro o ho
      cases o with
      | none => exact hr
      | some url =>
        have hurl : url ≠ "" := fun he => ho (congrArg some he)
        exact Option.isSome_iff_exists.2 ⟨url, PyText.truthy_eq_some.2 ⟨rfl, hurl⟩⟩
    exact hpr _ hne
  boot _ _ := rfl

/-- **Lifetime counts.** As long as `/metrics` looks at every row, the number of sessions, the
number of those that have opened a pull request, and the number under each label never go down. -/
theorem lifetime_counts (V : ValueSettings) (now : Time) (acts acts' : List (Act Task ℕ)) :
    let c := (service env S).run ⟨.initial now, []⟩ acts
    let c' := (service env S).run c acts'
    let m := metricsEndpoint V c.world.sessions
    let m' := metricsEndpoint V c'.world.sessions
    c'.world.sessions.rows.length ≤ 10000 →
      m.totalSessions ≤ m'.totalSessions ∧ m.prCreated ≤ m'.prCreated ∧
        ∀ l n, (l, n) ∈ m.byLabel → ∃ n', n ≤ n' ∧ (l, n') ∈ m'.byLabel := by
  intro c c' m m' hfew
  have hkeeps : System.KeepsAll (contract S) Settled c := service_keeps _ acts
  have hrun : c' = (service env S).run ⟨.initial now, []⟩ (acts ++ acts') := by
    simp only [c', c, System.run, List.foldl_append]
  have hcount : ∀ {p : SessionRow → Bool}, Lasting S p →
      c.world.sessions.rows.countP p ≤ c'.world.sessions.rows.countP p :=
    fun hp => hp.countP_le acts' hkeeps
  have hlen : c.world.sessions.rows.length ≤ c'.world.sessions.rows.length := by
    simpa using hcount (lasting_all S)
  -- both ends are seen whole
  have hm : m = computeDashboardMetrics V c.world.sessions.rows.reverse := by
    simp only [m, metricsEndpoint]
    rw [listRecent_all env S now acts (hlen.trans hfew)]
  have hm' : m' = computeDashboardMetrics V c'.world.sessions.rows.reverse := by
    have hall := listRecent_all env S now (acts ++ acts')
    rw [← hrun] at hall
    simp only [m', metricsEndpoint]
    rw [hall hfew]
  have hl : ∀ r ∈ c.world.sessions.rows.reverse, r.label = some r.triggerType.label := fun r hr =>
    labelled_run env S now acts r (List.mem_reverse.1 hr)
  have hl' : ∀ r ∈ c'.world.sessions.rows.reverse, r.label = some r.triggerType.label := by
    intro r hr
    rw [hrun] at hr
    exact labelled_run env S now (acts ++ acts') r (List.mem_reverse.1 hr)
  rw [hm, hm']
  refine ⟨?_, ?_, ?_⟩
  · simpa [computeDashboardMetrics] using hlen
  · simpa [computeDashboardMetrics] using hcount (lasting_hasPr S)
  · intro l n hn
    obtain ⟨hpos, rfl⟩ := (Tally.mem_tally _).1 hn
    rw [count_label hl, List.countP_reverse] at hpos ⊢
    have hle := hcount (lasting_label S l)
    refine ⟨_, hle, (Tally.mem_tally _).2 ⟨by omega, ?_⟩⟩
    rw [count_label hl', List.countP_reverse]

namespace Growing

open Overtaken

def issued : List (Act Task ℕ) := .spawn (.securityIssue (.sample 1)) :: List.replicate 10 (.run 0)

/-- A tick, which sees the pull request, and a fix. -/
def fixed : List (Act Task ℕ) :=
  .spawn .poll :: List.replicate 12 (.run 1) ++
  .spawn (.ciFailure (.sample 100)) :: List.replicate 12 (.run 2)

theorem counts_after_fix :
    let c := (service outside settings).run ⟨.initial 0, []⟩ issued
    let m := metricsEndpoint {} c.world.sessions
    let m' := metricsEndpoint {} ((service outside settings).run c fixed).world.sessions
    (m.totalSessions = 1 ∧ m.prCreated = 0 ∧ m'.totalSessions = 2 ∧ m'.prCreated = 1) ∧
      (m.totalSessions ≤ m'.totalSessions ∧ m.prCreated ≤ m'.prCreated ∧
        ∀ l n, (l, n) ∈ m.byLabel → ∃ n', n ≤ n' ∧ (l, n') ∈ m'.byLabel) :=
  ⟨by decide +kernel, lifetime_counts {} 0 issued fixed (by decide +kernel)⟩

end Growing

end Remediation
