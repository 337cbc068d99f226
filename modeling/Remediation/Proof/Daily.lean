import Remediation.Proof.AtMostOnce
import Remediation.Proof.Capacity
import Remediation.Proof.Serial

/-!
# The cap on sessions a day

`MAX_SESSIONS_PER_DAY` is checked by `handle_security_issue` only. The sessions that start
on a day stay within the cap along every serial run in which fix attempts are inserted
below it as well (`sessions_within_daily_cap`); a CI failure that meets the cap gets its
session all the same (`fix_exceeds_daily_cap`).
-/

namespace Remediation

open Interaction

/-- How many of the sessions that started on a day have come as far as `create_session`. -/
def spawnedOn (w : World) (day : ℤ) : ℕ :=
  w.sessions.rows.countP fun r =>
    Sessions.date r.startedAt = day && 0 < createCount r.workKey w.trace

/-- A fix attempt is inserted only while fewer sessions than the daily cap have started. -/
def FixesRationed (env : Outside) (S : Settings) (_ : Hist) (w : World) (op : Op) (_ : Ans op) :
    Prop :=
  ∀ res ∈ op.reservation, res.triggerType = .ciFailure →
    res.workKey ∉ w.sessions.rows.map (·.workKey) →
      w.sessions.countStartedToday (w.tick env).now < S.maxSessionsPerDay

instance (env : Outside) (S : Settings) (h : Hist) (w : World) (op : Op) (a : Ans op) :
    Decidable (FixesRationed env S h w op a) :=
  inferInstanceAs (Decidable (∀ res ∈ op.reservation, _))

variable {env : Outside} {S : Settings} {w : World} {h : Hist} {n : ℕ}

/-! ## The rows of a run -/

/-- How many rows with a primary key from `n` on started on a day. -/
def newOn (t : Sessions) (n : ℕ) (day : ℤ) : ℕ :=
  t.rows.countP fun r => n ≤ r.id && Sessions.date r.startedAt = day

/-- Inside a task: what it has counted is still so, and what it holds is new. -/
structure Rationed (S : Settings) (n : ℕ) (h : Hist) (w : World) : Prop where
  within : ∀ day, newOn w.sessions n day ≤ S.maxSessionsPerDay
  past : ∀ r ∈ w.sessions.rows, n ≤ r.id → r.startedAt ≤ w.now
  next : n ≤ w.sessions.next
  created : ∀ k, 0 < createCount k w.trace → ∃ r ∈ w.sessions.rows, r.workKey = k ∧ n ≤ r.id
  today : ∀ m, lastToday h = some m → ∃ t ≤ w.now, w.sessions.countStartedToday t = m ∧
    ∀ r ∈ w.sessions.rows, n ≤ r.id → r.startedAt ≤ t
  mine : ∀ hd, held h = some hd → n ≤ hd.pk

theorem newOn_le (t : Sessions) (n : ℕ) (now : Time) :
    newOn t n (Sessions.date now) ≤ t.countStartedToday now := by
  refine List.countP_mono_left ?_
  intro r _ hr
  simp only [Bool.and_eq_true] at hr
  exact hr.2

theorem currentTimestamp_le (t : Time) : currentTimestamp t ≤ t :=
  Int.ediv_mul_le t (by decide)

theorem date_currentTimestamp (t : Time) : Sessions.date (currentTimestamp t) = Sessions.date t := by
  unfold Sessions.date currentTimestamp
  omega

/-- An earlier day is over once a later one has begun. -/
theorem date_mono {t t' : Time} (h : t ≤ t') : Sessions.date t ≤ Sessions.date t' :=
  Int.ediv_le_ediv (by decide) h

/-! ## One operation -/

/-- What a task knows of the day stays so until it inserts a row itself. -/
theorem Rationed.skip (hJ : Rationed S n h w) {w' : World} {e : Entry Ans}
    (hs : w'.sessions = w.sessions) (hnow : w.now ≤ w'.now)
    (htoday : ∀ m, lastToday (e :: h) = some m → lastToday h = some m ∨
      w.sessions.countStartedToday w'.now = m)
    (hcreated : ∀ k, 0 < createCount k w'.trace → 0 < createCount k w.trace ∨
      ∃ hd, held h = some hd ∧ ∃ r ∈ w.sessions.rows, r.id = hd.pk ∧ r.workKey = k)
    (hheld : ∀ hd, held (e :: h) = some hd → ∃ hd', held h = some hd' ∧ hd'.pk = hd.pk) :
    Rationed S n (e :: h) w' where
  within := by rw [hs]; exact hJ.within
  past r hr hn := by rw [hs] at hr; exact (hJ.past r hr hn).trans hnow
  next := by rw [hs]; exact hJ.next
  created k hk := by
    rw [hs]
    rcases hcreated k hk with hk | ⟨hd, hh, r, hr, hid, hk⟩
    · exact hJ.created k hk
    · exact ⟨r, hr, hk, hid ▸ hJ.mine hd hh⟩
  today m hm := by
    rw [hs]
    rcases htoday m hm with hm | hm
    · obtain ⟨t, ht, hcount, hpast⟩ := hJ.today m hm
      exact ⟨t, ht.trans hnow, hcount, hpast⟩
    · exact ⟨w'.now, le_rfl, hm, fun r hr hn => (hJ.past r hr hn).trans hnow⟩
  mine hd hh := by
    obtain ⟨hd', hh', hpk⟩ := hheld hd hh
    exact hpk ▸ hJ.mine hd' hh'

theorem createCount_exec (op : Op) (k : String) :
    createCount k (exec env op w).2.trace =
      createCount k w.trace + (decide (op.creates = some k)).toNat :=
  reservations_honest.counts op w k

theorem rationed_read {op : Op} (hop : op.writes = false) (hJ : Rationed S n h w)
    (hC : Current h w) (hp : Permits S h op) :
    Rationed S n (⟨op, (exec env op w).1⟩ :: h) (exec env op w).2 := by
  refine hJ.skip (exec_sessions hop) (now_le op) ?_ ?_ ?_
  · intro m hm
    cases op with
    | countStartedToday => exact Or.inr (Option.some.inj hm)
    | tryReserve res => cases hop
    | update pk u => cases hop
    | _ => exact Or.inl hm
  · intro k hk
    rw [createCount_exec] at hk
    by_cases hc : op.creates = some k
    · -- the call is for the row that is held
      right
      cases hp with
      | quiet hop => rw [creates_of_quiet hop] at hc; cases hc
      | create hh _ _ =>
        cases hc
        obtain ⟨t, ht⟩ := hC.heldRow _ hh
        obtain ⟨hr, -⟩ := w.sessions.get_eq_some.1 ht
        exact ⟨_, hh, _, hr, rfl, rfl⟩
      | _ => cases hc
    · simp only [hc, decide_false, Bool.toNat_false] at hk
      exact Or.inl hk
  · intro hd hh
    cases op with
    | createSession key req =>
      cases ha : (exec env (.createSession key req) w).1 with
      | ok created => rw [ha] at hh; cases hh
      | error exc =>
        rw [ha] at hh
        obtain ⟨hd', hh', rfl⟩ := Option.map_eq_some_iff.1 hh
        exact ⟨hd', hh', rfl⟩
    | tryReserve res => cases hop
    | update pk u => cases hop
    | _ => exact ⟨hd, hh, rfl⟩

theorem rationed_update (pk : ℕ) (u : Update) (hJ : Rationed S n h w) :
    Rationed S n (⟨.update pk u, ()⟩ :: h) (exec env (.update pk u) w).2 := by
  -- an UPDATE leaves the primary key, the work key and the start of every row alone
  have hmem : ∀ r ∈ (exec env (.update pk u) w).2.sessions.rows, ∃ r' ∈ w.sessions.rows,
      r'.id = r.id ∧ r'.workKey = r.workKey ∧ r'.startedAt = r.startedAt := by
    intro r hr
    rcases Sessions.mem_update.1 hr with ⟨hr, -⟩ | ⟨r', hr', -, rfl⟩
    · exact ⟨r, hr, rfl, rfl, rfl⟩
    · exact ⟨r', hr', rfl, rfl, rfl⟩
  have hcount : ∀ p : ℕ × Time → Bool,
      (w.sessions.update pk u).rows.countP (fun r => p (r.id, r.startedAt)) =
        w.sessions.rows.countP fun r => p (r.id, r.startedAt) := by
    intro p
    have hmap : (w.sessions.update pk u).rows.map (fun r : SessionRow => (r.id, r.startedAt)) =
        w.sessions.rows.map fun r : SessionRow => (r.id, r.startedAt) :=
      Table.map_update (fun r : SessionRow => (r.id, r.startedAt)) _ _ _ fun _ => rfl
    have := congrArg (List.countP p) hmap
    rwa [List.countP_map, List.countP_map] at this
  refine ⟨fun day => ?_, fun r hr hn => ?_, hJ.next, fun k hk => ?_, fun m hm => ?_, fun _ hh => ?_⟩
  · have := hcount fun x => n ≤ x.1 && Sessions.date x.2 = day
    rw [exec_update_sessions, newOn, this]
    exact hJ.within day
  · obtain ⟨r', hr', hid, -, hst⟩ := hmem r hr
    rw [← hst]
    exact (hJ.past r' hr' (hid ▸ hn)).trans (now_le _)
  · have hk' : 0 < createCount k w.trace := by
      rw [createCount_exec] at hk
      exact hk
    obtain ⟨r, hr, hkey, hn⟩ := hJ.created k hk'
    by_cases hid : r.id = pk
    · exact ⟨u.apply r, Sessions.mem_update.2 (Or.inr ⟨r, hr, hid, rfl⟩), hkey, hn⟩
    · exact ⟨r, Sessions.mem_update.2 (Or.inl ⟨hr, hid⟩), hkey, hn⟩
  · obtain ⟨t, ht, hm, hpast⟩ := hJ.today m hm
    refine ⟨t, ht.trans (now_le _), ?_, fun r hr hn => ?_⟩
    · have := hcount fun x => Sessions.date x.2 = Sessions.date t
      rw [exec_update_sessions, Sessions.countStartedToday, this]
      exact hm
    · obtain ⟨r', hr', hid, -, hst⟩ := hmem r hr
      exact hst ▸ hpast r' hr' (hid ▸ hn)
  · cases hh

/-- **A row is inserted only below the cap**: the handler of issues has counted, and nothing
has been inserted since; for a fix attempt it is the condition. -/
theorem newOn_lt_of_reserve {res : Reservation} (hJ : Rationed S n h w)
    (hp : Permits S h (.tryReserve res))
    (hR : FixesRationed env S h w (.tryReserve res) (exec env (.tryReserve res) w).1)
    (hnew : res.workKey ∉ w.sessions.rows.map (·.workKey)) :
    newOn w.sessions n (Sessions.date (w.tick env).now) < S.maxSessionsPerDay := by
  cases hp with
  | quiet hop => cases hop
  | reserveFix => exact lt_of_le_of_lt (newOn_le _ n _) (hR _ rfl rfl hnew)
  | @reserveIssue issue _ m _ _ _ hd hday =>
    obtain ⟨t, ht, hm, hpast⟩ := hJ.today m hd
    have hle : t ≤ (w.tick env).now := ht.trans (Int.le_add_of_nonneg_right (Int.natCast_nonneg _))
    rcases (date_mono hle).eq_or_lt with heq | hlt
    · rw [← heq]
      exact lt_of_le_of_lt (newOn_le _ n t) (hm ▸ hday)
    · -- a new day has begun since, on which nothing has started yet
      have hzero : newOn w.sessions n (Sessions.date (w.tick env).now) = 0 := by
        rw [newOn, List.countP_eq_zero]
        intro r hr hr'
        simp only [Bool.and_eq_true, decide_eq_true_eq] at hr'
        have := date_mono (hpast r hr hr'.1)
        omega
      omega

theorem rationed_reserve {res : Reservation} (hJ : Rationed S n h w)
    (hp : Permits S h (.tryReserve res))
    (hR : FixesRationed env S h w (.tryReserve res) (exec env (.tryReserve res) w).1) :
    Rationed S n (⟨.tryReserve res, (exec env (.tryReserve res) w).1⟩ :: h)
      (exec env (.tryReserve res) w).2 := by
  have hcreated : ∀ k, 0 < createCount k (exec env (.tryReserve res) w).2.trace →
      0 < createCount k w.trace := by
    intro k hk
    rw [createCount_exec] at hk
    exact hk
  rcases exec_tryReserve env w res with ⟨pk, t, ha, ht, hw⟩ | ⟨ha, -, hw⟩
  · obtain ⟨rfl, hnew, hrows, hnext⟩ := Table.insert_eq_some ht
    have hlt := newOn_lt_of_reserve hJ hp hR hnew
    set row := res.row (w.tick env).now w.sessions.next
    have hday : Sessions.date row.startedAt = Sessions.date (w.tick env).now :=
      date_currentTimestamp _
    have hmem : ∀ r ∈ t.rows, r ∈ w.sessions.rows ∨ r = row := by
      intro r hr
      rw [hrows, List.mem_append, List.mem_singleton] at hr
      exact hr
    refine ⟨fun day => ?_, fun r hr hn => ?_, ?_, fun k hk => ?_, fun _ hm => ?_, fun hd hh => ?_⟩
    · -- the new row counts for the present day only
      rw [hw, newOn, hrows, List.countP_append]
      have hone : [row].countP (fun r => n ≤ r.id && Sessions.date r.startedAt = day) ≤ 1 :=
        List.countP_le_length
      by_cases hd : Sessions.date row.startedAt = day
      · rw [← hday, hd] at hlt
        unfold newOn at hlt
        omega
      · have hnone : [row].countP (fun r => n ≤ r.id && Sessions.date r.startedAt = day) = 0 := by
          simp [hd]
        have := hJ.within day
        unfold newOn at this
        omega
    · rw [hw] at hr
      rcases hmem r hr with hr | rfl
      · exact (hJ.past r hr hn).trans (now_le _)
      · rw [exec_now]
        exact currentTimestamp_le _
    · rw [hw, hnext]
      have := hJ.next
      omega
    · obtain ⟨r, hr, hkey, hn⟩ := hJ.created k (hcreated k hk)
      exact ⟨r, mem_tryReserve res hr, hkey, hn⟩
    · cases hm
    · rw [ha] at hh
      cases hh
      exact hJ.next
  · rw [ha]
    refine hJ.skip hw (now_le _) (fun _ hm => (by cases hm)) (fun k hk => Or.inl (hcreated k hk)) ?_
    intro hd hh
    exact ⟨hd, hh, rfl⟩

theorem rationed_step {op : Op} (hJ : Rationed S n h w) (hC : Current h w) (hp : Permits S h op)
    (hR : FixesRationed env S h w op (exec env op w).1) :
    Rationed S n (⟨op, (exec env op w).1⟩ :: h) (exec env op w).2 := by
  rcases op.write_cases with hop | ⟨res, rfl⟩ | ⟨pk, u, rfl⟩
  · exact rationed_read hop hJ hC hp
  · exact rationed_reserve hJ hp hR
  · exact rationed_update pk u hJ

/-! ## Runs -/

/-- Only rows of the run itself have come as far as `create_session`. -/
theorem spawnedOn_le (hJ : Rationed S n h w) (day : ℤ) :
    spawnedOn w day ≤ newOn w.sessions n day := by
  refine List.countP_mono_left ?_
  intro r hr hr'
  simp only [Bool.and_eq_true, decide_eq_true_eq] at hr' ⊢
  obtain ⟨hday, hcount⟩ := hr'
  obtain ⟨r', hmem, hkey, hn⟩ := hJ.created r.workKey hcount
  obtain rfl : r' = r := List.inj_on_of_nodup_map w.sessions.keys hmem hr hkey
  exact ⟨hn, hday⟩

/-- **The daily cap**: along every serial run in which fix attempts are inserted below the
cap, no more sessions that start on a day get as far as `create_session` than the cap. -/
theorem sessions_within_daily_cap (sessions : Sessions) (events : WebhookEvents) (now : Time)
    (tasks : List Task)
    (hR : SerialOK env S (FixesRationed env S) { sessions, events, now } tasks) (day : ℤ) :
    spawnedOn (runSerial env S { sessions, events, now } tasks) day ≤ S.maxSessionsPerDay := by
  let n := sessions.next
  have hold : ∀ r ∈ sessions.rows, ¬n ≤ r.id := fun r hr => not_le.2 (sessions.fresh r hr)
  have hstart : Rationed S n [] { sessions, events, now } := by
    refine ⟨fun day => ?_, fun r hr hn => absurd hn (hold r hr), le_rfl, fun k hk => (by cases hk),
      fun _ hm => (by cases hm), fun _ hh => by cases hh⟩
    have hzero : newOn sessions n day = 0 := by
      rw [newOn, List.countP_eq_zero]
      intro r hr
      simp [hold r hr]
    exact hzero ▸ Nat.zero_le _
  have hleave : ∀ h w, Rationed S n h w → Idle h → Rationed S n [] w := fun h w hJ _ =>
    ⟨hJ.within, hJ.past, hJ.next, hJ.created, fun _ hm => (by cases hm), fun _ hh => by cases hh⟩
  have hend : Rationed S n [] (runSerial env S { sessions, events, now } tasks) :=
    serial_inv (fun w => Rationed S n [] w) (Rationed S n) (fun w hI => hI) hleave
      (fun h w op hJ hC hp hr => rationed_step hJ hC hp hr) tasks hstart hR
  exact (spawnedOn_le hend day).trans (hend.within day)

/-! ## A CI failure on a day that is used up -/

namespace DayUsedUp

def outside : Outside := { Outside.calm with getSession := fun _ _ => .ok .exited }

/-- An issue, a tick that sees its session's end, and a CI failure on its pull request. -/
def tasks : List Task := [.securityIssue (.sample 1), .poll, .ciFailure (.sample 100)]

theorem two_of_two : spawnedOn (runSerial outside { maxSessionsPerDay := 2 } (.initial 0) tasks) 0 ≤ 2 :=
  sessions_within_daily_cap (S := { maxSessionsPerDay := 2 }) .empty .empty 0 tasks
    (by decide +kernel) 0

/-- **The fix session exceeds the cap**: two sessions on a day on which one is allowed. -/
theorem fix_exceeds_daily_cap :
    ¬spawnedOn (runSerial outside { maxSessionsPerDay := 1 } (.initial 0) tasks) 0 ≤ 1 := by
  decide +kernel

end DayUsedUp

end Remediation
