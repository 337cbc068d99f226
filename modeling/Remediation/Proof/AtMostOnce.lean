import Remediation.Lib.Claim
import Remediation.Proof.Tasks

/-!
# One session per work key

The work keys of `sessions` as a claim protocol: a successful `try_reserve` wins a
key, `create_session` acts on it. Nothing ever frees a key (`reservations_honest`):
no statement deletes a row, `update` cannot set `work_key`, and starting up only gives
keys to rows without one.
-/

namespace Remediation

open Interaction Prog

/-- The work key on whose behalf an operation calls `create_session`. -/
def Op.creates : Op → Option String
  | .createSession workKey _ => some workKey
  | _ => none

/-- How often `create_session` has been called for a work key. -/
def createCount (workKey : String) (h : Hist) : ℕ := h.countP fun e => e.1.creates = some workKey

/-- The key that an entry reserves. -/
def reserves : Entry Ans → Option String
  | ⟨.tryReserve res, some _⟩ => if res.workKey = "" then none else some res.workKey
  | _ => none

def reservations : ClaimProtocol Ans World String where
  wins := reserves
  acts := Op.creates
  taken w k := k ≠ "" ∧ ∃ r ∈ w.sessions.rows, r.workKey = k
  count w k := createCount k w.trace

variable {env : Outside} {S : Settings}

/-- An entry that reserves `k` is a successful `try_reserve` of it. -/
theorem of_reserves {op : Op} {w : World} {k : String}
    (h : reserves ⟨op, (exec env op w).1⟩ = some k) :
    k ≠ "" ∧ ∃ res pk t, op = .tryReserve res ∧ res.workKey = k ∧
      w.sessions.tryReserve res (w.tick env).now = some (pk, t) ∧
      (exec env op w).2.sessions = t := by
  cases op with
  | tryReserve res =>
    rcases exec_tryReserve env w res with ⟨pk, t, h1, h2, h3⟩ | ⟨h1, -, -⟩
    · rw [h1] at h
      simp only [reserves] at h
      split at h
      · cases h
      · rename_i hne
        cases h
        exact ⟨hne, res, pk, t, rfl, rfl, h2, h3⟩
    · -- a refused reservation wins nothing
      rw [h1] at h
      cases h
  | _ => cases h

theorem workKeys_exec (op : Op) (w : World) {k : String}
    (h : ∃ r ∈ w.sessions.rows, r.workKey = k) :
    ∃ r ∈ (exec env op w).2.sessions.rows, r.workKey = k := by
  rcases op.write_cases with hop | ⟨res, rfl⟩ | ⟨pk, u, rfl⟩
  · rw [exec_sessions hop]
    exact h
  · obtain ⟨r, hr, hk⟩ := h
    exact ⟨r, mem_tryReserve res hr, hk⟩
  · rw [← List.mem_map] at h ⊢
    rw [exec_update_sessions, Sessions.update_workKeys]
    exact h

/-- **The table keeps the books**: a reserved key stays reserved. -/
theorem reservations_honest : reservations.Honest (exec env) World.boot where
  stays op w k h := ⟨h.1, workKeys_exec op w h.2⟩
  wins_free op w k h := by
    rintro ⟨-, hk⟩
    obtain ⟨-, res, pk, t, -, rfl, ht, -⟩ := of_reserves h
    exact (Sessions.tryReserve_eq_some ht).2.1 (List.mem_map.2 hk)
  wins_takes op w k h := by
    obtain ⟨hne, res, pk, t, -, rfl, ht, hs⟩ := of_reserves h
    refine ⟨hne, res.row (w.tick env).now pk, ?_, rfl⟩
    rw [hs, (Sessions.tryReserve_eq_some ht).2.2]
    exact List.mem_append_right _ (List.mem_singleton.2 rfl)
  wins_idle op w k h := by
    obtain ⟨-, res, pk, t, rfl, -⟩ := of_reserves h
    rfl
  counts op w k := by
    simp only [reservations, createCount, exec_trace, List.countP_cons]
    by_cases h : op.creates = some k <;> simp [h]
  boot_stays n w k h := by
    obtain ⟨hne, r, hr, rfl⟩ := h
    exact ⟨hne, r, mem_backfillMissingWorkKeys n hr hne, rfl⟩
  boot_counts _ _ _ := rfl

/-- A key that a task holds and has not called `create_session` for is open to it. -/
theorem isOpen_of_held {h : Hist} {hd : Held} (hh : held h = some hd) (hc : hd.called = false)
    (hk : hd.res.workKey ≠ "") : reservations.isOpen hd.res.workKey h = true := by
  induction h using held.induct generalizing hd with
  | case1 => cases hh
  | case2 res pk h =>
    cases hh
    simp [ClaimProtocol.isOpen, reservations, reserves, hk]
  | case3 pk u a h => cases hh
  | case4 key req created h => cases hh
  | case5 key req exc h ih =>
    simp only [held, Option.map_eq_some_iff] at hh
    obtain ⟨hd', -, rfl⟩ := hh
    cases hc
  | case6 e h h1 h2 h3 h4 ih =>
    -- any other entry leaves both readings of the history as they were
    have hw : reserves e = none := by
      obtain ⟨op, a⟩ := e
      cases op with
      | tryReserve res =>
        cases a with
        | none => rfl
        | some pk => exact (h1 res pk rfl).elim
      | _ => rfl
    have ha : e.1.creates = none := by
      obtain ⟨op, a⟩ := e
      cases op with
      | createSession key req =>
        cases a with
        | ok created => exact (h3 key req created rfl).elim
        | error exc => exact (h4 key req exc rfl).elim
      | _ => rfl
    rw [held.eq_6 _ _ h1 h2 h3 h4] at hh
    simpa [ClaimProtocol.isOpen, reservations, hw, ha] using ih hh hc hk

theorem creates_of_quiet {op : Op} (h : op.quiet = true) : op.creates = none := by
  cases op <;> first | rfl | cases h

/-- What the contract permits respects the protocol. -/
theorem actsWhenOpen {h : Hist} {op : Op} (hp : Permits S h op) : reservations.ActsWhenOpen h op := by
  intro k hk
  cases hp with
  | quiet hop =>
    have hno : reservations.acts op = none := creates_of_quiet hop
    rw [hno] at hk
    cases hk
  | create hh hc hne => cases hk; exact isOpen_of_held hh hc hne
  | _ => cases hk

/-- **One session per work key.** In every interleaving of tasks, with crashes and
restarts at any point and whatever Devin and GitHub answer, `create_session` is called
at most once for each work key, and a task that is about to call it finds a row with
that key in the table. -/
theorem create_session_at_most_once (sessions : Sessions) (events : WebhookEvents) (now : Time)
    (acts : List (Act Task ℕ)) :
    let c := (service env S).run ⟨{ sessions, events, now }, []⟩ acts
    (∀ workKey, createCount workKey c.world.trace ≤ 1) ∧
      ∀ t ∈ c.threads, ∀ workKey req next, t.prog = .call (.createSession workKey req) next →
        ∃ r ∈ c.world.sessions.rows, r.workKey = workKey := by
  have hC : ∀ h op, (contract S).pre h op → reservations.ActsWhenOpen h op := fun _ _ => actsWhenOpen
  obtain ⟨hb, hK⟩ := ClaimProtocol.at_most_once (S := service env S) (C := contract S)
    (P := reservations) (w := { sessions, events, now }) reservations_honest hC
    (fun _ op w => exec_honest env op w) keeps_task (fun _ => rfl) acts
  constructor
  · intro k
    exact le_trans (Nat.le_add_right _ _) (hb k).1
  · intro t ht k req next hp
    exact (ClaimProtocol.taken_of_about_to_act hC hb hK ht hp (k := k) rfl).2

end Remediation
