import Remediation.Proof.Serial

/-!
# What Devin creates

A `create_session` of the client may send several POSTs, and each one that Devin
processes creates a session. `NamesSessions` is what is assumed of Devin: it gives every
session a name of its own, and a response names the session it is about. `NoneLost` is a
condition: the client learns of every session that its POSTs create.
-/

namespace Remediation

open Interaction

/-- The outcomes of the POSTs that an operation sends. -/
def World.posts (env : Outside) (w : World) : Op → Option (ℕ → Attempt)
  | .createSession _ req => some (env.posts w.clock req.body)
  | _ => none

/-- Devin gives every session a new name, and a response names the session created. -/
def NamesSessions (env : Outside) (_ : Hist) (w : World) (op : Op) (_ : Ans op) : Prop :=
  ∀ attempts ∈ w.posts env op, ∀ i < HttpDevinClient.sent env.transport attempts,
    (∀ x ∈ (attempts i).processed, x ≠ "" ∧
      (∀ j < HttpDevinClient.sent env.transport attempts, (attempts j).processed = some x → j = i) ∧
      (∀ p ∈ w.remote, p.2 ≠ x) ∧ ∀ r ∈ w.sessions.rows, r.devinSessionId ≠ some x) ∧
    ∀ c ∈ (attempts i).confirmed, (attempts i).processed = some c.devinSessionId

instance (env : Outside) (h : Hist) (w : World) (op : Op) (a : Ans op) :
    Decidable (NamesSessions env h w op a) :=
  inferInstanceAs (Decidable (∀ attempts ∈ w.posts env op, _))

/-- No POST is lost: if all earlier ones of a call are retried, and Devin processes this
one, the response reaches the client. -/
def NoneLost (env : Outside) (_ : Hist) (w : World) (op : Op) (_ : Ans op) : Prop :=
  ∀ attempts ∈ w.posts env op, ∀ i < env.transport.maxRetries,
    (∀ j < i, (attempts j).seen.retried j = true) →
      (attempts i).processed.isSome → (attempts i).confirmed.isSome

instance (env : Outside) (h : Hist) (w : World) (op : Op) (a : Ans op) :
    Decidable (NoneLost env h w op a) :=
  inferInstanceAs (Decidable (∀ attempts ∈ w.posts env op, _))

/-- The session is the one that some row says it is. -/
def World.Stored (w : World) (x : String) : Prop := ∃ r ∈ w.sessions.rows, r.devinSessionId = some x

/-- The session has just been returned to the task. -/
def Returned (h : Hist) (x : String) : Prop :=
  ∃ pk created, justSpawned h = some (pk, created) ∧ created.devinSessionId = x

/-- The sessions that an operation creates at Devin. -/
def World.spawned (env : Outside) (w : World) : Op → List (String × String)
  | .createSession workKey req =>
    (HttpDevinClient.spawned env.transport (env.posts w.clock req.body)).map (workKey, ·)
  | _ => []

variable {env : Outside} {S : Settings} {w : World} {h : Hist} {op : Op} {p : String × String}

theorem exec_remote (op : Op) : (exec env op w).2.remote = w.spawned env op ++ w.remote := by
  cases op with
  | tryReserve res =>
    simp only [exec, World.answer]
    split <;> rfl
  | record d e a p =>
    simp only [exec, World.answer]
    split <;> rfl
  | _ => rfl

/-- A created session is that of some POST sent. -/
theorem of_mem_spawned (hp : p ∈ w.spawned env op) :
    ∃ key req, op = .createSession key req ∧
      ∃ i < HttpDevinClient.sent env.transport (env.posts w.clock req.body),
        (env.posts w.clock req.body i).processed = some p.2 := by
  cases op with
  | createSession key req =>
    obtain ⟨x, hx, rfl⟩ := List.mem_map.1 hp
    obtain ⟨i, hi, hx⟩ := List.mem_filterMap.1 hx
    exact ⟨key, req, rfl, i, List.mem_range.1 hi, hx⟩
  | _ => cases hp

/-- What is created has a name that is new. -/
theorem new_of_mem_spawned {a : Ans op} (hD : NamesSessions env h w op a)
    (hp : p ∈ w.spawned env op) :
    p.2 ≠ "" ∧ (∀ q ∈ w.remote, q.2 ≠ p.2) ∧ ∀ r ∈ w.sessions.rows, r.devinSessionId ≠ some p.2 := by
  obtain ⟨key, req, rfl, i, hi, hx⟩ := of_mem_spawned hp
  obtain ⟨hne, -, hremote, hrows⟩ := (hD _ rfl i hi).1 _ hx
  exact ⟨hne, hremote, hrows⟩

/-- What is returned is one of the sessions created, and so has a new name as well. -/
theorem new_of_returned (hD : NamesSessions env h w op (exec env op w).1) {x : String}
    (hx : Returned (⟨op, (exec env op w).1⟩ :: h) x) : ∀ q ∈ w.remote, q.2 ≠ x := by
  obtain ⟨pk, created, hj, rfl⟩ := hx
  cases op with
  | createSession key req =>
    cases ha : (exec env (.createSession key req) w).1 with
    | error exc => rw [ha] at hj; cases hj
    | ok created' =>
      rw [ha] at hj
      obtain ⟨hd, -, he⟩ := Option.map_eq_some_iff.1 hj
      cases he
      obtain ⟨n, hn, hc, -⟩ := HttpDevinClient.createSession_ok ha
      obtain ⟨hnew, hnames⟩ := hD _ rfl n (by omega)
      obtain ⟨-, -, hremote, -⟩ := hnew _ (hnames _ hc)
      exact hremote
  | _ => cases hj

/-- **Where no POST is lost, what is created is returned.** -/
theorem returned_of_spawned (hP : Permits S h op) (hD : NamesSessions env h w op (exec env op w).1)
    (hR : NoneLost env h w op (exec env op w).1) (hp : p ∈ w.spawned env op) :
    Returned (⟨op, (exec env op w).1⟩ :: h) p.2 := by
  obtain ⟨key, req, rfl, i, hi, hx⟩ := of_mem_spawned hp
  have hconf : (env.posts w.clock req.body i).confirmed.isSome := by
    obtain ⟨hlt, hretried⟩ := HttpDevinClient.lt_sent_iff.1 hi
    have hproc : (env.posts w.clock req.body i).processed.isSome := by rw [hx]; rfl
    exact hR _ rfl i hlt hretried hproc
  cases ha : (exec env (.createSession key req) w).1 with
  | error exc =>
    rw [HttpDevinClient.createSession_error ha i hi] at hconf
    cases hconf
  | ok created =>
    obtain ⟨n, hn, hc, hno⟩ := HttpDevinClient.createSession_ok ha
    -- no attempt but the last one is confirmed
    obtain rfl : i = n := by
      by_contra hne
      have hlt : i < n + 1 := hn ▸ hi
      rw [hno i (by omega)] at hconf
      cases hconf
    have hname := (hD _ rfl i hi).2 _ hc
    rw [hx] at hname
    obtain ⟨hd, hh⟩ : ∃ hd, held h = some hd := by
      cases hP with
      | quiet hop => cases hop
      | create hh _ _ => exact ⟨_, hh⟩
    have hj : justSpawned (⟨.createSession key req, .ok created⟩ :: h) = some (hd.pk, created) := by
      rw [justSpawned, hh]
      rfl
    exact ⟨hd.pk, created, hj, (Option.some.inj hname).symm⟩

/-- **A POST that is lost leaves a session that is not returned.** -/
theorem spawned_of_lost (hD : NamesSessions env h w op (exec env op w).1)
    (hR : ¬NoneLost env h w op (exec env op w).1) :
    ∃ p ∈ w.spawned env op, ¬Returned (⟨op, (exec env op w).1⟩ :: h) p.2 := by
  simp only [NoneLost, not_forall] at hR
  obtain ⟨attempts, hposts, i, hlt, hretried, hproc, hconf⟩ := hR
  obtain ⟨x, hx⟩ := Option.isSome_iff_exists.1 hproc
  have hsent : i < HttpDevinClient.sent env.transport attempts :=
    HttpDevinClient.lt_sent_iff.2 ⟨hlt, hretried⟩
  cases op with
  | createSession key req =>
    cases hposts
    have hmem : x ∈ HttpDevinClient.spawned env.transport (env.posts w.clock req.body) :=
      List.mem_filterMap.2 ⟨i, List.mem_range.2 hsent, hx⟩
    refine ⟨(key, x), List.mem_map.2 ⟨x, hmem, rfl⟩, ?_⟩
    rintro ⟨pk, created, hj, hcx⟩
    cases ha : (exec env (.createSession key req) w).1 with
    | error exc => rw [ha] at hj; cases hj
    | ok created' =>
      rw [ha] at hj
      obtain ⟨hd, -, he⟩ := Option.map_eq_some_iff.1 hj
      cases he
      -- the attempt that is returned would be the lost one, which is not confirmed
      obtain ⟨n, hn, hc, -⟩ := HttpDevinClient.createSession_ok ha
      have hlast : n < HttpDevinClient.sent env.transport (env.posts w.clock req.body) := by omega
      have hname := (hD _ rfl n hlast).2 _ hc
      rw [hcx] at hname
      obtain ⟨-, honce, -, -⟩ := (hD _ rfl i hsent).1 x hx
      obtain rfl : n = i := honce n hlast hname
      exact hconf (by rw [hc]; rfl)
  | _ => cases hposts

/-- Only the write after `create_session` sets the id of a row. -/
theorem Permits.update_devinSessionId {pk : ℕ} {u : Update} (hp : Permits S h (.update pk u)) :
    u.devinSessionId = none ∨
      ∃ created, justSpawned h = some (pk, created) ∧
        u.devinSessionId = some created.devinSessionId := by
  cases hp with
  | quiet hop => cases hop
  | fail _ => exact Or.inl rfl
  | activate hs => exact Or.inr ⟨_, hs, rfl⟩
  | escalate _ _ _ _ => exact Or.inl rfl
  | cancelChild _ _ _ _ => exact Or.inl rfl
  | poll _ _ _ _ _ hu => exact Or.inl (by cases hu <;> rfl)

/-- While a session is just returned, only that write is permitted. -/
theorem Permits.of_justSpawned (hp : Permits S h op) {pk : ℕ} {created : SessionCreated}
    (hj : justSpawned h = some (pk, created)) :
    ∃ u, op = .update pk u ∧ u.status = some .pending ∧
      u.devinSessionId = some created.devinSessionId := by
  cases hp with
  | create hh _ _ => rw [justSpawned_of_held hh] at hj; cases hj
  | fail hh => rw [justSpawned_of_held hh] at hj; cases hj
  | activate hs => rw [hs] at hj; cases hj; exact ⟨_, rfl, rfl, rfl⟩
  | _ => simp_all [Idle]

/-! ## Rows with a session -/

/-- A row that has its session keeps it: an operation either leaves the row as it is, or is
an UPDATE of it that does not touch the id. -/
theorem row_exec (env : Outside) (hp : Permits S h op) (hC : Current h w) {r : SessionRow}
    {x : String} (hr : r ∈ w.sessions.rows) (hx : r.devinSessionId = some x) :
    r ∈ (exec env op w).2.sessions.rows ∨
      ∃ u, op = .update r.id u ∧ u.devinSessionId = none ∧
        u.apply r ∈ (exec env op w).2.sessions.rows := by
  rcases op.write_cases with hop | ⟨res, rfl⟩ | ⟨pk, u, rfl⟩
  · rw [exec_sessions hop]
    exact Or.inl hr
  · exact Or.inl (mem_tryReserve res hr)
  · rw [exec_update_sessions]
    by_cases hpk : r.id = pk
    · subst hpk
      refine Or.inr ⟨u, rfl, ?_, Sessions.mem_update.2 (Or.inr ⟨r, hr, rfl, rfl⟩)⟩
      rcases hp.update_devinSessionId with hu | ⟨created, hj, -⟩
      · exact hu
      · -- the row of a session just returned has none yet
        obtain ⟨res, t, ht⟩ := hC.spawnedRow _ _ hj
        have hget := w.sessions.get_eq_some.2 ⟨hr, rfl⟩
        rw [hget] at ht
        rw [Option.some.inj ht] at hx
        cases hx
    · exact Or.inl (Sessions.mem_update.2 (Or.inl ⟨hr, hpk⟩))

theorem stored_exec (hp : Permits S h op) (hC : Current h w) {x : String} (hx : w.Stored x) :
    (exec env op w).2.Stored x := by
  obtain ⟨r, hr, hx⟩ := hx
  rcases row_exec env hp hC hr hx with hr' | ⟨u, -, hu, hr'⟩
  · exact ⟨r, hr', hx⟩
  · exact ⟨_, hr', by rw [Update.apply_devinSessionId, hu]; exact hx⟩

/-- The operation after a session has been returned stores it, in an active row. -/
theorem returned_exec (env : Outside) (hp : Permits S h op) (hC : Current h w) {x : String}
    (hx : Returned h x) :
    ∃ r ∈ (exec env op w).2.sessions.rows, r.devinSessionId = some x ∧ r.status.active = true := by
  obtain ⟨pk, created, hj, rfl⟩ := hx
  obtain ⟨u, rfl, hst, hu⟩ := hp.of_justSpawned hj
  obtain ⟨res, t, ht⟩ := hC.spawnedRow _ _ hj
  obtain ⟨hr, hid⟩ := w.sessions.get_eq_some.1 ht
  refine ⟨_, Sessions.mem_update.2 (Or.inr ⟨_, hr, hid, rfl⟩), ?_, ?_⟩
  · rw [Update.apply_devinSessionId, hu]; rfl
  · rw [Update.apply_status, hst]; rfl

/-- A session that is neither stored nor returned does not get stored. -/
theorem not_stored_exec (hp : Permits S h op) {x : String} (hs : ¬w.Stored x) (hr : ¬Returned h x) :
    ¬(exec env op w).2.Stored x := by
  rintro ⟨r, hmem, hx⟩
  rcases op.write_cases with hop | ⟨res, rfl⟩ | ⟨pk, u, rfl⟩
  · rw [exec_sessions hop] at hmem
    exact hs ⟨r, hmem, hx⟩
  · rcases rows_tryReserve env w res with hrows | ⟨pk, hrows⟩
    · rw [hrows] at hmem
      exact hs ⟨r, hmem, hx⟩
    · rw [hrows, List.mem_append, List.mem_singleton] at hmem
      rcases hmem with hmem | rfl
      · exact hs ⟨r, hmem, hx⟩
      · cases hx
  · rcases Sessions.mem_update.1 hmem with ⟨hmem', -⟩ | ⟨r', hmem', rfl, rfl⟩
    · exact hs ⟨r, hmem', hx⟩
    -- only the write of a session just returned gives a row an id
    rw [Update.apply_devinSessionId] at hx
    rcases hp.update_devinSessionId with hu | ⟨created, hj, hu⟩
    · rw [hu] at hx
      exact hs ⟨r', hmem', hx⟩
    · rw [hu] at hx
      exact hr ⟨_, created, hj, Option.some.inj hx⟩

end Remediation
