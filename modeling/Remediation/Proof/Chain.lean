import Mathlib.Data.List.MinMax
import Remediation.Proof.FixAttempts
import Remediation.Proof.Numbering
import Remediation.Proof.Remote

/-!
# The numbers along a chain

A fix session may itself be the parent of further ones, and it then counts from its own
number. The next number is one more than the largest among the parent and its children
(`max_fix_attempt_for_parent`); it is used up by the reservation, whether or not there is a
session in the end. `attempts_exact`: along every serial run the attempts on a session with
the number `a` are `a + 1`, `a + 2` and so on, in the order of their ids, within the cap.
-/

namespace Remediation

open Interaction

/-! ## Chains -/

/-- What links a row to others. -/
structure Link where
  id : ℕ
  session : Option String
  parent : Option String
  number : ℕ

/-- The numbers of the attempts on the session `x`, in the order of the list. -/
def numbers (x : String) (ls : List Link) : List ℕ := (ls.filter (·.parent = some x)).map (·.number)

/-- The largest number among a session and the attempts on it. -/
def maxNumber (x : String) (ls : List Link) : ℕ :=
  ((ls.filter fun l => l.session = some x || l.parent = some x).map (·.number)).foldr max 0

/-- The attempts on each session count on from its own number. -/
structure Exact (cap : ℕ) (ls : List Link) : Prop where
  ascending : ls.Pairwise fun l l' => l.id < l'.id
  unique : ∀ l ∈ ls, ∀ l' ∈ ls, ∀ x, l.session = some x → l'.session = some x → l = l'
  known : ∀ l ∈ ls, ∀ x, l.parent = some x → ∃ l' ∈ ls, l'.session = some x
  counts : ∀ l ∈ ls, ∀ x, l.session = some x → ∃ k, numbers x ls = List.range' (l.number + 1) k
  capped : ∀ x, ∀ n ∈ numbers x ls, n ≤ cap

section Chains

variable {cap : ℕ} {ls : List Link} {x : String}

theorem Exact.nil : Exact cap [] where
  ascending := List.Pairwise.nil
  unique _ h := by cases h
  known _ h := by cases h
  counts _ h := by cases h
  capped _ _ h := by cases h

/-- **The largest number is the last one.** -/
theorem Exact.maxNumber_eq (hE : Exact cap ls) {l : Link} (hl : l ∈ ls) (hx : l.session = some x)
    {k : ℕ} (hk : numbers x ls = List.range' (l.number + 1) k) : maxNumber x ls = l.number + k := by
  apply le_antisymm
  · refine List.max_le_of_forall_le _ _ fun n hn => ?_
    obtain ⟨c, hc, rfl⟩ := List.mem_map.1 hn
    obtain ⟨hc, hlink⟩ := List.mem_filter.1 hc
    simp only [Bool.or_eq_true, decide_eq_true_eq] at hlink
    rcases hlink with hs | hp
    · rw [hE.unique c hc l hl x hs hx]
      exact Nat.le_add_right _ _
    · have hmem : c.number ∈ numbers x ls :=
        List.mem_map.2 ⟨c, List.mem_filter.2 ⟨hc, by simpa using hp⟩, rfl⟩
      rw [hk, List.mem_range'_1] at hmem
      omega
  · cases k with
    | zero => exact List.le_max_of_le (List.mem_map.2 ⟨l, List.mem_filter.2 ⟨hl, by simp [hx]⟩, rfl⟩) le_rfl
    | succ k =>
      have hlast : l.number + (k + 1) ∈ numbers x ls := by
        rw [hk, List.mem_range'_1]
        omega
      obtain ⟨c, hc, hn⟩ := List.mem_map.1 hlast
      obtain ⟨hc, hp⟩ := List.mem_filter.1 hc
      have hmem : c ∈ ls.filter fun l => l.session = some x || l.parent = some x :=
        List.mem_filter.2 ⟨hc, by simpa using Or.inr (of_decide_eq_true hp)⟩
      exact List.le_max_of_le (List.mem_map.2 ⟨c, hmem, rfl⟩) hn.ge

theorem numbers_append (l : Link) : numbers x (ls ++ [l]) =
    numbers x ls ++ if l.parent = some x then [l.number] else [] := by
  rw [numbers, List.filter_append, List.map_append, numbers]
  by_cases hp : l.parent = some x
  · simp [hp]
  · simp [hp]

/-- **A new row**: it has no session yet, and the next number on its parent, if it has one. -/
theorem Exact.append (hE : Exact cap ls) {l : Link} (hnew : ∀ l' ∈ ls, l'.id < l.id)
    (hs : l.session = none)
    (hp : ∀ x, l.parent = some x → (∃ l' ∈ ls, l'.session = some x) ∧
      l.number = maxNumber x ls + 1 ∧ maxNumber x ls < cap) : Exact cap (ls ++ [l]) where
  ascending := by
    rw [List.pairwise_append]
    exact ⟨hE.ascending, List.pairwise_singleton _ _, fun l' hl' b hb => by
      rw [List.mem_singleton.1 hb]
      exact hnew l' hl'⟩
  unique a ha b hb x hax hbx := by
    have hold : ∀ c ∈ ls ++ [l], c.session = some x → c ∈ ls := by
      intro c hc hcx
      rcases List.mem_append.1 hc with hc | hc
      · exact hc
      · rw [List.mem_singleton.1 hc, hs] at hcx
        cases hcx
    exact hE.unique a (hold a ha hax) b (hold b hb hbx) x hax hbx
  known c hc x hcx := by
    have hknown : ∃ l' ∈ ls, l'.session = some x := by
      rcases List.mem_append.1 hc with hc | hc
      · exact hE.known c hc x hcx
      · rw [List.mem_singleton.1 hc] at hcx
        exact (hp x hcx).1
    obtain ⟨l', hl', hx⟩ := hknown
    exact ⟨l', List.mem_append_left _ hl', hx⟩
  counts c hc x hcx := by
    rcases List.mem_append.1 hc with hc | hc
    · obtain ⟨k, hk⟩ := hE.counts c hc x hcx
      rw [numbers_append]
      by_cases hlx : l.parent = some x
      · -- one more attempt on this session
        obtain ⟨-, hnum, -⟩ := hp x hlx
        refine ⟨k + 1, ?_⟩
        rw [if_pos hlx, hk, hnum, hE.maxNumber_eq hc hcx hk, List.range'_1_concat]
        congr 2
        omega
      · exact ⟨k, by rw [if_neg hlx, List.append_nil, hk]⟩
    · rw [List.mem_singleton.1 hc, hs] at hcx
      cases hcx
  capped x n hn := by
    rw [numbers_append, List.mem_append] at hn
    rcases hn with hn | hn
    · exact hE.capped x n hn
    · split at hn
      · rename_i hlx
        obtain ⟨-, hnum, hlt⟩ := hp x hlx
        rw [List.mem_singleton] at hn
        omega
      · cases hn

/-- The session that a row gets. -/
def Link.start (pk : ℕ) (x : String) (l : Link) : Link :=
  if l.id = pk then { l with session := some x } else l

@[simp] theorem Link.start_id (pk : ℕ) (l : Link) : (l.start pk x).id = l.id := by
  unfold Link.start
  split <;> rfl

@[simp] theorem Link.start_parent (pk : ℕ) (l : Link) : (l.start pk x).parent = l.parent := by
  unfold Link.start
  split <;> rfl

@[simp] theorem Link.start_number (pk : ℕ) (l : Link) : (l.start pk x).number = l.number := by
  unfold Link.start
  split <;> rfl

theorem numbers_start (pk : ℕ) (x y : String) (ls : List Link) :
    numbers y (ls.map (Link.start pk x)) = numbers y ls := by
  rw [numbers, List.filter_map, List.map_map, numbers]
  simp only [Function.comp_def, Link.start_parent, Link.start_number]

/-- **A new session**: nobody has its name, and so there are no attempts on it. -/
theorem Exact.start (hE : Exact cap ls) {pk : ℕ} (hpk : ∀ l ∈ ls, l.id = pk → l.session = none)
    (hx : ∀ l ∈ ls, l.session ≠ some x) : Exact cap (ls.map (Link.start pk x)) := by
  -- a row that has a session has had it before, or has just got it
  have hold : ∀ l ∈ ls, ∀ y, (l.start pk x).session = some y →
      (l.id = pk ∧ y = x) ∨ (l.start pk x = l ∧ l.session = some y) := by
    intro l _ y hy
    unfold Link.start at hy ⊢
    split at hy
    · rename_i h
      exact Or.inl ⟨h, (Option.some.inj hy).symm⟩
    · rename_i h
      exact Or.inr ⟨if_neg h, hy⟩
  have hstays : ∀ l ∈ ls, l.session ≠ none → l.start pk x = l := by
    intro l hl hne
    unfold Link.start
    exact if_neg fun h => hne (hpk l hl h)
  have hids : (ls.map (·.id)).Nodup := List.pairwise_map.2 (hE.ascending.imp fun h => h.ne)
  exact
    { ascending := by
        rw [List.pairwise_map]
        exact hE.ascending.imp fun h => by rwa [Link.start_id, Link.start_id]
      unique := by
        intro a ha b hb y hay hby
        obtain ⟨l, hl, rfl⟩ := List.mem_map.1 ha
        obtain ⟨l', hl', rfl⟩ := List.mem_map.1 hb
        rcases hold l hl y hay with ⟨h1, rfl⟩ | ⟨h1, hs⟩
        · rcases hold l' hl' y hby with ⟨h2, -⟩ | ⟨h2, hs'⟩
          · rw [List.inj_on_of_nodup_map hids hl hl' (h1.trans h2.symm)]
          · exact absurd hs' (hx l' hl')
        · rcases hold l' hl' y hby with ⟨h2, rfl⟩ | ⟨h2, hs'⟩
          · exact absurd hs (hx l hl)
          · rw [hE.unique l hl l' hl' y hs hs']
      known := by
        intro c hc y hcy
        obtain ⟨l, hl, rfl⟩ := List.mem_map.1 hc
        rw [Link.start_parent] at hcy
        obtain ⟨l', hl', hy⟩ := hE.known l hl y hcy
        have hsame := hstays l' hl' (by rw [hy]; exact nofun)
        exact ⟨_, List.mem_map.2 ⟨l', hl', rfl⟩, by rw [hsame]; exact hy⟩
      counts := by
        intro c hc y hcy
        obtain ⟨l, hl, rfl⟩ := List.mem_map.1 hc
        rw [numbers_start]
        rcases hold l hl y hcy with ⟨-, rfl⟩ | ⟨h, hs⟩
        · refine ⟨0, ?_⟩
          rw [List.range'_zero, numbers, List.map_eq_nil_iff, List.filter_eq_nil_iff]
          intro c hc hp
          obtain ⟨l', hl', hy⟩ := hE.known c hc y (of_decide_eq_true hp)
          exact hx l' hl' hy
        · rw [h]
          exact hE.counts l hl y hs
      capped := by
        intro y n hn
        rw [numbers_start] at hn
        exact hE.capped y n hn }

end Chains

/-! ## The rows -/

def SessionRow.link (r : SessionRow) : Link :=
  ⟨r.id, r.devinSessionId, r.parentDevinSessionId, r.fixAttemptNumber⟩

def links (t : Sessions) : List Link := t.rows.map SessionRow.link

/-- The fix attempts on the session `x`, in the order of their ids. -/
def attemptsOn (t : Sessions) (x : String) : List SessionRow :=
  (t.rows.filter (isChildOf x)).insertionSort fun r s => r.id ≤ s.id

/-- The id that an operation returns for a new session. -/
def Op.newId : (op : Op) → Ans op → Option String
  | .createSession _ _, .ok created => some created.devinSessionId
  | _, _ => none

/-- Devin's ids are unique: no row has the one that `create_session` returns. -/
def NewIds (_ : Hist) (w : World) (op : Op) (a : Ans op) : Prop :=
  ∀ x ∈ op.newId a, ∀ r ∈ w.sessions.rows, r.devinSessionId ≠ some x

instance (h : Hist) (w : World) (op : Op) (a : Ans op) : Decidable (NewIds h w op a) :=
  inferInstanceAs (Decidable (∀ x ∈ op.newId a, _))

variable {env : Outside} {S : Settings} {w : World} {h : Hist} {op : Op} {x : String}

theorem numbers_links (t : Sessions) : numbers x (links t) = numbersOf (isChildOf x) t := by
  rw [numbers, links, List.filter_map, List.map_map]
  rfl

theorem maxNumber_links (t : Sessions) :
    maxNumber x (links t) = t.maxFixAttemptForParent (some x) := by
  rw [maxNumber, links, List.filter_map, List.map_map]
  rfl

/-- **What an operation does to the chains**: nothing, or it adds a row, or it stores the
session that has just been created. -/
theorem links_exec (env : Outside) (w : World) (hp : Permits S h op) :
    links (exec env op w).2.sessions = links w.sessions ∨
    (∃ res, op = .tryReserve res ∧ links (exec env op w).2.sessions = links w.sessions ++
      [⟨w.sessions.next, none, res.parentDevinSessionId, res.fixAttemptNumber⟩]) ∨
    ∃ pk created, justSpawned h = some (pk, created) ∧ links (exec env op w).2.sessions =
      (links w.sessions).map (Link.start pk created.devinSessionId) := by
  unfold links
  rcases op.write_cases with hop | ⟨res, rfl⟩ | ⟨pk, u, rfl⟩
  · rw [exec_sessions hop]
    exact Or.inl rfl
  · rcases exec_tryReserve env w res with ⟨pk, t, -, ht, hw⟩ | ⟨-, -, hw⟩
    · obtain ⟨rfl, -, hrows⟩ := Sessions.tryReserve_eq_some ht
      rw [hw, hrows, List.map_append]
      exact Or.inr (Or.inl ⟨res, rfl, rfl⟩)
    · rw [hw]
      exact Or.inl rfl
  · have hparent : u.parentDevinSessionId = none := hp.update_status.2.1
    rw [exec_update_sessions, Sessions.update_rows, List.map_map]
    rcases hp.update_devinSessionId with hu | ⟨created, hj, hu⟩
    · refine Or.inl (List.map_congr_left fun r _ => ?_)
      by_cases hr : r.id = pk
      · simp [SessionRow.link, hr, Update.apply, hu, hparent]
      · simp [hr]
    · refine Or.inr (Or.inr ⟨pk, created, hj, ?_⟩)
      rw [List.map_map]
      refine List.map_congr_left fun r _ => ?_
      by_cases hr : r.id = pk
      · simp [SessionRow.link, Link.start, hr, Update.apply, hu, hparent]
      · simp [SessionRow.link, Link.start, hr]

/-- Inside a task: the chains are exact, what has been counted still holds, and the session just
returned has a name that no row has. -/
structure ChainsExact (S : Settings) (h : Hist) (w : World) : Prop where
  exact : Exact S.maxFixAttempts (links w.sessions)
  present : ∀ prUrl p m, counted h = some (prUrl, p, m) →
    m = w.sessions.maxFixAttemptForParent p.devinSessionId
  spawned : ∀ pk created, justSpawned h = some (pk, created) →
    ∀ r ∈ w.sessions.rows, r.devinSessionId ≠ some created.devinSessionId

/-- A new row has the next number on its parent. -/
theorem ChainsExact.reserve (hJ : ChainsExact S h w) (hC : Current h w) {res : Reservation}
    (hp : Permits S h (.tryReserve res)) :
    Exact S.maxFixAttempts (links w.sessions ++
      [⟨w.sessions.next, none, res.parentDevinSessionId, res.fixAttemptNumber⟩]) := by
  refine hJ.exact.append ?_ rfl ?_
  · intro l hl
    obtain ⟨r, hr, rfl⟩ := List.mem_map.1 hl
    exact w.sessions.fresh r hr
  intro x hx
  cases hp with
  | quiet hop => cases hop
  | reserveIssue => cases hx
  | @reserveFix t _ m _ _ _ hm hlt =>
    have hparent : t.parent.devinSessionId = some x := hx
    -- the parent is the row that has been picked
    have hmem := (Sessions.mem_of_findByPr (hC.chosenRow _ _ (chosen_of_counted hm))).1
    have hcount := hJ.present _ _ _ hm
    rw [hparent, ← maxNumber_links] at hcount
    refine ⟨⟨_, List.mem_map.2 ⟨_, hmem, rfl⟩, hparent⟩, ?_, by omega⟩
    show m + 1 = _
    omega

/-- What is counted is the present count. -/
theorem ChainsExact.present_exec (hJ : ChainsExact S h w) (hp : Permits S h op) {prUrl : String}
    {p : SessionRow} {m : ℕ} (hm : counted (⟨op, (exec env op w).1⟩ :: h) = some (prUrl, p, m)) :
    m = (exec env op w).2.sessions.maxFixAttemptForParent p.devinSessionId := by
  cases op with
  | maxFixAttemptForParent parent =>
    obtain ⟨c, hc, he⟩ := Option.map_eq_some_iff.1 hm
    cases he
    cases hp with
    | quiet _ _ hg =>
      obtain ⟨c', hc', rfl⟩ := hg
      rw [hc] at hc'
      cases hc'
      rfl
  | findByPr prUrl => cases hm
  | tryReserve res => cases hm
  | update pk u => cases hm
  | record d e a p =>
    rw [exec_sessions rfl]
    exact hJ.present _ _ _ hm
  | _ => exact hJ.present _ _ _ hm

/-- A session is just returned, with a new name, or is not. -/
theorem spawned_exec (hnew : NewIds h w op (exec env op w).1) {pk : ℕ} {created : SessionCreated}
    (hj : justSpawned (⟨op, (exec env op w).1⟩ :: h) = some (pk, created)) :
    ∀ r ∈ (exec env op w).2.sessions.rows, r.devinSessionId ≠ some created.devinSessionId := by
  cases op with
  | createSession key req =>
    cases ha : (exec env (.createSession key req) w).1 with
    | error exc =>
      rw [ha] at hj
      cases hj
    | ok c =>
      rw [ha] at hj hnew
      obtain ⟨hd, -, he⟩ := Option.map_eq_some_iff.1 hj
      cases he
      exact hnew _ rfl
  | _ => cases hj

theorem chainsExact_step (hJ : ChainsExact S h w) (hC : Current h w) (hp : Permits S h op)
    (hnew : NewIds h w op (exec env op w).1) :
    ChainsExact S (⟨op, (exec env op w).1⟩ :: h) (exec env op w).2 where
  exact := by
    rcases links_exec env w hp with hsame | ⟨res, rfl, hrow⟩ | ⟨pk, created, hj, hid⟩
    · rw [hsame]
      exact hJ.exact
    · rw [hrow]
      exact hJ.reserve hC hp
    · rw [hid]
      refine hJ.exact.start ?_ ?_
      · -- the row is as it was inserted
        rintro l hl rfl
        obtain ⟨r, hr, rfl⟩ := List.mem_map.1 hl
        obtain ⟨res, t, ht⟩ := hC.spawnedRow _ _ hj
        have hget : w.sessions.get r.id = some r := w.sessions.get_eq_some.2 ⟨hr, rfl⟩
        rw [SessionRow.link, hget, Option.some.injEq] at ht
        rw [ht]
        rfl
      · intro l hl
        obtain ⟨r, hr, rfl⟩ := List.mem_map.1 hl
        exact hJ.spawned _ _ hj r hr
  present _ _ _ hm := hJ.present_exec hp hm
  spawned _ _ hj := spawned_exec hnew hj

/-- In a table whose rows are in the order of their ids, so are the attempts on a session. -/
theorem attemptsOn_eq {t : Sessions} (hasc : (links t).Pairwise fun l l' => l.id < l'.id) :
    attemptsOn t x = t.rows.filter (isChildOf x) := by
  have hrows : t.rows.Pairwise fun r s => r.id ≤ s.id :=
    (List.pairwise_map.1 hasc).imp fun h => le_of_lt h
  exact List.Pairwise.insertionSort_eq (hrows.filter _)

/-- **Attempt numbers are exact**, after every serial run from the empty database in which Devin's
ids are unique: the attempts on a session count on from the number of its row, in the order of
their ids and within the cap. -/
theorem attempts_exact (now : Time) (tasks : List Task)
    (hnew : SerialOK env S NewIds (.initial now) tasks) :
    let t := (runSerial env S (.initial now) tasks).sessions
    ∀ r ∈ t.rows, ∀ x, r.devinSessionId = some x →
      (∃ k, (attemptsOn t x).map (·.fixAttemptNumber) = List.range' (r.fixAttemptNumber + 1) k) ∧
        ∀ c ∈ attemptsOn t x, c.fixAttemptNumber ≤ S.maxFixAttempts := by
  intro t
  have hinv : Exact S.maxFixAttempts (links t) :=
    serial_inv (R := NewIds) (fun w => Exact S.maxFixAttempts (links w.sessions)) (ChainsExact S)
      (fun w hI => ⟨hI, fun _ _ _ hm => (by cases hm), fun _ _ hj => (by cases hj)⟩)
      (fun h w hJ _ => hJ.exact) (fun h w op hJ hC hp hr => chainsExact_step hJ hC hp hr) tasks
      Exact.nil hnew
  intro r hr x hx
  have hnumbers : (attemptsOn t x).map (·.fixAttemptNumber) = numbers x (links t) := by
    rw [attemptsOn_eq hinv.ascending, numbers_links]
    rfl
  constructor
  · rw [hnumbers]
    exact hinv.counts r.link (List.mem_map.2 ⟨r, hr, rfl⟩) x hx
  · intro c hc
    refine hinv.capped x _ ?_
    rw [← hnumbers]
    exact List.mem_map.2 ⟨c, hc, rfl⟩

/-- An issue, its session's end and two CI failures: both attempts are counted from the issue's
session. -/
theorem two_fixes_exact :
    let t := (runSerial Siblings.outside {} (.initial 0) Siblings.twoFixes).sessions
    SerialOK Siblings.outside {} NewIds (.initial 0) Siblings.twoFixes ∧
      ∀ r ∈ t.rows, ∀ x, r.devinSessionId = some x →
        (∃ k, (attemptsOn t x).map (·.fixAttemptNumber) = List.range' (r.fixAttemptNumber + 1) k) ∧
          ∀ c ∈ attemptsOn t x, c.fixAttemptNumber ≤ 3 := by
  have hnew : SerialOK Siblings.outside {} NewIds (.initial 0) Siblings.twoFixes := by
    decide +kernel
  exact ⟨hnew, attempts_exact 0 Siblings.twoFixes hnew⟩

end Remediation
