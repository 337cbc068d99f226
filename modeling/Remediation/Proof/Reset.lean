import Remediation.Lib.Release
import Remediation.Proof.AtMostOnce
import Remediation.Proof.Deliveries
import Remediation.Spec.Admin

/-!
# Resets in the middle of the work

`/admin/reset` deletes the rows that everything else relies on, and the jobs that are at work go on.
What is left of the guarantee is one session for a work key and each reset
(`create_session_once_per_reset`), and only a request with the token resets anything. A job that
writes late does not write into what has come since: a row's primary key is never given out again,
so that its UPDATE meets the row it knows, or none (`late_write_own_row`).
-/

namespace Remediation

open Interaction Prog PyText

variable {env : Outside} {A : AdminSettings} {S : Settings}

/-! ## The token -/

theorem compareDigest_true {a b : String} :
    compareDigest a b = .ok true ↔ isAscii b = true ∧ a = b := by
  unfold compareDigest
  split
  · rename_i hascii
    obtain ⟨-, hb⟩ := Bool.and_eq_true_iff.1 hascii
    simp [hb]
  · rename_i hascii
    refine iff_of_false (fun h => by cases h) ?_
    rintro ⟨hb, rfl⟩
    exact hascii (Bool.and_eq_true_iff.2 ⟨hb, hb⟩)

theorem requireToken_ok {token : Option String} : requireToken A token = .ok () ↔
    A.adminToken ≠ "" ∧ isAscii A.adminToken = true ∧ token = some A.adminToken := by
  unfold requireToken
  by_cases hempty : A.adminToken = ""
  · rw [if_pos hempty]
    exact iff_of_false (fun h => by cases h) fun h => h.1 hempty
  rw [if_neg hempty]
  cases ht : truthy token with
  | none =>
    refine iff_of_false (fun h => by cases h) ?_
    rintro ⟨-, -, rfl⟩
    have hsome := truthy_eq_some.2 ⟨rfl, hempty⟩
    rw [hsome] at ht
    cases ht
  | some provided =>
    obtain ⟨rfl, -⟩ := truthy_eq_some.1 ht
    dsimp only
    rw [Option.some.injEq, and_iff_right hempty, ← compareDigest_true]
    cases compareDigest provided A.adminToken with
    | error exc => exact iff_of_false (fun h => by cases h) fun h => by cases h
    | ok same => cases same <;> simp

/-- **Who is admitted**: the routes are mounted, and the request has the token that is configured. -/
theorem permit_ok {token : Option String} : permit A token = .ok () ↔
    A.enableAdminRoutes = true ∧ A.adminToken ≠ "" ∧ isAscii A.adminToken = true ∧
      token = some A.adminToken := by
  unfold permit
  split
  · rename_i hen
    rw [requireToken_ok, and_iff_right hen]
  · rename_i hen
    exact iff_of_false (fun h => by cases h) fun h => hen h.1

/-- The act starts a reset that will be admitted. -/
def resets (A : AdminSettings) : Act AdminJob ℕ → Bool
  | .spawn (.reset token) => (permit A token).isOk
  | _ => false

/-! ## The contract -/

/-- The service keeps to its contract, and the tables may be wiped. -/
def adminContract (S : Settings) : Contract AdminAns := (contract S).extend fun _ => True

theorem keeps_adminJob (job : AdminJob) :
    (job.prog A S).Keeps (adminContract S) (fun h a => Settled (known h) a) [] := by
  cases job with
  | job j => exact Keeps.extend (h := []) (keeps_job j)
  | replay deliveryId token =>
    change (Admin.replay A S deliveryId token).Keeps _ _ _
    unfold Admin.replay
    split
    · exact idle_nil
    · exact Keeps.extend (h := []) (keeps_task (.replay deliveryId))
  | reset token =>
    change (Admin.reset A token).Keeps _ _ _
    unfold Admin.reset
    split
    · exact idle_nil
    · exact ⟨trivial, fun _ _ => ⟨trivial, fun _ _ => idle_nil⟩⟩

theorem adminExec_post (h : List (Entry AdminAns)) (op : Op ⊕ Wipe) (w : AdminWorld) :
    (adminContract S).post h op (adminExec env op w).1 := by
  cases op with
  | inl op => exact exec_honest env op w.world
  | inr wipe => trivial

/-! ## Work keys -/

/-- The work keys of `sessions`, which a wipe releases. -/
def adminReservations : ClaimProtocol AdminAns AdminWorld String where
  wins e := e.known.bind reserves
  acts
    | .inl op => op.creates
    | .inr _ => none
  taken w k := reservations.taken w.world k
  count w k := createCount k w.world.trace

/-- The operations that release the work keys. -/
def releases : Op ⊕ Wipe → Bool
  | .inr .deleteSessions => true
  | _ => false

theorem adminReservations_honest : adminReservations.HonestUpTo (adminExec env)
    (administered env A S).boot releases AdminWorld.wipes where
  stays op w k hno hk := by
    cases op with
    | inl op => exact reservations_honest.stays op w.world k hk
    | inr wipe =>
      cases wipe with
      | deleteSessions => cases hno
      | deleteWebhookEvents => exact hk
  wins_free op w k hw := by
    cases op with
    | inl op => exact reservations_honest.wins_free op w.world k hw
    | inr wipe => cases hw
  wins_takes op w k hw := by
    cases op with
    | inl op => exact reservations_honest.wins_takes op w.world k hw
    | inr wipe => cases hw
  wins_idle op w k hw := by
    cases op with
    | inl op => exact ⟨reservations_honest.wins_idle op w.world k hw, rfl⟩
    | inr wipe => cases hw
  acts_keeps op k ha := by
    cases op with
    | inl op => rfl
    | inr wipe => cases ha
  counts op w k := by
    cases op with
    | inl op => exact reservations_honest.counts op w.world k
    | inr wipe => cases wipe <;> rfl
  releases op w := by
    cases op with
    | inl op => rfl
    | inr wipe => cases wipe <;> rfl
  boot_stays n w k hk :=
    have honest : reservations.Honest (exec env) World.boot := reservations_honest
    honest.boot_stays n w.world k hk
  boot_counts _ _ _ := rfl
  boot_releases _ _ := rfl

/-- What is open to a job is open by what it knows of the service. -/
theorem isOpen_known (k : String) (h : List (Entry AdminAns)) :
    adminReservations.isOpen k h = reservations.isOpen k (known h) := by
  induction h with
  | nil => rfl
  | cons e h ih =>
    obtain ⟨op, a⟩ := e
    cases op with
    | inl op =>
      rw [known_inl]
      unfold ClaimProtocol.isOpen
      rw [ih]
      rfl
    | inr wipe =>
      rw [known_inr]
      exact ih

theorem admin_actsWhenOpen {h : List (Entry AdminAns)} {op : Op ⊕ Wipe}
    (hp : (adminContract S).pre h op) : adminReservations.ActsWhenOpen h op := by
  intro k hk
  cases op with
  | inl op =>
    rw [isOpen_known]
    exact actsWhenOpen hp k hk
  | inr wipe => cases hk

/-! ## How often the tables are wiped -/

theorem costs_adminJob (job : AdminJob) :
    (job.prog A S).Costs (fun op => (releases op).toNat) (fun _ _ => True) (job.wipes A) := by
  cases job with
  | job j => exact costs_extend (fun _ => rfl) _ _
  | replay deliveryId token =>
    change (Admin.replay A S deliveryId token).Costs _ _ _
    unfold Admin.replay
    split
    · trivial
    · exact costs_extend (fun _ => rfl) _ _
  | reset token =>
    change (Admin.reset A token).Costs _ _ (if (permit A token).isOk then 1 else 0)
    unfold Admin.reset
    cases permit A token with
    | error refusal => trivial
    | ok _ => exact ⟨le_rfl, fun _ _ => ⟨Nat.zero_le _, fun _ _ => trivial⟩⟩

theorem spawned_wipes (acts : List (Act AdminJob ℕ)) :
    System.spawned (AdminJob.wipes A) acts = acts.countP (resets A) := by
  induction acts with
  | nil => rfl
  | cons a acts ih =>
    rw [List.countP_cons, ← ih]
    unfold System.spawned
    rw [List.map_cons, List.sum_cons, Nat.add_comm]
    cases a with
    | spawn job => cases job <;> rfl
    | _ => rfl

/-- The tables are wiped only for a request that is admitted. -/
theorem wipes_le (w : AdminWorld) (acts : List (Act AdminJob ℕ)) :
    ((administered env A S).run ⟨w, []⟩ acts).world.wipes ≤ w.wipes + acts.countP (resets A) := by
  have hrun := System.run_costs (S := administered env A S) AdminWorld.wipes (fun _ _ => trivial)
    (fun op w => ((adminReservations_honest (A := A) (S := S)).releases op w).le)
    (fun _ _ => rfl) costs_adminJob acts (c := ⟨w, []⟩) List.Forall₂.nil
  rw [spawned_wipes] at hrun
  exact hrun

/-- **One session for a work key and each reset.** In every interleaving of deliveries, ticks,
replays and resets, with crashes, `create_session` is called for a work key once more than the
tables have been wiped at most, and they are wiped only for requests that are admitted. -/
theorem create_session_once_per_reset (sessions : Sessions) (events : WebhookEvents) (now : Time)
    (acts : List (Act AdminJob ℕ)) :
    let w := ((administered env A S).run ⟨{ world := { sessions, events, now } }, []⟩ acts).world
    (∀ workKey, createCount workKey w.world.trace ≤ w.wipes + 1) ∧
      w.wipes ≤ acts.countP (resets A) := by
  intro w
  have hb := ClaimProtocol.at_most_once_each (S := administered env A S) (C := adminContract S)
    (w := { world := { sessions, events, now } })
    adminReservations_honest (fun _ _ => admin_actsWhenOpen) adminExec_post keeps_adminJob
    (fun _ => rfl) acts
  refine ⟨fun k => le_trans (Nat.le_add_right _ _) (hb k).1, ?_⟩
  have hle : w.wipes ≤ 0 + acts.countP (resets A) := wipes_le _ acts
  rwa [Nat.zero_add] at hle

/-! ## Late writes -/

/-- The rows that an entry names, each with its work key. -/
def tells : Entry Ans → List (ℕ × String)
  | ⟨.tryReserve res, some pk⟩ => [(pk, res.workKey)]
  | ⟨.listNonTerminal, rows⟩ => rows.map fun r => (r.id, r.workKey)
  | ⟨.findByPr _, row⟩ => row.toList.map fun r => (r.id, r.workKey)
  | ⟨.findActiveChildren _, rows⟩ => rows.map fun r => (r.id, r.workKey)
  | _ => []

/-- The task has been told of the row. -/
def Told (h : Hist) (pk : ℕ) (workKey : String) : Prop := ∃ e ∈ h, (pk, workKey) ∈ tells e

theorem Told.cons {h : Hist} {pk : ℕ} {workKey : String} (ht : Told h pk workKey) (e : Entry Ans) :
    Told (e :: h) pk workKey := by
  obtain ⟨e', he', ht⟩ := ht
  exact ⟨e', List.mem_cons_of_mem _ he', ht⟩

theorem told_of_held {h : Hist} {hd : Held} (hh : held h = some hd) : Told h hd.pk hd.res.workKey := by
  induction h using held.induct generalizing hd with
  | case1 => cases hh
  | case2 res pk h =>
    cases hh
    exact ⟨_, List.mem_cons_self, List.mem_singleton.2 rfl⟩
  | case3 pk u a h => cases hh
  | case4 key req created h => cases hh
  | case5 key req exc h ih =>
    simp only [held, Option.map_eq_some_iff] at hh
    obtain ⟨hd', hh', rfl⟩ := hh
    exact (ih hh').cons _
  | case6 e h h1 h2 h3 h4 ih =>
    rw [held.eq_6 _ _ h1 h2 h3 h4] at hh
    exact (ih hh).cons e

theorem told_of_seen {h : Hist} {pk : ℕ} {r : SessionRow} (hs : seen pk h = some r) :
    Told h pk r.workKey := by
  induction h with
  | nil => cases hs
  | cons e h ih =>
    have hold : seen pk h = some r → Told (e :: h) pk r.workKey := fun hs => (ih hs).cons e
    have hread : ∀ rows : List SessionRow, tells e = rows.map (fun r => (r.id, r.workKey)) →
        (rows.find? fun r => r.id = pk).or (seen pk h) = some r → Told (e :: h) pk r.workKey := by
      intro rows he hr
      rcases Option.or_eq_some_iff.1 hr with hf | ⟨-, hs⟩
      · have hid : r.id = pk := by simpa using List.find?_some hf
        refine ⟨e, List.mem_cons_self, ?_⟩
        rw [he, ← hid]
        exact List.mem_map.2 ⟨r, List.mem_of_find?_eq_some hf, rfl⟩
      · exact hold hs
    obtain ⟨op, a⟩ := e
    cases op with
    | listNonTerminal => exact hread a rfl hs
    | findActiveChildren parent => exact hread a rfl hs
    | update pk' u =>
      simp only [seen] at hs
      split at hs
      · cases hs
      · exact hold hs
    | _ => exact hold hs

theorem told_of_chosen {h : Hist} {prUrl : String} {p : SessionRow} (hc : chosen h = some (prUrl, p)) :
    Told h p.id p.workKey := by
  induction h with
  | nil => cases hc
  | cons e h ih =>
    have hold : chosen h = some (prUrl, p) → Told (e :: h) p.id p.workKey := fun hc => (ih hc).cons e
    obtain ⟨op, a⟩ := e
    cases op with
    | findByPr prUrl' =>
      cases a with
      | none => exact hold hc
      | some q =>
        cases hc
        exact ⟨_, List.mem_cons_self, List.mem_singleton.2 rfl⟩
    | tryReserve res => cases hc
    | update pk u => cases hc
    | _ => exact hold hc

theorem told_of_justSpawned {h : Hist} {pk : ℕ} {created : SessionCreated}
    (hs : justSpawned h = some (pk, created)) : ∃ workKey, Told h pk workKey := by
  unfold justSpawned at hs
  split at hs
  · obtain ⟨hd, hh, he⟩ := Option.map_eq_some_iff.1 hs
    cases he
    exact ⟨_, (told_of_held hh).cons _⟩
  · cases hs

/-- A task writes to the rows that it has been told of. -/
theorem Permits.told {h : Hist} {pk : ℕ} {u : Update} (hp : Permits S h (.update pk u)) :
    ∃ workKey, Told h pk workKey := by
  cases hp with
  | quiet hop => cases hop
  | fail hh => exact ⟨_, told_of_held hh⟩
  | activate hs => exact told_of_justSpawned hs
  | escalate _ hm => exact ⟨_, told_of_chosen (chosen_of_counted hm)⟩
  | cancelChild _ hs => exact ⟨_, told_of_seen hs⟩
  | poll _ hs => exact ⟨_, told_of_seen hs⟩

/-- The primary key has been given out, to a row with this work key if it is still there. -/
def World.Fits (w : World) (pk : ℕ) (workKey : String) : Prop :=
  pk < w.sessions.next ∧ ∀ r ∈ w.sessions.rows, r.id = pk → r.workKey = workKey

theorem fits_of_mem {w : World} {r : SessionRow} (hr : r ∈ w.sessions.rows) :
    w.Fits r.id r.workKey := by
  refine ⟨w.sessions.fresh r hr, ?_⟩
  intro s hs hid
  rw [w.sessions.eq_of_id hs hr hid]

theorem fits_exec (op : Op) {w : World} {pk : ℕ} {workKey : String} (hf : w.Fits pk workKey) :
    (exec env op w).2.Fits pk workKey := by
  obtain ⟨hlt, hkey⟩ := hf
  rcases op.write_cases with hop | ⟨res, rfl⟩ | ⟨pk', u, rfl⟩
  · unfold World.Fits
    rw [exec_sessions hop]
    exact ⟨hlt, hkey⟩
  · rcases exec_tryReserve env w res with ⟨n, t, -, ht, hw⟩ | ⟨-, -, hw⟩
    · obtain ⟨rfl, -, hrows, hnext⟩ := Table.insert_eq_some ht
      unfold World.Fits
      rw [hw, hrows, hnext]
      refine ⟨Nat.lt_succ_of_lt hlt, ?_⟩
      intro r hr hid
      rcases List.mem_append.1 hr with hr | hr
      · exact hkey r hr hid
      · -- the new row has a primary key of its own
        rw [List.mem_singleton.1 hr] at hid
        exact absurd hid (Nat.ne_of_gt hlt)
    · unfold World.Fits
      rw [hw]
      exact ⟨hlt, hkey⟩
  · refine ⟨hlt, ?_⟩
    intro r hr hid
    rcases Sessions.mem_update.1 hr with ⟨hr, -⟩ | ⟨s, hs, -, rfl⟩
    · exact hkey r hr hid
    · exact hkey s hs hid

/-- What an operation tells a task fits. -/
theorem fits_of_tells {op : Op} {w : World} {pk : ℕ} {workKey : String}
    (ht : (pk, workKey) ∈ tells ⟨op, (exec env op w).1⟩) : (exec env op w).2.Fits pk workKey := by
  have hrows : ∀ rows : List SessionRow, (∀ r ∈ rows, r ∈ w.sessions.rows) →
      (pk, workKey) ∈ rows.map (fun r => (r.id, r.workKey)) → (exec env op w).2.Fits pk workKey := by
    intro rows hsub hm
    obtain ⟨r, hr, he⟩ := List.mem_map.1 hm
    cases he
    exact fits_exec op (fits_of_mem (hsub r hr))
  cases op with
  | tryReserve res =>
    rcases exec_tryReserve env w res with ⟨n, t, ha, hres, hw⟩ | ⟨ha, -, -⟩
    · rw [ha] at ht
      cases List.mem_singleton.1 ht
      have hnew : res.row (w.tick env).now pk ∈ (exec env (.tryReserve res) w).2.sessions.rows := by
        rw [hw, (Sessions.tryReserve_eq_some hres).2.2]
        exact List.mem_append_right _ (List.mem_singleton.2 rfl)
      exact fits_of_mem hnew
    · rw [ha] at ht
      cases ht
  | listNonTerminal => exact hrows _ (fun r hr => (Sessions.mem_listNonTerminal.1 hr).1) ht
  | findActiveChildren parent =>
    exact hrows _ (fun r hr => (Sessions.mem_findActiveChildren.1 hr).1) ht
  | findByPr prUrl =>
    exact hrows _ (fun r hr => (Sessions.mem_of_findByPr (Option.mem_toList.1 hr)).1) ht
  | _ => cases ht

/-- What the jobs have been told of fits. -/
def AllFit (w : AdminWorld) (hs : List (List (Entry AdminAns))) : Prop :=
  ∀ h ∈ hs, ∀ pk workKey, Told (known h) pk workKey → w.world.Fits pk workKey

theorem allFit_step {w : AdminWorld} {hs : List (List (Entry AdminAns))} {i : ℕ}
    {h : List (Entry AdminAns)} (op : Op ⊕ Wipe) (hf : AllFit w hs) (hi : hs[i]? = some h) :
    AllFit (adminExec env op w).2 (hs.set i (⟨op, (adminExec env op w).1⟩ :: h)) := by
  -- what was told before fits still, after a wipe because no row is left
  have hold : ∀ g ∈ hs, ∀ pk workKey, Told (known g) pk workKey →
      (adminExec env op w).2.world.Fits pk workKey := by
    intro g hg pk workKey ht
    have hfit := hf g hg pk workKey ht
    cases op with
    | inl op => exact fits_exec op hfit
    | inr wipe =>
      cases wipe with
      | deleteSessions => exact ⟨hfit.1, fun r hr => by cases hr⟩
      | deleteWebhookEvents => exact hfit
  intro g hg pk workKey ht
  rcases List.mem_or_eq_of_mem_set hg with hg | rfl
  · exact hold g hg pk workKey ht
  · cases op with
    | inl op =>
      obtain ⟨e, he, hte⟩ := ht
      rcases List.mem_cons.1 he with rfl | he
      · exact fits_of_tells hte
      · exact hold h (List.mem_of_getElem? hi) pk workKey ⟨e, he, hte⟩
    | inr wipe => exact hold h (List.mem_of_getElem? hi) pk workKey ht

/-- Every job that is about to UPDATE a row has been told of it, and the row that is there under its
primary key, if there is one, has the work key that the job has been told. -/
def WritesOwnRows (c : Config AdminAns Unit AdminWorld) : Prop :=
  ∀ t ∈ c.threads, ∀ pk u next, t.prog = .call (.inl (.update pk u)) next →
    ∃ workKey, Told (known t.hist) pk workKey ∧
      ∀ r ∈ c.world.world.sessions.rows, r.id = pk → r.workKey = workKey

/-- **A late write finds its own row**, or none, in every interleaving of deliveries, ticks, replays
and resets, with crashes. -/
theorem late_write_own_row (sessions : Sessions) (events : WebhookEvents) (now : Time)
    (acts : List (Act AdminJob ℕ)) :
    WritesOwnRows ((administered env A S).run ⟨{ world := { sessions, events, now } }, []⟩ acts) := by
  have hspawn : ∀ w hs, AllFit w hs → AllFit w (hs ++ [[]]) := by
    intro w hs hf h hh pk workKey ht
    rcases List.mem_append.1 hh with hh | hh
    · exact hf h hh pk workKey ht
    · -- a new job has been told of nothing
      rw [List.mem_singleton.1 hh] at ht
      obtain ⟨e, he, -⟩ := ht
      cases he
  obtain ⟨hfit, hK⟩ := System.run_inv (S := administered env A S) (C := adminContract S)
    (R := fun _ _ _ _ => True) AllFit keeps_adminJob hspawn (fun _ _ _ _ h hh => by cases hh)
    (fun w _ h op _ _ _ => adminExec_post h op w)
    (fun w hs i h op hf hi _ _ => allFit_step op hf hi) acts
    (c := ⟨{ world := { sessions, events, now } }, []⟩) (fun h hh => by cases hh)
    (by simp [System.KeepsAll]) (System.runOK_true _ acts)
  intro t ht pk u next hp
  have hkeeps := hK t ht
  rw [hp] at hkeeps
  obtain ⟨workKey, htold⟩ := Permits.told hkeeps.1
  have hmem : t.hist ∈ Config.hists _ := List.mem_map.2 ⟨t, ht, rfl⟩
  exact ⟨workKey, htold, (hfit t.hist hmem pk workKey htold).2⟩

end Remediation
