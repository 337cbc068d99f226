import Remediation.Proof.Effects

/-!
# Capacity and crashes

A row is inserted with an active status before there is a session for it, and the handler
settles it by its last UPDATE. Nothing else does: the poller passes over rows without a
Devin id, and starting up gives out work keys only. An active row without a Devin id
therefore belongs to a handler at work exactly as long as no crash hits a handler in
between (`none_leaked_iff`); `crash_leaks_capacity` is such a crash.
-/

namespace Remediation

open Interaction Prog

/-- The row belongs to a handler that is still executing. -/
def Executing (c : Config Ans Unit World) (pk : ℕ) : Prop :=
  ∃ t ∈ c.threads, t.running = true ∧ inHand t.hist = some pk

/-- Every active row has a Devin id, or a handler that is still executing. Devin's ids are taken not to
be empty: the poller would pass over a row with such an id as well. -/
def NoneLeaked (c : Config Ans Unit World) : Prop :=
  ∀ r ∈ c.world.sessions.rows, r.status.active = true →
    r.devinSessionId.isSome = true ∨ Executing c r.id

/-- A crash hits no handler whose row is active and without a Devin id. -/
def Uninterrupted (c : Config Ans Unit World) : Act Task ℕ → Prop
  | .crash _ => ∀ r ∈ c.world.sessions.rows, Executing c r.id → r.status.active = true →
      r.devinSessionId.isSome = true
  | _ => True

instance (c : Config Ans Unit World) (pk : ℕ) : Decidable (Executing c pk) :=
  inferInstanceAs (Decidable (∃ t ∈ c.threads, t.running = true ∧ inHand t.hist = some pk))

instance (c : Config Ans Unit World) : Decidable (NoneLeaked c) :=
  inferInstanceAs (Decidable (∀ r ∈ c.world.sessions.rows, r.status.active = true →
    r.devinSessionId.isSome = true ∨ Executing c r.id))

variable {env : Outside} {S : Settings} {w : World} {h : Hist} {op : Op}

/-! ## Rows with a Devin id -/

/-- The row has a Devin id. -/
def HasSession (w : World) (pk : ℕ) : Prop :=
  ∃ r, w.sessions.get pk = some r ∧ r.devinSessionId.isSome = true

theorem HasSession.exec {pk : ℕ} (hs : HasSession w pk) (env : Outside) (op : Op) :
    HasSession (exec env op w).2 pk := by
  obtain ⟨r, hr, hx⟩ := hs
  rcases op.write_cases with hop | ⟨res, rfl⟩ | ⟨pk', u, rfl⟩
  · exact ⟨r, by rw [exec_sessions hop]; exact hr, hx⟩
  · exact ⟨r, get_tryReserve res hr, hx⟩
  · refine ⟨_, by rw [exec_update_sessions, Sessions.get_update, hr]; rfl, ?_⟩
    split
    · rw [Update.apply_devinSessionId, Option.isSome_or, hx, Bool.or_true]
    · exact hx

theorem HasSession.of_mem {r : SessionRow} (hs : HasSession w r.id) (hr : r ∈ w.sessions.rows) :
    r.devinSessionId.isSome = true := by
  obtain ⟨r', hr', hx⟩ := hs
  rw [w.sessions.get_eq_some.2 ⟨hr, rfl⟩] at hr'
  cases hr'
  exact hx

/-- Active rows without a Devin id are in hand; and what the tasks have read of rows with a
Devin id is still so. -/
structure Owned (w : World) (hs : List Hist) : Prop where
  active : ∀ r ∈ w.sessions.rows, r.status.active = true → r.devinSessionId = none →
    ∃ h ∈ hs, inHand h = some r.id
  pr : ∀ r ∈ w.sessions.rows, r.prUrl.isSome = true → r.devinSessionId.isSome = true
  seenRow : ∀ h ∈ hs, ∀ pk r, seen pk h = some r → r.devinSessionId.isSome = true → HasSession w pk
  chosenRow : ∀ h ∈ hs, ∀ prUrl p, chosen h = some (prUrl, p) → HasSession w p.id

/-- **What a permitted UPDATE does to a row without a Devin id**: it ends the work, or
stores the id. -/
theorem Permits.update_settles {pk : ℕ} {u : Update} (hp : Permits S h (.update pk u))
    (hseen : ∀ pk r, seen pk h = some r → r.devinSessionId.isSome = true → HasSession w pk)
    (hchosen : ∀ prUrl p, chosen h = some (prUrl, p) → HasSession w p.id) :
    (∃ s, u.status = some s ∧ s.active = false ∧ u.prUrl = none) ∨
      (u.devinSessionId.isSome = true ∧ u.prUrl = none) ∨ HasSession w pk := by
  cases hp with
  | quiet hop => cases hop
  | fail _ => exact Or.inl ⟨_, rfl, rfl, rfl⟩
  | activate _ => exact Or.inr (Or.inl ⟨rfl, rfl⟩)
  | escalate _ hm _ _ => exact Or.inr (Or.inr (hchosen _ _ (chosen_of_counted hm)))
  | cancelChild _ _ _ _ => exact Or.inl ⟨_, rfl, rfl, rfl⟩
  | poll _ hs _ hx _ _ => exact Or.inr (Or.inr (hseen _ _ hs (by rw [hx]; rfl)))

/-- What a task has read last is a row of the table, or was read before. -/
theorem seen_exec {pk : ℕ} {r : SessionRow} (hs : seen pk (⟨op, (exec env op w).1⟩ :: h) = some r) :
    (r ∈ w.sessions.rows ∧ r.id = pk) ∨ seen pk h = some r := by
  have hread : ∀ rows : List SessionRow, (∀ r ∈ rows, r ∈ w.sessions.rows) →
      (rows.find? fun r => r.id = pk).or (seen pk h) = some r →
      (r ∈ w.sessions.rows ∧ r.id = pk) ∨ seen pk h = some r := by
    intro rows hrows hr
    rcases Option.or_eq_some_iff.1 hr with hf | ⟨-, hs⟩
    · exact Or.inl ⟨hrows r (List.mem_of_find?_eq_some hf), by simpa using List.find?_some hf⟩
    · exact Or.inr hs
  cases op with
  | listNonTerminal => exact hread _ (fun r hr => (Sessions.mem_listNonTerminal.1 hr).1) hs
  | findActiveChildren parent =>
    exact hread _ (fun r hr => (Sessions.mem_findActiveChildren.1 hr).1) hs
  | update pk' u =>
    simp only [seen] at hs
    split at hs
    · cases hs
    · exact Or.inr hs
  | _ => exact Or.inr hs

theorem chosen_exec {prUrl : String} {p : SessionRow}
    (hc : chosen (⟨op, (exec env op w).1⟩ :: h) = some (prUrl, p)) :
    (p ∈ w.sessions.rows ∧ p.prUrl = some prUrl) ∨ chosen h = some (prUrl, p) := by
  cases op with
  | findByPr prUrl' =>
    have ha : (exec env (.findByPr prUrl') w).1 = w.sessions.findByPr prUrl' := rfl
    rw [ha] at hc
    cases hf : w.sessions.findByPr prUrl' with
    | none => rw [hf] at hc; exact Or.inr hc
    | some q =>
      rw [hf] at hc
      cases hc
      exact Or.inl (Sessions.mem_of_findByPr hf)
  | tryReserve res => cases hc
  | update pk u => cases hc
  | _ => exact Or.inr hc

variable {hs : List Hist} {i : ℕ}

/-- The rows in hand of the other tasks are in hand still. -/
theorem inHand_set {h' : Hist} {pk : ℕ} (hi : hs[i]? = some h) (hne : inHand h ≠ some pk)
    (ho : ∃ h ∈ hs, inHand h = some pk) : ∃ g ∈ hs.set i h', inHand g = some pk := by
  obtain ⟨g, hg, hpk⟩ := ho
  rcases System.mem_set_or_eq hi h' hg with rfl | hg
  · exact absurd hpk hne
  · exact ⟨g, hg, hpk⟩

theorem inHand_set_self {h' : Hist} {pk : ℕ} (hi : hs[i]? = some h) (hpk : inHand h' = some pk) :
    ∃ g ∈ hs.set i h', inHand g = some pk :=
  ⟨h', System.mem_set_self hi h', hpk⟩

/-- The active rows without a Devin id stay in hand. -/
theorem owned_active (hJ : Owned w hs) (hi : hs[i]? = some h) (hp : Permits S h op) :
    ∀ r ∈ (exec env op w).2.sessions.rows, r.status.active = true → r.devinSessionId = none →
      ∃ g ∈ hs.set i (⟨op, (exec env op w).1⟩ :: h), inHand g = some r.id := by
  have hmem : h ∈ hs := List.mem_of_getElem? hi
  intro r hr hact hnone
  rcases op.write_cases with hop | ⟨res, rfl⟩ | ⟨pk, u, rfl⟩
  · rw [exec_sessions hop] at hr
    by_cases hh : inHand h = some r.id
    · exact inHand_set_self hi (hp.inHand_cons hop hh _)
    · exact inHand_set hi hh (hJ.active r hr hact hnone)
  · -- a task that reserves has had nothing in hand before
    have hidle : inHand h = none := by
      cases hp with
      | quiet hop => cases hop
      | reserveIssue hi => exact inHand_of_idle hi
      | reserveFix hi => exact inHand_of_idle hi
    have hother : r ∈ w.sessions.rows →
        ∃ g ∈ hs.set i (⟨.tryReserve res, (exec env (.tryReserve res) w).1⟩ :: h),
          inHand g = some r.id := fun hr =>
      inHand_set hi (by rw [hidle]; exact nofun) (hJ.active r hr hact hnone)
    rcases exec_tryReserve env w res with ⟨pk, t, ha, ht, hw⟩ | ⟨-, -, hw⟩
    · obtain ⟨-, -, hrows⟩ := Sessions.tryReserve_eq_some ht
      rw [hw, hrows, List.mem_append, List.mem_singleton] at hr
      rcases hr with hr | rfl
      · exact hother hr
      · rw [ha]
        exact inHand_set_self hi rfl
    · rw [hw] at hr
      exact hother hr
  · rcases Sessions.mem_update.1 hr with ⟨hr, hne⟩ | ⟨r', hr', rfl, rfl⟩
    · refine inHand_set hi ?_ (hJ.active r hr hact hnone)
      intro hh
      exact hne (hp.update_inHand hh).symm
    · -- the row that is written is settled by that, or has been before
      exfalso
      rw [Update.apply_devinSessionId] at hnone
      rcases hp.update_settles (hJ.seenRow h hmem) (hJ.chosenRow h hmem) with
        ⟨s, hu, hs, -⟩ | ⟨hu, -⟩ | hsess
      · rw [Update.apply_status, hu, Option.getD_some, hs] at hact
        cases hact
      · obtain ⟨x, hx⟩ := Option.isSome_iff_exists.1 hu
        rw [hx] at hnone
        cases hnone
      · obtain ⟨x, hx⟩ := Option.isSome_iff_exists.1 (hsess.of_mem hr')
        rw [hx, Option.or_eq_none_iff] at hnone
        cases hnone.2

/-- A row with the URL of a pull request has a Devin id. -/
theorem owned_pr (hJ : Owned w hs) (hi : hs[i]? = some h) (hp : Permits S h op) :
    ∀ r ∈ (exec env op w).2.sessions.rows, r.prUrl.isSome = true →
      r.devinSessionId.isSome = true := by
  have hmem : h ∈ hs := List.mem_of_getElem? hi
  intro r hr hpr
  rcases op.write_cases with hop | ⟨res, rfl⟩ | ⟨pk, u, rfl⟩
  · rw [exec_sessions hop] at hr
    exact hJ.pr r hr hpr
  · rcases rows_tryReserve env w res with hrows | ⟨pk, hrows⟩
    · rw [hrows] at hr
      exact hJ.pr r hr hpr
    · rw [hrows, List.mem_append, List.mem_singleton] at hr
      rcases hr with hr | rfl
      · exact hJ.pr r hr hpr
      · cases hpr
  · rcases Sessions.mem_update.1 hr with ⟨hr, -⟩ | ⟨r', hr', rfl, rfl⟩
    · exact hJ.pr r hr hpr
    · have hkept : r'.devinSessionId.isSome = true → (u.apply r').devinSessionId.isSome = true := by
        intro hx
        rw [Update.apply_devinSessionId, Option.isSome_or, hx, Bool.or_true]
      have hold : u.prUrl = none → (u.apply r').devinSessionId.isSome = true := by
        intro hu
        refine hkept (hJ.pr r' hr' ?_)
        simpa [Update.apply, hu] using hpr
      rcases hp.update_settles (hJ.seenRow h hmem) (hJ.chosenRow h hmem) with
        ⟨-, -, -, hu⟩ | ⟨-, hu⟩ | hsess
      · exact hold hu
      · exact hold hu
      · exact hkept (hsess.of_mem hr')

theorem owned_step (hJ : Owned w hs) (hi : hs[i]? = some h) (hp : Permits S h op) :
    Owned (exec env op w).2 (hs.set i (⟨op, (exec env op w).1⟩ :: h)) where
  active := owned_active hJ hi hp
  pr := owned_pr hJ hi hp
  seenRow g hg pk r hr hx := by
    rcases List.mem_or_eq_of_mem_set hg with hg | rfl
    · exact (hJ.seenRow g hg pk r hr hx).exec env op
    rcases seen_exec hr with ⟨hmem, rfl⟩ | hold
    · exact HasSession.exec ⟨r, w.sessions.get_eq_some.2 ⟨hmem, rfl⟩, hx⟩ env op
    · exact (hJ.seenRow h (List.mem_of_getElem? hi) pk r hold hx).exec env op
  chosenRow g hg prUrl p hc := by
    rcases List.mem_or_eq_of_mem_set hg with hg | rfl
    · exact (hJ.chosenRow g hg prUrl p hc).exec env op
    rcases chosen_exec hc with ⟨hr, hu⟩ | hc
    · have hx := hJ.pr p hr (by rw [hu]; rfl)
      exact HasSession.exec ⟨p, w.sessions.get_eq_some.2 ⟨hr, rfl⟩, hx⟩ env op
    · exact (hJ.chosenRow h (List.mem_of_getElem? hi) prUrl p hc).exec env op

/-! ## Runs -/

/-- A row after starting up is a row before, but for its work key. -/
theorem mem_boot {n : ℕ} {r : SessionRow} (hr : r ∈ (w.boot n).sessions.rows) :
    ∃ r' ∈ w.sessions.rows, r'.id = r.id ∧ r'.status = r.status ∧
      r'.devinSessionId = r.devinSessionId ∧ r'.prUrl = r.prUrl := by
  let g : SessionRow → ℕ × Status × Option String × Option String :=
    fun r => (r.id, r.status, r.devinSessionId, r.prUrl)
  have hmap : (w.boot n).sessions.rows.map g = w.sessions.rows.map g :=
    map_backfillMissingWorkKeys g (fun _ _ => rfl) n w.sessions
  obtain ⟨r', hr', he⟩ := List.mem_map.1 (hmap ▸ List.mem_map_of_mem (f := g) hr)
  simp only [g, Prod.mk.injEq] at he
  exact ⟨r', hr', he⟩

/-- Between crashes that hit no handler in between, everything stays in hand. -/
theorem owned_act {c : Config Ans Unit World} (a : Act Task ℕ) (hJ : Owned c.world c.hists)
    (hK : System.KeepsAll (contract S) Settled c) (hU : Uninterrupted c a)
    (hrun : ∀ r ∈ c.world.sessions.rows, (∃ h ∈ c.hists, inHand h = some r.id) → Executing c r.id) :
    Owned ((service env S).step c a).world ((service env S).step c a).hists ∧
      System.KeepsAll (contract S) Settled ((service env S).step c a) := by
  refine System.step_inv (R := fun _ _ _ _ => True) Owned keeps_task ?_
    (fun w _ _ op _ _ _ => exec_honest env op w) (fun _ _ _ _ _ hJ hi hp _ => owned_step hJ hi hp)
    a ?_ hJ hK fun _ _ => trivial
  · intro w hs hJ
    refine ⟨fun r hr ha hn => ?_, hJ.pr, fun h hh => ?_, fun h hh => ?_⟩
    · obtain ⟨h, hh, hpk⟩ := hJ.active r hr ha hn
      exact ⟨h, List.mem_append_left _ hh, hpk⟩
    · rcases List.mem_append.1 hh with hh | hh
      · exact hJ.seenRow h hh
      · rw [List.mem_singleton.1 hh]
        intro _ _ hs
        cases hs
    · rcases List.mem_append.1 hh with hh | hh
      · exact hJ.chosenRow h hh
      · rw [List.mem_singleton.1 hh]
        intro _ _ hc
        cases hc
  · rintro n rfl
    refine ⟨fun r hr ha hn => ?_, fun r hr hpr => ?_, fun h hh => (by cases hh),
      fun h hh => by cases hh⟩
    · -- a row that a lost handler would have settled
      obtain ⟨r', hr', hid, hst, hx, -⟩ := mem_boot hr
      rw [← hst] at ha
      rw [← hx] at hn
      have hsome := hU r' hr' (hrun r' hr' (hJ.active r' hr' ha hn)) ha
      rw [hn] at hsome
      cases hsome
    · obtain ⟨r', hr', -, -, hx, hu⟩ := mem_boot hr
      rw [← hx]
      exact hJ.pr r' hr' (hu ▸ hpr)

/-- A task with something in hand has not returned. -/
theorem executing_of_inHand {c : Config Ans Unit World}
    (hK : System.KeepsAll (contract S) Settled c) {pk : ℕ}
    (ho : ∃ h ∈ c.hists, inHand h = some pk) : Executing c pk := by
  obtain ⟨h, hh, hpk⟩ := ho
  obtain ⟨t, ht, rfl⟩ := List.mem_map.1 hh
  refine ⟨t, ht, ?_, hpk⟩
  have hkeeps := hK t ht
  unfold Thread.running
  cases hp : t.prog with
  | call op k => rfl
  | ret a =>
    rw [hp] at hkeeps
    rw [inHand_of_idle hkeeps] at hpk
    cases hpk

theorem noneLeaked_of_owned {c : Config Ans Unit World} (hJ : Owned c.world c.hists)
    (hK : System.KeepsAll (contract S) Settled c) : NoneLeaked c := by
  intro r hr hact
  cases hx : r.devinSessionId with
  | some x => exact Or.inl rfl
  | none => exact Or.inr (executing_of_inHand hK (hJ.active r hr hact hx))

/-- **Capacity is leaked by interrupted handlers, and by nothing else.** From the empty
database, along every interleaving of tasks with crashes and restarts: in every state that
is reached each active row has a Devin id or a handler that is still executing, if and only
if no crash hits a handler whose row is active and has no Devin id yet. -/
theorem none_leaked_iff (now : Time) (acts : List (Act Task ℕ)) :
    (∀ before, before <+: acts → NoneLeaked ((service env S).run ⟨.initial now, []⟩ before)) ↔
      (service env S).Throughout Uninterrupted ⟨.initial now, []⟩ acts := by
  constructor
  · intro hall before a ha
    cases a with
    | spawn t => trivial
    | run i => trivial
    | crash n =>
      -- nobody is left after the crash, so every active row has its id already
      have hafter := hall _ ha
      rw [System.run, List.foldl_append] at hafter
      intro r hr _ hact
      obtain ⟨r', hr', he⟩ := List.mem_map.1 ((map_backfillMissingWorkKeys
        (fun r => (r.status, r.devinSessionId)) (fun _ _ => rfl) n _).symm ▸
          List.mem_map_of_mem (f := fun r : SessionRow => (r.status, r.devinSessionId)) hr)
      simp only [Prod.mk.injEq] at he
      rcases hafter r' hr' (he.1 ▸ hact) with hx | ⟨t, ht, -⟩
      · rw [← he.2]
        exact hx
      · cases ht
  · intro hU before hb
    have howned : Owned (World.initial now) [] :=
      ⟨fun r hr => (by cases hr), fun r hr => (by cases hr), fun h hh => (by cases hh),
        fun h hh => by cases hh⟩
    have hkeeps : System.KeepsAll (α := Unit) (contract S) Settled ⟨World.initial now, []⟩ :=
      fun t ht => by cases ht
    have hend := System.run_throughout (S := service env S)
      (I := fun c => Owned c.world c.hists ∧ System.KeepsAll (contract S) Settled c)
      (fun c a hI hU => owned_act a hI.1 hI.2 hU fun _ _ => executing_of_inHand hI.2) before
      ⟨howned, hkeeps⟩ fun b a h => hU b a (h.trans hb)
    exact noneLeaked_of_owned hend.1 hend.2

/-! ## A handler that is interrupted -/

/-- A handler of an issue that counts, reserves, and is lost in a crash. -/
def interrupted : List (Act Task ℕ) :=
  .spawn (.securityIssue (.sample 1)) :: List.replicate 3 (.run 0) ++ [.crash 0]

/-- **The crash leaks capacity**: its row is active, without a Devin id, and nobody's. -/
theorem crash_leaks_capacity : ¬NoneLeaked ((service .calm {}).run ⟨.initial 0, []⟩ interrupted) := by
  decide +kernel

end Remediation
