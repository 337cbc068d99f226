import Remediation.Lib.Refine
import Remediation.Proof.Leak
import Remediation.Proof.Representation
import Remediation.Spec.LifeCycle

/-!
# The service refines the life of a work unit

Four kinds of writes reach a row (`UnitWrite`): its handler gives it up or activates it, an
escalation cancels it, or it is reported on once it has a session. While a handler has a row in
hand nobody else has, and the row has no session (`InTouch`). In every interleaving, with crashes,
each row therefore goes along a path of `Phase.Step` (`life_cycle`), and has either all the columns
of a session or none of them (`session_columns`).
-/

namespace Remediation

open Interaction Prog Relation

variable {env : Outside} {S : Settings} {w : World} {h : Hist} {op : Op} {pk : ℕ}

/-- What may be written to a row by a task with history `h`. -/
inductive UnitWrite (w : World) (h : Hist) (pk : ℕ) : Update → Prop
  | giveUp {reason : String} {t : Time} (hh : inHand h = some pk) :
      UnitWrite w h pk
        { status := some .failed, errorMessage := some reason, completedAt := some t }
  | activate {created : SessionCreated} {prompt : String} (hh : inHand h = some pk) :
      UnitWrite w h pk
        { devinSessionId := some created.devinSessionId
          devinUrl := some created.devinUrl
          promptSnapshot := some prompt
          status := some .pending }
  | cancel {msg : String} :
      UnitWrite w h pk { status := some .cancelled, errorMessage := some msg }
  | report {u : Update} (hs : HasSession w pk) (hu : u.devinSessionId = none)
      (hst : ∀ s, u.status = some s → s ≠ .reserving ∧ s ≠ .blocked) : UnitWrite w h pk u

/-- What the tasks take for granted of rows: a row with a pull request, or read with a session,
has a session, and one in hand has none and is in no other hands. -/
structure InTouch (w : World) (hs : List Hist) : Prop where
  pr : ∀ r ∈ w.sessions.rows, r.prUrl.isSome = true → r.devinSessionId.isSome = true
  seenRow : ∀ h ∈ hs, ∀ pk r, seen pk h = some r → r.devinSessionId.isSome = true → HasSession w pk
  chosenRow : ∀ h ∈ hs, ∀ prUrl p, chosen h = some (prUrl, p) → HasSession w p.id
  handRow : ∀ h ∈ hs, ∀ pk, inHand h = some pk → ∃ r, w.sessions.get pk = some r ∧
    r.devinSessionId = none ∧ (r.status = .reserving ∨ r.status = .cancelled)
  alone : ∀ (i j : ℕ) (g h : Hist) (pk : ℕ), hs[i]? = some g → hs[j]? = some h → inHand g = some pk →
    inHand h = some pk → i = j

theorem mapStatus_ne_blocked (raw : String) : mapStatus raw ≠ .blocked := by
  unfold mapStatus
  split_ifs <;> decide

/-- What a poll writes leaves the id of the session alone, and no status is one of a handler. -/
theorem PollWrite.reports {row : SessionRow} {data : ApiSession} {stopped : Bool} {u : Update}
    (hu : PollWrite row (fromApiResponse data) stopped u) :
    u.devinSessionId = none ∧ ∀ s, u.status = some s → s ≠ .reserving ∧ s ≠ .blocked := by
  have hremote : (fromApiResponse data).status ≠ .reserving ∧
      (fromApiResponse data).status ≠ .blocked :=
    ⟨mapStatus_ne_reserving _, mapStatus_ne_blocked _⟩
  have hmirror : ∀ s, some (fromApiResponse data).status = some s → s ≠ .reserving ∧ s ≠ .blocked := by
    intro s hs
    rw [← Option.some.inj hs]
    exact hremote
  have hconst : ∀ s₀ s : Status, s₀ ≠ .reserving → s₀ ≠ .blocked → some s₀ = some s →
      s ≠ .reserving ∧ s ≠ .blocked := by
    intro s₀ s hr hb hs
    rw [← Option.some.inj hs]
    exact ⟨hr, hb⟩
  cases hu with
  | timedOut => exact ⟨rfl, fun s hs => hconst _ s (by decide) (by decide) hs⟩
  | unchanged => exact ⟨rfl, fun s hs => by cases hs⟩
  | merged => exact ⟨rfl, fun s hs => hconst _ s (by decide) (by decide) hs⟩
  | closed => exact ⟨rfl, fun s hs => hconst _ s (by decide) (by decide) hs⟩
  | ended => exact ⟨rfl, hmirror⟩
  | mirrored => exact ⟨rfl, hmirror⟩

/-- **What a permitted UPDATE is for.** -/
theorem Permits.unitWrite {u : Update} (hp : Permits S h (.update pk u))
    (hseen : ∀ pk r, seen pk h = some r → r.devinSessionId.isSome = true → HasSession w pk)
    (hchosen : ∀ prUrl p, chosen h = some (prUrl, p) → HasSession w p.id) :
    UnitWrite w h pk u := by
  cases hp with
  | quiet hop => cases hop
  | fail hh => exact UnitWrite.giveUp (inHand_of_held hh)
  | activate hj => exact UnitWrite.activate (inHand_of_justSpawned hj)
  | escalate _ hm _ _ =>
    refine UnitWrite.report (hchosen _ _ (chosen_of_counted hm)) rfl ?_
    intro s hs
    rw [← Option.some.inj hs]
    exact ⟨by decide, by decide⟩
  | cancelChild => exact UnitWrite.cancel
  | poll _ hs _ hx _ hu =>
    obtain ⟨hid, hst⟩ := hu.reports
    have hsome : HasSession w _ := hseen _ _ hs (by rw [hx]; rfl)
    exact UnitWrite.report hsome hid hst

/-! ## What is in hand -/

/-- An operation that writes nothing puts nothing in hand. -/
theorem Permits.inHand_of_cons (hp : Permits S h op) (hop : op.writes = false) {a : Ans op}
    (hh : inHand (⟨op, a⟩ :: h) = some pk) : inHand h = some pk := by
  cases hp with
  | quiet hq hj =>
    have hold : inHand h = (held h).map (·.pk) := by
      unfold inHand
      rw [hj]
    rw [hold]
    cases op with
    | tryReserve res => cases hop
    | update pk u => cases hop
    | createSession key req => cases hq
    | postPrComment pk repo n body => cases hq
    | _ => exact hh
  | @create hd req hh' _ _ =>
    rw [inHand_of_held hh']
    cases a with
    | ok created =>
      have hj : justSpawned (⟨.createSession hd.res.workKey req, .ok created⟩ :: h) =
          some (hd.pk, created) := by simp [justSpawned, hh']
      rwa [inHand_of_justSpawned hj] at hh
    | error exc =>
      have hheld : held (⟨.createSession hd.res.workKey req, .error exc⟩ :: h) =
          some { hd with called := true } := by simp [held, hh']
      rwa [inHand_of_held hheld] at hh
  | comment hi =>
    have hnone : held h = none := hi.1
    have hlast : inHand (⟨.postPrComment _ _ _ _, a⟩ :: h) = (held h).map (·.pk) := rfl
    rw [hlast, hnone] at hh
    cases hh
  | _ => cases hop

/-- Nothing is reserved while something is in hand. -/
theorem Permits.idle_of_tryReserve {res : Reservation} (hp : Permits S h (.tryReserve res)) :
    Idle h := by
  cases hp with
  | quiet hop => cases hop
  | reserveIssue hi => exact hi
  | reserveFix hi => exact hi

/-- What is in hand after an operation has been before, or has just been reserved. -/
theorem Permits.inHand_cons_cases (hp : Permits S h op)
    (hh : inHand (⟨op, (exec env op w).1⟩ :: h) = some pk) :
    (op.writes = false ∧ inHand h = some pk) ∨
      ∃ res t, op = .tryReserve res ∧ w.sessions.tryReserve res (w.tick env).now = some (pk, t) ∧
        (exec env op w).2.sessions = t := by
  rcases op.write_cases with hop | ⟨res, rfl⟩ | ⟨pk', u, rfl⟩
  · exact Or.inl ⟨hop, hp.inHand_of_cons hop hh⟩
  · rcases exec_tryReserve env w res with ⟨pk', t, ha, ht, hw⟩ | ⟨ha, -, -⟩
    · rw [ha] at hh
      have hpk : some pk' = some pk := hh
      rw [Option.some.inj hpk] at ht
      exact Or.inr ⟨res, t, rfl, ht, hw⟩
    · -- a refused reservation
      rw [ha] at hh
      have hlast : inHand (⟨.tryReserve res, none⟩ :: h) = (held h).map (·.pk) := rfl
      rw [hlast, hp.idle_of_tryReserve.1] at hh
      cases hh
  · cases hh

/-! ## One operation -/

section Step

variable {hs : List Hist} {i : ℕ}

theorem get_update_self (u : Update) {r : SessionRow} (hr : w.sessions.get pk = some r) :
    (exec env (.update pk u) w).2.sessions.get pk = some (u.apply r) := by
  rw [exec_update_sessions, Sessions.get_update, hr]
  simp

theorem get_update_other {pk' : ℕ} (u : Update) (hne : pk ≠ pk') :
    (exec env (.update pk' u) w).2.sessions.get pk = w.sessions.get pk := by
  rw [exec_update_sessions, Sessions.get_update]
  cases w.sessions.get pk with
  | none => rfl
  | some r => simp [hne]

/-- **A write takes its row one step on**, if anywhere. -/
theorem UnitWrite.phase {u : Update} (hu : UnitWrite w h pk u)
    (hhand : inHand h = some pk → ∃ r, w.sessions.get pk = some r ∧
      r.devinSessionId = none ∧ (r.status = .reserving ∨ r.status = .cancelled)) :
    ReflGen Phase.Step (w.phase pk) ((exec env (.update pk u) w).2.phase pk) := by
  cases hget : w.sessions.get pk with
  | none =>
    have hsame : (exec env (.update pk u) w).2.phase pk = w.phase pk := by
      refine World.phase_congr ?_
      rw [exec_update_sessions, Sessions.get_update, hget]
      rfl
    rw [hsame]
  | some r =>
    rw [World.phase_of_get hget, World.phase_of_get (get_update_self u hget)]
    have hunspawned : inHand h = some pk →
        r.devinSessionId = none ∧ (r.status = .reserving ∨ r.status = .cancelled) := by
      intro hh
      obtain ⟨r', hr', hx, hst⟩ := hhand hh
      rw [hget] at hr'
      cases hr'
      exact ⟨hx, hst⟩
    cases hu with
    | giveUp hh =>
      obtain ⟨hx, hst⟩ := hunspawned hh
      simp only [SessionRow.phase, Update.apply_devinSessionId, hx, Update.apply_status]
      exact ReflGen.single (Phase.Step.giveUp hst)
    | activate hh =>
      obtain ⟨hx, hst⟩ := hunspawned hh
      simp only [SessionRow.phase, Update.apply_devinSessionId, hx, Update.apply_status]
      exact ReflGen.single (Phase.Step.activate hst _)
    | cancel =>
      cases hx : r.devinSessionId with
      | none =>
        simp only [SessionRow.phase, Update.apply_devinSessionId, hx, Update.apply_status]
        exact ReflGen.single (Phase.Step.cancel _)
      | some x =>
        simp only [SessionRow.phase, Update.apply_devinSessionId, hx, Update.apply_status]
        have hr : Status.cancelled ≠ .reserving := by decide
        have hb : Status.cancelled ≠ .blocked := by decide
        exact ReflGen.single (Phase.Step.report x _ hr hb)
    | report hsess hid hst =>
      obtain ⟨r', hr', hsome⟩ := hsess
      rw [hget] at hr'
      cases hr'
      obtain ⟨x, hx⟩ := Option.isSome_iff_exists.1 hsome
      simp only [SessionRow.phase, Update.apply_devinSessionId, hx, hid, Option.none_or,
        Update.apply_status]
      cases hs : u.status with
      | none => exact ReflGen.refl
      | some s =>
        obtain ⟨hr, hb⟩ := hst s hs
        exact ReflGen.single (Phase.Step.report x _ hr hb)

/-- **Every permitted operation takes every row one step on**, if anywhere. -/
theorem phase_exec (hJ : InTouch w hs) (hm : h ∈ hs) (hp : Permits S h op) (pk : ℕ) :
    ReflGen Phase.Step (w.phase pk) ((exec env op w).2.phase pk) := by
  rcases op.write_cases with hop | ⟨res, rfl⟩ | ⟨pk', u, rfl⟩
  · have hsame : (exec env op w).2.phase pk = w.phase pk :=
      World.phase_congr (by rw [exec_sessions hop])
    rw [hsame]
  · rcases exec_tryReserve env w res with ⟨pk', t, -, ht, hw⟩ | ⟨-, -, hw⟩
    · have hget := Sessions.get_tryReserve ht pk
      rw [← hw] at hget
      by_cases hpk : pk = pk'
      · -- the new row; there was none under its key
        rw [if_pos hpk] at hget
        have habsent : w.sessions.get pk = none := by
          rw [hpk, (Sessions.tryReserve_eq_some ht).1, Table.get, List.find?_eq_none]
          intro r hr
          have := w.sessions.fresh r hr
          simp only [decide_eq_true_eq]
          omega
        have hnew : (exec env (.tryReserve res) w).2.phase pk = .unspawned .reserving :=
          World.phase_of_get hget
        have hold : w.phase pk = .absent := by rw [World.phase, habsent]
        rw [hold, hnew]
        exact ReflGen.single Phase.Step.reserve
      · rw [if_neg hpk] at hget
        rw [World.phase_congr hget]
    · have hsame : (exec env (.tryReserve res) w).2.phase pk = w.phase pk :=
        World.phase_congr (by rw [hw])
      rw [hsame]
  · by_cases hpk : pk = pk'
    · subst hpk
      exact (hp.unitWrite (hJ.seenRow h hm) (hJ.chosenRow h hm)).phase (hJ.handRow h hm pk)
    · rw [World.phase_congr (get_update_other u hpk)]

theorem HasSession.not_inHand (hJ : InTouch w hs) (hm : h ∈ hs) (hsess : HasSession w pk) :
    inHand h ≠ some pk := by
  intro hh
  obtain ⟨r, hr, hx, -⟩ := hJ.handRow h hm pk hh
  obtain ⟨r', hr', hsome⟩ := hsess
  rw [hr] at hr'
  cases hr'
  rw [hx] at hsome
  cases hsome

/-- A row in hand stays as its handler needs it, whatever another task does. -/
theorem handRow_other (hJ : InTouch w hs) {j : ℕ} {g : Hist} (hi : hs[i]? = some h)
    (hj : hs[j]? = some g) (hne : j ≠ i) (hp : Permits S h op) (hh : inHand g = some pk) :
    ∃ r, (exec env op w).2.sessions.get pk = some r ∧ r.devinSessionId = none ∧
      (r.status = .reserving ∨ r.status = .cancelled) := by
  have hm : h ∈ hs := List.mem_of_getElem? hi
  have hg : g ∈ hs := List.mem_of_getElem? hj
  obtain ⟨r, hr, hx, hst⟩ := hJ.handRow g hg pk hh
  rcases op.write_cases with hop | ⟨res, rfl⟩ | ⟨pk', u, rfl⟩
  · exact ⟨r, by rw [exec_sessions hop]; exact hr, hx, hst⟩
  · exact ⟨r, get_tryReserve res hr, hx, hst⟩
  · by_cases hpk : pk = pk'
    · subst hpk
      rcases hp.unitWrite (hJ.seenRow h hm) (hJ.chosenRow h hm) with hh' | hh' | _ | hsess
      · exact absurd (hJ.alone j i g h pk hj hi hh hh') hne
      · exact absurd (hJ.alone j i g h pk hj hi hh hh') hne
      · refine ⟨_, get_update_self _ hr, ?_, Or.inr rfl⟩
        rw [Update.apply_devinSessionId, hx]
        rfl
      · exact absurd hh (hsess.not_inHand hJ hg)
    · exact ⟨r, by rw [get_update_other u hpk]; exact hr, hx, hst⟩

/-- The row that a task has in hand after its own operation. -/
theorem handRow_own (hJ : InTouch w hs) (hm : h ∈ hs) (hp : Permits S h op)
    (hh : inHand (⟨op, (exec env op w).1⟩ :: h) = some pk) :
    ∃ r, (exec env op w).2.sessions.get pk = some r ∧ r.devinSessionId = none ∧
      (r.status = .reserving ∨ r.status = .cancelled) := by
  rcases hp.inHand_cons_cases hh with ⟨hop, hh⟩ | ⟨res, t, rfl, ht, hw⟩
  · rw [exec_sessions hop]
    exact hJ.handRow h hm pk hh
  · refine ⟨res.row (w.tick env).now pk, ?_, rfl, Or.inl rfl⟩
    rw [hw, Sessions.get_tryReserve ht, if_pos rfl]

/-- A row is put into no more than one pair of hands. -/
theorem alone_step (hJ : InTouch w hs) (hi : hs[i]? = some h) (hp : Permits S h op) {j : ℕ}
    {g : Hist} (hj : hs[j]? = some g) (hh : inHand g = some pk)
    (hnew : inHand (⟨op, (exec env op w).1⟩ :: h) = some pk) : j = i := by
  rcases hp.inHand_cons_cases hnew with ⟨-, hold⟩ | ⟨res, t, -, ht, -⟩
  · exact hJ.alone j i g h pk hj hi hh hold
  · -- the key of a new row is nobody's yet
    obtain ⟨r, hr, -⟩ := hJ.handRow g (List.mem_of_getElem? hj) pk hh
    obtain ⟨hmem, hid⟩ := w.sessions.get_eq_some.1 hr
    have hlt := w.sessions.fresh r hmem
    have hpk : pk = w.sessions.next := (Sessions.tryReserve_eq_some ht).1
    omega

theorem pr_step (hJ : InTouch w hs) (hm : h ∈ hs) (hp : Permits S h op) :
    ∀ r ∈ (exec env op w).2.sessions.rows, r.prUrl.isSome = true →
      r.devinSessionId.isSome = true := by
  intro r hr hpr
  rcases mem_exec hr with ⟨hr, -⟩ | ⟨res, -, rfl, -⟩ | ⟨r', hr', u, rfl, rfl⟩
  · exact hJ.pr r hr hpr
  · cases hpr
  · rw [Update.apply_devinSessionId, Option.isSome_or]
    have hold : r'.prUrl.isSome = true → (u.devinSessionId.isSome || r'.devinSessionId.isSome) = true :=
      fun h => by rw [hJ.pr r' hr' h, Bool.or_true]
    rcases hp.unitWrite (hJ.seenRow h hm) (hJ.chosenRow h hm) with _ | _ | _ | hsess
    · exact hold hpr
    · rfl
    · exact hold hpr
    · rw [hsess.of_mem hr', Bool.or_true]

theorem inTouch_step (hJ : InTouch w hs) (hi : hs[i]? = some h) (hp : Permits S h op) :
    InTouch (exec env op w).2 (hs.set i (⟨op, (exec env op w).1⟩ :: h)) := by
  have hm : h ∈ hs := List.mem_of_getElem? hi
  refine ⟨pr_step hJ hm hp, ?_, ?_, ?_, ?_⟩
  · intro g hg pk r hr hx
    rcases List.mem_or_eq_of_mem_set hg with hg | rfl
    · exact (hJ.seenRow g hg pk r hr hx).exec env op
    rcases seen_exec hr with ⟨hmem, rfl⟩ | hold
    · exact HasSession.exec ⟨r, w.sessions.get_eq_some.2 ⟨hmem, rfl⟩, hx⟩ env op
    · exact (hJ.seenRow h hm pk r hold hx).exec env op
  · intro g hg prUrl p hc
    rcases List.mem_or_eq_of_mem_set hg with hg | rfl
    · exact (hJ.chosenRow g hg prUrl p hc).exec env op
    rcases chosen_exec hc with ⟨hr, hu⟩ | hold
    · have hx := hJ.pr p hr (by rw [hu]; rfl)
      exact HasSession.exec ⟨p, w.sessions.get_eq_some.2 ⟨hr, rfl⟩, hx⟩ env op
    · exact (hJ.chosenRow h hm prUrl p hold).exec env op
  · intro g hg pk hh
    obtain ⟨j, hj⟩ := List.mem_iff_getElem?.1 hg
    rcases getElem?_set_cases hj with ⟨-, rfl⟩ | ⟨hne, hj⟩
    · exact handRow_own hJ hm hp hh
    · exact handRow_other hJ hi hj hne hp hh
  · intro j k f g pk hj hk hf hg
    rcases getElem?_set_cases hj with ⟨hji, rfl⟩ | ⟨-, hj⟩
    · rcases getElem?_set_cases hk with ⟨hki, -⟩ | ⟨-, hk⟩
      · rw [hji, hki]
      · rw [hji, alone_step hJ hi hp hk hg hf]
    · rcases getElem?_set_cases hk with ⟨hki, rfl⟩ | ⟨-, hk⟩
      · rw [hki, alone_step hJ hi hp hj hf hg]
      · exact hJ.alone j k f g pk hj hk hf hg

end Step

/-! ## Runs -/

theorem InTouch.initial (now : Time) : InTouch (World.initial now) [] where
  pr r hr := by cases hr
  seenRow h hh := by cases hh
  chosenRow h hh := by cases hh
  handRow h hh := by cases hh
  alone i j g h pk hg := by cases hg

/-- A new task has read nothing and has nothing in hand. -/
theorem InTouch.spawn {hs : List Hist} (hJ : InTouch w hs) : InTouch w (hs ++ [[]]) := by
  have hcases : ∀ h ∈ hs ++ [[]], h ∈ hs ∨ h = [] := by
    intro h hh
    simpa using hh
  refine ⟨hJ.pr, fun h hh => ?_, fun h hh => ?_, fun h hh => ?_, ?_⟩
  · rcases hcases h hh with hh | rfl
    · exact hJ.seenRow h hh
    · intro _ _ hr
      cases hr
  · rcases hcases h hh with hh | rfl
    · exact hJ.chosenRow h hh
    · intro _ _ hc
      cases hc
  · rcases hcases h hh with hh | rfl
    · exact hJ.handRow h hh
    · intro _ hh
      cases hh
  · have hold : ∀ (j : ℕ) (g : Hist) (pk : ℕ), (hs ++ [[]])[j]? = some g → inHand g = some pk →
        hs[j]? = some g := by
      intro j g pk hj hg
      rw [List.getElem?_append] at hj
      split at hj
      · exact hj
      · obtain rfl := List.mem_singleton.1 (List.mem_of_getElem? hj)
        cases hg
    intro j k f g pk hj hk hf hg
    exact hJ.alone j k f g pk (hold j f pk hj hf) (hold k g pk hk hg) hf hg

/-- A restart changes work keys only, and nobody is left. -/
theorem InTouch.boot {hs : List Hist} (hJ : InTouch w hs) (n : ℕ) : InTouch (w.boot n) [] where
  pr r hr hpr := by
    obtain ⟨r', hr', -, -, hx, hu⟩ := mem_boot hr
    rw [← hx]
    exact hJ.pr r' hr' (by rw [hu]; exact hpr)
  seenRow h hh := by cases hh
  chosenRow h hh := by cases hh
  handRow h hh := by cases hh
  alone i j g h pk hg := by cases hg

/-- What a lookup finds of the columns that a restart leaves alone. -/
theorem get_boot_map {β : Type} (g : SessionRow → β) (hg : ∀ k r, g (r.setWorkKey k) = g r) (n : ℕ)
    (w : World) (pk : ℕ) :
    ((w.boot n).sessions.get pk).map g = (w.sessions.get pk).map g := by
  have hmap := map_backfillMissingWorkKeys (fun r => (r.id, g r))
    (fun k r => by simp only [hg]; rfl) n w.sessions
  have hfind : ∀ l : List SessionRow, (l.find? fun r => decide (r.id = pk)).map g =
      ((l.map fun r => (r.id, g r)).find? fun p => decide (p.1 = pk)).map (·.2) := by
    intro l
    rw [List.find?_map, Option.map_map]
    rfl
  rw [Table.get, hfind, Table.get, hfind, ← hmap]
  rfl

theorem phase_boot (w : World) (n pk : ℕ) : (w.boot n).phase pk = w.phase pk := by
  have hget := get_boot_map SessionRow.phase (fun _ _ => rfl) n w pk
  unfold World.phase
  cases hb : (w.boot n).sessions.get pk with
  | none =>
    rw [hb] at hget
    rw [Option.map_eq_none_iff.1 hget.symm]
  | some r =>
    rw [hb] at hget
    obtain ⟨r', hr', he⟩ := Option.map_eq_some_iff.1 hget.symm
    rw [hr']
    exact he.symm

/-- **The service refines the life of each unit.** -/
theorem service_refines (env : Outside) (S : Settings) (pk : ℕ) :
    (service env S).Refines (World.phase pk) Phase.Step fun c =>
      InTouch c.world c.hists ∧ System.KeepsAll (contract S) Settled c :=
  System.refines_of_exec InTouch keeps_task (fun _ _ hJ => hJ.spawn)
    (fun _ _ n hJ => hJ.boot n) (fun w _ _ op _ _ _ => exec_honest env op w)
    (fun _ _ _ _ _ hJ hi hp => inTouch_step hJ hi hp)
    (fun _ _ _ _ hJ hm hp => phase_exec hJ hm hp pk) fun w _ n _ => phase_boot w n pk

/-- It holds at the start, and so in every state that is reached. -/
theorem inTouch_run (env : Outside) (S : Settings) (now : Time) (acts : List (Act Task ℕ)) :
    let c := (service env S).run ⟨.initial now, []⟩ acts
    InTouch c.world c.hists ∧ System.KeepsAll (contract S) Settled c :=
  (service_refines env S 0).run_keeps acts ⟨InTouch.initial now, fun t ht => by cases ht⟩

/-- **The life of a row.** From the empty database, in every interleaving of tasks with crashes and
restarts: every row comes to where it is along a path of `Phase.Step`, and goes on along one. So no
row is lost or reserved again, and one that has a session keeps it. -/
theorem life_cycle (now : Time) (acts acts' : List (Act Task ℕ)) (pk : ℕ) :
    let c := (service env S).run ⟨.initial now, []⟩ acts
    let p := c.world.phase pk
    let q := ((service env S).run c acts').world.phase pk
    ReflTransGen Phase.Step .absent p ∧ ReflTransGen Phase.Step p q ∧
      (p ≠ .absent → q ≠ .absent ∧ (q = .unspawned .reserving → p = .unspawned .reserving)) ∧
      ∀ x s, p = .spawned x s → ∃ s', q = .spawned x s' := by
  intro c p q
  have hstart : ReflTransGen Phase.Step .absent p :=
    (service_refines env S pk).run acts (inTouch_run env S now [])
  have hgo : ReflTransGen Phase.Step p q :=
    (service_refines env S pk).run acts' (inTouch_run env S now acts)
  refine ⟨hstart, hgo, Phase.ne_of_path hgo, ?_⟩
  intro x s hp
  rw [hp] at hgo
  exact Phase.spawned_of_path hgo

theorem legal_run (env : Outside) (S : Settings) (now : Time) (acts : List (Act Task ℕ)) (pk : ℕ) :
    (((service env S).run ⟨.initial now, []⟩ acts).world.phase pk).Legal :=
  Phase.legal_of_path ((service_refines env S pk).run acts (inTouch_run env S now [])) trivial

/-! ## The columns of a session -/

/-- The row as far as only a session fills it. -/
structure SessionRow.Unreported (r : SessionRow) : Prop where
  devinUrl : r.devinUrl = none
  promptSnapshot : r.promptSnapshot = none
  rawStatus : r.rawStatus = none
  prUrl : r.prUrl = none
  prUrlsJson : r.prUrlsJson = none
  acusConsumed : r.acusConsumed = 0
  lastPolledAt : r.lastPolledAt = none
  structuredOutputJson : r.structuredOutputJson = none

/-- A row with a session has its address and its prompt. A row without one has none of what a
session reports, and is as it was reserved or says why not. -/
structure SessionRow.Columns (r : SessionRow) : Prop where
  spawned : r.devinSessionId.isSome = true → r.devinUrl.isSome = true ∧
    r.promptSnapshot.isSome = true ∧ r.status ≠ .reserving ∧ r.status ≠ .blocked
  unspawned : r.devinSessionId = none → r.Unreported ∧
    (r.status = .reserving ∨ r.status = .failed ∨ r.status = .cancelled)
  reserving : r.status = .reserving → r.errorMessage = none ∧ r.completedAt = none
  reason : r.devinSessionId = none → r.status ≠ .reserving → r.errorMessage.isSome = true

theorem columns_row (res : Reservation) (t : Time) (pk : ℕ) : (res.row t pk).Columns where
  spawned h := by cases h
  unspawned _ := ⟨⟨rfl, rfl, rfl, rfl, rfl, rfl, rfl, rfl⟩, Or.inl rfl⟩
  reserving _ := ⟨rfl, rfl⟩
  reason _ h := absurd rfl h

/-- The four kinds of writes keep the columns together. -/
theorem UnitWrite.columns {u : Update} {r : SessionRow} (hu : UnitWrite w h r.id u)
    (hr : r ∈ w.sessions.rows) (hc : r.Columns) : (u.apply r).Columns := by
  cases hu with
  | giveUp hh =>
    refine ⟨?_, ?_, ?_, ?_⟩
    · intro hx
      obtain ⟨hurl, hprompt, -⟩ := hc.spawned hx
      exact ⟨hurl, hprompt, by simp, by simp⟩
    · intro hx
      obtain ⟨⟨h1, h2, h3, h4, h5, h6, h7, h8⟩, -⟩ := hc.unspawned hx
      exact ⟨⟨h1, h2, h3, h4, h5, h6, h7, h8⟩, Or.inr (Or.inl rfl)⟩
    · intro hst
      cases hst
    · intro _ _
      rfl
  | activate hh =>
    refine ⟨fun _ => ⟨rfl, rfl, by simp, by simp⟩, ?_, ?_, ?_⟩
    · intro hx
      cases hx
    · intro hst
      cases hst
    · intro hx
      cases hx
  | cancel =>
    refine ⟨?_, ?_, ?_, ?_⟩
    · intro hx
      obtain ⟨hurl, hprompt, -⟩ := hc.spawned hx
      exact ⟨hurl, hprompt, by simp, by simp⟩
    · intro hx
      obtain ⟨⟨h1, h2, h3, h4, h5, h6, h7, h8⟩, -⟩ := hc.unspawned hx
      exact ⟨⟨h1, h2, h3, h4, h5, h6, h7, h8⟩, Or.inr (Or.inr rfl)⟩
    · intro hst
      cases hst
    · intro _ _
      rfl
  | report hs hid hst =>
    have hsome := hs.of_mem hr
    obtain ⟨hurl, hprompt, hnr, hnb⟩ := hc.spawned hsome
    have hnone : (u.apply r).devinSessionId ≠ none := by
      rw [Update.apply_devinSessionId, hid, Option.none_or]
      exact Option.isSome_iff_ne_none.1 hsome
    -- the status is one that may be reported, or the one it had
    have hstatus : (u.apply r).status ≠ .reserving ∧ (u.apply r).status ≠ .blocked := by
      rw [Update.apply_status]
      cases hs' : u.status with
      | none => exact ⟨hnr, hnb⟩
      | some s => exact hst s hs'
    refine ⟨fun _ => ⟨?_, ?_, hstatus.1, hstatus.2⟩, ?_, ?_, ?_⟩
    · simp [Update.apply, Option.isSome_or, hurl]
    · simp [Update.apply, Option.isSome_or, hprompt]
    · intro hx
      exact absurd hx hnone
    · intro hres
      exact absurd hres hstatus.1
    · intro hx
      exact absurd hx hnone

theorem columns_exec {hs : List Hist} (hJ : InTouch w hs) (hm : h ∈ hs) (hp : Permits S h op)
    (hc : ∀ r ∈ w.sessions.rows, r.Columns) : ∀ r ∈ (exec env op w).2.sessions.rows, r.Columns := by
  intro r hr
  rcases mem_exec hr with ⟨hr, -⟩ | ⟨res, -, rfl, -⟩ | ⟨r', hr', u, rfl, rfl⟩
  · exact hc r hr
  · exact columns_row res _ _
  · exact (hp.unitWrite (hJ.seenRow h hm) (hJ.chosenRow h hm)).columns hr' (hc r' hr')

/-- **All of a session or nothing of it.** From the empty database, in every state that any
interleaving of tasks with crashes and restarts leads to, the columns of each row fit together. -/
theorem session_columns (now : Time) (acts : List (Act Task ℕ)) :
    ∀ r ∈ ((service env S).run ⟨.initial now, []⟩ acts).world.sessions.rows, r.Columns := by
  have hend := System.run_inv (S := service env S) (C := contract S) (Q := Settled)
    (R := fun _ _ _ _ => True) (c := ⟨.initial now, []⟩)
    (fun w hs => InTouch w hs ∧ ∀ r ∈ w.sessions.rows, r.Columns) keeps_task
    (fun _ _ hJ => ⟨hJ.1.spawn, hJ.2⟩) ?_ (fun w _ _ op _ _ _ => exec_honest env op w)
    ?_ acts ⟨InTouch.initial now, fun r hr => by cases hr⟩ (fun t ht => by cases ht)
    (System.runOK_true _ acts)
  · exact hend.1.2
  · rintro w hs n ⟨hJ, hc⟩
    refine ⟨hJ.boot n, fun r hr => ?_⟩
    -- a row before the restart, but for its work key
    have hmap := map_backfillMissingWorkKeys (SessionRow.setWorkKey "") (fun _ _ => rfl) n w.sessions
    obtain ⟨r', hr', he⟩ := List.mem_map.1 (hmap ▸ List.mem_map_of_mem (f := SessionRow.setWorkKey "") hr)
    have hsame : r = r'.setWorkKey r.workKey := by
      cases r
      cases r'
      simp only [SessionRow.setWorkKey, SessionRow.mk.injEq] at he ⊢
      simp_all
    obtain ⟨h1, h2, h3, h4⟩ := hc r' hr'
    rw [hsame]
    exact ⟨h1, fun hx => ⟨⟨(h2 hx).1.1, (h2 hx).1.2, (h2 hx).1.3, (h2 hx).1.4, (h2 hx).1.5,
      (h2 hx).1.6, (h2 hx).1.7, (h2 hx).1.8⟩, (h2 hx).2⟩, h3, h4⟩
  · rintro w hs i h op ⟨hJ, hc⟩ hi hp -
    exact ⟨inTouch_step hJ hi hp, columns_exec hJ (List.mem_of_getElem? hi) hp hc⟩

/-- A handler that has counted and reserved. -/
def reserving : List (Act Task ℕ) :=
  .spawn (.securityIssue (.sample 1)) :: List.replicate 3 (.run 0)

theorem columns_of_reserving :
    ∃ r ∈ ((service .calm {}).run ⟨.initial 0, []⟩ reserving).world.sessions.rows,
      r.status = .reserving ∧ r.promptSnapshot = none ∧ r.errorMessage = none := by
  have hrow : ∃ r ∈ ((service .calm {}).run ⟨.initial 0, []⟩ reserving).world.sessions.rows,
      r.devinSessionId = none ∧ r.status = .reserving := by decide
  obtain ⟨r, hr, hx, hst⟩ := hrow
  have hc : r.Columns := session_columns 0 reserving r hr
  exact ⟨r, hr, hst, (hc.unspawned hx).1.promptSnapshot, (hc.reserving hst).1⟩

end Remediation
