import Mathlib.Data.List.Induction
import Mathlib.Data.List.Infix
import Remediation.Proof.Effects
import Remediation.Spec.Webhook

/-!
# Accepted deliveries and crashes

A delivery is put on record, answered, and dispatched by a background task, in that order;
whether it is a duplicate is read off the record. A delivery that has never been dispatched
is therefore the business of a live task exactly as long as no crash comes before the
dispatch is done (`deliveries_kept_iff`); `crash_loses_delivery` is such a crash.
-/

namespace Remediation

open Interaction Prog

/-! ## Where a delivery is -/

/-- The delivery that the task has put on record as new. -/
def accepted : Hist → Option String
  | [] => none
  | ⟨.record deliveryId _ _ _, true⟩ :: _ => some deliveryId
  | _ :: h => accepted h

/-- The delivery whose result the task stores next. -/
def storing (t : Thread Ans Unit) : Option String :=
  match t.prog with
  | .call (.markProcessed deliveryId _) _ => some deliveryId
  | _ => none

/-- A live background task is at work on the delivery. -/
def HeldByTask (c : Config Ans Unit World) (deliveryId : String) : Prop :=
  ∃ t ∈ c.threads, t.running = true ∧ accepted t.hist = some deliveryId

/-- A dispatch of the delivery has been completed: some task has come to store its result. -/
def Dispatched (D : System Ans Unit World Job ℕ) (c : Config Ans Unit World)
    (acts : List (Act Job ℕ)) (deliveryId : String) : Prop :=
  ∃ before ∈ acts.inits, ∃ t ∈ (D.run c before).threads, storing t = some deliveryId

def InQueue (w : World) (deliveryId : String) : Prop :=
  ∃ e ∈ w.events.queued, e.deliveryId = deliveryId

/-- Delivered again, it would be taken for new. -/
def Redeliverable (env : Outside) (w : World) (deliveryId : String) : Prop :=
  ∀ eventType action payload, (exec env (.record deliveryId eventType action payload) w).1 = true

/-- After `acts`, every recorded delivery has been dispatched, or will be. -/
def DeliveriesKept (env : Outside) (S : Settings) (w : World) (acts : List (Act Job ℕ)) : Prop :=
  let c := (deployment env S).run ⟨w, []⟩ acts
  ∀ e ∈ c.world.events.rows, Dispatched (deployment env S) ⟨w, []⟩ acts e.deliveryId ∨
    HeldByTask c e.deliveryId ∨ InQueue c.world e.deliveryId ∨
    Redeliverable env c.world e.deliveryId

/-- A crash comes only when every delivery that a live task holds has been dispatched. -/
def CrashesLate (env : Outside) (S : Settings) (w : World) (acts : List (Act Job ℕ)) : Prop :=
  ∀ before n, before ++ [.crash n] <+: acts →
    ∀ deliveryId, HeldByTask ((deployment env S).run ⟨w, []⟩ before) deliveryId →
      Dispatched (deployment env S) ⟨w, []⟩ before deliveryId

instance (c : Config Ans Unit World) (deliveryId : String) : Decidable (HeldByTask c deliveryId) :=
  inferInstanceAs (Decidable (∃ t ∈ c.threads, t.running = true ∧ accepted t.hist = some deliveryId))

instance (D : System Ans Unit World Job ℕ) (c : Config Ans Unit World) (acts : List (Act Job ℕ))
    (deliveryId : String) : Decidable (Dispatched D c acts deliveryId) :=
  inferInstanceAs (Decidable (∃ before ∈ acts.inits, ∃ t ∈ (D.run c before).threads,
    storing t = some deliveryId))

instance (w : World) (deliveryId : String) : Decidable (InQueue w deliveryId) :=
  inferInstanceAs (Decidable (∃ e ∈ w.events.queued, e.deliveryId = deliveryId))

variable {env : Outside} {S : Settings} {w : World} {h : Hist} {acts : List (Act Job ℕ)}
  {c : Config Ans Unit World} {d : String}

theorem Dispatched.mono {D : System Ans Unit World Job ℕ} {before : List (Act Job ℕ)}
    (hd : Dispatched D c before d) (hb : before <+: acts) : Dispatched D c acts d := by
  obtain ⟨b, hbefore, ht⟩ := hd
  exact ⟨b, (List.mem_inits _ _).2 (((List.mem_inits _ _).1 hbefore).trans hb), ht⟩

theorem Dispatched.snoc {D : System Ans Unit World Job ℕ} (hd : Dispatched D c acts d)
    (a : Act Job ℕ) : Dispatched D c (acts ++ [a]) d := hd.mono (List.prefix_append _ _)

/-- Who is about to store a result has done the dispatch. -/
theorem dispatched_of_storing {D : System Ans Unit World Job ℕ} {t : Thread Ans Unit}
    (ht : t ∈ (D.run c acts).threads) (hs : storing t = some d) : Dispatched D c acts d :=
  ⟨acts, (List.mem_inits _ _).2 List.prefix_rfl, t, ht, hs⟩

/-! ## What a job does -/

/-- What is left to do ends with storing the result of the delivery. -/
def EndsIn (d : String) (p : M Unit) : Prop :=
  ∃ (q : M (Except Exc Outcome)), p = q.bind fun r => .call (.markProcessed d (resultText r)) .ret

theorem EndsIn.running {t : Thread Ans Unit} (hp : EndsIn d t.prog) : t.running = true := by
  obtain ⟨q, hq⟩ := hp
  unfold Thread.running
  rw [hq]
  cases q <;> rfl

/-- Its next operation is either that, or leaves it to the rest. -/
theorem EndsIn.next {op : Op} {k : Ans op → M Unit} (hp : EndsIn d (.call op k)) :
    (∃ r, op = .markProcessed d r) ∨ ∀ a, EndsIn d (k a) := by
  obtain ⟨q, hq⟩ := hp
  cases q with
  | ret r =>
    simp only [ret_bind, Prog.call.injEq] at hq
    exact Or.inl ⟨_, hq.1⟩
  | call op' k' =>
    simp only [call_bind, Prog.call.injEq] at hq
    obtain ⟨rfl, hk⟩ := hq
    rw [eq_of_heq hk]
    exact Or.inr fun a => ⟨k' a, rfl⟩

theorem endsIn_process (S : Settings) (d eventType : String) (action : Option String)
    (payload : Payload) : EndsIn d (process S d eventType action payload) :=
  ⟨dispatch S eventType action payload, rfl⟩

theorem keeps_job (job : Job) : (job.prog S).Keeps (contract S) Settled [] := by
  cases job with
  | webhook d eventType action payload =>
    refine ⟨.quiet rfl rfl rfl, ?_⟩
    intro isNew _
    have hi := idle_nil.cons (.record d eventType action payload) rfl isNew
    cases isNew with
    | true => exact keeps_process hi d eventType action payload
    | false => exact hi
  | tick => exact keeps_discard (keeps_pollOnce idle_nil)

/-- A delivery is put on record by nobody but its own job, as the first thing that it does. -/
theorem endsIn_of_recorded {job : Job} {eventType : String} {action : Option String}
    {payload : Payload} {k : Bool → M Unit}
    (hp : job.prog S = .call (.record d eventType action payload) k) : EndsIn d (k true) := by
  cases job with
  | webhook d' eventType' action' payload' =>
    unfold Job.prog githubWebhook receive at hp
    simp only [perform, bind_eq, call_bind, ret_bind, Prog.call.injEq, Op.record.injEq] at hp
    obtain ⟨⟨rfl, -⟩, hk⟩ := hp
    rw [← eq_of_heq hk]
    exact endsIn_process S _ _ _ _
  | tick =>
    unfold Job.prog discard pollOnce drainQueue at hp
    simp only [perform, bind_eq, call_bind, Prog.call.injEq, reduceCtorEq, false_and] at hp

/-! ## What an operation does to the log -/

/-- What an operation leaves in the log was there before, with the result that it had or one
that this operation stores, or is what it has just recorded. -/
theorem events_exec {op : Op} {e' : WebhookEvent} (he : e' ∈ (exec env op w).2.events.rows) :
    (∃ e ∈ w.events.rows, e.deliveryId = e'.deliveryId ∧
      (e.handlerResult = e'.handlerResult ∨ ∃ r, op = .markProcessed e'.deliveryId r)) ∨
    (e'.handlerResult = none ∧ accepted (⟨op, (exec env op w).1⟩ :: h) = some e'.deliveryId) := by
  cases op with
  | record d eventType action payload =>
    rcases exec_record env w d eventType action payload with ⟨ha, hrows, -⟩ | ⟨-, hev, -⟩
    · rw [hrows, List.mem_append, List.mem_singleton] at he
      rcases he with he | rfl
      · exact Or.inl ⟨e', he, rfl, Or.inl rfl⟩
      · rw [ha]
        exact Or.inr ⟨rfl, rfl⟩
    · rw [hev] at he
      exact Or.inl ⟨e', he, rfl, Or.inl rfl⟩
  | markProcessed d result =>
    rcases mem_markProcessed he with ⟨he, -⟩ | ⟨e, hold, rfl, rfl⟩
    · exact Or.inl ⟨e', he, rfl, Or.inl rfl⟩
    · exact Or.inl ⟨e, hold, rfl, Or.inr ⟨result, rfl⟩⟩
  | _ =>
    rw [exec_events rfl] at he
    exact Or.inl ⟨e', he, rfl, Or.inl rfl⟩

/-- No delivery leaves the log. -/
theorem recorded_exec (env : Outside) (op : Op) (hd : ∃ e ∈ w.events.rows, e.deliveryId = d) :
    ∃ e ∈ (exec env op w).2.events.rows, e.deliveryId = d := by
  obtain ⟨e, he, hd⟩ := hd
  cases op with
  | record d' eventType action payload =>
    rcases exec_record env w d' eventType action payload with ⟨-, hrows, -⟩ | ⟨-, hev, -⟩
    · exact ⟨e, by rw [hrows]; exact List.mem_append_left _ he, hd⟩
    · exact ⟨e, by rw [hev]; exact he, hd⟩
  | markProcessed d' result =>
    simp only [exec, World.answer, WebhookEvents.markProcessed]
    split
    · exact ⟨e, he, hd⟩
    · rename_i e' hf
      by_cases hid : e.rowid = e'.rowid
      · exact ⟨_, Table.mem_update.2 (Or.inr ⟨e, he, hid, rfl⟩), hd⟩
      · exact ⟨e, Table.mem_update.2 (Or.inl ⟨he, hid⟩), hd⟩
  | _ => exact ⟨e, by rw [exec_events rfl]; exact he, hd⟩

/-- A task accepts a delivery by recording it. -/
theorem accepted_cons {op : Op} {a : Ans op} (ha : accepted (⟨op, a⟩ :: h) = some d) :
    accepted h = some d ∨ ∃ eventType action payload,
      (⟨op, a⟩ : Entry Ans) = ⟨.record d eventType action payload, true⟩ := by
  cases op with
  | record d' eventType action payload =>
    cases a with
    | true =>
      cases ha
      exact Or.inr ⟨_, _, _, rfl⟩
    | false => exact Or.inl ha
  | _ => exact Or.inl ha

/-- A delivery on record is a duplicate when it comes again. -/
theorem not_redeliverable (hd : ∃ e ∈ w.events.rows, e.deliveryId = d) :
    ¬Redeliverable env w d := by
  intro hnew
  have hdup := hnew "" none {}
  rcases exec_record env w d "" none {} with ⟨-, -, hno⟩ | ⟨hf, -, -⟩
  · exact hno (List.mem_map.2 hd)
  · rw [hf] at hdup
    cases hdup

/-- What has just been accepted is on record. -/
theorem recorded_of_accepted {op : Op}
    (ha : accepted (⟨op, (exec env op w).1⟩ :: h) = some d) :
    accepted h = some d ∨ ∃ e ∈ (exec env op w).2.events.rows, e.deliveryId = d := by
  cases op with
  | record d' eventType action payload =>
    rcases exec_record env w d' eventType action payload with ⟨ht, hrows, -⟩ | ⟨hf, -, -⟩
    · rw [ht] at ha
      cases ha
      rw [hrows]
      exact Or.inr ⟨_, List.mem_append_right _ List.mem_cons_self, rfl⟩
    · rw [hf] at ha
      exact Or.inl ha
  | _ => exact Or.inl ha

/-- After one more operation the task still has the delivery's result to store, unless it has
just come to do so. -/
theorem endsIn_step {op : Op} {a : Ans op} {k : Ans op → M Unit}
    (hp : Permits S h op) (hfresh : h = [] → ∃ job : Job, job.prog S = .call op k)
    (hrest : accepted h = some d → EndsIn d (.call op k))
    (ha : accepted (⟨op, a⟩ :: h) = some d) :
    EndsIn d (k a) ∨ ∃ r, op = .markProcessed d r := by
  rcases accepted_cons ha with hold | ⟨eventType, action, payload, he⟩
  · rcases (hrest hold).next with hmark | hk
    · exact Or.inr hmark
    · exact Or.inl (hk a)
  · cases he
    cases hp with
    | quiet _ _ hg =>
      -- a delivery is recorded before anything else
      obtain ⟨job, hjob⟩ := hfresh hg
      exact Or.inl (endsIn_of_recorded hjob)

/-! ## Runs -/

/-- What holds after any acts: what a live task has accepted is on record, a task that has
accepted a delivery ends in storing its result, and results are stored after a dispatch. -/
structure Tracked (env : Outside) (S : Settings) (w : World) (acts : List (Act Job ℕ)) : Prop where
  keeps : System.KeepsAll (contract S) Settled ((deployment env S).run ⟨w, []⟩ acts)
  fresh : ∀ t ∈ ((deployment env S).run ⟨w, []⟩ acts).threads, t.hist = [] →
    ∃ job : Job, job.prog S = t.prog
  recorded : ∀ t ∈ ((deployment env S).run ⟨w, []⟩ acts).threads, ∀ d, accepted t.hist = some d →
    ∃ e ∈ ((deployment env S).run ⟨w, []⟩ acts).world.events.rows, e.deliveryId = d
  rest : ∀ t ∈ ((deployment env S).run ⟨w, []⟩ acts).threads, ∀ d, accepted t.hist = some d →
    EndsIn d t.prog ∨ Dispatched (deployment env S) ⟨w, []⟩ acts d
  results : ∀ e ∈ ((deployment env S).run ⟨w, []⟩ acts).world.events.rows,
    e.handlerResult.isSome = true → Dispatched (deployment env S) ⟨w, []⟩ acts e.deliveryId

theorem tracked_nil (hw : w.events.rows = []) : Tracked env S w [] where
  keeps t ht := by cases ht
  fresh t ht := by cases ht
  recorded t ht := by cases ht
  rest t ht := by cases ht
  results e he := by
    have he : e ∈ w.events.rows := he
    rw [hw] at he
    cases he

/-- The configuration after one more operation. -/
theorem run_call {i : ℕ} {op : Op} {k : Ans op → M Unit}
    (hi : ((deployment env S).run ⟨w, []⟩ acts).threads[i]? = some ⟨h, .call op k⟩) :
    (deployment env S).run ⟨w, []⟩ (acts ++ [.run i]) =
      let c := (deployment env S).run ⟨w, []⟩ acts
      { world := (exec env op c.world).2
        threads := c.threads.set i
          ⟨⟨op, (exec env op c.world).1⟩ :: h, k (exec env op c.world).1⟩ } := by
  rw [System.run_snoc]
  simp only [System.step, hi]
  rfl

/-- A task that is not there, or has returned, does nothing. -/
theorem run_of_idle {i : ℕ} (hi : ¬∃ h op k,
    ((deployment env S).run ⟨w, []⟩ acts).threads[i]? = some ⟨h, .call op k⟩) :
    (deployment env S).run ⟨w, []⟩ (acts ++ [.run i]) = (deployment env S).run ⟨w, []⟩ acts := by
  rw [System.run_snoc]
  dsimp only [System.step]
  split
  · rename_i h op k hi'
    exact absurd ⟨h, op, k, hi'⟩ hi
  · rfl

theorem tracked_call (hT : Tracked env S w acts) {i : ℕ} {op : Op} {k : Ans op → M Unit}
    (hi : ((deployment env S).run ⟨w, []⟩ acts).threads[i]? = some ⟨h, .call op k⟩) :
    Tracked env S w (acts ++ [.run i]) := by
  have hrun := run_call hi
  have hmem := List.mem_of_getElem? hi
  obtain ⟨hpre, hk⟩ := hT.keeps _ hmem
  -- whoever stores a result has come to it by a dispatch
  have hmark : ∀ d r, op = .markProcessed d r →
      Dispatched (deployment env S) ⟨w, []⟩ (acts ++ [.run i]) d := by
    rintro d r rfl
    exact (dispatched_of_storing hmem rfl).snoc _
  refine ⟨?_, ?_, ?_, ?_, ?_⟩ <;> rw [hrun] <;> dsimp only
  · intro t ht
    rcases List.mem_or_eq_of_mem_set ht with ht | rfl
    · exact hT.keeps t ht
    · exact hk _ (exec_honest env op _)
  · intro t ht hh
    rcases List.mem_or_eq_of_mem_set ht with ht | rfl
    · exact hT.fresh t ht hh
    · cases hh
  · intro t ht d ha
    rcases List.mem_or_eq_of_mem_set ht with ht | rfl
    · exact recorded_exec env op (hT.recorded t ht d ha)
    · rcases recorded_of_accepted ha with ha | hrec
      · exact recorded_exec env op (hT.recorded _ hmem d ha)
      · exact hrec
  · intro t ht d ha
    rcases List.mem_or_eq_of_mem_set ht with ht | rfl
    · exact (hT.rest t ht d ha).imp id fun hd => hd.snoc _
    · by_cases hd : Dispatched (deployment env S) ⟨w, []⟩ acts d
      · exact Or.inr (hd.snoc _)
      · rcases endsIn_step hpre (fun hh => hT.fresh _ hmem hh)
          (fun hold => (hT.rest _ hmem d hold).resolve_right hd) ha with hk | ⟨r, hr⟩
        · exact Or.inl hk
        · exact Or.inr (hmark d r hr)
  · intro e he hsome
    rcases events_exec (h := h) he with ⟨e', he', hid, hres | ⟨r, hr⟩⟩ | ⟨hnone, -⟩
    · rw [← hid]
      exact (hT.results e' he' (hres ▸ hsome)).snoc _
    · exact hmark _ r hr
    · rw [hnone] at hsome
      cases hsome

theorem forall_mem_concat {α : Type} {P : α → Prop} {l : List α} {x : α} (hl : ∀ y ∈ l, P y)
    (hx : P x) : ∀ y ∈ l ++ [x], P y := by
  intro y hy
  rcases List.mem_append.1 hy with hy | hy
  · exact hl y hy
  · rw [List.mem_singleton.1 hy]
    exact hx

theorem tracked_snoc (hT : Tracked env S w acts) (a : Act Job ℕ) : Tracked env S w (acts ++ [a]) := by
  cases a with
  | spawn job =>
    refine ⟨?_, ?_, ?_, ?_, ?_⟩ <;> rw [System.run_snoc] <;> dsimp only [System.step]
    · exact forall_mem_concat hT.keeps (keeps_job job)
    · exact forall_mem_concat hT.fresh fun _ => ⟨job, rfl⟩
    -- a task that has just been started has accepted nothing
    · exact forall_mem_concat hT.recorded fun d ha => by cases ha
    · refine forall_mem_concat ?_ fun d ha => by cases ha
      exact fun t ht d ha => (hT.rest t ht d ha).imp id fun hd => hd.snoc _
    · exact fun e he hs => (hT.results e he hs).snoc _
  | run i =>
    by_cases hi : ∃ h op k, ((deployment env S).run ⟨w, []⟩ acts).threads[i]? =
        some ⟨h, .call op k⟩
    · obtain ⟨h, op, k, hi⟩ := hi
      exact tracked_call hT hi
    · refine ⟨?_, ?_, ?_, ?_, ?_⟩ <;> rw [run_of_idle hi]
      · exact hT.keeps
      · exact hT.fresh
      · exact hT.recorded
      · exact fun t ht d ha => (hT.rest t ht d ha).imp id fun hd => hd.snoc _
      · exact fun e he hs => (hT.results e he hs).snoc _
  | crash n =>
    refine ⟨?_, ?_, ?_, ?_, ?_⟩ <;> rw [System.run_snoc] <;> dsimp only [System.step]
    · exact fun t ht => by cases ht
    · exact fun t ht => by cases ht
    · exact fun t ht => by cases ht
    · exact fun t ht => by cases ht
    · exact fun e he hs => (hT.results e he hs).snoc _

theorem tracked (hw : w.events.rows = []) (acts : List (Act Job ℕ)) : Tracked env S w acts := by
  induction acts using List.reverseRecOn with
  | nil => exact tracked_nil hw
  | append_singleton acts a ih => exact tracked_snoc ih a

/-- **Who holds a delivery goes on holding it** until the dispatch is done. -/
theorem held_call (hT : Tracked env S w acts) {i : ℕ} {op : Op} {k : Ans op → M Unit}
    (hi : ((deployment env S).run ⟨w, []⟩ acts).threads[i]? = some ⟨h, .call op k⟩)
    (hd : HeldByTask ((deployment env S).run ⟨w, []⟩ acts) d) :
    Dispatched (deployment env S) ⟨w, []⟩ (acts ++ [.run i]) d ∨
      HeldByTask ((deployment env S).run ⟨w, []⟩ (acts ++ [.run i])) d := by
  obtain ⟨t, ht, hrunning, ha⟩ := hd
  rw [run_call hi]
  rcases System.mem_set_or_eq hi ⟨⟨op, (exec env op _).1⟩ :: h, k (exec env op _).1⟩ ht with
    rfl | ht
  · -- the task itself has taken the step
    by_cases hd : Dispatched (deployment env S) ⟨w, []⟩ acts d
    · exact Or.inl (hd.snoc _)
    have hrest := (hT.rest _ ht d ha).resolve_right hd
    rcases hrest.next with ⟨r, rfl⟩ | hk
    · exact absurd (dispatched_of_storing ht rfl) hd
    · refine Or.inr ⟨_, System.mem_set_self hi _, (hk _).running, ?_⟩
      -- a task that has accepted a delivery records no other
      obtain ⟨hpre, -⟩ := hT.keeps _ ht
      cases op with
      | record d' eventType action payload =>
        cases hpre with
        | quiet _ _ hg =>
          have hh : h = [] := hg
          rw [hh] at ha
          cases ha
      | _ => exact ha
  · exact Or.inr ⟨t, ht, hrunning, ha⟩

/-- Between crashes, what is recorded is held until it is dispatched. -/
theorem kept_snoc (hT : Tracked env S w acts) (a : Act Job ℕ)
    (hcrash : ∀ n, a = .crash n → ∀ d, HeldByTask ((deployment env S).run ⟨w, []⟩ acts) d →
      Dispatched (deployment env S) ⟨w, []⟩ acts d)
    (hkept : ∀ e ∈ ((deployment env S).run ⟨w, []⟩ acts).world.events.rows,
      Dispatched (deployment env S) ⟨w, []⟩ acts e.deliveryId ∨
        HeldByTask ((deployment env S).run ⟨w, []⟩ acts) e.deliveryId) :
    ∀ e ∈ ((deployment env S).run ⟨w, []⟩ (acts ++ [a])).world.events.rows,
      Dispatched (deployment env S) ⟨w, []⟩ (acts ++ [a]) e.deliveryId ∨
        HeldByTask ((deployment env S).run ⟨w, []⟩ (acts ++ [a])) e.deliveryId := by
  cases a with
  | spawn job =>
    rw [System.run_snoc]
    intro e he
    rcases hkept e he with hd | ⟨t, ht, hh⟩
    · exact Or.inl (hd.snoc _)
    · exact Or.inr ⟨t, List.mem_append_left _ ht, hh⟩
  | run i =>
    by_cases hi : ∃ h op k, ((deployment env S).run ⟨w, []⟩ acts).threads[i]? =
        some ⟨h, .call op k⟩
    · obtain ⟨h, op, k, hi⟩ := hi
      intro e he
      rw [run_call hi] at he
      rcases events_exec (h := h) he with ⟨e', he', hid, -⟩ | ⟨-, hacc⟩
      · rw [← hid]
        rcases hkept e' he' with hd | hd
        · exact Or.inl (hd.snoc _)
        · exact held_call hT hi hd
      · -- just recorded: the task has the dispatch before it
        have hmem := List.mem_of_getElem? hi
        obtain ⟨hpre, -⟩ := hT.keeps _ hmem
        by_cases hd : Dispatched (deployment env S) ⟨w, []⟩ acts e.deliveryId
        · exact Or.inl (hd.snoc _)
        rcases endsIn_step hpre (fun hh => hT.fresh _ hmem hh)
          (fun hold => (hT.rest _ hmem _ hold).resolve_right hd) hacc with hk | ⟨r, rfl⟩
        · rw [run_call hi]
          exact Or.inr ⟨_, System.mem_set_self hi _, hk.running, hacc⟩
        · exact absurd (dispatched_of_storing hmem rfl) hd
    · rw [run_of_idle hi]
      exact fun e he => (hkept e he).imp (fun hd => hd.snoc _) id
  | crash n =>
    rw [System.run_snoc]
    intro e he
    rcases hkept e he with hd | hd
    · exact Or.inl (hd.snoc _)
    · exact Or.inl ((hcrash n rfl _ hd).snoc _)

/-- **Deliveries are lost by crashes that come before the dispatch, and by nothing else.** From
an empty log, along every interleaving of deliveries, redeliveries and ticks with crashes and
restarts: in every state that is reached each recorded delivery has been dispatched, or is held
by a live task, or is in the queue, or would be taken for new if it came again, if and only
if every crash finds the deliveries that live tasks hold dispatched. -/
theorem deliveries_kept_iff (sessions : Sessions) (now : Time) (acts : List (Act Job ℕ)) :
    (∀ before, before <+: acts →
        DeliveriesKept env S { sessions, events := .empty, now } before) ↔
      CrashesLate env S { sessions, events := .empty, now } acts := by
  have htracked : ∀ acts, Tracked env S { sessions, events := .empty, now } acts :=
    fun acts => tracked rfl acts
  constructor
  · intro hall before n hb d hheld
    obtain ⟨t, ht, -, ha⟩ := hheld
    obtain ⟨e, he, rfl⟩ := (htracked before).recorded t ht d ha
    have hafter := hall _ hb
    unfold DeliveriesKept at hafter
    dsimp only at hafter
    rw [System.run_snoc] at hafter
    rcases hafter e he with ⟨b, hbefore, t', ht', hs⟩ | ⟨t', ht', -⟩ | ⟨e', he', hid⟩ | hnew
    · -- dispatched, and not by a task that lives after the crash
      have hprefix := (List.mem_inits _ _).1 hbefore
      rcases List.prefix_concat_iff.1 hprefix with rfl | hprefix
      · rw [System.run_snoc] at ht'
        cases ht'
      · exact ⟨b, (List.mem_inits _ _).2 hprefix, t', ht', hs⟩
    · cases ht'
    · -- queued, and so dispatched before
      obtain ⟨hrow, hlike⟩ := List.mem_filter.1 ((List.perm_insertionSort _ _).mem_iff.1 he')
      have hsome : e'.handlerResult.isSome = true := by
        cases hr : e'.handlerResult with
        | some r => rfl
        | none =>
          rw [hr] at hlike
          cases hlike
      rw [← hid]
      exact (htracked before).results e' hrow hsome
    · exact absurd hnew (not_redeliverable ⟨e, he, rfl⟩)
  · intro hlate before hb
    have hkept : ∀ e ∈ ((deployment env S).run ⟨{ sessions, events := .empty, now }, []⟩
        before).world.events.rows,
        Dispatched (deployment env S) ⟨{ sessions, events := .empty, now }, []⟩ before e.deliveryId ∨
          HeldByTask ((deployment env S).run ⟨{ sessions, events := .empty, now }, []⟩ before)
            e.deliveryId := by
      induction before using List.reverseRecOn with
      | nil => exact fun e he => by cases he
      | append_singleton before a ih =>
        refine kept_snoc (htracked before) a ?_ (ih ((List.prefix_append _ _).trans hb))
        rintro n rfl
        exact hlate before n hb
    intro e he
    rcases hkept e he with hd | hd
    · exact Or.inl hd
    · exact Or.inr (Or.inl hd)

/-! ## A delivery that is lost -/

/-- A delivery is put on record, and the process dies before the handler has run. -/
def lostDelivery : List (Act Job ℕ) :=
  [.spawn (.webhook "d" "issues" (some "opened") { issue := .sample 1 }), .run 0, .crash 0]

/-- **The crash loses the delivery**: recorded, never dispatched, nobody's, not in the queue, and
a duplicate if it comes again. -/
theorem crash_loses_delivery : ¬DeliveriesKept .calm {} (.initial 0) lostDelivery := by
  intro h
  have hrow : ∃ e ∈ ((deployment .calm {}).run ⟨.initial 0, []⟩ lostDelivery).world.events.rows,
      e.deliveryId = "d" := by decide +kernel
  obtain ⟨e, he, hd⟩ := hrow
  rcases h e he with hdisp | hheld | hqueue | hnew
  · rw [hd] at hdisp
    exact absurd hdisp (by decide +kernel)
  · rw [hd] at hheld
    exact absurd hheld (by decide +kernel)
  · rw [hd] at hqueue
    exact absurd hqueue (by decide +kernel)
  · rw [hd] at hnew
    exact absurd (hnew "issues" (some "opened") {}) (by decide +kernel)

end Remediation
