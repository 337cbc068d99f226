import Remediation.Proof.DoorLaw
import Remediation.Proof.Provenance
import Remediation.Spec.FrontDoor

/-!
# Who can make the service spend

Anybody may send requests, but a session costs money. The route either leaves a request alone,
whatever is on record, or it has a task for it that depends on the log only in whether it is new
(`route_cases`). So each delivery has its task scheduled once (`scheduled_once`), and in every
interleaving of requests and ticks, with crashes, what is reserved and what Devin is asked for goes
back to a request that was sent and bears the signature of its body (`signed_requests_only`).
-/

namespace Remediation

open Interaction Prog PyText Door

variable {lib : Library} {secret : String} {reader : Reader} {r : Request} {task : BackgroundTask}

/-! ## The route -/

/-- The request is signed, and the task is about what it says. -/
structure Bears (lib : Library) (secret : String) (r : Request) (task : BackgroundTask) : Prop where
  signed : Signed lib secret r task.eventType task.deliveryId
  loads : lib.loads (.inr r.body) = .ok task.payload
  action : getAction task.payload = .ok task.action

/-- What becomes of a request leaves no task, whatever is on record. -/
def Ignores (handle : DeliveryTable → Handled) : Prop := ∀ t, (handle t).events = t ∧ (handle t).tasks = []

/-- It has the task scheduled, if its delivery is not on record. -/
def Schedules (handle : DeliveryTable → Handled) (task : BackgroundTask) : Prop :=
  ∀ t, (task.deliveryId ∈ t.rows.map (·.deliveryId) ∧
      handle t = ⟨.ok (.json "duplicate" task.deliveryId), t, []⟩) ∨
    (task.deliveryId ∉ t.rows.map (·.deliveryId) ∧ ∃ t' : DeliveryTable, ∃ row : DeliveryRow,
      row.deliveryId = task.deliveryId ∧ t'.rows = t.rows ++ [row] ∧
      handle t = ⟨.ok (.json "accepted" task.deliveryId), t', [task]⟩)

theorem receiveBody_cases (lib : Library) (body : Bytes) (event delivery : String) :
    (∃ action payload, lib.loads (.inr body) = .ok payload ∧ getAction payload = .ok action ∧
      Schedules (receiveBody lib body event delivery) ⟨delivery, event, action, payload⟩) ∨
    Ignores (receiveBody lib body event delivery) := by
  unfold Schedules Ignores receiveBody
  cases hloads : lib.loads (.inr body) with
  | error exc =>
    refine Or.inr fun t => ?_
    dsimp only
    split <;> exact ⟨rfl, rfl⟩
  | ok payload =>
    cases haction : getAction payload with
    | error exc =>
      refine Or.inr fun t => ?_
      dsimp only
      rw [haction]
      exact ⟨rfl, rfl⟩
    | ok action =>
      by_cases hstorable : (∃ text, lib.dumps payload = .ok text) ∧ ∃ value, bindAction action = .ok value
      · obtain ⟨⟨text, hdumps⟩, value, hbind⟩ := hstorable
        refine Or.inl ⟨action, payload, rfl, haction, fun t => ?_⟩
        rcases recordDelivery_ok event delivery t hdumps hbind with
          ⟨hdup, hrec⟩ | ⟨hnew, t', n, hrows, hrec⟩
        · exact Or.inl ⟨hdup, by simp only [haction, hrec]⟩
        · exact Or.inr ⟨hnew, t', _, rfl, hrows, by simp only [haction, hrec]⟩
      · refine Or.inr fun t => ?_
        have herror : ∃ exc, recordDelivery lib delivery event action payload t = .error exc := by
          cases hdumps : lib.dumps payload with
          | error exc => exact recordDelivery_error event delivery t (Or.inl hdumps)
          | ok text =>
            cases hbind : bindAction action with
            | error exc => exact recordDelivery_error event delivery t (Or.inr hbind)
            | ok value => exact absurd ⟨⟨text, hdumps⟩, value, hbind⟩ hstorable
        obtain ⟨exc, hrec⟩ := herror
        simp only [haction, hrec, and_self]

/-- **What the route does with a request**, on any log. -/
theorem route_cases (lib : Library) (secret : String) (r : Request) :
    (∃ task, Bears lib secret r task ∧ Schedules (githubWebhookRoute lib secret r) task) ∨
      Ignores (githubWebhookRoute lib secret r) := by
  rcases verify_cases lib r.body r.xHubSignature256 secret with ⟨-, exc, hverify⟩ | ⟨-, hverify⟩
  · refine Or.inr fun t => ?_
    rw [githubWebhookRoute, hverify]
    exact ⟨rfl, rfl⟩
  by_cases hsign : secret ≠ "" ∧ r.xHubSignature256 = some (signGithubPayload lib r.body secret)
  · rw [decide_eq_true hsign] at hverify
    have hroute : githubWebhookRoute lib secret r = receiveSigned lib r := by
      funext t
      rw [githubWebhookRoute, hverify]
    rw [hroute]
    cases hevent : truthy r.xGithubEvent with
    | none =>
      refine Or.inr fun t => ?_
      rw [receiveSigned, hevent]
      exact ⟨rfl, rfl⟩
    | some event =>
      cases hdelivery : truthy r.xGithubDelivery with
      | none =>
        refine Or.inr fun t => ?_
        rw [receiveSigned, hevent, hdelivery]
        exact ⟨rfl, rfl⟩
      | some delivery =>
        have hbody : receiveSigned lib r = receiveBody lib r.body event delivery := by
          funext t
          rw [receiveSigned, hevent, hdelivery]
        have hsigned : Signed lib secret r event delivery :=
          ⟨hsign.1, hsign.2, truthy_eq_some.1 hevent, truthy_eq_some.1 hdelivery⟩
        rw [hbody]
        rcases receiveBody_cases lib r.body event delivery with
          ⟨action, payload, hloads, haction, hschedules⟩ | hignores
        · exact Or.inl ⟨_, ⟨hsigned, hloads, haction⟩, hschedules⟩
        · exact Or.inr hignores
  · refine Or.inr fun t => ?_
    rw [githubWebhookRoute, hverify, decide_eq_false hsign]
    exact ⟨rfl, rfl⟩

theorem task_of_schedules (h : Schedules (githubWebhookRoute lib secret r) task) :
    r.task lib secret = some task := by
  rcases h .empty with ⟨hdup, -⟩ | ⟨-, t', row, -, -, hroute⟩
  · cases hdup
  · rw [Request.task, hroute]
    rfl

theorem task_of_ignores (h : Ignores (githubWebhookRoute lib secret r)) :
    r.task lib secret = none := by
  rw [Request.task, (h .empty).2]
  rfl

theorem bears_of_task (h : r.task lib secret = some task) :
    Bears lib secret r task ∧ Schedules (githubWebhookRoute lib secret r) task := by
  rcases route_cases lib secret r with ⟨task', hbears, hschedules⟩ | hignores
  · rw [task_of_schedules hschedules] at h
    cases h
    exact ⟨hbears, hschedules⟩
  · rw [task_of_ignores hignores] at h
    cases h

theorem ignores_of_task (h : r.task lib secret = none) :
    Ignores (githubWebhookRoute lib secret r) := by
  rcases route_cases lib secret r with ⟨task', -, hschedules⟩ | hignores
  · rw [task_of_schedules hschedules] at h
    cases h
  · exact hignores

/-! ## Request after request -/

/-- The request is the first one that brings a delivery, and has the task for it. -/
def FirstOf (lib : Library) (secret : String) (rs : List Request) (task : BackgroundTask) : Prop :=
  ∃ before r after, rs = before ++ r :: after ∧ r.task lib secret = some task ∧
    ∀ q ∈ before, ∀ k, q.task lib secret = some k → k.deliveryId ≠ task.deliveryId

theorem firstOf_cons (rs : List Request) :
    FirstOf lib secret (r :: rs) task ↔ r.task lib secret = some task ∨
      (∀ k, r.task lib secret = some k → k.deliveryId ≠ task.deliveryId) ∧
        FirstOf lib secret rs task := by
  constructor
  · rintro ⟨before, q, after, hrs, hq, hbefore⟩
    cases before with
    | nil =>
      cases hrs
      exact Or.inl hq
    | cons b before =>
      cases hrs
      obtain ⟨hb, hrest⟩ := List.forall_mem_cons.1 hbefore
      exact Or.inr ⟨hb, before, q, after, rfl, hq, hrest⟩
  · rintro (h | ⟨hno, before, q, after, rfl, hq, hbefore⟩)
    · exact ⟨[], r, rs, rfl, h, fun q hq => by cases hq⟩
    · exact ⟨r :: before, q, after, rfl, hq, List.forall_mem_cons.2 ⟨hno, hbefore⟩⟩

/-- **Each delivery has its task once.** Whatever requests come, signed or not, readable or not, the
tasks that are scheduled are those of the first requests for their deliveries, where nothing is on
record yet; each delivery has one at most, and the log grows by just these deliveries. -/
theorem scheduled_once (lib : Library) (secret : String) (rs : List Request) (t : DeliveryTable) :
    let h := handleAll lib secret rs t
    (h.2.map (·.deliveryId)).Nodup ∧
    (∀ task, task ∈ h.2 ↔ task.deliveryId ∉ t.rows.map (·.deliveryId) ∧ FirstOf lib secret rs task) ∧
    h.1.rows.map (·.deliveryId) = t.rows.map (·.deliveryId) ++ h.2.map (·.deliveryId) := by
  induction rs generalizing t with
  | nil =>
    refine ⟨List.nodup_nil, fun task => iff_of_false List.not_mem_nil ?_, (List.append_nil _).symm⟩
    rintro ⟨-, before, r, after, hrs, -⟩
    cases before <;> cases hrs
  | cons r rs ih =>
    cases htask : r.task lib secret with
    | none =>
      obtain ⟨hevents, htasks⟩ := ignores_of_task htask t
      have hfirst : ∀ task, FirstOf lib secret (r :: rs) task ↔ FirstOf lib secret rs task := by
        intro task
        rw [firstOf_cons, htask]
        simp
      simp only [handleAll, hevents, htasks, List.nil_append, hfirst]
      exact ih t
    | some k =>
      have hfirst : ∀ task, FirstOf lib secret (r :: rs) task ↔
          k = task ∨ k.deliveryId ≠ task.deliveryId ∧ FirstOf lib secret rs task := by
        intro task
        rw [firstOf_cons, htask]
        simp
      rcases (bears_of_task htask).2 t with ⟨hdup, hroute⟩ | ⟨hnew, t', row, hrow, hrows, hroute⟩
      · simp only [handleAll, hroute, List.nil_append, hfirst]
        obtain ⟨hnodup, hmem, hids⟩ := ih t
        refine ⟨hnodup, fun task => (hmem task).trans (and_congr_right fun hno => ?_), hids⟩
        have hne : k.deliveryId ≠ task.deliveryId := fun he => hno (he ▸ hdup)
        constructor
        · exact fun hrest => Or.inr ⟨hne, hrest⟩
        · rintro (rfl | ⟨-, hrest⟩)
          · exact absurd hdup hno
          · exact hrest
      · simp only [handleAll, hroute, List.singleton_append, List.map_cons, hfirst]
        obtain ⟨hnodup, hmem, hids⟩ := ih t'
        have ht' : t'.rows.map (·.deliveryId) = t.rows.map (·.deliveryId) ++ [k.deliveryId] := by
          rw [hrows, List.map_append, List.map_singleton, hrow]
        refine ⟨List.nodup_cons.2 ⟨?_, hnodup⟩, fun task => ?_, ?_⟩
        · intro hk
          obtain ⟨task, htask', he⟩ := List.mem_map.1 hk
          refine ((hmem task).1 htask').1 ?_
          rw [ht', he]
          exact List.mem_append_right _ (List.mem_singleton.2 rfl)
        · rw [List.mem_cons, hmem, ht', List.mem_append, List.mem_singleton, not_or]
          constructor
          · rintro (rfl | ⟨⟨hno, hne⟩, hrest⟩)
            · exact ⟨hnew, Or.inl rfl⟩
            · exact ⟨hno, Or.inr ⟨fun he => hne he.symm, hrest⟩⟩
          · rintro ⟨hno, rfl | ⟨hne, hrest⟩⟩
            · exact Or.inl rfl
            · exact Or.inr ⟨⟨hno, fun he => hne he.symm⟩, hrest⟩
        · rw [hids, ht', List.append_assoc, List.singleton_append]

/-! ## What is on record -/

/-- The request bears a delivery, as the handlers read it. -/
def Brings (lib : Library) (secret : String) (reader : Reader) (r : Request) (deliveryId : String)
    (d : Delivery) : Prop :=
  ∃ task, Bears lib secret r task ∧ task.deliveryId = deliveryId ∧
    d = ⟨task.eventType, reader.action task.action, reader.payload task.payload⟩

/-- Only deliveries that `P` holds of are put on record. -/
def records (P : String → Delivery → Prop) : Contract Ans where
  pre _ op := ∀ deliveryId eventType action payload,
    op = .record deliveryId eventType action payload → P deliveryId ⟨eventType, action, payload⟩
  post _ _ _ := True

variable {env : Outside} {S : Settings} {w : World} {h : Hist} {P : String → Delivery → Prop}

/-- Whoever has begun puts nothing on record any more. -/
theorem records_of_begun {p : M Unit} (hp : p.Keeps (contract S) Settled h) (hbegun : h ≠ []) :
    p.Keeps ((contract S).and (records P)) Whatever h := by
  have hpre : ∀ h op, h ≠ [] → (contract S).pre h op → ((contract S).and (records P)).pre h op := by
    intro h op hne hpermits
    refine ⟨hpermits, ?_⟩
    rintro deliveryId eventType action payload rfl
    cases hpermits with
    | quiet _ _ hgrounded => exact absurd hgrounded hne
  have hkeeps := hp.weaken_given (fun h e _ => List.cons_ne_nil e h) hpre (fun _ _ _ ha => ha.1) hbegun
  exact keeps_mono _ (fun _ _ _ => trivial) hkeeps

/-- **What a call puts on record** is what its request brings. -/
theorem records_call (call : Call)
    (hP : ∀ r deliveryId d, call = .request r → Brings lib secret reader r deliveryId d →
      P deliveryId d) :
    (call.prog lib secret reader S).Keeps ((contract S).and (records P)) Whatever [] := by
  cases call with
  | request r =>
    cases htask : r.task lib secret with
    | none =>
      rw [Call.prog, htask]
      trivial
    | some task =>
      rw [Call.prog, htask]
      obtain ⟨hpre, hrest⟩ := keeps_job (S := S) (task.job reader)
      refine ⟨⟨hpre, ?_⟩, fun a ha => records_of_begun (hrest a ha.1) (List.cons_ne_nil _ _)⟩
      intro deliveryId eventType action payload he
      cases he
      exact hP r _ _ rfl ⟨task, (bears_of_task htask).1, rfl, rfl⟩
  | tick =>
    obtain ⟨hpre, hrest⟩ := keeps_job (S := S) .tick
    refine ⟨⟨hpre, ?_⟩, fun a ha => records_of_begun (hrest a ha.1) (List.cons_ne_nil _ _)⟩
    intro deliveryId eventType action payload he
    cases he

/-- And it reserves on behalf of what it has been handed. -/
theorem onBehalf_answering (call : Call) :
    (call.prog lib secret reader S).Keeps (onBehalf S) Whatever [] := by
  cases call with
  | request r =>
    cases htask : r.task lib secret with
    | none =>
      rw [Call.prog, htask]
      trivial
    | some task =>
      rw [Call.prog, htask]
      exact onBehalf_job (task.job reader)
  | tick => exact onBehalf_job .tick

/-- What is on record after an operation was there before, or has just been put there. -/
theorem mem_events_exec {op : Op} {e : WebhookEvent} (he : e ∈ (exec env op w).2.events.rows) :
    (∃ e' ∈ w.events.rows, e'.deliveryId = e.deliveryId ∧ e'.delivery = e.delivery) ∨
      op = .record e.deliveryId e.eventType e.action e.payload := by
  cases op with
  | record deliveryId eventType action payload =>
    rcases exec_record env w deliveryId eventType action payload with ⟨-, hrows, -⟩ | ⟨-, hev, -⟩
    · rw [hrows, List.mem_append, List.mem_singleton] at he
      rcases he with he | rfl
      · exact Or.inl ⟨e, he, rfl, rfl⟩
      · exact Or.inr rfl
    · rw [hev] at he
      exact Or.inl ⟨e, he, rfl, rfl⟩
  | markProcessed deliveryId result =>
    have hrows : e ∈ w.events.rows.map (fun e : WebhookEvent =>
        if e.deliveryId = deliveryId then
          { e with
            processedAt := some (currentTimestamp (w.tick env).now)
            handlerResult := some result }
        else e) := by
      rw [← rows_markProcessed]
      exact he
    obtain ⟨e', he', rfl⟩ := List.mem_map.1 hrows
    refine Or.inl ⟨e', he', ?_⟩
    split <;> exact ⟨rfl, rfl⟩
  | _ =>
    rw [exec_events rfl] at he
    exact Or.inl ⟨e, he, rfl, rfl⟩

/-! ## Runs -/

/-- Tasks have what is on record, and `P` holds of what is on record. -/
structure Vouched (S : Settings) (P : String → Delivery → Prop) (w : World) (hs : List Hist) : Prop where
  onRecord : OnRecord S w hs
  events : ∀ e ∈ w.events.rows, P e.deliveryId e.delivery

theorem vouched_step {hs : List Hist} {i : ℕ} {op : Op} (hJ : Vouched S P w hs)
    (hi : hs[i]? = some h) (hp : ((contract S).and (records P)).pre h op)
    (hb : (onBehalf S).pre h op) :
    Vouched S P (exec env op w).2 (hs.set i (⟨op, (exec env op w).1⟩ :: h)) where
  onRecord := onRecord_step hJ.onRecord hi hp.1 hb
  events e he := by
    rcases mem_events_exec he with ⟨e', he', hid, hd⟩ | hop
    · rw [← hid, ← hd]
      exact hJ.events e' he'
    · exact hp.2 _ _ _ _ hop

/-- **Nothing without a signature.** In every interleaving of requests and ticks, with crashes, from
the empty database: each delivery on record has been brought by a request that was sent and that bears
the signature of its body; each row is asked for by such a delivery, and so is each work key that
`create_session` is called for. -/
theorem signed_requests_only (lib : Library) (secret : String) (reader : Reader) (env : Outside)
    (S : Settings) (now : Time) (acts : List (Act Call ℕ)) :
    let w := ((served lib secret reader env S).run ⟨.initial now, []⟩ acts).world
    (∀ e ∈ w.events.rows, ∃ r, .spawn (.request r) ∈ acts ∧
      Brings lib secret reader r e.deliveryId e.delivery) ∧
    (∀ row ∈ w.sessions.rows, ∃ r, .spawn (.request r) ∈ acts ∧ ∃ deliveryId d,
      Brings lib secret reader r deliveryId d ∧ Asks S d row.reservation) ∧
    ∀ workKey, 0 < createCount workKey w.trace → ∃ r, .spawn (.request r) ∈ acts ∧
      ∃ deliveryId d res, Brings lib secret reader r deliveryId d ∧ Asks S d res ∧
        res.workKey = workKey := by
  classical
  -- the requests that are not sent make no difference
  let sent : Call → Prop := fun call => .spawn call ∈ acts
  let D := (served lib secret reader env S).only sent ()
  let P : String → Delivery → Prop := fun deliveryId d =>
    ∃ r, sent (.request r) ∧ Brings lib secret reader r deliveryId d
  have hsame : D.run ⟨.initial now, []⟩ acts = (served lib secret reader env S).run ⟨.initial now, []⟩ acts :=
    System.run_only sent () acts _ fun t ht => ht
  rw [← hsame]
  have hcall : ∀ call, (D.prog call).Keeps (((contract S).and (records P)).and (onBehalf S))
      (fun _ _ => True) [] := by
    intro call
    change (if sent call then call.prog lib secret reader S else .ret ()).Keeps _ _ _
    split
    · rename_i hsent
      have hrecords : (call.prog lib secret reader S).Keeps ((contract S).and (records P)) Whatever [] :=
        records_call call fun r _ d he hbrings => ⟨r, he ▸ hsent, hbrings⟩
      exact keeps_mono _ (fun _ _ _ => trivial) (hrecords.and (onBehalf_answering call))
    · trivial
  have hinitial : Vouched S P (.initial now) [] :=
    ⟨onRecord_initial S now, fun e he => by cases he⟩
  have hpost : ∀ (h : Hist) op w,
      (((contract S).and (records P)).and (onBehalf S)).post h op (D.exec op w).1 :=
    fun _ op w => ⟨⟨exec_honest env op w, trivial⟩, trivial⟩
  have hrun := (System.run_inv (S := D) (R := fun _ _ _ _ => True) (Vouched S P) hcall
    (fun _ _ hJ => ⟨hJ.onRecord.spawn, hJ.events⟩)
    (fun w _ n hJ => ⟨hJ.onRecord.crash n, hJ.events⟩)
    (fun w _ h op _ _ _ => hpost h op w)
    (fun _ _ _ _ _ hJ hi hpre _ => vouched_step hJ hi hpre.1 hpre.2) acts
    (c := ⟨.initial now, []⟩) hinitial (by simp [System.KeepsAll]) (System.runOK_true _ acts)).1
  -- what a delivery on record asks for, a request that was sent asks for
  have hsent : ∀ (e : WebhookEvent) res, P e.deliveryId e.delivery → Asks S e.delivery res →
      ∃ r, sent (.request r) ∧ ∃ deliveryId d, Brings lib secret reader r deliveryId d ∧ Asks S d res := by
    intro e res hP hasks
    obtain ⟨r, hr, hbrings⟩ := hP
    exact ⟨r, hr, e.deliveryId, e.delivery, hbrings, hasks⟩
  refine ⟨hrun.events, ?_, ?_⟩
  · intro row hrow
    obtain ⟨e, he, hasks⟩ := hrun.onRecord.grounded row hrow
    exact hsent e _ (hrun.events e he) hasks
  · intro workKey hpos
    have hopen : ∀ h op, (((contract S).and (records P)).and (onBehalf S)).pre h op →
        reservations.ActsWhenOpen h op := fun _ _ hpre => actsWhenOpen hpre.1.1
    obtain ⟨hb, -⟩ := ClaimProtocol.at_most_once (S := D) (P := reservations) (w := .initial now)
      reservations_honest hopen hpost hcall (fun _ => rfl) acts
    obtain ⟨-, row, hrow, rfl⟩ := (hb workKey).2 (Nat.lt_of_lt_of_le hpos (Nat.le_add_right _ _))
    obtain ⟨e, he, hasks⟩ := hrun.onRecord.grounded row hrow
    obtain ⟨r, hr, deliveryId, d, hbrings, hasks'⟩ := hsent e _ (hrun.events e he) hasks
    exact ⟨r, hr, deliveryId, d, _, hbrings, hasks', rfl⟩

end Remediation
