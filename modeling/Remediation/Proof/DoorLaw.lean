import Remediation.Spec.Door

/-!
# What the webhook door lets in

Anybody may send a request to the door. It shall record a delivery exactly if it is signed, complete
and new, and answer every request. It does the first for the requests that it answers; some are not
answered, as an exception escapes (`escapes_at_the_door`). `law_iff` says which.
-/

namespace Remediation

open Interaction PyText

namespace Door

/-! ## Signatures -/

theorem isAscii_hexdigest (digest : Bytes) : isAscii (hexdigest digest) = true := by
  have hdigit : ∀ n < 16, (Nat.digitChar n).toNat < 128 := by decide
  rw [isAscii, hexdigest, String.toList_ofList, List.all_eq_true]
  intro c hc
  obtain ⟨b, -, hmem⟩ := List.mem_flatMap.1 hc
  have hb : b.toNat < 256 := b.toNat_lt
  rw [List.mem_cons, List.mem_singleton] at hmem
  rcases hmem with rfl | rfl
  · exact decide_eq_true (hdigit _ (by omega))
  · exact decide_eq_true (hdigit _ (by omega))

variable {lib : Library} {secret event delivery : String} {body : Bytes} {r : Request}
  {t : DeliveryTable}

/-- The header is compared with the digest, and is not in ASCII. -/
def OutsideAscii (secret : String) (headerValue : Option String) : Prop :=
  secret ≠ "" ∧ ∃ header, headerValue = some header ∧ startsWith header signaturePrefix = true ∧
    isAscii (removePrefix header signaturePrefix) = false

theorem eq_append_removePrefix {s p : String} (h : startsWith s p = true) :
    s = p ++ removePrefix s p := by
  obtain ⟨rest, hrest⟩ := List.isPrefixOf_iff_prefix.1 h
  have hs : s = p ++ String.ofList rest := by
    rw [← String.toList_inj, String.toList_append, String.toList_ofList, hrest]
  rw [hs, removePrefix_append]

/-- **What the check of the signature does**: it raises, or says whether the header is the
signature. -/
theorem verify_cases (lib : Library) (body : Bytes) (headerValue : Option String)
    (secret : String) :
    (OutsideAscii secret headerValue ∧
      ∃ exc, verifyGithubSignature lib body headerValue secret = .error exc) ∨
    (¬OutsideAscii secret headerValue ∧ verifyGithubSignature lib body headerValue secret =
      .ok (decide (secret ≠ "" ∧ headerValue = some (signGithubPayload lib body secret)))) := by
  rw [verifyGithubSignature]
  by_cases hsecret : secret = ""
  · refine Or.inr ⟨fun h => h.1 hsecret, ?_⟩
    rw [if_pos hsecret, decide_eq_false fun h => h.1 hsecret]
  rw [if_neg hsecret]
  cases htruthy : truthy headerValue with
  | none =>
    -- a header that is missing or empty is no signature
    have hnone : ∀ header, headerValue = some header →
        startsWith header signaturePrefix = true → False := by
      rintro header rfl hstart
      have hempty : header = "" := by
        by_contra hne
        rw [truthy_eq_some.2 ⟨rfl, hne⟩] at htruthy
        cases htruthy
      rw [hempty] at hstart
      revert hstart
      decide
    refine Or.inr ⟨fun h => ?_, ?_⟩
    · obtain ⟨-, header, hheader, hstart, -⟩ := h
      exact hnone header hheader hstart
    · rw [decide_eq_false fun h => hnone _ h.2 (startsWith_append _ _)]
  | some header =>
    obtain ⟨rfl, -⟩ := truthy_eq_some.1 htruthy
    dsimp only
    cases hstart : startsWith header signaturePrefix with
    | false =>
      refine Or.inr ⟨fun h => ?_, ?_⟩
      · obtain ⟨-, header', hheader, hstart', -⟩ := h
        cases hheader
        rw [hstart] at hstart'
        cases hstart'
      · have hne : ¬(secret ≠ "" ∧ some header = some (signGithubPayload lib body secret)) := by
          rintro ⟨-, heq⟩
          rw [Option.some.inj heq, signGithubPayload, startsWith_append] at hstart
          cases hstart
        rw [decide_eq_false hne]
        rfl
    | true =>
      rw [if_neg (by decide), compareDigest, isAscii_hexdigest, Bool.true_and]
      cases hascii : isAscii (removePrefix header signaturePrefix) with
      | false => exact Or.inl ⟨⟨hsecret, header, rfl, hstart, hascii⟩, _, rfl⟩
      | true =>
        refine Or.inr ⟨fun h => ?_, ?_⟩
        · obtain ⟨-, header', hheader, -, hascii'⟩ := h
          cases hheader
          rw [hascii] at hascii'
          cases hascii'
        · rw [if_pos rfl]
          refine congrArg Except.ok (decide_eq_decide.2 ⟨fun heq => ⟨hsecret, ?_⟩, fun h => ?_⟩)
          · rw [eq_append_removePrefix hstart, ← heq]
            rfl
          · rw [Option.some.inj h.2, signGithubPayload, removePrefix_append]

/-! ## What the door shall do -/

/-- The request is signed and has its headers. -/
structure Signed (lib : Library) (secret : String) (r : Request) (event delivery : String) :
    Prop where
  configured : secret ≠ ""
  signature : r.xHubSignature256 = some (signGithubPayload lib r.body secret)
  event : r.xGithubEvent = some event ∧ event ≠ ""
  delivery : r.xGithubDelivery = some delivery ∧ delivery ≠ ""

/-- The body is the UTF-8 of a text, and that text is JSON of an object. -/
def IsUtf8Object (lib : Library) (body : Bytes) : Prop :=
  ∃ text : String, utf8 text = body ∧ ∃ items, lib.loads (.inl text) = .ok (.dict items)

/-- The delivery is on record, and its `_process` is scheduled. -/
structure Accepted (lib : Library) (body : Bytes) (event delivery : String) (t : DeliveryTable)
    (h : Handled) : Prop where
  reply : h.reply = .ok (.json "accepted" delivery)
  events : ∃ row : DeliveryRow, row.deliveryId = delivery ∧ row.eventType = event ∧
    h.events.rows = t.rows ++ [row]
  tasks : ∃ task : BackgroundTask, task.deliveryId = delivery ∧ task.eventType = event ∧
    lib.loads (.inr body) = .ok task.payload ∧ h.tasks = [task]

/-- The request is answered, and that is all. -/
structure Answered (p : Reply → Prop) (t : DeliveryTable) (h : Handled) : Prop where
  reply : ∃ reply, h.reply = .ok reply ∧ p reply
  events : h.events = t
  tasks : h.tasks = []

/-- An answer with a status 4xx. -/
def Refuses : Reply → Prop
  | .httpException statusCode _ => 400 ≤ statusCode ∧ statusCode < 500
  | .json _ _ => False

/-- A new delivery is accepted, a repeated one is answered as a duplicate, and any other request is
refused. -/
structure Law (lib : Library) (secret : String) (r : Request) (t : DeliveryTable) : Prop where
  accepted : ∀ event delivery, Signed lib secret r event delivery → IsUtf8Object lib r.body →
    delivery ∉ t.rows.map (·.deliveryId) →
    Accepted lib r.body event delivery t (githubWebhookRoute lib secret r t)
  duplicate : ∀ event delivery, Signed lib secret r event delivery → IsUtf8Object lib r.body →
    delivery ∈ t.rows.map (·.deliveryId) →
    Answered (· = .json "duplicate" delivery) t (githubWebhookRoute lib secret r t)
  refused : (¬∃ event delivery, Signed lib secret r event delivery ∧ IsUtf8Object lib r.body) →
    Answered Refuses t (githubWebhookRoute lib secret r t)

/-- A body that a signed request may have: `json.loads` refuses it, or it is an object that can be
recorded, and the former is so exactly if it is no JSON object in UTF-8. -/
def Readable (lib : Library) (body : Bytes) : Prop :=
  (¬IsUtf8Object lib body ∧ ∃ exc, lib.loads (.inr body) = .error exc ∧ exc.name = "JSONDecodeError") ∨
    (IsUtf8Object lib body ∧ ∃ items, lib.loads (.inr body) = .ok (.dict items) ∧
      (∃ text, lib.dumps (.dict items) = .ok text) ∧
      ∃ value, bindAction (items.lookup (pyStr "action")) = .ok value)

/-- A request that the door answers. -/
structure Clean (lib : Library) (secret : String) (r : Request) : Prop where
  header : ¬OutsideAscii secret r.xHubSignature256
  body : (∃ event delivery, Signed lib secret r event delivery) → Readable lib r.body

/-! ## The body -/

/-- The law for the body of a request that is signed and has its headers. -/
structure BodyLaw (lib : Library) (body : Bytes) (event delivery : String) (t : DeliveryTable)
    (h : Handled) : Prop where
  accepted : IsUtf8Object lib body → delivery ∉ t.rows.map (·.deliveryId) →
    Accepted lib body event delivery t h
  duplicate : IsUtf8Object lib body → delivery ∈ t.rows.map (·.deliveryId) →
    Answered (· = .json "duplicate" delivery) t h
  refused : ¬IsUtf8Object lib body → Answered Refuses t h

/-- No exception escapes. -/
theorem BodyLaw.answered {h : Handled} (hlaw : BodyLaw lib body event delivery t h) :
    ∃ reply, h.reply = .ok reply ∧ (Refuses reply ↔ ¬IsUtf8Object lib body) := by
  by_cases hbody : IsUtf8Object lib body
  · by_cases hnew : delivery ∈ t.rows.map (·.deliveryId)
    · obtain ⟨reply, hreply, rfl⟩ := (hlaw.duplicate hbody hnew).reply
      exact ⟨_, hreply, iff_of_false id (not_not_intro hbody)⟩
    · exact ⟨_, (hlaw.accepted hbody hnew).reply, iff_of_false id (not_not_intro hbody)⟩
  · obtain ⟨reply, hreply, hrefuses⟩ := (hlaw.refused hbody).reply
    exact ⟨reply, hreply, iff_of_true hrefuses hbody⟩

theorem recordDelivery_error (event delivery : String) (t : DeliveryTable) {action : Option Json}
    {payload : Json} {exc : Exc}
    (h : lib.dumps payload = .error exc ∨ bindAction action = .error exc) :
    ∃ exc', recordDelivery lib delivery event action payload t = .error exc' := by
  rw [recordDelivery]
  cases hdumps : lib.dumps payload with
  | error exc' => exact ⟨exc', rfl⟩
  | ok text =>
    have hbind := h.resolve_left (by rw [hdumps]; exact nofun)
    rw [hbind]
    exact ⟨exc, rfl⟩

theorem recordDelivery_ok (event delivery : String) (t : DeliveryTable) {action : Option Json}
    {payload : Json} {text : String} {value : SqlValue}
    (hdumps : lib.dumps payload = .ok text) (hbind : bindAction action = .ok value) :
    (delivery ∈ t.rows.map (·.deliveryId) ∧
      recordDelivery lib delivery event action payload t = .ok (false, t)) ∨
    (delivery ∉ t.rows.map (·.deliveryId) ∧ ∃ t' : DeliveryTable, ∃ n,
      t'.rows = t.rows ++ [⟨n, delivery, event, value, text⟩] ∧
      recordDelivery lib delivery event action payload t = .ok (true, t')) := by
  rw [recordDelivery, hdumps, hbind]
  simp only [bind, Except.bind, pure, Except.pure]
  cases hinsert : t.insert (fun n => ⟨n, delivery, event, value, text⟩) fun _ => rfl with
  | none => exact Or.inl ⟨Table.insert_eq_none.1 hinsert, rfl⟩
  | some p =>
    obtain ⟨n, t'⟩ := p
    obtain ⟨-, hfree, hrows, -⟩ := Table.insert_eq_some hinsert
    exact Or.inr ⟨hfree, t', n, hrows, rfl⟩

/-- An object is recorded, with what it says is its action. -/
theorem receiveBody_dict {items : List (PyStr × Json)}
    (hloads : lib.loads (.inr body) = .ok (.dict items)) :
    receiveBody lib body event delivery t =
      match recordDelivery lib delivery event (items.lookup (pyStr "action")) (.dict items) t with
      | .error exc => ⟨.error exc, t, []⟩
      | .ok (false, _) => ⟨.ok (.json "duplicate" delivery), t, []⟩
      | .ok (true, t') => ⟨.ok (.json "accepted" delivery), t',
          [⟨delivery, event, items.lookup (pyStr "action"), .dict items⟩]⟩ := by
  rw [receiveBody, hloads]
  rfl

/-- What is answered can be recorded, if it is an object. -/
theorem storable_of_answered {items : List (PyStr × Json)} {reply : Reply}
    (hloads : lib.loads (.inr body) = .ok (.dict items))
    (hreply : (receiveBody lib body event delivery t).reply = .ok reply) :
    (∃ text, lib.dumps (.dict items) = .ok text) ∧
      (∃ value, bindAction (items.lookup (pyStr "action")) = .ok value) ∧ ¬Refuses reply := by
  rw [receiveBody_dict hloads] at hreply
  have hrecord : ∀ exc, ¬(lib.dumps (.dict items) = .error exc ∨
      bindAction (items.lookup (pyStr "action")) = .error exc) := by
    intro exc herror
    obtain ⟨exc', hrec⟩ := recordDelivery_error event delivery t herror
    rw [hrec] at hreply
    cases hreply
  cases hdumps : lib.dumps (.dict items) with
  | error exc => exact (hrecord exc (Or.inl hdumps)).elim
  | ok text =>
    cases hbind : bindAction (items.lookup (pyStr "action")) with
    | error exc => exact (hrecord exc (Or.inr hbind)).elim
    | ok value =>
      refine ⟨⟨text, rfl⟩, ⟨value, rfl⟩, ?_⟩
      rcases recordDelivery_ok event delivery t hdumps hbind with ⟨-, hrec⟩ | ⟨-, t', n, -, hrec⟩
      · rw [hrec] at hreply
        cases hreply
        exact id
      · rw [hrec] at hreply
        cases hreply
        exact id

/-- **The body**: the law holds exactly if it is readable. -/
theorem bodyLaw_iff (lib : Library) (body : Bytes) (event delivery : String) (t : DeliveryTable) :
    BodyLaw lib body event delivery t (receiveBody lib body event delivery t) ↔
      Readable lib body := by
  constructor
  · intro hlaw
    obtain ⟨reply, hreply, hrefuses⟩ := hlaw.answered
    cases hloads : lib.loads (.inr body) with
    | error exc =>
      rw [receiveBody, hloads] at hreply
      dsimp only at hreply
      split at hreply
      · rename_i hname
        cases hreply
        exact Or.inl ⟨hrefuses.1 ⟨by decide, by decide⟩, exc, hloads, hname⟩
      · cases hreply
    | ok payload =>
      cases payload with
      | dict items =>
        obtain ⟨hdumps, hbind, hanswer⟩ := storable_of_answered hloads hreply
        have hbody : IsUtf8Object lib body := not_not.1 fun h => hanswer (hrefuses.2 h)
        exact Or.inr ⟨hbody, items, hloads, hdumps, hbind⟩
      | _ =>
        -- there is no action to get
        rw [receiveBody, hloads] at hreply
        cases hreply
  · rintro (⟨hbody, exc, hloads, hname⟩ | ⟨hbody, items, hloads, ⟨text, hdumps⟩, value, hbind⟩)
    · have hreceive : receiveBody lib body event delivery t =
          ⟨.ok (.httpException 400 "invalid JSON body"), t, []⟩ := by
        rw [receiveBody, hloads]
        exact if_pos hname
      rw [hreceive]
      exact ⟨fun h => absurd h hbody, fun h => absurd h hbody,
        fun _ => ⟨⟨_, rfl, by decide, by decide⟩, rfl, rfl⟩⟩
    · rw [receiveBody_dict hloads]
      rcases recordDelivery_ok event delivery t hdumps hbind with
        ⟨hdup, hrec⟩ | ⟨hnew, t', n, hrows, hrec⟩
      · rw [hrec]
        exact ⟨fun _ h => absurd hdup h, fun _ _ => ⟨⟨_, rfl, rfl⟩, rfl, rfl⟩,
          fun h => absurd hbody h⟩
      · rw [hrec]
        exact ⟨fun _ _ => ⟨rfl, ⟨_, rfl, rfl, hrows⟩, _, rfl, rfl, hloads, rfl⟩,
          fun _ h => absurd h hnew, fun h => absurd hbody h⟩

/-! ## The request -/

/-- A request that is not signed, or has a header missing, is refused. -/
theorem law_of_refused (hsigned : ∀ event delivery, ¬Signed lib secret r event delivery)
    (h : Answered Refuses t (githubWebhookRoute lib secret r t)) : Law lib secret r t :=
  ⟨fun event delivery hs => absurd hs (hsigned event delivery),
    fun event delivery hs => absurd hs (hsigned event delivery), fun _ => h⟩

/-- A signed request is as its body is. -/
theorem law_iff_bodyLaw (hs : Signed lib secret r event delivery) :
    Law lib secret r t ↔
      BodyLaw lib r.body event delivery t (githubWebhookRoute lib secret r t) := by
  have huniq : ∀ event' delivery', Signed lib secret r event' delivery' →
      event' = event ∧ delivery' = delivery := by
    intro event' delivery' hs'
    exact ⟨Option.some.inj (hs'.event.1.symm.trans hs.event.1),
      Option.some.inj (hs'.delivery.1.symm.trans hs.delivery.1)⟩
  constructor
  · intro h
    refine ⟨h.accepted event delivery hs, h.duplicate event delivery hs, fun hbody => ?_⟩
    exact h.refused fun ⟨_, _, _, hbody'⟩ => hbody hbody'
  · intro h
    refine ⟨fun event' delivery' hs' => ?_, fun event' delivery' hs' => ?_, fun hno => ?_⟩
    · obtain ⟨rfl, rfl⟩ := huniq event' delivery' hs'
      exact h.accepted
    · obtain ⟨rfl, rfl⟩ := huniq event' delivery' hs'
      exact h.duplicate
    · exact h.refused fun hbody => hno ⟨event, delivery, hs, hbody⟩

/-- No exception escapes. -/
theorem Law.answered (h : Law lib secret r t) :
    ∃ reply, (githubWebhookRoute lib secret r t).reply = .ok reply := by
  by_cases hsigned : ∃ event delivery, Signed lib secret r event delivery
  · obtain ⟨event, delivery, hs⟩ := hsigned
    obtain ⟨reply, hreply, -⟩ := ((law_iff_bodyLaw hs).1 h).answered
    exact ⟨reply, hreply⟩
  · have hno : ¬∃ event delivery, Signed lib secret r event delivery ∧ IsUtf8Object lib r.body :=
      fun ⟨event, delivery, hs, _⟩ => hsigned ⟨event, delivery, hs⟩
    obtain ⟨reply, hreply, -⟩ := (h.refused hno).reply
    exact ⟨reply, hreply⟩

/-- **The door is exact, and answers, for the clean requests and no others.** -/
theorem law_iff (lib : Library) (secret : String) (r : Request) (t : DeliveryTable) :
    Law lib secret r t ↔ Clean lib secret r := by
  rcases verify_cases lib r.body r.xHubSignature256 secret with ⟨hheader, exc, hverify⟩ |
    ⟨hheader, hverify⟩
  · refine iff_of_false (fun h => ?_) fun h => h.header hheader
    obtain ⟨reply, hreply⟩ := h.answered
    rw [githubWebhookRoute, hverify] at hreply
    cases hreply
  · by_cases hsign : secret ≠ "" ∧ r.xHubSignature256 = some (signGithubPayload lib r.body secret)
    · rw [decide_eq_true hsign] at hverify
      have hroute : githubWebhookRoute lib secret r t = receiveSigned lib r t := by
        rw [githubWebhookRoute, hverify]
      by_cases hsigned : ∃ event delivery, Signed lib secret r event delivery
      · obtain ⟨event, delivery, hs⟩ := hsigned
        rw [law_iff_bodyLaw hs, hroute, receiveSigned, truthy_eq_some.2 hs.event,
          truthy_eq_some.2 hs.delivery, bodyLaw_iff]
        exact ⟨fun h => ⟨hheader, fun _ => h⟩, fun h => h.body ⟨event, delivery, hs⟩⟩
      · refine iff_of_true (law_of_refused (fun event delivery hs => hsigned ⟨event, delivery, hs⟩) ?_)
          ⟨hheader, fun hs => absurd hs hsigned⟩
        rw [hroute, receiveSigned]
        split
        · rename_i event delivery hevent hdelivery
          exact absurd ⟨event, delivery, hsign.1, hsign.2, truthy_eq_some.1 hevent,
            truthy_eq_some.1 hdelivery⟩ hsigned
        · exact ⟨⟨_, rfl, by decide, by decide⟩, rfl, rfl⟩
    · rw [decide_eq_false hsign] at hverify
      have hunsigned : ∀ event delivery, ¬Signed lib secret r event delivery :=
        fun _ _ hs => hsign ⟨hs.configured, hs.signature⟩
      refine iff_of_true (law_of_refused hunsigned ?_)
        ⟨hheader, fun ⟨event, delivery, hs⟩ => absurd hs (hunsigned event delivery)⟩
      rw [githubWebhookRoute, hverify]
      exact ⟨⟨_, rfl, by decide, by decide⟩, rfl, rfl⟩

/-! ## Two requests -/

/-- The library where the message is `[]` and the key is `secret`. -/
def library : Library where
  hmac _ _ := [83, 54, 74, 7, 252, 197, 99, 231, 18, 244, 44, 252, 157, 225, 226, 142, 30, 45, 57, 242,
    54, 206, 228, 48, 241, 18, 32, 62, 85, 122, 234, 63]
  loads
    | .inl text => if text = "[]" then .ok (.list []) else .error ⟨"JSONDecodeError", ""⟩
    | .inr body => if body = [91, 93] then .ok (.list []) else .error ⟨"JSONDecodeError", ""⟩
  dumps _ := .ok "[]"

/-- Nobody knows the secret who sends this. -/
def accent : Request where
  body := [91, 93]
  xGithubEvent := some "issues"
  xGithubDelivery := some "72d3162e-cc78-11e3-81ab-4c9367dc0958"
  xHubSignature256 := some "sha256=é"

/-- A signed list. -/
def signedList : Request where
  body := [91, 93]
  xGithubEvent := some "issues"
  xGithubDelivery := some "72d3162e-cc78-11e3-81ab-4c9367dc0958"
  xHubSignature256 := some "sha256=53364a07fcc563e712f42cfc9de1e28e1e2d39f236cee430f112203e557aea3f"

/-- **Two requests that are not answered**: the one because of its header, and the other because of
its body. -/
theorem escapes_at_the_door :
    ¬Law library "secret" accent Table.empty ∧ ¬Law library "secret" signedList Table.empty := by
  have haccent : (githubWebhookRoute library "secret" accent Table.empty).reply = .error
      ⟨"TypeError", "comparing strings with non-ASCII characters is not supported"⟩ := by
    decide +kernel
  have hlist : (githubWebhookRoute library "secret" signedList Table.empty).reply = .error
      ⟨"AttributeError", "'list' object has no attribute 'get'"⟩ := by
    decide +kernel
  constructor
  · intro h
    obtain ⟨reply, hreply⟩ := h.answered
    rw [haccent] at hreply
    cases hreply
  · intro h
    obtain ⟨reply, hreply⟩ := h.answered
    rw [hlist] at hreply
    cases hreply

end Door

end Remediation
