import Remediation.Proof.AnyAnswer
import Remediation.Proof.Reached

/-!
# What one session does to the others

Two ticks from the same state, in which Devin answers differently about one session only. The other
rows should not show the difference. They do where the answer about that session ends one tick and
not the other: the rows after it are not polled then. `others_alike_iff` says which rows are affected.
-/

namespace Remediation.AnyAnswer

open Interaction PyText

section TwoTicks

variable {codec : Codec} {env : Outside} {S : Settings} {stored : ℕ → Cells} {w : World}
  {resp resp' : String → Except Exc Json} {clock clock' : ℕ → Moment} {r : Row} {d : SessionDetails}
  {s : String}

theorem answer_congr (hresp : ∀ x, x ≠ s → resp x = resp' x) (hs : r.devinSessionId ≠ some s) :
    answer codec resp r = answer codec resp' r := by
  unfold answer
  cases hx : truthy r.devinSessionId with
  | none => rfl
  | some x =>
    have hne : x ≠ s := by
      rintro rfl
      exact hs (truthy_eq_some.1 hx).1
    dsimp only
    rw [hresp x hne]

/-- If only one of two ticks comes to a row, the row shows no difference exactly if there is nothing
new in the answer. -/
theorem alike_of_reached (hc : Connected env S w) (hr : r ∈ (found env S stored w).rows)
    (h : Reached codec S resp clock (found env S stored w) r)
    (hno : ¬Reached codec S resp' clock' (found env S stored w) r) :
    ((pollOnce codec env S stored resp clock w).2.get r.id).map (·.timeless) =
        ((pollOnce codec env S stored resp' clock' w).2.get r.id).map (·.timeless) ↔
      ∀ d, answer codec resp r = some d → Unmoved codec S r d (clock r.id).now := by
  rw [get_of_reached hc hr h, get_of_unreached hr fun _ => hno, Option.map_some, Option.map_some,
    Option.some_inj, Row.polled]
  cases hd : answer codec resp r with
  | none => simp
  | some d =>
    simp only [Option.some.injEq, forall_eq']
    exact timeless_after_same h.1

theorem alike_of_both (hc : Connected env S w) (hr : r ∈ (found env S stored w).rows)
    (hd : answer codec resp r = answer codec resp' r)
    (h : Reached codec S resp clock (found env S stored w) r)
    (h' : Reached codec S resp' clock' (found env S stored w) r) :
    ((pollOnce codec env S stored resp clock w).2.get r.id).map (·.timeless) =
        ((pollOnce codec env S stored resp' clock' w).2.get r.id).map (·.timeless) ↔
      ∀ d, answer codec resp r = some d →
        overdue S r d (clock r.id).now = overdue S r d (clock' r.id).now := by
  rw [get_of_reached hc hr h, get_of_reached hc hr h', Option.map_some, Option.map_some,
    Option.some_inj, Row.polled, Row.polled, ← hd]
  cases answer codec resp r with
  | none => simp
  | some d =>
    simp only [Option.some.injEq, forall_eq']
    exact timeless_after_iff h.1

end TwoTicks

namespace BadDate

open TwoAtWork

/-- The only number here is a zero, and nothing that is dumped is stored. -/
def codec : Codec where
  float _ := .error ⟨"ValueError", "could not convert string to float"⟩
  nearestFloat i := i
  dumps _ := "[]"
  dumpsSorted _ := "{}"
  realText _ := "0.0"

def clock (_ : ℕ) : Moment := ⟨2000000, 2000000, 2000000⟩

def object (fields : List (String × Json)) : Json := .dict (fields.map fun p => (pyStr p.1, p.2))

/-- What is answered about the first session, and the status of the second one. -/
def answers (first : Json) (status : String) (x : String) : Except Exc Json :=
  if x = "devin-1" then .ok first
  else .ok (object [("session_id", .text "devin-2"), ("status", .text status)])

def working : Json := object [("session_id", .text "devin-1"), ("status", .text "running")]

def misdated : Json :=
  object [("session_id", .text "devin-1"), ("status", .text "running"),
    ("updated_at", .text "2024-01-01")]

/-- A URL that is a list. -/
def misaddressed : Json :=
  object [("session_id", .text "devin-1"), ("status", .text "running"),
    ("pull_requests", .list [object [("pr_url", .list [.text "https://github.com/o/r/pull/7"])]])]

theorem answers_congr (a b : Json) (status x : String) (hx : x ≠ "devin-1") :
    answers a status x = answers b status x := by
  simp [answers, hx]

/-- The row of the second session has what is reported about it. -/
def upToDate : World :=
  { world with
    sessions := ⟨[session 1, { session 2 with rawStatus := some "running" }], 3, by decide, by decide,
      by decide⟩ }

/-- What the tick leaves of the second session, which has ended. -/
def statusAfter (first : Json) : Option Status :=
  ((pollOnce codec outside {} (fun _ => {}) (answers first "exit") clock world).2.get 2).map
    (·.status)

-- a URL that SQLite cannot store does the same
example : (fromApiResponse codec misaddressed).isOk = true ∧
    statusAfter misaddressed = some .running := by
  decide +kernel

end BadDate

end Remediation.AnyAnswer
