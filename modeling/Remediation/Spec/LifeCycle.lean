import Mathlib.Logic.Relation
import Remediation.Spec.World

/-!
# The life of a work unit

What a row of `sessions` is for, with no columns and no statements: a unit of work is reserved,
and then either given up or handed to a Devin session, which is reported on from then on
(`Phase.Step`). `World.phase` reads the phase of a row out of the table.
-/

namespace Remediation

open Relation

inductive Phase
  | absent
  | unspawned (status : Status)
  | spawned (sessionId : String) (status : Status)
  deriving DecidableEq

/-- Where a unit may go next. A fix that is cancelled while its handler is at work may still be
spawned, or given up; one that has been given up may be cancelled by an escalation that has
looked at it before. -/
inductive Phase.Step : Phase → Phase → Prop
  | reserve : Step .absent (.unspawned .reserving)
  | giveUp {s : Status} (hs : s = .reserving ∨ s = .cancelled) :
      Step (.unspawned s) (.unspawned .failed)
  | cancel (s : Status) : Step (.unspawned s) (.unspawned .cancelled)
  | activate {s : Status} (hs : s = .reserving ∨ s = .cancelled) (x : String) :
      Step (.unspawned s) (.spawned x .pending)
  | report (x : String) (s : Status) {s' : Status} (hr : s' ≠ .reserving) (hb : s' ≠ .blocked) :
      Step (.spawned x s) (.spawned x s')

/-- The statuses that go with a phase. -/
def Phase.Legal : Phase → Prop
  | absent => True
  | unspawned s => s = .reserving ∨ s = .failed ∨ s = .cancelled
  | spawned _ s => s ≠ .reserving ∧ s ≠ .blocked

theorem Phase.Step.legal {p q : Phase} (h : p.Step q) : q.Legal := by
  cases h with
  | reserve => exact Or.inl rfl
  | giveUp => exact Or.inr (Or.inl rfl)
  | cancel => exact Or.inr (Or.inr rfl)
  | activate => exact ⟨by decide, by decide⟩
  | report _ _ hr hb => exact ⟨hr, hb⟩

theorem Phase.legal_of_path {p q : Phase} (h : ReflTransGen Phase.Step p q) (hp : p.Legal) :
    q.Legal := by
  rcases ReflTransGen.cases_tail h with rfl | ⟨r, -, hstep⟩
  · exact hp
  · exact hstep.legal

/-- **A session is for life**: no path leads back, or on to another session. -/
theorem Phase.spawned_of_path {x : String} {s : Status} {q : Phase}
    (h : ReflTransGen Phase.Step (.spawned x s) q) : ∃ s', q = .spawned x s' := by
  induction h with
  | refl => exact ⟨s, rfl⟩
  | tail _ hstep ih =>
    obtain ⟨s', rfl⟩ := ih
    cases hstep with
    | report _ _ _ _ => exact ⟨_, rfl⟩

/-- Nothing that has been reserved is forgotten, and nothing is reserved again. -/
theorem Phase.ne_of_path {p q : Phase} (h : ReflTransGen Phase.Step p q) (hp : p ≠ .absent) :
    q ≠ .absent ∧ (q = .unspawned .reserving → p = .unspawned .reserving) := by
  induction h with
  | refl => exact ⟨hp, id⟩
  | tail _ hstep ih =>
    cases hstep with
    | reserve => exact absurd rfl ih.1
    | _ => exact ⟨by simp, by simp⟩

/-! ## Read from the table -/

def SessionRow.phase (r : SessionRow) : Phase :=
  match r.devinSessionId with
  | none => .unspawned r.status
  | some x => .spawned x r.status

namespace World

/-- The phase of the row with a primary key. -/
def phase (pk : ℕ) (w : World) : Phase :=
  match w.sessions.get pk with
  | none => .absent
  | some r => r.phase

variable {w : World} {pk : ℕ}

theorem phase_of_get {r : SessionRow} (hr : w.sessions.get pk = some r) : w.phase pk = r.phase := by
  rw [phase, hr]

theorem phase_of_mem {r : SessionRow} (hr : r ∈ w.sessions.rows) : w.phase r.id = r.phase :=
  phase_of_get (w.sessions.get_eq_some.2 ⟨hr, rfl⟩)

theorem phase_congr {w' : World} (h : w'.sessions.get pk = w.sessions.get pk) :
    w'.phase pk = w.phase pk := by
  rw [phase, h, phase]

end World

end Remediation
