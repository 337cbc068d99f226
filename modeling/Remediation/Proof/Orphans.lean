import Remediation.Proof.Remote

/-!
# Orphaned sessions

The reservation is there so that a paid session never goes without a row. But the
transport below it sends a POST again when it has seen no good response, whatever Devin
did with the first one. A task leaves every session that it creates in a row exactly when
none of its POSTs is lost (`all_stored_iff`).
-/

namespace Remediation

open Interaction Prog

/-- Every session that Devin has created between `w` and `w'` is stored in a row of `w'`. -/
def AllStored (w w' : World) : Prop :=
  ∃ new, w'.remote = new ++ w.remote ∧ ∀ p ∈ new, w'.Stored p.2

/-- Inside a task that has begun in `w₀`: what has been created is stored or just returned. -/
def Accounted (w₀ : World) (h : Hist) (w : World) : Prop :=
  ∃ new, w.remote = new ++ w₀.remote ∧ ∀ p ∈ new, w.Stored p.2 ∨ Returned h p.2

/-- Something that has been created is neither. -/
def Orphaned (w₀ : World) (h : Hist) (w : World) : Prop :=
  ∃ new, w.remote = new ++ w₀.remote ∧ ∃ p ∈ new, ¬w.Stored p.2 ∧ ¬Returned h p.2

variable {env : Outside} {S : Settings} {w w₀ : World} {h : Hist} {op : Op}

theorem accounted_step (hJ : Accounted w₀ h w) (hC : Current h w) (hp : Permits S h op)
    (hD : NamesSessions env h w op (exec env op w).1) (hR : NoneLost env h w op (exec env op w).1) :
    Accounted w₀ (⟨op, (exec env op w).1⟩ :: h) (exec env op w).2 := by
  obtain ⟨new, hnew, hall⟩ := hJ
  refine ⟨w.spawned env op ++ new, by rw [exec_remote, hnew, List.append_assoc], ?_⟩
  intro p hmem
  rcases List.mem_append.1 hmem with hmem | hmem
  · exact Or.inr (returned_of_spawned hp hD hR hmem)
  refine Or.inl ?_
  rcases hall p hmem with hs | hr
  · exact stored_exec hp hC hs
  · obtain ⟨r, hr, hx, -⟩ := returned_exec env hp hC hr
    exact ⟨r, hr, hx⟩

/-- A lost POST leaves an orphan. -/
theorem orphaned_of_lost (hJ : Accounted w₀ h w)
    (hD : NamesSessions env h w op (exec env op w).1) (hR : ¬NoneLost env h w op (exec env op w).1) :
    Orphaned w₀ (⟨op, (exec env op w).1⟩ :: h) (exec env op w).2 := by
  obtain ⟨new, hnew, -⟩ := hJ
  obtain ⟨p, hp, hr⟩ := spawned_of_lost hD hR
  refine ⟨w.spawned env op ++ new, by rw [exec_remote, hnew, List.append_assoc], p,
    List.mem_append_left _ hp, ?_, hr⟩
  rintro ⟨r, hmem, hx⟩
  obtain ⟨key, req, rfl, -⟩ := of_mem_spawned hp
  exact (new_of_mem_spawned hD hp).2.2 r hmem hx

/-- An orphan remains one: no session that is returned later is the same. -/
theorem orphaned_step (hK : Orphaned w₀ h w) (hp : Permits S h op)
    (hD : NamesSessions env h w op (exec env op w).1) :
    Orphaned w₀ (⟨op, (exec env op w).1⟩ :: h) (exec env op w).2 := by
  obtain ⟨new, hnew, p, hmem, hs, hr⟩ := hK
  refine ⟨w.spawned env op ++ new, by rw [exec_remote, hnew, List.append_assoc], p,
    List.mem_append_right _ hmem, not_stored_exec hp hs hr, ?_⟩
  intro hr'
  have hold : p ∈ w.remote := hnew ▸ List.mem_append_left _ hmem
  exact new_of_returned hD hr' p hold rfl

/-- **No orphan exactly where no POST is lost.** A task that runs alone ends with every
session it has created at Devin stored in a row, if and only if the client learns of every
session that the POSTs of the task create. -/
theorem all_stored_iff (w : World) (task : Task)
    (hD : (task.prog S).Along (exec env) (NamesSessions env) [] w) :
    AllStored w (w.after env S task) ↔ (task.prog S).Along (exec env) (NoneLost env) [] w := by
  have hstart : Accounted w [] w ∧ Current [] w :=
    ⟨⟨[], rfl, fun p hp => by cases hp⟩, Current.nil w⟩
  constructor
  · rintro ⟨new, hnew, hall⟩
    by_contra hlost
    -- the first POST that is lost leaves an orphan, which stays one
    obtain ⟨-, ⟨new', hnew', p, hmem, hs, -⟩, -⟩ := eval_inv_break (C := contract S)
      (J := fun h w' => Accounted w h w' ∧ Current h w') (K := Orphaned w)
      (fun _ w op _ => exec_honest env op w)
      (fun _ _ op hJ hp hd hr => ⟨accounted_step hJ.1 hJ.2 hp hd hr, hJ.2.step op⟩)
      (fun _ _ _ hJ _ hd hr => orphaned_of_lost hJ.1 hd hr)
      (fun _ _ _ hK hp hd => orphaned_step hK hp hd) (task.prog S) (keeps_task task) hstart hD hlost
    obtain rfl : new = new' := List.append_cancel_right (hnew.symm.trans hnew')
    exact hs (hall p hmem)
  · intro hR
    obtain ⟨h, ⟨⟨new, hnew, hall⟩, -⟩, hQ⟩ := eval_inv (C := contract S)
      (J := fun h w' => Accounted w h w' ∧ Current h w')
      (fun _ w op _ _ => exec_honest env op w)
      (fun _ _ op hJ hp hr => ⟨accounted_step hJ.1 hJ.2 hp hr.1 hr.2, hJ.2.step op⟩)
      (task.prog S) (keeps_task task) hstart (hD.and hR)
    refine ⟨new, hnew, ?_⟩
    intro p hmem
    rcases hall p hmem with hs | ⟨pk, created, hj, -⟩
    · exact hs
    · -- the task has ended, so nothing is waiting to be stored
      rw [(show Idle h from hQ).2] at hj
      cases hj

/-! ## A response that is lost -/

namespace Retry

/-- Devin processes every POST, and names the session after it. The first response of a
call is the given one, and all others are good. -/
def outside (first : String → HttpOutcome (Except Exc SessionCreated)) : Outside :=
  { Outside.calm with
    posts := fun n _ i =>
      let x := s!"devin-{n}-{i}"
      { processed := some x
        seen := if i = 0 then first x else .response { statusCode := 200, body := .ok ⟨x, ""⟩ } } }

/-- The response is good at once. -/
def answered : Outside := outside fun x => .response { statusCode := 200, body := .ok ⟨x, ""⟩ }

theorem issue_leaves_no_orphan :
    AllStored (.initial 0) ((World.initial 0).after answered {} (.securityIssue (.sample 1))) := by
  have hD : ((Task.securityIssue (.sample 1)).prog {}).Along (exec answered) (NamesSessions answered)
      [] (.initial 0) := by decide +kernel
  have hR : ((Task.securityIssue (.sample 1)).prog {}).Along (exec answered) (NoneLost answered)
      [] (.initial 0) := by decide +kernel
  exact (all_stored_iff (.initial 0) (.securityIssue (.sample 1)) hD).2 hR

/-- The session is created, but what answers is a gateway's 502. -/
def lost : Outside :=
  outside fun _ => .response { statusCode := 502, body := .error ⟨"JSONDecodeError", ""⟩ }

/-- **The retry leaves an orphan**: two sessions at Devin, and a row for the second one. -/
theorem retry_leaves_orphan :
    ¬AllStored (.initial 0) ((World.initial 0).after lost {} (.securityIssue (.sample 1))) := by
  rintro ⟨new, hnew, hall⟩
  have hremote : (securityWorkKey {} (.sample 1), "devin-4-0") ∈
      ((World.initial 0).after lost {} (.securityIssue (.sample 1))).remote := by decide +kernel
  have hrows : ∀ r ∈ ((World.initial 0).after lost {} (.securityIssue (.sample 1))).sessions.rows,
      r.devinSessionId = some "devin-4-1" := by decide +kernel
  rw [hnew] at hremote
  obtain ⟨r, hr, hx⟩ := hall _ ((List.mem_append.1 hremote).resolve_right (fun h => nomatch h))
  rw [hrows r hr] at hx
  exact absurd hx (by decide)

end Retry

end Remediation
