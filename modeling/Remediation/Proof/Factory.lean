import Remediation.Spec.Factory

/-!
# One client for all callers

However many threads ask for a client at the same time, one is made, and everybody gets that one.
Where the settings do not allow for a client, nobody does: every caller is told why, and none waits
for ever (`one_client`).
-/

namespace Remediation

open Once

variable {httpx : Httpx} {C : Credentials} {g : Singleton} {s : Singleton.Process}

theorem make_ok {n m : ℕ} {config : ClientConfig} (h : g.make httpx C n = .ok (m, config)) :
    g.config httpx C = .ok config := by
  unfold Singleton.make at h
  cases hc : g.config httpx C with
  | error exc =>
    rw [hc] at h
    cases h
  | ok config' =>
    rw [hc] at h
    cases h
    rfl

theorem make_error {n : ℕ} {exc : Exc} (h : g.make httpx C n = .error exc) :
    g.config httpx C = .error exc := by
  unfold Singleton.make at h
  cases hc : g.config httpx C with
  | error exc' =>
    rw [hc] at h
    cases h
    rfl
  | ok config =>
    rw [hc] at h
    cases h

/-- **One client.** Wherever any number of callers has got to: one client at most has been made,
every caller that has returned has it, and it is made of the settings; every caller that has failed
has raised what the settings give rise to. Without further callers, each schedule ends after six
moves for each of them at the latest, and where none can move all have finished. -/
theorem one_client (hr : g.Reach httpx C s) :
    s.built.length ≤ 1 ∧
      (∀ v, .returned v ∈ s.callers → ∃ n config, v = some (n, config) ∧ s.built = [(n, config)] ∧
        g.config httpx C = .ok config) ∧
      (∀ exc, .raised exc ∈ s.callers → g.config httpx C = .error exc) ∧
      ∀ moves s', s.run (g.make httpx C) moves = some s' → moves.length ≤ 6 * s.callers.length ∧
        ((∀ i, s'.step (g.make httpx C) i = none) → ∀ pc ∈ s'.callers, pc.finished = true) := by
  have hg : Good (g.make httpx C) s := good_reach hr
  refine ⟨?_, ?_, ?_, ?_⟩
  · rw [hg.once]
    cases s.cell <;> simp
  · intro v hv
    obtain ⟨rfl, hsome⟩ := hg.knows _ hv
    obtain ⟨⟨n, config⟩, hcell⟩ := Option.isSome_iff_exists.1 hsome
    obtain ⟨m, hm⟩ := hg.made (n, config) hcell
    refine ⟨n, config, hcell, ?_, make_ok hm⟩
    rw [hg.once, hcell]
    rfl
  · intro exc hexc
    obtain ⟨n, hn⟩ := hg.knows _ hexc
    exact make_error hn
  · intro moves s' hrun
    have hle := moves_le hrun
    have htotal := left_le s
    refine ⟨by omega, ?_⟩
    intro hstuck pc hpc
    by_contra hfin
    have hfin' : pc.finished = false := by simpa using hfin
    obtain ⟨i, s'', hmove⟩ := can_move (good_reach (reach_run hr hrun)) ⟨pc, hpc, hfin'⟩
    rw [hstuck i] at hmove
    cases hmove

def validCredentials : Credentials := { devinApiKey := "cog_1", devinOrgId := "org-1" }

/-- Two callers find the cell empty; the second waits for the lock until the client is there. -/
def bothWaiting : List ℕ := [0, 1, 0, 0, 0, 0, 1, 1, 1, 0, 1]

theorem one_client_of_two : ∃ (s : Singleton.Process) (v : ℕ × ClientConfig),
    State.run (Singleton.devin.make (fun _ => .ok ()) validCredentials) (State.call (State.call {}))
      bothWaiting = some s ∧ s.callers = [.returned (some v), .returned (some v)] ∧
      s.built.length ≤ 1 := by
  have hr : Singleton.devin.Reach (fun _ => .ok ()) validCredentials (State.call (State.call {})) :=
    (Relation.ReflTransGen.single (.call _)).tail (.call _)
  have hrun : State.run (Singleton.devin.make (fun _ => .ok ()) validCredentials)
      (State.call (State.call {})) bothWaiting = some _ := rfl
  exact ⟨_, _, hrun, rfl, (one_client (reach_run hr hrun)).1⟩

end Remediation
