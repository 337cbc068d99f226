import Remediation.Lib.Regex
import Remediation.Lib.Text
import Remediation.Spec.Sessions

/-!
# Starting up

The part of `init_db` that writes to rows: `_backfill_missing_work_keys`
(`app/db/connection.py`) gives a work key to every row that has none. Each UPDATE
commits on its own, so that a crash may leave any prefix of them behind. The statements
around it, and tables of earlier schemas, are in `Migration`.
-/

namespace Remediation

open Interaction PyText Regex

/-- The zeros of Unicode's runs of decimal digits, which are what `\d` matches. -/
def decimalZeros : List ℕ :=
  [0x30, 0x660, 0x6F0, 0x7C0, 0x966, 0x9E6, 0xA66, 0xAE6, 0xB66, 0xBE6, 0xC66, 0xCE6, 0xD66, 0xDE6,
    0xE50, 0xED0, 0xF20, 0x1040, 0x1090, 0x17E0, 0x1810, 0x1946, 0x19D0, 0x1A80, 0x1A90, 0x1B50,
    0x1BB0, 0x1C40, 0x1C50, 0xA620, 0xA8D0, 0xA900, 0xA9D0, 0xA9F0, 0xAA50, 0xABF0, 0xFF10, 0x104A0,
    0x10D30, 0x11066, 0x110F0, 0x11136, 0x111D0, 0x112F0, 0x11450, 0x114D0, 0x11650, 0x116C0, 0x11730,
    0x118E0, 0x11950, 0x11C50, 0x11D50, 0x11DA0, 0x11F50, 0x16A60, 0x16AC0, 0x16B50, 0x1D7CE, 0x1D7D8,
    0x1D7E2, 0x1D7EC, 0x1D7F6, 0x1E140, 0x1E2F0, 0x1E4F0, 0x1E950, 0x1FBF0]

/-- The value of a decimal digit. -/
def digitValue (c : Char) : Option ℕ :=
  (decimalZeros.find? fun z => z ≤ c.toNat && c.toNat < z + 10).map fun z => c.toNat - z

/-- `int(s)` for a string of decimal digits. -/
def intOfDigits (s : List Char) : ℤ :=
  s.foldl (fun n c => 10 * n + ((digitValue c).getD 0 : ℤ)) 0

/-- `github\.com/([^/]+/[^/]+)/issues/(\d+)` -/
def issueUrlPattern : List Item :=
  lit "github.com/".toList ++ .opn :: .rep (· != '/') 1 true :: .chr (· == '/') ::
    .rep (· != '/') 1 true :: .cls :: (lit "/issues/".toList ++
      [.opn, .rep (fun c => (digitValue c).isSome) 1 true, .cls])

/-- The key of a row before collisions are looked at. -/
def canonicalKey (id : ℕ) (triggerRef : String) (issueNumber : Option ℤ) (label : Option String) :
    String :=
  match search issueUrlPattern triggerRef.toList, truthy label with
  | some [repo, number], some label =>
    makeWorkKey (String.ofList repo) (issueNumber.getD (intOfDigits number)) label
  | _, _ => s!"legacy:{id}"

/-- The key given to a row whose canonical key may be taken. -/
def backfilledKey (existing : List String) (r : SessionRow) : String :=
  let canonical := canonicalKey r.id r.triggerRef r.issueNumber r.label
  if existing.contains canonical then s!"{canonical}:dup:{r.id}" else canonical

/-- The UPDATE statements of the migration, as row ids with their new keys. -/
def backfill : List String → List SessionRow → List (ℕ × String)
  | _, [] => []
  | existing, r :: rs =>
    (r.id, backfilledKey existing r) :: backfill (backfilledKey existing r :: existing) rs

def SessionRow.setWorkKey (k : String) (r : SessionRow) : SessionRow := { r with workKey := k }

/-- Run UPDATE statements until one breaks the unique index, which ends the start-up. -/
def Sessions.rekeyAll (t : Sessions) : List (ℕ × String) → Sessions
  | [] => t
  | (i, k) :: ups =>
    match t.rekey i k SessionRow.setWorkKey (fun _ _ => rfl) with
    | some t' => Sessions.rekeyAll t' ups
    -- uncaught: what has been committed stays
    | none => t

/-- `_backfill_missing_work_keys`, killed after `n` UPDATE statements. -/
def backfillMissingWorkKeys (n : ℕ) (t : Sessions) : Sessions :=
  let missing := (t.rows.filter fun r => r.workKey = "").insertionSort fun r s => r.id ≤ s.id
  let existing := (t.rows.filter fun r => r.workKey ≠ "").map (·.workKey)
  t.rekeyAll ((backfill existing missing).take n)

/-! ## What starting up leaves alone -/

/-- The ids of the statements are those of rows without a key. -/
theorem mem_backfill {existing : List String} {rs : List SessionRow} {i : ℕ} {k : String}
    (h : (i, k) ∈ backfill existing rs) : ∃ r ∈ rs, r.id = i := by
  induction rs generalizing existing with
  | nil => simp [backfill] at h
  | cons r rs ih =>
    rw [backfill, List.mem_cons] at h
    rcases h with h | h
    · exact ⟨r, List.mem_cons_self, (Prod.mk.inj h).1.symm⟩
    · obtain ⟨s, hs, he⟩ := ih h
      exact ⟨s, List.mem_cons_of_mem _ hs, he⟩

theorem map_rekeyAll {β : Type} (g : SessionRow → β) (hg : ∀ k r, g (r.setWorkKey k) = g r)
    (t : Sessions) (ups : List (ℕ × String)) : (t.rekeyAll ups).rows.map g = t.rows.map g := by
  induction ups generalizing t with
  | nil => rfl
  | cons u ups ih =>
    simp only [Sessions.rekeyAll]
    cases hk : t.rekey u.1 u.2 SessionRow.setWorkKey (fun _ _ => rfl) with
    | none => rfl
    | some t' => rw [ih, (Table.rekey_eq_some hk).1, Table.map_update g _ _ _ (hg u.2)]

/-- **Starting up changes no column but `work_key`.** -/
theorem map_backfillMissingWorkKeys {β : Type} (g : SessionRow → β)
    (hg : ∀ k r, g (r.setWorkKey k) = g r) (n : ℕ) (t : Sessions) :
    (backfillMissingWorkKeys n t).rows.map g = t.rows.map g :=
  map_rekeyAll g hg t _

/-- A row that no statement names is still there afterwards. -/
theorem mem_rekeyAll {t : Sessions} {ups : List (ℕ × String)} {r : SessionRow} (hr : r ∈ t.rows)
    (hno : ∀ u ∈ ups, u.1 ≠ r.id) : r ∈ (t.rekeyAll ups).rows := by
  induction ups generalizing t with
  | nil => exact hr
  | cons u ups ih =>
    obtain ⟨i, k⟩ := u
    simp only [Sessions.rekeyAll]
    cases hk : t.rekey i k SessionRow.setWorkKey (fun _ _ => rfl) with
    | none => exact hr
    | some t' =>
      refine ih ?_ fun v hv => hno v (List.mem_cons_of_mem _ hv)
      rw [(Table.rekey_eq_some hk).1]
      have hne : r.id ≠ i := fun he => hno (i, k) List.mem_cons_self he.symm
      exact List.mem_map.2 ⟨r, hr, by simp [hne]⟩

/-- **Starting up never touches a row that has a key.** -/
theorem mem_backfillMissingWorkKeys {t : Sessions} {r : SessionRow} (n : ℕ) (hr : r ∈ t.rows)
    (hk : r.workKey ≠ "") : r ∈ (backfillMissingWorkKeys n t).rows := by
  refine mem_rekeyAll hr ?_
  intro u hu he
  obtain ⟨s, hs, hi⟩ := mem_backfill (List.mem_of_mem_take hu)
  have hs' : s ∈ t.rows ∧ s.workKey = "" := by simpa using hs
  exact hk (t.eq_of_id hs'.1 hr (hi.trans he) ▸ hs'.2)

end Remediation
