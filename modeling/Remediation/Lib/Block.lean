import Mathlib.Data.List.Infix
import Mathlib.Tactic.Common

/-!
# Delimited blocks

A text is cut at the first occurrence of a word (`cut`); the block between a first delimiter and
the first closing one after it is all but what `outside` returns. A letter that a word does not
have separates what comes before it from what comes after it, as far as that word is concerned
(`cut_sep`). `outside_fill`: if a block is filled in between two such letters, what is outside
depends on what follows the first closing delimiter in the filling.
-/

namespace Block

variable {α : Type} [DecidableEq α]

/-- What comes before the first occurrence of a word, and what comes after it. -/
def cut (d : List α) : List α → Option (List α × List α)
  | [] => if d = [] then some ([], []) else none
  | x :: xs =>
    if d <+: x :: xs then some ([], (x :: xs).drop d.length)
    else (cut d xs).map fun (before, after) => (x :: before, after)

/-- The text outside the first block: before its opening delimiter, and after its closing one. -/
def outside (o c s : List α) : Option (List α × List α) :=
  (cut o s).bind fun (before, rest) => (cut c rest).map fun (_, after) => (before, after)

variable {d : List α}

theorem cut_at_start {s : List α} (h : d <+: s) : cut d s = some ([], s.drop d.length) := by
  cases s with
  | nil =>
    rw [List.prefix_nil.1 h]
    rfl
  | cons x xs => rw [cut, if_pos h]

theorem cut_cons {x : α} {xs : List α} (h : ¬d <+: x :: xs) :
    cut d (x :: xs) = (cut d xs).map fun (before, after) => (x :: before, after) := by
  rw [cut, if_neg h]

theorem cut_self (d t : List α) : cut d (d ++ t) = some ([], t) := by
  rw [cut_at_start (List.prefix_append d t), List.drop_left]

/-- The parts are those of the text. -/
theorem eq_of_cut {s before after : List α} (h : cut d s = some (before, after)) :
    s = before ++ d ++ after := by
  induction s generalizing before with
  | nil =>
    rw [cut] at h
    split at h
    · rename_i hd
      cases h
      rw [hd]
      rfl
    · cases h
  | cons x xs ih =>
    by_cases hp : d <+: x :: xs
    · rw [cut_at_start hp] at h
      cases h
      obtain ⟨t, ht⟩ := hp
      rw [← ht, List.drop_left]
      rfl
    · rw [cut_cons hp] at h
      obtain ⟨⟨b, a⟩, hcut, he⟩ := Option.map_eq_some_iff.1 h
      cases he
      rw [ih hcut]
      rfl

/-- A word that occurs is found. -/
theorem cut_isSome {s : List α} (h : d <:+: s) : (cut d s).isSome = true := by
  induction s with
  | nil =>
    rw [List.infix_nil.1 h]
    rfl
  | cons x xs ih =>
    by_cases hp : d <+: x :: xs
    · rw [cut_at_start hp]
      rfl
    · rw [cut_cons hp, Option.isSome_map]
      exact ih ((List.infix_cons_iff.1 h).resolve_left hp)

/-- What follows a text does not change where it is cut. -/
theorem cut_append {s before after : List α} (h : cut d s = some (before, after)) (t : List α) :
    cut d (s ++ t) = some (before, after ++ t) := by
  induction s generalizing before with
  | nil =>
    obtain ⟨hd, rfl⟩ := List.append_eq_nil_iff.1 (eq_of_cut h).symm
    obtain ⟨rfl, rfl⟩ := List.append_eq_nil_iff.1 hd
    exact cut_self [] t
  | cons x xs ih =>
    by_cases hp : d <+: x :: xs
    · rw [cut_at_start hp] at h
      cases h
      obtain ⟨r, hr⟩ := hp
      rw [← hr, List.drop_left, List.append_assoc]
      exact cut_self d _
    · rw [cut_cons hp] at h
      obtain ⟨⟨b, a⟩, hcut, he⟩ := Option.map_eq_some_iff.1 h
      cases he
      -- the word is found in what was there, so that it does not reach into the rest
      have hp' : ¬d <+: x :: (xs ++ t) := by
        intro h'
        refine hp (List.prefix_of_prefix_length_le h' (List.prefix_append (x :: xs) t) ?_)
        have hlen := congrArg List.length (eq_of_cut hcut)
        simp only [List.length_append] at hlen
        simp only [List.length_cons]
        omega
      rw [List.cons_append, cut_cons hp', ih hcut]
      rfl

/-- **A separator.** A word without the letter `n` does not reach across it. -/
theorem cut_sep {n : α} (hn : n ∉ d) {s : List α} (h : cut d s = none) (t : List α) :
    cut d (s ++ n :: t) = (cut d t).map fun (before, after) => (s ++ n :: before, after) := by
  induction s with
  | nil =>
    have hp : ¬d <+: n :: t := by
      rintro ⟨r, hr⟩
      cases d with
      | nil => cases h
      | cons y d => exact hn ((List.cons.inj hr).1 ▸ List.mem_cons_self)
    exact cut_cons hp
  | cons x xs ih =>
    have hp : ¬d <+: x :: xs := fun hp => by
      rw [cut_at_start hp] at h
      cases h
    rw [cut_cons hp, Option.map_eq_none_iff] at h
    have hp' : ¬d <+: x :: (xs ++ n :: t) := by
      intro h'
      rcases List.prefix_or_prefix_of_prefix h' (List.prefix_append (x :: xs) (n :: t)) with hle | hle
      · exact hp hle
      · -- the word would have to be longer, and would have the letter
        obtain ⟨r, rfl⟩ := hle
        rw [← List.cons_append, List.prefix_append_right_inj] at h'
        cases r with
        | nil => exact hp (by rw [List.append_nil])
        | cons y r =>
          rw [(List.cons_prefix_cons.1 h').1] at hn
          exact hn (List.mem_append_right _ List.mem_cons_self)
    rw [List.cons_append, cut_cons hp', ih h, Option.map_map]
    rfl

theorem cut_isSome_iff {s : List α} : (cut d s).isSome = true ↔ d <:+: s := by
  refine ⟨fun h => ?_, cut_isSome⟩
  obtain ⟨⟨before, after⟩, hcut⟩ := Option.isSome_iff_exists.1 h
  exact ⟨before, after, (eq_of_cut hcut).symm⟩

/-- So it occurs on one side. -/
theorem infix_sep {n : α} (hn : n ∉ d) {s t : List α} :
    d <:+: s ++ n :: t ↔ d <:+: s ∨ d <:+: t := by
  have hleft : s <:+: s ++ n :: t := ⟨[], n :: t, rfl⟩
  have hright : t <:+: s ++ n :: t := ⟨s ++ [n], [], by simp⟩
  constructor
  · intro h
    by_cases hs : d <:+: s
    · exact Or.inl hs
    have hnone : cut d s = none := by
      rw [← Option.not_isSome_iff_eq_none, cut_isSome_iff]
      exact hs
    rw [← cut_isSome_iff, cut_sep hn hnone, Option.isSome_map, cut_isSome_iff] at h
    exact Or.inr h
  · rintro (h | h)
    · exact h.trans hleft
    · exact h.trans hright

/-! ## A block that is filled in -/

section Fill

variable {o c : List α} {n : α}

/-- A text with a block between two separators: the opening delimiter comes at the end of `p`. -/
def fill (p c t : List α) (n : α) (s : List α) : List α := p ++ n :: (s ++ n :: (c ++ t))

omit [DecidableEq α] in
theorem infix_fill (p c t : List α) (n : α) (s : List α) : c <:+: fill p c t n s :=
  ⟨p ++ n :: (s ++ [n]), t, by simp [fill]⟩

/-- What comes after the first closing delimiter, in the filling or behind it. -/
def rest (c t : List α) (n : α) (s : List α) : List α :=
  match cut c s with
  | some (_, after) => after ++ n :: (c ++ t)
  | none => t

theorem cut_fill (hc : n ∉ c) (s t : List α) :
    (cut c (s ++ n :: (c ++ t))).map (·.2) = some (rest c t n s) := by
  unfold rest
  cases h : cut c s with
  | some r => rw [cut_append h]; rfl
  | none => rw [cut_sep hc h, cut_self]; rfl

/-- Two fillings have the same rest if the same follows the closing delimiter in them, if anything
does. -/
theorem rest_eq_iff (t s s' : List α) :
    rest c t n s = rest c t n s' ↔ (cut c s).map (·.2) = (cut c s').map (·.2) := by
  -- what is left of a filling makes the rest longer
  have hlonger : ∀ after : List α, after ++ n :: (c ++ t) ≠ t := by
    intro after h
    have := congrArg List.length h
    simp only [List.length_append, List.length_cons] at this
    omega
  unfold rest
  cases cut c s with
  | some r =>
    cases cut c s' with
    | some r' => simp
    | none => exact iff_of_false (hlonger _) nofun
  | none =>
    cases cut c s' with
    | some r' => exact iff_of_false (fun h => hlonger _ h.symm) nofun
    | none => exact iff_of_true rfl rfl

/-- **What is outside.** Where `p` opens a block and closes it again, that one is the first, and
the filling is outside. Otherwise the filling is inside, up to its first closing delimiter. -/
theorem outside_fill (hc : n ∉ c) {p : List α} (hp : o <:+: p) (t : List α) :
    ∃ before, ∀ s, outside o c (fill p c t n s) = some (before,
      match outside o c p with
      | some (_, after) => after ++ n :: (s ++ n :: (c ++ t))
      | none => rest c t n s) := by
  obtain ⟨⟨before, after⟩, hcut⟩ := Option.isSome_iff_exists.1 (cut_isSome hp)
  refine ⟨before, fun s => ?_⟩
  rw [outside, fill, cut_append hcut, outside, hcut]
  simp only [Option.bind_some]
  cases h : cut c after with
  | some r =>
    rw [cut_append h]
    rfl
  | none =>
    have hrest := cut_fill hc s t
    obtain ⟨r, hr, he⟩ := Option.map_eq_some_iff.1 hrest
    rw [cut_sep hc h, hr]
    simp only [Option.map_some, Option.map_none, he]

/-- **When two fillings do not show**: they are the same, or no block is closed before them and
the same follows the first closing delimiter in them, if anything does. -/
theorem outside_fill_eq_iff (hc : n ∉ c) {p : List α} (hp : o <:+: p) (t s s' : List α) :
    outside o c (fill p c t n s) = outside o c (fill p c t n s') ↔
      s = s' ∨ outside o c p = none ∧ (cut c s).map (·.2) = (cut c s').map (·.2) := by
  obtain ⟨before, h⟩ := outside_fill hc hp t
  rw [h, h, Option.some.injEq, Prod.mk.injEq, and_iff_right rfl]
  cases hout : outside o c p with
  | some r => simp
  | none =>
    simp only [rest_eq_iff, true_and]
    exact ⟨Or.inr, fun h => h.elim (fun he => by rw [he]) id⟩

end Fill

end Block
