import Mathlib.Data.List.Basic

/-!
# Bytes that may be UTF-8

`bytes.decode("utf-8", errors="replace")`. A sequence that begins a character and then goes wrong,
or that ends too early, is replaced as a whole, and so is a byte that begins no character; what goes
wrong is looked at again. Text is read back (`decodeUtf8_encode`).
-/

namespace PyText

/-- A character whose first bytes have been read: how many there are after the next one, the bounds
of the next one, and the value so far. -/
structure Begun where
  left : ℕ
  low : ℕ
  high : ℕ
  value : ℕ

/-- What a byte from 128 on begins. The bounds of the byte after it leave out the encodings that are
longer than need be, surrogates, and values that are too large. -/
def begins (b : ℕ) : Option Begun :=
  if 0xC2 ≤ b ∧ b ≤ 0xDF then some ⟨0, 0x80, 0xBF, b - 0xC0⟩
  else if b = 0xE0 then some ⟨1, 0xA0, 0xBF, 0⟩
  else if b = 0xED then some ⟨1, 0x80, 0x9F, 0xD⟩
  else if 0xE1 ≤ b ∧ b ≤ 0xEF then some ⟨1, 0x80, 0xBF, b - 0xE0⟩
  else if b = 0xF0 then some ⟨2, 0x90, 0xBF, 0⟩
  else if b = 0xF4 then some ⟨2, 0x80, 0x8F, 4⟩
  else if 0xF1 ≤ b ∧ b ≤ 0xF3 then some ⟨2, 0x80, 0xBF, b - 0xF0⟩
  else none

def replacement : Char := '\uFFFD'

/-- The rest of the bytes, where a character may have been begun. -/
def decodeFrom : Option Begun → List UInt8 → List Char
  | none, [] => []
  | some _, [] => [replacement]
  | begun, b :: bs =>
    let fresh : List Char :=
      if b.toNat < 0x80 then Char.ofNat b.toNat :: decodeFrom none bs
      else
        match begins b.toNat with
        | none => replacement :: decodeFrom none bs
        | some p => decodeFrom (some p) bs
    match begun with
    | none => fresh
    | some p =>
      if p.low ≤ b.toNat ∧ b.toNat ≤ p.high then
        let value := 64 * p.value + (b.toNat - 0x80)
        match p.left with
        | 0 => Char.ofNat value :: decodeFrom none bs
        | left + 1 => decodeFrom (some ⟨left, 0x80, 0xBF, value⟩) bs
      else replacement :: fresh

/-- `bytes.decode("utf-8", errors="replace")` -/
def decodeUtf8 (bytes : List UInt8) : List Char := decodeFrom none bytes

section Steps

variable {b : UInt8} {bs : List UInt8} {n v : ℕ} {p : Begun}

theorem decodeFrom_ascii (hb : b.toNat < 0x80) :
    decodeFrom none (b :: bs) = Char.ofNat b.toNat :: decodeFrom none bs := by
  rw [decodeFrom]
  exact if_pos hb

theorem decodeFrom_begin (hb : 0x80 ≤ b.toNat) (hp : begins b.toNat = some p) :
    decodeFrom none (b :: bs) = decodeFrom (some p) bs := by
  rw [decodeFrom, if_neg (by omega), hp]

/-- The next byte of a character. -/
theorem decodeFrom_next (hlow : p.low ≤ b.toNat) (hhigh : b.toNat ≤ p.high)
    (hv : v = 64 * p.value + (b.toNat - 0x80)) (hleft : p.left = n + 1) :
    decodeFrom (some p) (b :: bs) = decodeFrom (some ⟨n, 0x80, 0xBF, v⟩) bs := by
  rw [decodeFrom]
  dsimp only
  rw [if_pos ⟨hlow, hhigh⟩, hleft, hv]

/-- And the last one. -/
theorem decodeFrom_last (hlow : p.low ≤ b.toNat) (hhigh : b.toNat ≤ p.high)
    (hv : v = 64 * p.value + (b.toNat - 0x80)) (hleft : p.left = 0) :
    decodeFrom (some p) (b :: bs) = Char.ofNat v :: decodeFrom none bs := by
  rw [decodeFrom]
  dsimp only
  rw [if_pos ⟨hlow, hhigh⟩, hleft, hv]

end Steps

/-! ## Text is read back -/

/-- A first byte, with one that may follow it. -/
def Leads (b b' left value : ℕ) : Prop :=
  ∃ p, begins b = some p ∧ p.left = left ∧ p.value = value ∧ p.low ≤ b' ∧ b' ≤ p.high

theorem leads_two {v : ℕ} (hlow : 0x80 ≤ v) (hhigh : v < 0x800) :
    Leads (v / 64 + 0xC0) (v % 64 + 0x80) 0 (v / 64) := by
  have hvalue : v / 64 + 0xC0 - 0xC0 = v / 64 := by omega
  refine ⟨⟨0, 0x80, 0xBF, v / 64⟩, ?_, rfl, rfl, ?_, ?_⟩
  · rw [begins, if_pos (by omega), hvalue]
  · dsimp only
    omega
  · dsimp only
    omega

/-- Surrogates are no characters. -/
theorem leads_three {v : ℕ} (hlow : 0x800 ≤ v) (hhigh : v < 0x10000)
    (hvalid : v < 0xD800 ∨ 0xDFFF < v) :
    Leads (v / 4096 + 0xE0) (v / 64 % 64 + 0x80) 1 (v / 4096) := by
  have hvalue : v / 4096 + 0xE0 - 0xE0 = v / 4096 := by omega
  unfold Leads begins
  rw [if_neg (by omega)]
  by_cases h0 : v / 4096 = 0
  · refine ⟨⟨1, 0xA0, 0xBF, 0⟩, ?_, rfl, h0.symm, ?_, ?_⟩
    · rw [h0, if_pos rfl]
    · dsimp only
      omega
    · dsimp only
      omega
  rw [if_neg (by omega)]
  by_cases h13 : v / 4096 = 13
  · refine ⟨⟨1, 0x80, 0x9F, 0xD⟩, ?_, rfl, h13.symm, ?_, ?_⟩
    · rw [h13, if_pos rfl]
    · dsimp only
      omega
    · dsimp only
      omega
  refine ⟨⟨1, 0x80, 0xBF, v / 4096⟩, ?_, rfl, rfl, ?_, ?_⟩
  · rw [if_neg (by omega), if_pos (by omega), hvalue]
  · dsimp only
    omega
  · dsimp only
    omega

theorem leads_four {v : ℕ} (hlow : 0x10000 ≤ v) (hhigh : v < 0x110000) :
    Leads (v / 262144 + 0xF0) (v / 4096 % 64 + 0x80) 2 (v / 262144) := by
  have hvalue : v / 262144 + 0xF0 - 0xF0 = v / 262144 := by omega
  unfold Leads begins
  rw [if_neg (by omega), if_neg (by omega), if_neg (by omega), if_neg (by omega)]
  by_cases h0 : v / 262144 = 0
  · refine ⟨⟨2, 0x90, 0xBF, 0⟩, ?_, rfl, h0.symm, ?_, ?_⟩
    · rw [h0, if_pos rfl]
    · dsimp only
      omega
    · dsimp only
      omega
  rw [if_neg (by omega)]
  by_cases h4 : v / 262144 = 4
  · refine ⟨⟨2, 0x80, 0x8F, 4⟩, ?_, rfl, h4.symm, ?_, ?_⟩
    · rw [h4, if_pos rfl]
    · dsimp only
      omega
    · dsimp only
      omega
  refine ⟨⟨2, 0x80, 0xBF, v / 262144⟩, ?_, rfl, rfl, ?_, ?_⟩
  · rw [if_neg (by omega), if_pos (by omega), hvalue]
  · dsimp only
    omega
  · dsimp only
    omega

/-- **A character.** -/
theorem decodeFrom_char (c : Char) (bs : List UInt8) :
    decodeFrom none (String.utf8EncodeChar c ++ bs) = c :: decodeFrom none bs := by
  obtain ⟨v, hv⟩ : ∃ v, v = c.val.toNat := ⟨_, rfl⟩
  have hc : Char.ofNat v = c := by rw [hv]; exact Char.ofNat_toNat c
  have hvalid : v < 0xD800 ∨ 0xDFFF < v ∧ v < 0x110000 := hv ▸ c.valid
  have hbyte : ∀ n < 256, (UInt8.ofNat n).toNat = n := fun n hn => by
    rw [UInt8.toNat_ofNat', Nat.mod_eq_of_lt hn]
  unfold String.utf8EncodeChar
  dsimp only
  rw [← hv]
  split
  · rename_i h
    have h0 := hbyte v (by omega)
    rw [List.singleton_append, decodeFrom_ascii (by omega), h0, hc]
  have h1 := hbyte (v % 0x40 + 0x80) (by omega)
  split
  · rename_i hlow hhigh
    rw [Nat.mod_eq_of_lt (show v / 64 < 0x20 by omega)]
    have h0 := hbyte (v / 64 + 0xc0) (by omega)
    obtain ⟨p, hbegin, hleft, hvalue, hl, hh⟩ := leads_two (by omega) (show v < 0x800 by omega)
    simp only [List.cons_append, List.nil_append]
    rw [decodeFrom_begin (by omega) (h0 ▸ hbegin),
      decodeFrom_last (v := v) (by omega) (by omega) (by rw [hvalue, h1]; omega) hleft, hc]
  have h2 := hbyte (v / 64 % 0x40 + 0x80) (by omega)
  split
  · rename_i hlow hhigh
    rw [Nat.mod_eq_of_lt (show v / 4096 < 0x10 by omega)]
    have h0 := hbyte (v / 4096 + 0xe0) (by omega)
    obtain ⟨p, hbegin, hleft, hvalue, hl, hh⟩ :=
      leads_three (by omega) (show v < 0x10000 by omega) (by omega)
    simp only [List.cons_append, List.nil_append]
    rw [decodeFrom_begin (by omega) (h0 ▸ hbegin),
      decodeFrom_next (v := v / 64) (by omega) (by omega) (by rw [hvalue, h2]; omega) hleft,
      decodeFrom_last (v := v) (by dsimp only; omega) (by dsimp only; omega)
        (by dsimp only; omega) rfl, hc]
  · rename_i hlow
    rw [Nat.mod_eq_of_lt (show v / 262144 < 0x08 by omega)]
    have h0 := hbyte (v / 262144 + 0xf0) (by omega)
    have h3 := hbyte (v / 4096 % 0x40 + 0x80) (by omega)
    obtain ⟨p, hbegin, hleft, hvalue, hl, hh⟩ :=
      leads_four (by omega) (show v < 0x110000 by omega)
    simp only [List.cons_append, List.nil_append]
    rw [decodeFrom_begin (by omega) (h0 ▸ hbegin),
      decodeFrom_next (v := v / 4096) (by omega) (by omega) (by rw [hvalue, h3]; omega) hleft,
      decodeFrom_next (v := v / 64) (by dsimp only; omega) (by dsimp only; omega)
        (by dsimp only; omega) rfl,
      decodeFrom_last (v := v) (by dsimp only; omega) (by dsimp only; omega)
        (by dsimp only; omega) rfl, hc]

theorem decodeFrom_chars (cs : List Char) :
    decodeFrom none (cs.flatMap String.utf8EncodeChar) = cs := by
  induction cs with
  | nil => rfl
  | cons c cs ih => rw [List.flatMap_cons, decodeFrom_char, ih]

/-- **Text is read back.** -/
theorem decodeUtf8_encode (s : String) : decodeUtf8 s.toUTF8.data.toList = s.toList := by
  have hbytes : s.toUTF8.data.toList = s.toList.flatMap String.utf8EncodeChar := by
    rw [String.toUTF8_eq_toByteArray, ← String.utf8Encode_toList, List.utf8Encode,
      List.toList_data_toByteArray]
  rw [decodeUtf8, hbytes, decodeFrom_chars]

end PyText
