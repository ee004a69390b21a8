/-
Percent-encoding of bytes.

Letters, digits and `_.-~` stand for themselves, every other byte for `%`
and two hexadecimal digits. Decoding is the usual lenient one: a `%`
without two digits behind it is kept.

`unquote_quote` is the round trip. What encoded text is free of
(`not_mem_quote`) is what makes it safe between delimiters.
-/
import Mathlib.Tactic.TypeStar

namespace Percent

/-- Letters, digits and `_.-~`. -/
def unreserved (b : UInt8) : Bool :=
  (decide (65 ≤ b) && decide (b ≤ 90)) || (decide (97 ≤ b) && decide (b ≤ 122))
    || (decide (48 ≤ b) && decide (b ≤ 57)) || b == 95 || b == 46 || b == 45 || b == 126

/-- The digit `n`, as a capital letter from ten on. -/
def hexDigit (n : Nat) : UInt8 := if n < 10 then .ofNat (48 + n) else .ofNat (55 + n)

/-- What a digit stands for, in either case. -/
def hexValue (b : UInt8) : Option Nat :=
  if 48 ≤ b.toNat ∧ b.toNat ≤ 57 then some (b.toNat - 48)
  else if 65 ≤ b.toNat ∧ b.toNat ≤ 70 then some (b.toNat - 55)
  else if 97 ≤ b.toNat ∧ b.toNat ≤ 102 then some (b.toNat - 87)
  else none

/-- The byte that a `%` and these two digits stand for. -/
def octet (b high low : UInt8) : Option UInt8 :=
  if b = 37 then do
    let h ← hexValue high
    let l ← hexValue low
    some (.ofNat (16 * h + l))
  else none

def quoteByte (b : UInt8) : List UInt8 :=
  if unreserved b then [b] else [37, hexDigit (b.toNat / 16), hexDigit (b.toNat % 16)]

/-- Percent-encoding. -/
def quote (bytes : List UInt8) : List UInt8 := bytes.flatMap quoteByte

/-- Percent-decoding. -/
def unquote : List UInt8 → List UInt8
  | [] => []
  | [b] => [b]
  | [b, b'] => [b, b']
  | b :: high :: low :: rest =>
      match octet b high low with
      | some x => x :: unquote rest
      | none => b :: unquote (high :: low :: rest)

-- ============================================================ the digits

/-- A hex digit has its value. -/
theorem hexValue_hexDigit {n : Nat} (h : n < 16) : hexValue (hexDigit n) = some n := by
  have hall : ∀ m : Fin 16, hexValue (hexDigit m) = some m.val := by decide
  exact hall ⟨n, h⟩

/-- A hex digit is quoted as itself. -/
theorem unreserved_hexDigit {n : Nat} (h : n < 16) : unreserved (hexDigit n) = true := by
  have hall : ∀ m : Fin 16, unreserved (hexDigit m) = true := by decide
  exact hall ⟨n, h⟩

/-- The two digits of a byte stand for it. -/
theorem octet_digits (b : UInt8) :
    octet 37 (hexDigit (b.toNat / 16)) (hexDigit (b.toNat % 16)) = some b := by
  have hlt : b.toNat < 256 := b.toNat_lt
  have hhigh := hexValue_hexDigit (n := b.toNat / 16) (by omega)
  have hlow := hexValue_hexDigit (n := b.toNat % 16) (by omega)
  have hsum : 16 * (b.toNat / 16) + b.toNat % 16 = b.toNat := by omega
  calc octet 37 (hexDigit (b.toNat / 16)) (hexDigit (b.toNat % 16))
      = some (.ofNat (16 * (b.toNat / 16) + b.toNat % 16)) := by
        simp only [octet, hhigh, hlow, if_true, Option.bind_eq_bind, Option.bind_some]
    _ = some b := by rw [hsum, UInt8.ofNat_toNat]

-- ========================================================== the round trip

/-- Any byte but `%` decodes to itself. -/
theorem unquote_cons_of_ne {b : UInt8} (hb : b ≠ 37) (rest : List UInt8) :
    unquote (b :: rest) = b :: unquote rest := by
  have hnone : ∀ high low, octet b high low = none := fun _ _ => if_neg hb
  match rest with
  | [] => rfl
  | [_] => rfl
  | high :: low :: rest => rw [unquote, hnone]

/-- A quoted byte is read back, whatever follows. -/
theorem unquote_quoteByte (b : UInt8) (rest : List UInt8) :
    unquote (quoteByte b ++ rest) = b :: unquote rest := by
  unfold quoteByte
  by_cases hb : unreserved b = true
  · rw [if_pos hb]
    refine unquote_cons_of_ne ?_ rest
    intro heq
    subst heq
    cases hb
  · rw [if_neg hb, List.cons_append, List.cons_append, List.cons_append, List.nil_append,
      unquote, octet_digits]

/-- Decoding undoes encoding. -/
theorem unquote_quote (bytes : List UInt8) : unquote (quote bytes) = bytes := by
  induction bytes with
  | nil => rfl
  | cons b rest ih =>
      show unquote (quoteByte b ++ quote rest) = _
      rw [unquote_quoteByte, ih]

-- ====================================================== what is in the text

/-- Encoded text is made of `%` and of bytes that stand for
themselves. -/
theorem mem_quote {b : UInt8} {bytes : List UInt8} (h : b ∈ quote bytes) :
    unreserved b = true ∨ b = 37 := by
  obtain ⟨x, -, hx⟩ := List.mem_flatMap.mp h
  have hlt : x.toNat < 256 := x.toNat_lt
  unfold quoteByte at hx
  split at hx
  next hu =>
    left
    rw [List.mem_singleton.mp hx]
    exact hu
  next =>
    simp only [List.mem_cons, List.not_mem_nil, or_false] at hx
    rcases hx with rfl | rfl | rfl
    · exact Or.inr rfl
    · exact Or.inl (unreserved_hexDigit (by omega))
    · exact Or.inl (unreserved_hexDigit (by omega))

/-- So no other byte is in it. -/
theorem not_mem_quote {b : UInt8} (hb : unreserved b = false) (hp : b ≠ 37)
    (bytes : List UInt8) : b ∉ quote bytes := by
  intro hmem
  rcases mem_quote hmem with hu | hq
  · exact Bool.false_ne_true (hb.symm.trans hu)
  · exact hp hq

/-- It is ASCII. -/
theorem lt_of_mem_quote {b : UInt8} {bytes : List UInt8} (h : b ∈ quote bytes) :
    b.toNat < 128 := by
  rcases mem_quote h with hu | rfl
  · simp only [unreserved, Bool.or_eq_true, Bool.and_eq_true, decide_eq_true_eq, beq_iff_eq,
      UInt8.le_iff_toNat_le, ← UInt8.toNat_inj, UInt8.reduceToNat] at hu
    omega
  · decide

end Percent
