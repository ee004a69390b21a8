/-
Byte buffers as C reads them: NUL-terminated text, a length squeezed
into an `int`, and UTF-8 text inside either.

A NUL byte occurs in UTF-8 only as the encoding of U+0000
(`zero_mem_utf8EncodeChar`), so reading encoded text up to its first NUL
is cutting the text at its first U+0000 — `upToNul_encode`. That is the
one fact the library is for; the rest is what `static_cast<int>` does to
a length.
-/
import Mathlib.Data.List.TakeWhile

namespace CString

-- ============================================================= buffers

/-- What `std::string(const char *)` reads: the bytes before the first
NUL. -/
def upToNul (buffer : List UInt8) : List UInt8 := buffer.takeWhile (· ≠ 0)

/-- What precedes the first NUL has none. -/
theorem upToNul_upToNul (buffer : List UInt8) :
    upToNul (upToNul buffer) = upToNul buffer :=
  List.takeWhile_idem

/-- Reading stops at the first NUL. -/
theorem upToNul_append_zero (front back : List UInt8) :
    upToNul (front ++ 0 :: back) = upToNul front := by
  induction front with
  | nil => rfl
  | cons b rest ih =>
      simp only [upToNul, List.cons_append, List.takeWhile_cons] at ih ⊢
      split
      next => rw [ih]
      next => rfl

-- ============================================================= lengths

/-- `static_cast<int>` of a length. -/
def toInt (n : Nat) : Int :=
  let low := n % 4294967296
  if low < 2147483648 then low else low - 4294967296

/-- A length below 2³¹ survives the cast. -/
theorem toInt_of_lt {n : Nat} (h : n < 2147483648) : toInt n = n := by
  have hlow : n % 4294967296 = n := Nat.mod_eq_of_lt (by omega)
  simp only [toInt, hlow, if_pos h]

/-- A length that does not fit comes out smaller than it was. -/
theorem toInt_lt_of_le {n : Nat} (h : 2147483648 ≤ n) : toInt n < n := by
  simp only [toInt]
  split <;> omega

-- =============================================================== UTF-8

/-- The UTF-8 encoding of a text. -/
def encode (text : List Char) : List UInt8 := text.flatMap String.utf8EncodeChar

/-- Strict UTF-8 decoding. -/
def decode? (bytes : List UInt8) : Option (List Char) :=
  bytes.toByteArray.utf8Decode?.map Array.toList

/-- Encoded text decodes to itself. -/
theorem decode?_encode (text : List Char) : decode? (encode text) = some text := by
  have henc : (encode text).toByteArray = text.utf8Encode := rfl
  rw [decode?, henc, List.utf8Decode?_utf8Encode]
  rfl

/-- Only the encoding of a text decodes to it. -/
theorem encode_of_decode? {bytes : List UInt8} {text : List Char}
    (h : decode? bytes = some text) : encode text = bytes := by
  obtain ⟨chars, hchars, rfl⟩ := Option.map_eq_some_iff.mp h
  have hsome : (bytes.toByteArray.utf8Decode?).isSome := by
    rw [hchars]
    rfl
  have hget : bytes.toByteArray.utf8Decode?.get hsome = chars := by
    simp only [hchars, Option.get_some]
  have hbytes := ByteArray.utf8Encode_get_utf8Decode? (h := hsome)
  rw [hget] at hbytes
  have hlist : (encode chars.toList).toByteArray = bytes.toByteArray := hbytes
  exact List.toByteArray_inj.mp hlist

/-- No two texts have one encoding. -/
theorem encode_injective : Function.Injective encode := by
  intro text text' h
  have hdec : decode? (encode text) = decode? (encode text') := by rw [h]
  rw [decode?_encode, decode?_encode] at hdec
  exact Option.some.inj hdec

/-- A byte made from a number that is not a multiple of 256 is not
NUL. -/
theorem ofNat_ne_zero {n : Nat} (h : n % 256 ≠ 0) : UInt8.ofNat n ≠ 0 := by
  intro hz
  have hn : n % 256 = 0 := congrArg UInt8.toNat hz
  exact h hn

/-- The lead and continuation bytes of a longer encoding all have their
top bit set. -/
theorem zero_mem_utf8EncodeChar {c : Char} (h : 0 ∈ String.utf8EncodeChar c) :
    c.val.toNat = 0 := by
  simp only [String.utf8EncodeChar] at h
  split at h
  next hlow =>
    by_contra hne
    exact ofNat_ne_zero (by omega) (List.mem_singleton.mp h).symm
  next =>
    exfalso
    split at h
    next =>
      simp only [List.mem_cons, List.not_mem_nil, or_false] at h
      rcases h with h | h <;> exact ofNat_ne_zero (by omega) h.symm
    next =>
      split at h
      next =>
        simp only [List.mem_cons, List.not_mem_nil, or_false] at h
        rcases h with h | h | h <;> exact ofNat_ne_zero (by omega) h.symm
      next =>
        simp only [List.mem_cons, List.not_mem_nil, or_false] at h
        rcases h with h | h | h | h <;> exact ofNat_ne_zero (by omega) h.symm

/-- U+0000 is the character with code zero. -/
theorem val_toNat_eq_zero {c : Char} : c.val.toNat = 0 ↔ c = '\x00' := by
  constructor
  · intro h
    exact Char.toNat_inj.mp h
  · intro heq
    subst heq
    rfl

/-- Reading encoded text up to its first NUL byte cuts the text at its
first U+0000. -/
theorem upToNul_encode (text : List Char) :
    upToNul (encode text) = encode (text.takeWhile (· ≠ '\x00')) := by
  induction text with
  | nil => rfl
  | cons c rest ih =>
      by_cases hc : c = '\x00'
      · subst hc
        rfl
      · have hbytes : ∀ b ∈ String.utf8EncodeChar c, b ≠ 0 := by
          intro b hb heq
          subst heq
          exact hc (val_toNat_eq_zero.mp (zero_mem_utf8EncodeChar hb))
        have hhead : upToNul (encode (c :: rest))
            = String.utf8EncodeChar c ++ upToNul (encode rest) :=
          List.takeWhile_append_of_pos (by simpa using hbytes)
        rw [hhead, ih, List.takeWhile_cons, if_pos (by simpa using hc)]
        rfl

end CString
