/-
An enumeration whose members have integer codes, and the lookup of a
code: `E(n)` of a Python `IntEnum`, or the `switch` over a C one.

The lookup goes through the members in order and takes the first with
this code. That the members are all there and the codes distinct are
fields, so the lookup is the partial inverse of the coding.
-/
import Mathlib.Data.List.Range

/-- The members, in order, and their codes. -/
structure IntEnum (ε : Type*) where
  members : List ε
  value : ε → Int
  complete : ∀ e, e ∈ members
  distinct : Function.Injective value

namespace IntEnum

variable {ε : Type*} {E : IntEnum ε} {n : Int} {e : ε}

/-- The member with this code, if there is one. -/
def ofValue? (E : IntEnum ε) (n : Int) : Option ε :=
  E.members.find? fun e => decide (E.value e = n)

/-- A member comes back from its code. -/
theorem ofValue?_value (E : IntEnum ε) (e : ε) : E.ofValue? (E.value e) = some e := by
  cases hfind : E.ofValue? (E.value e) with
  | none =>
      have hnot := List.find?_eq_none.mp hfind e (E.complete e)
      exact absurd (decide_eq_true rfl) hnot
  | some e' =>
      have hcode : E.value e' = E.value e :=
        of_decide_eq_true (List.find?_some (p := fun e' => decide (E.value e' = E.value e)) hfind)
      rw [E.distinct hcode]

/-- A code decodes to the member that has it. -/
theorem ofValue?_eq_some_iff : E.ofValue? n = some e ↔ E.value e = n := by
  constructor
  · intro h
    exact of_decide_eq_true (List.find?_some (p := fun e => decide (E.value e = n)) h)
  · rintro rfl
    exact E.ofValue?_value e

/-- Codes without a gap: the known ones are an interval. -/
theorem ofValue?_isSome_iff
    (hcodes : E.members.map E.value = (List.range E.members.length).map Int.ofNat) :
    (E.ofValue? n).isSome ↔ 0 ≤ n ∧ n < E.members.length := by
  have hmem : (∃ e, E.value e = n) ↔ n ∈ (List.range E.members.length).map Int.ofNat := by
    rw [← hcodes, List.mem_map]
    exact ⟨fun ⟨e, he⟩ => ⟨e, E.complete e, he⟩, fun ⟨e, _, he⟩ => ⟨e, he⟩⟩
  simp only [Option.isSome_iff_exists, ofValue?_eq_some_iff]
  rw [hmem, List.mem_map]
  constructor
  · rintro ⟨k, hk, rfl⟩
    have hlt := List.mem_range.mp hk
    constructor
    · exact Int.natCast_nonneg k
    · exact Int.ofNat_lt.mpr hlt
  · rintro ⟨hnonneg, hlt⟩
    refine ⟨n.toNat, List.mem_range.mpr ?_, ?_⟩
    · omega
    · exact Int.toNat_of_nonneg hnonneg

end IntEnum
