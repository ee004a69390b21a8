/-
A carrier: something that takes items in at one end and hands them out
at the other, in any order, and may lose some.

`sent`, `arrived` and `lost` are history, `flying` is what is under way.
Whatever happens, every item sent is in one of the other three places
(`Kept`). A carrier that always hands out the oldest item keeps the
order of sending too (`Ordered`), losses leaving gaps; and if it loses
none, what arrived and what is under way is what was sent
(`eq_of_ordered`).
-/
import Mathlib.Data.List.Perm.Basic
import Mathlib.Tactic.TypeStar

namespace AioLibDataChannel

/-- A carrier and its history. -/
structure Carrier (α : Type*) where
  sent : List α
  flying : List α
  arrived : List α
  lost : List α

namespace Carrier

variable {α : Type*} {c c' : Carrier α}

/-- Nothing was sent yet. -/
def new : Carrier α where
  sent := []
  flying := []
  arrived := []
  lost := []

/-- What a carrier does; items under way are named by their position. -/
inductive Action (α : Type*)
  | send (x : α)
  | arrive (k : Nat)
  | lose (k : Nat)

def send (x : α) (c : Carrier α) : Carrier α :=
  { c with sent := c.sent ++ [x], flying := c.flying ++ [x] }

def arrive (k : Nat) (x : α) (c : Carrier α) : Carrier α :=
  { c with flying := c.flying.eraseIdx k, arrived := c.arrived ++ [x] }

def lose (k : Nat) (x : α) (c : Carrier α) : Carrier α :=
  { c with flying := c.flying.eraseIdx k, lost := c.lost ++ [x] }

/-- The transition. -/
def step : Action α → Carrier α → Option (Carrier α)
  | .send x, c => some (c.send x)
  | .arrive k, c => c.flying[k]?.map fun x => c.arrive k x
  | .lose k, c => c.flying[k]?.map fun x => c.lose k x

/-- The oldest item is handed out. -/
def Action.inTurn : Action α → Bool
  | arrive k => k == 0
  | _ => true

/-- Each item sent arrived, is under way, or was lost. -/
def Kept (c : Carrier α) : Prop :=
  c.sent.Perm (c.arrived ++ c.flying ++ c.lost)

/-- What arrived, and behind it what is under way, in the order of
sending. -/
def Ordered (c : Carrier α) : Prop :=
  (c.arrived ++ c.flying).Sublist c.sent

/-- A new carrier has lost nothing. -/
theorem kept_new : Kept (new : Carrier α) := .refl _

/-- A new carrier is in order. -/
theorem ordered_new : Ordered (new : Carrier α) := .refl _

/-- Whatever the carrier does, everything sent is under way or arrived. -/
theorem kept_step {a : Action α} (hc : Kept c) (h : step a c = some c') : Kept c' := by
  cases a with
  | send x =>
      cases h
      show (c.sent ++ [x]).Perm (c.arrived ++ (c.flying ++ [x]) ++ c.lost)
      refine (hc.append_right [x]).trans ?_
      rw [List.append_assoc _ c.lost, ← List.append_assoc c.arrived, List.append_assoc _ [x]]
      exact List.perm_append_comm.append_left _
  | arrive k =>
      obtain ⟨x, hx, rfl⟩ := Option.map_eq_some_iff.mp h
      obtain ⟨hlt, rfl⟩ := List.getElem?_eq_some_iff.mp hx
      show c.sent.Perm (c.arrived ++ [c.flying[k]] ++ c.flying.eraseIdx k ++ c.lost)
      refine hc.trans (List.Perm.append_right _ ?_)
      rw [List.append_assoc]
      exact (List.getElem_cons_eraseIdx_perm hlt).symm.append_left _
  | lose k =>
      obtain ⟨x, hx, rfl⟩ := Option.map_eq_some_iff.mp h
      obtain ⟨hlt, rfl⟩ := List.getElem?_eq_some_iff.mp hx
      show c.sent.Perm (c.arrived ++ c.flying.eraseIdx k ++ (c.lost ++ [c.flying[k]]))
      refine hc.trans ?_
      have hmoved : c.flying.Perm (c.flying.eraseIdx k ++ [c.flying[k]]) :=
        (List.getElem_cons_eraseIdx_perm hlt).symm.trans
          (List.perm_append_singleton _ _).symm
      refine ((hmoved.append_left c.arrived).append_right c.lost).trans ?_
      rw [← List.append_assoc, List.append_assoc _ [_]]
      exact List.perm_append_comm.append_left _

/-- A carrier that delivers in turn keeps the order. -/
theorem ordered_step {a : Action α} (hc : Ordered c) (hturn : a.inTurn = true)
    (h : step a c = some c') : Ordered c' := by
  cases a with
  | send x =>
      cases h
      show (c.arrived ++ (c.flying ++ [x])).Sublist (c.sent ++ [x])
      rw [← List.append_assoc]
      exact hc.append_right [x]
  | arrive k =>
      have hk : k = 0 := beq_iff_eq.mp hturn
      subst hk
      obtain ⟨x, hx, rfl⟩ := Option.map_eq_some_iff.mp h
      show (c.arrived ++ [x] ++ c.flying.eraseIdx 0).Sublist c.sent
      unfold Ordered at hc
      cases hf : c.flying with
      | nil =>
          rw [hf] at hx
          cases hx
      | cons y rest =>
          rw [hf] at hx hc
          cases hx
          rw [List.append_assoc]
          exact hc
  | lose k =>
      obtain ⟨x, hx, rfl⟩ := Option.map_eq_some_iff.mp h
      show (c.arrived ++ c.flying.eraseIdx k).Sublist c.sent
      exact ((List.eraseIdx_sublist c.flying k).append_left c.arrived).trans hc

/-- Nothing is missing from an ordered carrier that lost nothing. -/
theorem eq_of_ordered (hk : Kept c) (ho : Ordered c) (hl : c.lost = []) :
    c.arrived ++ c.flying = c.sent := by
  refine ho.eq_of_length ?_
  unfold Kept at hk
  rw [hl, List.append_nil] at hk
  exact hk.length_eq.symm

end Carrier

end AioLibDataChannel
