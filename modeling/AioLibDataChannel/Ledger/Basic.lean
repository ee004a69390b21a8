/-
Things that are given to a party, kept back for a while, and handed over
once each: the abstract side of every buffer-then-forward component.

An account names four piles. What is `given` is either `held` back,
`carried` by someone on the way, or `handed` over. The moves that lose
nothing keep the account balanced (`Move.balanced`), and losing the
piles `lost` keeps it balanced exactly when they were empty
(`Loses.balanced_iff`).

`carried` is a pile without an order: several carriers are on the way at
once. Where at most one of them carries anything (`Sole`), their load is
that one's, in its order.
-/
import Mathlib.Data.List.Count
import Mathlib.Data.List.Perm.Basic

namespace Ledger

variable {α β : Type*}

/-- What was given, in order, and where it is now. -/
structure Account (α : Type*) where
  given : List α
  held : List α
  carried : List α
  handed : List α

/-- Everything given is in exactly one of the three piles. -/
def Account.Balanced (a : Account α) : Prop :=
  a.given.Perm (a.handed ++ a.carried ++ a.held)

/-- The moves that lose nothing. -/
inductive Move (a b : Account α) : Prop
  | hold (c : α) (given : b.given = a.given ++ [c]) (held : b.held = a.held ++ [c])
      (carried : b.carried = a.carried) (handed : b.handed = a.handed)
  | send (c : α) (given : b.given = a.given ++ [c]) (held : b.held = a.held)
      (carried : b.carried.Perm (c :: a.carried)) (handed : b.handed = a.handed)
  | release (given : b.given = a.given) (held : b.held = [])
      (carried : b.carried.Perm (a.held ++ a.carried)) (handed : b.handed = a.handed)
  | hand (c : α) (given : b.given = a.given) (held : b.held = a.held)
      (carried : a.carried.Perm (c :: b.carried))
      (handed : b.handed = a.handed ++ [c])
  | carry (given : b.given = a.given) (held : b.held = a.held)
      (carried : b.carried.Perm a.carried) (handed : b.handed = a.handed)

/-- A carrier goes down with `lost`. -/
structure Loses (lost : List α) (a b : Account α) : Prop where
  given : b.given = a.given
  held : b.held = a.held
  carried : a.carried.Perm (lost ++ b.carried)
  handed : b.handed = a.handed

-- ======================================================== conservation

/-- Counting is the way to see every one of these. -/
theorem Account.balanced_iff_count [DecidableEq α] {a : Account α} :
    a.Balanced ↔ ∀ x, a.given.count x
      = a.handed.count x + a.carried.count x + a.held.count x := by
  rw [Account.Balanced, List.perm_iff_count]
  simp only [List.count_append]

/-- A move keeps the books balanced. -/
theorem Move.balanced {a b : Account α} (h : Move a b) (ha : a.Balanced) :
    b.Balanced := by
  classical
  rw [Account.balanced_iff_count] at ha ⊢
  intro x
  have hx := ha x
  cases h with
  | hold c hg hh hc hd =>
      rw [hg, hh, hc, hd, List.count_append, List.count_append]
      omega
  | send c hg hh hc hd =>
      rw [hg, hh, hd, hc.count_eq, List.count_append, List.count_singleton,
        List.count_cons]
      omega
  | release hg hh hc hd =>
      rw [hg, hh, hd, hc.count_eq, List.count_append, List.count_nil]
      omega
  | hand c hg hh hc hd =>
      rw [hg, hh, hd, List.count_append, List.count_singleton]
      rw [hc.count_eq, List.count_cons] at hx
      omega
  | carry hg hh hc hd =>
      rw [hg, hh, hd, hc.count_eq]
      exact hx

/-- A move is one too where there is more on the way. -/
theorem Move.frame {a b : Account α} (h : Move a b) (rest : List α) :
    Move { a with carried := a.carried ++ rest } { b with carried := b.carried ++ rest } := by
  cases h with
  | hold c hg hh hc hd => exact .hold c hg hh (congrArg (· ++ rest) hc) hd
  | send c hg hh hc hd => exact .send c hg hh (hc.append_right rest) hd
  | release hg hh hc hd =>
      refine .release hg hh ?_ hd
      rw [← List.append_assoc]
      exact hc.append_right rest
  | hand c hg hh hc hd => exact .hand c hg hh (hc.append_right rest) hd
  | carry hg hh hc hd => exact .carry hg hh (hc.append_right rest) hd

/-- What goes down with a carrier, kept in sight, is only carried
elsewhere. -/
theorem Loses.kept {lost : List α} {a b : Account α} (h : Loses lost a b)
    (rest : List α) :
    Move { a with carried := a.carried ++ rest }
      { b with carried := b.carried ++ (rest ++ lost) } := by
  refine .carry h.given h.held ?_ h.handed
  show (b.carried ++ (rest ++ lost)).Perm (a.carried ++ rest)
  rw [← List.append_assoc]
  refine List.perm_append_comm.trans ?_
  rw [← List.append_assoc]
  exact h.carried.symm.append_right rest

/-- A balanced account stays balanced exactly when nothing was lost. -/
theorem Loses.balanced_iff {lost : List α} {a b : Account α}
    (h : Loses lost a b) (ha : a.Balanced) : b.Balanced ↔ lost = [] := by
  constructor
  · intro hb
    have hlen := ha.length_eq
    have hlen' := hb.length_eq
    have hcar := h.carried.length_eq
    rw [h.given, h.held, h.handed] at hlen'
    simp only [List.length_append] at hlen hlen' hcar
    have hzero : lost.length = 0 := by omega
    exact List.length_eq_zero_iff.mp hzero
  · intro heq
    subst heq
    exact Move.balanced
      (.carry h.given h.held h.carried.symm h.handed) ha

-- ============================================================ carriers

/-- One carrier among several changes its load: what the others carry
does not. -/
theorem count_flatMap_set [DecidableEq α] (load : β → List α) {bs : List β} {i : Nat}
    {b : β} (b' : β) (h : bs[i]? = some b) (x : α) :
    ((bs.set i b').flatMap load).count x + (load b).count x
      = (bs.flatMap load).count x + (load b').count x := by
  induction bs generalizing i with
  | nil => cases h
  | cons d rest ih =>
      cases i with
      | zero =>
          cases h
          simp only [List.set_cons_zero, List.flatMap_cons, List.count_append]
          omega
      | succ i =>
          have hrest := ih h
          simp only [List.set_cons_succ, List.flatMap_cons, List.count_append]
          omega

/-- A carrier puts `lost` down. -/
theorem flatMap_set_loses {load : β → List α} {bs : List β} {i : Nat} {b b' : β}
    (lost : List α) (hb : bs[i]? = some b) (h : (load b).Perm (lost ++ load b')) :
    (bs.flatMap load).Perm (lost ++ (bs.set i b').flatMap load) := by
  classical
  rw [List.perm_iff_count]
  intro x
  have hx := count_flatMap_set load b' hb x
  rw [h.count_eq, List.count_append] at hx
  rw [List.count_append]
  omega

/-- A carrier takes `more` up. -/
theorem flatMap_set_gains {load : β → List α} {bs : List β} {i : Nat} {b b' : β}
    (more : List α) (hb : bs[i]? = some b) (h : (load b').Perm (more ++ load b)) :
    ((bs.set i b').flatMap load).Perm (more ++ bs.flatMap load) := by
  classical
  rw [List.perm_iff_count]
  intro x
  have hx := count_flatMap_set load b' hb x
  rw [h.count_eq, List.count_append] at hx
  rw [List.count_append]
  omega

/-- A carrier changes, its load does not. -/
theorem flatMap_set_keeps {load : β → List α} {bs : List β} {i : Nat} {b b' : β}
    (hb : bs[i]? = some b) (h : load b' = load b) :
    (bs.set i b').flatMap load = bs.flatMap load := by
  induction bs generalizing i with
  | nil => rfl
  | cons d rest ih =>
      cases i with
      | zero =>
          cases hb
          simp only [List.set_cons_zero, List.flatMap_cons, h]
      | succ i => simp only [List.set_cons_succ, List.flatMap_cons, ih hb]

-- ======================================================== a sole carrier

/-- At most one carrier carries anything. -/
def Sole (load : β → List α) (bs : List β) : Prop :=
  ∀ (i j : Nat) (b c : β), bs[i]? = some b → bs[j]? = some c →
    load b ≠ [] → load c ≠ [] → i = j

/-- When all the others carry nothing, the carriers together carry what
one does. -/
theorem flatMap_of_others_nil {load : β → List α} {bs : List β} {i : Nat} {b : β}
    (hb : bs[i]? = some b)
    (hothers : ∀ j c, bs[j]? = some c → j ≠ i → load c = []) :
    bs.flatMap load = load b := by
  induction bs generalizing i with
  | nil => cases hb
  | cons d rest ih =>
      rw [List.flatMap_cons]
      cases i with
      | zero =>
          cases hb
          have hrest : rest.flatMap load = [] := by
            refine List.flatMap_eq_nil_iff.mpr ?_
            intro c hc
            obtain ⟨j, hj⟩ := List.mem_iff_getElem?.mp hc
            exact hothers (j + 1) c hj (Nat.succ_ne_zero j)
          rw [hrest, List.append_nil]
      | succ i =>
          have hd : load d = [] := hothers 0 d rfl (Nat.succ_ne_zero i).symm
          rw [hd, List.nil_append]
          refine ih hb fun j c hj hne => hothers (j + 1) c hj ?_
          omega

/-- A sole carrier's load is all that is carried, whatever it is changed
to. -/
theorem Sole.flatMap_set {load : β → List α} {bs : List β} (h : Sole load bs)
    {i : Nat} {b : β} (hb : bs[i]? = some b) (hload : load b ≠ []) (b' : β) :
    (bs.set i b').flatMap load = load b' := by
  have hlt := (List.getElem?_eq_some_iff.mp hb).1
  refine flatMap_of_others_nil (List.getElem?_set_self hlt) ?_
  intro j c hj hne
  rw [List.getElem?_set_ne hne.symm] at hj
  by_contra hc
  exact hne (h j i c b hj hb hc hload)

/-- If one alone carries anything, it carries all there is. -/
theorem Sole.flatMap_eq {load : β → List α} {bs : List β} (h : Sole load bs)
    {i : Nat} {b : β} (hb : bs[i]? = some b) (hload : load b ≠ []) :
    bs.flatMap load = load b := by
  refine flatMap_of_others_nil hb ?_
  intro j c hj hne
  by_contra hc
  exact hne (h j i c b hj hb hc hload)

/-- A change that does not start to carry keeps the carrier sole. -/
theorem Sole.set {load : β → List α} {bs : List β} (h : Sole load bs) {i : Nat}
    {b b' : β} (hb : bs[i]? = some b) (hload : load b' ≠ [] → load b ≠ []) :
    Sole load (bs.set i b') := by
  have hold (j : Nat) (c : β) (hj : (bs.set i b')[j]? = some c) (hc : load c ≠ []) :
      ∃ d, bs[j]? = some d ∧ load d ≠ [] := by
    by_cases hij : i = j
    · subst hij
      have hlt := (List.getElem?_eq_some_iff.mp hb).1
      rw [List.getElem?_set_self hlt] at hj
      exact ⟨b, hb, hload (Option.some.inj hj ▸ hc)⟩
    · rw [List.getElem?_set_ne hij] at hj
      exact ⟨c, hj, hc⟩
  intro j k c d hj hk hc hd
  obtain ⟨c', hj', hc'⟩ := hold j c hj hc
  obtain ⟨d', hk', hd'⟩ := hold k d hk hd
  exact h j k c' d' hj' hk' hc' hd'

/-- The first to carry is sole. -/
theorem Sole.of_nil {load : β → List α} {bs : List β} {i : Nat} (b' : β)
    (hnil : ∀ b ∈ bs, load b = []) : Sole load (bs.set i b') := by
  have hat (j : Nat) (c : β) (hj : (bs.set i b')[j]? = some c) (hc : load c ≠ []) :
      j = i := by
    by_contra hne
    rw [List.getElem?_set_ne (Ne.symm hne)] at hj
    exact hc (hnil c (List.mem_of_getElem? hj))
  intro j k c d hj hk hc hd
  rw [hat j c hj hc, hat k d hk hd]

/-- A new carrier starts with nothing. -/
theorem Sole.append {load : β → List α} {bs : List β} (h : Sole load bs) {b' : β}
    (hload : load b' = []) : Sole load (bs ++ [b']) := by
  have hold (j : Nat) (c : β) (hj : (bs ++ [b'])[j]? = some c) (hc : load c ≠ []) :
      bs[j]? = some c := by
    rcases Nat.lt_or_ge j bs.length with hlt | hge
    · rwa [List.getElem?_append_left hlt] at hj
    · rw [List.getElem?_append_right hge] at hj
      have hmem := List.mem_singleton.mp (List.mem_of_getElem? hj)
      rw [hmem] at hc
      exact absurd hload hc
  intro j k c d hj hk hc hd
  exact h j k c d (hold j c hj hc) (hold k d hk hd) hc hd

end Ledger
