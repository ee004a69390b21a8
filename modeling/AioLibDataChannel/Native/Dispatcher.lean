/-
The one reference the binding holds: `g_dispatcher`, and the calls that
borrow it.

`safe_call_dispatcher` takes a reference of its own for the call, since
the registry can be swapped while Python code runs, and drops it when the
call returns; only then does it report an exception, with the function it
called. The reference counts are modelled as CPython keeps them, and a
function whose count is zero is gone.

`dispatcher_counted`: the counts are right in every state, so a call never
runs a function that is gone and a binding that is cleared and idle holds
nothing; and a function is named after it is gone exactly by a call that
raised and held the last reference to it, which the function in `_core`,
a global there, never gives it.
-/
import Mathlib.Data.List.Perm.Basic
import AioLibDataChannel.Transition.Run

namespace AioLibDataChannel

open Function (update)
open Transition (exec Takes Visits)

/-- `Py_INCREF`. -/
def incref (f : Nat) (refcnt : Nat → Nat) : Nat → Nat := update refcnt f (refcnt f + 1)

/-- `Py_DECREF`. -/
def decref (f : Nat) (refcnt : Nat → Nat) : Nat → Nat := update refcnt f (refcnt f - 1)

/-- The functions by number: their counts, and who refers to them. -/
structure DispatcherWorld where
  refcnt : Nat → Nat
  /-- References held anywhere else, such as by a module's global. -/
  outside : Nat → Nat
  gDispatcher : Option Nat
  /-- The calls under way, by the function they call. -/
  calls : List Nat
  /-- Functions that were used when they were gone. -/
  touched : List Nat

namespace DispatcherWorld

/-- Nothing is registered yet. -/
def init (outside : Nat → Nat) : DispatcherWorld where
  refcnt := outside
  outside := outside
  gDispatcher := none
  calls := []
  touched := []

-- =============================================================== actions

inductive Action
  | registerDispatcher (fn : Option Nat)
  | call
  | ret (k : Nat) (raised : Bool)
  | hold (f : Nat)
  | release (f : Nat)
deriving DecidableEq, Repr

/-- `g_dispatcher = fn`: the new reference is taken first. -/
def assign (fn : Option Nat) (w : DispatcherWorld) : DispatcherWorld :=
  let taken := match fn with
    | none => w.refcnt
    | some f => incref f w.refcnt
  { w with
    gDispatcher := fn
    refcnt := match w.gDispatcher with
      | none => taken
      | some old => decref old taken }

/-- The transition; each action has the GIL. An argument is held by its
caller, and a new reference is made of an old one. -/
def apply : Action → DispatcherWorld → Option DispatcherWorld
  | .registerDispatcher none, w => some (w.assign none)
  | .registerDispatcher (some f), w =>
      if 0 < w.outside f then some (w.assign (some f)) else none
  | .call, w =>
      match w.gDispatcher with
      | none => some w
      | some f => some { w with calls := w.calls ++ [f], refcnt := incref f w.refcnt }
  | .ret k raised, w =>
      match w.calls[k]? with
      | none => none
      | some f =>
          let refcnt := decref f w.refcnt
          some { w with
            calls := w.calls.eraseIdx k
            refcnt := refcnt
            touched := if raised && refcnt f = 0 then w.touched ++ [f] else w.touched }
  | .hold f, w =>
      if 0 < w.outside f then
        some { w with outside := incref f w.outside, refcnt := incref f w.refcnt }
      else none
  | .release f, w =>
      if 0 < w.outside f then
        some { w with outside := decref f w.outside, refcnt := decref f w.refcnt }
      else none

-- ============================================================== counting

variable {w w' : DispatcherWorld} {a : Action}

/-- The references there are to a function. -/
def holders (w : DispatcherWorld) (f : Nat) : Nat :=
  w.outside f + w.gDispatcher.toList.count f + w.calls.count f

/-- The counts are right. -/
def Counted (w : DispatcherWorld) : Prop := ∀ f, w.refcnt f = w.holders f

/-- A reference taken counts for its function only. -/
theorem incref_apply (f g : Nat) (refcnt : Nat → Nat) :
    incref f refcnt g = refcnt g + [f].count g := by
  unfold incref
  by_cases h : g = f
  · subst h
    rw [Function.update_self, List.count_singleton_self]
  · rw [Function.update_of_ne h, List.count_singleton, if_neg (by simpa using Ne.symm h)]
    rfl

/-- A reference that is dropped counts for its function only. -/
theorem decref_apply (f g : Nat) (refcnt : Nat → Nat) :
    decref f refcnt g = refcnt g - [f].count g := by
  unfold decref
  by_cases h : g = f
  · subst h
    rw [Function.update_self, List.count_singleton_self]
  · rw [Function.update_of_ne h, List.count_singleton, if_neg (by simpa using Ne.symm h)]
    rfl

/-- The new function is counted and the old one is not any more. -/
theorem counted_assign (h : Counted w) (fn : Option Nat) : Counted (w.assign fn) := by
  intro f
  have hf := h f
  unfold holders at hf
  unfold assign holders
  cases fn with
  | none =>
      cases hg : w.gDispatcher with
      | none =>
          rw [hg] at hf
          exact hf
      | some old =>
          rw [hg] at hf
          simp only [Option.toList, decref_apply] at hf ⊢
          rw [List.count_nil]
          omega
  | some new =>
      cases hg : w.gDispatcher with
      | none =>
          rw [hg] at hf
          simp only [Option.toList, incref_apply] at hf ⊢
          rw [List.count_nil] at hf
          omega
      | some old =>
          rw [hg] at hf
          simp only [Option.toList, incref_apply, decref_apply] at hf ⊢
          omega

/-- A call is one of those under way. -/
theorem count_eraseIdx {l : List Nat} {k f : Nat} (hk : l[k]? = some f) (g : Nat) :
    l.count g = (l.eraseIdx k).count g + [f].count g := by
  obtain ⟨hlt, rfl⟩ := List.getElem?_eq_some_iff.mp hk
  rw [← (List.getElem_cons_eraseIdx_perm hlt).count_eq g, List.count_cons,
    List.count_singleton]

/-- Every step keeps the count. -/
theorem counted_apply (h : Counted w) (ha : apply a w = some w') : Counted w' := by
  cases a with
  | registerDispatcher fn =>
      cases fn with
      | none =>
          cases ha
          exact counted_assign h none
      | some f =>
          obtain ⟨-, ha⟩ := Option.ite_none_right_eq_some.mp ha
          cases ha
          exact counted_assign h (some f)
  | call =>
      simp only [apply] at ha
      split at ha
      next =>
        cases ha
        exact h
      next f hf =>
        cases ha
        intro g
        have hg := h g
        unfold holders at hg ⊢
        simp only [incref_apply, List.count_append]
        omega
  | ret k raised =>
      simp only [apply] at ha
      split at ha
      next => cases ha
      next f hf =>
        cases ha
        intro g
        have hg := h g
        have hcount := count_eraseIdx hf g
        unfold holders at hg ⊢
        simp only [decref_apply]
        omega
  | hold f =>
      obtain ⟨-, ha⟩ := Option.ite_none_right_eq_some.mp ha
      cases ha
      intro g
      have hg := h g
      unfold holders at hg ⊢
      simp only [incref_apply]
      omega
  | release f =>
      obtain ⟨hpos, ha⟩ := Option.ite_none_right_eq_some.mp ha
      cases ha
      intro g
      have hg := h g
      have hle : [f].count g ≤ w.outside g := by
        by_cases heq : g = f
        · subst heq
          rw [List.count_singleton_self]
          exact hpos
        · rw [List.count_singleton, if_neg (by simpa using Ne.symm heq)]
          exact Nat.zero_le _
      unfold holders at hg ⊢
      simp only [decref_apply]
      omega

/-- The call does not hold the last reference to its function, if it
raised. -/
def Kept (a : Action) (w : DispatcherWorld) : Prop :=
  ∀ k f, a = .ret k true → w.calls[k]? = some f → 1 < w.holders f

/-- A step names a function that is gone just when it is not `Kept`. -/
theorem touched_apply (h : Counted w) (ha : apply a w = some w') :
    w'.touched = [] ↔ w.touched = [] ∧ Kept a w := by
  have hother : ∀ {v : DispatcherWorld}, v.touched = w.touched →
      (∀ k, a ≠ .ret k true) → (v.touched = [] ↔ w.touched = [] ∧ Kept a w) := by
    intro v hv hne
    rw [hv]
    exact (and_iff_left fun k f hk => absurd hk (hne k)).symm
  cases a with
  | registerDispatcher fn =>
      cases fn with
      | none =>
          cases ha
          exact hother rfl fun k => nofun
      | some f =>
          obtain ⟨-, ha⟩ := Option.ite_none_right_eq_some.mp ha
          cases ha
          exact hother rfl fun k => nofun
  | call =>
      simp only [apply] at ha
      split at ha <;> cases ha <;> exact hother rfl fun k => nofun
  | hold f =>
      obtain ⟨-, ha⟩ := Option.ite_none_right_eq_some.mp ha
      cases ha
      exact hother rfl fun k => nofun
  | release f =>
      obtain ⟨-, ha⟩ := Option.ite_none_right_eq_some.mp ha
      cases ha
      exact hother rfl fun k => nofun
  | ret k raised =>
      simp only [apply] at ha
      split at ha
      next => cases ha
      next f hf =>
        cases ha
        cases raised with
        | false => exact hother rfl fun k => nofun
        | true =>
            have hkept : Kept (.ret k true) w ↔ 1 < w.holders f := by
              constructor
              · exact fun hk => hk k f rfl hf
              · rintro hlt k' f' heq hf'
                cases heq
                cases hf.symm.trans hf'
                exact hlt
            have hafter : decref f w.refcnt f = w.holders f - 1 := by
              rw [decref_apply, List.count_singleton_self, h f]
            rw [hkept]
            simp only [Bool.true_and, decide_eq_true_eq, hafter]
            split
            · refine iff_of_false (List.append_ne_nil_of_right_ne_nil _ (List.cons_ne_nil _ _)) ?_
              omega
            · exact (and_iff_left (by omega)).symm

/-- What the binding's reference, and those its calls borrow, come to over
a run that ends in `w`. -/
structure Sound (outside : Nat → Nat) (acts : List Action) (w : DispatcherWorld) : Prop where
  counted : Counted w
  /-- A call runs a function that is there, -/
  alive : ∀ f ∈ w.calls, 0 < w.refcnt f
  /-- and once cleared and idle the binding holds nothing. -/
  released : w.gDispatcher = none → w.calls = [] → w.refcnt = w.outside
  /-- A function is named when it is gone just by a call that raised and
  held the last reference, -/
  touched_iff : w.touched = [] ↔ ∀ a m, Takes apply (init outside) acts a m → Kept a m
  /-- so never if somebody else refers to what is called. -/
  global : (∀ m, Visits apply (init outside) acts m → ∀ f ∈ m.calls, 0 < m.outside f) →
    w.touched = []

/-- A function that somebody else refers to outlives the call. -/
theorem kept_of_outside (h : ∀ f ∈ w.calls, 0 < w.outside f) : Kept a w := by
  intro k f _ hf
  have hmem := List.mem_of_getElem? hf
  have hcalls := List.count_pos_iff.mpr hmem
  have hout := h f hmem
  unfold holders
  omega

theorem dispatcher_counted {outside : Nat → Nat} {acts : List Action}
    (h : exec apply (init outside) acts = some w) : Sound outside acts w := by
  have hinv : ∀ {bs : List Action} {m : DispatcherWorld},
      exec apply (init outside) bs = some m → Counted m := fun hm =>
    (Transition.reachable_of_exec hm).invariant (fun _ => rfl) counted_apply
  have htouched : w.touched = [] ↔
      ∀ a m, Takes apply (init outside) acts a m → Kept a m := by
    refine Transition.exec_invariant
      (P := fun bs m => m.touched = [] ↔
        ∀ a v, Takes apply (init outside) bs a v → Kept a v)
      (iff_of_true rfl Transition.forall_takes_nil) ?_ h
    intro bs b m m' hm ih hb
    rw [touched_apply (hinv hm) hb, ih]
    constructor
    · rintro ⟨hall, hk⟩ a v htake
      rcases Transition.takes_snoc_iff.mp htake with htake | ⟨rfl, hv⟩
      · exact hall a v htake
      · cases hm.symm.trans hv
        exact hk
    · intro hall
      exact ⟨fun a v htake => hall a v (Transition.takes_snoc_iff.mpr (.inl htake)),
        hall b m (Transition.takes_snoc_iff.mpr (.inr ⟨rfl, hm⟩))⟩
  constructor
  case counted => exact hinv h
  case alive =>
    intro f hf
    rw [hinv h f]
    have hcalls := List.count_pos_iff.mpr hf
    unfold holders
    omega
  case released =>
    intro hnone hidle
    funext f
    rw [hinv h f, holders, hnone, hidle]
    rfl
  case touched_iff => exact htouched
  case global =>
    intro hout
    exact htouched.mpr fun a m htake => kept_of_outside (hout m htake.visits)

/-- A dispatcher that only the binding refers to is swapped during a call,
which then raises. -/
def swappedRun : List Action :=
  [.registerDispatcher (some 0), .release 0, .call, .registerDispatcher (some 1), .ret 0 true]

theorem dispatcher_counted_swappedRun :
    ∃ w, exec apply (init fun _ => 1) swappedRun = some w ∧ w.touched = [0]
      ∧ w.refcnt 1 = 2 ∧ Sound (fun _ => 1) swappedRun w :=
  ⟨_, rfl, rfl, rfl, @dispatcher_counted _ (fun _ => 1) swappedRun rfl⟩

end DispatcherWorld

end AioLibDataChannel
