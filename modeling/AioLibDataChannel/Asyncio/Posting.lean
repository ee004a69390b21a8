/-
Work that threads hand to an event loop: a callback that a thread has
found and is about to call, `call_soon_threadsafe` from inside it, and
the loop that runs what was posted, oldest first.

The callback converts what it was given (`convert`); one that fails to
raises in its thread and posts nothing. Several threads may be about to
call, in any order. A loop that is closed runs nothing more: it forgets
what it had, and a post to it raises, which the poster suppresses.

Everything found and convertible is in one place (`kept_step`). It is
run in the order it was found when no thread overtakes another
(`ordered_exec`).
-/
import AioLibDataChannel.Transition.Run
import Mathlib.Data.List.Count
import Mathlib.Data.List.Perm.Basic

namespace Asyncio

open Transition (exec)

/-- `found` and `ran` are history; `dropped` is what a closed loop
forgot or refused. -/
structure Posting (ρ δ : Type*) where
  found : List ρ
  inFlight : List ρ
  ready : List δ
  ran : List δ
  dropped : List δ
  closed : Bool

namespace Posting

variable {ρ δ : Type*}

/-- Nothing has happened. -/
def new : Posting ρ δ where
  found := []
  inFlight := []
  ready := []
  ran := []
  dropped := []
  closed := false

/-- A thread finds a callback to call, with its argument. -/
def find (x : ρ) (p : Posting ρ δ) : Posting ρ δ :=
  { p with found := p.found ++ [x], inFlight := p.inFlight ++ [x] }

/-- `call_soon_threadsafe`, and no error from it. -/
def post (d : δ) (p : Posting ρ δ) : Posting ρ δ :=
  if p.closed then { p with dropped := p.dropped ++ [d] }
  else { p with ready := p.ready ++ [d] }

/-- One of the threads makes its call. -/
def call (convert : ρ → Option δ) (n : Nat) (p : Posting ρ δ) : Option (Posting ρ δ) :=
  match p.inFlight[n]? with
  | none => none
  | some x =>
      let p' := { p with inFlight := p.inFlight.eraseIdx n }
      match convert x with
      | none => some p'
      | some d => some (p'.post d)

/-- The loop runs what was posted first. -/
def run (p : Posting ρ δ) : Option (Posting ρ δ) :=
  match p.ready with
  | [] => none
  | d :: rest => some { p with ready := rest, ran := p.ran ++ [d] }

/-- `loop.close()`. -/
def close (p : Posting ρ δ) : Posting ρ δ :=
  { p with closed := true, ready := [], dropped := p.dropped ++ p.ready }

inductive Action (ρ : Type*)
  | find (x : ρ)
  | call (n : Nat)
  | run
  | close

def step (convert : ρ → Option δ) : Action ρ → Posting ρ δ → Option (Posting ρ δ)
  | .find x, p => some (p.find x)
  | .call n, p => p.call convert n
  | .run, p => p.run
  | .close, p => some p.close

variable {convert : ρ → Option δ} {p p' : Posting ρ δ} {a : Action ρ}

-- =============================================================== one step

/-- The ways a call goes. -/
theorem call_cases {n : Nat} (h : p.call convert n = some p') :
    ∃ x, p.inFlight[n]? = some x
      ∧ ((convert x = none ∧ p' = { p with inFlight := p.inFlight.eraseIdx n })
        ∨ ∃ d, convert x = some d
          ∧ p' = ({ p with inFlight := p.inFlight.eraseIdx n } : Posting ρ δ).post d) := by
  unfold call at h
  split at h
  next => cases h
  next x hx =>
    refine ⟨x, hx, ?_⟩
    split at h
    next hc =>
      cases h
      exact Or.inl ⟨hc, rfl⟩
    next d hc =>
      cases h
      exact Or.inr ⟨d, hc, rfl⟩

/-- The loop runs what was posted first. -/
theorem run_cases (h : p.run = some p') :
    ∃ d rest, p.ready = d :: rest
      ∧ p' = { p with ready := rest, ran := p.ran ++ [d] } := by
  unfold run at h
  split at h
  next => cases h
  next d rest hr =>
    cases h
    exact ⟨d, rest, hr, rfl⟩

/-- A post leaves everything else alone. -/
theorem post_spec (d : δ) (p : Posting ρ δ) :
    (p.post d).found = p.found ∧ (p.post d).inFlight = p.inFlight
      ∧ (p.post d).ran = p.ran ∧ (p.post d).closed = p.closed := by
  unfold post
  split <;> exact ⟨rfl, rfl, rfl, rfl⟩

/-- An entry of a list, and the list without it. -/
theorem perm_eraseIdx {l : List ρ} {n : Nat} {x : ρ} (h : l[n]? = some x) :
    l.Perm (x :: l.eraseIdx n) := by
  obtain ⟨hn, rfl⟩ := List.getElem?_eq_some_iff.mp h
  exact (List.getElem_cons_eraseIdx_perm hn).symm

-- ================================================================= keeping

/-- Everything found that converts is in one place: run, posted, about
to be, or dropped. -/
def Kept (convert : ρ → Option δ) (p : Posting ρ δ) : Prop :=
  (p.found.filterMap convert).Perm
    (p.ran ++ p.ready ++ p.inFlight.filterMap convert ++ p.dropped)

/-- Nothing was found, and nothing is missing. -/
theorem kept_new : Kept convert new := List.Perm.refl _

/-- A step moves what was found to the next place, or a closed loop drops
it. -/
theorem kept_step (hp : Kept convert p) (h : step convert a p = some p') :
    Kept convert p' := by
  classical
  unfold Kept at hp ⊢
  rw [List.perm_iff_count] at hp ⊢
  simp only [List.count_append] at hp ⊢
  cases a with
  | find x =>
      cases h
      intro y
      have hy := hp y
      simp only [find, List.filterMap_append, List.count_append]
      omega
  | call n =>
      obtain ⟨x, hx, ⟨hc, rfl⟩ | ⟨d, hc, rfl⟩⟩ := call_cases h
      · intro y
        have herase := ((perm_eraseIdx hx).filterMap convert).count_eq y
        rw [List.filterMap_cons_none hc] at herase
        rw [hp y, herase]
      · intro y
        have herase := ((perm_eraseIdx hx).filterMap convert).count_eq y
        rw [List.filterMap_cons_some hc, List.count_cons] at herase
        have hy := hp y
        unfold post
        split <;> simp only [List.count_append, List.count_singleton] <;> omega
  | run =>
      obtain ⟨d, rest, hr, rfl⟩ := run_cases h
      intro y
      have hy := hp y
      rw [hr, List.count_cons] at hy
      simp only [List.count_append, List.count_singleton]
      omega
  | close =>
      cases h
      intro y
      have hy := hp y
      simp only [close, List.count_append, List.count_nil]
      omega

-- =================================================================== order

/-- The next call is made by the thread that found its callback
first. -/
def Action.inTurn : Action ρ → Bool
  | call n => decide (n = 0)
  | _ => true

/-- What was found and converts, in that order: first what has run, then
what is posted, then what is about to be. A loop that was closed has
forgotten some of it. -/
structure Ordered (convert : ρ → Option δ) (p : Posting ρ δ) : Prop where
  sublist : (p.ran ++ p.ready ++ p.inFlight.filterMap convert).Sublist
    (p.found.filterMap convert)
  all : p.closed = false →
    p.ran ++ p.ready ++ p.inFlight.filterMap convert = p.found.filterMap convert

/-- A new posting is in order. -/
theorem ordered_new : Ordered convert new := ⟨List.Sublist.refl _, fun _ => rfl⟩

/-- A thread that calls in turn keeps the order. -/
theorem ordered_step (hp : Ordered convert p) (ha : a.inTurn = true)
    (h : step convert a p = some p') : Ordered convert p' := by
  cases a with
  | find x =>
      cases h
      simp only [find]
      constructor
      · rw [List.filterMap_append, List.filterMap_append, ← List.append_assoc]
        exact hp.sublist.append (List.Sublist.refl _)
      · intro hc
        rw [List.filterMap_append, List.filterMap_append, ← List.append_assoc, hp.all hc]
  | call n =>
      obtain rfl : n = 0 := of_decide_eq_true ha
      obtain ⟨x, hx, hcall⟩ := call_cases h
      obtain ⟨rest, hfly⟩ : ∃ rest, p.inFlight = x :: rest := by
        cases hl : p.inFlight with
        | nil =>
            rw [hl] at hx
            cases hx
        | cons y rest =>
            rw [hl] at hx
            cases hx
            exact ⟨rest, rfl⟩
      have hsub := hp.sublist
      have hall := hp.all
      rw [hfly] at hsub hall
      obtain ⟨hc, rfl⟩ | ⟨d, hc, rfl⟩ := hcall
      · rw [List.filterMap_cons_none hc] at hsub hall
        simp only [hfly, List.eraseIdx_cons_zero]
        exact ⟨hsub, hall⟩
      · rw [List.filterMap_cons_some hc] at hsub hall
        simp only [hfly, List.eraseIdx_cons_zero]
        unfold post
        split
        next hcl =>
          refine ⟨List.Sublist.trans ?_ hsub, fun hopen => ?_⟩
          · exact List.Sublist.append_left (List.sublist_cons_self d _) _
          · exact absurd (hcl.symm.trans hopen) Bool.noConfusion
        next =>
          constructor
          · simpa using hsub
          · simpa using hall
  | run =>
      obtain ⟨d, rest, hr, rfl⟩ := run_cases h
      have hsub := hp.sublist
      have hall := hp.all
      rw [hr] at hsub hall
      constructor
      · simpa using hsub
      · simpa using hall
  | close =>
      cases h
      refine ⟨List.Sublist.trans ?_ hp.sublist, fun hopen => by cases hopen⟩
      simp only [close, List.append_nil]
      exact (List.sublist_append_left p.ran p.ready).append (List.Sublist.refl _)

/-- A run in which every thread calls in turn runs what it found in that
order. -/
theorem ordered_exec {as : List (Action ρ)} (hp : Ordered convert p)
    (has : ∀ a ∈ as, a.inTurn = true) (h : exec (step convert) p as = some p') :
    Ordered convert p' := by
  induction as generalizing p with
  | nil =>
      cases h
      exact hp
  | cons a rest ih =>
      obtain ⟨m, ha, hrest⟩ := Transition.exec_cons_cases h
      have hm := ordered_step hp (has a (List.mem_cons_self ..)) ha
      exact ih hm (fun b hb => has b (List.mem_cons_of_mem _ hb)) hrest

end Posting

end Asyncio
