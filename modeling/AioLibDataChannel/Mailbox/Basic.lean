/-
A mailbox that is closed by a marker in its own queue.

Readers learn of the closing from the queue they read: closing puts a
marker behind the items already there, and a reader that takes the
marker puts it back for the next one. The scheme has to answer two
questions when the queue is bounded — what happens to the marker when
there is no room, and what happens to the marker when a later item
needs room.

This mailbox answers them the cheap way. Closing a full mailbox leaves
no marker, and putting into a full mailbox drops the oldest entry,
marker or not. So "closed implies marked" is not an invariant; `Keeps`
says of every action whether it survives, exactly
(`marked_step_iff`).

An entry `none` is the marker. `put`, `taken` and `dropped` are the
histories, oldest first.
-/
import Mathlib.Data.List.Basic

/-- A bounded queue of items and markers, and what went through it; a
`maxsize` of zero is no bound. -/
structure Mailbox (α : Type*) where
  maxsize : Nat
  entries : List (Option α)
  closed : Bool
  put : List α
  taken : List (Option α)
  dropped : List (Option α)
deriving DecidableEq, Repr

namespace Mailbox

variable {α : Type*}

/-- No room left. -/
def full (m : Mailbox α) : Bool :=
  decide (0 < m.maxsize ∧ m.maxsize ≤ m.entries.length)

/-- Close, put an item, or let a reader take the oldest entry. -/
inductive Action (α : Type*)
  | close
  | put (x : α)
  | take
deriving DecidableEq, Repr

/-- Closing: the marker goes in if there is room. -/
def closeStep (m : Mailbox α) : Mailbox α :=
  { m with
    closed := true
    entries := if m.full then m.entries else m.entries ++ [none] }

/-- Putting: the oldest entry makes room if there is none. -/
def putStep (x : α) (m : Mailbox α) : Mailbox α :=
  { m with
    entries := (if m.full then m.entries.tail else m.entries) ++ [some x]
    put := m.put ++ [x]
    dropped := m.dropped ++ (if m.full then m.entries.take 1 else []) }

/-- Taking the oldest entry; a marker goes back to the tail. -/
def takeStep (m : Mailbox α) : Option (Mailbox α) :=
  match m.entries with
  | [] => none
  | none :: rest =>
      some { m with entries := rest ++ [none], taken := m.taken ++ [none] }
  | some x :: rest =>
      some { m with entries := rest, taken := m.taken ++ [some x] }

def step : Action α → Mailbox α → Option (Mailbox α)
  | .close, m => some m.closeStep
  | .put x, m => some (m.putStep x)
  | .take, m => m.takeStep

/-- What closing promises its readers. -/
def Marked (m : Mailbox α) : Prop := m.closed = true → none ∈ m.entries

/-- The action leaves a marker where closing needs one: closing finds
room or an older marker, and putting into a full closed mailbox does not
drop the only marker. -/
def Keeps : Action α → Mailbox α → Prop
  | .close, m => m.full = false ∨ none ∈ m.entries
  | .put _, m => m.closed = true → m.full = true → none ∈ m.entries.tail
  | .take, _ => True

instance [DecidableEq α] (a : Action α) (m : Mailbox α) :
    Decidable (Keeps a m) := by
  cases a <;> unfold Keeps <;> infer_instance

/-- What a taking takes: a marker, which goes back to the tail, or an
item. -/
theorem takeStep_cases {m m' : Mailbox α} (h : m.takeStep = some m') :
    (∃ rest, m.entries = none :: rest
        ∧ m' = { m with entries := rest ++ [none], taken := m.taken ++ [none] })
      ∨ ∃ x rest, m.entries = some x :: rest
        ∧ m' = { m with entries := rest, taken := m.taken ++ [some x] } := by
  unfold takeStep at h
  split at h
  next => cases h
  next rest he =>
    cases h
    exact Or.inl ⟨rest, he, rfl⟩
  next x rest he =>
    cases h
    exact Or.inr ⟨x, rest, he, rfl⟩

/-- Taking leaves a marker wherever there was one, and closes
nothing. -/
theorem takeStep_keeps {m m' : Mailbox α} (h : m.takeStep = some m') :
    m'.closed = m.closed ∧ (none ∈ m.entries → none ∈ m'.entries) := by
  obtain ⟨rest, -, rfl⟩ | ⟨x, rest, he, rfl⟩ := takeStep_cases h
  · refine ⟨rfl, fun _ => ?_⟩
    exact List.mem_append_right _ (List.mem_singleton_self _)
  · refine ⟨rfl, fun hm => ?_⟩
    rw [he] at hm
    rcases List.mem_cons.mp hm with hx | hrest
    · cases hx
    · exact hrest

/-- Only closing brings a marker. -/
theorem marker_step {a : Action α} {m m' : Mailbox α} (h : step a m = some m')
    (hm : none ∈ m'.entries) : none ∈ m.entries ∨ a = .close := by
  cases a with
  | close => exact Or.inr rfl
  | put x =>
      cases h
      left
      rcases List.mem_append.mp hm with hold | hnew
      · split at hold
        · exact List.mem_of_mem_tail hold
        · exact hold
      · cases List.mem_singleton.mp hnew
  | take =>
      left
      obtain ⟨rest, he, -⟩ | ⟨x, rest, he, rfl⟩ := takeStep_cases h
      · rw [he]
        exact List.mem_cons_self
      · rw [he]
        exact List.mem_cons_of_mem _ hm

/-- A marked mailbox stays marked exactly under the actions that keep
the marker. -/
theorem marked_step_iff {a : Action α} {m m' : Mailbox α} (hm : Marked m)
    (h : step a m = some m') : Marked m' ↔ Keeps a m := by
  cases a with
  | close =>
      cases h
      show (true = true → none ∈ m.closeStep.entries) ↔ _
      unfold closeStep
      cases hf : m.full with
      | false => simp [Keeps, hf]
      | true => simp [Keeps, hf]
  | put x =>
      cases h
      show (m.closed = true → none ∈ (m.putStep x).entries) ↔ _
      unfold putStep
      cases hf : m.full with
      | false =>
          simp only [Keeps, hf, Bool.false_eq_true, if_false, false_imp_iff,
            implies_true, iff_true]
          intro hc
          exact List.mem_append_left _ (hm hc)
      | true => simp [Keeps, hf]
  | take =>
      obtain ⟨hclosed, hkeep⟩ := takeStep_keeps h
      simp only [Keeps, iff_true]
      intro hc
      rw [hclosed] at hc
      exact hkeep (hm hc)

end Mailbox
