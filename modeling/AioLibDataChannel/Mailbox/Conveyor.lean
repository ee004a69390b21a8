/-
A mailbox is a conveyor: entries leave from the head and come to the
tail, and nothing overtakes.

# What leaves and what comes

`Conveys out added m m'` says it of one step or of many. An entry leaves
by being taken or by being dropped, and a step does at most one of the
two (`conveys_step`), so the order of leaving is one list however it is
split afterwards. Whatever stands ahead of a marker leaves before any
marker does (`ahead_of_marker`).

# When a marker is the last word

A reader that took a marker has been told that nothing more will come.
That is true as long as only markers are left (`Spent`). Putting later
breaks it, and so does a marker taken with items behind it; nothing else
does (`spent_step_iff`).
-/
import AioLibDataChannel.Mailbox.Basic
import Mathlib.Data.List.ReduceOption

namespace Mailbox

variable {α : Type*} {m m' m'' : Mailbox α} {a : Action α}

-- ============================================================== conveying

/-- `out` left from the head and `added` came to the tail. -/
def Conveys (out added : List (Option α)) (m m' : Mailbox α) : Prop :=
  m.entries ++ added = out ++ m'.entries

/-- A mailbox whose entries stay conveys nothing. -/
theorem Conveys.refl (h : m'.entries = m.entries) : Conveys [] [] m m' := by
  show m.entries ++ [] = [] ++ m'.entries
  rw [h, List.append_nil, List.nil_append]

/-- What leaves and enters adds up. -/
theorem Conveys.trans {out added out' added' : List (Option α)}
    (h : Conveys out added m m') (h' : Conveys out' added' m' m'') :
    Conveys (out ++ out') (added ++ added') m m'' := by
  show m.entries ++ (added ++ added') = out ++ out' ++ m''.entries
  calc m.entries ++ (added ++ added')
      = m.entries ++ added ++ added' := (List.append_assoc _ _ _).symm
    _ = out ++ (m'.entries ++ added') := by rw [h, List.append_assoc]
    _ = out ++ out' ++ m''.entries := by rw [h', List.append_assoc]

/-- The bound of a mailbox is fixed. -/
theorem maxsize_step (h : step a m = some m') : m'.maxsize = m.maxsize := by
  cases a with
  | close =>
      cases h
      rfl
  | put x =>
      cases h
      rfl
  | take => obtain ⟨rest, -, rfl⟩ | ⟨x, rest, -, rfl⟩ := takeStep_cases h <;> rfl

/-- The one way an entry is dropped: a put that finds no room drops the
oldest. -/
theorem dropped_step (h : step a m = some m') :
    m'.dropped = m.dropped
      ∨ ∃ x e rest, a = .put x ∧ m.full = true ∧ m.entries = e :: rest
        ∧ m'.dropped = m.dropped ++ [e] := by
  cases a with
  | close =>
      cases h
      exact Or.inl rfl
  | put x =>
      cases h
      unfold putStep
      cases hf : m.full with
      | false => exact Or.inl (List.append_nil _)
      | true =>
          cases he : m.entries with
          | nil => exact Or.inl (List.append_nil _)
          | cons e rest => exact Or.inr ⟨x, e, rest, rfl, rfl, rfl, rfl⟩
  | take =>
      left
      obtain ⟨rest, -, rfl⟩ | ⟨x, rest, -, rfl⟩ := takeStep_cases h <;> rfl

/-- A put leaves its item newest. -/
theorem put_newest {x : α} (h : step (.put x) m = some m') :
    m'.entries.getLast? = some (some x) := by
  cases h
  exact List.getLast?_concat

/-- One step conveys: what left was taken or dropped, and what came of
items is what was put. -/
theorem conveys_step (h : step a m = some m') :
    ∃ out added, Conveys out added m m'
      ∧ m'.put = m.put ++ added.reduceOption
      ∧ ((m'.taken = m.taken ++ out ∧ m'.dropped = m.dropped)
        ∨ (m'.taken = m.taken ∧ m'.dropped = m.dropped ++ out)) := by
  cases a with
  | close =>
      cases h
      cases hf : m.full with
      | false =>
          refine ⟨[], [none], ?_, (List.append_nil _).symm, Or.inr ⟨rfl, (List.append_nil _).symm⟩⟩
          show m.entries ++ [none] = [] ++ (if m.full then m.entries else m.entries ++ [none])
          rw [hf]
          rfl
      | true =>
          refine ⟨[], [], Conveys.refl ?_, (List.append_nil _).symm,
            Or.inr ⟨rfl, (List.append_nil _).symm⟩⟩
          show (if m.full then m.entries else m.entries ++ [none]) = _
          rw [if_pos hf]
  | put x =>
      cases h
      cases hf : m.full with
      | false =>
          refine ⟨[], [some x], ?_, rfl, Or.inr ⟨rfl, ?_⟩⟩
          · show m.entries ++ [some x]
              = [] ++ ((if m.full then m.entries.tail else m.entries) ++ [some x])
            rw [hf]
            rfl
          · show m.dropped ++ (if m.full then m.entries.take 1 else []) = _
            rw [hf]
            rfl
      | true =>
          refine ⟨m.entries.take 1, [some x], ?_, rfl, Or.inr ⟨rfl, ?_⟩⟩
          · show m.entries ++ [some x]
              = m.entries.take 1
                ++ ((if m.full then m.entries.tail else m.entries) ++ [some x])
            rw [if_pos hf, ← List.append_assoc, ← List.drop_one, List.take_append_drop]
          · show m.dropped ++ (if m.full then m.entries.take 1 else []) = _
            rw [if_pos hf]
  | take =>
      obtain ⟨rest, he, rfl⟩ | ⟨x, rest, he, rfl⟩ := takeStep_cases h
      · refine ⟨[none], [none], ?_, (List.append_nil _).symm, Or.inl ⟨rfl, rfl⟩⟩
        show m.entries ++ [none] = [none] ++ (rest ++ [none])
        rw [he]
        rfl
      · refine ⟨[some x], [], ?_, (List.append_nil _).symm, Or.inl ⟨rfl, rfl⟩⟩
        show m.entries ++ [] = [some x] ++ rest
        rw [he, List.append_nil]
        rfl

/-- What stands ahead of a marker leaves before any marker does. -/
theorem ahead_of_marker {items : List α} {rest added out after queued : List (Option α)}
    (h : items.map some ++ none :: rest ++ added = out ++ none :: after ++ queued) :
    items.map some <+: out := by
  rw [List.append_assoc, List.append_assoc] at h
  rcases List.append_eq_append_iff.mp h with ⟨mid, hout, -⟩ | ⟨mid, hitems, hmid⟩
  · rw [hout]
    exact List.prefix_append _ _
  · cases mid with
    | nil =>
        have heq : items.map some = out := hitems.trans (List.append_nil out)
        exact heq ▸ List.prefix_refl _
    | cons e mid =>
        -- the marker would be one of the items
        have he : e = none := (List.cons.inj hmid).1.symm
        have hmem : e ∈ items.map some := by
          rw [hitems]
          exact List.mem_append_right _ List.mem_cons_self
        obtain ⟨x, -, hx⟩ := List.mem_map.mp hmem
        rw [he] at hx
        cases hx

-- ======================================================= the last word

/-- Once a marker was taken there is a marker to take, and nothing
else. -/
def Spent (m : Mailbox α) : Prop :=
  none ∈ m.taken → m.entries ≠ [] ∧ ∀ e ∈ m.entries, e = none

/-- Nothing but markers is taken after the first marker. -/
def MarkersLast (taken : List (Option α)) : Prop :=
  ∀ before after, taken = before ++ none :: after → ∀ e ∈ after, e = none

/-- The action leaves nothing behind a marker that was taken: no item is
put after that, and a marker is taken only from among markers. -/
def KeepsSpent : Action α → Mailbox α → Prop
  | .close, _ => True
  | .put _, m => none ∉ m.taken
  | .take, m => m.entries.head? = some none → ∀ e ∈ m.entries, e = none

/-- Step by step, a spent mailbox stays spent exactly under the
condition. -/
theorem spent_step_iff (hm : Spent m) (h : step a m = some m') :
    Spent m' ↔ KeepsSpent a m := by
  cases a with
  | close =>
      cases h
      refine ⟨fun _ => trivial, fun _ ht => ?_⟩
      obtain ⟨hne, hall⟩ := hm ht
      show (if m.full then m.entries else m.entries ++ [none]) ≠ []
        ∧ ∀ e ∈ (if m.full then m.entries else m.entries ++ [none]), e = none
      split
      · exact ⟨hne, hall⟩
      · refine ⟨List.append_ne_nil_of_left_ne_nil hne _, fun e he => ?_⟩
        rcases List.mem_append.mp he with he | he
        · exact hall e he
        · exact List.mem_singleton.mp he
  | put x =>
      cases h
      constructor
      · intro hs ht
        have hx : some x ∈ (m.putStep x).entries :=
          List.mem_append_right _ (List.mem_singleton_self _)
        cases (hs ht).2 _ hx
      · exact fun hk ht => absurd ht hk
  | take =>
      obtain ⟨rest, he, rfl⟩ | ⟨x, rest, he, rfl⟩ := takeStep_cases h
      · have htaken : none ∈ m.taken ++ [none] :=
          List.mem_append_right _ (List.mem_singleton_self _)
        simp only [Spent, KeepsSpent, he, List.head?_cons, forall_const]
        constructor
        · intro hs e hmem
          rcases List.mem_cons.mp hmem with rfl | hmem
          · rfl
          · exact (hs htaken).2 e (List.mem_append_left _ hmem)
        · intro hk _
          refine ⟨List.append_ne_nil_of_right_ne_nil _ (List.cons_ne_nil _ _),
            fun e hmem => ?_⟩
          rcases List.mem_append.mp hmem with hmem | hmem
          · exact hk e (List.mem_cons_of_mem _ hmem)
          · exact List.mem_singleton.mp hmem
      · have hnot : none ∉ m.taken := by
          intro ht
          have hx := (hm ht).2 (some x) (by rw [he]; exact List.mem_cons_self)
          cases hx
        constructor
        · intro _ hhead
          rw [he] at hhead
          cases hhead
        · intro _ ht
          rcases List.mem_append.mp ht with ht | ht
          · exact absurd ht hnot
          · cases List.mem_singleton.mp ht

/-- Taking from a spent mailbox adds no item after a marker. -/
theorem markersLast_step (hm : Spent m) (hl : MarkersLast m.taken)
    (h : step a m = some m') : MarkersLast m'.taken := by
  have hone : ∀ e, (none ∈ m.taken → e = none) → MarkersLast (m.taken ++ [e]) := by
    intro e he before after heq e' hmem
    rcases List.append_eq_append_iff.mp heq with ⟨mid, hbefore, hmid⟩ | ⟨mid, htaken, hmid⟩
    · -- the marker is the entry just taken, and nothing follows it
      have hlen := congrArg List.length hmid
      simp only [List.length_append, List.length_cons, List.length_nil] at hlen
      have hnil : after.length = 0 := by omega
      rw [List.length_eq_zero_iff.mp hnil] at hmem
      cases hmem
    · cases mid with
      | nil =>
          have hafter : after = [] := (List.cons.inj hmid).2
          rw [hafter] at hmem
          cases hmem
      | cons c mid =>
          obtain ⟨rfl, hafter⟩ := List.cons.inj hmid
          rw [hafter] at hmem
          rcases List.mem_append.mp hmem with hmem | hmem
          · exact hl before mid htaken e' hmem
          · rw [List.mem_singleton.mp hmem]
            refine he ?_
            rw [htaken]
            exact List.mem_append_right _ List.mem_cons_self
  cases a with
  | close =>
      cases h
      exact hl
  | put x =>
      cases h
      exact hl
  | take =>
      obtain ⟨rest, -, rfl⟩ | ⟨x, rest, he, rfl⟩ := takeStep_cases h
      · exact hone none fun _ => rfl
      · refine hone (some x) fun ht => ?_
        exact (hm ht).2 (some x) (by rw [he]; exact List.mem_cons_self)

end Mailbox
