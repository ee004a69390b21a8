/-
The consumers of a queue, seen from outside: which tasks are in
`get()`, and why each of them will be resumed.

A program that calls `Queue.get()` keeps its own account of which tasks
are suspended there (`waiting`) and of which are owed a cancellation
(`owed`). `Serves` ties that account to the two lists inside the queue:
every listed consumer is waiting, every waiting consumer is listed or
owed, nobody is listed twice. With the queue's own `attended` field it
says that a consumer is never forgotten next to an item
(`Serves.exists_woken`).

Each queue operation has its rule; a program's invariant proof picks
the rule of the operation its step performs.
-/
import AioLibDataChannel.Asyncio.Queue
import Mathlib.Data.List.Nodup
import Mathlib.Data.List.Perm.Basic

namespace Asyncio

namespace Queue

variable {α ι : Type*} {q q' : Queue α ι} {waiting waiting' owed owed' : ι → Prop}

/-- The queue's lists agree with the tasks in `get()`. -/
structure Serves (q : Queue α ι) (waiting owed : ι → Prop) : Prop where
  listed : ∀ t ∈ q.getters ++ q.woken, waiting t
  reached : ∀ t, waiting t → owed t ∨ t ∈ q.getters ++ q.woken
  unowed : ∀ t ∈ q.getters, ¬ owed t
  nodup : (q.getters ++ q.woken).Nodup

/-- A new queue agrees with tasks none of which waits. -/
theorem serves_new (maxsize : Nat) (hw : ∀ t, ¬ waiting t) :
    (new maxsize : Queue α ι).Serves waiting owed where
  listed := nofun
  reached := fun t ht => absurd ht (hw t)
  unowed := nofun
  nodup := List.nodup_nil

/-- The account changed at tasks the queue does not know. -/
theorem Serves.congr (h : q.Serves waiting owed)
    (hw : ∀ t, waiting' t ↔ waiting t)
    (ho : ∀ t, waiting t → (owed' t ↔ owed t)) : q.Serves waiting' owed' where
  listed := fun t ht => (hw t).mpr (h.listed t ht)
  reached := by
    intro t ht
    have hwt : waiting t := (hw t).mp ht
    rcases h.reached t hwt with hot | hmem
    · exact Or.inl ((ho t hwt).mpr hot)
    · exact Or.inr hmem
  unowed := by
    intro t ht hot
    have hwt : waiting t := h.listed t (List.mem_append_left _ ht)
    exact h.unowed t ht ((ho t hwt).mp hot)
  nodup := h.nodup

/-- Consumers were woken, and nothing else. -/
theorem Serves.of_woken (h : q.Serves waiting owed)
    (hp : (q'.getters ++ q'.woken).Perm (q.getters ++ q.woken))
    (hg : ∀ t ∈ q'.getters, t ∈ q.getters) : q'.Serves waiting owed where
  listed := fun t ht => h.listed t (hp.mem_iff.mp ht)
  reached := fun t ht => (h.reached t ht).imp id hp.mem_iff.mpr
  unowed := fun t ht => h.unowed t (hg t ht)
  nodup := hp.nodup_iff.mpr h.nodup

/-- The parked consumer at the front moves to the woken ones. -/
theorem perm_wake (gs ws : List ι) :
    (gs.tail ++ (ws ++ gs.take 1)).Perm (gs ++ ws) := by
  cases gs with
  | nil => simp
  | cons g gs =>
      show (gs ++ (ws ++ [g])).Perm (g :: (gs ++ ws))
      rw [← List.append_assoc]
      exact List.perm_append_singleton g (gs ++ ws)

/-- An item more is one more for the consumers. -/
theorem Serves.push (h : q.Serves waiting owed) (x : α) (hf : q.full = false) :
    (q.push x hf).Serves waiting owed :=
  h.of_woken (perm_wake q.getters q.woken) fun _ => List.mem_of_mem_tail

/-- `put_nowait()` that goes through serves. -/
theorem Serves.putNowait {x : α} (h : q.Serves waiting owed)
    (hput : q.putNowait x = some q') : q'.Serves waiting owed := by
  cases hf : q.full with
  | false =>
      rw [putNowait_of_room hf] at hput
      cases hput
      exact h.push x hf
  | true =>
      rw [putNowait_of_full hf] at hput
      cases hput

/-- A put whose `QueueFull` is suppressed serves, whether or not it went
through. -/
theorem Serves.putSuppressed (h : q.Serves waiting owed) (x : α) :
    (q.putSuppressed x).Serves waiting owed := by
  unfold Queue.putSuppressed
  cases hput : q.putNowait x with
  | none => exact h
  | some q' => exact h.putNowait hput

/-- Dropping the oldest item leaves the consumers as they are. -/
theorem Serves.drop (h : q.Serves waiting owed) : q.drop.Serves waiting owed :=
  h.of_woken (List.Perm.refl _) fun _ ht => ht

/-- A `get_nowait()` takes an item and leaves the consumers theirs. -/
theorem Serves.getNowait {x : α} (h : q.Serves waiting owed)
    (hget : q.getNowait = some (x, q')) : q'.Serves waiting owed := by
  rw [(getNowait_eq_some hget).2]
  exact h.drop

/-- A task enters `get()` on an empty queue. -/
theorem Serves.park {t : ι} (h : q.Serves waiting owed) (he : q.items = [])
    (ht : ¬ waiting t) (hot : ¬ owed t)
    (hw : ∀ u, waiting' u ↔ u = t ∨ waiting u) :
    (q.park t).Serves waiting' owed := by
  have hnot : t ∉ q.getters ++ q.woken := fun hm => ht (h.listed t hm)
  have hp : (q.getters ++ [t] ++ q.woken).Perm (t :: (q.getters ++ q.woken)) := by
    rw [List.append_assoc]
    exact List.perm_middle
  rw [Queue.park, dif_pos he]
  constructor
  · intro u hu
    rw [hw u]
    rcases List.mem_cons.mp (hp.mem_iff.mp hu) with rfl | hu
    · exact Or.inl rfl
    · exact Or.inr (h.listed u hu)
  · intro u hu
    rcases (hw u).mp hu with rfl | hu
    · exact Or.inr (hp.mem_iff.mpr (List.mem_cons_self ..))
    · exact (h.reached u hu).imp id
        fun hm => hp.mem_iff.mpr (List.mem_cons_of_mem _ hm)
  · intro u hu
    rcases List.mem_append.mp hu with hu | hu
    · exact h.unowed u hu
    · rw [List.mem_singleton.mp hu]
      exact hot
  · exact hp.nodup_iff.mpr (List.nodup_cons.mpr ⟨hnot, h.nodup⟩)

variable [DecidableEq ι]

/-- A task in `get()` is cancelled. -/
theorem Serves.unpark {t : ι} (h : q.Serves waiting owed)
    (ho : ∀ u, owed' u ↔ u = t ∨ owed u) :
    (q.unpark t).Serves waiting owed' := by
  have hsub : (q.getters.erase t ++ q.woken).Sublist (q.getters ++ q.woken) :=
    List.erase_sublist.append_right _
  have hgn : q.getters.Nodup := (List.nodup_append'.mp h.nodup).1
  constructor
  · exact fun u hu => h.listed u (hsub.subset hu)
  · intro u hu
    by_cases hut : u = t
    · exact Or.inl ((ho u).mpr (Or.inl hut))
    · rcases h.reached u hu with hou | hm
      · exact Or.inl ((ho u).mpr (Or.inr hou))
      · right
        rcases List.mem_append.mp hm with hm | hm
        · exact List.mem_append_left _ ((List.mem_erase_of_ne hut).mpr hm)
        · exact List.mem_append_right _ hm
  · intro u hu hou
    have hu' : u ≠ t ∧ u ∈ q.getters := hgn.mem_erase_iff.mp hu
    rcases (ho u).mp hou with rfl | hou
    · exact hu'.1 rfl
    · exact h.unowed u hu'.2 hou
  · exact h.nodup.sublist hsub

/-- A consumer that is no longer parked leaves `get()`. -/
theorem Serves.leave {t : ι} (h : q.Serves waiting owed)
    (hp : (q'.getters ++ q'.woken).Perm (q.getters ++ q.woken.erase t))
    (hg : ∀ u ∈ q'.getters, u ∈ q.getters) (hnot : t ∉ q.getters)
    (hw : ∀ u, waiting' u ↔ u ≠ t ∧ waiting u)
    (ho : ∀ u, u ≠ t → (owed' u ↔ owed u)) : q'.Serves waiting' owed' := by
  have hwn : q.woken.Nodup := (List.nodup_append'.mp h.nodup).2.1
  have hsub : (q.getters ++ q.woken.erase t).Sublist (q.getters ++ q.woken) :=
    List.erase_sublist.append_left _
  have hne : ∀ u ∈ q.getters ++ q.woken.erase t, u ≠ t := by
    intro u hu
    rcases List.mem_append.mp hu with hug | huw
    · exact fun hut => hnot (hut ▸ hug)
    · exact (hwn.mem_erase_iff.mp huw).1
  constructor
  · intro u hu
    have hu' := hp.mem_iff.mp hu
    exact (hw u).mpr ⟨hne u hu', h.listed u (hsub.subset hu')⟩
  · intro u hu
    obtain ⟨hut, hwu⟩ := (hw u).mp hu
    refine (h.reached u hwu).imp (ho u hut).mpr fun hm => hp.mem_iff.mpr ?_
    rcases List.mem_append.mp hm with hm | hm
    · exact List.mem_append_left _ hm
    · exact List.mem_append_right _ ((List.mem_erase_of_ne hut).mpr hm)
  · intro u hu hou
    have hut : u ≠ t := by
      intro heq
      subst heq
      exact hnot (hg u hu)
    exact h.unowed u (hg u hu) ((ho u hut).mp hou)
  · exact hp.nodup_iff.mpr (h.nodup.sublist hsub)

/-- A woken consumer takes the head. -/
theorem Serves.takeWoken {t : ι} (h : q.Serves waiting owed) (ht : t ∈ q.woken)
    (hw : ∀ u, waiting' u ↔ u ≠ t ∧ waiting u) :
    (q.takeWoken t).Serves waiting' owed := by
  have hnot : t ∉ q.getters := fun hm =>
    List.disjoint_of_nodup_append h.nodup hm ht
  rw [Queue.takeWoken, dif_pos ht]
  exact h.leave (List.Perm.refl _) (fun _ hu => hu) hnot hw fun _ _ => Iff.rfl

/-- A consumer owed a cancellation leaves. -/
theorem Serves.passOn {t : ι} (h : q.Serves waiting owed) (ht : owed t)
    (hw : ∀ u, waiting' u ↔ u ≠ t ∧ waiting u)
    (ho : ∀ u, u ≠ t → (owed' u ↔ owed u)) :
    (q.passOn t).Serves waiting' owed' := by
  have hnot : t ∉ q.getters := fun hm => h.unowed t hm ht
  unfold Queue.passOn
  split
  next hmem =>
    by_cases he : q.items = []
    · refine h.leave ?_ ?_ hnot hw ho
      · simp [he]
      · simp [he]
    · refine h.leave ?_ ?_ hnot hw ho
      · simp only [he, if_false]
        exact perm_wake q.getters (q.woken.erase t)
      · simp only [he, if_false]
        exact fun _ => List.mem_of_mem_tail
  next hmem =>
    refine h.leave ?_ (fun _ hu => hu) hnot hw ho
    rw [List.erase_of_not_mem hmem]

/-- A woken consumer that found the queue empty parks again. -/
theorem Serves.repark {t : ι} (h : q.Serves waiting owed) (ht : t ∈ q.woken)
    (hot : ¬ owed t) : (q.repark t).Serves waiting owed := by
  unfold Queue.repark
  split
  next he =>
    have hp : (q.getters ++ [t] ++ q.woken.erase t).Perm (q.getters ++ q.woken) := by
      rw [List.append_assoc]
      exact (List.perm_cons_erase ht).symm.append_left _
    constructor
    · exact fun u hu => h.listed u (hp.mem_iff.mp hu)
    · exact fun u hu => (h.reached u hu).imp id hp.mem_iff.mpr
    · intro u hu
      rcases List.mem_append.mp hu with hu | hu
      · exact h.unowed u hu
      · rw [List.mem_singleton.mp hu]
        exact hot
    · exact hp.nodup_iff.mpr h.nodup
  next => exact h

omit [DecidableEq ι] in
/-- No consumer is forgotten: with an item in the queue and a consumer
parked, another one is on its way. -/
theorem exists_woken {t : ι} (hne : q.items ≠ []) (ht : t ∈ q.getters) :
    ∃ u, u ∈ q.woken := by
  have hpos : 0 < q.items.length := List.length_pos_iff.mpr hne
  rcases q.attended with hg | hle
  · rw [hg] at ht
    cases ht
  · exact List.exists_mem_of_length_pos (Nat.lt_of_lt_of_le hpos hle)

/-- How many consumers the queue knows. -/
def consumers (q : Queue α ι) : Nat := (q.getters ++ q.woken).length

omit [DecidableEq ι] in
/-- A `put` wakes a consumer and takes none off the lists. -/
theorem consumers_push (x : α) (hf : q.full = false) :
    (q.push x hf).consumers = q.consumers :=
  (perm_wake q.getters q.woken).length_eq

/-- The woken consumer that takes an item leaves the lists. -/
theorem consumers_takeWoken {t : ι} (ht : t ∈ q.woken) :
    (q.takeWoken t).consumers + 1 = q.consumers := by
  have hpos := List.length_pos_of_mem ht
  have hlen := List.length_erase_of_mem ht
  rw [Queue.takeWoken, dif_pos ht]
  show (q.getters ++ q.woken.erase t).length + 1 = (q.getters ++ q.woken).length
  rw [List.length_append, List.length_append]
  omega

/-- A woken consumer that is cancelled and passes its turn on leaves the
lists. -/
theorem consumers_passOn {t : ι} (ht : t ∈ q.woken) :
    (q.passOn t).consumers + 1 = q.consumers := by
  have hpos := List.length_pos_of_mem ht
  have hlen := List.length_erase_of_mem ht
  unfold consumers
  rw [Queue.passOn, dif_pos ht]
  by_cases he : q.items = []
  · simp only [he, if_true, List.append_nil, List.length_append]
    omega
  · simp only [he, if_false]
    rw [(perm_wake q.getters (q.woken.erase t)).length_eq, List.length_append,
      List.length_append]
    omega

end Queue

end Asyncio
