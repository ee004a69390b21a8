/-
A family of latches: events that are raised and never lowered, and the
tasks waiting for them.

A task waits for one key at a time. A wait for a key that was raised at
any time before returns at once, a task parked before that is woken by
the raise, and nothing else ends a wait but the task's own cancellation.
So who can go on is read off the flags (`resume_iff`), the flags off the
raises of the run (`raised_exec`), and a task that is never cancelled is
parked for good as long as its key is not raised (`parked_exec`).
-/
import AioLibDataChannel.Asyncio.Event
import AioLibDataChannel.Transition.Run

namespace Asyncio

open Function (update)
open Transition (exec)

/-- The events by key, the key each task waits for, the cancellations
owed to tasks, and the waits that returned, oldest first. -/
structure Latches (κ ι : Type*) where
  event : κ → Event ι
  waiting : ι → Option κ
  owed : ι → Bool
  returned : List (ι × κ)

namespace Latches

variable {κ ι : Type*} [DecidableEq κ] [DecidableEq ι]

/-- `Event.set()`. -/
def raise (k : κ) (l : Latches κ ι) : Latches κ ι :=
  { l with event := update l.event k (l.event k).set }

/-- `Event.wait()`. A task that is owed a cancellation gets it where it
suspends, and is off the list before it runs again. -/
def wait (t : ι) (k : κ) (l : Latches κ ι) : Option (Latches κ ι) :=
  match l.waiting t with
  | some _ => none
  | none =>
      if (l.event k).value then some { l with returned := l.returned ++ [(t, k)] }
      else
        let parked := (l.event k).park t
        some { l with
          event := update l.event k (if l.owed t then parked.leave t else parked)
          waiting := update l.waiting t (some k) }

/-- A task in `wait()` runs: it is cancelled, or it was woken. -/
def resume (t : ι) (l : Latches κ ι) : Option (Latches κ ι) :=
  match l.waiting t with
  | none => none
  | some k =>
      let l' : Latches κ ι := { l with
        event := update l.event k ((l.event k).leave t)
        waiting := update l.waiting t none }
      if l.owed t then some { l' with owed := update l.owed t false }
      else if t ∈ (l.event k).woken then
        some { l' with returned := l.returned ++ [(t, k)] }
      else none

/-- The task is cancelled: parked, it leaves the list at once. -/
def cancel (t : ι) (l : Latches κ ι) : Latches κ ι :=
  match l.waiting t with
  | none => { l with owed := update l.owed t true }
  | some k =>
      { l with
        event := if t ∈ (l.event k).waiters then update l.event k ((l.event k).leave t)
          else l.event
        owed := update l.owed t true }

/-- The cancellation reaches the task outside of `wait()`. -/
def absorb (t : ι) (l : Latches κ ι) : Option (Latches κ ι) :=
  match l.waiting t with
  | none => some { l with owed := update l.owed t false }
  | some _ => none

/-- What happens to the family. -/
inductive Action (κ ι : Type*)
  | raise (k : κ)
  | wait (t : ι) (k : κ)
  | resume (t : ι)
  | cancel (t : ι)
  | absorb (t : ι)
deriving DecidableEq, Repr

def step : Action κ ι → Latches κ ι → Option (Latches κ ι)
  | .raise k, l => some (l.raise k)
  | .wait t k, l => l.wait t k
  | .resume t, l => l.resume t
  | .cancel t, l => some (l.cancel t)
  | .absorb t, l => l.absorb t

-- ============================================================= inversion

variable {l l' : Latches κ ι} {a : Action κ ι} {t u : ι} {k : κ}

/-- Everything a step can be. -/
inductive Step (l : Latches κ ι) : Action κ ι → Latches κ ι → Prop
  | raised (k : κ) : Step l (.raise k) (l.raise k)
  | atOnce (t : ι) (k : κ) (hfree : l.waiting t = none)
      (hup : (l.event k).value = true) :
      Step l (.wait t k) { l with returned := l.returned ++ [(t, k)] }
  | parks (t : ι) (k : κ) (hfree : l.waiting t = none)
      (hdown : (l.event k).value = false) (e : Event ι)
      (he : e = if l.owed t then ((l.event k).park t).leave t else (l.event k).park t) :
      Step l (.wait t k)
        { l with
          event := update l.event k e
          waiting := update l.waiting t (some k) }
  | cancelled (t : ι) (k : κ) (hwait : l.waiting t = some k) (howed : l.owed t = true) :
      Step l (.resume t)
        { l with
          event := update l.event k ((l.event k).leave t)
          waiting := update l.waiting t none
          owed := update l.owed t false }
  | woken (t : ι) (k : κ) (hwait : l.waiting t = some k) (hfree : l.owed t = false)
      (hwoken : t ∈ (l.event k).woken) :
      Step l (.resume t)
        { l with
          event := update l.event k ((l.event k).leave t)
          waiting := update l.waiting t none
          returned := l.returned ++ [(t, k)] }
  | struck (t : ι) (e : κ → Event ι)
      (he : e = l.event ∨ ∃ k, l.waiting t = some k
        ∧ e = update l.event k ((l.event k).leave t)) :
      Step l (.cancel t) { l with event := e, owed := update l.owed t true }
  | absorbed (t : ι) (hfree : l.waiting t = none) :
      Step l (.absorb t) { l with owed := update l.owed t false }

/-- The transition takes no other step. -/
theorem step_cases (h : step a l = some l') : Step l a l' := by
  cases a with
  | raise k =>
      cases h
      exact .raised k
  | wait t k =>
      simp only [step, wait] at h
      split at h
      next => cases h
      next hfree =>
        split at h
        next hup =>
          cases h
          exact .atOnce t k hfree hup
        next hdown =>
          cases h
          exact .parks t k hfree ((Bool.not_eq_true _).mp hdown) _ rfl
  | resume t =>
      simp only [step, resume] at h
      split at h
      next => cases h
      next k hwait =>
        split at h
        next howed =>
          cases h
          exact .cancelled t k hwait howed
        next howed =>
          split at h
          next hwoken =>
            cases h
            exact .woken t k hwait ((Bool.not_eq_true _).mp howed) hwoken
          next => cases h
  | cancel t =>
      cases h
      show Step l (.cancel t) (l.cancel t)
      unfold cancel
      split
      next => exact .struck t l.event (Or.inl rfl)
      next k hwait =>
        refine .struck t _ ?_
        split
        next => exact Or.inr ⟨k, hwait, rfl⟩
        next => exact Or.inl rfl
  | absorb t =>
      simp only [step, absorb] at h
      split at h
      next hfree =>
        cases h
        exact .absorbed t hfree
      next => cases h

-- ============================================================== the flags

omit [DecidableEq ι] in
/-- Changing one event in a way that keeps its flag keeps all flags. -/
theorem value_update {e : Event ι} (he : e.value = (l.event k).value) (j : κ) :
    (update l.event k e j).value = (l.event j).value := by
  by_cases hj : j = k
  · subst hj
    rw [Function.update_self, he]
  · rw [Function.update_of_ne hj]

omit [DecidableEq κ] in
/-- Neither a wait nor the cancellation of one sets an event. -/
theorem value_parked (t : ι) (owed : Bool) (e : Event ι) :
    (if owed then (e.park t).leave t else e.park t).value = e.value := by
  split
  · exact Event.park_value t e
  · exact Event.park_value t e

/-- A step raises the key it names, and nothing else moves a flag. -/
theorem raised_step (h : step a l = some l') (j : κ) :
    (l'.event j).value = true ↔ (l.event j).value = true ∨ a = .raise j := by
  have hsame : ∀ {e : κ → Event ι}, (∀ i, (e i).value = (l.event i).value) →
      (∀ i, a ≠ .raise i) →
      ((e j).value = true ↔ (l.event j).value = true ∨ a = .raise j) := by
    intro e he ha
    rw [he j]
    exact ⟨Or.inl, fun hj => hj.resolve_right (ha j)⟩
  cases step_cases h with
  | raised k =>
      show (update l.event k (l.event k).set j).value = true ↔ _
      by_cases hj : j = k
      · subst hj
        rw [Function.update_self]
        exact ⟨fun _ => Or.inr rfl, fun _ => rfl⟩
      · rw [Function.update_of_ne hj]
        exact ⟨Or.inl, fun h => h.resolve_right fun ha => hj (Action.raise.inj ha).symm⟩
  | atOnce t k _ _ => exact hsame (fun _ => rfl) nofun
  | parks t k _ _ e he =>
      exact hsame (value_update (he ▸ value_parked t (l.owed t) (l.event k))) nofun
  | cancelled t k _ _ => exact hsame (value_update rfl) nofun
  | woken t k _ _ _ => exact hsame (value_update rfl) nofun
  | struck t e he =>
      refine hsame ?_ nofun
      rcases he with rfl | ⟨k, -, rfl⟩
      · exact fun _ => rfl
      · exact value_update rfl
  | absorbed t _ => exact hsame (fun _ => rfl) nofun

/-- The flags after a run: those that were up, and those it raised. -/
theorem raised_exec {as : List (Action κ ι)} (h : exec step l as = some l') (j : κ) :
    (l'.event j).value = true ↔ (l.event j).value = true ∨ Action.raise j ∈ as := by
  induction as generalizing l with
  | nil =>
      cases h
      exact ⟨Or.inl, fun hj => hj.resolve_right List.not_mem_nil⟩
  | cons a rest ih =>
      obtain ⟨m, ha, hrest⟩ := Transition.exec_cons_cases h
      rw [ih hrest, raised_step ha, List.mem_cons, or_assoc]
      exact or_congr_right (or_congr_left eq_comm)

-- ============================================================ the account

/-- Nobody is woken by a flag that is down, and a waiting task is on the
list of its event unless a cancellation took it off. -/
structure Sound (l : Latches κ ι) : Prop where
  quiet : ∀ k, (l.event k).Quiet
  listed : ∀ t k, l.waiting t = some k → l.owed t = false → (l.event k).Listed t

omit [DecidableEq ι] in
/-- The events stay quiet if the one that changes does. -/
theorem quiet_update {e : Event ι} (h : ∀ j, (l.event j).Quiet) (he : e.Quiet) (j : κ) :
    (update l.event k e j).Quiet := by
  by_cases hj : j = k
  · subst hj
    rw [Function.update_self]
    exact he
  · rw [Function.update_of_ne hj]
    exact h j

omit [DecidableEq ι] in
/-- Whoever is listed stays so when one event is changed for one that
lists as many. -/
theorem listed_update {e : Event ι} {j : κ} (h : (l.event j).Listed u)
    (he : j = k → (l.event k).Listed u → e.Listed u) :
    (update l.event k e j).Listed u := by
  by_cases hj : j = k
  · subst hj
    rw [Function.update_self]
    exact he rfl h
  · rw [Function.update_of_ne hj]
    exact h

/-- A step keeps the latch sound. -/
theorem sound_step (hs : Sound l) (h : step a l = some l') : Sound l' := by
  cases step_cases h with
  | raised k =>
      refine ⟨quiet_update hs.quiet (Event.quiet_set _), fun u j hu ho => ?_⟩
      exact listed_update (hs.listed u j hu ho) fun _ => Event.Listed.set
  | atOnce t k _ _ => exact ⟨hs.quiet, hs.listed⟩
  | parks t k hfree hdown e he =>
      subst he
      refine ⟨quiet_update hs.quiet ?_, fun u j hu ho => ?_⟩
      · split
        · exact (hs.quiet k).park.leave
        · exact (hs.quiet k).park
      · have hu' : update l.waiting t (some k) u = some j := hu
        by_cases hut : u = t
        · subst hut
          rw [Function.update_self] at hu'
          cases hu'
          have howed : l.owed u = false := ho
          show (update l.event k _ k).Listed u
          rw [Function.update_self, howed, if_neg Bool.false_ne_true]
          exact Event.listed_park_self hdown
        · rw [Function.update_of_ne hut] at hu'
          refine listed_update (hs.listed u j hu' ho) fun _ hlisted => ?_
          split
          · exact hlisted.park.leave hut
          · exact hlisted.park
  | cancelled t k hwait howed =>
      refine ⟨quiet_update hs.quiet (hs.quiet k).leave, fun u j hu ho => ?_⟩
      have hu' : update l.waiting t none u = some j := hu
      by_cases hut : u = t
      · subst hut
        rw [Function.update_self] at hu'
        cases hu'
      · rw [Function.update_of_ne hut] at hu'
        have ho' : update l.owed t false u = false := ho
        rw [Function.update_of_ne hut] at ho'
        exact listed_update (hs.listed u j hu' ho') fun _ hl => hl.leave hut
  | woken t k hwait hfree hwoken =>
      refine ⟨quiet_update hs.quiet (hs.quiet k).leave, fun u j hu ho => ?_⟩
      have hu' : update l.waiting t none u = some j := hu
      by_cases hut : u = t
      · subst hut
        rw [Function.update_self] at hu'
        cases hu'
      · rw [Function.update_of_ne hut] at hu'
        exact listed_update (hs.listed u j hu' ho) fun _ hl => hl.leave hut
  | struck t e he =>
      have howed : ∀ {u}, update l.owed t true u = false → u ≠ t ∧ l.owed u = false := by
        intro u ho
        by_cases hut : u = t
        · subst hut
          rw [Function.update_self] at ho
          cases ho
        · rw [Function.update_of_ne hut] at ho
          exact ⟨hut, ho⟩
      rcases he with rfl | ⟨k, -, rfl⟩
      · exact ⟨hs.quiet, fun u j hu ho => hs.listed u j hu (howed ho).2⟩
      · refine ⟨quiet_update hs.quiet (hs.quiet k).leave, fun u j hu ho => ?_⟩
        exact listed_update (hs.listed u j hu (howed ho).2) fun _ hl =>
          hl.leave (howed ho).1
  | absorbed t hfree =>
      refine ⟨hs.quiet, fun u j hu ho => ?_⟩
      by_cases hut : u = t
      · subst hut
        rw [hfree] at hu
        cases hu
      · have ho' : update l.owed t false u = false := ho
        rw [Function.update_of_ne hut] at ho'
        exact hs.listed u j hu ho'

/-- A run keeps it sound. -/
theorem sound_exec {as : List (Action κ ι)} (hs : Sound l)
    (h : exec step l as = some l') : Sound l' :=
  (Transition.reachable_of_exec h).invariant hs fun hm ha => sound_step hm ha

-- =============================================================== the law

/-- A waiting task that is not cancelled can run exactly when its key
was raised. -/
theorem resume_iff (hs : Sound l) (ht : l.waiting t = some k) (ho : l.owed t = false) :
    (∃ l', l.resume t = some l') ↔ (l.event k).value = true := by
  have hres : l.resume t
      = if t ∈ (l.event k).woken then
          some { l with
            event := update l.event k ((l.event k).leave t)
            waiting := update l.waiting t none
            returned := l.returned ++ [(t, k)] }
        else none := by
    simp only [resume, ht, ho, Bool.false_eq_true, if_false]
  rw [hres]
  constructor
  · rintro ⟨l', hl'⟩
    by_cases hw : t ∈ (l.event k).woken
    · exact (hs.quiet k).raised hw
    · rw [if_neg hw] at hl'
      cases hl'
  · intro hv
    exact ⟨_, if_pos ((hs.listed t k ht ho).woken hv)⟩

/-- Then its wait returns, and no other does. -/
theorem returned_resume (ht : l.waiting t = some k) (ho : l.owed t = false)
    (h : l.resume t = some l') :
    l'.returned = l.returned ++ [(t, k)] ∧ l'.waiting t = none := by
  have hstep : step (.resume t) l = some l' := h
  cases step_cases hstep with
  | cancelled _ j hwait howed =>
      rw [ho] at howed
      cases howed
  | woken _ j hwait _ _ =>
      obtain rfl : j = k := Option.some.inj (hwait.symm.trans ht)
      exact ⟨rfl, Function.update_self ..⟩

/-- The actions that end a wait of `t` for `k`. -/
def Action.ends (t : ι) (k : κ) : Action κ ι → Bool
  | .raise j => decide (j = k)
  | .cancel u => decide (u = t)
  | _ => false

/-- One step leaves the wait alone unless it raises the key or cancels
the task. -/
theorem parked_step (hs : Sound l) (ht : l.waiting t = some k) (ho : l.owed t = false)
    (hv : (l.event k).value = false) (ha : a.ends t k = false)
    (h : step a l = some l') :
    l'.waiting t = some k ∧ l'.owed t = false ∧ (l'.event k).value = false := by
  have hdown : (l'.event k).value = false := by
    by_contra hup
    rcases (raised_step h k).mp ((Bool.not_eq_false _).mp hup) with hup | rfl
    · rw [hv] at hup
      cases hup
    · exact Bool.false_ne_true (ha.symm.trans (decide_eq_true rfl))
  suffices hkeep : l'.waiting t = some k ∧ l'.owed t = false from
    ⟨hkeep.1, hkeep.2, hdown⟩
  cases step_cases h with
  | raised j => exact ⟨ht, ho⟩
  | atOnce u j _ _ => exact ⟨ht, ho⟩
  | parks u j hfree _ e _ =>
      have htu : t ≠ u := by
        rintro rfl
        rw [ht] at hfree
        cases hfree
      exact ⟨(Function.update_of_ne htu ..).trans ht, ho⟩
  | cancelled u j hwait howed =>
      have htu : t ≠ u := by
        rintro rfl
        rw [ho] at howed
        cases howed
      exact ⟨(Function.update_of_ne htu ..).trans ht, (Function.update_of_ne htu ..).trans ho⟩
  | woken u j hwait _ hwoken =>
      have htu : t ≠ u := by
        rintro rfl
        obtain rfl : j = k := Option.some.inj (hwait.symm.trans ht)
        rw [(hs.quiet j).raised hwoken] at hv
        cases hv
      exact ⟨(Function.update_of_ne htu ..).trans ht, ho⟩
  | struck u e _ =>
      have htu : t ≠ u := by
        rintro rfl
        exact Bool.false_ne_true (ha.symm.trans (decide_eq_true rfl))
      exact ⟨ht, (Function.update_of_ne htu ..).trans ho⟩
  | absorbed u hfree =>
      have htu : t ≠ u := by
        rintro rfl
        rw [ht] at hfree
        cases hfree
      exact ⟨ht, (Function.update_of_ne htu ..).trans ho⟩

/-- So a wait whose key a run does not raise outlasts the run. -/
theorem parked_exec {as : List (Action κ ι)} (hs : Sound l) (ht : l.waiting t = some k)
    (ho : l.owed t = false) (hv : (l.event k).value = false)
    (has : ∀ a ∈ as, a.ends t k = false) (h : exec step l as = some l') :
    l'.waiting t = some k ∧ l'.resume t = none := by
  induction as generalizing l with
  | nil =>
      cases h
      refine ⟨ht, Option.eq_none_iff_forall_ne_some.mpr fun m hm => ?_⟩
      rw [(resume_iff hs ht ho).mp ⟨m, hm⟩] at hv
      cases hv
  | cons a rest ih =>
      obtain ⟨m, ha, hrest⟩ := Transition.exec_cons_cases h
      obtain ⟨ht', ho', hv'⟩ :=
        parked_step hs ht ho hv (has a (List.mem_cons_self ..)) ha
      exact ih (sound_step hs ha) ht' ho' hv'
        (fun b hb => has b (List.mem_cons_of_mem _ hb)) hrest

end Latches

end Asyncio
