/-
The tasks a channel owns.

`spawn_task` adds to `_tasks`, a done callback removes, `close()` stops
the adding and `_teardown` awaits a snapshot. `CustodyInv` is what ties
the set to the tasks themselves: a task the channel ever spawned is in
the set or done, and from `close()` on the snapshot covers the set. So
when `_teardown` gets past its `gather`, every spawned task is done
(`ownedDone_of_teardown`).
-/
import AioLibDataChannel.DataChannel.Link

namespace AioLibDataChannel

open Asyncio (Event Future Outcome Queue)
open Function (update)

/-- What a channel knows of its tasks. -/
structure Custody where
  closeRequested : Bool
  tasks : List TaskId
  teardownTask : Teardown

/-- The custody in the steady part of a world. -/
def Steady.custody (f : Steady) : Custody where
  closeRequested := f.closeRequested
  tasks := f.tasks
  teardownTask := f.teardownTask

namespace DcWorld

/-- The custody of a world. -/
def custody (w : DcWorld) : Custody := w.steady.custody

variable {w w' : DcWorld} {t : TaskId}

/-- What leaves the frame alone leaves the custody alone. -/
theorem custody_congr (h : w'.frame = w.frame) : w'.custody = w.custody :=
  congrArg Steady.custody (steady_congr h)

/-- The first `close()` creates the teardown, and no later one does. -/
theorem custody_close (w : DcWorld) :
    w.close.custody
      = if w.dc.closeRequested then w.custody
        else { w.custody with closeRequested := true, teardownTask := .created } := by
  unfold close
  split
  · rfl
  · have hframe := frame_cancelTasks
      { w with dc := w.dc.requestClose, hist := w.hist ++ [.closeCalled] } w.dc.tasks
    show Custody.mk _ _ Teardown.created = _
    have hcr := congrArg Frame.closeRequested hframe
    have htasks := congrArg Frame.tasks hframe
    congr 1

/-- The destroy does not touch the teardown. -/
theorem custody_destroy (w : DcWorld) : w.destroy.custody = w.custody := by
  unfold destroy
  split
  · rfl
  next hd =>
    show Custody.mk ((w.dc.destroy w.core).2).closeRequested
      ((w.dc.destroy w.core).2).tasks ((w.dc.destroy w.core).2).teardownTask = _
    rw [DataChannel.destroy, if_neg hd]
    rfl

/-- `_teardown` is past its owned tasks. -/
def PastGather (w : DcWorld) : Prop :=
  (w.dc.teardownTask = .created ∧ w.dc.tasks = []) ∨
    ∃ snapshot, w.dc.teardownTask = .gathering snapshot
      ∧ ∀ t ∈ snapshot, w.task t = .done

/-- What a loop step can do to the custody. -/
theorem applyLoop_custody_cases {a : DcLoop} (h : applyLoop a w = some w') :
    w'.custody = w.custody
    ∨ (∃ t, a = .spawnTask t ∧ Spawns t w w')
    ∨ (∃ t, w.task t = .done
        ∧ w'.custody = { w.custody with tasks := w.dc.tasks.filter (· ≠ t) })
    ∨ (w'.custody = { w.custody with closeRequested := true, teardownTask := .created }
        ∧ w.dc.closeRequested = false)
    ∨ (w'.custody = { w.custody with teardownTask := .gathering w.dc.tasks }
        ∧ w.dc.teardownTask = .created)
    ∨ (w' = w.teardownEnd ∧ PastGather w) := by
  have hclosed : ∀ {v : DcWorld}, v.custody = w.close.custody →
      v.custody = w.custody
        ∨ (v.custody = { w.custody with closeRequested := true, teardownTask := .created }
          ∧ w.dc.closeRequested = false) := by
    intro v hv
    rw [hv, custody_close]
    cases hc : w.dc.closeRequested with
    | true => exact Or.inl rfl
    | false => exact Or.inr ⟨rfl, rfl⟩
  cases a with
  | dispatch =>
      obtain ⟨e, rest, -, rfl⟩ := dispatch_cases h
      left
      cases e <;> rfl
  | close =>
      cases h
      rcases hclosed rfl with hc | hc
      · exact Or.inl hc
      · exact Or.inr (Or.inr (Or.inr (Or.inl hc)))
  | destroy =>
      cases h
      exact Or.inl (custody_destroy w)
  | startTeardown =>
      obtain ⟨hc, ⟨hnil, rfl⟩ | ⟨-, rfl⟩⟩ := startTeardown_cases h
      · exact Or.inr (Or.inr (Or.inr (Or.inr (Or.inr ⟨rfl, Or.inl ⟨hc, hnil⟩⟩))))
      · exact Or.inr (Or.inr (Or.inr (Or.inr (Or.inl ⟨rfl, hc⟩))))
  | resumeTeardown =>
      obtain ⟨rfl, snapshot, hs, hall⟩ := resumeTeardown_cases h
      exact Or.inr (Or.inr (Or.inr (Or.inr (Or.inr ⟨rfl, Or.inr ⟨snapshot, hs, hall⟩⟩))))
  | setThreshold n =>
      cases h
      left
      show (w.setThreshold n).custody = _
      unfold setThreshold
      split <;> rfl
  | spawnTask t =>
      obtain ⟨ho, hu, ⟨-, rfl⟩ | ⟨hc, rfl⟩⟩ := spawnTask_cases h
      · exact Or.inl rfl
      · exact Or.inr (Or.inl ⟨t, rfl, ho, hu, hc, rfl⟩)
  | finish t =>
      obtain ⟨-, rfl⟩ := finish_cases h
      exact Or.inl rfl
  | discard t =>
      obtain ⟨hd, rfl⟩ := discard_cases h
      exact Or.inr (Or.inr (Or.inl ⟨t, hd, rfl⟩))
  | waitOpen t =>
      obtain ⟨rfl, -⟩ := started_eq h
      exact Or.inl (custody_congr (frame_waitOpen t w))
  | waitClosed t =>
      obtain ⟨rfl, -⟩ := started_eq h
      exact Or.inl (custody_congr (frame_awaitClosed t w _))
  | aclose t =>
      obtain ⟨rfl, -⟩ := started_eq h
      rcases hclosed (custody_congr (frame_awaitClosed t w.close .aclose)) with hc | hc
      · exact Or.inl hc
      · exact Or.inr (Or.inr (Or.inr (Or.inl hc)))
  | recv t =>
      obtain ⟨rfl, -⟩ := started_eq h
      exact Or.inl (congrArg Steady.custody (steady_recv t w))
  | send t payload wait =>
      obtain ⟨rfl, -⟩ := started_eq h
      exact Or.inl (congrArg Steady.custody (steady_send t w payload wait))
  | resume t => exact Or.inl (congrArg Steady.custody (steady_resume h))
  | cancel t =>
      cases h
      exact Or.inl (custody_congr (frame_cancelTask t w))
  | absorb t =>
      obtain ⟨rfl, -⟩ := started_eq h
      exact Or.inl rfl

/-- The tail of a `send()` does not touch the custody. -/
theorem applySending_custody {a : DcSending} (h : applySending a w = some w') :
    w'.custody = w.custody := by
  obtain ⟨native, event, position, task, -, rfl⟩ := applySending_eq h
  rfl

-- ============================================================== the handle

/-- The handle never changes. -/
theorem handle_destroy (w : DcWorld) :
    w.destroy.dc.native.handle = w.dc.native.handle := by
  unfold destroy
  split
  · rfl
  next hd =>
    show ((w.dc.destroy w.core).2).native.handle = _
    rw [DataChannel.destroy, if_neg hd]
    show ((w.dc.native.destroy w.core).2).handle = _
    unfold CoreDataChannel.destroy
    split <;> rfl

/-- A channel keeps its handle for life. -/
theorem handle_apply {a : DcAction} (h : apply a w = some w') :
    w'.dc.native.handle = w.dc.native.handle := by
  cases a with
  | native a => rw [(applyNative_link h).2]
  | sending a => rw [(applySending_link h).2.1]
  | loop a =>
      obtain ⟨-, hloop⟩ := apply_loop_cases h
      rcases applyLoop_link_cases hloop with hl | ⟨-, e, rest, -, rfl⟩ | ⟨hl, -⟩
        | ⟨n, -, -, rfl⟩
      · rw [(link_handle hl).2.1]
      · rw [(runCallback_handle e _).2.1]
      · rw [(link_handle hl).2.1, handle_destroy]
      · rfl

-- ========================================================== the invariant

/-- The set covers the tasks the channel spawned, and once `close()` has
been called the teardown covers the set. -/
structure CustodyInv (w : DcWorld) : Prop where
  owned : ∀ t, t.ownedBy w.dc.native.handle = true →
    w.task t = .unborn ∨ w.task t = .done ∨ t ∈ w.dc.tasks
  closing : w.dc.teardownTask ≠ .absent → w.dc.closeRequested = true
  covered : ∀ snapshot, w.dc.teardownTask = .gathering snapshot →
    ∀ t ∈ w.dc.tasks, t ∈ snapshot

/-- A task that moves is alive, so the set has it; and the set loses
only tasks that are done. -/
theorem CustodyInv.owned_of_moves (hi : CustodyInv w)
    (hh : w'.dc.native.handle = w.dc.native.handle) (ht : Moves w w')
    (hkeep : ∀ u ∈ w.dc.tasks, w.task u = .done ∨ u ∈ w'.dc.tasks) :
    ∀ u, u.ownedBy w'.dc.native.handle = true →
      w'.task u = .unborn ∨ w'.task u = .done ∨ u ∈ w'.dc.tasks := by
  intro u hu
  rw [hh] at hu
  have hstay : w.task u = .unborn ∨ w.task u = .done ∨ u ∈ w'.dc.tasks := by
    rcases hi.owned u hu with h | h | h
    · exact Or.inl h
    · exact Or.inr (Or.inl h)
    · exact Or.inr (hkeep u h)
  rcases ht with htask | ⟨t, st, hedge, htask⟩
  · rw [htask]
    exact hstay
  · rw [htask]
    by_cases hut : u = t
    · subst hut
      obtain ⟨hub, hdone, -⟩ := hedge.alive
      rcases hstay with h | h | h
      · exact absurd h hub
      · exact absurd h hdone
      · exact Or.inr (Or.inr h)
    · rw [Function.update_of_ne hut]
      exact hstay

/-- A task that moves on its own keeps the custody. -/
theorem CustodyInv.of_custody (hi : CustodyInv w)
    (hh : w'.dc.native.handle = w.dc.native.handle) (hc : w'.custody = w.custody)
    (ht : Moves w w') : CustodyInv w' := by
  have hcr : w'.dc.closeRequested = w.dc.closeRequested :=
    congrArg Custody.closeRequested hc
  have htasks : w'.dc.tasks = w.dc.tasks := congrArg Custody.tasks hc
  have htd : w'.dc.teardownTask = w.dc.teardownTask :=
    congrArg Custody.teardownTask hc
  constructor
  · exact hi.owned_of_moves hh ht fun u hu => Or.inr (htasks ▸ hu)
  · rw [hcr, htd]
    exact hi.closing
  · rw [htasks, htd]
    exact hi.covered

/-- A spawned task is listed before it runs. -/
theorem custodyInv_spawn (hi : CustodyInv w) (h : Spawns t w w') : CustodyInv w' := by
  obtain ⟨ho, hu, hcr, rfl⟩ := h
  constructor
  · intro u hown
    by_cases hut : u = t
    · subst hut
      exact Or.inr (Or.inr (List.mem_append_right _ (List.mem_singleton_self _)))
    · show update w.task t (.running none) u = .unborn
        ∨ update w.task t (.running none) u = .done ∨ u ∈ w.dc.tasks ++ [t]
      rw [Function.update_of_ne hut]
      rcases hi.owned u hown with h | h | h
      · exact Or.inl h
      · exact Or.inr (Or.inl h)
      · exact Or.inr (Or.inr (List.mem_append_left _ h))
  · exact hi.closing
  · -- nothing is spawned once a teardown exists
    intro snapshot hs
    have hreq : w.dc.closeRequested = true := hi.closing (by rw [hs]; exact nofun)
    rw [hreq] at hcr
    cases hcr

/-- A new channel has no tasks. -/
theorem custodyInv_init (handle : Int) (recvBuffer : Nat) (native : NativeChannel)
    (fired : List DcEvent) (core : Core) :
    CustodyInv (init handle recvBuffer native fired core) where
  owned := by
    intro t ht
    have hown : t.ownedBy handle = true := ht
    left
    show (if t.ownedBy handle = true then TaskState.unborn else .running none) = _
    rw [if_pos hown]
  closing := fun h => absurd rfl h
  covered := nofun

/-- Every step keeps who is in whose custody. -/
theorem custodyInv_apply {a : DcAction} (hs : SendInv w) (hi : CustodyInv w)
    (h : apply a w = some w') : CustodyInv w' := by
  have hh := handle_apply h
  cases a with
  | native a =>
      have hdc := (applyNative_link h).2
      refine hi.of_custody hh ?_ (Or.inl (applyNative_task h))
      show Custody.mk w'.dc.closeRequested w'.dc.tasks w'.dc.teardownTask = _
      rw [hdc]
      rfl
  | sending a =>
      have hmoves := (apply_moves hs h).resolve_right nofun
      exact hi.of_custody hh (applySending_custody h) hmoves
  | loop a =>
      obtain ⟨-, hloop⟩ := apply_loop_cases h
      rcases applyLoop_moves hloop with hmoves | ⟨t, -, hspawn⟩
      · have hsame : w'.dc.tasks = w.dc.tasks → ∀ u, u.ownedBy w'.dc.native.handle = true →
            w'.task u = .unborn ∨ w'.task u = .done ∨ u ∈ w'.dc.tasks := fun htasks =>
          hi.owned_of_moves hh hmoves fun u hu => Or.inr (htasks ▸ hu)
        rcases applyLoop_custody_cases hloop with hc | ⟨t, -, hspawn⟩ | ⟨t, hd, hc⟩
          | ⟨hc, -⟩ | ⟨hc, htd⟩ | ⟨rfl, hpast⟩
        · exact hi.of_custody hh hc hmoves
        · exact custodyInv_spawn hi hspawn
        · have htasks : w'.dc.tasks = w.dc.tasks.filter (· ≠ t) :=
            congrArg Custody.tasks hc
          have hcr : w'.dc.closeRequested = w.dc.closeRequested :=
            congrArg Custody.closeRequested hc
          have htd : w'.dc.teardownTask = w.dc.teardownTask :=
            congrArg Custody.teardownTask hc
          refine ⟨hi.owned_of_moves hh hmoves ?_, ?_, ?_⟩
          · intro u hu
            by_cases hut : u = t
            · exact Or.inl (hut ▸ hd)
            · right
              rw [htasks]
              exact List.mem_filter.mpr ⟨hu, decide_eq_true hut⟩
          · rw [hcr, htd]
            exact hi.closing
          · rw [htasks, htd]
            exact fun snapshot hs u hu =>
              hi.covered snapshot hs u (List.mem_filter.mp hu).1
        · have htasks : w'.dc.tasks = w.dc.tasks := congrArg Custody.tasks hc
          have htd : w'.dc.teardownTask = .created := congrArg Custody.teardownTask hc
          refine ⟨hsame htasks, fun _ => congrArg Custody.closeRequested hc, ?_⟩
          rw [htd]
          exact nofun
        · have htasks : w'.dc.tasks = w.dc.tasks := congrArg Custody.tasks hc
          have hcr : w'.dc.closeRequested = w.dc.closeRequested :=
            congrArg Custody.closeRequested hc
          have htd' : w'.dc.teardownTask = .gathering w.dc.tasks :=
            congrArg Custody.teardownTask hc
          refine ⟨hsame htasks, fun _ => ?_, ?_⟩
          · rw [hcr]
            exact hi.closing (by rw [htd]; exact nofun)
          · rw [htasks, htd']
            intro snapshot hs u hu
            cases hs
            exact hu
        · have hc := custody_destroy w
          have htasks : w.teardownEnd.dc.tasks = w.dc.tasks := congrArg Custody.tasks hc
          have hcr : w.teardownEnd.dc.closeRequested = w.dc.closeRequested :=
            congrArg Custody.closeRequested hc
          refine ⟨hsame htasks, fun _ => ?_, nofun⟩
          rw [hcr]
          rcases hpast with ⟨htd, -⟩ | ⟨snapshot, htd, -⟩
          · exact hi.closing (by rw [htd]; exact nofun)
          · exact hi.closing (by rw [htd]; exact nofun)
      · exact custodyInv_spawn hi hspawn

-- ==================================================== what it is good for

/-- Every task the channel ever spawned is done. -/
def OwnedDone (w : DcWorld) : Prop :=
  ∀ t, t.ownedBy w.dc.native.handle = true → w.task t = .unborn ∨ w.task t = .done

/-- `_teardown` gets past its `gather` only when every task the channel
spawned is done. -/
theorem ownedDone_of_teardown (hi : CustodyInv w) (hp : PastGather w) :
    OwnedDone w := by
  intro t ht
  rcases hi.owned t ht with h | h | h
  · exact Or.inl h
  · exact Or.inr h
  · rcases hp with ⟨-, hnil⟩ | ⟨snapshot, hs, hall⟩
    · rw [hnil] at h
      cases h
    · exact Or.inr (hall t (hi.covered snapshot hs t h))

/-- Done tasks stay done: only `spawn_task` can end `OwnedDone`. -/
theorem ownedDone_of_moves (hd : OwnedDone w)
    (hh : w'.dc.native.handle = w.dc.native.handle) (ht : Moves w w') :
    OwnedDone w' := by
  intro u hu
  rw [hh] at hu
  rcases ht with htask | ⟨t, st, hedge, htask⟩
  · rw [htask]
    exact hd u hu
  · rw [htask]
    by_cases hut : u = t
    · subst hut
      obtain ⟨hub, hdone, -⟩ := hedge.alive
      rcases hd u hu with h | h
      · exact absurd h hub
      · exact absurd h hdone
    · rw [Function.update_of_ne hut]
      exact hd u hu

end DcWorld

end AioLibDataChannel
