/-
`aclose()` and `wait_closed()` as a barrier: what is over when they
return.

Both await the closed slot, and the slot has two meanings. `_teardown`
resolves it last, with every owned task done and the handle destroyed;
but the native closed callback, `_destroy` from the owning connection
and the constructor resolve it too, and they wait for nothing.

`BarrierKept` is the promise: whoever is in one of the two calls, the
step that returns from it normally finds the channel torn down.
`KeepsBarrier` is what each step must respect for that, and
`barrierKept_iff` says it is exactly right, together with a handle that
was not closed from the start. `aclose_returns_early` is the remote
side closing first.
-/
import AioLibDataChannel.DataChannel.Custody
import AioLibDataChannel.DataChannel.Isolation

namespace AioLibDataChannel

open Asyncio (Event Future Outcome Queue)
open Function (update)
open Transition (exec)

namespace DcWorld

variable {w w' : DcWorld} {t : TaskId}

/-- The native handle is gone and every task the channel spawned is
done. -/
structure TornDown (w : DcWorld) : Prop where
  destroyed : w.dc.destroyed = true
  deleted : w.dc.native.handle ∈ w.core.deletedDcs
  owned : OwnedDone w

/-- The step that goes on with the call of `t`, or makes it. -/
def Advances (t : TaskId) : DcAction → Prop
  | .loop (.resume u) => u = t
  | .loop (.waitClosed u) => u = t
  | .loop (.aclose u) => u = t
  | _ => False

/-- Whenever `aclose()` or `wait_closed()` returns normally, the channel
is torn down. -/
def BarrierKept (w : DcWorld) : Prop :=
  ∀ a t call w', apply a w = some w' → Advances t a →
    call = .waitClosed ∨ call = .aclose →
    w'.task t = .running (some (call, .returned none)) → TornDown w'

/-- The step does not let the closed slot run ahead of the teardown: a
closed callback and the connection's `_destroy` find the slot settled
already — the latter also if every spawned task is done — and no task
is spawned on a channel whose slot is resolved. -/
def KeepsBarrier (a : DcAction) (w : DcWorld) : Prop :=
  match a with
  | .loop .dispatch =>
      (∃ rest, w.ready = .closed :: rest) → (w.slot .closed).done = true
  | .loop .destroy => (w.slot .closed).done = true ∨ OwnedDone w
  | .loop (.spawnTask _) =>
      w.slot .closed = .settled (.returned ()) → w.dc.closeRequested = true
  | _ => True

-- ======================================================= the closed slot

/-- A destroyed wrapper has settled its closed slot. -/
def ClosedDone (w : DcWorld) : Prop :=
  w.dc.destroyed = true → (w.slot .closed).done = true

/-- The destroy resolves the closed slot, unless something came before
it. -/
theorem slot_destroy_closed (hd : w.dc.destroyed = false) :
    w.destroy.slot .closed = (w.slot .closed).settle (.returned ()) := by
  unfold destroy
  rw [if_neg (Bool.eq_false_iff.mp hd)]
  show ((w.dc.destroy w.core).2).closedSlot.future = _
  rw [DataChannel.destroy, if_neg (Bool.eq_false_iff.mp hd)]
  rfl

/-- What a loop step can do to the closed slot. -/
theorem applyLoop_closedSlot_cases {a : DcLoop} (h : applyLoop a w = some w') :
    (w'.dc.destroyed = w.dc.destroyed
      ∧ (w'.slot .closed = w.slot .closed
        ∨ w'.slot .closed = (w.slot .closed).cancel))
    ∨ (a = .dispatch ∧ ∃ rest, w.ready = .closed :: rest
        ∧ w' = runCallback .closed { w with ready := rest })
    ∨ (a = .destroy ∧ w.dc.destroyed = false ∧ w' = w.destroy)
    ∨ (w' = w.teardownEnd ∧ PastGather w) := by
  have hsteady : w'.link = w.link → w'.slot .closed = w.slot .closed
      ∨ w'.slot .closed = (w.slot .closed).cancel →
      w'.dc.destroyed = w.dc.destroyed ∧ (w'.slot .closed = w.slot .closed
        ∨ w'.slot .closed = (w.slot .closed).cancel) :=
    fun hl hs => ⟨(link_handle hl).2.2, hs⟩
  have hite : ∀ (b : Bool) (f : Future Unit Exc),
      (if b then f.cancel else f) = f ∨ (if b then f.cancel else f) = f.cancel := by
    intro b f
    cases b
    · exact Or.inl rfl
    · exact Or.inr rfl
  cases a with
  | dispatch =>
      obtain ⟨e, rest, hr, rfl⟩ := dispatch_cases h
      cases e with
      | closed => exact Or.inr (Or.inl ⟨rfl, rest, hr, rfl⟩)
      | opened => exact Or.inl ⟨rfl, Or.inl rfl⟩
      | error m => exact Or.inl ⟨rfl, Or.inl rfl⟩
      | message m => exact Or.inl ⟨rfl, Or.inl rfl⟩
      | bufferedLow => exact Or.inl ⟨rfl, Or.inl rfl⟩
  | destroy =>
      cases h
      cases hd : w.dc.destroyed with
      | false => exact Or.inr (Or.inr (Or.inl ⟨rfl, rfl, rfl⟩))
      | true =>
          have hself : w.destroy = w := by
            unfold destroy
            rw [if_pos hd]
          rw [hself]
          exact Or.inl ⟨hd, Or.inl rfl⟩
  | startTeardown =>
      obtain ⟨hc, ⟨hnil, rfl⟩ | ⟨-, rfl⟩⟩ := startTeardown_cases h
      · exact Or.inr (Or.inr (Or.inr ⟨rfl, Or.inl ⟨hc, hnil⟩⟩))
      · exact Or.inl ⟨rfl, Or.inl rfl⟩
  | resumeTeardown =>
      obtain ⟨rfl, snapshot, hs, hall⟩ := resumeTeardown_cases h
      exact Or.inr (Or.inr (Or.inr ⟨rfl, Or.inr ⟨snapshot, hs, hall⟩⟩))
  | close =>
      cases h
      exact Or.inl (hsteady (link_close w) (by rw [slot_close]; exact hite _ _))
  | setThreshold n =>
      cases h
      left
      show (w.setThreshold n).dc.destroyed = _ ∧ ((w.setThreshold n).slot .closed = _ ∨ _)
      unfold setThreshold
      split <;> exact ⟨rfl, Or.inl rfl⟩
  | spawnTask t =>
      obtain ⟨-, -, ⟨-, rfl⟩ | ⟨-, rfl⟩⟩ := spawnTask_cases h <;>
        exact Or.inl ⟨rfl, Or.inl rfl⟩
  | finish t =>
      obtain ⟨-, rfl⟩ := finish_cases h
      exact Or.inl ⟨rfl, Or.inl rfl⟩
  | discard t =>
      obtain ⟨-, rfl⟩ := discard_cases h
      exact Or.inl ⟨rfl, Or.inl rfl⟩
  | waitOpen t =>
      obtain ⟨rfl, -⟩ := started_eq h
      exact Or.inl (hsteady (link_congr (frame_waitOpen t w))
        (by rw [slot_waitOpen]; exact hite _ _))
  | waitClosed t =>
      obtain ⟨rfl, -⟩ := started_eq h
      exact Or.inl (hsteady (link_congr (frame_awaitClosed t w _))
        (by rw [slot_awaitClosed]; exact hite _ _))
  | aclose t =>
      obtain ⟨rfl, last, hl⟩ := started_eq h
      refine Or.inl (hsteady
        ((link_congr (frame_awaitClosed t w.close _)).trans (link_close w)) ?_)
      have hs : (w.aclose t).slot .closed
          = (w.close.awaitClosed .aclose t).slot .closed := rfl
      rw [hs, slot_awaitClosed, slot_close, cancel_or]
      exact hite _ _
  | recv t =>
      obtain ⟨rfl, -⟩ := started_eq h
      exact Or.inl (hsteady (congrArg Steady.link (steady_recv t w))
        (Or.inl (slot_recv .closed t w)))
  | send t payload wait =>
      obtain ⟨rfl, -⟩ := started_eq h
      exact Or.inl (hsteady (congrArg Steady.link (steady_send t w payload wait))
        (Or.inl (slot_send payload wait w)))
  | resume t =>
      exact Or.inl (hsteady (congrArg Steady.link (steady_resume h))
        (Or.inl (slot_resume h)))
  | cancel t =>
      cases h
      exact Or.inl (hsteady (link_congr (frame_cancelTask t w))
        (by rw [slot_cancelTask]; exact hite _ _))
  | absorb t =>
      obtain ⟨rfl, -⟩ := started_eq h
      exact Or.inl ⟨rfl, Or.inl rfl⟩

/-- `_teardown` leaves a settled closed slot. -/
theorem slot_teardownEnd_done (w : DcWorld) :
    (w.teardownEnd.slot .closed).done = true := by
  show (if w.destroy.dc.closedSlot.future.done then w.destroy.dc.closedSlot
    else w.destroy.dc.closedSlot.set ()).future.done = true
  split
  next hd => exact hd
  next => exact Future.done_settle

/-- A resolved closed slot stays so. -/
theorem closedDone_apply {a : DcAction} (hc : ClosedDone w)
    (h : apply a w = some w') : ClosedDone w' := by
  have hkeep : w'.dc.destroyed = w.dc.destroyed → w'.slot .closed = w.slot .closed →
      ClosedDone w' := by
    intro hd hs
    unfold ClosedDone
    rw [hd, hs]
    exact hc
  cases a with
  | native a =>
      have hdc := (applyNative_link h).2
      exact hkeep (congrArg _ hdc) (congrArg (fun d => d.closedSlot.future) hdc)
  | sending a => exact hkeep (applySending_link h).2.2.1 (applySending_slot h)
  | loop a =>
      obtain ⟨-, hloop⟩ := apply_loop_cases h
      rcases applyLoop_closedSlot_cases hloop with ⟨hd, hs | hs⟩ | ⟨-, rest, -, rfl⟩
        | ⟨-, hd, rfl⟩ | ⟨rfl, -⟩
      · exact hkeep hd hs
      · intro _
        rw [hs]
        exact Future.done_cancel
      · exact fun _ => Future.done_settle
      · intro _
        rw [slot_destroy_closed hd]
        exact Future.done_settle
      · exact fun _ => slot_teardownEnd_done w

-- ====================================================== some task is free

/-- The application always has a task free to make a call. -/
def FreshUser (w : DcWorld) : Prop :=
  ∃ n, ∀ m, n ≤ m → w.task (.user m) = .running none

/-- At the start every task of the application is free. -/
theorem freshUser_init (handle : Int) (recvBuffer : Nat) (native : NativeChannel)
    (fired : List DcEvent) (core : Core) :
    FreshUser (init handle recvBuffer native fired core) :=
  ⟨0, fun _ _ => rfl⟩

/-- A step leaves the application a free task. -/
theorem freshUser_apply {a : DcAction} (hs : SendInv w) (hf : FreshUser w)
    (h : apply a w = some w') : FreshUser w' := by
  obtain ⟨n, hn⟩ := hf
  have hupdate : ∀ t st, w'.task = update w.task t st → FreshUser w' := by
    intro t st htask
    -- past the task that moves, if it is the application's
    have hbound : ∃ k, ∀ m, k ≤ m → TaskId.user m ≠ t := by
      cases t with
      | user k => exact ⟨k + 1, fun m hm heq => by cases heq; omega⟩
      | ofChannel handle k => exact ⟨0, fun _ _ => nofun⟩
      | ofConnection k => exact ⟨0, fun _ _ => nofun⟩
    obtain ⟨k, hk⟩ := hbound
    refine ⟨max n k, fun m hm => ?_⟩
    rw [htask, Function.update_of_ne (hk m (by omega))]
    exact hn m (by omega)
  rcases apply_moves hs h with (htask | ⟨t, st, -, htask⟩) | ⟨t, -, -, -, -, rfl⟩
  · exact ⟨n, fun m hm => by rw [htask]; exact hn m hm⟩
  · exact hupdate t st htask
  · exact hupdate t _ rfl

-- ========================================================= the step rule

/-- What every run keeps, whether the barrier holds or not. -/
structure BarrierInv (w : DcWorld) : Prop where
  send : SendInv w
  handle : HandleInv w
  custody : CustodyInv w
  closed : ClosedDone w
  fresh : FreshUser w

/-- Every step keeps what the barrier rests on. -/
theorem barrierInv_apply {a : DcAction} (hi : BarrierInv w)
    (h : apply a w = some w') : BarrierInv w' where
  send := sendInv_apply hi.send h
  handle := handleInv_apply hi.handle h
  custody := custodyInv_apply hi.send hi.custody h
  closed := closedDone_apply hi.closed h
  fresh := freshUser_apply hi.send hi.fresh h

/-- A resolved closed slot means the channel is torn down. -/
def Resolves (w : DcWorld) : Prop :=
  w.slot .closed = .settled (.returned ()) → TornDown w

/-- A destroyed channel whose tasks are done is torn down. -/
theorem TornDown.of_destroyed (hi : HandleInv w) (hd : w.dc.destroyed = true)
    (ho : OwnedDone w) : TornDown w :=
  ⟨hd, (hi.gone hd).2.2, ho⟩

/-- What is torn down stays so, whoever moves. -/
theorem tornDown_of_moves {a : DcAction} (hi : BarrierInv w) (h : apply a w = some w')
    (ht : Moves w w') (htd : TornDown w) : TornDown w' :=
  .of_destroyed (handleInv_apply hi.handle h) (destroyed_apply h htd.destroyed)
    (ownedDone_of_moves htd.owned (handle_apply h) ht)

/-- A step that leaves the closed slot alone, or cancels it. -/
theorem resolves_of_slot {a : DcAction} (hi : BarrierInv w) (hP : Resolves w)
    (h : apply a w = some w') (ht : Moves w w')
    (hs : w'.slot .closed = w.slot .closed
      ∨ w'.slot .closed = (w.slot .closed).cancel) : Resolves w' := by
  intro hret
  rcases hs with hs | hs
  · exact tornDown_of_moves hi h ht (hP (hs ▸ hret))
  · rw [hs] at hret
    have hw : w.slot .closed = .settled (.returned ()) := by
      cases hf : w.slot .closed with
      | pending =>
          rw [hf] at hret
          cases hret
      | settled o =>
          rw [hf] at hret
          exact hret
    exact tornDown_of_moves hi h ht (hP hw)

/-- A dispatch keeps the barrier exactly if its callback resolves nothing
too early. -/
theorem resolves_dispatch_iff (hi : BarrierInv w) (hP : Resolves w)
    (h : apply (.loop .dispatch) w = some w') :
    Resolves w' ↔ KeepsBarrier (.loop .dispatch) w := by
  obtain ⟨e, rest, hr, rfl⟩ := dispatch_cases (apply_loop_cases h).2
  have ht : Moves w (runCallback e { w with ready := rest }) :=
    Or.inl (runCallback_task e _)
  by_cases he : e = .closed
  · subst he
    have hset : (runCallback .closed { w with ready := rest }).slot .closed
        = (w.slot .closed).settle (.returned ()) := rfl
    cases hf : w.slot .closed with
    | settled o =>
        have hd : (w.slot .closed).done = true := by
          rw [hf]
          rfl
        refine ⟨fun _ _ => hd, fun _ => resolves_of_slot hi hP h ht (Or.inl ?_)⟩
        rw [hset]
        exact Future.settle_of_done hd
    | pending =>
        -- the slot is resolved here, with the handle still live
        constructor
        · intro hres
          have htd := (hres (by rw [hset, hf]; rfl)).destroyed
          have hdone := hi.closed htd
          rw [hf] at hdone
          cases hdone
        · intro hk
          have hdone := hk ⟨rest, hr⟩
          rw [hf] at hdone
          cases hdone
  · have hk : KeepsBarrier (.loop .dispatch) w := by
      intro hex
      obtain ⟨rest', hr'⟩ := hex
      rw [hr] at hr'
      cases hr'
      exact absurd rfl he
    refine ⟨fun _ => hk, fun _ => resolves_of_slot hi hP h ht (Or.inl ?_)⟩
    cases e with
    | closed => exact absurd rfl he
    | _ => rfl

/-- The connection's `_destroy` keeps the barrier exactly if no spawned
task still runs, or the slot was settled before. -/
theorem resolves_destroy_iff (hi : BarrierInv w) (hP : Resolves w)
    (h : apply (.loop .destroy) w = some w') :
    Resolves w' ↔ KeepsBarrier (.loop .destroy) w := by
  cases (apply_loop_cases h).2
  have ht : Moves w w.destroy := Or.inl (destroy_task w)
  cases hf : w.slot .closed with
  | settled o =>
      have hd : (w.slot .closed).done = true := by
        rw [hf]
        rfl
      refine ⟨fun _ => Or.inl hd, fun _ => resolves_of_slot hi hP h ht (Or.inl ?_)⟩
      cases hdes : w.dc.destroyed with
      | true =>
          have hself : w.destroy = w := by
            unfold destroy
            rw [if_pos hdes]
          rw [hself]
      | false =>
          rw [slot_destroy_closed hdes]
          exact Future.settle_of_done hd
  | pending =>
      have hdes : w.dc.destroyed = false := by
        cases hdes : w.dc.destroyed with
        | false => rfl
        | true =>
            have hdone := hi.closed hdes
            rw [hf] at hdone
            cases hdone
      have hslot : w.destroy.slot .closed = .settled (.returned ()) := by
        rw [slot_destroy_closed hdes, hf]
        rfl
      constructor
      · intro hres
        right
        have ho := (hres hslot).owned
        intro u hu
        have hu' : u.ownedBy w.destroy.dc.native.handle = true := by
          rw [handle_destroy]
          exact hu
        have := ho u hu'
        rw [destroy_task] at this
        exact this
      · intro hor _
        rcases hor with hd | ho
        · rw [hf] at hd
          cases hd
        · exact .of_destroyed (handleInv_destroy hi.handle) (destroy_destroyed w)
            (ownedDone_of_moves ho (handle_destroy w) ht)

/-- A task spawned while the slot is resolved and no close was asked for
breaks the barrier, and no other does. -/
theorem resolves_spawnTask_iff {t : TaskId} (hP : Resolves w)
    (h : apply (.loop (.spawnTask t)) w = some w') :
    Resolves w' ↔ KeepsBarrier (.loop (.spawnTask t)) w := by
  obtain ⟨ho, hu, ⟨hc, rfl⟩ | ⟨hc, rfl⟩⟩ := spawnTask_cases (apply_loop_cases h).2
  · exact ⟨fun _ _ => hc, fun _ => hP⟩
  · constructor
    · intro hres hret
      have hdone := (hres hret).owned t ho
      have htask : update w.task t (.running none) t = .running none :=
        Function.update_self t _ w.task
      rcases hdone with hd | hd
      · exact absurd (htask.symm.trans hd) nofun
      · exact absurd (htask.symm.trans hd) nofun
    · intro hk hret
      have hreq := hk hret
      rw [hc] at hreq
      cases hreq

/-- Step by step, a resolved slot keeps its meaning exactly under the
condition. -/
theorem resolves_step_iff {a : DcAction} (hi : BarrierInv w) (hP : Resolves w)
    (h : apply a w = some w') : Resolves w' ↔ KeepsBarrier a w := by
  cases a with
  | native a =>
      have hs := congrArg (fun d => d.closedSlot.future) (applyNative_link h).2
      exact ⟨fun _ => trivial, fun _ =>
        resolves_of_slot hi hP h (Or.inl (applyNative_task h)) (Or.inl hs)⟩
  | sending a =>
      have ht := (apply_moves hi.send h).resolve_right nofun
      exact ⟨fun _ => trivial, fun _ =>
        resolves_of_slot hi hP h ht (Or.inl (applySending_slot h))⟩
  | loop a =>
      obtain ⟨-, hloop⟩ := apply_loop_cases h
      cases a with
      | dispatch => exact resolves_dispatch_iff hi hP h
      | destroy => exact resolves_destroy_iff hi hP h
      | spawnTask t => exact resolves_spawnTask_iff hP h
      | _ =>
          have ht : Moves w w' := by
            rcases applyLoop_moves hloop with ht | ⟨t, heq, -⟩
            · exact ht
            · cases heq
          refine ⟨fun _ => trivial, fun _ => ?_⟩
          rcases applyLoop_closedSlot_cases hloop with ⟨-, hs⟩ | ⟨heq, -⟩
            | ⟨heq, -⟩ | ⟨rfl, hp⟩
          · exact resolves_of_slot hi hP h ht hs
          · cases heq
          · cases heq
          · intro _
            have ho := ownedDone_of_moves (ownedDone_of_teardown hi.custody hp)
              (handle_apply h) ht
            exact .of_destroyed (handleInv_apply hi.handle h) (destroy_destroyed w) ho

-- ============================================================= returning

/-- A wait returns when its slot was resolved. -/
theorem voidOutcome_eq_returned {o : Outcome Unit Exc}
    (h : voidOutcome o = .returned none) : o = .returned () := by
  cases o with
  | returned u => rfl
  | raised e => cases h
  | cancelled => cases h

/-- A wait that returned is the call that was made. -/
theorem endWait_returned {call call' : Call} {o : Outcome (Option Message) Exc}
    (h : (w.endWait t call o).task t = .running (some (call', .returned none))) :
    call = call' ∧ o = .returned none := by
  unfold endWait at h
  split at h
  · have hself := Function.update_self t
      (TaskState.running (some (call, .cancelled))) w.task
    cases hself.symm.trans h
  · have hself := Function.update_self t (TaskState.running (some (call, o))) w.task
    cases hself.symm.trans h
    exact ⟨rfl, rfl⟩

/-- A resumed task that returns from one of the two calls found the
closed slot resolved. -/
theorem resume_returned {call : Call} (hn : w.task t ≠ .reinjecting)
    (h : w.resume t = some w') (hcall : call = .waitClosed ∨ call = .aclose)
    (hr : w'.task t = .running (some (call, .returned none))) :
    w.slot .closed = .settled (.returned ()) := by
  have hends : ∀ {v : DcWorld} {c o}, (v.finishCall t c o).task t
      = .running (some (call, .returned none)) → c = call := by
    intro v c o h'
    have hself := Function.update_self t (TaskState.running (some (c, o))) v.task
    cases hself.symm.trans h'
    rfl
  have hother : ∀ {c}, c = call → c ≠ .waitClosed → c ≠ .aclose →
      w.slot .closed = .settled (.returned ()) := by
    intro c hc hwait haclose
    rcases hcall with rfl | rfl
    · exact absurd hc hwait
    · exact absurd hc haclose
  cases resume_cases h with
  | openSettled o ht hs => exact hother (endWait_returned hr).1 nofun nofun
  | closedSettled call' o ht hs =>
      have hvoid := voidOutcome_eq_returned (endWait_returned hr).2
      rw [hvoid] at hs
      exact hs
  | getCancelled ht hm => exact hother (hends hr) nofun nofun
  | getParks ht hm hw hi => cases ht.symm.trans hr
  | getTakes item rest ht hm hw hi =>
      have hne : w.dc.recvQueue.items ≠ [] := by
        rw [hi]
        exact nofun
      obtain ⟨o', ho'⟩ := received_task (w := { w with
        dc := { w.dc with recvQueue := w.dc.recvQueue.takeWoken t }
        hist := w.hist ++ [.took t item] }) t item (Queue.full_takeWoken hw hne)
      rw [ho', Function.update_self] at hr
      cases hr
      exact hother rfl nofun nofun
  | putCancelled ht hm => exact absurd ht hn
  | putRaises q ht hm hq => exact absurd ht hn
  | sendCancelled payload ht hm => exact hother (hends hr) nofun nofun
  | sendRaises payload ht hm hw hr' => exact hother (hends hr) nofun nofun
  | sendEnters payload ht hm hw hr' =>
      have hsending : ∀ {v : DcWorld}, update v.task t .sending t
          ≠ .running (some (call, .returned none)) := by
        intro v h'
        cases (Function.update_self t TaskState.sending v.task).symm.trans h'
      cases payload with
      | other name => exact hother (hends hr) nofun nofun
      | bytesLike data => exact absurd hr hsending
      | str text => exact absurd hr hsending

/-- Awaiting the closed slot ends normally only when it is resolved. -/
theorem awaitClosed_returned {call call' : Call} {o : Outcome Unit Exc}
    (hr : (w.awaitClosed call t).task t = .running (some (call', voidOutcome o))) :
    w.slot .closed = .settled o := by
  have hinj : ∀ {a b : Outcome Unit Exc}, voidOutcome a = voidOutcome b → a = b := by
    intro a b hab
    cases a <;> cases b <;> cases hab <;> rfl
  unfold awaitClosed at hr
  split at hr
  next o' ho =>
    have hself := Function.update_self t
      (TaskState.running (some (call, voidOutcome o'))) w.task
    have heq := hself.symm.trans hr
    simp only [TaskState.running.injEq, Option.some.injEq, Prod.mk.injEq] at heq
    rw [← hinj heq.2]
    exact ho
  next =>
    rw [suspend_task, Function.update_self] at hr
    cases hr

/-- A call that returns normally found the closed slot resolved. -/
theorem slot_of_returned {a : DcAction} {call : Call} (hn : NoReinjecting w)
    (h : apply a w = some w') (ha : Advances t a)
    (hcall : call = .waitClosed ∨ call = .aclose)
    (hr : w'.task t = .running (some (call, .returned none))) :
    w.slot .closed = .settled (.returned ()) := by
  cases a with
  | native a => cases ha
  | sending a => cases ha
  | loop a =>
      obtain ⟨-, hloop⟩ := apply_loop_cases h
      cases a with
      | resume u =>
          cases ha
          exact resume_returned (hn t) hloop hcall hr
      | waitClosed u =>
          cases ha
          obtain ⟨rfl, -⟩ := started_eq hloop
          exact awaitClosed_returned (o := .returned ()) hr
      | aclose u =>
          cases ha
          obtain ⟨rfl, -⟩ := started_eq hloop
          have hslot : w.close.slot .closed = .settled (.returned ()) :=
            awaitClosed_returned (o := .returned ()) hr
          rw [slot_close] at hslot
          split at hslot
          · cases hf : w.slot .closed with
            | pending =>
                rw [hf] at hslot
                cases hslot
            | settled o =>
                rw [hf] at hslot
                exact hslot
          · exact hslot
      | _ => cases ha

/-- A resolved slot that means what it should makes both calls a
barrier. -/
theorem BarrierKept.of_resolves (hi : BarrierInv w) (hn : NoReinjecting w)
    (hP : Resolves w) : BarrierKept w := by
  intro a t call w' h ha hcall hr
  have htd : TornDown w := hP (slot_of_returned hn h ha hcall hr)
  have ht : Moves w w' := by
    rcases apply_moves hi.send h with ht | ⟨u, rfl, -⟩
    · exact ht
    · cases ha
  exact tornDown_of_moves hi h ht htd

/-- Conversely, between two loop steps: a free task could call
`wait_closed()` now, and return at once. -/
theorem resolves_of_kept (hi : BarrierInv w) (hidle : w.position = .idle)
    (hk : BarrierKept w) : Resolves w := by
  intro hslot
  obtain ⟨n, hn⟩ := hi.fresh
  have hl : w.task (.user n) = .running none := hn n (Nat.le_refl n)
  have hstep : apply (.loop (.waitClosed (.user n))) w
      = some (w.finishCall (.user n) .waitClosed (.returned none)) := by
    show (if w.position = .idle then w.started (.user n)
      (w.awaitClosed .waitClosed (.user n)) else none) = _
    rw [if_pos hidle, awaitClosed_settled hslot, started, hl]
    rfl
  have htd := hk _ (.user n) .waitClosed _ hstep rfl (Or.inl rfl)
    (Function.update_self _ _ w.task)
  refine ⟨htd.destroyed, htd.deleted, ?_⟩
  intro u hu
  have hne : u ≠ .user n := by
    intro heq
    subst heq
    cases hu
  have hdone := htd.owned u hu
  have htask : (w.finishCall (.user n) .waitClosed (.returned none)).task u = w.task u :=
    Function.update_of_ne hne _ w.task
  rw [htask] at hdone
  exact hdone

/-- Inside the tail of a `send()` nothing happens to the barrier. -/
theorem keepsBarrier_of_busy {a : DcAction} (h : apply a w = some w')
    (hbusy : w'.position ≠ .idle) : KeepsBarrier a w := by
  cases a with
  | native a => trivial
  | sending a => trivial
  | loop a =>
      obtain ⟨hidle, hloop⟩ := apply_loop_cases h
      cases a with
      | dispatch =>
          obtain ⟨e, rest, -, rfl⟩ := dispatch_cases hloop
          rw [runCallback_position] at hbusy
          exact absurd hidle hbusy
      | destroy =>
          cases hloop
          exact absurd ((destroy_position w).trans hidle) hbusy
      | spawnTask t =>
          obtain ⟨-, -, ⟨-, rfl⟩ | ⟨-, rfl⟩⟩ := spawnTask_cases hloop
          · exact absurd hidle hbusy
          · exact absurd hidle hbusy
      | _ => trivial

-- ================================================================== runs

section Init

variable (handle : Int) (recvBuffer : Nat) (native : NativeChannel)
  (fired : List DcEvent) (core : Core)

/-- What the barrier rests on holds of a new channel. -/
theorem barrierInv_init :
    BarrierInv (init handle recvBuffer native fired core) where
  send := nofun
  handle := handleInv_init handle recvBuffer native fired core
  custody := custodyInv_init handle recvBuffer native fired core
  closed := nofun
  fresh := freshUser_init handle recvBuffer native fired core

/-- The slot of a fresh wrapper is resolved only for a closed handle. -/
theorem resolves_init_iff :
    Resolves (init handle recvBuffer native fired core) ↔ native.isClosed = false := by
  have hslot := slot_init handle recvBuffer native fired core .closed
  cases hc : native.isClosed with
  | false =>
      refine ⟨fun _ => rfl, fun _ hret => ?_⟩
      have hpend : (init handle recvBuffer native fired core).slot .closed = .pending := by
        show (if native.isClosed then FutureSlot.new.set () else FutureSlot.new).future = _
        rw [hc]
        rfl
      rw [hpend] at hret
      cases hret
  | true =>
      refine ⟨fun hres => ?_, nofun⟩
      have hret : (init handle recvBuffer native fired core).slot .closed
          = .settled (.returned ()) := by
        show (if native.isClosed then FutureSlot.new.set () else FutureSlot.new).future = _
        rw [hc]
        rfl
      have hd := (hres hret).destroyed
      cases hd

/-- The step ends in a state that keeps the promise. -/
def LeadsToKept (a : DcAction) (w : DcWorld) : Prop :=
  ∀ w', apply a w = some w' → BarrierKept w'

/-- In a completed run both calls are barriers throughout exactly when
the handle was not closed at first and no step of the run lets the
closed slot run ahead of the teardown. -/
theorem barrierKept_iff {acts : List DcAction} {v : DcWorld}
    (hrun : exec apply (init handle recvBuffer native fired core) acts = some v) :
    (∀ w, Transition.Visits apply (init handle recvBuffer native fired core) acts w →
        BarrierKept w) ↔
      native.isClosed = false ∧
        ∀ a w, Transition.Takes apply (init handle recvBuffer native fired core) acts
          a w → KeepsBarrier a w := by
  have hinv := barrierInv_init handle recvBuffer native fired core
  have hloop := loopInv_init handle recvBuffer native fired core
  constructor
  · intro hkept
    have hP₀ : Resolves (init handle recvBuffer native fired core) :=
      resolves_of_kept hinv rfl (hkept _ (Transition.visits_start acts))
    refine ⟨(resolves_init_iff handle recvBuffer native fired core).mp hP₀, ?_⟩
    have hexact := Transition.visits_iff_takes (P := Resolves) (I := BarrierInv) hrun
      hP₀ hinv barrierInv_apply resolves_step_iff
    apply hexact.mp
    -- every visited state resolves soundly: the idle ones by the promise,
    -- the others because nothing happens inside a `send()`
    have hstep : ∀ {a m m'}, BarrierInv m ∧ Resolves m → LeadsToKept a m →
        apply a m = some m' → BarrierInv m' ∧ Resolves m' := by
      intro a m m' hm hok hstep
      have hi' := barrierInv_apply hm.1 hstep
      refine ⟨hi', ?_⟩
      by_cases hidle : m'.position = .idle
      · exact resolves_of_kept hi' hidle (hok m' hstep)
      · exact (resolves_step_iff hm.1 hm.2 hstep).mpr
          (keepsBarrier_of_busy hstep hidle)
    have hboth := Transition.visits_of_takes ⟨hinv, hP₀⟩ hstep
      (fun a m htake m' hstep => hkept m' (htake.visits_next hstep))
    exact fun w hw => (hboth w hw).2
  · intro hboth w hw
    obtain ⟨hopen, hok⟩ := hboth
    have hP₀ := (resolves_init_iff handle recvBuffer native fired core).mpr hopen
    have hexact := Transition.visits_iff_takes (P := Resolves) (I := BarrierInv) hrun
      hP₀ hinv barrierInv_apply resolves_step_iff
    have hi : BarrierInv w := hw.reachable.invariant hinv barrierInv_apply
    have hl : LoopInv w := hw.reachable.invariant hloop loopInv_apply
    exact .of_resolves hi hl.reinjecting (hexact.mpr hok w hw)

end Init

-- ======================================================= the failing runs

/-- A pump is running on the channel when the remote side closes it. -/
def remoteCloseRun : List DcAction :=
  [.loop (.spawnTask (.ofChannel 1 0)), .native (.fire .closed), .loop .dispatch]

/-- `aclose()` after `remoteCloseRun` returns within its first step: the
handle is live and the pump has not even seen its cancellation. -/
theorem aclose_returns_early :
    ∃ w, exec apply (init 1 1 openNative [] emptyCore)
        (remoteCloseRun ++ [.loop (.aclose (.user 0))]) = some w
      ∧ w.task (.user 0) = .running (some (.aclose, .returned none))
      ∧ w.dc.destroyed = false ∧ w.core.deletedDcs = []
      ∧ w.dc.tasks = [.ofChannel 1 0] ∧ w.task (.ofChannel 1 0) = .running none
      ∧ w.dc.teardownTask = .created :=
  ⟨_, rfl, rfl, rfl, rfl, rfl, rfl, rfl⟩

/-- `barrierKept_iff` at `remoteCloseRun`, which breaks both sides at
its last step. -/
theorem barrierKept_iff_remoteCloseRun :
    (∀ w, Transition.Visits apply (init 1 1 openNative [] emptyCore)
        remoteCloseRun w → BarrierKept w) ↔
      openNative.isClosed = false ∧
        ∀ a w, Transition.Takes apply (init 1 1 openNative [] emptyCore)
          remoteCloseRun a w → KeepsBarrier a w :=
  barrierKept_iff 1 1 openNative [] emptyCore (v := _) rfl

end DcWorld

end AioLibDataChannel
