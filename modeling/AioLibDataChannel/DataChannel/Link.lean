/-
What a channel shares with the native layer: the handle and its
registry entry, the native side itself, the callbacks on their way to
the loop, and the drain event.

Task movements and the receive queue do not touch it, so a loop step
changes the link in one of three ways, or not at all
(`applyLoop_link_cases`): a scheduled callback runs, `_destroy` runs,
the threshold moves. From that one inversion follow the invariants of
the handle (`HandleInv`) and of the tail of `send()` (`SendGuard`).
-/
import AioLibDataChannel.DataChannel.Tasks

namespace AioLibDataChannel

open Asyncio (Event Future Outcome Queue)
open Function (update)

/-- The part of a world shared with the native layer. -/
structure Link where
  core : Core
  native : NativeChannel
  coreDc : CoreDataChannel
  destroyed : Bool
  lowEvent : Bool
  ready : List DcEvent

/-- The link in the steady part of a world. -/
def Steady.link (f : Steady) : Link where
  core := f.core
  native := f.native
  coreDc := f.coreDc
  destroyed := f.destroyed
  lowEvent := f.lowEvent
  ready := f.ready

namespace DcWorld

/-- The link of a world. -/
def link (w : DcWorld) : Link := w.steady.link

variable {w w' : DcWorld} {t : TaskId}

/-- What leaves the frame alone leaves the link alone. -/
theorem link_congr (h : w'.frame = w.frame) : w'.link = w.link :=
  congrArg Steady.link (steady_congr h)

/-- `close()` does not touch the handle. -/
theorem link_close (w : DcWorld) : w.close.link = w.link := by
  unfold close
  split
  · rfl
  · have hframe := frame_cancelTasks
      { w with dc := w.dc.requestClose, hist := w.hist ++ [.closeCalled] } w.dc.tasks
    have hlink := link_congr hframe
    exact hlink

/-- After the destroy the wrapper knows it. -/
theorem destroy_destroyed (w : DcWorld) : w.destroy.dc.destroyed = true := by
  unfold destroy
  split
  next hd => exact hd
  next hd =>
    show ((w.dc.destroy w.core).2).destroyed = true
    rw [DataChannel.destroy, if_neg hd]
    rfl

/-- What a loop step can do to the link. -/
theorem applyLoop_link_cases {a : DcLoop} (h : applyLoop a w = some w') :
    w'.link = w.link
    ∨ (a = .dispatch ∧ ∃ e rest, w.ready = e :: rest
        ∧ w' = runCallback e { w with ready := rest })
    ∨ (w'.link = w.destroy.link ∧ w'.hist = w.destroy.hist)
    ∨ (∃ n, a = .setThreshold n ∧ w.dc.destroyed = false
        ∧ w' = { w with native.threshold := n }) := by
  cases a with
  | dispatch =>
      obtain ⟨e, rest, hr, hw⟩ := dispatch_cases h
      exact Or.inr (Or.inl ⟨rfl, e, rest, hr, hw⟩)
  | close =>
      cases h
      exact Or.inl (link_close w)
  | destroy =>
      cases h
      exact Or.inr (Or.inr (Or.inl ⟨rfl, rfl⟩))
  | startTeardown =>
      obtain ⟨-, ⟨-, rfl⟩ | ⟨-, rfl⟩⟩ := startTeardown_cases h
      · exact Or.inr (Or.inr (Or.inl ⟨rfl, rfl⟩))
      · exact Or.inl rfl
  | resumeTeardown =>
      obtain ⟨rfl, -⟩ := resumeTeardown_cases h
      exact Or.inr (Or.inr (Or.inl ⟨rfl, rfl⟩))
  | setThreshold n =>
      cases h
      cases hd : w.dc.destroyed with
      | true =>
          left
          rw [setThreshold, if_pos hd]
      | false =>
          refine Or.inr (Or.inr (Or.inr ⟨n, rfl, rfl, ?_⟩))
          rw [setThreshold, if_neg (Bool.eq_false_iff.mp hd)]
  | spawnTask t =>
      obtain ⟨-, -, ⟨-, rfl⟩ | ⟨-, rfl⟩⟩ := spawnTask_cases h <;> exact Or.inl rfl
  | finish t =>
      obtain ⟨-, rfl⟩ := finish_cases h
      exact Or.inl rfl
  | discard t =>
      obtain ⟨-, rfl⟩ := discard_cases h
      exact Or.inl rfl
  | waitOpen t =>
      obtain ⟨rfl, -⟩ := started_eq h
      exact Or.inl (link_congr (frame_waitOpen t w))
  | waitClosed t =>
      obtain ⟨rfl, -⟩ := started_eq h
      exact Or.inl (link_congr (frame_awaitClosed t w _))
  | aclose t =>
      obtain ⟨rfl, -⟩ := started_eq h
      exact Or.inl ((link_congr (frame_awaitClosed t w.close _)).trans (link_close w))
  | recv t =>
      obtain ⟨rfl, -⟩ := started_eq h
      exact Or.inl (congrArg Steady.link (steady_recv t w))
  | send t payload wait =>
      obtain ⟨rfl, -⟩ := started_eq h
      exact Or.inl (congrArg Steady.link (steady_send t w payload wait))
  | resume t => exact Or.inl (congrArg Steady.link (steady_resume h))
  | cancel t =>
      cases h
      exact Or.inl (link_congr (frame_cancelTask t w))
  | absorb t =>
      obtain ⟨rfl, -⟩ := started_eq h
      exact Or.inl rfl

/-- What a native step can do to the link: it never touches the
wrapper's side. -/
theorem applyNative_link {a : DcNative} (h : applyNative a w = some w') :
    w'.core = w.core ∧ w'.dc = w.dc := by
  obtain ⟨native, ready, rfl⟩ := applyNative_eq h
  exact ⟨rfl, rfl⟩

/-- What the tail of a `send()` can do to the link. -/
theorem applySending_link {a : DcSending} (h : applySending a w = some w') :
    w'.core = w.core ∧ w'.dc.native = w.dc.native
      ∧ w'.dc.destroyed = w.dc.destroyed ∧ w'.ready = w.ready := by
  obtain ⟨native, event, position, task, -, rfl⟩ := applySending_eq h
  exact ⟨rfl, rfl, rfl, rfl⟩

/-- Callbacks never touch the handle. -/
theorem runCallback_handle (e : DcEvent) (w : DcWorld) :
    (runCallback e w).core = w.core ∧ (runCallback e w).dc.native = w.dc.native
      ∧ (runCallback e w).dc.destroyed = w.dc.destroyed := by
  cases e <;> exact ⟨rfl, rfl, rfl⟩

-- ============================================================ the handle

/-- The native handle follows the wrapper: live with all its callbacks,
or deleted and out of the registry. -/
structure HandleInv (w : DcWorld) : Prop where
  live : w.dc.destroyed = false → w.dc.native.destroyed = false
    ∧ ∀ kind, w.dc.native.dispatches w.core kind = true
  gone : w.dc.destroyed = true → w.dc.native.callbacks = []
    ∧ w.dc.native.handle ∉ w.core.dcs ∧ w.dc.native.handle ∈ w.core.deletedDcs

/-- The invariant reads the core, the native wrapper and one flag. -/
theorem HandleInv.congr (h : HandleInv w) (hc : w'.core = w.core)
    (hn : w'.dc.native = w.dc.native) (hd : w'.dc.destroyed = w.dc.destroyed) :
    HandleInv w' := by
  constructor
  · rw [hd, hn, hc]
    exact h.live
  · rw [hd, hn, hc]
    exact h.gone

/-- A new channel is registered under its handle. -/
theorem handleInv_init (handle : Int) (recvBuffer : Nat) (native : NativeChannel)
    (fired : List DcEvent) (core : Core) :
    HandleInv (init handle recvBuffer native fired core) where
  live := by
    refine fun _ => ⟨rfl, ?_⟩
    intro kind
    have hmem : handle ∈ insertKey handle core.dcs :=
      mem_insertKey.mpr (Or.inl rfl)
    show (decide (handle ∈ insertKey handle core.dcs)
      && decide (kind ∈ [DcKind.open, .closed, .error, .message, .bufferedAmountLow]))
      = true
    rw [decide_eq_true hmem, Bool.true_and, decide_eq_true_eq]
    cases kind <;> simp
  gone := nofun

/-- The destroy leaves the handle deleted, once. -/
theorem handleInv_destroy (h : HandleInv w) : HandleInv w.destroy := by
  unfold destroy
  split
  next => exact h
  next hd =>
    have hlive := (h.live (Bool.eq_false_iff.mpr hd)).1
    have hcore : (w.dc.destroy w.core).1
        = { w.core with
            dcs := popKey w.dc.native.handle w.core.dcs
            deletedDcs := w.core.deletedDcs ++ [w.dc.native.handle] } := by
      rw [DataChannel.destroy, if_neg hd, CoreDataChannel.destroy,
        if_neg (Bool.eq_false_iff.mp hlive)]
    have hnative : ((w.dc.destroy w.core).2).native
        = { w.dc.native with destroyed := true, callbacks := [] } := by
      rw [DataChannel.destroy, if_neg hd, CoreDataChannel.destroy,
        if_neg (Bool.eq_false_iff.mp hlive)]
      rfl
    constructor
    · intro hfalse
      have htrue : ((w.dc.destroy w.core).2).destroyed = true := by
        rw [DataChannel.destroy, if_neg hd]
        rfl
      exact absurd (htrue.symm.trans hfalse) nofun
    · intro _
      show ((w.dc.destroy w.core).2).native.callbacks = []
        ∧ ((w.dc.destroy w.core).2).native.handle ∉ (w.dc.destroy w.core).1.dcs
        ∧ ((w.dc.destroy w.core).2).native.handle
          ∈ (w.dc.destroy w.core).1.deletedDcs
      rw [hnative, hcore]
      refine ⟨rfl, ?_, ?_⟩
      · exact fun hm => (mem_popKey.mp hm).2 rfl
      · exact List.mem_append_right _ (List.mem_singleton_self _)

/-- The link holds all that the invariant reads. -/
theorem link_handle (h : w'.link = w.link) :
    w'.core = w.core ∧ w'.dc.native = w.dc.native
      ∧ w'.dc.destroyed = w.dc.destroyed :=
  ⟨congrArg Link.core h, congrArg Link.coreDc h, congrArg Link.destroyed h⟩

/-- Every step keeps what is known of the handle. -/
theorem handleInv_apply {a : DcAction} (hi : HandleInv w)
    (h : apply a w = some w') : HandleInv w' := by
  cases a with
  | native a =>
      obtain ⟨hcore, hdc⟩ := applyNative_link h
      exact hi.congr hcore (congrArg _ hdc) (congrArg _ hdc)
  | sending a =>
      obtain ⟨hcore, hnative, hd, -⟩ := applySending_link h
      exact hi.congr hcore hnative hd
  | loop a =>
      obtain ⟨-, hloop⟩ := apply_loop_cases h
      rcases applyLoop_link_cases hloop with hl | ⟨-, e, rest, -, rfl⟩ | ⟨hl, -⟩
        | ⟨n, -, -, rfl⟩
      · obtain ⟨hcore, hnative, hd⟩ := link_handle hl
        exact hi.congr hcore hnative hd
      · obtain ⟨hcore, hnative, hd⟩ := runCallback_handle e { w with ready := rest }
        exact hi.congr hcore hnative hd
      · obtain ⟨hcore, hnative, hd⟩ := link_handle hl
        exact (handleInv_destroy hi).congr hcore hnative hd
      · exact hi.congr rfl rfl rfl

/-- A wrapper that was destroyed stays so. -/
theorem destroyed_apply {a : DcAction} (h : apply a w = some w')
    (hd : w.dc.destroyed = true) : w'.dc.destroyed = true := by
  cases a with
  | native a =>
      rw [(applyNative_link h).2]
      exact hd
  | sending a =>
      rw [(applySending_link h).2.2.1]
      exact hd
  | loop a =>
      obtain ⟨-, hloop⟩ := apply_loop_cases h
      rcases applyLoop_link_cases hloop with hl | ⟨-, e, rest, -, rfl⟩ | ⟨hl, -⟩
        | ⟨n, -, hn, -⟩
      · rw [(link_handle hl).2.2]
        exact hd
      · rw [(runCallback_handle e _).2.2]
        exact hd
      · rw [(link_handle hl).2.2]
        exact destroy_destroyed w
      · rw [hn] at hd
        cases hd

-- ======================================================= the send's guard

/-- The loop is inside a `send()` only on a channel that is not
destroyed. -/
def SendGuard (w : DcWorld) : Prop :=
  w.position ≠ .idle → w.dc.destroyed = false

/-- Every step keeps `send()` off a destroyed channel. -/
theorem sendGuard_apply {a : DcAction} (hg : SendGuard w)
    (h : apply a w = some w') : SendGuard w' := by
  intro hp
  cases a with
  | native a =>
      rw [applyNative_position h] at hp
      rw [(applyNative_link h).2]
      exact hg hp
  | sending a =>
      rw [(applySending_link h).2.2.1]
      apply hg
      intro hidle
      obtain ⟨u, hu, -⟩ := applySending_cases h
      rw [hidle] at hu
      cases hu
  | loop a =>
      obtain ⟨hidle, hloop⟩ := apply_loop_cases h
      rcases applyLoop_enters hloop with hpos | ⟨u, payload, -, -, hrefused⟩
      · rw [hpos] at hp
        exact absurd hidle hp
      · exact (Bool.or_eq_false_iff.mp hrefused).1

end DcWorld

end AioLibDataChannel
