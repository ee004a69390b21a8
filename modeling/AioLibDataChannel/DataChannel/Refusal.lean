/-
A closed channel refuses to send.

`_handle_closed` raises the drain event, and from then on nobody lowers
it: the one place that does is the tail of a `send()`, which the loop
enters only past the check that the channel takes sends, and a channel
that has handled its closing never does again (`ClosingInv`). So every
sender parked for drain is woken, finds the channel closed when it
resumes, and a `send()` started later does not get past its first
check (`sendsRefused_of_closed`).
-/
import AioLibDataChannel.DataChannel.History
import AioLibDataChannel.DataChannel.Backpressure
import AioLibDataChannel.DataChannel.Senders

namespace AioLibDataChannel

open Asyncio (Event Future Outcome Queue)
open Function (update)
open Transition (exec Reachable)

namespace DcWorld

variable {w w' : DcWorld} {t : TaskId}

-- ======================================================= what stays closed

/-- A native channel that is closed stays so. -/
theorem isClosed_apply {a : DcAction} (h : apply a w = some w')
    (hc : w.native.isClosed = true) : w'.native.isClosed = true := by
  cases a with
  | native a =>
      cases a with
      | fire e =>
          cases e <;> cases h
          · rw [post_native]
            exact hc
          · rw [post_native]
          · rw [post_native]
            exact hc
          · rw [post_native]
            exact hc
      | drain k =>
          cases h
          simp only [drain]
          split
          · rw [post_native]
            exact hc
          · exact hc
  | sending a =>
      cases a with
      | nativeSend answer =>
          simp only [apply, applySending, nativeSend] at h
          split at h
          · split at h <;> cases h <;> exact hc
          · cases h
      | readAmount =>
          simp only [apply, applySending, readAmount] at h
          split at h
          · split at h <;> cases h <;> exact hc
          · cases h
      | clearEvent =>
          simp only [apply, applySending, clearEvent] at h
          split at h
          · cases h
            exact hc
          · cases h
  | loop a =>
      obtain ⟨-, hloop⟩ := apply_loop_cases h
      rcases applyLoop_link_cases hloop with hl | ⟨-, e, rest, -, rfl⟩ | ⟨hl, -⟩
        | ⟨n, -, -, rfl⟩
      · exact (congrArg (fun l => l.native.isClosed) hl).trans hc
      · cases e <;> exact hc
      · refine (congrArg (fun l => l.native.isClosed) hl).trans ?_
        show w.destroy.native.isClosed = true
        unfold destroy
        split <;> exact hc
      · exact hc

/-- A channel that refuses sends never takes one again. -/
theorem sendRefused_apply {a : DcAction} (h : apply a w = some w')
    (hr : w.sendRefused = true) : w'.sendRefused = true := by
  rcases Bool.or_eq_true_iff.mp hr with hd | hc
  · exact Bool.or_eq_true_iff.mpr (Or.inl (destroyed_apply h hd))
  · exact Bool.or_eq_true_iff.mpr (Or.inr (isClosed_apply h hc))

-- ========================================================== the invariant

/-- Closing as the senders see it: the closed callback travels with
`is_closed`, and once the closing is handled the drain event is up, the
channel refuses sends, and the loop is in no `send()`. -/
structure ClosingInv (w : DcWorld) : Prop where
  told : DcEvent.closed ∈ w.ready → w.native.isClosed = true
  raised : DcObs.closed ∈ w.hist → w.dc.bufferedLowEvent.value = true
  refused : DcObs.closed ∈ w.hist → w.sendRefused = true
  idle : DcObs.closed ∈ w.hist → w.position = .idle

/-- A callback fired by the native layer is either the closed one, which
comes with the flag, or was scheduled before. -/
theorem told_applyNative {a : DcNative} (hi : ClosingInv w)
    (h : applyNative a w = some w') (hm : DcEvent.closed ∈ w'.ready) :
    w'.native.isClosed = true := by
  have hpost : ∀ {e : DcEvent} {v : DcWorld}, DcEvent.closed ∈ (v.post e).ready →
      e ≠ .closed → DcEvent.closed ∈ v.ready := by
    intro e v hmem he
    unfold post at hmem
    split at hmem
    · rcases List.mem_append.mp hmem with hmem | hmem
      · exact hmem
      · exact absurd (List.mem_singleton.mp hmem).symm he
    · exact hmem
  have hkept : DcEvent.closed ∈ w.ready → w'.native.isClosed = true :=
    fun hmem => isClosed_apply (a := .native a) h (hi.told hmem)
  cases a with
  | fire e =>
      cases e with
      | opened =>
          cases h
          have hmem := hpost hm fun he => by cases he
          exact hkept hmem
      | closed =>
          cases h
          rw [post_native]
      | error m =>
          cases h
          have hmem := hpost hm fun he => by cases he
          exact hkept hmem
      | message m =>
          cases h
          have hmem := hpost hm fun he => by cases he
          exact hkept hmem
      | bufferedLow => cases h
  | drain k =>
      have hw' : w.drain k = w' := Option.some.inj h
      rw [← hw'] at hm
      simp only [drain] at hm
      split at hm
      · have hmem := hpost hm fun he => by cases he
        exact hkept hmem
      · exact hkept hm

/-- A loop step schedules no callback. -/
theorem ready_applyLoop {a : DcLoop} (h : applyLoop a w = some w') :
    ∀ e ∈ w'.ready, e ∈ w.ready := by
  intro e he
  rcases applyLoop_link_cases h with hl | ⟨-, e', rest, hr, rfl⟩ | ⟨hl, -⟩ | ⟨n, -, -, rfl⟩
  · have hready : w'.ready = w.ready := congrArg Link.ready hl
    exact hready ▸ he
  · rw [hr]
    have hrest : (runCallback e' { w with ready := rest }).ready = rest := by
      cases e' <;> rfl
    exact List.mem_cons_of_mem _ (hrest ▸ he)
  · have hready : w'.ready = w.destroy.ready := congrArg Link.ready hl
    rw [hready] at he
    unfold destroy at he
    split at he <;> exact he
  · exact he

/-- Handling a closing, in `_destroy` or before it, raises the event. -/
theorem lowEvent_destroy (hlog : ClosedLogged w) (hi : ClosingInv w) :
    w.destroy.dc.bufferedLowEvent.value = true := by
  unfold destroy
  split
  next hd => exact hi.raised (hlog hd)
  next hd =>
    show ((w.dc.destroy w.core).2).bufferedLowEvent.value = true
    rw [DataChannel.destroy, if_neg hd]
    rfl

/-- A loop step leaves the event of a closed channel up. -/
theorem lowEvent_applyLoop {a : DcLoop} (hlog : ClosedLogged w) (hi : ClosingInv w)
    (h : applyLoop a w = some w') (hc : DcObs.closed ∈ w.hist) :
    w'.dc.bufferedLowEvent.value = true := by
  have hv := hi.raised hc
  rcases applyLoop_link_cases h with hl | ⟨-, e, rest, -, rfl⟩ | ⟨hl, -⟩ | ⟨n, -, -, rfl⟩
  · exact (congrArg Link.lowEvent hl).trans hv
  · cases e with
    | opened => exact hv
    | error m => exact hv
    | message m => exact hv
    | closed => rfl
    | bufferedLow => rfl
  · exact (congrArg Link.lowEvent hl).trans (lowEvent_destroy hlog hi)
  · exact hv

/-- After a loop step that leaves the closing handled, the event is up
and sends are refused, whether this step handled it or an earlier one. -/
theorem closed_applyLoop {a : DcLoop} (hlog : ClosedLogged w) (hi : ClosingInv w)
    (hidle : w.position = .idle) (h : applyLoop a w = some w')
    (hc : DcObs.closed ∈ w'.hist) :
    w'.dc.bufferedLowEvent.value = true ∧ w'.sendRefused = true := by
  have happly : apply (.loop a) w = some w' := by
    show (if w.position = .idle then applyLoop a w else none) = _
    rw [if_pos hidle]
    exact h
  have hbefore : DcObs.closed ∈ w.hist →
      w'.dc.bufferedLowEvent.value = true ∧ w'.sendRefused = true := fun hmem =>
    ⟨lowEvent_applyLoop hlog hi h hmem, sendRefused_apply happly (hi.refused hmem)⟩
  rcases applyLoop_hist_cases h with hh | ⟨o, ho, -, hh⟩ | ⟨e, rest, hr, rfl⟩ | ⟨-, hl⟩
  · exact hbefore (hh ▸ hc)
  · rw [hh] at hc
    rcases List.mem_append.mp hc with hmem | hmem
    · exact hbefore hmem
    · exact absurd (List.mem_singleton.mp hmem).symm ho
  · by_cases he : e = .closed
    · subst he
      have htold : w.native.isClosed = true := hi.told (hr ▸ List.mem_cons_self)
      exact ⟨rfl, Bool.or_eq_true_iff.mpr (Or.inr htold)⟩
    · have hlogged : DcObs.closed ∈ w.hist := by
        rcases mem_hist_runCallback hc with hold | ⟨-, ho⟩ | ⟨hclosed, -⟩ | ⟨m, ho⟩ | ⟨m, ho⟩
          | ⟨item, ho⟩
        · exact hold
        · cases ho
        · exact absurd hclosed he
        · cases ho
        · cases ho
        · cases ho
      exact hbefore hlogged
  · have hd' : w'.dc.destroyed = w.destroy.dc.destroyed := congrArg Link.destroyed hl
    refine ⟨(congrArg Link.lowEvent hl).trans (lowEvent_destroy hlog hi), ?_⟩
    exact Bool.or_eq_true_iff.mpr (Or.inl (hd'.trans (destroy_destroyed w)))

/-- Every step keeps what is known of a closing. -/
theorem closingInv_apply {a : DcAction} (hlog : ClosedLogged w) (hi : ClosingInv w)
    (h : apply a w = some w') : ClosingInv w' := by
  cases a with
  | native a =>
      have hhist : w'.hist = w.hist := hist_applyNative h
      have hdc : w'.dc = w.dc := (applyNative_link h).2
      constructor
      · exact told_applyNative hi h
      · rw [hhist, hdc]
        exact hi.raised
      · rw [hhist]
        exact fun hc => sendRefused_apply h (hi.refused hc)
      · rw [hhist, applyNative_position h]
        exact hi.idle
  | sending a =>
      have hhist : w'.hist = w.hist := hist_applySending h
      have hnot : DcObs.closed ∉ w'.hist := by
        intro hc
        rw [hhist] at hc
        obtain ⟨u, hu, -⟩ := applySending_cases h
        rw [hi.idle hc] at hu
        cases hu
      refine ⟨?_, fun hc => absurd hc hnot, fun hc => absurd hc hnot,
        fun hc => absurd hc hnot⟩
      rw [(applySending_link h).2.2.2]
      exact fun hm => isClosed_apply h (hi.told hm)
  | loop a =>
      obtain ⟨hidle, hloop⟩ := apply_loop_cases h
      have hclosed := closed_applyLoop hlog hi hidle hloop
      refine ⟨?_, fun hc => (hclosed hc).1, fun hc => (hclosed hc).2, ?_⟩
      · exact fun hm => isClosed_apply h (hi.told (ready_applyLoop hloop _ hm))
      · intro hc
        rcases applyLoop_enters hloop with hpos | ⟨u, payload, -, -, hr⟩
        · exact hpos.trans hidle
        · exact absurd hr (Bool.not_eq_false _ |>.mpr (hclosed hc).2)

-- ========================================================= what it promises

/-- What a channel that has handled its closing owes its senders: the
drain event is up, every suspended sender is woken or owed a
cancellation and ends its call when resumed, and a `send()` started now
ends at its first check. -/
structure SendsRefused (w : DcWorld) : Prop where
  raised : w.dc.bufferedLowEvent.value = true
  woken : ∀ t payload, w.task t = .inWait payload →
    w.mustCancel t = true ∨ t ∈ w.dc.bufferedLowEvent.woken
  resumed : ∀ t payload, w.task t = .inWait payload → ∃ w',
    apply (.loop (.resume t)) w = some w'
      ∧ w'.task t = .running (some (.send,
          if w.mustCancel t then .cancelled
          else .raised (.connectionClosedError "channel closed while waiting to send")))
  started : ∀ t last payload wait, w.task t = .running last → ∃ w',
    apply (.loop (.send t payload wait)) w = some w'
      ∧ w'.task t = .running (some (.send,
          .raised (.connectionClosedError "cannot send on a closed channel")))

/-- What every run keeps for the senders. -/
structure RefusalInv (w : DcWorld) : Prop where
  link : LinkInv w
  logged : ClosedLogged w
  closing : ClosingInv w
  senders : SendersInv w

/-- Every step keeps what the refusals rest on. -/
theorem refusalInv_apply {a : DcAction} (hi : RefusalInv w) (h : apply a w = some w') :
    RefusalInv w' where
  link := linkInv_apply hi.link h
  logged := closedLogged_apply hi.logged h
  closing := closingInv_apply hi.logged hi.closing h
  senders := sendersInv_apply hi.senders h

/-- Once a closing is logged, every send is refused. -/
theorem SendsRefused.of_closed (hi : RefusalInv w) (hc : DcObs.closed ∈ w.hist) :
    SendsRefused w := by
  have hidle := hi.closing.idle hc
  have hv := hi.closing.raised hc
  have hr := hi.closing.refused hc
  have hwoken : ∀ t payload, w.task t = .inWait payload →
      w.mustCancel t = true ∨ t ∈ w.dc.bufferedLowEvent.woken :=
    fun t payload ht => (hi.senders t payload ht).imp id fun hl => hl.woken hv
  refine ⟨hv, hwoken, ?_, ?_⟩
  · intro t payload ht
    have hres : apply (.loop (.resume t)) w = w.resume t := if_pos hidle
    rw [hres]
    cases hm : w.mustCancel t with
    | true => exact ⟨_, (Resumes.sendCancelled payload ht hm).resume, Function.update_self _ _ _⟩
    | false =>
        have hmem := (hwoken t payload ht).resolve_left (Bool.eq_false_iff.mp hm)
        exact ⟨_, (Resumes.sendRaises payload ht hm hmem hr).resume, Function.update_self _ _ _⟩
  · intro t last payload wait ht
    refine ⟨w.finishCall t .send
      (.raised (.connectionClosedError "cannot send on a closed channel")), ?_,
      Function.update_self _ _ _⟩
    show (if w.position = .idle then w.started t (w.send t payload wait) else none) = _
    rw [if_pos hidle, DcWorld.started, ht, send, if_pos hr]

section Init

variable (handle : Int) (recvBuffer : Nat) (native : NativeChannel)
  (fired : List DcEvent) (core : Core)

/-- What the refusals rest on holds of a new channel whose callbacks tell
what its handle does. -/
theorem refusalInv_init (hfired : DcEvent.closed ∈ fired → native.isClosed = true) :
    RefusalInv (init handle recvBuffer native fired core) := by
  have hnone : DcObs.closed ∉ (init handle recvBuffer native fired core).hist := by
    show DcObs.closed ∉ (if native.isOpen then [DcObs.opened] else [])
      ++ (if native.isClosed then [DcObs.closedAtBirth] else [])
    cases native.isOpen <;> cases native.isClosed <;> simp
  refine
    { link := linkInv_init handle recvBuffer native fired core
      logged := nofun
      closing := ⟨hfired, fun hc => absurd hc hnone, fun hc => absurd hc hnone,
        fun hc => absurd hc hnone⟩
      senders := ?_ }
  intro t payload ht
  rcases init_task handle recvBuffer native fired core t with h | h <;>
    · rw [h] at ht
      cases ht

/-- Sends and closing never collide. In every run in which the native
layer reports closed with its closed callback: once `_handle_closed` has
run, the channel refuses sends in every state from there on; and
wherever the loop is about to call the native send, `_destroy` has not
begun and the handle is live. -/
theorem sendsRefused_of_closed
    (hfired : DcEvent.closed ∈ fired → native.isClosed = true)
    (h : Reachable apply (init handle recvBuffer native fired core) w) :
    (DcObs.closed ∈ w.hist → ∀ v, Reachable apply w v → SendsRefused v)
    ∧ ∀ t payload, w.position = .calling t payload →
        w.dc.destroyed = false ∧ w.dc.native.destroyed = false
          ∧ w.dc.native.handle ∈ w.core.dcs := by
  have hi : RefusalInv w :=
    h.invariant (refusalInv_init handle recvBuffer native fired core hfired)
      refusalInv_apply
  constructor
  · intro hc v hv
    have hboth : RefusalInv v ∧ DcObs.closed ∈ v.hist :=
      hv.invariant (P := fun m => RefusalInv m ∧ DcObs.closed ∈ m.hist) ⟨hi, hc⟩
        fun hm ha => ⟨refusalInv_apply hm.1 ha, (hist_apply ha).subset hm.2⟩
    exact SendsRefused.of_closed hboth.1 hboth.2
  · intro t payload hp
    have hd : w.dc.destroyed = false := hi.link.guard (by rw [hp]; exact nofun)
    obtain ⟨hlive, hdisp⟩ := hi.link.handle.live hd
    refine ⟨hd, hlive, ?_⟩
    have hboth := hdisp .open
    unfold CoreDataChannel.dispatches at hboth
    exact of_decide_eq_true (Bool.and_eq_true_iff.mp hboth).1

end Init

-- ===================================================== senders at a close

/-- Two senders parked behind a first message when the channel closes. -/
def parkedSendersRun : List DcAction :=
  [.loop (.send (.user 0) (.bytesLike [1]) true), .sending (.nativeSend (.ok 1)),
    .sending .readAmount, .sending .clearEvent,
    .loop (.send (.user 1) (.bytesLike [2]) true),
    .loop (.send (.user 2) (.bytesLike [3]) true),
    .native (.fire .closed), .loop .dispatch]

/-- `sendsRefused_of_closed` at the end of `parkedSendersRun`, with both
senders still suspended. -/
theorem sendsRefused_parkedSendersRun :
    ∃ w, exec apply (init 1 1 openNative [] emptyCore) parkedSendersRun = some w
      ∧ w.task (.user 1) = .inWait (.bytesLike [2])
      ∧ w.task (.user 2) = .inWait (.bytesLike [3]) ∧ SendsRefused w := by
  have hrun : ∃ w, exec apply (init 1 1 openNative [] emptyCore) parkedSendersRun = some w
      ∧ w.task (.user 1) = .inWait (.bytesLike [2])
      ∧ w.task (.user 2) = .inWait (.bytesLike [3]) ∧ w.hist.getLast? = some .closed :=
    ⟨_, rfl, rfl, rfl, rfl⟩
  obtain ⟨w, hw, h₁, h₂, hlast⟩ := hrun
  refine ⟨w, hw, h₁, h₂, ?_⟩
  exact (sendsRefused_of_closed 1 1 openNative [] emptyCore nofun
    (Transition.reachable_of_exec hw)).1 (List.mem_of_getLast? hlast) w .init

end DcWorld

end AioLibDataChannel
