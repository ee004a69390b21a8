/-
Backpressure with several producers: what the drain event lets through.

A `send()` that finds the event up calls the native send at once; one
that was parked calls it when it resumes, whatever the event says by
then. So the event is trusted at two places, and each can be out of
date. A low callback runs some time after the drain that fired it, and
raises the event over bytes sent in between. And one low event wakes
every parked sender: the first to resume sends and lowers the event,
the next resumes above the mark.

`Mark` is what the event stands for between two calls. It survives a
step exactly when the step trusts the event rightly (`ReleasesFresh`),
which makes `markKept_iff` exact; `released_together` and
`stale_low_event` are the two failures, the second with one producer.
-/
import AioLibDataChannel.DataChannel.Barrier
import AioLibDataChannel.DataChannel.Refusal

namespace AioLibDataChannel

open Asyncio (Event Future Outcome Queue)
open Function (update)
open Transition (exec)

/-- The producers respect the drain event and the threshold is fixed. -/
def DcAction.respectsDrain : DcAction → Bool
  | .loop (.setThreshold _) => false
  | .loop (.send _ _ false) => false
  | _ => true

namespace DcWorld

variable {w w' : DcWorld} {t : TaskId}

/-- At or below the low threshold, if the loop is about to call the
native send. -/
def AtMark (w : DcWorld) : Prop :=
  ∀ t payload, w.position = .calling t payload →
    w.native.bufferedAmount ≤ w.native.threshold

/-- Backpressure holds: at the native send the loop is about to make,
and at the one a `send()` started now would make. -/
structure MarkKept (w : DcWorld) : Prop where
  sent : AtMark w
  started : ∀ t payload v, apply (.loop (.send t payload true)) w = some v → AtMark v

/-- A `send()` started now would go through. -/
def Admits (w : DcWorld) : Prop :=
  w.position = .idle ∧ w.dc.bufferedLowEvent.value = true ∧ w.sendRefused = false

/-- What the drain event stands for. -/
structure Mark (w : DcWorld) : Prop where
  sent : AtMark w
  admits : w.Admits → w.native.bufferedAmount ≤ w.native.threshold

/-- The step trusts the drain event rightly: a low callback that runs on
a channel that takes sends is not out of date, and a parked sender with
something to send resumes while the event is still up, or with the bytes
sent since drained to the threshold. -/
def ReleasesFresh (a : DcAction) (w : DcWorld) : Prop :=
  match a with
  | .loop .dispatch =>
      w.ready.head? = some .bufferedLow → w.sendRefused = false →
        w.native.bufferedAmount ≤ w.native.threshold
  | .loop (.resume t) =>
      match w.task t with
      | .inWait (.other _) => True
      | .inWait _ =>
          w.mustCancel t = false → w.sendRefused = false →
            w.dc.bufferedLowEvent.value = true
              ∨ w.native.bufferedAmount ≤ w.native.threshold
      | _ => True
  | _ => True

-- ======================================================= entering a send

/-- `send()` calls the native layer with the payload it was given. -/
theorem enterSend_calls {payload payload' : Payload} {v : DcWorld} {u : TaskId}
    (hv : v.position = .idle) (hp : (v.enterSend t payload).position = .calling u payload') :
    payload = payload' ∧ ∀ name, payload ≠ .other name := by
  cases payload with
  | other name => cases hv.symm.trans hp
  | bytesLike data =>
      cases hp
      exact ⟨rfl, fun _ => nofun⟩
  | str text =>
      cases hp
      exact ⟨rfl, fun _ => nofun⟩

/-- `send()` calls the native layer at once if it is not refused and need
not wait. -/
theorem send_calls {payload payload' : Payload} {wait : Bool} {u : TaskId}
    (hidle : w.position = .idle)
    (hp : (w.send t payload wait).position = .calling u payload') :
    w.sendRefused = false ∧ (wait = true → w.dc.bufferedLowEvent.value = true) := by
  unfold send at hp
  split at hp
  next => cases hidle.symm.trans hp
  next hr =>
    split at hp
    next =>
      have hpos := congrArg Frame.position (frame_suspend t { w with
        dc := { w.dc with bufferedLowEvent := w.dc.bufferedLowEvent.park t } }
        (.inWait payload))
      cases (hpos.trans hidle).symm.trans hp
    next hwait =>
      refine ⟨Bool.eq_false_iff.mpr hr, fun htrue => ?_⟩
      rw [htrue, Bool.true_and, Bool.not_eq_true'] at hwait
      exact (Bool.not_eq_false _).mp hwait

/-- A parked sender calls the native layer when resumed, if it is neither
cancelled nor refused. -/
theorem resume_calls {payload : Payload} {u : TaskId} (hidle : w.position = .idle)
    (h : w.resume t = some w') (hp : w'.position = .calling u payload) :
    w.task t = .inWait payload ∧ (∀ name, payload ≠ .other name)
      ∧ w.mustCancel t = false ∧ w.sendRefused = false := by
  have hnot : w'.position = w.position → False := by
    intro hpos
    cases (hpos.trans hidle).symm.trans hp
  cases resume_cases h with
  | openSettled o ht hs => exact absurd (congrArg Frame.position (frame_endWait t w _ _)) hnot
  | closedSettled call o ht hs =>
      exact absurd (congrArg Frame.position (frame_endWait t w _ _)) hnot
  | getTakes item rest ht hm hw hi => exact absurd (received_position t item _) hnot
  | sendEnters payload' ht hm hw hr =>
      obtain ⟨rfl, hne⟩ := enterSend_calls (v := { w with dc := { w.dc with
        bufferedLowEvent := w.dc.bufferedLowEvent.leave t } }) hidle hp
      exact ⟨ht, hne, hm, hr⟩
  | _ => exact absurd rfl hnot

/-- The loop comes to a native send only by a `send()` that starts on a
raised event, or by a parked one that resumes. -/
theorem applyLoop_calls {a : DcLoop} {payload : Payload} {u : TaskId}
    (hidle : w.position = .idle) (h : applyLoop a w = some w')
    (hp : w'.position = .calling u payload) :
    (∃ t payload' wait, a = .send t payload' wait ∧ w.sendRefused = false
      ∧ (wait = true → w.dc.bufferedLowEvent.value = true))
    ∨ ∃ t, a = .resume t := by
  have hnot : w'.position = w.position → False := by
    intro hpos
    cases (hpos.trans hidle).symm.trans hp
  cases a with
  | send t payload' wait =>
      obtain ⟨rfl, -⟩ := started_eq h
      exact Or.inl ⟨t, payload', wait, rfl, send_calls hidle hp⟩
  | resume t => exact Or.inr ⟨t, rfl⟩
  | dispatch =>
      obtain ⟨e, rest, -, rfl⟩ := dispatch_cases h
      exact absurd (runCallback_position e _) hnot
  | close =>
      cases h
      exact absurd (close_position w) hnot
  | destroy =>
      cases h
      exact absurd (destroy_position w) hnot
  | startTeardown =>
      obtain ⟨-, ⟨-, rfl⟩ | ⟨-, rfl⟩⟩ := startTeardown_cases h
      · exact absurd (destroy_position w) hnot
      · exact absurd rfl hnot
  | resumeTeardown =>
      obtain ⟨rfl, -⟩ := resumeTeardown_cases h
      exact absurd (destroy_position w) hnot
  | setThreshold n =>
      cases h
      exact absurd (setThreshold_position n w) hnot
  | spawnTask t =>
      obtain ⟨-, -, ⟨-, rfl⟩ | ⟨-, rfl⟩⟩ := spawnTask_cases h <;> exact absurd rfl hnot
  | finish t =>
      obtain ⟨-, rfl⟩ := finish_cases h
      exact absurd rfl hnot
  | discard t =>
      obtain ⟨-, rfl⟩ := discard_cases h
      exact absurd rfl hnot
  | waitOpen t =>
      obtain ⟨rfl, -⟩ := started_eq h
      exact absurd (congrArg Frame.position (frame_waitOpen t w)) hnot
  | waitClosed t =>
      obtain ⟨rfl, -⟩ := started_eq h
      exact absurd (congrArg Frame.position (frame_awaitClosed t w _)) hnot
  | aclose t =>
      obtain ⟨rfl, -⟩ := started_eq h
      have hframe := congrArg Frame.position (frame_awaitClosed t w.close .aclose)
      exact absurd (hframe.trans (close_position w)) hnot
  | recv t =>
      obtain ⟨rfl, -⟩ := started_eq h
      refine absurd ?_ hnot
      unfold recv
      split
      · exact received_position t _ _
      · exact congrArg Frame.position (frame_suspend t _ _)
  | cancel t =>
      cases h
      exact absurd (congrArg Frame.position (frame_cancelTask t w)) hnot
  | absorb t =>
      obtain ⟨rfl, -⟩ := started_eq h
      exact absurd rfl hnot

/-- Sending leaves the native side to the native send. -/
theorem native_send (t : TaskId) (payload : Payload) (wait : Bool) (w : DcWorld) :
    (w.send t payload wait).native = w.native :=
  congrArg Steady.native (steady_send t w payload wait)

-- ============================================== the mark, seen by a sender

/-- Since some task is always free to call `send()`, what a `send()`
started now would meet is what the event stands for. -/
theorem markKept_iff_mark (hf : FreshUser w) : MarkKept w ↔ Mark w := by
  constructor
  · intro hk
    refine ⟨hk.sent, fun hadm => ?_⟩
    obtain ⟨hidle, hv, hr⟩ := hadm
    obtain ⟨n, hn⟩ := hf
    have hrun : w.task (.user n) = .running none := hn n (Nat.le_refl n)
    have hstep : apply (.loop (.send (.user n) (.bytesLike []) true)) w
        = some (w.enterSend (.user n) (.bytesLike [])) := by
      show (if w.position = .idle then
        w.started (.user n) (w.send (.user n) (.bytesLike []) true) else none) = _
      rw [if_pos hidle, DcWorld.started, hrun, send, hr, hv]
      rfl
    have hat : AtMark (w.enterSend (.user n) (.bytesLike [])) :=
      hk.started _ _ _ hstep
    exact hat (.user n) (.bytesLike []) rfl
  · intro hm
    refine ⟨hm.sent, fun t payload v hv u payload' hp => ?_⟩
    obtain ⟨hidle, hloop⟩ := apply_loop_cases hv
    obtain ⟨rfl, -⟩ := started_eq hloop
    obtain ⟨hr, hvalue⟩ := send_calls hidle hp
    rw [native_send]
    exact hm.admits ⟨hidle, hvalue rfl, hr⟩

-- ========================================================= the step rule

/-- What every run keeps for the producers. -/
structure ProducersInv (w : DcWorld) : Prop where
  refusal : RefusalInv w
  send : SendInv w
  fresh : FreshUser w

/-- Every step keeps what is known of the producers. -/
theorem producersInv_apply {a : DcAction} (hi : ProducersInv w)
    (h : apply a w = some w') : ProducersInv w' where
  refusal := refusalInv_apply hi.refusal h
  send := sendInv_apply hi.send h
  fresh := freshUser_apply hi.send hi.fresh h

/-- The native layer drains the buffer and moves no threshold. -/
theorem amount_applyNative {a : DcNative} (h : applyNative a w = some w') :
    w'.native.bufferedAmount ≤ w.native.bufferedAmount
      ∧ w'.native.threshold = w.native.threshold := by
  cases a with
  | fire e =>
      cases e <;> cases h <;> rw [post_native] <;> exact ⟨Nat.le_refl _, rfl⟩
  | drain k =>
      cases h
      simp only [drain]
      split
      · rw [post_native]
        exact ⟨Nat.sub_le _ _, rfl⟩
      · exact ⟨Nat.sub_le _ _, rfl⟩

/-- Away from the native send the mark is about the event alone. -/
theorem Mark.of_not_calling (hp : ∀ t payload, w.position ≠ .calling t payload)
    (hadm : w.Admits → w.native.bufferedAmount ≤ w.native.threshold) : Mark w :=
  ⟨fun t payload h => absurd h (hp t payload), hadm⟩

/-- Inside a `send()` the event admits nobody. -/
theorem Mark.of_busy (hp : ∀ t payload, w.position ≠ .calling t payload)
    (hidle : w.position ≠ .idle) : Mark w :=
  .of_not_calling hp fun hadm => absurd hadm.1 hidle

/-- The native layer only drains, and takes back no close. -/
theorem mark_native {a : DcNative} (hm : Mark w) (h : apply (.native a) w = some w') :
    Mark w' := by
  obtain ⟨hle, hthr⟩ := amount_applyNative h
  have hpos : w'.position = w.position := applyNative_position h
  have hdc : w'.dc = w.dc := (applyNative_link h).2
  constructor
  · intro t payload hp
    have hat := hm.sent t payload (hpos ▸ hp)
    omega
  · intro hadm
    obtain ⟨hidle, hv, hr⟩ := hadm
    have hrefused : w.sendRefused = false := by
      cases hr' : w.sendRefused with
      | false => rfl
      | true => exact absurd hr ((Bool.not_eq_false _).mpr (sendRefused_apply h hr'))
    have hat := hm.admits ⟨hpos ▸ hidle, hdc ▸ hv, hrefused⟩
    omega

/-- The tail of a `send()` leaves the event up only with nothing in the
buffer, or where nothing was sent. -/
theorem mark_sending {a : DcSending} (hm : Mark w)
    (h : apply (.sending a) w = some w') : Mark w' := by
  cases a with
  | nativeSend answer =>
      simp only [apply, applySending, nativeSend] at h
      split at h
      next t payload hp =>
        cases answer with
        | ok k =>
            cases h
            exact .of_busy (fun _ _ hp => by cases hp) fun hp => by cases hp
        | error e =>
            cases h
            exact .of_not_calling (fun _ _ hp => by cases hp) fun _ => hm.sent t payload hp
      next => cases h
  | readAmount =>
      simp only [apply, applySending, readAmount] at h
      split at h
      next t hp =>
        split at h
        next hc =>
          cases h
          exact .of_busy (fun _ _ hp => by cases hp) fun hp => by cases hp
        next hc =>
          cases h
          refine .of_not_calling (fun _ _ hp => by cases hp) fun hadm => ?_
          have hzero : ¬ 0 < w.native.bufferedAmount := fun hpos => hc ⟨hadm.2.1, hpos⟩
          show w.native.bufferedAmount ≤ w.native.threshold
          omega
      next => cases h
  | clearEvent =>
      simp only [apply, applySending, clearEvent] at h
      split at h
      next t hp =>
        cases h
        refine .of_not_calling (fun _ _ hp => by cases hp) fun hadm => ?_
        exact absurd hadm.2.1 Bool.false_ne_true
      next => cases h

/-- A callback raises the event when it is the low one, or comes with
the close. -/
theorem mark_dispatch_iff (hi : ProducersInv w) (hm : Mark w)
    (h : apply (.loop .dispatch) w = some w') :
    Mark w' ↔ ReleasesFresh (.loop .dispatch) w := by
  obtain ⟨hidle, hloop⟩ := apply_loop_cases h
  obtain ⟨e, rest, hr, rfl⟩ := dispatch_cases hloop
  have hat : AtMark (runCallback e { w with ready := rest }) := by
    intro t payload hp
    rw [runCallback_position] at hp
    cases hidle.symm.trans hp
  have hsilent : e ≠ .bufferedLow →
      ((runCallback e { w with ready := rest }).Admits →
        (runCallback e { w with ready := rest }).native.bufferedAmount
          ≤ (runCallback e { w with ready := rest }).native.threshold) →
      (Mark (runCallback e { w with ready := rest })
        ↔ ReleasesFresh (.loop .dispatch) w) := by
    intro he hadm
    refine ⟨fun _ hhead => ?_, fun _ => ⟨hat, hadm⟩⟩
    rw [hr] at hhead
    exact absurd (Option.some.inj hhead) he
  cases e with
  | opened => exact hsilent nofun hm.admits
  | error m => exact hsilent nofun hm.admits
  | message m => exact hsilent nofun hm.admits
  | closed =>
      refine hsilent nofun fun hadm => ?_
      have htold : w.native.isClosed = true :=
        hi.refusal.closing.told (hr ▸ List.mem_cons_self)
      have htakes : w.native.isClosed = false := (Bool.or_eq_false_iff.mp hadm.2.2).2
      cases htold.symm.trans htakes
  | bufferedLow =>
      constructor
      · exact fun hm' _ htakes => hm'.admits ⟨hidle, rfl, htakes⟩
      · intro hok
        refine ⟨hat, fun hadm => ?_⟩
        exact hok (by rw [hr]; rfl) hadm.2.2

/-- A parked sender that resumes is let through whatever the event
says. -/
theorem mark_resume_iff (hm : Mark w) (h : apply (.loop (.resume t)) w = some w') :
    Mark w' ↔ ReleasesFresh (.loop (.resume t)) w := by
  obtain ⟨hidle, hloop⟩ := apply_loop_cases h
  have hnative : w'.native = w.native := congrArg Steady.native (steady_resume hloop)
  have hlow : w'.dc.bufferedLowEvent.value = w.dc.bufferedLowEvent.value :=
    congrArg Steady.lowEvent (steady_resume hloop)
  have hdestroyed : w'.dc.destroyed = w.dc.destroyed :=
    congrArg Steady.destroyed (steady_resume hloop)
  have hadm : w'.Admits → w'.native.bufferedAmount ≤ w'.native.threshold := by
    intro hadm
    obtain ⟨-, hv, hr⟩ := hadm
    rw [hnative]
    refine hm.admits ⟨hidle, hlow ▸ hv, ?_⟩
    unfold sendRefused at hr
    rw [hnative, hdestroyed] at hr
    exact hr
  constructor
  · intro hm'
    -- a sender with something to send is about to call the native send
    have hcalls : ∀ payload, w.task t = .inWait payload →
        (∀ name, payload ≠ .other name) → w.mustCancel t = false →
        w.sendRefused = false → w.native.bufferedAmount ≤ w.native.threshold := by
      intro payload ht hne hmc hr
      rw [← hnative]
      have hloop' : w.resume t = some w' := hloop
      unfold resume at hloop'
      rw [ht] at hloop'
      simp only [resumeSend, hmc, hr, Bool.false_eq_true, if_false] at hloop'
      split at hloop'
      · cases hloop'
        refine hm'.sent t payload ?_
        cases payload with
        | other name => exact absurd rfl (hne name)
        | bytesLike data => rfl
        | str text => rfl
      · cases hloop'
    simp only [ReleasesFresh]
    split
    · trivial
    next payload hne ht =>
      exact fun hmc hr => Or.inr (hcalls payload ht (fun name hp => hne name (hp ▸ rfl)) hmc hr)
    · trivial
  · intro hok
    refine ⟨fun u payload hp => ?_, hadm⟩
    obtain ⟨ht, hne, hmc, hr⟩ := resume_calls hidle hloop hp
    have hv : w.dc.bufferedLowEvent.value = true
        ∨ w.native.bufferedAmount ≤ w.native.threshold := by
      simp only [ReleasesFresh, ht] at hok
      cases payload with
      | other name => exact absurd rfl (hne name)
      | bytesLike data => exact hok hmc hr
      | str text => exact hok hmc hr
    rw [hnative]
    rcases hv with hv | hle
    · exact hm.admits ⟨hidle, hv, hr⟩
    · exact hle

/-- Step by step, the mark survives exactly under the condition. -/
theorem mark_step_iff {a : DcAction} (ha : a.respectsDrain = true)
    (hi : ProducersInv w) (hm : Mark w) (h : apply a w = some w') :
    Mark w' ↔ ReleasesFresh a w := by
  have htrue : Mark w' → ReleasesFresh a w → (Mark w' ↔ ReleasesFresh a w) :=
    fun hm' hok => ⟨fun _ => hok, fun _ => hm'⟩
  cases a with
  | native a => exact htrue (mark_native hm h) (by cases a <;> trivial)
  | sending a => exact htrue (mark_sending hm h) (by cases a <;> trivial)
  | loop a =>
      by_cases hdisp : a = .dispatch
      · subst hdisp
        exact mark_dispatch_iff hi hm h
      by_cases hres : ∃ t, a = .resume t
      · obtain ⟨t, rfl⟩ := hres
        exact mark_resume_iff hm h
      have hok : ReleasesFresh (.loop a) w := by
        cases a with
        | dispatch => exact absurd rfl hdisp
        | resume t => exact absurd ⟨t, rfl⟩ hres
        | _ => trivial
      refine htrue ?_ hok
      obtain ⟨hidle, hloop⟩ := apply_loop_cases h
      constructor
      · -- the step starts a `send()`, and the event was up
        intro u payload hp
        rcases applyLoop_calls hidle hloop hp with ⟨t, payload', wait, rfl, hr, hv⟩ | hex
        · obtain ⟨rfl, -⟩ := started_eq hloop
          have hwait : wait = true := by
            cases wait with
            | true => rfl
            | false => exact absurd ha Bool.false_ne_true
          rw [native_send]
          exact hm.admits ⟨hidle, hv hwait, hr⟩
        · exact absurd hex hres
      · intro hadm
        rcases applyLoop_link_cases hloop with hl | ⟨hn, -⟩ | ⟨hl, -⟩ | ⟨n, rfl, -, -⟩
        · have hnative : w'.native = w.native := congrArg Link.native hl
          have hlow : w'.dc.bufferedLowEvent.value = w.dc.bufferedLowEvent.value :=
            congrArg Link.lowEvent hl
          have hrefused : w'.sendRefused = w.sendRefused :=
            congrArg (fun l : Link => l.destroyed || l.native.isClosed) hl
          rw [hnative]
          exact hm.admits ⟨hidle, hlow ▸ hadm.2.1, hrefused ▸ hadm.2.2⟩
        · exact absurd hn hdisp
        · have hd : w'.dc.destroyed = true :=
            (congrArg Link.destroyed hl).trans (destroy_destroyed w)
          have hlive : w'.dc.destroyed = false := (Bool.or_eq_false_iff.mp hadm.2.2).1
          cases hd.symm.trans hlive
        · exact absurd ha Bool.false_ne_true

section Init

variable (handle : Int) (recvBuffer : Nat) (native : NativeChannel)
  (fired : List DcEvent) (core : Core)

/-- Backpressure holds throughout a run, of any number of producers that
wait for drain under a fixed threshold, exactly when every step of the
run trusts the drain event rightly. -/
theorem markKept_iff {acts : List DcAction} {v : DcWorld}
    (hrun : exec apply (init handle recvBuffer native fired core) acts = some v)
    (hacts : ∀ a ∈ acts, a.respectsDrain = true)
    (hfired : DcEvent.closed ∈ fired → native.isClosed = true)
    (hempty : native.bufferedAmount ≤ native.threshold) :
    (∀ w, Transition.Visits apply (init handle recvBuffer native fired core) acts w →
        MarkKept w) ↔
      ∀ a w, Transition.Takes apply (init handle recvBuffer native fired core) acts
        a w → ReleasesFresh a w := by
  have hinv : ProducersInv (init handle recvBuffer native fired core) :=
    { refusal := refusalInv_init handle recvBuffer native fired core hfired
      send := nofun
      fresh := freshUser_init handle recvBuffer native fired core }
  have hmark : Mark (init handle recvBuffer native fired core) :=
    .of_not_calling (fun _ _ => nofun) fun _ => hempty
  have hexact := Transition.visits_iff_takes_of (P := Mark) (I := ProducersInv)
    (D := fun a => a.respectsDrain = true) hrun hacts hmark hinv producersInv_apply
    mark_step_iff
  rw [← hexact]
  refine forall_congr' fun w => ?_
  refine forall_congr' fun hw => ?_
  have hi : ProducersInv w := hw.reachable.invariant hinv producersInv_apply
  exact markKept_iff_mark hi.fresh

end Init

-- ====================================================== the failing runs

/-- One message sent, two more producers parked behind it, the buffer
drained, and the low callback run. -/
def twoParkedRun : List DcAction :=
  [.loop (.send (.user 0) (.bytesLike [1]) true), .sending (.nativeSend (.ok 1)),
    .sending .readAmount, .sending .clearEvent,
    .loop (.send (.user 1) (.bytesLike [2]) true),
    .loop (.send (.user 2) (.bytesLike [3]) true),
    .native (.drain 1), .loop .dispatch]

/-- One low event releases both: the first sends and lowers the event,
and the second comes to the native send with the buffer above the
threshold. -/
theorem released_together :
    ∃ w, exec apply (init 1 1 openNative [] emptyCore)
        (twoParkedRun ++ [.loop (.resume (.user 1)), .sending (.nativeSend (.ok 1)),
          .sending .readAmount, .sending .clearEvent, .loop (.resume (.user 2))])
          = some w
      ∧ w.position = .calling (.user 2) (.bytesLike [3])
      ∧ ¬ w.native.bufferedAmount ≤ w.native.threshold := by
  refine ⟨_, rfl, rfl, ?_⟩
  decide

/-- One producer whose first message is drained while it is still in
`send()`: the event stays up, the second message fills the buffer again,
and only then the low callback of the first runs. The third message goes
out above the threshold. -/
theorem stale_low_event :
    ∃ w, exec apply (init 1 1 openNative [] emptyCore)
        [.loop (.send (.user 0) (.bytesLike [1]) true), .sending (.nativeSend (.ok 1)),
          .native (.drain 1), .sending .readAmount,
          .loop (.send (.user 0) (.bytesLike [2]) true), .sending (.nativeSend (.ok 1)),
          .sending .readAmount, .sending .clearEvent, .loop .dispatch,
          .loop (.send (.user 0) (.bytesLike [3]) true)] = some w
      ∧ w.position = .calling (.user 0) (.bytesLike [3])
      ∧ ¬ w.native.bufferedAmount ≤ w.native.threshold := by
  refine ⟨_, rfl, rfl, ?_⟩
  decide

/-- `markKept_iff` at `twoParkedRun`, whose steps all trust the event
rightly. -/
theorem markKept_iff_twoParkedRun :
    (∀ w, Transition.Visits apply (init 1 1 openNative [] emptyCore)
        twoParkedRun w → MarkKept w) ↔
      ∀ a w, Transition.Takes apply (init 1 1 openNative [] emptyCore)
        twoParkedRun a w → ReleasesFresh a w :=
  markKept_iff 1 1 openNative [] emptyCore (v := _) rfl
    (by simp [twoParkedRun, DcAction.respectsDrain]) nofun (Nat.le_refl 0)

end DcWorld

end AioLibDataChannel
