/-
Send backpressure: the drain event is a watermark flag.

`gauge` reads a channel's world as the gauge of `Watermark/Basic.lean`:
the native buffered amount and threshold, `_buffered_low_event`, and
the low callbacks on their way to the loop. While the wrapper is not
destroyed every channel step is one gauge action or none
(`gauge_apply`).

# Where the event is cleared

`send()` clears the event when the buffered amount is positive — not
when it is above the threshold. It reads the amount and clears in two
steps with the native layer running in between, so the state that
matters is the one at the read: `ClearsSafely`. The other way to lose
the wake-up is raising the threshold past the amount while the event is
clear. Those two steps are all that can go wrong
(`wakeupKept_iff`); `wakeup_lost` is a run of the first kind.
-/
import AioLibDataChannel.DataChannel.Link
import AioLibDataChannel.DataChannel.Readers
import AioLibDataChannel.Watermark.Basic

namespace AioLibDataChannel

open Asyncio (Event Future Outcome Queue)
open Function (update)
open Transition (exec)

/-- The gauge in a link. -/
def Link.gauge (l : Link) : Gauge where
  amount := l.native.bufferedAmount
  threshold := l.native.threshold
  flag := l.lowEvent
  signals := l.ready.count .bufferedLow

namespace DcWorld

variable {w w' : DcWorld} {t : TaskId}

/-- The backpressure gauge of a world. -/
def gauge (w : DcWorld) : Gauge := w.link.gauge

/-- The gauge action a step performs, if any. -/
def gaugeAction : DcAction → DcWorld → Option Gauge.Action
  | .native (.drain k), _ => some (.drain k)
  | .sending (.nativeSend (.ok k)), _ => some (.fill k)
  | .sending .clearEvent, _ => some .lower
  | .loop .dispatch, w =>
      match w.ready with
      | .bufferedLow :: _ => some .deliver
      | .closed :: _ => some .raise
      | _ => none
  | .loop (.setThreshold n), _ => some (.moveThreshold n)
  | _, _ => none

/-- The effect of the gauge action a step performs. -/
def gaugeStep (a : DcAction) (w : DcWorld) : Gauge :=
  match gaugeAction a w with
  | some b => Gauge.step b w.gauge
  | none => w.gauge

-- ======================================================== the simulation

/-- Nothing but a low event moves the gauge when it is posted. -/
theorem gauge_post (e : DcEvent) (w : DcWorld) (he : e ≠ .bufferedLow) :
    (w.post e).gauge = w.gauge := by
  unfold post
  split
  · show Gauge.mk _ _ _ ((w.ready ++ [e]).count DcEvent.bufferedLow) = _
    rw [List.count_append, List.count_singleton, if_neg (by simpa using he)]
    rfl
  · rfl

/-- A low callback of a wrapper that is not destroyed reaches the
loop. -/
theorem gauge_post_low (w : DcWorld) (hi : HandleInv w) (hd : w.dc.destroyed = false) :
    (w.post .bufferedLow).gauge = { w.gauge with signals := w.gauge.signals + 1 } := by
  have hlive : w.dc.native.dispatches w.core DcEvent.bufferedLow.kind = true :=
    (hi.live hd).2 _
  rw [post, if_pos hlive]
  show Gauge.mk _ _ _ ((w.ready ++ [DcEvent.bufferedLow]).count DcEvent.bufferedLow) = _
  rw [List.count_append]
  rfl

/-- A native step moves the gauge as it moves the buffer. -/
theorem gauge_applyNative {a : DcNative} (hi : HandleInv w)
    (hd : w.dc.destroyed = false) (h : applyNative a w = some w') :
    w'.gauge = gaugeStep (.native a) w := by
  cases a with
  | fire e =>
      cases e with
      | opened =>
          cases h
          exact gauge_post .opened _ nofun
      | closed =>
          cases h
          exact gauge_post .closed _ nofun
      | error m =>
          cases h
          exact gauge_post (.error m) _ nofun
      | message m =>
          cases h
          exact gauge_post (.message m) _ nofun
      | bufferedLow => cases h
  | drain k =>
      cases h
      show (w.drain k).gauge = Gauge.step (.drain k) w.gauge
      unfold drain
      simp only
      by_cases hc : w.native.threshold < w.native.bufferedAmount
          ∧ w.native.bufferedAmount - k ≤ w.native.threshold
      · have hcross : w.gauge.crosses k = true := decide_eq_true hc
        have hlow := gauge_post_low
          { w with native.bufferedAmount := w.native.bufferedAmount - k }
          (hi.congr rfl rfl rfl) hd
        rw [if_pos hc, hlow]
        simp only [Gauge.step, hcross, if_true]
        rfl
      · have hcross : w.gauge.crosses k = false := decide_eq_false hc
        rw [if_neg hc]
        simp only [Gauge.step, hcross]
        rfl

/-- A step inside `send()` moves the gauge as it fills the buffer and
clears the event. -/
theorem gauge_applySending {a : DcSending} (h : applySending a w = some w') :
    w'.gauge = gaugeStep (.sending a) w := by
  cases a with
  | nativeSend answer =>
      simp only [applySending, nativeSend] at h
      split at h
      · cases answer with
        | ok k =>
            cases h
            rfl
        | error e =>
            cases h
            rfl
      · cases h
  | readAmount =>
      simp only [applySending, readAmount] at h
      split at h
      · split at h <;> cases h <;> rfl
      · cases h
  | clearEvent =>
      simp only [applySending, clearEvent] at h
      split at h
      · cases h
        rfl
      · cases h

/-- A dispatched callback moves the gauge if it is a low event. -/
theorem gauge_dispatch {e : DcEvent} {rest : List DcEvent}
    (hr : w.ready = e :: rest) :
    (runCallback e { w with ready := rest }).gauge = gaugeStep (.loop .dispatch) w := by
  have hcount : ∀ {l : List DcEvent}, e ≠ .bufferedLow → w.ready = e :: l →
      l.count .bufferedLow = w.ready.count .bufferedLow := by
    intro l he hl
    rw [hl, List.count_cons_of_ne he]
  have hsilent : ∀ {v : DcWorld}, e ≠ .bufferedLow →
      v.native = w.native → v.dc.bufferedLowEvent = w.dc.bufferedLowEvent →
      v.ready = rest → v.gauge = w.gauge := by
    intro v he hn hb hrest
    show Gauge.mk v.native.bufferedAmount v.native.threshold
      v.dc.bufferedLowEvent.value (v.ready.count .bufferedLow) = _
    rw [hn, hb, hrest, hcount he hr]
    rfl
  simp only [gaugeStep, gaugeAction, hr]
  cases e with
  | opened => exact hsilent nofun rfl rfl rfl
  | error m => exact hsilent nofun rfl rfl rfl
  | message m => exact hsilent nofun rfl rfl rfl
  | closed =>
      show Gauge.mk _ _ true (rest.count .bufferedLow) = _
      rw [hcount nofun hr]
      rfl
  | bufferedLow =>
      have hc : w.ready.count .bufferedLow = rest.count .bufferedLow + 1 := by
        rw [hr, List.count_cons_self]
      show Gauge.mk _ _ true (rest.count .bufferedLow) = _
      simp only [Gauge.step]
      congr 1
      show _ = w.ready.count .bufferedLow - 1
      omega

/-- The simulation: until the wrapper is destroyed, a channel step
performs its gauge action, or is silent on the gauge. -/
theorem gauge_apply {a : DcAction} (hi : HandleInv w)
    (hd' : w'.dc.destroyed = false) (h : apply a w = some w') :
    w'.gauge = gaugeStep a w := by
  have hd : w.dc.destroyed = false := by
    cases hd : w.dc.destroyed with
    | false => rfl
    | true => exact absurd ((destroyed_apply h hd).symm.trans hd') nofun
  cases a with
  | native a => exact gauge_applyNative hi hd h
  | sending a => exact gauge_applySending h
  | loop a =>
      obtain ⟨-, hloop⟩ := apply_loop_cases h
      by_cases hdisp : a = .dispatch
      · subst hdisp
        obtain ⟨e, rest, hr, rfl⟩ := dispatch_cases hloop
        exact gauge_dispatch hr
      · by_cases hset : ∃ n, a = .setThreshold n
        · obtain ⟨n, rfl⟩ := hset
          cases hloop
          show (w.setThreshold n).gauge = Gauge.step (.moveThreshold n) w.gauge
          rw [setThreshold, if_neg (Bool.eq_false_iff.mp hd)]
          rfl
        · have hnone : gaugeAction (.loop a) w = none := by
            cases a with
            | dispatch => exact absurd rfl hdisp
            | setThreshold n => exact absurd ⟨n, rfl⟩ hset
            | _ => rfl
          rw [gaugeStep, hnone]
          rcases applyLoop_link_cases hloop with hl | ⟨hn, -⟩ | ⟨hl, -⟩ | ⟨n, hn, -, -⟩
          · exact congrArg Link.gauge hl
          · exact absurd hn hdisp
          · have htrue := (link_handle hl).2.2.trans (destroy_destroyed w)
            exact absurd (htrue.symm.trans hd') nofun
          · exact absurd ⟨n, hn⟩ hset

-- ========================================================= the step rule

/-- The event holds senders back, or is about to. -/
def HoldsBack (w : DcWorld) : Prop :=
  w.dc.bufferedLowEvent.value = false ∨ ∃ t, w.position = .clearing t

/-- A low callback is in flight, or draining will send one. -/
def WakeupComing (w : DcWorld) : Prop :=
  w.native.threshold < w.native.bufferedAmount ∨ DcEvent.bufferedLow ∈ w.ready

/-- The gauge knows whether a wakeup is coming. -/
theorem pending_gauge_iff (w : DcWorld) : w.gauge.Pending ↔ w.WakeupComing := by
  show (w.native.threshold < w.native.bufferedAmount
    ∨ 0 < w.ready.count .bufferedLow) ↔ _
  rw [List.count_pos_iff]
  rfl

/-- Whatever holds senders back has a wake-up coming. -/
def Guarded (w : DcWorld) : Prop :=
  w.dc.destroyed = false → w.HoldsBack → w.WakeupComing

/-- The step does not hold senders back without a wake-up to come: the
check at the end of `send()` does not pass with an amount at or below
the threshold, and the threshold is not moved past the amount while the
event is clear — unless a low callback is already in flight. -/
def ClearsSafely (a : DcAction) (w : DcWorld) : Prop :=
  match a with
  | .sending .readAmount =>
      w.dc.bufferedLowEvent.value = true → 0 < w.native.bufferedAmount →
        w.native.threshold < w.native.bufferedAmount ∨ DcEvent.bufferedLow ∈ w.ready
  | .loop (.setThreshold n) =>
      w.dc.destroyed = false → w.dc.bufferedLowEvent.value = false →
        n < w.native.bufferedAmount ∨ DcEvent.bufferedLow ∈ w.ready
  | _ => True

/-- What every run keeps about the handle. -/
structure LinkInv (w : DcWorld) : Prop where
  handle : HandleInv w
  guard : SendGuard w

/-- Every step keeps what is known of the handle. -/
theorem linkInv_apply {a : DcAction} (hi : LinkInv w) (h : apply a w = some w') :
    LinkInv w' where
  handle := handleInv_apply hi.handle h
  guard := sendGuard_apply hi.guard h

/-- What is known of the handle holds of a new channel. -/
theorem linkInv_init (handle : Int) (recvBuffer : Nat) (native : NativeChannel)
    (fired : List DcEvent) (core : Core) :
    LinkInv (init handle recvBuffer native fired core) where
  handle := handleInv_init handle recvBuffer native fired core
  guard := fun hp => absurd rfl hp

/-- A step that leaves the gauge alone, or only fills and drains it,
keeps the guard. -/
theorem guarded_of_gauge {a : DcAction} (hg : Guarded w)
    (hd : w'.dc.destroyed = false → w.dc.destroyed = false)
    (hback : w'.HoldsBack → w.HoldsBack ∧ (w.gauge.Pending → w'.gauge.Pending))
    (ha : ClearsSafely a w) : Guarded w' ↔ ClearsSafely a w := by
  refine ⟨fun _ => ha, fun _ hd' hb => ?_⟩
  obtain ⟨hb, hpending⟩ := hback hb
  have hcoming := hg (hd hd') hb
  exact (pending_gauge_iff w').mp (hpending ((pending_gauge_iff w).mpr hcoming))

/-- A native step keeps the guard: there is nothing for it to clear. -/
theorem guarded_native_iff {a : DcNative} (hi : LinkInv w) (hg : Guarded w)
    (h : apply (.native a) w = some w') :
    Guarded w' ↔ ClearsSafely (.native a) w := by
  have hdc : w'.dc = w.dc := (applyNative_link h).2
  have hpos : w'.position = w.position := applyNative_position h
  have hback : w'.HoldsBack → w.HoldsBack := by
    unfold HoldsBack
    rw [hdc, hpos]
    exact id
  cases hd : w.dc.destroyed with
  | true =>
      have hd' : w'.dc.destroyed = true := destroyed_apply h hd
      refine ⟨fun _ => by cases a <;> trivial, fun _ hf => ?_⟩
      exact absurd (hd'.symm.trans hf) nofun
  | false =>
      have hd' : w'.dc.destroyed = false := by
        rw [hdc]
        exact hd
      have hgauge := gauge_apply hi.handle hd' h
      refine guarded_of_gauge hg (fun _ => hd) ?_ (by cases a <;> trivial)
      refine fun hb => ⟨hback hb, fun hp => ?_⟩
      rw [hgauge]
      cases a with
      | fire e => exact hp
      | drain k => exact (Gauge.pending_drain_iff k).mpr hp

/-- A step inside `send()` keeps the guard exactly if the check at its end
clears safely. -/
theorem guarded_sending_iff {a : DcSending} (hi : LinkInv w) (hg : Guarded w)
    (h : apply (.sending a) w = some w') :
    Guarded w' ↔ ClearsSafely (.sending a) w := by
  have hne : w.position ≠ .idle := by
    intro hidle
    obtain ⟨u, hu, -⟩ := applySending_cases h
    rw [hidle] at hu
    cases hu
  have hd : w.dc.destroyed = false := hi.guard hne
  have hd' : w'.dc.destroyed = false := (applySending_link h).2.2.1.trans hd
  have hgauge := gauge_apply hi.handle hd' h
  cases a with
  | nativeSend answer =>
      refine guarded_of_gauge hg (fun _ => hd) (fun hb => ⟨?_, fun hp => ?_⟩) trivial
      · simp only [apply, applySending, nativeSend] at h
        split at h
        next u payload hp =>
          cases answer with
          | ok k =>
              cases h
              rcases hb with hb | ⟨v, hv⟩
              · exact Or.inl hb
              · cases hv
          | error e =>
              cases h
              rcases hb with hb | ⟨v, hv⟩
              · exact Or.inl hb
              · cases hv
        next => cases h
      · rw [hgauge]
        cases answer with
        | ok k => exact Gauge.pending_fill k hp
        | error e => exact hp
  | readAmount =>
      simp only [apply, applySending, readAmount] at h
      split at h
      next u hp =>
        split at h
        next hc =>
          -- the check passed: the event is about to be cleared
          cases h
          constructor
          · exact fun hg' _ _ => hg' hd (Or.inr ⟨u, rfl⟩)
          · exact fun hs _ _ => hs hc.1 hc.2
        next hc =>
          cases h
          refine guarded_of_gauge hg (fun _ => hd) ?_ ?_
          · intro hor
            rcases hor with hb | ⟨v, hv⟩
            · exact ⟨Or.inl hb, id⟩
            · cases hv
          · exact fun hv ha => absurd ⟨hv, ha⟩ hc
      next => cases h
  | clearEvent =>
      refine guarded_of_gauge hg (fun _ => hd) (fun _ => ⟨?_, fun hp => ?_⟩) trivial
      · simp only [apply, applySending, clearEvent] at h
        split at h
        next u hp => exact Or.inr ⟨u, hp⟩
        next => cases h
      · rw [hgauge]
        exact hp

/-- A loop step keeps it exactly if it raises no threshold past the
amount. -/
theorem guarded_loop_iff {a : DcLoop} (hi : LinkInv w) (hg : Guarded w)
    (h : apply (.loop a) w = some w') :
    Guarded w' ↔ ClearsSafely (.loop a) w := by
  obtain ⟨hidle, hloop⟩ := apply_loop_cases h
  have hnot : ¬ ∃ t, w'.position = .clearing t := by
    intro hex
    obtain ⟨t, ht⟩ := hex
    rcases applyLoop_enters hloop with hpos | ⟨u, payload, hpos, -⟩
    · rw [hpos, hidle] at ht
      cases ht
    · rw [hpos] at ht
      cases ht
  cases hd' : w'.dc.destroyed with
  | true =>
      refine ⟨fun _ => ?_, fun _ hf => absurd (hd'.symm.trans hf) nofun⟩
      cases a with
      | setThreshold n =>
          intro hf
          cases hloop
          rw [setThreshold, if_neg (Bool.eq_false_iff.mp hf)] at hd'
          exact absurd (hd'.symm.trans hf) nofun
      | _ => trivial
  | false =>
      have hd : w.dc.destroyed = false := by
        cases hd : w.dc.destroyed with
        | false => rfl
        | true => exact absurd ((destroyed_apply h hd).symm.trans hd') nofun
      have hgauge := gauge_apply hi.handle hd' h
      have hflag : ∀ g : Gauge, w'.gauge = g → w'.HoldsBack → g.flag = false := by
        intro g heq hb
        subst heq
        exact hb.resolve_right hnot
      by_cases hset : ∃ n, a = .setThreshold n
      · obtain ⟨n, rfl⟩ := hset
        have hpend := pending_gauge_iff w'
        rw [hgauge] at hpend
        constructor
        · intro hg' _ hv
          have hback : w'.HoldsBack := by
            left
            have hf := congrArg Gauge.flag hgauge
            exact hf.trans hv
          rcases hpend.mpr (hg' hd' hback) with hlt | hs
          · exact Or.inl hlt
          · exact Or.inr (List.count_pos_iff.mp hs)
        · intro hs _ hb
          apply hpend.mp
          rcases hs hd (hflag _ hgauge hb) with hlt | hm
          · exact Or.inl hlt
          · exact Or.inr (List.count_pos_iff.mpr hm)
      · refine guarded_of_gauge hg (fun _ => hd) ?_ ?_
        · intro hb
          have hf := hflag _ hgauge hb
          -- a delivered or raised flag does not hold back
          unfold gaugeStep at hf hgauge
          cases hact : gaugeAction (.loop a) w with
          | none =>
              rw [hact] at hf hgauge
              exact ⟨Or.inl hf, fun hp => hgauge ▸ hp⟩
          | some b =>
              rw [hact] at hf
              cases a with
              | dispatch =>
                  simp only [gaugeAction] at hact
                  split at hact <;> cases hact <;> cases hf
              | setThreshold n => exact absurd ⟨n, rfl⟩ hset
              | _ => cases hact
        · cases a with
          | setThreshold n => exact absurd ⟨n, rfl⟩ hset
          | _ => trivial

/-- Step by step, a wake-up stays in sight exactly under the
condition. -/
theorem guarded_step_iff {a : DcAction} (hi : LinkInv w) (hg : Guarded w)
    (h : apply a w = some w') : Guarded w' ↔ ClearsSafely a w := by
  cases a with
  | native a => exact guarded_native_iff hi hg h
  | sending a => exact guarded_sending_iff hi hg h
  | loop a => exact guarded_loop_iff hi hg h

-- ===================================================== waking a sender

/-- What goes on without any caller: the native layer drains, the loop
runs callbacks and ends the `send()` it is in. -/
def settles : DcAction → Bool
  | .native (.drain _) => true
  | .sending _ => true
  | .loop .dispatch => true
  | _ => false

/-- A parked sender stays listed, parked or woken, through the tail of
another's `send()`. -/
theorem sending_waiters {a : DcSending} (h : applySending a w = some w') :
    w'.dc.bufferedLowEvent.waiters = w.dc.bufferedLowEvent.waiters := by
  obtain ⟨native, event, position, task, hevent, rfl⟩ := applySending_eq h
  exact hevent

/-- A wakeup that is coming still comes after a step of `send()`. -/
theorem sending_pending {a : DcSending} (hi : HandleInv w)
    (hd : w.dc.destroyed = false) (h : apply (.sending a) w = some w')
    (hp : w.gauge.Pending) : w'.gauge.Pending := by
  have hd' : w'.dc.destroyed = false := (applySending_link h).2.2.1.trans hd
  rw [gauge_apply hi hd' h]
  cases a with
  | nativeSend answer =>
      cases answer with
      | ok k => exact Gauge.pending_fill k hp
      | error e => exact hp
  | readAmount => exact hp
  | clearEvent => exact hp

/-- The tail of a `send()` costs a parked sender nothing. -/
theorem sender_across_send {acts : List DcSending} {v : DcWorld}
    (hi : HandleInv w) (hd : w.dc.destroyed = false) (hp : w.gauge.Pending)
    (ht : t ∈ w.dc.bufferedLowEvent.waiters)
    (hexec : exec apply w (acts.map DcAction.sending) = some v) :
    HandleInv v ∧ v.dc.destroyed = false ∧ v.gauge.Pending
      ∧ t ∈ v.dc.bufferedLowEvent.waiters := by
  induction acts generalizing w with
  | nil =>
      cases hexec
      exact ⟨hi, hd, hp, ht⟩
  | cons a acts ih =>
      obtain ⟨m, hstep, hrest⟩ := Transition.exec_cons_cases hexec
      refine ih (handleInv_apply hi hstep) ?_ (sending_pending hi hd hstep hp) ?_ hrest
      · exact (applySending_link hstep).2.2.1.trans hd
      · rw [sending_waiters hstep]
        exact ht

/-- One native drain puts the low callback in flight. -/
theorem drain_sends (hi : HandleInv w) (hd : w.dc.destroyed = false)
    (hp : w.gauge.Pending) :
    ∃ acts v, (∀ a ∈ acts, settles a = true) ∧ exec apply w acts = some v
      ∧ v.dc = w.dc ∧ v.position = w.position ∧ DcEvent.bufferedLow ∈ v.ready := by
  rcases (pending_gauge_iff w).mp hp with hlt | hm
  · have hstep : apply (.native (.drain (w.gauge.amount - w.gauge.threshold))) w
        = some (w.drain (w.gauge.amount - w.gauge.threshold)) := rfl
    have hnative : applyNative (.drain (w.gauge.amount - w.gauge.threshold)) w
        = some (w.drain (w.gauge.amount - w.gauge.threshold)) := rfl
    have hdc := (applyNative_link hnative).2
    have hgauge := gauge_apply hi (by rw [hdc]; exact hd) hstep
    have hsig : 0 < (w.drain (w.gauge.amount - w.gauge.threshold)).gauge.signals := by
      rw [hgauge]
      have := Gauge.signals_drain (g := w.gauge) hlt
      show 0 < (Gauge.step (.drain (w.gauge.amount - w.gauge.threshold)) w.gauge).signals
      omega
    refine ⟨[.native (.drain (w.gauge.amount - w.gauge.threshold))], _, ?_,
      Transition.exec_cons hstep, hdc, applyNative_position hnative,
      List.count_pos_iff.mp hsig⟩
    exact fun a ha => by rw [List.mem_singleton.mp ha]; rfl
  · exact ⟨[], w, nofun, rfl, rfl, rfl, hm⟩

/-- Running the scheduled callbacks delivers it. By induction on the
callbacks ahead. -/
theorem dispatch_wakes (hidle : w.position = .idle)
    (ht : t ∈ w.dc.bufferedLowEvent.waiters)
    (hm : DcEvent.bufferedLow ∈ w.ready) :
    ∃ acts v, (∀ a ∈ acts, settles a = true) ∧ exec apply w acts = some v
      ∧ t ∈ v.dc.bufferedLowEvent.woken := by
  generalize hr : w.ready = ready at hm
  induction ready generalizing w with
  | nil => cases hm
  | cons e rest ih =>
      have hstep : apply (.loop .dispatch) w
          = some (runCallback e { w with ready := rest }) := by
        show (if w.position = .idle then w.dispatch else none) = _
        rw [if_pos hidle, dispatch, hr]
      have hone : (runCallback e { w with ready := rest }).dc.bufferedLowEvent
            = w.dc.bufferedLowEvent.set →
          ∃ acts v, (∀ a ∈ acts, settles a = true) ∧ exec apply w acts = some v
            ∧ t ∈ v.dc.bufferedLowEvent.woken := by
        intro hset
        refine ⟨[.loop .dispatch], _, ?_, Transition.exec_cons hstep, ?_⟩
        · exact fun a ha => by rw [List.mem_singleton.mp ha]; rfl
        · rw [hset]
          exact Event.mem_woken_set.mpr (Or.inr ht)
      have hmore : e ≠ .bufferedLow →
          (runCallback e { w with ready := rest }).dc.bufferedLowEvent
            = w.dc.bufferedLowEvent →
          (runCallback e { w with ready := rest }).ready = rest →
          ∃ acts v, (∀ a ∈ acts, settles a = true) ∧ exec apply w acts = some v
            ∧ t ∈ v.dc.bufferedLowEvent.woken := by
        intro he hsame hrest
        have hm' : DcEvent.bufferedLow ∈ rest :=
          (List.mem_cons.mp hm).resolve_left (Ne.symm he)
        obtain ⟨acts, v, hacts, hexec, hend⟩ := ih
          (by rw [runCallback_position]; exact hidle) (by rw [hsame]; exact ht)
          hrest hm'
        refine ⟨.loop .dispatch :: acts, v, ?_, ?_, hend⟩
        · intro a ha
          rcases List.mem_cons.mp ha with rfl | ha
          · rfl
          · exact hacts a ha
        · rw [Transition.exec_cons hstep]
          exact hexec
      cases e with
      | bufferedLow => exact hone rfl
      | closed => exact hone rfl
      | opened => exact hmore nofun rfl rfl
      | error m => exact hmore nofun rfl rfl
      | message m => exact hmore nofun rfl rfl

/-- With a wake-up coming, draining and running callbacks wakes every
parked sender. -/
theorem sender_woken (hi : HandleInv w) (hd : w.dc.destroyed = false)
    (hc : w.WakeupComing) (ht : t ∈ w.dc.bufferedLowEvent.waiters) :
    ∃ acts v, (∀ a ∈ acts, settles a = true) ∧ exec apply w acts = some v
      ∧ t ∈ v.dc.bufferedLowEvent.woken := by
  obtain ⟨tail, m, hm, hidle, -⟩ := send_completes w
  obtain ⟨him, hdm, hpm, htm⟩ :=
    sender_across_send hi hd ((pending_gauge_iff w).mpr hc) ht hm
  obtain ⟨drains, m', hdrains, hm', hdc, hpos, hlow⟩ := drain_sends him hdm hpm
  obtain ⟨acts, v, hacts, hexec, hend⟩ := dispatch_wakes (w := m') (t := t)
    (hpos.trans hidle) (by rw [hdc]; exact htm) hlow
  refine ⟨tail.map DcAction.sending ++ (drains ++ acts), v, ?_, ?_, hend⟩
  · intro a ha
    rcases List.mem_append.mp ha with ha | ha
    · obtain ⟨b, -, rfl⟩ := List.mem_map.mp ha
      rfl
    · rcases List.mem_append.mp ha with ha | ha
      · exact hdrains a ha
      · exact hacts a ha
  · rw [Transition.exec_append, hm, Option.bind_some, Transition.exec_append, hm']
    exact hexec

-- ================================================================== runs

/-- What backpressure owes the senders of a channel whose wrapper is not
destroyed: a clear event has a wake-up coming, and a parked sender can
be woken without the help of any caller. -/
structure WakeupKept (w : DcWorld) : Prop where
  armed : w.dc.destroyed = false → w.dc.bufferedLowEvent.value = false →
    w.native.threshold < w.native.bufferedAmount ∨ DcEvent.bufferedLow ∈ w.ready
  woken : w.dc.destroyed = false → ∀ t ∈ w.dc.bufferedLowEvent.waiters,
    ∃ acts v, (∀ a ∈ acts, settles a = true) ∧ exec apply w acts = some v
      ∧ t ∈ v.dc.bufferedLowEvent.woken

/-- Guarded, a cleared event has its wakeup coming. -/
theorem WakeupKept.of_guarded (hi : HandleInv w) (hg : Guarded w) :
    WakeupKept w where
  armed := fun hd hv => hg hd (Or.inl hv)
  woken := by
    intro hd t ht
    have hclear : w.dc.bufferedLowEvent.value = false := by
      cases hv : w.dc.bufferedLowEvent.value with
      | false => rfl
      | true =>
          rw [w.dc.bufferedLowEvent.parked_clear hv] at ht
          cases ht
    exact sender_woken hi hd (hg hd (Or.inl hclear)) ht

/-- In a run that ends between two loop steps, a state about to clear
the event is followed by the state that has cleared it; so the promise
about clear events covers it too. -/
theorem guarded_of_kept {acts : List DcAction} {v : DcWorld} (hi : LinkInv w)
    (hexec : exec apply w acts = some v) (hidle : v.position = .idle)
    (hkept : ∀ m, Transition.Visits apply w acts m → WakeupKept m) :
    Guarded w := by
  induction acts generalizing w with
  | nil =>
      have hwv : w = v := Option.some.inj hexec
      rw [← hwv] at hidle
      intro hd hor
      rcases hor with hv | ⟨t, ht⟩
      · exact (hkept w (Transition.visits_start _)).armed hd hv
      · rw [hidle] at ht
        cases ht
  | cons a acts ih =>
      intro hd hor
      rcases hor with hv | ⟨t, ht⟩
      · exact (hkept w (Transition.visits_start _)).armed hd hv
      · obtain ⟨m, hstep, hrest⟩ := Transition.exec_cons_cases hexec
        have hm : exec apply w [a] = some m := by
          rw [Transition.exec_cons hstep]
          rfl
        have hgm : Guarded m := ih (linkInv_apply hi hstep) hrest
          fun m' hm' => hkept m' (Transition.Visits.append hm hm')
        rw [← pending_gauge_iff]
        cases a with
        | loop a =>
            have := (apply_loop_cases hstep).1
            rw [this] at ht
            cases ht
        | native a =>
            have hdm : m.dc = w.dc := (applyNative_link hstep).2
            have hd' : m.dc.destroyed = false := by
              rw [hdm]
              exact hd
            have hpos : m.position = w.position := applyNative_position hstep
            have hp := (pending_gauge_iff m).mpr
              (hgm hd' (Or.inr ⟨t, hpos.trans ht⟩))
            rw [gauge_apply hi.handle hd' hstep] at hp
            show w.gauge.Pending
            cases a with
            | fire e => exact hp
            | drain k => exact (Gauge.pending_drain_iff k).mp hp
        | sending a =>
            have hd' : m.dc.destroyed = false :=
              (applySending_link hstep).2.2.1.trans hd
            have hgauge := gauge_apply hi.handle hd' hstep
            cases a with
            | nativeSend answer =>
                simp only [apply, applySending, nativeSend, ht] at hstep
                cases hstep
            | readAmount =>
                simp only [apply, applySending, readAmount, ht] at hstep
                cases hstep
            | clearEvent =>
                have hflag : m.dc.bufferedLowEvent.value = false :=
                  congrArg Gauge.flag hgauge
                have hp := (pending_gauge_iff m).mpr (hgm hd' (Or.inl hflag))
                rw [hgauge] at hp
                exact hp

section Init

variable (handle : Int) (recvBuffer : Nat) (native : NativeChannel)
  (fired : List DcEvent) (core : Core)

/-- A new channel is guarded: its event is set. -/
theorem guarded_init : Guarded (init handle recvBuffer native fired core) := by
  intro _ hor
  rcases hor with hv | ⟨t, ht⟩
  · cases hv
  · cases ht

/-- No wake-up is lost in a run, ending between two loop steps, exactly
when every step of it clears the event and moves the threshold
safely. -/
theorem wakeupKept_iff {acts : List DcAction} {v : DcWorld}
    (hrun : exec apply (init handle recvBuffer native fired core) acts = some v)
    (hidle : v.position = .idle) :
    (∀ w, Transition.Visits apply (init handle recvBuffer native fired core) acts w →
        WakeupKept w) ↔
      ∀ a w, Transition.Takes apply (init handle recvBuffer native fired core) acts
        a w → ClearsSafely a w := by
  have hinv := linkInv_init handle recvBuffer native fired core
  have hexact := Transition.visits_iff_takes (P := Guarded) (I := LinkInv) hrun
    (guarded_init handle recvBuffer native fired core) hinv linkInv_apply
    guarded_step_iff
  rw [← hexact]
  constructor
  · intro hkept w hex
    obtain ⟨pre, ⟨post, rfl⟩, hpre⟩ := hex
    have hi : LinkInv w :=
      (Transition.reachable_of_exec hpre).invariant hinv linkInv_apply
    rw [Transition.exec_append, hpre] at hrun
    exact guarded_of_kept hi hrun hidle
      fun m hm => hkept m (Transition.Visits.append hpre hm)
  · intro hguarded w hw
    have hi : LinkInv w := hw.reachable.invariant hinv linkInv_apply
    exact WakeupKept.of_guarded hi.handle (hguarded w hw)

end Init

-- ====================================================== the failing runs

/-- A threshold of ten, and a message of five sent. -/
def belowMarkRun : List DcAction :=
  [.loop (.setThreshold 10), .loop (.send (.user 0) (.bytesLike [1, 2, 3, 4, 5]) true),
    .sending (.nativeSend (.ok 5)), .sending .readAmount, .sending .clearEvent]

/-- After `belowMarkRun` the event is clear with nothing above the
threshold and nothing in flight; the next sender parks, and the native
layer drains to the end without waking it. -/
theorem wakeup_lost :
    ∃ w, exec apply (init 1 1 openNative [] emptyCore)
        (belowMarkRun ++ [.loop (.send (.user 1) (.bytesLike [6]) true),
          .native (.drain 5)]) = some w
      ∧ w.dc.destroyed = false ∧ w.native.isClosed = false
      ∧ w.dc.bufferedLowEvent.value = false
      ∧ ¬ w.native.threshold < w.native.bufferedAmount ∧ w.ready = []
      ∧ w.native.bufferedAmount = 0
      ∧ w.task (.user 1) = .inWait (.bytesLike [6])
      ∧ w.resume (.user 1) = none := by
  refine ⟨_, rfl, rfl, rfl, rfl, ?_, rfl, rfl, rfl, rfl⟩
  decide

/-- `wakeupKept_iff` at `belowMarkRun`, which ends idle, and breaks both
sides at its last two steps. -/
theorem wakeupKept_iff_belowMarkRun :
    (∀ w, Transition.Visits apply (init 1 1 openNative [] emptyCore)
        belowMarkRun w → WakeupKept w) ↔
      ∀ a w, Transition.Takes apply (init 1 1 openNative [] emptyCore)
        belowMarkRun a w → ClearsSafely a w :=
  wakeupKept_iff 1 1 openNative [] emptyCore (v := _) rfl rfl

end DcWorld

end AioLibDataChannel
