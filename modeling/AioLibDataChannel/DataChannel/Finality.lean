/-
Whether closing is final for the readers.

A `recv()` that takes the sentinel puts it back at the tail and raises.
So the next reader meets whatever was behind the sentinel first: a
message dispatched after the close, or one that got behind a sentinel by
rotation. Closing is final as long as nothing but sentinels is left once
a `recv()` has raised, which is the mailbox being `Spent`.

`closingFinal_iff` gives the exact condition along a run, and
`message_after_close` the run that breaks it: the message was on its way
to the loop when the channel was closed.
-/
import AioLibDataChannel.DataChannel.Delivery
import Mathlib.Logic.Function.Iterate

namespace AioLibDataChannel

open Asyncio (Event Future Outcome Queue)
open Transition (exec)

namespace DcWorld

variable {w w' : DcWorld} {t : TaskId}

/-- Closing is final: no message was returned after a `recv()` raised,
and once one has, any number of `recv()` calls from here on raise. -/
structure ClosingFinal (w : DcWorld) : Prop where
  past : Mailbox.MarkersLast w.takenItems
  ahead : none ∈ w.takenItems → ∀ t n, ∃ text, (Nat.iterate (recv t) (n + 1) w).task t
    = .running (some (.recv, .raised (.connectionClosedError text)))

/-- The step leaves no message for a reader after one has raised: no
message is dispatched after a `recv()` raised, and a `recv()` that takes
a sentinel finds none in the queue. -/
def EndsReading (a : DcAction) (w : DcWorld) : Prop :=
  match mailAction a w with
  | some (.put _) => none ∉ w.takenItems
  | some .take => w.dc.recvQueue.items.head? = some .closedSentinel →
      ∀ item ∈ w.dc.recvQueue.items, item = .closedSentinel
  | _ => True

-- ====================================================== calling it again

/-- A `recv()` that takes the sentinel moves it to the tail. -/
theorem recv_rotates {rest : List Item}
    (hi : w.dc.recvQueue.items = .closedSentinel :: rest) :
    (w.recv t).dc.recvQueue.items = rest ++ [.closedSentinel] := by
  have hget : w.dc.recvQueue.getNowait = some (.closedSentinel, w.dc.recvQueue.drop) := by
    unfold Queue.getNowait
    rw [hi]
  have hroom := Queue.full_of_getNowait hget
  unfold recv
  rw [hget]
  simp only [received, Queue.putNowait_of_room hroom, finishCall, Queue.push_items,
    Queue.drop_items, hi, List.tail_cons]

/-- Calling `recv()` as often as there are sentinels ahead brings an
item to the head. By induction on the sentinels. -/
theorem recvs_bring {item : Item} {rest : List Item} {k : Nat}
    (hi : w.dc.recvQueue.items = List.replicate k .closedSentinel ++ item :: rest) :
    (Nat.iterate (recv t) k w).dc.recvQueue.items
      = item :: (rest ++ List.replicate k .closedSentinel) := by
  induction k generalizing w rest with
  | zero =>
      rw [List.replicate_zero, List.append_nil]
      exact hi
  | succ k ih =>
      rw [List.replicate_succ, List.cons_append] at hi
      have hrot := recv_rotates (t := t) hi
      rw [List.append_assoc, List.cons_append] at hrot
      show (Nat.iterate (recv t) k (w.recv t)).dc.recvQueue.items = _
      rw [ih hrot, List.append_assoc, List.singleton_append, ← List.replicate_succ]

/-- What is not all sentinels has a message behind the first of them. -/
theorem exists_message {items : List Item} (h : ¬ ∀ item ∈ items, item = .closedSentinel) :
    ∃ k m rest, items = List.replicate k .closedSentinel ++ .data m :: rest := by
  induction items with
  | nil => exact absurd nofun h
  | cons item items ih =>
      cases item with
      | data m => exact ⟨0, m, items, rfl⟩
      | closedSentinel =>
          have hrest : ¬ ∀ item ∈ items, item = .closedSentinel := by
            intro hall
            refine h fun item hmem => ?_
            rcases List.mem_cons.mp hmem with rfl | hmem
            · rfl
            · exact hall item hmem
          obtain ⟨k, m, rest, heq⟩ := ih hrest
          exact ⟨k + 1, m, rest, by rw [heq, List.replicate_succ, List.cons_append]⟩

/-- Among sentinels alone, `recv()` calls leave sentinels alone. -/
theorem recvs_sentinels {n : Nat} (hne : w.dc.recvQueue.items ≠ [])
    (hall : ∀ item ∈ w.dc.recvQueue.items, item = .closedSentinel) :
    (Nat.iterate (recv t) n w).dc.recvQueue.items ≠ []
      ∧ ∀ item ∈ (Nat.iterate (recv t) n w).dc.recvQueue.items, item = .closedSentinel := by
  induction n generalizing w with
  | zero => exact ⟨hne, hall⟩
  | succ n ih =>
      obtain ⟨item, rest, hi⟩ := List.exists_cons_of_ne_nil hne
      have hitem : item = .closedSentinel := hall item (by rw [hi]; exact List.mem_cons_self)
      rw [hitem] at hi
      have hrot := recv_rotates (t := t) hi
      refine ih (w := w.recv t) ?_ ?_
      · rw [hrot]
        exact List.append_ne_nil_of_right_ne_nil _ (List.cons_ne_nil _ _)
      · intro item hmem
        rw [hrot] at hmem
        rcases List.mem_append.mp hmem with hmem | hmem
        · exact hall item (by rw [hi]; exact List.mem_cons_of_mem _ hmem)
        · exact List.mem_singleton.mp hmem

/-- `recv()` on an empty queue suspends. -/
theorem recv_suspends (hi : w.dc.recvQueue.items = []) : (w.recv t).task t = .inGet := by
  have hget : w.dc.recvQueue.getNowait = none := Queue.getNowait_eq_none.mpr hi
  unfold recv
  rw [hget]
  simp only [suspend_task, Function.update_self]

/-- The mailbox is spent exactly when every further `recv()` raises. -/
theorem spent_iff_raises :
    w.mailbox.Spent ↔ (none ∈ w.takenItems → ∀ t n, ∃ text,
      (Nat.iterate (recv t) (n + 1) w).task t
        = .running (some (.recv, .raised (.connectionClosedError text)))) := by
  have hentries : (w.mailbox.entries ≠ [] ∧ ∀ e ∈ w.mailbox.entries, e = none)
      ↔ w.dc.recvQueue.items ≠ []
        ∧ ∀ item ∈ w.dc.recvQueue.items, item = .closedSentinel := by
    rw [mailbox_entries]
    refine and_congr (not_congr List.map_eq_nil_iff) ?_
    rw [List.forall_mem_map]
    refine forall_congr' fun item => imp_congr_right fun _ => ?_
    cases item with
    | data m => exact ⟨nofun, nofun⟩
    | closedSentinel => exact ⟨fun _ => rfl, fun _ => rfl⟩
  unfold Mailbox.Spent
  rw [hentries]
  refine imp_congr_right fun _ => ?_
  constructor
  · intro hspent t n
    obtain ⟨hne, hall⟩ := recvs_sentinels (t := t) (n := n) hspent.1 hspent.2
    obtain ⟨item, rest, hi⟩ := List.exists_cons_of_ne_nil hne
    have hitem : item = .closedSentinel := hall item (by rw [hi]; exact List.mem_cons_self)
    rw [hitem] at hi
    rw [Function.iterate_succ_apply']
    exact ⟨_, (recv_takes hi).2⟩
  · intro hraises
    constructor
    · intro hnil
      obtain ⟨text, htask⟩ := hraises (.user 0) 0
      have hin : (w.recv (.user 0)).task (.user 0) = .inGet := recv_suspends hnil
      cases htask.symm.trans hin
    · by_contra hnot
      obtain ⟨k, m, rest, hi⟩ := exists_message hnot
      obtain ⟨text, htask⟩ := hraises (.user 0) k
      rw [Function.iterate_succ_apply'] at htask
      have hret := (recv_takes (t := .user 0) (recvs_bring (t := .user 0) hi)).2
      cases htask.symm.trans hret

-- ========================================================= the step rule

/-- The mailbox stays spent exactly if the step ends reading. -/
theorem endsReading_iff {a : DcAction} {b : Mailbox.Action Message}
    (hb : mailAction a w = some b) :
    Mailbox.KeepsSpent b w.mailbox ↔ EndsReading a w := by
  unfold EndsReading
  rw [hb]
  cases b with
  | close => exact Iff.rfl
  | put m => exact Iff.rfl
  | take =>
      show (w.mailbox.entries.head? = some none → ∀ e ∈ w.mailbox.entries, e = none) ↔ _
      rw [mailbox_entries, List.forall_mem_map, List.head?_map]
      refine imp_congr ?_ ?_
      · cases w.dc.recvQueue.items.head? with
        | none => exact ⟨nofun, nofun⟩
        | some item =>
            cases item with
            | data m => exact ⟨nofun, nofun⟩
            | closedSentinel => exact ⟨fun _ => rfl, fun _ => rfl⟩
      · refine forall_congr' fun item => imp_congr_right fun _ => ?_
        cases item with
        | data m => exact ⟨nofun, nofun⟩
        | closedSentinel => exact ⟨fun _ => rfl, fun _ => rfl⟩

/-- Step by step, closing stays final exactly under the condition. -/
theorem final_step_iff {a : DcAction} (hn : NoReinjecting w)
    (hm : w.mailbox.Spent ∧ Mailbox.MarkersLast w.takenItems) (h : apply a w = some w') :
    (w'.mailbox.Spent ∧ Mailbox.MarkersLast w'.takenItems) ↔ EndsReading a w := by
  obtain ⟨hb, heq⟩ | ⟨b, hb, hstep⟩ := mailbox_cases hn h
  · have htaken : w'.takenItems = w.takenItems := congrArg Mailbox.taken heq
    rw [heq, htaken]
    have hok : EndsReading a w := by
      unfold EndsReading
      rw [hb]
      trivial
    exact ⟨fun _ => hok, fun _ => hm⟩
  · have hlast : Mailbox.MarkersLast w'.takenItems :=
      Mailbox.markersLast_step hm.1 hm.2 hstep
    rw [← endsReading_iff hb, ← Mailbox.spent_step_iff hm.1 hstep]
    exact ⟨fun hboth => hboth.1, fun hs => ⟨hs, hlast⟩⟩

section Init

variable (handle : Int) (recvBuffer : Nat) (native : NativeChannel)
  (fired : List DcEvent) (core : Core)

/-- Closing is final throughout a run exactly when every step of the run
leaves no message for a reader after one has raised. -/
theorem closingFinal_iff {acts : List DcAction} {v : DcWorld}
    (hrun : exec apply (init handle recvBuffer native fired core) acts = some v) :
    (∀ w, Transition.Visits apply (init handle recvBuffer native fired core) acts w →
        ClosingFinal w) ↔
      ∀ a w, Transition.Takes apply (init handle recvBuffer native fired core) acts
        a w → EndsReading a w := by
  have hnone : (init handle recvBuffer native fired core).takenItems = [] := by
    show ((if native.isOpen then [DcObs.opened] else [])
      ++ (if native.isClosed then [DcObs.closedAtBirth] else [])).filterMap DcObs.took? = []
    cases native.isOpen <;> cases native.isClosed <;> rfl
  have hstart : (init handle recvBuffer native fired core).mailbox.Spent
      ∧ Mailbox.MarkersLast (init handle recvBuffer native fired core).takenItems := by
    constructor
    · intro hmem
      have hmem' : none ∈ (init handle recvBuffer native fired core).takenItems := hmem
      rw [hnone] at hmem'
      cases hmem'
    · rw [hnone]
      intro before after heq
      exact absurd heq.symm (List.append_ne_nil_of_right_ne_nil _ (List.cons_ne_nil _ _))
  have hexact := Transition.visits_iff_takes
    (P := fun w => w.mailbox.Spent ∧ Mailbox.MarkersLast w.takenItems) (I := LoopInv)
    hrun hstart (loopInv_init handle recvBuffer native fired core) loopInv_apply
    fun hi hm h => final_step_iff hi.reinjecting hm h
  rw [← hexact]
  refine forall_congr' fun w => forall_congr' fun _ => ?_
  constructor
  · exact fun hf => ⟨spent_iff_raises.mpr hf.ahead, hf.past⟩
  · exact fun hboth => ⟨hboth.2, spent_iff_raises.mp hboth.1⟩

end Init

-- ======================================================= the failing run

/-- A message is on its way to the loop when the channel is closed, and
a reader is told. -/
def lateMessageRun : List DcAction :=
  [.native (.fire (.message (.bytes [1]))), .loop .close, .loop (.recv (.user 0)),
    .loop .dispatch]

/-- Of the next two `recv()` calls the first raises again, and the second
returns the message. -/
theorem message_after_close :
    ∃ w₁ w₂ w₃, exec apply (init 1 2 openNative [] emptyCore)
        (lateMessageRun.take 3) = some w₁
      ∧ w₁.task (.user 0) = .running (some (.recv,
          .raised (.connectionClosedError "channel closed")))
      ∧ exec apply w₁ [.loop .dispatch, .loop (.recv (.user 0))] = some w₂
      ∧ w₂.task (.user 0) = .running (some (.recv,
          .raised (.connectionClosedError "channel closed")))
      ∧ exec apply w₂ [.loop (.recv (.user 0))] = some w₃
      ∧ w₃.task (.user 0) = .running (some (.recv, .returned (some (.bytes [1])))) :=
  ⟨_, _, _, rfl, rfl, rfl, rfl, rfl, rfl⟩

/-- `closingFinal_iff` at `lateMessageRun`, which breaks both sides at
its last step. -/
theorem closingFinal_iff_lateMessageRun :
    (∀ w, Transition.Visits apply (init 1 2 openNative [] emptyCore)
        lateMessageRun w → ClosingFinal w) ↔
      ∀ a w, Transition.Takes apply (init 1 2 openNative [] emptyCore)
        lateMessageRun a w → EndsReading a w :=
  closingFinal_iff 1 2 openNative [] emptyCore (v := _) rfl

end DcWorld

end AioLibDataChannel
