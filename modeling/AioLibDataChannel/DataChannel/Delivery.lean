/-
What the receive queue does with a message.

The history records when an item leaves the queue, by being taken or by
being dropped; `leftItems` reads the leavings off it, in order. The
queue is a conveyor (`Mailbox/Conveyor.lean`), so at any time the
messages dispatched so far are the ones that left followed by the ones
still queued (`Delivered`). A message that left was returned by a
`recv()` or dropped, and `StepDelivers` says when each happens: a reader
that takes an item ends its call with it in the same step, and an item
is dropped only as the oldest of a full queue, for a newer message.
-/
import AioLibDataChannel.DataChannel.History
import AioLibDataChannel.DataChannel.Readers
import AioLibDataChannel.Mailbox.Conveyor

namespace AioLibDataChannel

open Asyncio (Event Future Outcome Queue)
open Function (update)
open Transition (exec Reachable)

/-- The items that left the queue, taken or dropped, in order. -/
def DcObs.left? : DcObs → Option (Option Message)
  | .took _ item => some item.entry
  | .dropped item => some item.entry
  | _ => none

/-- No two items are one entry. -/
theorem Item.entry_injective : Function.Injective Item.entry := by
  intro item item' h
  cases item with
  | data m =>
      cases item' with
      | data m' =>
          cases h
          rfl
      | closedSentinel => cases h
  | closedSentinel =>
      cases item' with
      | data m' => cases h
      | closedSentinel => rfl

/-- Where nothing is dropped, what left was taken. -/
theorem left_eq_took {hist : List DcObs} (h : hist.filterMap DcObs.dropped? = []) :
    hist.filterMap DcObs.left? = hist.filterMap DcObs.took? := by
  rw [List.filterMap_eq_nil_iff] at h
  refine List.filterMap_congr fun o ho => ?_
  have hnot := h o ho
  cases o with
  | dropped item => cases hnot
  | _ => rfl

/-- Where nothing is taken, what left was dropped. -/
theorem left_eq_dropped {hist : List DcObs} (h : hist.filterMap DcObs.took? = []) :
    hist.filterMap DcObs.left? = hist.filterMap DcObs.dropped? := by
  rw [List.filterMap_eq_nil_iff] at h
  refine List.filterMap_congr fun o ho => ?_
  have hnot := h o ho
  cases o with
  | took t item => cases hnot
  | _ => rfl

/-- What was taken left, in the order it was taken. -/
theorem took_sublist_left (hist : List DcObs) :
    (hist.filterMap DcObs.took?).Sublist (hist.filterMap DcObs.left?) := by
  induction hist with
  | nil => exact List.Sublist.slnil
  | cons o hist ih =>
      cases o with
      | took t item => exact ih.cons_cons _
      | dropped item => exact ih.cons _
      | _ => exact ih

namespace DcWorld

variable {w w' : DcWorld} {t : TaskId}

/-- What left the queue, in order: messages, and `none` for a
sentinel. -/
def leftItems (w : DcWorld) : List (Option Message) := w.hist.filterMap DcObs.left?

/-- What `recv()` calls took, in order. -/
def takenItems (w : DcWorld) : List (Option Message) := w.hist.filterMap DcObs.took?

/-- The messages dispatched to the channel, in order. -/
def arrivals (w : DcWorld) : List Message := w.hist.filterMap DcObs.put?

/-- The messages in the queue, in order. -/
def queued (w : DcWorld) : List Message := (w.dc.recvQueue.items.map Item.entry).reduceOption

-- ============================================================== conveying

/-- The step appends to the history exactly what its mailbox action
logs. -/
theorem mailbox_logs {a : DcAction} (hn : NoReinjecting w) (h : apply a w = some w') :
    ∃ seg out added, w'.hist = w.hist ++ seg
      ∧ seg.filterMap DcObs.left? = out
      ∧ seg.filterMap DcObs.put? = added.reduceOption
      ∧ Mailbox.Conveys out added w.mailbox w'.mailbox := by
  obtain ⟨seg, hseg⟩ := hist_apply h
  have hput : w'.mailbox.put = w.mailbox.put ++ seg.filterMap DcObs.put? := by
    show w'.hist.filterMap DcObs.put? = _
    rw [← hseg, List.filterMap_append]
    rfl
  have htaken : w'.mailbox.taken = w.mailbox.taken ++ seg.filterMap DcObs.took? := by
    show w'.hist.filterMap DcObs.took? = _
    rw [← hseg, List.filterMap_append]
    rfl
  have hdropped : w'.mailbox.dropped = w.mailbox.dropped ++ seg.filterMap DcObs.dropped? := by
    show w'.hist.filterMap DcObs.dropped? = _
    rw [← hseg, List.filterMap_append]
    rfl
  obtain ⟨-, heq⟩ | ⟨b, -, hstep⟩ := mailbox_cases hn h
  · rw [heq] at hput htaken hdropped
    have hquiet : ∀ {l seg : List (Option Message)}, l = l ++ seg → seg = [] :=
      fun hl => List.self_eq_append_right.mp hl
    refine ⟨seg, [], [], hseg.symm, ?_, ?_, Mailbox.Conveys.refl (by rw [heq])⟩
    · rw [left_eq_took (hquiet hdropped)]
      exact hquiet htaken
    · exact List.self_eq_append_right.mp hput
  · obtain ⟨out, added, hconv, hput', hout⟩ := Mailbox.conveys_step hstep
    refine ⟨seg, out, added, hseg.symm, ?_, ?_, hconv⟩
    · rcases hout with ⟨htaken', hdropped'⟩ | ⟨htaken', hdropped'⟩
      · rw [hdropped'] at hdropped
        rw [htaken'] at htaken
        rw [left_eq_took (List.self_eq_append_right.mp hdropped)]
        exact (List.append_cancel_left htaken).symm
      · rw [htaken'] at htaken
        rw [hdropped'] at hdropped
        rw [left_eq_dropped (List.self_eq_append_right.mp htaken)]
        exact (List.append_cancel_left hdropped).symm
    · rw [hput'] at hput
      exact (List.append_cancel_left hput).symm

/-- So does a run. -/
theorem mailbox_logs_run (hs : SendInv w) (hn : NoReinjecting w)
    (h : Reachable apply w w') :
    ∃ seg added, w'.hist = w.hist ++ seg
      ∧ seg.filterMap DcObs.put? = added.reduceOption
      ∧ Mailbox.Conveys (seg.filterMap DcObs.left?) added w.mailbox w'.mailbox := by
  have hboth : (SendInv w' ∧ NoReinjecting w') ∧ ∃ seg added, w'.hist = w.hist ++ seg
      ∧ seg.filterMap DcObs.put? = added.reduceOption
      ∧ Mailbox.Conveys (seg.filterMap DcObs.left?) added w.mailbox w'.mailbox := by
    induction h with
    | init =>
        exact ⟨⟨hs, hn⟩, [], [], (List.append_nil _).symm, rfl, Mailbox.Conveys.refl rfl⟩
    | step a _ ha ih =>
        obtain ⟨⟨hsm, hnm⟩, seg, added, hhist, hput, hconv⟩ := ih
        obtain ⟨seg', out', added', hhist', hout', hput', hconv'⟩ := mailbox_logs hnm ha
        refine ⟨⟨sendInv_apply hsm ha, noReinjecting_apply hsm hnm ha⟩,
          seg ++ seg', added ++ added', ?_, ?_, ?_⟩
        · rw [hhist', hhist, List.append_assoc]
        · rw [List.filterMap_append, hput, hput', List.reduceOption_append]
        · rw [List.filterMap_append, hout']
          exact hconv.trans hconv'
  exact hboth.2

-- ================================================================ taking

/-- How `recv()` ends with the item it took. -/
def recvOutcome (w : DcWorld) : Item → Outcome (Option Message) Exc
  | .data m => .returned (some m)
  | .closedSentinel => .raised (.connectionClosedError w.dc.closedText)

/-- A reader gets what the item it took means. -/
theorem received_outcome (item : Item) (hroom : w.dc.recvQueue.full = false) :
    (w.received t item).task
      = update w.task t (.running (some (.recv, w.recvOutcome item))) := by
  cases item with
  | data m => rfl
  | closedSentinel =>
      simp only [received, Queue.putNowait_of_room hroom]
      rfl

/-- A reader that finds an item takes it and ends its call. -/
theorem recv_takes {item : Item} {rest : List Item}
    (hi : w.dc.recvQueue.items = item :: rest) :
    (w.recv t).hist = w.hist ++ [.took t item]
      ∧ (w.recv t).task t = .running (some (.recv, w.recvOutcome item)) := by
  have hget : w.dc.recvQueue.getNowait = some (item, w.dc.recvQueue.drop) := by
    unfold Queue.getNowait
    rw [hi]
  have hroom := Queue.full_of_getNowait hget
  unfold recv
  rw [hget]
  constructor
  · exact hist_received t item _
  · have htask := received_outcome (t := t) (w := { w with
      dc := { w.dc with recvQueue := w.dc.recvQueue.drop }
      hist := w.hist ++ [.took t item] }) item hroom
    rw [htask, Function.update_self]
    cases item <;> rfl

/-- So does a woken one. -/
theorem resume_takes {item : Item} {rest : List Item} (ht : w.task t = .inGet)
    (hi : w.dc.recvQueue.items = item :: rest) (hm : w.mustCancel t = false)
    (h : w.resume t = some w') :
    w'.hist = w.hist ++ [.took t item]
      ∧ w'.task t = .running (some (.recv, w.recvOutcome item)) := by
  cases resume_cases h with
  | openSettled o ht' hs => cases ht.symm.trans ht'
  | closedSettled call o ht' hs => cases ht.symm.trans ht'
  | getCancelled ht' hm' => exact absurd (hm.symm.trans hm') Bool.false_ne_true
  | getParks ht' hm' hw hi' => cases hi.symm.trans hi'
  | getTakes item' rest' ht' hm' hw hi' =>
      cases hi.symm.trans hi'
      have hroom := Queue.full_takeWoken hw (by rw [hi]; exact List.cons_ne_nil _ _)
      refine ⟨hist_received t item _, ?_⟩
      have htask := received_outcome (t := t) (w := { w with
        dc := { w.dc with recvQueue := w.dc.recvQueue.takeWoken t }
        hist := w.hist ++ [.took t item] }) item hroom
      rw [htask, Function.update_self]
      cases item <;> rfl
  | putCancelled ht' hm' => cases ht.symm.trans ht'
  | putRaises q ht' hm' hq => cases ht.symm.trans ht'
  | sendCancelled payload ht' hm' => cases ht.symm.trans ht'
  | sendRaises payload ht' hm' hw hr => cases ht.symm.trans ht'
  | sendEnters payload ht' hm' hw hr => cases ht.symm.trans ht'

/-- Messages are put by their callbacks; items are taken by `recv()`
calls, when they start or when they resume. -/
theorem mailAction_cases {a : DcAction} {b : Mailbox.Action Message}
    (h : mailAction a w = some b) :
    b = .close
    ∨ (∃ m rest, b = .put m ∧ a = .loop .dispatch ∧ w.ready = .message m :: rest)
    ∨ (b = .take ∧ ((∃ t, a = .loop (.recv t) ∧ w.dc.recvQueue.items ≠ [])
      ∨ ∃ t, a = .loop (.resume t) ∧ w.task t = .inGet ∧ w.mustCancel t = false
        ∧ w.dc.recvQueue.items ≠ [])) := by
  have hclose : ∀ {c : Prop} [Decidable c],
      (if c then none else some .close) = some b → b = .close := by
    intro c _ hb
    split at hb
    · cases hb
    · cases hb
      rfl
  cases a with
  | native a => cases h
  | sending a => cases h
  | loop a =>
      cases a with
      | dispatch =>
          simp only [mailAction] at h
          split at h
          · cases h
            exact Or.inl rfl
          next m rest hr =>
            cases h
            exact Or.inr (Or.inl ⟨m, rest, rfl, rfl, hr⟩)
          · cases h
      | recv t =>
          simp only [mailAction] at h
          split at h
          · cases h
          next hne =>
            cases h
            exact Or.inr (Or.inr ⟨rfl, Or.inl ⟨t, rfl, hne⟩⟩)
      | resume t =>
          simp only [mailAction] at h
          split at h
          next hc =>
            cases h
            exact Or.inr (Or.inr ⟨rfl, Or.inr ⟨t, rfl, hc.1, hc.2.1, hc.2.2.2⟩⟩)
          · cases h
      | close => exact Or.inl (hclose h)
      | aclose t => exact Or.inl (hclose h)
      | destroy => exact Or.inl (hclose h)
      | startTeardown => exact Or.inl (hclose h)
      | resumeTeardown => exact Or.inl (hclose h)
      | _ => cases h

/-- A step that takes an item takes the oldest, and ends the taker's
`recv()` with it. -/
theorem take_step {a : DcAction} (ha : mailAction a w = some .take)
    (h : apply a w = some w') :
    ∃ t item rest, w.dc.recvQueue.items = item :: rest
      ∧ w'.hist = w.hist ++ [.took t item]
      ∧ w'.task t = .running (some (.recv, w.recvOutcome item)) := by
  obtain hb | ⟨m, rest, hb, -⟩ | ⟨-, ⟨t, rfl, hne⟩ | ⟨t, rfl, ht, hm, hne⟩⟩ :=
    mailAction_cases ha
  · cases hb
  · cases hb
  · obtain ⟨-, hloop⟩ := apply_loop_cases h
    obtain ⟨item, rest, hi⟩ := List.exists_cons_of_ne_nil hne
    obtain ⟨rfl, -⟩ := started_eq hloop
    exact ⟨t, item, rest, hi, recv_takes hi⟩
  · obtain ⟨-, hloop⟩ := apply_loop_cases h
    obtain ⟨item, rest, hi⟩ := List.exists_cons_of_ne_nil hne
    exact ⟨t, item, rest, hi, resume_takes ht hi hm hloop⟩

/-- A step that logs a taking ends the taker's `recv()` with what it
took. -/
theorem took_outcome {a : DcAction} {seg : List DcObs} {item : Item}
    (hn : NoReinjecting w) (h : apply a w = some w') (hseg : w'.hist = w.hist ++ seg)
    (hmem : DcObs.took t item ∈ seg) :
    w'.task t = .running (some (.recv, w.recvOutcome item)) := by
  have hgrew : w'.mailbox.taken ≠ w.mailbox.taken := by
    intro heq
    have htaken : w'.mailbox.taken = w.mailbox.taken ++ seg.filterMap DcObs.took? := by
      show w'.hist.filterMap DcObs.took? = _
      rw [hseg, List.filterMap_append]
      rfl
    rw [heq] at htaken
    have hnil := List.self_eq_append_right.mp htaken
    rw [List.filterMap_eq_nil_iff] at hnil
    cases hnil _ hmem
  have htake : mailAction a w = some .take := by
    obtain ⟨-, heq⟩ | ⟨b, hb, hstep⟩ := mailbox_cases hn h
    · exact absurd (congrArg Mailbox.taken heq) hgrew
    · cases b with
      | take => exact hb
      | close =>
          have heq : w.mailbox.closeStep = w'.mailbox := Option.some.inj hstep
          exact absurd (congrArg Mailbox.taken heq).symm hgrew
      | put m =>
          have heq : w.mailbox.putStep m = w'.mailbox := Option.some.inj hstep
          exact absurd (congrArg Mailbox.taken heq).symm hgrew
  obtain ⟨u, item', rest, -, hhist, htask⟩ := take_step htake h
  have hone : seg = [.took u item'] := List.append_cancel_left (hseg.symm.trans hhist)
  rw [hone] at hmem
  cases List.mem_singleton.mp hmem
  exact htask

-- ============================================================== dropping

/-- A step that logs a drop dispatches a message to a full queue, whose
oldest item it drops. -/
theorem dropped_cause {a : DcAction} {seg : List DcObs} {item : Item}
    (hn : NoReinjecting w) (h : apply a w = some w') (hseg : w'.hist = w.hist ++ seg)
    (hmem : DcObs.dropped item ∈ seg) :
    (∃ m, mailAction a w = some (.put m)) ∧ w.dc.recvQueue.full = true
      ∧ w.dc.recvQueue.items.head? = some item := by
  have hdropped : w'.mailbox.dropped
      = w.mailbox.dropped ++ seg.filterMap DcObs.dropped? := by
    show w'.hist.filterMap DcObs.dropped? = _
    rw [hseg, List.filterMap_append]
    rfl
  have hin : item.entry ∈ seg.filterMap DcObs.dropped? :=
    List.mem_filterMap.mpr ⟨_, hmem, rfl⟩
  obtain ⟨-, heq⟩ | ⟨b, hb, hstep⟩ := mailbox_cases hn h
  · rw [heq] at hdropped
    rw [List.self_eq_append_right.mp hdropped] at hin
    cases hin
  · rcases Mailbox.dropped_step hstep with hsame | ⟨m, e, rest, rfl, hfull, hent, hd⟩
    · rw [hsame] at hdropped
      rw [List.self_eq_append_right.mp hdropped] at hin
      cases hin
    · rw [hd] at hdropped
      rw [← List.append_cancel_left hdropped] at hin
      have he : item.entry = e := List.mem_singleton.mp hin
      rw [mailbox_full] at hfull
      refine ⟨⟨m, hb⟩, hfull, ?_⟩
      rw [mailbox_entries] at hent
      cases hi : w.dc.recvQueue.items with
      | nil =>
          rw [hi] at hent
          cases hent
      | cons item' rest' =>
          rw [hi, List.map_cons] at hent
          have hhead : item'.entry = item.entry := (List.cons.inj hent).1.trans he.symm
          rw [List.head?_cons, Item.entry_injective hhead]

-- ============================================================== the law

/-- The state of the delivery: the messages that left followed by the
ones queued are those dispatched, what was returned is what left less
what was dropped, and the queue is within its capacity. -/
structure Delivered (capacity : Nat) (w : DcWorld) : Prop where
  conserved : w.leftItems.reduceOption ++ w.queued = w.arrivals
  returned : (w.takenItems.reduceOption ++ w.queued).Sublist w.arrivals
  bounded : w.dc.recvQueue.items.length ≤ capacity

/-- What one step of the delivery does, `logged` being what it adds to
the history: a taking ends the taker's `recv()` with the item, only the
oldest item of a full queue is dropped, for a message dispatched then,
and a dispatched message ends up newest in the queue. -/
structure StepDelivers (capacity : Nat) (a : DcAction) (w w' : DcWorld)
    (logged : List DcObs) : Prop where
  takes : ∀ t item, DcObs.took t item ∈ logged →
    w'.task t = .running (some (.recv, w.recvOutcome item))
  drops : ∀ item, DcObs.dropped item ∈ logged →
    w.dc.recvQueue.items.length = capacity ∧ w.dc.recvQueue.items.head? = some item
      ∧ ∃ m rest, a = .loop .dispatch ∧ w.ready = .message m :: rest
  dispatches : ∀ m rest, a = .loop .dispatch → w.ready = .message m :: rest →
    w'.dc.recvQueue.items.getLast? = some (.data m)

/-- The receive queue's capacity is the one it was made with. -/
theorem maxsize_apply {a : DcAction} (hn : NoReinjecting w) (h : apply a w = some w') :
    w'.dc.recvQueue.maxsize = w.dc.recvQueue.maxsize := by
  show w'.mailbox.maxsize = w.mailbox.maxsize
  obtain ⟨-, heq⟩ | ⟨b, -, hstep⟩ := mailbox_cases hn h
  · exact congrArg Mailbox.maxsize heq
  · exact Mailbox.maxsize_step hstep

/-- What every run keeps about a queue of the given capacity. -/
structure DeliveryInv (capacity : Nat) (w : DcWorld) : Prop where
  send : SendInv w
  reinjecting : NoReinjecting w
  maxsize : w.dc.recvQueue.maxsize = capacity

/-- Every step keeps the account. -/
theorem deliveryInv_apply {capacity : Nat} {a : DcAction} (hi : DeliveryInv capacity w)
    (h : apply a w = some w') : DeliveryInv capacity w' where
  send := sendInv_apply hi.send h
  reinjecting := noReinjecting_apply hi.send hi.reinjecting h
  maxsize := (maxsize_apply hi.reinjecting h).trans hi.maxsize

/-- Every step delivers as the law says. -/
theorem stepDelivers {capacity : Nat} {a : DcAction} {logged : List DcObs}
    (hi : DeliveryInv capacity w) (h : apply a w = some w')
    (hlog : w'.hist = w.hist ++ logged) : StepDelivers capacity a w w' logged := by
  constructor
  · exact fun t item hmem => took_outcome hi.reinjecting h hlog hmem
  · intro item hmem
    obtain ⟨⟨m, hb⟩, hfull, hhead⟩ := dropped_cause hi.reinjecting h hlog hmem
    rcases mailAction_cases hb with hclose | ⟨m', rest, hput, ha, hr⟩ | ⟨htake, -⟩
    · cases hclose
    · cases hput
      refine ⟨?_, hhead, m, rest, ha, hr⟩
      rw [← hi.maxsize]
      exact (Queue.full_iff.mp hfull).2
    · cases htake
  · intro m rest ha hr
    have hsim := mailbox_apply hi.reinjecting h
    rw [ha] at hsim
    simp only [mailStep, mailAction, hr] at hsim
    have hlast := Mailbox.put_newest hsim
    rw [mailbox_entries, List.getLast?_map] at hlast
    obtain ⟨item, hitem, hentry⟩ := Option.map_eq_some_iff.mp hlast
    rw [hitem]
    have hdata : item.entry = (Item.data m).entry := hentry
    rw [Item.entry_injective hdata]

/-- Messages queued ahead of a sentinel leave, in order, before any
`recv()` takes a sentinel. -/
theorem ahead_of_sentinel {messages : List Message} {rest : List Item}
    {before after : List DcObs} (hs : SendInv w) (hn : NoReinjecting w)
    (h : Reachable apply w w')
    (hq : w.dc.recvQueue.items = messages.map .data ++ .closedSentinel :: rest)
    (hlog : w'.hist = w.hist ++ before ++ .took t .closedSentinel :: after) :
    messages.map some <+: before.filterMap DcObs.left? := by
  obtain ⟨seg, added, hseg, -, hconv⟩ := mailbox_logs_run hs hn h
  have hparts : seg = before ++ .took t .closedSentinel :: after := by
    rw [hlog, List.append_assoc] at hseg
    exact (List.append_cancel_left hseg).symm
  have hentries : w.mailbox.entries
      = messages.map some ++ none :: rest.map Item.entry := by
    rw [mailbox_entries, hq, List.map_append, List.map_map]
    rfl
  unfold Mailbox.Conveys at hconv
  rw [hentries, hparts, List.filterMap_append] at hconv
  exact Mailbox.ahead_of_marker hconv

section Init

variable (handle : Int) (recvBuffer : Nat) (native : NativeChannel)
  (fired : List DcEvent) (core : Core)

/-- A new channel has delivered nothing. -/
theorem deliveryInv_init :
    DeliveryInv recvBuffer (init handle recvBuffer native fired core) := by
  have hloop := loopInv_init handle recvBuffer native fired core
  refine ⟨hloop.send, hloop.reinjecting, ?_⟩
  show (if native.isClosed then (Queue.new recvBuffer).putSuppressed Item.closedSentinel
    else (Queue.new recvBuffer : Queue Item TaskId)).maxsize = recvBuffer
  split
  · exact Queue.putSuppressed_maxsize _ _
  · rfl

/-- A new channel has dispatched nothing and queues no message. -/
theorem quiet_init :
    (init handle recvBuffer native fired core).arrivals = []
      ∧ (init handle recvBuffer native fired core).leftItems = []
      ∧ (init handle recvBuffer native fired core).queued = [] := by
  have hhist : (init handle recvBuffer native fired core).hist
      = (if native.isOpen then [.opened] else [])
        ++ (if native.isClosed then [.closedAtBirth] else []) := rfl
  have hitems : (init handle recvBuffer native fired core).dc.recvQueue
      = if native.isClosed then (Queue.new recvBuffer).putSuppressed Item.closedSentinel
        else (Queue.new recvBuffer : Queue Item TaskId) := rfl
  unfold arrivals leftItems queued
  rw [hhist, hitems]
  refine ⟨?_, ?_, ?_⟩
  · cases native.isOpen <;> cases native.isClosed <;> rfl
  · cases native.isOpen <;> cases native.isClosed <;> rfl
  · cases native.isClosed with
    | false => rfl
    | true =>
        simp only [if_true, Queue.putSuppressed_items]
        split <;> rfl

/-- The law holds in every reachable state. -/
theorem delivered_of_reachable (hc : 1 ≤ recvBuffer)
    (h : Reachable apply (init handle recvBuffer native fired core) w) :
    Delivered recvBuffer w := by
  have hinit := deliveryInv_init handle recvBuffer native fired core
  have hi : DeliveryInv recvBuffer w := h.invariant hinit deliveryInv_apply
  obtain ⟨harr, hleft, hqueued⟩ := quiet_init handle recvBuffer native fired core
  obtain ⟨seg, added, hseg, hput, hconv⟩ :=
    mailbox_logs_run hinit.send hinit.reinjecting h
  have hconserved : w.leftItems.reduceOption ++ w.queued = w.arrivals := by
    have hreduced := congrArg List.reduceOption hconv
    rw [List.reduceOption_append, List.reduceOption_append] at hreduced
    have hstart : (init handle recvBuffer native fired core).mailbox.entries.reduceOption
        = [] := hqueued
    rw [hstart, List.nil_append, ← hput] at hreduced
    have harrivals : w.arrivals = seg.filterMap DcObs.put? := by
      unfold arrivals at harr ⊢
      rw [hseg, List.filterMap_append, harr, List.nil_append]
    have hgone : w.leftItems = seg.filterMap DcObs.left? := by
      unfold leftItems at hleft ⊢
      rw [hseg, List.filterMap_append, hleft, List.nil_append]
    rw [harrivals, hgone]
    exact hreduced.symm
  refine ⟨hconserved, ?_, ?_⟩
  · rw [← hconserved]
    have htook := (took_sublist_left w.hist).filterMap id
    exact htook.append (List.Sublist.refl _)
  · rcases w.dc.recvQueue.bounded with hb | hb
    · rw [hi.maxsize] at hb
      omega
    · rw [hi.maxsize] at hb
      exact hb

/-- The delivery law of a receive queue of capacity at least one, for
every run: in every state the messages that left followed by those
queued are those dispatched, so what `recv()` returned followed by what
is queued is a subsequence of them; every step takes and drops as
`StepDelivers` says; and the messages queued ahead of a sentinel in some
state of the run leave before a `recv()` takes a sentinel. -/
theorem delivery_law (hc : 1 ≤ recvBuffer) {acts : List DcAction} {v : DcWorld}
    (hrun : exec apply (init handle recvBuffer native fired core) acts = some v) :
    (∀ w, Transition.Visits apply (init handle recvBuffer native fired core) acts w →
        Delivered recvBuffer w)
    ∧ (∀ a w w', Transition.Takes apply (init handle recvBuffer native fired core) acts
          a w → apply a w = some w' →
        ∃ logged, w'.hist = w.hist ++ logged ∧ StepDelivers recvBuffer a w w' logged)
    ∧ ∀ w, Transition.Visits apply (init handle recvBuffer native fired core) acts w →
        ∀ (messages : List Message) (rest : List Item),
          w.dc.recvQueue.items = messages.map .data ++ .closedSentinel :: rest →
          ∀ before t after, v.hist = w.hist ++ before ++ .took t .closedSentinel :: after →
            messages.map some <+: before.filterMap DcObs.left? := by
  have hinit := deliveryInv_init handle recvBuffer native fired core
  have hinv : ∀ {w}, Transition.Visits apply
      (init handle recvBuffer native fired core) acts w → DeliveryInv recvBuffer w :=
    fun hw => hw.reachable.invariant hinit deliveryInv_apply
  refine ⟨fun w hw => ?_, fun a w w' ht ha => ?_, ?_⟩
  · exact delivered_of_reachable handle recvBuffer native fired core hc hw.reachable
  · obtain ⟨logged, hlog⟩ := hist_apply ha
    exact ⟨logged, hlog.symm, stepDelivers (hinv ht.visits) ha hlog.symm⟩
  · intro w hw messages rest hq before t after hlog
    have hi := hinv hw
    obtain ⟨pre, ⟨post, rfl⟩, hpre⟩ := hw
    rw [Transition.exec_append, hpre] at hrun
    exact ahead_of_sentinel hi.send hi.reinjecting (Transition.reachable_of_exec hrun)
      hq hlog

end Init

/-- Three messages for a queue of two, a close that still finds room
after a `recv()`, and a second `recv()`. -/
def overflowRun : List DcAction :=
  [.native (.fire (.message (.bytes [1]))), .native (.fire (.message (.bytes [2]))),
    .native (.fire (.message (.bytes [3]))), .loop .dispatch, .loop .dispatch,
    .loop .dispatch, .loop (.recv (.user 0)), .loop .close, .loop (.recv (.user 1))]

/-- `delivery_law` at `overflowRun`: the first message was dropped, the
other two returned. -/
theorem delivery_law_overflowRun :
    ∃ v, exec apply (init 1 2 openNative [] emptyCore) overflowRun = some v
      ∧ v.arrivals = [.bytes [1], .bytes [2], .bytes [3]]
      ∧ v.takenItems = [some (.bytes [2]), some (.bytes [3])] ∧ v.queued = []
      ∧ Delivered 2 v := by
  have hrun : ∃ v, exec apply (init 1 2 openNative [] emptyCore) overflowRun = some v
      ∧ v.arrivals = [.bytes [1], .bytes [2], .bytes [3]]
      ∧ v.takenItems = [some (.bytes [2]), some (.bytes [3])] ∧ v.queued = [] :=
    ⟨_, rfl, rfl, rfl, rfl⟩
  obtain ⟨v, hv, harrivals, htaken, hqueued⟩ := hrun
  refine ⟨v, hv, harrivals, htaken, hqueued, ?_⟩
  exact (delivery_law 1 2 openNative [] emptyCore (by decide) hv).1 _
    (Transition.visits_end hv)

end DcWorld

end AioLibDataChannel
