/-
A message from one `send()` to another peer's `recv()`.

The sender stands in the native call of its `send()`, the receiver has a
reader and an empty queue, and what lies between is `Native/Bindings`.
`roundTrips_iff` says for which messages the two ends agree: those the
native layer refuses, and those that fit its one signed length. Text
with a U+0000 is neither refused nor delivered whole.
-/
import AioLibDataChannel.DataChannel.Machine
import AioLibDataChannel.Native.Bindings
import AioLibDataChannel.Transition.Run

namespace AioLibDataChannel

open Function (update)
open Transition (exec)

/-- The payload `send()` is given for a message. -/
def Message.payload : Message → Payload
  | .bytes data => .bytesLike data
  | .str text => .str text

namespace DcWorld

-- ============================================================ receiving

/-- A receiver that dispatches messages, has none, and whose only reader
is about to call `recv()`. -/
structure Listening (u : TaskId) (w : DcWorld) : Prop where
  idle : w.position = .idle
  dispatching : w.dc.native.dispatches w.core .message = true
  ready : w.ready = []
  items : w.dc.recvQueue.items = []
  getters : w.dc.recvQueue.getters = []
  running : ∃ last, w.task u = .running last
  notOwed : w.mustCancel u = false

/-- The message arrives, then `recv()` is called. -/
def recvAfter (m : Message) (u : TaskId) : List DcAction :=
  [.native (.fire (.message m)), .loop .dispatch, .loop (.recv u)]

/-- `recv()` waits for the message. -/
def recvBefore (m : Message) (u : TaskId) : List DcAction :=
  [.loop (.recv u), .native (.fire (.message m)), .loop .dispatch,
    .loop (.resume u)]

/-- `recv()` has returned this message. -/
def Returned (u : TaskId) (m : Message) (w : DcWorld) : Prop :=
  w.task u = .running (some (.recv, .returned (some m)))

/-- The world once the message was dispatched. -/
def dispatched (m : Message) (w : DcWorld) : DcWorld :=
  runCallback (.message m) w

/-- A message fired at a listening receiver is dispatched next. -/
theorem exec_message {w : DcWorld} {m : Message} {rest : List DcAction}
    (hidle : w.position = .idle)
    (hd : w.dc.native.dispatches w.core .message = true) (hready : w.ready = []) :
    exec apply w (.native (.fire (.message m)) :: .loop .dispatch :: rest)
      = exec apply (w.dispatched m) rest := by
  have hfire : apply (.native (.fire (.message m))) w
      = some { w with ready := [.message m] } := by
    show some (w.post (.message m)) = _
    rw [post, DcEvent.kind, hd, if_pos rfl, hready, List.nil_append]
  have hdispatch : apply (.loop .dispatch) { w with ready := [.message m] }
      = some (w.dispatched m) := by
    rw [apply, if_pos hidle]
    show some (runCallback (.message m) { w with ready := [] }) = _
    rw [← hready]
    rfl
  rw [Transition.exec_cons hfire, Transition.exec_cons hdispatch]

/-- `recv()` with a message at the head of the queue returns it. -/
theorem returned_recv {w : DcWorld} {u : TaskId} {m : Message} {rest : List Item}
    (hitems : w.dc.recvQueue.items = .data m :: rest) :
    Returned u m (w.recv u) := by
  have hget : w.dc.recvQueue.getNowait = some (.data m, w.dc.recvQueue.drop) := by
    rw [Asyncio.Queue.getNowait, hitems]
  rw [recv, hget]
  exact Function.update_self ..

/-- A listening receiver's empty queue takes a message. -/
theorem Listening.dispatched_items {w : DcWorld} {u : TaskId} {m : Message}
    (h : Listening u w) : (w.dispatched m).dc.recvQueue.items = [.data m] := by
  have hroom : w.dc.recvQueue.full = false := by
    rw [Asyncio.Queue.full_eq_false_iff, h.items, List.length_nil]
    omega
  show (DataChannel.pushMessage m w.dc.recvQueue).items = _
  rw [DataChannel.pushMessage_items_of_room hroom, h.items, List.nil_append]

/-- The message that waits in the queue is what `recv()` returns. -/
theorem Listening.exec_recvAfter {w : DcWorld} {u : TaskId} (m : Message)
    (h : Listening u w) :
    ∃ w', exec apply w (recvAfter m u) = some w' ∧ Returned u m w' := by
  obtain ⟨last, hlast⟩ := h.running
  have hstep : apply (.loop (.recv u)) (w.dispatched m)
      = some ((w.dispatched m).recv u) := by
    have hidle : (w.dispatched m).position = .idle := h.idle
    have htask : (w.dispatched m).task u = .running last := hlast
    rw [apply, if_pos hidle, applyLoop, started, htask]
  refine ⟨(w.dispatched m).recv u, ?_, returned_recv h.dispatched_items⟩
  rw [recvAfter, exec_message h.idle h.dispatching h.ready]
  exact Transition.exec_cons hstep

/-- `recv()` parked on an empty queue. -/
def parkedReader (u : TaskId) (w : DcWorld) : DcWorld :=
  { w with
    dc := { w.dc with recvQueue := w.dc.recvQueue.park u }
    task := update w.task u .inGet }

/-- With nothing in the queue the reader parks. -/
theorem Listening.recv_eq {w : DcWorld} {u : TaskId} (h : Listening u w) :
    w.recv u = w.parkedReader u := by
  rw [recv, Asyncio.Queue.getNowait_eq_none.mpr h.items]
  show suspend u .inGet _ = _
  rw [suspend, if_neg (Bool.eq_false_iff.mp h.notOwed)]
  rfl

/-- The message wakes the one reader. -/
theorem Listening.parked_woken {w : DcWorld} {u : TaskId} {m : Message}
    (h : Listening u w) :
    u ∈ ((w.parkedReader u).dispatched m).dc.recvQueue.woken
      ∧ ((w.parkedReader u).dispatched m).dc.recvQueue.items = [.data m] := by
  have hitems : (w.dc.recvQueue.park u).items = [] := by
    rw [Asyncio.Queue.park_items, h.items]
  have hgetters : (w.dc.recvQueue.park u).getters = [u] := by
    rw [Asyncio.Queue.park, dif_pos h.items]
    show w.dc.recvQueue.getters ++ [u] = [u]
    rw [h.getters, List.nil_append]
  have hroom : (w.dc.recvQueue.park u).full = false := by
    rw [Asyncio.Queue.full_eq_false_iff, hitems, List.length_nil]
    omega
  have hput : DataChannel.pushMessage m (w.dc.recvQueue.park u)
      = (w.dc.recvQueue.park u).push (.data m) hroom := by
    rw [DataChannel.pushMessage, Asyncio.Queue.putNowait_of_room hroom]
  show u ∈ (DataChannel.pushMessage m (w.dc.recvQueue.park u)).woken
    ∧ (DataChannel.pushMessage m (w.dc.recvQueue.park u)).items = _
  rw [hput]
  constructor
  · refine List.mem_append_right _ ?_
    rw [hgetters]
    exact List.mem_singleton_self u
  · rw [Asyncio.Queue.push_items, hitems, List.nil_append]

/-- A woken reader with a message at the head of the queue returns
it. -/
theorem returned_resumeGet {w : DcWorld} {u : TaskId} {m : Message}
    {rest : List Item} (howed : w.mustCancel u = false)
    (hwoken : u ∈ w.dc.recvQueue.woken)
    (hitems : w.dc.recvQueue.items = .data m :: rest) :
    ∃ w', w.resumeGet u = some w' ∧ Returned u m w' := by
  rw [resumeGet, if_neg (Bool.eq_false_iff.mp howed), if_pos hwoken, hitems]
  exact ⟨_, rfl, Function.update_self ..⟩

/-- The reader that waits is woken for the message and returns it. -/
theorem Listening.exec_recvBefore {w : DcWorld} {u : TaskId} (m : Message)
    (h : Listening u w) :
    ∃ w', exec apply w (recvBefore m u) = some w' ∧ Returned u m w' := by
  obtain ⟨last, hlast⟩ := h.running
  have hpark : apply (.loop (.recv u)) w = some (w.parkedReader u) := by
    rw [apply, if_pos h.idle, applyLoop, started, hlast, h.recv_eq]
  obtain ⟨hwoken, hitems⟩ := h.parked_woken (m := m)
  obtain ⟨w', hresume, hret⟩ := returned_resumeGet (u := u)
    (w := (w.parkedReader u).dispatched m) h.notOwed hwoken hitems
  refine ⟨w', ?_, hret⟩
  rw [recvBefore, Transition.exec_cons hpark,
    exec_message (w := w.parkedReader u) h.idle h.dispatching h.ready]
  have hstep : apply (.loop (.resume u)) ((w.parkedReader u).dispatched m)
      = some w' := by
    have hidle : ((w.parkedReader u).dispatched m).position = .idle := h.idle
    have htask : ((w.parkedReader u).dispatched m).task u = .inGet :=
      Function.update_self ..
    rw [apply, if_pos hidle, applyLoop, resume, htask]
    exact hresume
  exact Transition.exec_cons hstep

/-- Whatever the wire delivers to any listening receiver, its `recv()`
returns `m`. -/
def Arrives (wire : Wire) (m : Message) : Prop :=
  ∃ m', wire.delivered = some m' ∧
    ∀ u r, Listening u r → ∀ as, as = recvAfter m' u ∨ as = recvBefore m' u →
      ∃ r', exec apply r as = some r' ∧ Returned u m r'

/-- A message that fits and is not refused, or a send that raises: for
every sender whose `send()` has reached the native call. -/
def RoundTrips (rtc : Rtc) (m : Message) : Prop :=
  ∀ s t, s.position = .calling t m.payload →
    match rtc.send m with
    | .error e =>
        ∃ s', apply (.sending (.nativeSend (.error e))) s = some s'
          ∧ s'.task t = .running (some (.send, .raised e))
    | .ok wire => Arrives wire m

/-- What the wire delivers is what `recv()` returns. -/
theorem arrives_of_delivered {wire : Wire} {m : Message}
    (h : wire.delivered = some m) : Arrives wire m := by
  refine ⟨m, h, ?_⟩
  intro u r hr as hor
  rcases hor with rfl | rfl
  · exact hr.exec_recvAfter m
  · exact hr.exec_recvBefore m

/-- A channel that was open from the start listens. -/
theorem listening_init (u : Nat) :
    Listening (.user u) (init 1 1 openNative [] emptyCore) where
  idle := rfl
  dispatching := rfl
  ready := rfl
  items := rfl
  getters := rfl
  running := ⟨none, rfl⟩
  notOwed := rfl

/-- A message arrives as `m` exactly when it is delivered as `m`. -/
theorem arrives_iff {wire : Wire} {m : Message} :
    Arrives wire m ↔ wire.delivered = some m := by
  refine ⟨?_, arrives_of_delivered⟩
  intro hex
  obtain ⟨m', hm', harrive⟩ := hex
  obtain ⟨r, hexec, hret⟩ :=
    harrive _ _ (listening_init 0) (recvAfter m' (.user 0)) (Or.inl rfl)
  obtain ⟨r', hexec', hret'⟩ := (listening_init 0).exec_recvAfter m'
  have hr : r = r' := Option.some.inj (hexec.symm.trans hexec')
  rw [hr, Returned, hret'] at hret
  cases hret
  exact hm'

-- ======================================================= the round trip

/-- A send that raises, raises out of `send()`. -/
theorem nativeSend_raises {s : DcWorld} {t : TaskId} {payload : Payload}
    (hcall : s.position = .calling t payload) (e : Exc) :
    ∃ s', apply (.sending (.nativeSend (.error e))) s = some s'
      ∧ s'.task t = .running (some (.send, .raised e)) := by
  rw [apply, applySending, nativeSend, hcall]
  exact ⟨_, rfl, Function.update_self ..⟩

/-- Some sender stands in the native call for any message. -/
theorem exists_calling (m : Message) :
    ∃ s : DcWorld, s.position = .calling (.user 0) m.payload := by
  refine ⟨(init 1 1 openNative [] emptyCore).send (.user 0) m.payload true, ?_⟩
  cases m <;> rfl

/-- A message makes the round trip, or its send raises, exactly when the
native layer refuses it or it fits. -/
theorem roundTrips_iff (rtc : Rtc) (m : Message) :
    RoundTrips rtc m ↔ rtc.Refuses m ∨ m.Fits := by
  rw [← Rtc.send_eq_error_iff]
  constructor
  · intro h
    obtain ⟨s, hs⟩ := exists_calling m
    have hs' := h s _ hs
    cases hsend : rtc.send m with
    | error e => exact Or.inl ⟨e, rfl⟩
    | ok wire =>
        rw [hsend] at hs'
        exact Or.inr ((delivered_send hsend).mp (arrives_iff.mp hs'))
  · intro h s t hs
    cases hsend : rtc.send m with
    | error e => exact nativeSend_raises hs e
    | ok wire =>
        have hfits : m.Fits := by
          rcases h with ⟨e, he⟩ | h
          · rw [hsend] at he
            cases he
          · exact h
        exact arrives_of_delivered ((delivered_send hsend).mpr hfits)

/-- A layer that accepts everything. -/
def acceptAll : Rtc where
  sendMessage _ := 0
  argumentError := "incompatible function arguments"

/-- The text `a`, U+0000, `b` is sent without an error, and arrives as
`a`. -/
theorem text_cut_at_nul :
    ∃ wire, acceptAll.send (.str [0x61, 0, 0x62]) = .ok wire
      ∧ wire.delivered = some (.str [0x61])
      ∧ ¬ RoundTrips acceptAll (.str [0x61, 0, 0x62]) := by
  have htext : acceptAll.sendText [0x61, 0, 0x62] = .ok (.text [0x61]) := rfl
  have hsend : acceptAll.send (.str [0x61, 0, 0x62])
      = .ok (.text [0x61]) := htext
  have hdelivered : (Wire.text [0x61]).delivered = some (.str [0x61]) :=
    delivered_sendText htext
  refine ⟨_, hsend, hdelivered, ?_⟩
  intro h
  obtain ⟨s, hs⟩ := exists_calling (.str [0x61, 0, 0x62])
  have hs' := h s _ hs
  rw [hsend] at hs'
  have hwhole := arrives_iff.mp hs'
  rw [hdelivered] at hwhole
  cases hwhole

end DcWorld

end AioLibDataChannel
