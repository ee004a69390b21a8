/-
The `DataChannel` wrapper: its fields and the methods that run to the
end without suspending.

The record holds what the Python object holds. `handleClosed` is the
hinge: it is run by the native closed callback and by `_destroy`, and
it touches every structure a coroutine can be suspended on — both
slots, the drain event, the receive queue. Two of its four effects can
be lost. A slot keeps its first outcome, and a full receive queue loses
the sentinel, as it loses the one `close()` puts.
-/
import AioLibDataChannel.Asyncio.Event
import AioLibDataChannel.Asyncio.Queue
import AioLibDataChannel.Wrapper.Core
import AioLibDataChannel.Wrapper.FutureSlot

namespace AioLibDataChannel

open Asyncio (Event Future Outcome Queue)

/-- What the receive queue holds: messages, and `_CLOSED_SENTINEL`. -/
inductive Item
  | data (message : Message)
  | closedSentinel
deriving DecidableEq, Repr

/-- Where `_teardown` stands: not created, created but not started,
awaiting the owned tasks it found, finished. -/
inductive Teardown
  | absent
  | created
  | gathering (snapshot : List TaskId)
  | finished
deriving DecidableEq, Repr

/-- The fields of a `DataChannel` object. -/
structure DataChannel where
  native : CoreDataChannel
  destroyed : Bool
  closeRequested : Bool
  openSlot : FutureSlot Unit Exc
  closedSlot : FutureSlot Unit Exc
  bufferedLowEvent : Event TaskId
  recvQueue : Queue Item TaskId
  lastError : Option String
  tasks : List TaskId
  teardownTask : Teardown

namespace DataChannel

-- ======================================================== construction

/-- The five `set_on_*` calls of `__init__`. -/
def registerCallbacks (native : CoreDataChannel) : CoreDataChannel :=
  ((((native.setOn .open).setOn .closed).setOn .error).setOn .message).setOn
    .bufferedAmountLow

/-- `DataChannel.__init__`, with the native status it synchronises to. -/
def create (handle : Int) (recvBuffer : Nat) (isOpen isClosed : Bool)
    (core : Core) : Core × DataChannel :=
  let (core, native) := CoreDataChannel.create handle core
  let openSlot := if isOpen then FutureSlot.new.set () else FutureSlot.new
  let closedSlot := if isClosed then FutureSlot.new.set () else FutureSlot.new
  let recvQueue := if isClosed
    then (Queue.new recvBuffer).putSuppressed .closedSentinel
    else Queue.new recvBuffer
  (core,
    { native := registerCallbacks native
      destroyed := false
      closeRequested := false
      openSlot := openSlot
      closedSlot := closedSlot
      bufferedLowEvent := Event.new.set
      recvQueue := recvQueue
      lastError := none
      tasks := []
      teardownTask := .absent })

-- ========================================================= dispatchers

/-- `_open_slot.set(None)`, scheduled by `_cb_open`. -/
def handleOpen (dc : DataChannel) : DataChannel :=
  { dc with openSlot := dc.openSlot.set () }

/-- `_handle_closed`. -/
def handleClosed (dc : DataChannel) : DataChannel :=
  { dc with
    closedSlot := dc.closedSlot.set ()
    openSlot := if dc.openSlot.future.done then dc.openSlot
      else dc.openSlot.fail (.connectionClosedError "channel closed before open")
    bufferedLowEvent := dc.bufferedLowEvent.set
    recvQueue := dc.recvQueue.putSuppressed .closedSentinel }

/-- `_handle_error`. -/
def handleError (message : String) (dc : DataChannel) : DataChannel :=
  { dc with
    lastError := some message
    openSlot := if dc.openSlot.future.done then dc.openSlot
      else dc.openSlot.fail (.rtcError message none) }

/-- `_handle_message`'s queue: append, dropping the oldest item when
full. -/
def pushMessage (m : Message) (q : Queue Item TaskId) : Queue Item TaskId :=
  match q.putNowait (.data m) with
  | some q' => q'
  | none =>
      let q' := match q.getNowait with
        | some (_, q') => q'
        | none => q
      q'.putSuppressed (.data m)

/-- `_handle_message`. -/
def handleMessage (m : Message) (dc : DataChannel) : DataChannel :=
  { dc with recvQueue := pushMessage m dc.recvQueue }

/-- `_buffered_low_event.set()`, scheduled by `_cb_buffered_low`. -/
def handleBufferedLow (dc : DataChannel) : DataChannel :=
  { dc with bufferedLowEvent := dc.bufferedLowEvent.set }

-- =========================================================== lifecycle

/-- `_destroy`. The native `destroy` of the wrapper never raises past
its `suppress(Exception)`. -/
def destroy (core : Core) (dc : DataChannel) : Core × DataChannel :=
  if dc.destroyed then (core, dc)
  else
    let (core, native) := dc.native.destroy core
    (core, ({ dc with destroyed := true, native := native }).handleClosed)

/-- `close()` up to the cancelling of the owned tasks, when no close was
requested before. -/
def requestClose (dc : DataChannel) : DataChannel :=
  { dc with
    closeRequested := true
    recvQueue := dc.recvQueue.putSuppressed .closedSentinel }

/-- The `finally` block of `_teardown`. -/
def teardownFinally (dc : DataChannel) : DataChannel :=
  { dc with
    closedSlot := if dc.closedSlot.future.done then dc.closedSlot
      else dc.closedSlot.set ()
    teardownTask := .finished }

/-- The text of the `ConnectionClosedError` that `recv()` raises:
`self._last_error or "channel closed"`. -/
def closedText (dc : DataChannel) : String :=
  match dc.lastError with
  | some text => if text = "" then "channel closed" else text
  | none => "channel closed"

-- ======================================================== queue lemmas

/-- With room, a message is appended. -/
theorem pushMessage_items_of_room {m : Message} {q : Queue Item TaskId}
    (h : q.full = false) :
    (pushMessage m q).items = q.items ++ [.data m] := by
  simp only [pushMessage, Queue.putNowait_of_room h]
  rfl

/-- A full queue loses its oldest item to the message. -/
theorem pushMessage_items_of_full {m : Message} {q : Queue Item TaskId}
    (h : q.full = true) :
    (pushMessage m q).items = q.items.tail ++ [.data m] := by
  simp only [pushMessage, Queue.putNowait_of_full h]
  cases hg : q.getNowait with
  | none => exact absurd (Queue.getNowait_eq_none.mp hg) (Queue.items_ne_nil_of_full h)
  | some p =>
      obtain ⟨x, q'⟩ := p
      obtain ⟨hi, -⟩ := Queue.getNowait_eq_some hg
      have hroom : q'.full = false := Queue.full_of_getNowait hg
      show (q'.putSuppressed (.data m)).items = _
      rw [Queue.putSuppressed_items, if_neg (Bool.eq_false_iff.mp hroom), hi,
        List.tail_cons]

/-- A message changes nothing about the queue's bound. -/
@[simp] theorem pushMessage_maxsize (m : Message) (q : Queue Item TaskId) :
    (pushMessage m q).maxsize = q.maxsize := by
  cases hf : q.full with
  | false => simp only [pushMessage, Queue.putNowait_of_room hf]; rfl
  | true =>
      simp only [pushMessage, Queue.putNowait_of_full hf, Queue.putSuppressed_maxsize]
      cases hg : q.getNowait with
      | none => rfl
      | some p =>
          obtain ⟨x, q'⟩ := p
          obtain ⟨-, hq'⟩ := Queue.getNowait_eq_some hg
          show q'.maxsize = _
          rw [hq', Queue.drop_maxsize]

end DataChannel

end AioLibDataChannel
