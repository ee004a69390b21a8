/-
One `DataChannel` with its surroundings, as a machine: the native
handle under it, the callbacks scheduled on the loop, and the tasks
calling it.

# What a step is

The loop runs one step at a time, and a step runs to the task's next
suspension. So a loop action is atomic: the first part of an API call,
the resumption of a suspended task, a scheduled callback, the start or
the end of `_teardown`. The one exception is the tail of `send()`: it
calls the native layer three times (`send_bytes`, `buffered_amount`,
and the flag write in between), and libdatachannel's own threads may
drain the buffer between any two of them. `position` says where the
loop stands inside that tail; while it is not `idle` no other loop
action runs, but native actions do.

# What is nondeterministic

Which action comes next: the order of native events, of callbacks
relative to task steps, of the tasks among themselves. A native send
answers as the action says. Callbacks run in the order they were
scheduled.

# Cancellation

`Task.cancel()` cancels what the task awaits. A slot's future is shared
by every task awaiting that slot; a `get()` or an event wait has a
future of its own. A task that is not suspended, or whose future is
already done, gets the error at its next step (`mustCancel`): and if
that next step suspends on a slot, the slot's future is what it
cancels. The teardown task is private to the channel and nobody
cancels it.
-/
import AioLibDataChannel.DataChannel.Basic
import Mathlib.Logic.Function.Basic

namespace AioLibDataChannel

open Asyncio (Event Future Outcome Queue)
open Function (update)

/-- The public coroutines of a channel. -/
inductive Call
  | waitOpen
  | waitClosed
  | aclose
  | recv
  | send
deriving DecidableEq, Repr

/-- Where a task stands with this channel. `running` is its own code:
it may call in on its next step, and knows how its last call ended. -/
inductive TaskState
  | unborn
  | running (last : Option (Call × Outcome (Option Message) Exc))
  | awaitingOpen
  | awaitingClosed (call : Call)
  | inGet
  | reinjecting
  | inWait (payload : Payload)
  | sending
  | done
deriving DecidableEq, Repr

/-- The native callbacks of a channel, with their payloads. -/
inductive DcEvent
  | opened
  | closed
  | error (message : String)
  | message (m : Message)
  | bufferedLow
deriving DecidableEq, Repr

/-- The key a callback is stored under. -/
def DcEvent.kind : DcEvent → DcKind
  | opened => .open
  | closed => .closed
  | error _ => .error
  | message _ => .message
  | bufferedLow => .bufferedAmountLow

/-- libdatachannel's side of the handle. -/
structure NativeChannel where
  isOpen : Bool
  isClosed : Bool
  bufferedAmount : Nat
  threshold : Nat
deriving DecidableEq, Repr

/-- Where the loop stands in the tail of `send()`: about to call the
native send, returned from it, about to clear the drain event. -/
inductive SendPosition
  | idle
  | calling (t : TaskId) (payload : Payload)
  | returned (t : TaskId)
  | clearing (t : TaskId)
deriving DecidableEq, Repr

/-- What happened, for the statements to speak about: `closed` is a run
of `_handle_closed`, `closeCalled` the one `close()` that did not return
at its guard. -/
inductive DcObs
  | opened
  | errored (message : String)
  | closed
  | closeCalled
  | closedAtBirth
  | dispatched (m : Message)
  | dropped (item : Item)
  | took (t : TaskId) (item : Item)
deriving DecidableEq, Repr

/-- A channel and what surrounds it. -/
structure DcWorld where
  core : Core
  native : NativeChannel
  dc : DataChannel
  ready : List DcEvent
  position : SendPosition
  task : TaskId → TaskState
  mustCancel : TaskId → Bool
  hist : List DcObs

namespace DcWorld

/-- The world right after `DataChannel(handle, loop=…, recv_buffer=…)`.
`fired` are the callbacks that registering them fired at once. -/
def init (handle : Int) (recvBuffer : Nat) (native : NativeChannel)
    (fired : List DcEvent) (core : Core) : DcWorld :=
  let (core, dc) :=
    DataChannel.create handle recvBuffer native.isOpen native.isClosed core
  { core := core
    native := native
    dc := dc
    ready := fired
    position := .idle
    task := fun t => if t.ownedBy handle then .unborn else .running none
    mustCancel := fun _ => false
    hist := (if native.isOpen then [.opened] else [])
      ++ (if native.isClosed then [.closedAtBirth] else []) }

/-- A channel that is open when its wrapper is made. -/
def openNative : NativeChannel where
  isOpen := true
  isClosed := false
  bufferedAmount := 0
  threshold := 0

def emptyCore : Core where
  pcs := []
  dcs := []
  deletedPcs := []
  deletedDcs := []

-- ============================================================== helpers

/-- The task leaves its call with this outcome. -/
def finishCall (t : TaskId) (call : Call) (o : Outcome (Option Message) Exc)
    (w : DcWorld) : DcWorld :=
  { w with task := update w.task t (.running (some (call, o))) }

/-- The outcome of awaiting a slot, as the outcome of the call. -/
def voidOutcome : Outcome Unit Exc → Outcome (Option Message) Exc
  | .returned () => .returned none
  | .raised e => .raised e
  | .cancelled => .cancelled

def setMustCancel (t : TaskId) (w : DcWorld) : DcWorld :=
  { w with mustCancel := update w.mustCancel t true }

def clearMustCancel (t : TaskId) (w : DcWorld) : DcWorld :=
  { w with mustCancel := update w.mustCancel t false }

/-- `Task.cancel()`. -/
def cancelTask (t : TaskId) (w : DcWorld) : DcWorld :=
  match w.task t with
  | .unborn => w
  | .done => w
  | .awaitingOpen =>
      if w.dc.openSlot.future.done then w.setMustCancel t
      else { w with dc := { w.dc with openSlot := w.dc.openSlot.cancel } }
  | .awaitingClosed _ =>
      if w.dc.closedSlot.future.done then w.setMustCancel t
      else { w with dc := { w.dc with closedSlot := w.dc.closedSlot.cancel } }
  | .inGet =>
      { w.setMustCancel t with
        dc := { w.dc with recvQueue := w.dc.recvQueue.unpark t } }
  | .inWait _ =>
      if t ∈ w.dc.bufferedLowEvent.waiters then
        { w.setMustCancel t with
          dc := { w.dc with bufferedLowEvent := w.dc.bufferedLowEvent.leave t } }
      else w.setMustCancel t
  | .running _ => w.setMustCancel t
  | .reinjecting => w.setMustCancel t
  | .sending => w.setMustCancel t

/-- `for task in list(self._tasks): task.cancel()`. -/
def cancelTasks (ts : List TaskId) (w : DcWorld) : DcWorld :=
  ts.foldl (fun w t => w.cancelTask t) w

/-- The task suspends; a cancellation it was owed reaches what it now
awaits. -/
def suspend (t : TaskId) (st : TaskState) (w : DcWorld) : DcWorld :=
  let w' := { w with task := update w.task t st }
  if w.mustCancel t then (w'.clearMustCancel t).cancelTask t else w'

/-- A suspended task is resumed: the cancellation it was owed wins over
what it was woken with. -/
def endWait (t : TaskId) (call : Call) (o : Outcome (Option Message) Exc)
    (w : DcWorld) : DcWorld :=
  if w.mustCancel t then (w.clearMustCancel t).finishCall t call .cancelled
  else w.finishCall t call o

/-- `is_closed()` or `_destroyed`: the check `send()` makes twice. -/
def sendRefused (w : DcWorld) : Bool := w.dc.destroyed || w.native.isClosed

-- ========================================================== native side

/-- A callback reaches the loop if the wrapper still dispatches it. -/
def post (e : DcEvent) (w : DcWorld) : DcWorld :=
  if w.dc.native.dispatches w.core e.kind then { w with ready := w.ready ++ [e] }
  else w

/-- The native channel opens, closes, fails or receives. The low
callback is fired by `drain` alone. -/
def fire (e : DcEvent) (w : DcWorld) : Option DcWorld :=
  match e with
  | .opened => some ({ w with native.isOpen := true }.post .opened)
  | .closed =>
      some ({ w with native.isOpen := false, native.isClosed := true }.post .closed)
  | .error m => some (w.post (.error m))
  | .message m => some (w.post (.message m))
  | .bufferedLow => none

/-- The native layer sends `k` buffered bytes; the low callback fires
exactly when this takes the amount from above the threshold to at or
below it. -/
def drain (k : Nat) (w : DcWorld) : DcWorld :=
  let amount := w.native.bufferedAmount
  let w' := { w with native.bufferedAmount := amount - k }
  if w.native.threshold < amount ∧ amount - k ≤ w.native.threshold
    then w'.post .bufferedLow
  else w'

-- ============================================================ lifecycle

/-- `_destroy()`. -/
def destroy (w : DcWorld) : DcWorld :=
  if w.dc.destroyed then w
  else
    { w with
      core := (w.dc.destroy w.core).1
      dc := (w.dc.destroy w.core).2
      hist := w.hist ++ [.closed] }

/-- `close()`. -/
def close (w : DcWorld) : DcWorld :=
  if w.dc.closeRequested then w
  else
    let w₁ : DcWorld :=
      { w with dc := w.dc.requestClose, hist := w.hist ++ [.closeCalled] }
    let w₂ := w₁.cancelTasks w.dc.tasks
    { w₂ with dc := { w₂.dc with teardownTask := .created } }

/-- `_teardown` past the owned tasks. -/
def teardownEnd (w : DcWorld) : DcWorld :=
  let w' := w.destroy
  { w' with dc := w'.dc.teardownFinally }

/-- `_teardown` from its start. -/
def startTeardown (w : DcWorld) : Option DcWorld :=
  match w.dc.teardownTask with
  | .created =>
      if w.dc.tasks = [] then some w.teardownEnd
      else some { w with dc := { w.dc with teardownTask := .gathering w.dc.tasks } }
  | _ => none

/-- `_teardown` once `gather` is done: every task it found is. -/
def resumeTeardown (w : DcWorld) : Option DcWorld :=
  match w.dc.teardownTask with
  | .gathering snapshot =>
      if snapshot.all (fun t => decide (w.task t = .done)) then some w.teardownEnd
      else none
  | _ => none

/-- `spawn_task`: refused (the caller gets `ConnectionClosedError`) once
a close was requested, else the new task joins `_tasks`. -/
def spawnTask (t : TaskId) (w : DcWorld) : Option DcWorld :=
  if t.ownedBy w.dc.native.handle = true ∧ w.task t = .unborn then
    if w.dc.closeRequested then some w
    else
      some { w with
        dc := { w.dc with tasks := w.dc.tasks ++ [t] }
        task := update w.task t (.running none) }
  else none

/-- A task of the channel runs to its end. -/
def finish (t : TaskId) (w : DcWorld) : Option DcWorld :=
  match w.task t with
  | .running _ =>
      if t.ownedBy w.dc.native.handle
        then some { w with task := update w.task t .done }
      else none
  | _ => none

/-- The done callback `self._tasks.discard`. -/
def discard (t : TaskId) (w : DcWorld) : Option DcWorld :=
  if w.task t = .done then
    some { w with dc := { w.dc with tasks := w.dc.tasks.filter (· ≠ t) } }
  else none

-- ======================================================== API coroutines

/-- `wait_open()`. -/
def waitOpen (t : TaskId) (w : DcWorld) : DcWorld :=
  match w.dc.openSlot.future with
  | .settled o => w.finishCall t .waitOpen (voidOutcome o)
  | .pending => w.suspend t .awaitingOpen

/-- `await self._closed_slot.future`, the end of `wait_closed()` and of
`aclose()`. -/
def awaitClosed (call : Call) (t : TaskId) (w : DcWorld) : DcWorld :=
  match w.dc.closedSlot.future with
  | .settled o => w.finishCall t call (voidOutcome o)
  | .pending => w.suspend t (.awaitingClosed call)

/-- `aclose()`. -/
def aclose (t : TaskId) (w : DcWorld) : DcWorld :=
  w.close.awaitClosed .aclose t

/-- `recv()` with the item it took: a sentinel is put back before the
call raises. -/
def received (t : TaskId) (item : Item) (w : DcWorld) : DcWorld :=
  match item with
  | .data m => w.finishCall t .recv (.returned (some m))
  | .closedSentinel =>
      match w.dc.recvQueue.putNowait .closedSentinel with
      | some q =>
          let w' : DcWorld := { w with dc := { w.dc with recvQueue := q } }
          w'.finishCall t .recv (.raised (.connectionClosedError w.dc.closedText))
      | none => w.suspend t .reinjecting

/-- `recv()` from its start. -/
def recv (t : TaskId) (w : DcWorld) : DcWorld :=
  match w.dc.recvQueue.getNowait with
  | some (item, q) =>
      let w' : DcWorld := { w with
        dc := { w.dc with recvQueue := q }
        hist := w.hist ++ [.took t item] }
      w'.received t item
  | none =>
      let w' : DcWorld := { w with
        dc := { w.dc with recvQueue := w.dc.recvQueue.park t } }
      w'.suspend t .inGet

/-- `send()` past its checks: anything but bytes and strings is refused
here, else the native send is called next. -/
def enterSend (t : TaskId) (payload : Payload) (w : DcWorld) : DcWorld :=
  match payload with
  | .other typeName =>
      w.finishCall t .send
        (.raised (.typeError ("send() expected bytes or str, got " ++ typeName)))
  | _ =>
      { w with
        task := update w.task t .sending
        position := .calling t payload }

/-- `send()` from its start. -/
def send (t : TaskId) (payload : Payload) (waitForDrain : Bool) (w : DcWorld) :
    DcWorld :=
  if w.sendRefused then
    w.finishCall t .send
      (.raised (.connectionClosedError "cannot send on a closed channel"))
  else if waitForDrain && !w.dc.bufferedLowEvent.value then
    let w' : DcWorld := { w with
      dc := { w.dc with bufferedLowEvent := w.dc.bufferedLowEvent.park t } }
    w'.suspend t (.inWait payload)
  else w.enterSend t payload

/-- The native send answers: the amount the buffer grew by, or the
exception it raised. -/
def nativeSend (answer : Except Exc Nat) (w : DcWorld) : Option DcWorld :=
  match w.position with
  | .calling t _ =>
      match answer with
      | .ok grow =>
          some { w with
            native.bufferedAmount := w.native.bufferedAmount + grow
            position := .returned t }
      | .error e =>
          some { w.finishCall t .send (.raised e) with position := .idle }
  | _ => none

/-- `self._buffered_low_event.is_set() and
self._native.buffered_amount() > 0`. -/
def readAmount (w : DcWorld) : Option DcWorld :=
  match w.position with
  | .returned t =>
      if w.dc.bufferedLowEvent.value = true ∧ 0 < w.native.bufferedAmount then
        some { w with position := .clearing t }
      else some { w.finishCall t .send (.returned none) with position := .idle }
  | _ => none

/-- `self._buffered_low_event.clear()`. -/
def clearEvent (w : DcWorld) : Option DcWorld :=
  match w.position with
  | .clearing t =>
      some { w.finishCall t .send (.returned none) with
        dc := { w.dc with bufferedLowEvent := w.dc.bufferedLowEvent.clear }
        position := .idle }
  | _ => none

-- =========================================================== resumption

/-- A task in `Queue.get()` is resumed. -/
def resumeGet (t : TaskId) (w : DcWorld) : Option DcWorld :=
  if w.mustCancel t then
    let w' : DcWorld := { w with
      dc := { w.dc with recvQueue := w.dc.recvQueue.passOn t } }
    some ((w'.clearMustCancel t).finishCall t .recv .cancelled)
  else if t ∈ w.dc.recvQueue.woken then
    match w.dc.recvQueue.items with
    | [] =>
        some { w with dc := { w.dc with recvQueue := w.dc.recvQueue.repark t } }
    | item :: _ =>
        let w' : DcWorld := { w with
          dc := { w.dc with recvQueue := w.dc.recvQueue.takeWoken t }
          hist := w.hist ++ [.took t item] }
        some (w'.received t item)
  else none

/-- A task in `Queue.put(_CLOSED_SENTINEL)` is resumed. -/
def resumePut (t : TaskId) (w : DcWorld) : Option DcWorld :=
  if w.mustCancel t then
    some ((w.clearMustCancel t).finishCall t .recv .cancelled)
  else
    match w.dc.recvQueue.putNowait .closedSentinel with
    | some q =>
        let w' : DcWorld := { w with dc := { w.dc with recvQueue := q } }
        some (w'.finishCall t .recv
          (.raised (.connectionClosedError w.dc.closedText)))
    | none => none

/-- A task in `Event.wait()` is resumed. -/
def resumeSend (t : TaskId) (payload : Payload) (w : DcWorld) :
    Option DcWorld :=
  let w' : DcWorld := { w with
    dc := { w.dc with bufferedLowEvent := w.dc.bufferedLowEvent.leave t } }
  if w.mustCancel t then some ((w'.clearMustCancel t).finishCall t .send .cancelled)
  else if t ∈ w.dc.bufferedLowEvent.woken then
    if w.sendRefused then
      some (w'.finishCall t .send
        (.raised (.connectionClosedError "channel closed while waiting to send")))
    else some (w'.enterSend t payload)
  else none

/-- A suspended task whose wait is over runs its next step. -/
def resume (t : TaskId) (w : DcWorld) : Option DcWorld :=
  match w.task t with
  | .awaitingOpen =>
      match w.dc.openSlot.future with
      | .settled o => some (w.endWait t .waitOpen (voidOutcome o))
      | .pending => none
  | .awaitingClosed call =>
      match w.dc.closedSlot.future with
      | .settled o => some (w.endWait t call (voidOutcome o))
      | .pending => none
  | .inGet => w.resumeGet t
  | .reinjecting => w.resumePut t
  | .inWait payload => w.resumeSend t payload
  | _ => none

/-- The dispatcher a callback was scheduled with. -/
def runCallback (e : DcEvent) (w : DcWorld) : DcWorld :=
  match e with
  | .opened => { w with dc := w.dc.handleOpen, hist := w.hist ++ [.opened] }
  | .closed => { w with dc := w.dc.handleClosed, hist := w.hist ++ [.closed] }
  | .error m => { w with dc := w.dc.handleError m, hist := w.hist ++ [.errored m] }
  | .message m =>
      { w with
        dc := w.dc.handleMessage m
        hist := w.hist
          ++ (if w.dc.recvQueue.full then
                (w.dc.recvQueue.items.take 1).map .dropped else [])
          ++ [.dispatched m] }
  | .bufferedLow => { w with dc := w.dc.handleBufferedLow }

/-- `set_buffered_amount_low_threshold`: the native call fails on a
deleted handle. -/
def setThreshold (n : Nat) (w : DcWorld) : DcWorld :=
  if w.dc.destroyed then w else { w with native.threshold := n }

/-- The callback scheduled first runs. -/
def dispatch (w : DcWorld) : Option DcWorld :=
  match w.ready with
  | [] => none
  | e :: rest => some (runCallback e { w with ready := rest })

end DcWorld

-- ============================================================== actions

/-- What libdatachannel's threads do on their own. -/
inductive DcNative
  | fire (e : DcEvent)
  | drain (k : Nat)
deriving DecidableEq, Repr

/-- The native calls in the tail of `send()`. -/
inductive DcSending
  | nativeSend (answer : Except Exc Nat)
  | readAmount
  | clearEvent

/-- The atomic steps of the loop. -/
inductive DcLoop
  | dispatch
  | close
  | destroy
  | startTeardown
  | resumeTeardown
  | setThreshold (n : Nat)
  | spawnTask (t : TaskId)
  | finish (t : TaskId)
  | discard (t : TaskId)
  | waitOpen (t : TaskId)
  | waitClosed (t : TaskId)
  | aclose (t : TaskId)
  | recv (t : TaskId)
  | send (t : TaskId) (payload : Payload) (waitForDrain : Bool)
  | resume (t : TaskId)
  | cancel (t : TaskId)
  | absorb (t : TaskId)
deriving DecidableEq, Repr

inductive DcAction
  | native (a : DcNative)
  | sending (a : DcSending)
  | loop (a : DcLoop)

namespace DcWorld

/-- A call starts from the task's own code. -/
def started (t : TaskId) (w : DcWorld) (w' : DcWorld) : Option DcWorld :=
  match w.task t with
  | .running _ => some w'
  | _ => none

def applyNative : DcNative → DcWorld → Option DcWorld
  | .fire e, w => w.fire e
  | .drain k, w => some (w.drain k)

def applySending : DcSending → DcWorld → Option DcWorld
  | .nativeSend answer, w => w.nativeSend answer
  | .readAmount, w => w.readAmount
  | .clearEvent, w => w.clearEvent

def applyLoop : DcLoop → DcWorld → Option DcWorld
  | .dispatch, w => w.dispatch
  | .close, w => some w.close
  | .destroy, w => some w.destroy
  | .startTeardown, w => w.startTeardown
  | .resumeTeardown, w => w.resumeTeardown
  | .setThreshold n, w => some (w.setThreshold n)
  | .spawnTask t, w => w.spawnTask t
  | .finish t, w => w.finish t
  | .discard t, w => w.discard t
  | .waitOpen t, w => w.started t (w.waitOpen t)
  | .waitClosed t, w => w.started t (w.awaitClosed .waitClosed t)
  | .aclose t, w => w.started t (w.aclose t)
  | .recv t, w => w.started t (w.recv t)
  | .send t payload wait, w => w.started t (w.send t payload wait)
  | .resume t, w => w.resume t
  | .cancel t, w => some (w.cancelTask t)
  | .absorb t, w => w.started t (w.clearMustCancel t)

/-- The transition: loop steps wait for the tail of a `send()` to end,
native steps do not. -/
def apply : DcAction → DcWorld → Option DcWorld
  | .native a, w => applyNative a w
  | .sending a, w => applySending a w
  | .loop a, w => if w.position = .idle then applyLoop a w else none

end DcWorld

end AioLibDataChannel
