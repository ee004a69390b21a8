/-
A `PeerConnection` and its surroundings, as a machine: the negotiation
calls, the lifecycle, the executor thread that destroys the native
handle, and the data channels as far as the connection holds them.

# What a step is

As for a channel: a loop step runs to a task's next suspension, and
native threads step in between. The native destroy is three steps. In
`begun` the wrapper has dropped its callbacks and left the registry, and
the thread is inside the native delete without the GIL; `deleted` is its
return, after which the loop is told through its queue of callbacks,
behind everything scheduled before; `delivered` is when the teardown
task can run again.

A native callback is two: `_dispatch` looks the wrapper and its callback
up (`fire`), and the callback it found schedules the dispatcher on the
loop (`schedule`). The destroy can come in between, so a dispatcher may
run at any time after its lookup, the end of the teardown included.

# The channels

The connection holds a channel by its handle and calls one method of it,
`_destroy`. That is all of a channel this machine has (`ChannelRef`);
what else a channel does is a step of its own machine, which this one
sees as nothing, or as `_destroy` run by the channel's own teardown.

# Tasks

A task that is in no call of the connection is `running`, whatever else
it awaits. A cancellation it is owed reaches it there (`absorb`), or in
its next call here.

# The native layer

It answers each call as the action says, except that a deleted handle
answers none, and hands out each channel handle once.
-/
import AioLibDataChannel.DataChannel.Basic
import AioLibDataChannel.PeerConnection.Basic

namespace AioLibDataChannel

open Asyncio (Event Future Outcome)
open Function (update)

/-- The coroutines of a connection that are modelled here. -/
inductive PcCall
  | createOffer
  | createAnswer
  | setLocalDescription
  | createDataChannel
  | aclose
  | waitClosed
deriving DecidableEq, Repr

/-- What these calls return. -/
inductive PcResult
  | nothing
  | description (desc : LocalDescription)
  | channel (handle : Int)
deriving DecidableEq, Repr

/-- Where a task stands with this connection; a suspended negotiation
call knows the number of the future it awaits. -/
inductive PcTask
  | unborn
  | running (last : Option (PcCall × Outcome PcResult Exc))
  | awaitingGathering (call : PcCall) (ticket : Nat)
  | awaitingLocal (ticket : Nat)
  | inWaitClosed (call : PcCall)
  | done
deriving DecidableEq, Repr

/-- The native callbacks whose handlers settle a slot or add a
channel. -/
inductive PcEvent
  | localDescription (desc : LocalDescription)
  | stateChange (state : RTCState)
  | gatheringStateChange (state : GatheringState)
  | dataChannel (handle : Int)
deriving DecidableEq, Repr

/-- The key a callback is stored under. -/
def PcEvent.kind : PcEvent → PcKind
  | localDescription _ => .localDescription
  | stateChange _ => .stateChange
  | gatheringStateChange _ => .gatheringStateChange
  | dataChannel _ => .dataChannel

/-- The native layer hands out the handle of an incoming channel. -/
def PcEvent.issue (issued : List Int) : PcEvent → List Int
  | dataChannel handle => issued ++ [handle]
  | _ => issued

/-- The native layer can fire it: a channel handle is a new one. -/
def PcEvent.fresh (issued : List Int) : PcEvent → Bool
  | dataChannel handle => decide (handle ∉ issued)
  | _ => true

/-- What is scheduled on the loop: a dispatcher, or the word that the
native destroy is over. -/
inductive PcCallback
  | event (e : PcEvent)
  | destroyDone
deriving DecidableEq, Repr

/-- What a connection holds of a `DataChannel`. -/
structure ChannelRef where
  native : CoreDataChannel
  destroyed : Bool
deriving DecidableEq, Repr

namespace ChannelRef

/-- `DataChannel.__init__`, as far as the registry sees it. -/
def create (handle : Int) (core : Core) : Core × ChannelRef :=
  let (core, native) := CoreDataChannel.create handle core
  (core, { native := DataChannel.registerCallbacks native, destroyed := false })

/-- `DataChannel._destroy`, as far as the registry sees it. -/
def destroy (core : Core) (c : ChannelRef) : Core × ChannelRef :=
  if c.destroyed then (core, c)
  else
    let (core, native) := c.native.destroy core
    (core, { native := native, destroyed := true })

end ChannelRef

/-- A connection and what surrounds it. `issued` are the channel handles
the native layer has handed out; `walked` is how many channels
`_teardown` found; `inFlight` are the callbacks native threads have
looked up and not yet scheduled. -/
structure PcWorld where
  core : Core
  issued : List Int
  pc : PeerConnection
  channels : List ChannelRef
  walked : Nat
  inFlight : List PcEvent
  ready : List PcCallback
  task : TaskId → PcTask
  mustCancel : TaskId → Bool

namespace PcWorld

/-- The world right after `PeerConnection(config)`. The handles in the
registry were handed out before. -/
def init (handle : Int) (core : Core) : PcWorld :=
  let (core, pc) := PeerConnection.create handle core
  { core := core
    issued := core.dcs
    pc := pc
    channels := []
    walked := 0
    inFlight := []
    ready := []
    task := fun t =>
      match t with
      | .ofConnection _ => .unborn
      | _ => .running none
    mustCancel := fun _ => false }

-- ============================================================== helpers

/-- The task leaves its call with this outcome. -/
def finishCall (t : TaskId) (call : PcCall) (o : Outcome PcResult Exc)
    (w : PcWorld) : PcWorld :=
  { w with task := update w.task t (.running (some (call, o))) }

def setMustCancel (t : TaskId) (w : PcWorld) : PcWorld :=
  { w with mustCancel := update w.mustCancel t true }

def clearMustCancel (t : TaskId) (w : PcWorld) : PcWorld :=
  { w with mustCancel := update w.mustCancel t false }

/-- `Task.cancel()`, as far as the task is in a call of the connection:
an older future than the current one is done. -/
def cancelTask (t : TaskId) (w : PcWorld) : PcWorld :=
  match w.task t with
  | .unborn => w
  | .done => w
  | .awaitingGathering _ ticket =>
      if (w.pc.gatheringComplete.nth ticket).done then w.setMustCancel t
      else
        { w with pc := { w.pc with gatheringComplete := w.pc.gatheringComplete.cancel } }
  | .awaitingLocal ticket =>
      if (w.pc.localDescription.nth ticket).done then w.setMustCancel t
      else
        { w with pc := { w.pc with localDescription := w.pc.localDescription.cancel } }
  | .inWaitClosed _ =>
      { w.setMustCancel t with
        pc := { w.pc with
          closedEvent := if t ∈ w.pc.closedEvent.waiters
            then w.pc.closedEvent.leave t else w.pc.closedEvent } }
  | .running _ => w.setMustCancel t

/-- `for task in list(self._tasks): task.cancel()`. -/
def cancelTasks (ts : List TaskId) (w : PcWorld) : PcWorld :=
  ts.foldl (fun w t => w.cancelTask t) w

/-- The task suspends; a cancellation it was owed reaches what it now
awaits. -/
def suspend (t : TaskId) (st : PcTask) (w : PcWorld) : PcWorld :=
  let w' := { w with task := update w.task t st }
  if w.mustCancel t then (w'.clearMustCancel t).cancelTask t else w'

/-- A suspended task is resumed: the cancellation it was owed wins over
what it was woken with. -/
def endWait (t : TaskId) (call : PcCall) (o : Outcome PcResult Exc) (w : PcWorld) :
    PcWorld :=
  if w.mustCancel t then (w.clearMustCancel t).finishCall t call .cancelled
  else w.finishCall t call o

/-- A native call on this connection can give this answer: a deleted
handle only fails. -/
def answers {α : Type} (answer : Except Exc α) (w : PcWorld) : Bool :=
  match answer with
  | .ok _ => decide (w.pc.native.handle ∉ w.core.deletedPcs)
  | .error _ => true

-- ============================================================= channels

/-- `DataChannel(handle, loop=self._loop)`, appended to
`_data_channels`. -/
def addChannel (handle : Int) (w : PcWorld) : PcWorld :=
  { w with
    core := (ChannelRef.create handle w.core).1
    channels := w.channels ++ [(ChannelRef.create handle w.core).2] }

/-- `for dc in self._data_channels: dc._destroy()`. -/
def destroyAll (core : Core) : List ChannelRef → Core × List ChannelRef
  | [] => (core, [])
  | c :: rest =>
      let (core₁, c') := c.destroy core
      let (core₂, rest') := destroyAll core₁ rest
      (core₂, c' :: rest')

/-- A channel's own teardown runs its `_destroy`. -/
def destroyChannel (n : Nat) (w : PcWorld) : Option PcWorld :=
  match w.channels[n]? with
  | none => none
  | some c =>
      some { w with
        core := (c.destroy w.core).1
        channels := w.channels.set n (c.destroy w.core).2 }

-- ========================================================== native side

/-- `_dispatch`: a native callback is fired, and found if the wrapper
still dispatches it. -/
def fire (e : PcEvent) (w : PcWorld) : Option PcWorld :=
  if e.fresh w.issued then
    some { w with
      issued := e.issue w.issued
      inFlight := if w.pc.native.dispatches w.core e.kind
        then w.inFlight ++ [e] else w.inFlight }
  else none

/-- A callback that was found schedules its dispatcher. -/
def schedule (n : Nat) (w : PcWorld) : Option PcWorld :=
  match w.inFlight[n]? with
  | none => none
  | some e =>
      some { w with
        inFlight := w.inFlight.eraseIdx n
        ready := w.ready ++ [.event e] }

/-- The executor thread runs `_native.destroy` up to the native
delete. -/
def beginDestroy (w : PcWorld) : Option PcWorld :=
  match w.pc.teardownTask with
  | .destroying .queued =>
      some { w with
        core := (w.pc.native.beginDestroy w.core).1
        pc := { w.pc with
          native := (w.pc.native.beginDestroy w.core).2
          teardownTask := .destroying .begun } }
  | _ => none

/-- The native delete returns, and the loop is told. -/
def endDestroy (w : PcWorld) : Option PcWorld :=
  match w.pc.teardownTask with
  | .destroying .begun =>
      some { w with
        core := { w.core with
          deletedPcs := w.core.deletedPcs ++ [w.pc.native.handle] }
        pc := { w.pc with teardownTask := .destroying .deleted }
        ready := w.ready ++ [.destroyDone] }
  | _ => none

-- ============================================================ lifecycle

/-- `close()`. -/
def close (w : PcWorld) : PcWorld :=
  if w.pc.closed then w
  else
    let w₁ : PcWorld := { w with pc := { w.pc with closed := true } }
    let w₂ := w₁.cancelTasks w.pc.tasks
    { w₂ with pc := { w₂.pc with teardownTask := .created } }

/-- `_teardown` past the owned tasks, to the executor. -/
def walkChannels (w : PcWorld) : PcWorld :=
  { w with
    core := (destroyAll w.core w.channels).1
    channels := (destroyAll w.core w.channels).2
    walked := w.channels.length
    pc := { w.pc with teardownTask := .destroying .queued } }

/-- `_teardown` from its start. -/
def startTeardown (w : PcWorld) : Option PcWorld :=
  match w.pc.teardownTask with
  | .created =>
      if w.pc.tasks = [] then some w.walkChannels
      else some { w with pc := { w.pc with teardownTask := .gathering w.pc.tasks } }
  | _ => none

/-- `_teardown` once `gather` is done: every task it found is. -/
def resumeTeardown (w : PcWorld) : Option PcWorld :=
  match w.pc.teardownTask with
  | .gathering snapshot =>
      if snapshot.all (fun t => decide (w.task t = .done)) then some w.walkChannels
      else none
  | _ => none

/-- `_teardown` once the native destroy is over: its `finally` block. -/
def endTeardown (w : PcWorld) : Option PcWorld :=
  match w.pc.teardownTask with
  | .destroying .delivered =>
      some { w with
        pc := { w.pc with
          closedEvent := w.pc.closedEvent.set
          teardownTask := .finished } }
  | _ => none

/-- `spawn_task`: refused (the caller gets `ConnectionClosedError`) once
closed, else the new task joins `_tasks`. -/
def spawnTask (n : Nat) (w : PcWorld) : Option PcWorld :=
  if w.task (.ofConnection n) = .unborn then
    if w.pc.closed then some w
    else
      some { w with
        pc := { w.pc with tasks := w.pc.tasks ++ [.ofConnection n] }
        task := update w.task (.ofConnection n) (.running none) }
  else none

/-- A task of the connection runs to its end. -/
def finish (n : Nat) (w : PcWorld) : Option PcWorld :=
  match w.task (.ofConnection n) with
  | .running _ => some { w with task := update w.task (.ofConnection n) .done }
  | _ => none

/-- The done callback `self._tasks.discard`. -/
def discard (t : TaskId) (w : PcWorld) : Option PcWorld :=
  if w.task t = .done then
    some { w with pc := { w.pc with tasks := w.pc.tasks.filter (· ≠ t) } }
  else none

-- ======================================================== API coroutines

/-- `create_offer()` past its check, and `create_answer()`. -/
def createDescription (t : TaskId) (call : PcCall) (answer : Except Exc Unit)
    (w : PcWorld) : Option PcWorld :=
  if w.answers answer then
    let w' : PcWorld := { w with pc := w.pc.resetBoth }
    match answer with
    | .error e => some (w'.finishCall t call (.raised e))
    | .ok () =>
        some (w'.suspend t (.awaitingGathering call w'.pc.gatheringComplete.ticket))
  else none

/-- `create_offer()`. -/
def createOffer (t : TaskId) (answer : Except Exc Unit) (w : PcWorld) :
    Option PcWorld :=
  if w.pc.closed then
    some (w.finishCall t .createOffer
      (.raised (.connectionClosedError "peer connection is closed")))
  else w.createDescription t .createOffer answer

/-- `create_answer()`. -/
def createAnswer (t : TaskId) (answer : Except Exc Unit) (w : PcWorld) :
    Option PcWorld :=
  w.createDescription t .createAnswer answer

/-- `set_local_description()`. -/
def setLocalDescription (t : TaskId) (answer : Except Exc Unit) (w : PcWorld) :
    Option PcWorld :=
  if w.answers answer then
    let w' : PcWorld := { w with pc := w.pc.resetLocal }
    match answer with
    | .error e => some (w'.finishCall t .setLocalDescription (.raised e))
    | .ok () => some (w'.suspend t (.awaitingLocal w'.pc.localDescription.ticket))
  else none

/-- `create_data_channel()`: the native layer answers with a new
handle. -/
def createDataChannel (t : TaskId) (answer : Except Exc Int) (w : PcWorld) :
    Option PcWorld :=
  if w.answers answer then
    match answer with
    | .error e => some (w.finishCall t .createDataChannel (.raised e))
    | .ok handle =>
        if handle ∈ w.issued then none
        else
          let w' : PcWorld := { w with issued := w.issued ++ [handle] }
          some ((w'.addChannel handle).finishCall t .createDataChannel
            (.returned (.channel handle)))
  else none

/-- `await self._closed_event.wait()`. -/
def awaitClosed (call : PcCall) (t : TaskId) (w : PcWorld) : PcWorld :=
  if w.pc.closedEvent.value then w.finishCall t call (.returned .nothing)
  else
    let w' : PcWorld := { w with
      pc := { w.pc with closedEvent := w.pc.closedEvent.park t } }
    w'.suspend t (.inWaitClosed call)

/-- `aclose()`. -/
def aclose (t : TaskId) (w : PcWorld) : PcWorld := w.close.awaitClosed .aclose t

-- =========================================================== resumption

/-- The default `create_offer` and `create_answer` read their kind
with. -/
def PcCall.defaultType : PcCall → SdpType
  | .createAnswer => .answer
  | _ => .offer

/-- The final read of `create_offer` and `create_answer`, as the two
native getters answer it. -/
def readDescription (call : PcCall)
    (read : Except Exc (Option String × Option String)) : Outcome PcResult Exc :=
  match read with
  | .error e => .raised e
  | .ok (none, _) =>
      .raised (.rtcError "local description not available after gathering" none)
  | .ok (some sdp, kind) =>
      .returned (.description
        { sdp := sdp, type := coerceSdpType kind (PcCall.defaultType call) })

/-- How a task's wait ends, once the future it awaits is settled. -/
def afterGathering (call : PcCall)
    (read : Except Exc (Option String × Option String)) :
    Outcome Unit Exc → Outcome PcResult Exc
  | .returned () => readDescription call read
  | .raised e => .raised e
  | .cancelled => .cancelled

def afterLocal : Outcome LocalDescription Exc → Outcome PcResult Exc
  | .returned desc => .returned (.description desc)
  | .raised e => .raised e
  | .cancelled => .cancelled

/-- A suspended task whose wait is over runs its next step. -/
def resume (t : TaskId) (read : Except Exc (Option String × Option String))
    (w : PcWorld) : Option PcWorld :=
  match w.task t with
  | .awaitingGathering call ticket =>
      match w.pc.gatheringComplete.nth ticket with
      | .settled o => some (w.endWait t call (afterGathering call read o))
      | .pending => none
  | .awaitingLocal ticket =>
      match w.pc.localDescription.nth ticket with
      | .settled o => some (w.endWait t .setLocalDescription (afterLocal o))
      | .pending => none
  | .inWaitClosed call =>
      if w.mustCancel t = true ∨ t ∈ w.pc.closedEvent.woken then
        let w' : PcWorld := { w with
          pc := { w.pc with closedEvent := w.pc.closedEvent.leave t } }
        some (w'.endWait t call (.returned .nothing))
      else none
  | _ => none

/-- The callback scheduled first runs. -/
def dispatch (w : PcWorld) : Option PcWorld :=
  match w.ready with
  | [] => none
  | cb :: rest =>
      let w' : PcWorld := { w with ready := rest }
      match cb with
      | .event (.localDescription desc) =>
          some { w' with pc := w.pc.handleLocalDescription desc }
      | .event (.stateChange state) =>
          some { w' with pc := w.pc.handleStateChange state }
      | .event (.gatheringStateChange state) =>
          some { w' with pc := w.pc.handleGatheringState state }
      | .event (.dataChannel handle) => some (w'.addChannel handle)
      | .destroyDone =>
          some { w' with pc := { w.pc with teardownTask := .destroying .delivered } }

end PcWorld

-- ============================================================== actions

/-- What native threads do. -/
inductive PcNative
  | fire (e : PcEvent)
  | schedule (n : Nat)
  | beginDestroy
  | endDestroy
deriving DecidableEq, Repr

/-- The atomic steps of the loop. -/
inductive PcLoop
  | dispatch
  | close
  | startTeardown
  | resumeTeardown
  | endTeardown
  | spawnTask (n : Nat)
  | finish (n : Nat)
  | discard (t : TaskId)
  | createOffer (t : TaskId) (answer : Except Exc Unit)
  | createAnswer (t : TaskId) (answer : Except Exc Unit)
  | setLocalDescription (t : TaskId) (answer : Except Exc Unit)
  | createDataChannel (t : TaskId) (answer : Except Exc Int)
  | destroyChannel (n : Nat)
  | aclose (t : TaskId)
  | waitClosed (t : TaskId)
  | resume (t : TaskId) (read : Except Exc (Option String × Option String))
  | cancel (t : TaskId)
  | absorb (t : TaskId)

inductive PcAction
  | native (a : PcNative)
  | loop (a : PcLoop)

namespace PcWorld

/-- A call starts from the task's own code. -/
def started (t : TaskId) (w : PcWorld) (w' : Option PcWorld) : Option PcWorld :=
  match w.task t with
  | .running _ => w'
  | _ => none

def applyNative : PcNative → PcWorld → Option PcWorld
  | .fire e, w => w.fire e
  | .schedule n, w => w.schedule n
  | .beginDestroy, w => w.beginDestroy
  | .endDestroy, w => w.endDestroy

def applyLoop : PcLoop → PcWorld → Option PcWorld
  | .dispatch, w => w.dispatch
  | .close, w => some w.close
  | .startTeardown, w => w.startTeardown
  | .resumeTeardown, w => w.resumeTeardown
  | .endTeardown, w => w.endTeardown
  | .spawnTask n, w => w.spawnTask n
  | .finish n, w => w.finish n
  | .discard t, w => w.discard t
  | .createOffer t answer, w => w.started t (w.createOffer t answer)
  | .createAnswer t answer, w => w.started t (w.createAnswer t answer)
  | .setLocalDescription t answer, w => w.started t (w.setLocalDescription t answer)
  | .createDataChannel t answer, w => w.started t (w.createDataChannel t answer)
  | .destroyChannel n, w => w.destroyChannel n
  | .aclose t, w => w.started t (some (w.aclose t))
  | .waitClosed t, w => w.started t (some (w.awaitClosed .waitClosed t))
  | .resume t read, w => w.resume t read
  | .cancel t, w => some (w.cancelTask t)
  | .absorb t, w => w.started t (some (w.clearMustCancel t))

/-- The transition. -/
def apply : PcAction → PcWorld → Option PcWorld
  | .native a, w => applyNative a w
  | .loop a, w => applyLoop a w

end PcWorld

end AioLibDataChannel
