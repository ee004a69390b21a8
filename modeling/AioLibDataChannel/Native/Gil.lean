/-
The locks of `bindings.cpp`: the GIL, and the mutexes libdatachannel
holds while it calls back.

A thread is the code it has still to run (`Instr`). What a binding
function adds to it is a call of some `rtc*` functions, inside the
`no_gil` helper or not (`Binding.releasesGil`); what a trampoline adds
is Python code, under the GIL, and Python code may call any binding
function.

# libdatachannel

What an `rtc*` call does inside is `Native` code: a mutex is taken, more
may happen, a callback is called while it is held. The library chooses,
within what is assumed of it (`RtcCall.allows`). A function that sets a
callback takes that callback's mutex. A function that only reads or
writes a field takes none, but a log line takes the log callback's, and
any call that does not know its handle may emit one. Whether it may with
a handle it knows is left open (`mayLog`).

The mutexes are recursive: a thread may take one again that it holds.
-/
import AioLibDataChannel.Transition.Run
import AioLibDataChannel.Wrapper.Dispatch

namespace AioLibDataChannel

open Function (update)

/-- A mutex that is held while a callback runs. -/
inductive CbMutex
  | pc (kind : PcKind) (handle : Int)
  | dc (kind : DcKind) (handle : Int)
  | log
deriving DecidableEq, Repr

/-- The functions of libdatachannel that the bindings call. -/
inductive RtcCall
  | createPeerConnection
  | closePeerConnection (pc : Int)
  | deletePeerConnection (pc : Int)
  | setPcCallback (kind : PcKind) (pc : Int) (enable : Bool)
  | setLocalDescription (pc : Int)
  | setRemoteDescription (pc : Int)
  | addRemoteCandidate (pc : Int)
  | getLocalDescription (pc : Int)
  | getRemoteDescription (pc : Int)
  | getLocalDescriptionType (pc : Int)
  | createDataChannelEx (pc : Int)
  | deleteDataChannel (dc : Int)
  | setDcCallback (kind : DcKind) (dc : Int) (enable : Bool)
  | sendMessage (dc : Int)
  | isOpen (dc : Int)
  | isClosed (dc : Int)
  | getBufferedAmount (dc : Int)
  | maxMessageSize (dc : Int)
  | setBufferedAmountLowThreshold (dc : Int)
  | getDataChannelLabel (dc : Int)
  | getDataChannelProtocol (dc : Int)
  | getDataChannelStream (dc : Int)
  | close (dc : Int)
  | initLogger (enable : Bool)
  | preload
  | cleanup
  | setThreadPoolSize
deriving DecidableEq, Repr

/-- The functions of the `_native` module. -/
inductive Binding
  | registerDispatcher
  | createPeerConnection
  | closePeerConnection (pc : Int)
  | deletePeerConnection (pc : Int)
  | setPcCallback (kind : PcKind) (pc : Int) (enable : Bool)
  | setLocalDescription (pc : Int)
  | setRemoteDescription (pc : Int)
  | addRemoteCandidate (pc : Int)
  | getLocalDescription (pc : Int)
  | getRemoteDescription (pc : Int)
  | getLocalDescriptionType (pc : Int)
  | createDataChannel (pc : Int)
  | deleteDataChannel (dc : Int)
  | setDcCallback (kind : DcKind) (dc : Int) (enable : Bool)
  | sendBytes (dc : Int)
  | sendText (dc : Int)
  | isOpen (dc : Int)
  | isClosed (dc : Int)
  | bufferedAmount (dc : Int)
  | maxMessageSize (dc : Int)
  | setBufferedAmountLowThreshold (dc : Int)
  | getDcLabel (dc : Int)
  | getDcProtocol (dc : Int)
  | getDcStream (dc : Int)
  | closeDc (dc : Int)
  | initLogger (enable : Bool)
  | preload
  | cleanup
  | setThreadPoolSize
deriving DecidableEq, Repr

namespace Binding

/-- Its `rtc*` calls are inside `no_gil`. -/
def releasesGil : Binding → Bool
  | registerDispatcher => false
  | createPeerConnection => true
  | closePeerConnection _ => true
  | deletePeerConnection _ => true
  | setPcCallback .. => true
  | setLocalDescription _ => true
  | setRemoteDescription _ => true
  | addRemoteCandidate _ => true
  | getLocalDescription _ => false
  | getRemoteDescription _ => false
  | getLocalDescriptionType _ => false
  | createDataChannel _ => true
  | deleteDataChannel _ => true
  | setDcCallback .. => true
  | sendBytes _ => true
  | sendText _ => true
  | isOpen _ => false
  | isClosed _ => false
  | bufferedAmount _ => false
  | maxMessageSize _ => false
  | setBufferedAmountLowThreshold _ => false
  | getDcLabel _ => false
  | getDcProtocol _ => false
  | getDcStream _ => false
  | closeDc _ => true
  | initLogger _ => true
  | preload => true
  | cleanup => true
  | setThreadPoolSize => false

/-- `read_string`: the length is asked for first, and then, `again`, the
text. -/
def readString (getter : RtcCall) (again : Bool) : List RtcCall :=
  if again then [getter, getter] else [getter]

/-- The `rtc*` calls it makes, in order. -/
def rtcCalls (again : Bool) : Binding → List RtcCall
  | registerDispatcher => []
  | createPeerConnection => [.createPeerConnection]
  | closePeerConnection pc => [.closePeerConnection pc]
  | deletePeerConnection pc =>
      [.setPcCallback .localDescription pc false, .setPcCallback .localCandidate pc false,
        .setPcCallback .stateChange pc false, .setPcCallback .iceStateChange pc false,
        .setPcCallback .gatheringStateChange pc false,
        .setPcCallback .signalingStateChange pc false,
        .setPcCallback .dataChannel pc false, .deletePeerConnection pc]
  | setPcCallback kind pc enable => [.setPcCallback kind pc enable]
  | setLocalDescription pc => [.setLocalDescription pc]
  | setRemoteDescription pc => [.setRemoteDescription pc]
  | addRemoteCandidate pc => [.addRemoteCandidate pc]
  | getLocalDescription pc => readString (.getLocalDescription pc) again
  | getRemoteDescription pc => readString (.getRemoteDescription pc) again
  | getLocalDescriptionType pc => readString (.getLocalDescriptionType pc) again
  | createDataChannel pc => [.createDataChannelEx pc]
  | deleteDataChannel dc =>
      [.setDcCallback .open dc false, .setDcCallback .closed dc false,
        .setDcCallback .error dc false, .setDcCallback .message dc false,
        .setDcCallback .bufferedAmountLow dc false, .deleteDataChannel dc]
  | setDcCallback kind dc enable => [.setDcCallback kind dc enable]
  | sendBytes dc => [.sendMessage dc]
  | sendText dc => [.sendMessage dc]
  | isOpen dc => [.isOpen dc]
  | isClosed dc => [.isClosed dc]
  | bufferedAmount dc => [.getBufferedAmount dc]
  | maxMessageSize dc => [.maxMessageSize dc]
  | setBufferedAmountLowThreshold dc => [.setBufferedAmountLowThreshold dc]
  | getDcLabel dc => readString (.getDataChannelLabel dc) again
  | getDcProtocol dc => readString (.getDataChannelProtocol dc) again
  | getDcStream dc => [.getDataChannelStream dc]
  | closeDc dc => [.close dc]
  | initLogger enable => [.initLogger enable]
  | preload => [.preload]
  | cleanup => [.cleanup]
  | setThreadPoolSize => [.setThreadPoolSize]

end Binding

-- ========================================================= native code

/-- Code of libdatachannel, as far as locks go: a mutex is taken, some
more code runs, the callback is called if it `fires`, and the mutex is
given back. A log line is this with the log callback's mutex. -/
inductive Native
  | done
  | guarded (m : CbMutex) (before : Native) (fires : Bool) (next : Native)
deriving DecidableEq, Repr

namespace Native

/-- It takes this mutex. -/
def takes (m : CbMutex) : Native → Bool
  | done => false
  | guarded m' before _ next => decide (m' = m) || before.takes m || next.takes m

/-- It calls the callback of this mutex. -/
def calls (m : CbMutex) : Native → Bool
  | done => false
  | guarded m' before fires next =>
      (decide (m' = m) && fires) || before.calls m || next.calls m

/-- It only emits log lines. -/
def logsOnly : Native → Bool
  | done => true
  | guarded m before _ next => decide (m = .log) && before.logsOnly && next.logsOnly

end Native

/-- What an `rtc*` function does with callbacks: it sets one, it only
reads or writes a field, or it does anything. -/
inductive RtcKind
  | setter (m : CbMutex) (enable : Bool)
  | plain
  | work
deriving DecidableEq, Repr

namespace RtcCall

def kind : RtcCall → RtcKind
  | createPeerConnection => .work
  | closePeerConnection _ => .work
  | deletePeerConnection _ => .work
  | setPcCallback k pc enable => .setter (.pc k pc) enable
  | setLocalDescription _ => .work
  | setRemoteDescription _ => .work
  | addRemoteCandidate _ => .work
  | getLocalDescription _ => .plain
  | getRemoteDescription _ => .plain
  | getLocalDescriptionType _ => .plain
  | createDataChannelEx _ => .work
  | deleteDataChannel _ => .work
  | setDcCallback k dc enable => .setter (.dc k dc) enable
  | sendMessage _ => .work
  | isOpen _ => .plain
  | isClosed _ => .plain
  | getBufferedAmount _ => .plain
  | maxMessageSize _ => .plain
  | setBufferedAmountLowThreshold _ => .plain
  | getDataChannelLabel _ => .plain
  | getDataChannelProtocol _ => .plain
  | getDataChannelStream _ => .plain
  | close _ => .work
  | initLogger enable => .setter .log enable
  | preload => .work
  | cleanup => .work
  | setThreadPoolSize => .plain

/-- The handle it is given, if any. -/
def handle? : RtcCall → Option Int
  | closePeerConnection pc => some pc
  | deletePeerConnection pc => some pc
  | setPcCallback _ pc _ => some pc
  | setLocalDescription pc => some pc
  | setRemoteDescription pc => some pc
  | addRemoteCandidate pc => some pc
  | getLocalDescription pc => some pc
  | getRemoteDescription pc => some pc
  | getLocalDescriptionType pc => some pc
  | createDataChannelEx pc => some pc
  | deleteDataChannel dc => some dc
  | setDcCallback _ dc _ => some dc
  | sendMessage dc => some dc
  | isOpen dc => some dc
  | isClosed dc => some dc
  | getBufferedAmount dc => some dc
  | maxMessageSize dc => some dc
  | setBufferedAmountLowThreshold dc => some dc
  | getDataChannelLabel dc => some dc
  | getDataChannelProtocol dc => some dc
  | getDataChannelStream dc => some dc
  | close dc => some dc
  | createPeerConnection => none
  | initLogger _ => none
  | preload => none
  | cleanup => none
  | setThreadPoolSize => none

/-- It knows the handle it is given. -/
def known (live : List Int) (c : RtcCall) : Bool :=
  c.handle?.all fun h => decide (h ∈ live)

/-- What is assumed of libdatachannel: what it may do in this call. -/
def allows (mayLog : RtcCall → Bool) (live : List Int) (c : RtcCall) (n : Native) :
    Bool :=
  if c.known live then
    match c.kind with
    | .setter m enable => n.takes m && (enable || !n.calls m)
    | .plain => if mayLog c then n.logsOnly else decide (n = .done)
    | .work => true
  else n.logsOnly

/-- The handles after the call. -/
def forgets (live : List Int) : RtcCall → List Int
  | deletePeerConnection pc => live.filter (· ≠ pc)
  | deleteDataChannel dc => live.filter (· ≠ dc)
  | cleanup => []
  | _ => live

end RtcCall

-- =============================================================== threads

/-- What a thread has to run. `trampoline` is a callback of
libdatachannel: `gil_scoped_acquire`, then Python. -/
inductive Instr
  | python
  | acquireGil
  | releaseGil
  | lock (m : CbMutex)
  | unlock (m : CbMutex)
  | trampoline
  | rtc (c : RtcCall)
deriving DecidableEq, Repr

def Native.code : Native → List Instr
  | done => []
  | guarded m before fires next =>
      .lock m :: (before.code ++ (if fires then [.trampoline] else []))
        ++ .unlock m :: next.code

/-- A binding function. -/
def Binding.code (b : Binding) (again : Bool) : List Instr :=
  if b.releasesGil then
    .releaseGil :: (b.rtcCalls again).map Instr.rtc ++ [.acquireGil]
  else (b.rtcCalls again).map Instr.rtc

/-- Who holds the GIL, who holds each mutex and how often, what the
threads have to run, and the handles libdatachannel knows. -/
structure LockWorld where
  gil : Option Nat
  owner : CbMutex → Option (Nat × Nat)
  code : Nat → List Instr
  live : List Int

namespace LockWorld

/-- Before any thread has started. -/
def init : LockWorld where
  gil := none
  owner := fun _ => none
  code := fun _ => []
  live := []

inductive Action
  | startPython (t : Nat)
  | startWorker (t : Nat) (n : Native)
  | issue (handle : Int)
  | call (t : Nat) (b : Binding) (again : Bool)
  | ret (t : Nat)
  | switch (t : Nat)
  | rtc (t : Nat) (n : Native)
  | step (t : Nat)
deriving DecidableEq, Repr

def setCode (t : Nat) (code : List Instr) (w : LockWorld) : LockWorld :=
  { w with code := update w.code t code }

/-- A thread that has nothing to run starts: Python code, or native code
of a worker. -/
def start (t : Nat) (code : List Instr) (w : LockWorld) : Option LockWorld :=
  match w.code t with
  | [] => some (w.setCode t code)
  | _ => none

/-- Python code of a thread goes on: it calls a binding function, returns,
or lets another thread have the GIL. -/
def python (t : Nat) (f : List Instr → LockWorld → LockWorld) (w : LockWorld) :
    Option LockWorld :=
  match w.code t with
  | .python :: rest => if w.gil = some t then some (f rest w) else none
  | _ => none

/-- An `rtc*` call is made, and does `n` inside. -/
def callRtc (mayLog : RtcCall → Bool) (t : Nat) (n : Native) (w : LockWorld) :
    Option LockWorld :=
  match w.code t with
  | .rtc c :: rest =>
      if c.allows mayLog w.live n then
        some { w.setCode t (n.code ++ rest) with live := c.forgets w.live }
      else none
  | _ => none

/-- A lock is taken or given back. -/
def lockStep (t : Nat) (w : LockWorld) : Option LockWorld :=
  match w.code t with
  | .acquireGil :: rest =>
      if w.gil = none then some { w.setCode t rest with gil := some t } else none
  | .releaseGil :: rest =>
      if w.gil = some t then some { w.setCode t rest with gil := none } else none
  | .lock m :: rest =>
      match w.owner m with
      | none => some { w.setCode t rest with owner := update w.owner m (some (t, 1)) }
      | some (u, depth) =>
          if u = t then
            some { w.setCode t rest with owner := update w.owner m (some (t, depth + 1)) }
          else none
  | .unlock m :: rest =>
      match w.owner m with
      | none => none
      | some (u, depth) =>
          if u = t then
            some { w.setCode t rest with
              owner := update w.owner m (if depth ≤ 1 then none else some (t, depth - 1)) }
          else none
  | .trampoline :: rest =>
      match w.gil with
      | none => some { w.setCode t (.python :: .releaseGil :: rest) with gil := some t }
      | some u => if u = t then some (w.setCode t (.python :: rest)) else none
  | _ => none

/-- The transition. -/
def apply (mayLog : RtcCall → Bool) : Action → LockWorld → Option LockWorld
  | .startPython t, w => w.start t [.acquireGil, .python, .releaseGil]
  | .startWorker t n, w => w.start t n.code
  | .issue handle, w =>
      if handle ∈ w.live then none else some { w with live := w.live ++ [handle] }
  | .call t b again, w =>
      w.python t fun rest w => w.setCode t (b.code again ++ .python :: rest)
  | .ret t, w => w.python t fun rest w => w.setCode t rest
  | .switch t, w =>
      w.python t fun rest w =>
        { w.setCode t (.acquireGil :: .python :: rest) with gil := none }
  | .rtc t n, w => w.callRtc mayLog t n
  | .step t, w => w.lockStep t

end LockWorld

end AioLibDataChannel
