/-
The `PeerConnection` wrapper: its fields for negotiation and shutdown,
and the methods that run to the end without suspending.

Two slots carry a negotiation. `create_offer` and `create_answer` wait
for `gatheringComplete`, `set_local_description` for `localDescription`.
Either is settled by its own callback, or by the report that the
connection is closed or failed — and by nothing else: neither `close()`
nor `_teardown` touches them.

The state events and the three queues behind the public iterators are
not in the record; nothing here reads them, and the machine of the
streams has them beside it.
-/
import AioLibDataChannel.Asyncio.Event
import AioLibDataChannel.Wrapper.Core
import AioLibDataChannel.Wrapper.FutureSlot

namespace AioLibDataChannel

open Asyncio (Event Future Outcome)

/-- `RTCState`. -/
inductive RTCState
  | new
  | connecting
  | connected
  | disconnected
  | failed
  | closed
deriving DecidableEq, Repr

/-- `GatheringState`. -/
inductive GatheringState
  | new
  | inProgress
  | complete
deriving DecidableEq, Repr

/-- `SdpType`. -/
inductive SdpType
  | offer
  | answer
  | pranswer
  | rollback
deriving DecidableEq, Repr

/-- `_coerce_sdp_type`. -/
def coerceSdpType (raw : Option String) (default : SdpType) : SdpType :=
  match raw with
  | some "offer" => .offer
  | some "answer" => .answer
  | some "pranswer" => .pranswer
  | some "rollback" => .rollback
  | _ => default

/-- `LocalDescription`. -/
structure LocalDescription where
  sdp : String
  type : SdpType
deriving DecidableEq, Repr

/-- Where the executor job of `_native.destroy` stands: submitted, past
the registry in `_core`, back from the native delete, known to the
loop. -/
inductive DestroyPhase
  | queued
  | begun
  | deleted
  | delivered
deriving DecidableEq, Repr

/-- Where `_teardown` stands: not created, created but not started,
awaiting the owned tasks it found, awaiting the native destroy,
finished. -/
inductive PcTeardown
  | absent
  | created
  | gathering (snapshot : List TaskId)
  | destroying (phase : DestroyPhase)
  | finished
deriving DecidableEq, Repr

/-- The fields of a `PeerConnection` object. -/
structure PeerConnection where
  native : CorePeerConnection
  state : RTCState
  gatheringState : GatheringState
  localDescription : FutureSlot LocalDescription Exc
  gatheringComplete : FutureSlot Unit Exc
  closed : Bool
  closedEvent : Event TaskId
  tasks : List TaskId
  teardownTask : PcTeardown

namespace PeerConnection

-- ======================================================== construction

/-- The seven `set_on_*` calls of `__init__`. -/
def registerCallbacks (native : CorePeerConnection) : CorePeerConnection :=
  ((((((native.setOn .localDescription).setOn .localCandidate).setOn
    .stateChange).setOn .iceStateChange).setOn .gatheringStateChange).setOn
    .signalingStateChange).setOn .dataChannel

/-- `PeerConnection.__init__`. -/
def create (handle : Int) (core : Core) : Core × PeerConnection :=
  let (core, native) := CorePeerConnection.create handle core
  (core,
    { native := registerCallbacks native
      state := .new
      gatheringState := .new
      localDescription := FutureSlot.new
      gatheringComplete := FutureSlot.new
      closed := false
      closedEvent := Event.new
      tasks := []
      teardownTask := .absent })

-- ========================================================= dispatchers

/-- `_handle_local_description`. -/
def handleLocalDescription (desc : LocalDescription) (pc : PeerConnection) :
    PeerConnection :=
  { pc with localDescription := pc.localDescription.set desc }

/-- `_handle_state_change`. -/
def handleStateChange (state : RTCState) (pc : PeerConnection) : PeerConnection :=
  if state = .closed ∨ state = .failed then
    { pc with
      state := state
      localDescription := if pc.localDescription.future.done then pc.localDescription
        else pc.localDescription.fail (.connectionClosedError "peer connection closed")
      gatheringComplete := if pc.gatheringComplete.future.done
        then pc.gatheringComplete else pc.gatheringComplete.set () }
  else { pc with state := state }

/-- `_handle_gathering_state`. -/
def handleGatheringState (state : GatheringState) (pc : PeerConnection) :
    PeerConnection :=
  { pc with
    gatheringState := state
    gatheringComplete := if state = .complete then pc.gatheringComplete.set ()
      else pc.gatheringComplete }

-- ========================================================= negotiation

/-- The two `reset` calls of `create_offer` and `create_answer`. -/
def resetBoth (pc : PeerConnection) : PeerConnection :=
  { pc with
    localDescription := pc.localDescription.reset
    gatheringComplete := pc.gatheringComplete.reset }

/-- The `reset` of `set_local_description`. -/
def resetLocal (pc : PeerConnection) : PeerConnection :=
  { pc with localDescription := pc.localDescription.reset }

end PeerConnection

end AioLibDataChannel
