/-
The `_cb_*` methods of a `PeerConnection`: what the native callbacks
schedule on the loop, from the arguments `_dispatch` calls them with.

Each makes its argument into what its dispatcher takes and schedules the
dispatcher. The four state changes share one shape: the number goes
through an `IntEnum`, which raises `ValueError` for one that is no
member, and then nothing is scheduled.
-/
import AioLibDataChannel.IntEnum.Basic
import AioLibDataChannel.Native.Trampoline
import AioLibDataChannel.PeerConnection.Streams

namespace AioLibDataChannel

-- ================================================================= enums

/-- `RTCState`, as an `IntEnum`. -/
def RTCState.enum : IntEnum RTCState where
  members := [.new, .connecting, .connected, .disconnected, .failed, .closed]
  value
    | .new => 0
    | .connecting => 1
    | .connected => 2
    | .disconnected => 3
    | .failed => 4
    | .closed => 5
  complete := fun e => by cases e <;> decide
  distinct := fun e e' => by cases e <;> cases e' <;> decide

/-- `ICEState`. -/
def IceState.enum : IntEnum IceState where
  members := [.new, .checking, .connected, .completed, .failed, .disconnected, .closed]
  value
    | .new => 0
    | .checking => 1
    | .connected => 2
    | .completed => 3
    | .failed => 4
    | .disconnected => 5
    | .closed => 6
  complete := fun e => by cases e <;> decide
  distinct := fun e e' => by cases e <;> cases e' <;> decide

/-- `GatheringState`. -/
def GatheringState.enum : IntEnum GatheringState where
  members := [.new, .inProgress, .complete]
  value
    | .new => 0
    | .inProgress => 1
    | .complete => 2
  complete := fun e => by cases e <;> decide
  distinct := fun e e' => by cases e <;> cases e' <;> decide

/-- `SignalingState`. -/
def SignalingState.enum : IntEnum SignalingState where
  members := [.stable, .haveLocalOffer, .haveRemoteOffer, .haveLocalPranswer,
    .haveRemotePranswer]
  value
    | .stable => 0
    | .haveLocalOffer => 1
    | .haveRemoteOffer => 2
    | .haveLocalPranswer => 3
    | .haveRemotePranswer => 4
  complete := fun e => by cases e <;> decide
  distinct := fun e e' => by cases e <;> cases e' <;> decide

-- ============================================================= arguments

/-- Why a callback schedules nothing: it was called with the wrong
number of arguments, or with a number that is no member. `unannotated`
is for arguments of other types than the method declares: Python would
go on with them, and no trampoline makes any. -/
inductive CallbackError
  | typeError
  | valueError
  | unannotated
deriving DecidableEq, Repr

/-- `E(v)` for an `IntEnum`: a member equals its number, and `True` is
1. -/
def PyValue.member? {ε : Type} (E : IntEnum ε) : PyValue → Option ε
  | int n => E.ofValue? n
  | bool b => E.ofValue? (if b then 1 else 0)
  | str _ => none
  | bytes _ => none

namespace StreamWorld

-- ============================================================ the methods

/-- `_cb_local_description`. -/
def cbLocalDescription : List PyValue → Except CallbackError Dispatch
  | [.str sdp, .str type] =>
      .ok (.localDescription
        { sdp := String.ofList sdp
          type := coerceSdpType (some (String.ofList type)) .offer })
  | [_, _] => .error .unannotated
  | _ => .error .typeError

/-- `_cb_local_candidate`. -/
def cbLocalCandidate : List PyValue → Except CallbackError Dispatch
  | [.str candidate, .str mid] =>
      .ok (.localCandidate
        { candidate := String.ofList candidate, mid := String.ofList mid })
  | [_, _] => .error .unannotated
  | _ => .error .typeError

/-- The four that report a state. -/
def cbState {ε : Type} (E : IntEnum ε) (report : ε → Dispatch) :
    List PyValue → Except CallbackError Dispatch
  | [v] =>
      match v.member? E with
      | some state => .ok (report state)
      | none => .error .valueError
  | _ => .error .typeError

/-- `_cb_state_change`. -/
def cbStateChange : List PyValue → Except CallbackError Dispatch :=
  cbState RTCState.enum .stateChange

/-- `_cb_ice_state_change`. -/
def cbIceStateChange : List PyValue → Except CallbackError Dispatch :=
  cbState IceState.enum .iceState

/-- `_cb_gathering_state_change`. -/
def cbGatheringStateChange : List PyValue → Except CallbackError Dispatch :=
  cbState GatheringState.enum .gatheringState

/-- `_cb_signaling_state_change`. -/
def cbSignalingStateChange : List PyValue → Except CallbackError Dispatch :=
  cbState SignalingState.enum .signalingState

/-- `_cb_data_channel`. -/
def cbDataChannel : List PyValue → Except CallbackError Dispatch
  | [.int handle] => .ok (.incomingDc handle)
  | [_] => .error .unannotated
  | _ => .error .typeError

/-- The method that `__init__` registers for a kind. -/
def callback : PcKind → List PyValue → Except CallbackError Dispatch
  | .localDescription => cbLocalDescription
  | .localCandidate => cbLocalCandidate
  | .stateChange => cbStateChange
  | .iceStateChange => cbIceStateChange
  | .gatheringStateChange => cbGatheringStateChange
  | .signalingStateChange => cbSignalingStateChange
  | .dataChannel => cbDataChannel

-- ============================================================ the meaning

/-- What libdatachannel says with an upcall about a connection: the
dispatcher that should run. A number no enumeration knows says
nothing. -/
def report? : Upcall → Option Dispatch
  | .localDescription _ sdp type =>
      match sdp.toStr?, type.toStr? with
      | some sdp, some type =>
          some (.localDescription
            { sdp := String.ofList sdp
              type := coerceSdpType (some (String.ofList type)) .offer })
      | _, _ => none
  | .localCandidate _ cand mid =>
      match cand.toStr?, mid.toStr? with
      | some cand, some mid =>
          some (.localCandidate
            { candidate := String.ofList cand, mid := String.ofList mid })
      | _, _ => none
  | .stateChange _ state => (RTCState.enum.ofValue? state).map .stateChange
  | .iceStateChange _ state => (IceState.enum.ofValue? state).map .iceState
  | .gatheringStateChange _ state => (GatheringState.enum.ofValue? state).map .gatheringState
  | .signalingStateChange _ state => (SignalingState.enum.ofValue? state).map .signalingState
  | .dataChannel _ dc => some (.incomingDc dc)
  | _ => none

/-- A number through an enumeration: it is a member, or the callback
raises. -/
theorem cbState_int {ε : Type} (E : IntEnum ε) (report : ε → Dispatch) (n : Int) :
    cbState E report [.int n]
      = ((E.ofValue? n).map report).elim (.error .valueError) .ok := by
  simp only [cbState, PyValue.member?]
  cases E.ofValue? n <;> rfl

/-- The payload of a trampoline is what its callback takes: the callback
schedules what the upcall means, and fails only for a number that means
nothing. -/
theorem callback_args {u : Upcall} {a : DispatchArgs} {kind : PcKind}
    (ha : u.args? = some a) (hk : u.kind = .pc kind) :
    callback kind a.payload = (report? u).elim (.error .valueError) .ok := by
  cases u with
  | localDescription pc sdp type =>
      obtain ⟨text, text', hs, ht, rfl⟩ := textsArgs_eq_some ha
      cases hk
      simp only [report?, hs, ht]
      rfl
  | localCandidate pc cand mid =>
      obtain ⟨text, text', hs, ht, rfl⟩ := textsArgs_eq_some ha
      cases hk
      simp only [report?, hs, ht]
      rfl
  | stateChange pc state =>
      cases ha
      cases hk
      exact cbState_int _ _ state
  | iceStateChange pc state =>
      cases ha
      cases hk
      exact cbState_int _ _ state
  | gatheringStateChange pc state =>
      cases ha
      cases hk
      exact cbState_int _ _ state
  | signalingStateChange pc state =>
      cases ha
      cases hk
      exact cbState_int _ _ state
  | dataChannel pc dc =>
      cases ha
      cases hk
      rfl
  | _ => cases hk

/-- What means something makes a tuple. -/
theorem args?_of_report? {u : Upcall} {d : Dispatch} (h : report? u = some d) :
    ∃ a kind, u.args? = some a ∧ u.kind = .pc kind := by
  cases u with
  | localDescription pc sdp type =>
      simp only [report?] at h
      split at h
      next text text' hs ht =>
        refine ⟨⟨.pc .localDescription, pc, [.str text, .str text']⟩, _, ?_, rfl⟩
        simp only [Upcall.args?, trLocalDescription, textsArgs, hs, ht]
      next => cases h
  | localCandidate pc cand mid =>
      simp only [report?] at h
      split at h
      next text text' hs ht =>
        refine ⟨⟨.pc .localCandidate, pc, [.str text, .str text']⟩, _, ?_, rfl⟩
        simp only [Upcall.args?, trLocalCandidate, textsArgs, hs, ht]
      next => cases h
  | stateChange pc state => exact ⟨_, _, rfl, rfl⟩
  | iceStateChange pc state => exact ⟨_, _, rfl, rfl⟩
  | gatheringStateChange pc state => exact ⟨_, _, rfl, rfl⟩
  | signalingStateChange pc state => exact ⟨_, _, rfl, rfl⟩
  | dataChannel pc dc => exact ⟨_, _, rfl, rfl⟩
  | _ => cases h

-- ========================================================= unknown states

/-- The number of a state change, and how many states there are. -/
def state? : Upcall → Option (Int × Nat)
  | .stateChange _ state => some (state, RTCState.enum.members.length)
  | .iceStateChange _ state => some (state, IceState.enum.members.length)
  | .gatheringStateChange _ state => some (state, GatheringState.enum.members.length)
  | .signalingStateChange _ state => some (state, SignalingState.enum.members.length)
  | _ => none

/-- An upcall about a connection that makes a tuple means nothing just
when it is a state change with a number out of range: the states are
numbered from zero without a gap. -/
theorem report?_eq_none_iff {u : Upcall} {a : DispatchArgs} {kind : PcKind}
    (ha : u.args? = some a) (hk : u.kind = .pc kind) :
    report? u = none ↔ ∃ n k, state? u = some (n, k) ∧ ¬ (0 ≤ n ∧ n < k) := by
  have hstate : ∀ {ε : Type} (E : IntEnum ε) (f : ε → Dispatch) (n : Int),
      E.members.map E.value = (List.range E.members.length).map Int.ofNat →
      ((E.ofValue? n).map f = none ↔ ∃ m k, some (n, E.members.length) = some (m, k)
        ∧ ¬ (0 ≤ m ∧ m < k)) := by
    intro ε E f n hcodes
    rw [Option.map_eq_none_iff, ← Option.not_isSome_iff_eq_none,
      IntEnum.ofValue?_isSome_iff hcodes]
    constructor
    · exact fun hn => ⟨n, _, rfl, hn⟩
    · rintro ⟨m, k, heq, hn⟩
      cases heq
      exact hn
  have hsome : ∀ {d : Dispatch}, some d = none ↔ ∃ n k, (none : Option (Int × Nat))
      = some (n, k) ∧ ¬ (0 ≤ n ∧ n < k) := by
    intro d
    constructor
    · intro h
      cases h
    · rintro ⟨n, k, h, -⟩
      cases h
  cases u with
  | localDescription pc sdp type =>
      obtain ⟨text, text', hs, ht, rfl⟩ := textsArgs_eq_some ha
      simp only [report?, hs, ht]
      exact hsome
  | localCandidate pc cand mid =>
      obtain ⟨text, text', hs, ht, rfl⟩ := textsArgs_eq_some ha
      simp only [report?, hs, ht]
      exact hsome
  | stateChange pc state => exact hstate RTCState.enum _ state (by decide)
  | iceStateChange pc state => exact hstate IceState.enum _ state (by decide)
  | gatheringStateChange pc state => exact hstate GatheringState.enum _ state (by decide)
  | signalingStateChange pc state => exact hstate SignalingState.enum _ state (by decide)
  | dataChannel pc dc => exact hsome
  | _ => cases hk

end StreamWorld

end AioLibDataChannel
