/-
The `_cb_*` methods of a `DataChannel`: what the native callbacks
schedule on the loop, from the arguments `_dispatch` calls them with.

`_dispatch` has taken the flag off a message by then, so text and bytes
are told apart by their Python type only.
-/
import AioLibDataChannel.DataChannel.Machine
import AioLibDataChannel.PeerConnection.Callbacks

namespace AioLibDataChannel

namespace DcWorld

-- ============================================================ the methods

/-- A method without arguments. -/
def cbPlain (e : DcEvent) : List PyValue → Except CallbackError DcEvent
  | [] => .ok e
  | _ => .error .typeError

/-- `_cb_open`. -/
def cbOpen : List PyValue → Except CallbackError DcEvent := cbPlain .opened

/-- `_cb_closed`. -/
def cbClosed : List PyValue → Except CallbackError DcEvent := cbPlain .closed

/-- `_cb_error`. -/
def cbError : List PyValue → Except CallbackError DcEvent
  | [.str message] => .ok (.error (String.ofList message))
  | [_] => .error .unannotated
  | _ => .error .typeError

/-- `_cb_message`. -/
def cbMessage : List PyValue → Except CallbackError DcEvent
  | [.str text] => .ok (.message (.str (PyStr.ofChars text)))
  | [.bytes data] => .ok (.message (.bytes data))
  | [_] => .error .unannotated
  | _ => .error .typeError

/-- `_cb_buffered_low`. -/
def cbBufferedLow : List PyValue → Except CallbackError DcEvent := cbPlain .bufferedLow

/-- The method that `__init__` registers for a kind. -/
def callback : DcKind → List PyValue → Except CallbackError DcEvent
  | .open => cbOpen
  | .closed => cbClosed
  | .error => cbError
  | .message => cbMessage
  | .bufferedAmountLow => cbBufferedLow

-- ============================================================ the meaning

/-- What libdatachannel says with an upcall about a channel. -/
def report? : Upcall → Option DcEvent
  | .dcOpen _ => some .opened
  | .dcClosed _ => some .closed
  | .dcError _ err => err.toStr?.map fun text => .error (String.ofList text)
  | .dcMessage _ data size => (trDcMessage (data.getD []) size).map .message
  | .dcBufferedAmountLow _ => some .bufferedLow
  | _ => none

/-- The message trampoline and the flag that `_dispatch` drops: what
arrives at `_cb_message` is the message. -/
theorem cbMessage_args {id : Int} {data : CText} {size : Int} {a : DispatchArgs}
    (ha : trDcMessageArgs id data size = some a) :
    ∃ args m, CoreWorld.channelArgs .message a.payload = .ok args
      ∧ cbMessage args = .ok (.message m)
      ∧ trDcMessage (data.getD []) size = some m := by
  unfold trDcMessageArgs at ha
  split at ha
  next hneg =>
    obtain ⟨text, htext, rfl⟩ := Option.map_eq_some_iff.mp ha
    refine ⟨[.str text], .str (PyStr.ofChars text), rfl, rfl, ?_⟩
    rw [trDcMessage_of_neg hneg]
    exact Option.map_eq_some_iff.mpr ⟨text, htext, rfl⟩
  next hneg =>
    cases ha
    exact ⟨[.bytes ((data.getD []).take size.toNat)], _, rfl, rfl,
      trDcMessage_of_nonneg (Int.not_lt.mp hneg)⟩

/-- The payload of a trampoline, past `_dispatch`, is what its callback
takes: the callback schedules what the upcall means. -/
theorem callback_args {u : Upcall} {a : DispatchArgs} {kind : DcKind}
    (ha : u.args? = some a) (hk : u.kind = .dc kind) :
    ∃ args e, CoreWorld.channelArgs kind a.payload = .ok args
      ∧ callback kind args = .ok e ∧ report? u = some e := by
  cases u with
  | dcOpen id =>
      cases ha
      cases hk
      exact ⟨[], .opened, rfl, rfl, rfl⟩
  | dcClosed id =>
      cases ha
      cases hk
      exact ⟨[], .closed, rfl, rfl, rfl⟩
  | dcError id err =>
      obtain ⟨text, htext, rfl⟩ := Option.map_eq_some_iff.mp ha
      cases hk
      exact ⟨[.str text], .error (String.ofList text), rfl, rfl,
        Option.map_eq_some_iff.mpr ⟨text, htext, rfl⟩⟩
  | dcMessage id data size =>
      obtain ⟨args, m, hargs, hcb, hm⟩ := cbMessage_args ha
      cases hk
      exact ⟨args, .message m, hargs, hcb, Option.map_eq_some_iff.mpr ⟨m, hm, rfl⟩⟩
  | dcBufferedAmountLow id =>
      cases ha
      cases hk
      exact ⟨[], .bufferedLow, rfl, rfl, rfl⟩
  | _ => cases hk

end DcWorld

end AioLibDataChannel
