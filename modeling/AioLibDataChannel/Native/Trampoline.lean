/-
The trampolines of `bindings.cpp`: what libdatachannel calls them with,
and the tuple they hand to the Python dispatcher.

All of them are three shapes: no payload, one number, or texts. A text
is a C string and may be a null pointer, which counts as empty; one that
is not UTF-8 makes no `str`, and then there is no tuple and nothing is
dispatched. The message trampoline is a case of its own: the sign of its
size decides between the two.
-/
import AioLibDataChannel.Native.Bindings
import AioLibDataChannel.Wrapper.Dispatch

namespace AioLibDataChannel

/-- A `const char *`: null, or what it points to. -/
abbrev CText := Option (List UInt8)

/-- `std::string(p ? p : "")`, as a `str`. -/
def CText.toStr? (p : CText) : Option (List Char) :=
  CString.decode? (CString.upToNul (p.getD []))

/-- The Python values in a payload. A `str` from C has characters only,
no lone surrogates. -/
inductive PyValue
  | int (n : Int)
  | bool (b : Bool)
  | str (text : List Char)
  | bytes (data : List UInt8)
deriving DecidableEq, Repr

/-- What `safe_call_dispatcher` is given. -/
structure DispatchArgs where
  kind : CallbackKind
  handle : Int
  payload : List PyValue
deriving DecidableEq, Repr

-- =========================================================== trampolines

/-- A callback without a payload. -/
def plainArgs (kind : CallbackKind) (handle : Int) : Option DispatchArgs :=
  some ⟨kind, handle, []⟩

/-- A callback with one number. -/
def numberArgs (kind : CallbackKind) (handle n : Int) : Option DispatchArgs :=
  some ⟨kind, handle, [.int n]⟩

/-- A callback with one text. -/
def textArgs (kind : CallbackKind) (handle : Int) (p : CText) : Option DispatchArgs :=
  p.toStr?.map fun text => ⟨kind, handle, [.str text]⟩

/-- A callback with two. -/
def textsArgs (kind : CallbackKind) (handle : Int) (p q : CText) :
    Option DispatchArgs :=
  match p.toStr?, q.toStr? with
  | some text, some text' => some ⟨kind, handle, [.str text, .str text']⟩
  | _, _ => none

def trLocalDescription (pc : Int) (sdp type : CText) : Option DispatchArgs :=
  textsArgs (.pc .localDescription) pc sdp type

def trLocalCandidate (pc : Int) (cand mid : CText) : Option DispatchArgs :=
  textsArgs (.pc .localCandidate) pc cand mid

def trStateChange (pc state : Int) : Option DispatchArgs :=
  numberArgs (.pc .stateChange) pc state

def trIceStateChange (pc state : Int) : Option DispatchArgs :=
  numberArgs (.pc .iceStateChange) pc state

def trGatheringStateChange (pc state : Int) : Option DispatchArgs :=
  numberArgs (.pc .gatheringStateChange) pc state

def trSignalingStateChange (pc state : Int) : Option DispatchArgs :=
  numberArgs (.pc .signalingStateChange) pc state

def trDataChannel (pc dc : Int) : Option DispatchArgs :=
  numberArgs (.pc .dataChannel) pc dc

def trDcOpen (id : Int) : Option DispatchArgs := plainArgs (.dc .open) id

def trDcClosed (id : Int) : Option DispatchArgs := plainArgs (.dc .closed) id

def trDcError (id : Int) (err : CText) : Option DispatchArgs :=
  textArgs (.dc .error) id err

/-- `tr_dc_message`: the kind of the message travels in the payload
too. -/
def trDcMessageArgs (id : Int) (data : CText) (size : Int) : Option DispatchArgs :=
  if size < 0 then
    data.toStr?.map fun text => ⟨.dc .message, id, [.str text, .bool true]⟩
  else
    some ⟨.dc .message, id, [.bytes ((data.getD []).take size.toNat), .bool false]⟩

def trDcBufferedAmountLow (id : Int) : Option DispatchArgs :=
  plainArgs (.dc .bufferedAmountLow) id

/-- `tr_log`: the level stands where the others have the handle. -/
def trLog (level : Int) (message : CText) : Option DispatchArgs :=
  textArgs .log level message

/-- What libdatachannel calls, with the arguments it calls it with. -/
inductive Upcall
  | localDescription (pc : Int) (sdp type : CText)
  | localCandidate (pc : Int) (cand mid : CText)
  | stateChange (pc state : Int)
  | iceStateChange (pc state : Int)
  | gatheringStateChange (pc state : Int)
  | signalingStateChange (pc state : Int)
  | dataChannel (pc dc : Int)
  | dcOpen (id : Int)
  | dcClosed (id : Int)
  | dcError (id : Int) (err : CText)
  | dcMessage (id : Int) (data : CText) (size : Int)
  | dcBufferedAmountLow (id : Int)
  | log (level : Int) (message : CText)
deriving DecidableEq, Repr

/-- The tuple its trampoline makes. -/
def Upcall.args? : Upcall → Option DispatchArgs
  | localDescription pc sdp type => trLocalDescription pc sdp type
  | localCandidate pc cand mid => trLocalCandidate pc cand mid
  | stateChange pc state => trStateChange pc state
  | iceStateChange pc state => trIceStateChange pc state
  | gatheringStateChange pc state => trGatheringStateChange pc state
  | signalingStateChange pc state => trSignalingStateChange pc state
  | dataChannel pc dc => trDataChannel pc dc
  | dcOpen id => trDcOpen id
  | dcClosed id => trDcClosed id
  | dcError id err => trDcError id err
  | dcMessage id data size => trDcMessageArgs id data size
  | dcBufferedAmountLow id => trDcBufferedAmountLow id
  | log level message => trLog level message

/-- What is passed up that is text, as text. -/
def Upcall.texts : Upcall → List CText
  | localDescription _ sdp type => [sdp, type]
  | localCandidate _ cand mid => [cand, mid]
  | dcError _ err => [err]
  | dcMessage _ data size => if size < 0 then [data] else []
  | log _ message => [message]
  | _ => []

/-- Two texts make arguments if both decode. -/
theorem textsArgs_eq_some {kind : CallbackKind} {handle : Int} {p q : CText}
    {a : DispatchArgs} (h : textsArgs kind handle p q = some a) :
    ∃ text text', p.toStr? = some text ∧ q.toStr? = some text'
      ∧ a = ⟨kind, handle, [.str text, .str text']⟩ := by
  unfold textsArgs at h
  split at h
  next text text' hp hq =>
    cases h
    exact ⟨text, text', hp, hq, rfl⟩
  next => cases h

/-- A tuple is made unless some text is not UTF-8. -/
theorem Upcall.args?_isSome_iff (u : Upcall) :
    u.args?.isSome ↔ ∀ p ∈ u.texts, p.toStr?.isSome := by
  have htexts : ∀ (kind : CallbackKind) (h : Int) (p q : CText),
      (textsArgs kind h p q).isSome ↔ ∀ r ∈ [p, q], r.toStr?.isSome := by
    intro kind h p q
    unfold textsArgs
    cases hp : p.toStr? <;> cases hq : q.toStr? <;> simp [hp, hq]
  have htext : ∀ (kind : CallbackKind) (h : Int) (p : CText),
      (textArgs kind h p).isSome ↔ ∀ r ∈ [p], r.toStr?.isSome := by
    intro kind h p
    simp [textArgs]
  cases u with
  | localDescription pc sdp type => exact htexts _ pc sdp type
  | localCandidate pc cand mid => exact htexts _ pc cand mid
  | dcError id err => exact htext _ id err
  | log level message => exact htext _ level message
  | dcMessage id data size =>
      simp only [args?, trDcMessageArgs, texts]
      split <;> simp
  | _ => simp [args?, texts, trStateChange, trIceStateChange, trGatheringStateChange,
      trSignalingStateChange, trDataChannel, trDcOpen, trDcClosed, trDcBufferedAmountLow,
      numberArgs, plainArgs]

/-- The kind of an upcall. -/
def Upcall.kind : Upcall → CallbackKind
  | localDescription .. => .pc .localDescription
  | localCandidate .. => .pc .localCandidate
  | stateChange .. => .pc .stateChange
  | iceStateChange .. => .pc .iceStateChange
  | gatheringStateChange .. => .pc .gatheringStateChange
  | signalingStateChange .. => .pc .signalingStateChange
  | dataChannel .. => .pc .dataChannel
  | dcOpen .. => .dc .open
  | dcClosed .. => .dc .closed
  | dcError .. => .dc .error
  | dcMessage .. => .dc .message
  | dcBufferedAmountLow .. => .dc .bufferedAmountLow
  | log .. => .log

/-- The handle it is for; a log line's level. -/
def Upcall.handle : Upcall → Int
  | localDescription pc _ _ => pc
  | localCandidate pc _ _ => pc
  | stateChange pc _ => pc
  | iceStateChange pc _ => pc
  | gatheringStateChange pc _ => pc
  | signalingStateChange pc _ => pc
  | dataChannel pc _ => pc
  | dcOpen id => id
  | dcClosed id => id
  | dcError id _ => id
  | dcMessage id _ _ => id
  | dcBufferedAmountLow id => id
  | log level _ => level

/-- The arguments are for the kind and the handle of the upcall. -/
theorem Upcall.args?_spec {u : Upcall} {a : DispatchArgs} (h : u.args? = some a) :
    a.kind = u.kind ∧ a.handle = u.handle := by
  cases u with
  | localDescription pc sdp type =>
      obtain ⟨text, text', -, -, rfl⟩ := textsArgs_eq_some h
      exact ⟨rfl, rfl⟩
  | localCandidate pc cand mid =>
      obtain ⟨text, text', -, -, rfl⟩ := textsArgs_eq_some h
      exact ⟨rfl, rfl⟩
  | dcError id err =>
      obtain ⟨text, -, rfl⟩ := Option.map_eq_some_iff.mp h
      exact ⟨rfl, rfl⟩
  | dcMessage id data size =>
      simp only [args?, trDcMessageArgs] at h
      split at h
      · obtain ⟨text, -, rfl⟩ := Option.map_eq_some_iff.mp h
        exact ⟨rfl, rfl⟩
      · cases h
        exact ⟨rfl, rfl⟩
  | log level message =>
      obtain ⟨text, -, rfl⟩ := Option.map_eq_some_iff.mp h
      exact ⟨rfl, rfl⟩
  | _ =>
      cases h
      exact ⟨rfl, rfl⟩

/-- A log line is a tuple with one text. -/
theorem Upcall.args?_log {u : Upcall} {a : DispatchArgs} (h : u.args? = some a)
    (hk : u.kind = .log) :
    ∃ level message text, u = .log level message ∧ message.toStr? = some text
      ∧ a.payload = [.str text] := by
  cases u with
  | log level message =>
      obtain ⟨text, htext, rfl⟩ := Option.map_eq_some_iff.mp h
      exact ⟨level, message, text, rfl, htext, rfl⟩
  | _ => cases hk

end AioLibDataChannel
