/-
The options of a channel and of a connection, on their way into the
structs of the C API.

Python turns each optional number into a flag and a number, zero for
`None`; the binding narrows the stream and the two ports to 16 bits and
hands the protocol over as NUL-terminated text. Numbers beyond a C `int`
are refused before that, by nanobind.

`init_eq_iff` says which options come out as one record: two that differ
in how they spell a limit of zero, or in what stands behind a U+0000 of
the protocol. `keepsOptions_iff` adds the numbers that do not fit 16
bits, and that is all that is lost.

The headers of libdatachannel and nanobind are not here: what they
return, and the type the struct has for the two limits, are parameters
(`RtcFactory`), and what is assumed of them is `RtcFactory.Laws`.
-/
import AioLibDataChannel.Config.IceServer

namespace AioLibDataChannel

-- ========================================================== the options

/-- `CertificateType`. -/
inductive CertificateType
  | default
  | ecdsa
  | rsa
deriving DecidableEq, Repr

def CertificateType.toInt : CertificateType → Int
  | default => 0
  | ecdsa => 1
  | rsa => 2

/-- `TransportPolicy`. -/
inductive TransportPolicy
  | all
  | relay
deriving DecidableEq, Repr

def TransportPolicy.toInt : TransportPolicy → Int
  | all => 0
  | relay => 1

/-- `IceServerLike`. -/
inductive IceServerLike
  | str (url : PyStr)
  | server (given : IceServer)
deriving DecidableEq, Repr

/-- `entry if isinstance(entry, str) else entry.to_url()`. -/
def IceServerLike.toUrl : IceServerLike → Except UrlError PyStr
  | str url => .ok url
  | server given => given.toUrl

/-- `RTCConfiguration`. -/
structure RTCConfiguration where
  iceServers : List IceServerLike := []
  portRangeBegin : Int := 0
  portRangeEnd : Int := 0
  mtu : Int := 0
  maxMessageSize : Int := 0
  enableIceTcp : Bool := false
  disableAutoNegotiation : Bool := true
  certificateType : CertificateType := .default
  iceTransportPolicy : TransportPolicy := .all
deriving DecidableEq, Repr

/-- The integers of a configuration. -/
def RTCConfiguration.ints (config : RTCConfiguration) : List Int :=
  [config.portRangeBegin, config.portRangeEnd, config.mtu, config.maxMessageSize]

/-- `DataChannelOptions`. -/
structure DataChannelOptions where
  ordered : Bool := true
  maxPacketLifetimeMs : Option Int := none
  maxRetransmits : Option Int := none
  protocol : PyStr := []
  negotiated : Bool := false
  streamId : Option Int := none
deriving DecidableEq, Repr

/-- The integers among the options, zero for `None`. -/
def DataChannelOptions.ints (o : DataChannelOptions) : List Int :=
  [o.maxPacketLifetimeMs.getD 0, o.maxRetransmits.getD 0, o.streamId.getD 0]

-- ======================================================== the C structs

/-- `rtcReliability`, with the type the header has for the limits. -/
structure Reliability (γ : Type) where
  unordered : Bool
  unreliable : Bool
  maxPacketLifeTime : γ
  maxRetransmits : γ
deriving DecidableEq, Repr

/-- `rtcDataChannelInit`. The protocol is a null pointer or the text
behind it. -/
structure DataChannelInit (γ : Type) where
  reliability : Reliability γ
  protocol : Option (List UInt8)
  negotiated : Bool
  manualStream : Bool
  stream : UInt16
deriving DecidableEq, Repr

/-- `rtcConfiguration`. -/
structure Configuration where
  iceServers : List (List UInt8)
  iceServersCount : Int
  proxyServer : Option (List UInt8)
  bindAddress : Option (List UInt8)
  certificateType : Int
  iceTransportPolicy : Int
  enableIceTcp : Bool
  enableIceUdpMux : Bool
  disableAutoNegotiation : Bool
  forceMediaTransport : Bool
  portRangeBegin : UInt16
  portRangeEnd : UInt16
  mtu : Int
  maxMessageSize : Int
deriving DecidableEq, Repr

/-- The parts of the native layer that are not modelled: what the two
constructors return, what becomes of an `int` that is assigned to one of
the limits, and what nanobind makes of an `int` and of a `std::string`
argument. -/
structure RtcFactory (γ : Type) where
  rtcCreateDataChannelEx : Int → List UInt8 → DataChannelInit γ → Int
  rtcCreatePeerConnection : Configuration → Int
  toLimit : Int → γ
  int : Int → Except Exc Int
  string : PyStr → Except Exc (List UInt8)

/-- The values of a C `int`. -/
def InInt (n : Int) : Prop := -2147483648 ≤ n ∧ n < 2147483648

instance (n : Int) : Decidable (InInt n) := inferInstanceAs (Decidable (_ ∧ _))

/-- `check`. -/
def check (rc : Int) (ctx : String) : Except Exc Int :=
  if rc < 0 then .error (rtcError rc ctx) else .ok rc

/-- `protocol.empty() ? nullptr : protocol.c_str()`. -/
def cStrOrNull (s : List UInt8) : Option (List UInt8) :=
  if s = [] then none else some (CString.upToNul s)

namespace RtcFactory

variable {γ : Type} (rtc : RtcFactory γ)

/-- What is assumed of them: the conversions take the numbers of a C
`int` as they are and a `str` without lone surrogates as its UTF-8, and
nothing else; no `int` is lost in the type of a limit. -/
structure Laws : Prop where
  int : ∀ m n, rtc.int m = .ok n ↔ InInt m ∧ n = m
  string : ∀ s bytes, rtc.string s = .ok bytes ↔
    ∃ text, s.toChars? = some text ∧ bytes = CString.encode text
  toLimit : ∀ m n, InInt m → InInt n → rtc.toLimit m = rtc.toLimit n → m = n

/-- `_native.create_data_channel`, with the record it hands over. -/
def nativeCreateDataChannel (pc : Int) (label : PyStr) (unordered unreliable : Bool)
    (maxPacketLifetime maxRetransmits : Int) (protocol : PyStr)
    (negotiated manualStream : Bool) (stream : Int) :
    Except Exc (DataChannelInit γ × Int) := do
  let label ← rtc.string label
  let maxPacketLifetime ← rtc.int maxPacketLifetime
  let maxRetransmits ← rtc.int maxRetransmits
  let protocol ← rtc.string protocol
  let stream ← rtc.int stream
  let init : DataChannelInit γ :=
    { reliability :=
        { unordered := unordered
          unreliable := unreliable
          maxPacketLifeTime := rtc.toLimit maxPacketLifetime
          maxRetransmits := rtc.toLimit maxRetransmits }
      protocol := cStrOrNull protocol
      negotiated := negotiated
      manualStream := manualStream
      stream := UInt16.ofInt stream }
  let handle ← check (rtc.rtcCreateDataChannelEx pc (CString.upToNul label) init)
    "rtcCreateDataChannelEx"
  .ok (init, handle)

/-- `create_data_channel`, up to the wrapper it makes of the handle. -/
def createDataChannel (pc : Int) (label : PyStr) (options : Option DataChannelOptions) :
    Except Exc (DataChannelInit γ × Int) :=
  let opts := options.getD {}
  rtc.nativeCreateDataChannel pc label (!opts.ordered)
    (opts.maxPacketLifetimeMs.isSome || opts.maxRetransmits.isSome)
    (opts.maxPacketLifetimeMs.getD 0) (opts.maxRetransmits.getD 0) opts.protocol
    opts.negotiated opts.streamId.isSome (opts.streamId.getD 0)

/-- `_native.create_peer_connection`, with the record it hands over. -/
def nativeCreatePeerConnection (iceServers : List PyStr)
    (portRangeBegin portRangeEnd mtu maxMessageSize : Int)
    (enableIceTcp disableAutoNegotiation : Bool)
    (certificateType iceTransportPolicy : Int) : Except Exc (Configuration × Int) := do
  let raw ← iceServers.mapM rtc.string
  let portRangeBegin ← rtc.int portRangeBegin
  let portRangeEnd ← rtc.int portRangeEnd
  let mtu ← rtc.int mtu
  let maxMessageSize ← rtc.int maxMessageSize
  let certificateType ← rtc.int certificateType
  let iceTransportPolicy ← rtc.int iceTransportPolicy
  let cfg : Configuration :=
    { iceServers := raw.map CString.upToNul
      iceServersCount := CString.toInt raw.length
      proxyServer := none
      bindAddress := none
      certificateType := certificateType
      iceTransportPolicy := iceTransportPolicy
      enableIceTcp := enableIceTcp
      enableIceUdpMux := false
      disableAutoNegotiation := disableAutoNegotiation
      forceMediaTransport := false
      portRangeBegin := UInt16.ofInt portRangeBegin
      portRangeEnd := UInt16.ofInt portRangeEnd
      mtu := mtu
      maxMessageSize := maxMessageSize }
  let handle ← check (rtc.rtcCreatePeerConnection cfg) "rtcCreatePeerConnection"
  .ok (cfg, handle)

end RtcFactory

/-- What `PeerConnection(config)` raises. -/
inductive ConfigError
  | url (e : UrlError)
  | native (e : Exc)
deriving DecidableEq, Repr

namespace RtcFactory

variable {γ : Type} (rtc : RtcFactory γ)

/-- `PeerConnection.__init__`, up to the native handle. -/
def createPeerConnection (config : Option RTCConfiguration) :
    Except ConfigError (Configuration × Int) := do
  let cfg := config.getD {}
  let iceServers ← (cfg.iceServers.mapM IceServerLike.toUrl).mapError .url
  (rtc.nativeCreatePeerConnection iceServers cfg.portRangeBegin cfg.portRangeEnd cfg.mtu
    cfg.maxMessageSize cfg.enableIceTcp cfg.disableAutoNegotiation
    cfg.certificateType.toInt cfg.iceTransportPolicy.toInt).mapError .native

end RtcFactory

-- ================================================ what is handed over

/-- A computation that goes through went through step by step. -/
theorem exists_of_bind_eq_ok {ε α β : Type} {x : Except ε α} {f : α → Except ε β} {b : β}
    (h : x >>= f = .ok b) : ∃ a, x = .ok a ∧ f a = .ok b := by
  cases x with
  | error e => cases h
  | ok a => exact ⟨a, rfl, h⟩

/-- What returns under another name for its errors returns. -/
theorem exists_of_mapError_eq_ok {ε ε' α : Type} {x : Except ε α} {f : ε → ε'} {a : α}
    (h : x.mapError f = .ok a) : x = .ok a := by
  cases x with
  | error e => cases h
  | ok b =>
      cases h
      rfl

namespace RtcFactory

variable {γ : Type} {rtc : RtcFactory γ}

/-- The record `create_data_channel` hands over, and the arguments the
binding let through. -/
theorem createDataChannel_eq_ok (hrtc : rtc.Laws) {pc : Int} {label : PyStr}
    {o : DataChannelOptions} {init : DataChannelInit γ} {handle : Int}
    (h : rtc.createDataChannel pc label (some o) = .ok (init, handle)) :
    ∃ text, o.protocol.toChars? = some text
      ∧ InInt (o.maxPacketLifetimeMs.getD 0) ∧ InInt (o.maxRetransmits.getD 0)
      ∧ InInt (o.streamId.getD 0)
      ∧ init =
        { reliability :=
            { unordered := !o.ordered
              unreliable := o.maxPacketLifetimeMs.isSome || o.maxRetransmits.isSome
              maxPacketLifeTime := rtc.toLimit (o.maxPacketLifetimeMs.getD 0)
              maxRetransmits := rtc.toLimit (o.maxRetransmits.getD 0) }
          protocol := cStrOrNull (CString.encode text)
          negotiated := o.negotiated
          manualStream := o.streamId.isSome
          stream := UInt16.ofInt (o.streamId.getD 0) } := by
  simp only [createDataChannel, Option.getD_some, nativeCreateDataChannel] at h
  obtain ⟨_, -, h⟩ := exists_of_bind_eq_ok h
  obtain ⟨lifetime, hlifetime, h⟩ := exists_of_bind_eq_ok h
  obtain ⟨retransmits, hretransmits, h⟩ := exists_of_bind_eq_ok h
  obtain ⟨protocol, hprotocol, h⟩ := exists_of_bind_eq_ok h
  obtain ⟨stream, hstream, h⟩ := exists_of_bind_eq_ok h
  obtain ⟨_, -, h⟩ := exists_of_bind_eq_ok h
  obtain ⟨hinLife, rfl⟩ := (hrtc.int _ _).mp hlifetime
  obtain ⟨hinRetr, rfl⟩ := (hrtc.int _ _).mp hretransmits
  obtain ⟨hinStream, rfl⟩ := (hrtc.int _ _).mp hstream
  obtain ⟨text, htext, rfl⟩ := (hrtc.string _ _).mp hprotocol
  cases h
  exact ⟨text, htext, hinLife, hinRetr, hinStream, rfl⟩

/-- The two ports of the record `PeerConnection(config)` hands over. -/
theorem createPeerConnection_eq_ok (hrtc : rtc.Laws) {config : RTCConfiguration}
    {cfg : Configuration} {handle : Int}
    (h : rtc.createPeerConnection (some config) = .ok (cfg, handle)) :
    (∀ n ∈ config.ints, InInt n)
      ∧ cfg.portRangeBegin = UInt16.ofInt config.portRangeBegin
      ∧ cfg.portRangeEnd = UInt16.ofInt config.portRangeEnd := by
  obtain ⟨_, -, h⟩ := exists_of_bind_eq_ok h
  have h := exists_of_mapError_eq_ok h
  obtain ⟨_, -, h⟩ := exists_of_bind_eq_ok h
  obtain ⟨first, hfirst, h⟩ := exists_of_bind_eq_ok h
  obtain ⟨last, hlast, h⟩ := exists_of_bind_eq_ok h
  obtain ⟨mtu, hmtu, h⟩ := exists_of_bind_eq_ok h
  obtain ⟨size, hsize, h⟩ := exists_of_bind_eq_ok h
  obtain ⟨_, -, h⟩ := exists_of_bind_eq_ok h
  obtain ⟨_, -, h⟩ := exists_of_bind_eq_ok h
  obtain ⟨_, -, h⟩ := exists_of_bind_eq_ok h
  obtain ⟨hfirst, rfl⟩ := (hrtc.int _ _).mp hfirst
  obtain ⟨hlast, rfl⟩ := (hrtc.int _ _).mp hlast
  obtain ⟨hmtu, rfl⟩ := (hrtc.int _ _).mp hmtu
  obtain ⟨hsize, rfl⟩ := (hrtc.int _ _).mp hsize
  cases h
  refine ⟨?_, rfl, rfl⟩
  intro n hn
  simp only [RTCConfiguration.ints, List.mem_cons, List.not_mem_nil, or_false] at hn
  rcases hn with rfl | rfl | rfl | rfl <;> assumption

end RtcFactory

-- ============================================= what the record determines

/-- A number comes out of 16 bits as it went in exactly when it fits. -/
theorem toNat_ofInt_eq_iff (n : Int) : ((UInt16.ofInt n).toNat : Int) = n
    ↔ 0 ≤ n ∧ n < 65536 := by
  have hval : ((UInt16.ofInt n).toNat : Int) = n % 65536 := by
    rw [UInt16.ofInt, UInt16.toNat_ofNat']
    omega
  rw [hval]
  omega

/-- The empty protocol is a null pointer; behind any other is its text up
to the first U+0000. -/
theorem cStrOrNull_encode {s : PyStr} {text : List Char} (h : s.toChars? = some text) :
    cStrOrNull (CString.encode text)
      = if s = [] then none else some (CString.encode (text.takeWhile (· ≠ '\x00'))) := by
  have hnil : CString.encode text = [] ↔ s = [] := by
    rw [← PyStr.ofChars_of_toChars? h]
    constructor
    · intro heq
      have htext : text = [] := CString.encode_injective heq
      rw [htext]
      rfl
    · intro heq
      rw [List.map_eq_nil_iff.mp heq]
      rfl
  unfold cStrOrNull
  by_cases hs : s = []
  · rw [if_pos (hnil.mpr hs), if_pos hs]
  · rw [if_neg fun heq => hs (hnil.mp heq), if_neg hs, CString.upToNul_encode]

/-- So the record does not tell what is behind the U+0000. -/
theorem cStrOrNull_encode_eq_iff {s s' : PyStr} {text text' : List Char}
    (h : s.toChars? = some text) (h' : s'.toChars? = some text') :
    cStrOrNull (CString.encode text) = cStrOrNull (CString.encode text')
      ↔ s = s' ∨ s ≠ [] ∧ s' ≠ [] ∧ s.takeWhile (· ≠ 0) = s'.takeWhile (· ≠ 0) := by
  have hcut : CString.encode (text.takeWhile (· ≠ '\x00'))
        = CString.encode (text'.takeWhile (· ≠ '\x00'))
      ↔ s.takeWhile (· ≠ 0) = s'.takeWhile (· ≠ 0) := by
    rw [CString.encode_injective.eq_iff, ← PyStr.ofChars_of_toChars? h,
      ← PyStr.ofChars_of_toChars? h', ← PyStr.ofChars_takeWhile, ← PyStr.ofChars_takeWhile]
    constructor
    · intro heq
      rw [heq]
    · intro heq
      exact PyStr.ofChars_injective heq
  rw [cStrOrNull_encode h, cStrOrNull_encode h']
  by_cases hs : s = []
  · subst hs
    by_cases hs' : s' = []
    · simp [hs']
    · simp [hs', Ne.symm hs']
  · by_cases hs' : s' = []
    · subst hs'
      simp [hs]
    · rw [if_neg hs, if_neg hs', Option.some.injEq, hcut]
      constructor
      · intro heq
        exact Or.inr ⟨hs, hs', heq⟩
      · rintro (rfl | ⟨-, -, heq⟩)
        · rfl
        · exact heq

/-- At most one of the two limits is given. -/
def DataChannelOptions.OneLimit (o : DataChannelOptions) : Prop :=
  o.maxPacketLifetimeMs = none ∨ o.maxRetransmits = none

/-- One gives a lifetime of zero, the other no retransmits. -/
def ZeroLimits (o o' : DataChannelOptions) : Prop :=
  o.maxPacketLifetimeMs = some 0 ∧ o'.maxRetransmits = some 0

/-- The record does not tell these options apart. -/
structure Alike (o o' : DataChannelOptions) : Prop where
  ordered : o.ordered = o'.ordered
  limits : o.maxPacketLifetimeMs = o'.maxPacketLifetimeMs
      ∧ o.maxRetransmits = o'.maxRetransmits
    ∨ ZeroLimits o o' ∨ ZeroLimits o' o
  protocol : o.protocol = o'.protocol
    ∨ o.protocol ≠ [] ∧ o'.protocol ≠ []
      ∧ o.protocol.takeWhile (· ≠ 0) = o'.protocol.takeWhile (· ≠ 0)
  negotiated : o.negotiated = o'.negotiated
  streamId : o.streamId = o'.streamId

/-- A number that fits a `uint16_t`. -/
def FitsPort (n : Int) : Prop := 0 ≤ n ∧ n < 65536

/-- A flag and a number, zero for `None`, give an optional number back. -/
theorem isSome_getD_eq_iff {x y : Option Int} :
    x.isSome = y.isSome ∧ x.getD 0 = y.getD 0 ↔ x = y := by
  cases x with
  | none => cases y <;> simp
  | some a => cases y <;> simp

/-- One flag for both limits gives them back, but for which of them is
zero. -/
theorem limits_eq_iff {o o' : DataChannelOptions} (hone : o.OneLimit)
    (hone' : o'.OneLimit) :
    (o.maxPacketLifetimeMs.isSome || o.maxRetransmits.isSome)
          = (o'.maxPacketLifetimeMs.isSome || o'.maxRetransmits.isSome)
        ∧ o.maxPacketLifetimeMs.getD 0 = o'.maxPacketLifetimeMs.getD 0
        ∧ o.maxRetransmits.getD 0 = o'.maxRetransmits.getD 0
      ↔ o.maxPacketLifetimeMs = o'.maxPacketLifetimeMs
          ∧ o.maxRetransmits = o'.maxRetransmits
        ∨ ZeroLimits o o' ∨ ZeroLimits o' o := by
  unfold DataChannelOptions.OneLimit at hone hone'
  unfold ZeroLimits
  generalize o.maxPacketLifetimeMs = life at hone ⊢
  generalize o.maxRetransmits = retr at hone ⊢
  generalize o'.maxPacketLifetimeMs = life' at hone' ⊢
  generalize o'.maxRetransmits = retr' at hone' ⊢
  rcases hone with rfl | rfl <;> rcases hone' with rfl | rfl
  · cases retr <;> cases retr' <;> simp
  · cases retr <;> cases life' <;> simp
    omega
  · cases life <;> cases retr' <;> simp
    omega
  · cases life <;> cases life' <;> simp

section Record

variable {γ : Type} {rtc : RtcFactory γ} {pc pc' : Int} {label label' : PyStr}
  {o o' : DataChannelOptions} {init init' : DataChannelInit γ} {handle handle' : Int}

/-- Every integer of an accepted record fits a C `int`. -/
theorem ints_inInt (hrtc : rtc.Laws)
    (h : rtc.createDataChannel pc label (some o) = .ok (init, handle)) :
    ∀ n ∈ o.ints, InInt n := by
  obtain ⟨text, -, hlife, hretr, hstream, -⟩ := RtcFactory.createDataChannel_eq_ok hrtc h
  intro n hn
  simp only [DataChannelOptions.ints, List.mem_cons, List.not_mem_nil, or_false] at hn
  rcases hn with rfl | rfl | rfl <;> assumption

/-- The stream is the one that was given exactly when it fits. -/
theorem stream_eq_iff (hrtc : rtc.Laws)
    (h : rtc.createDataChannel pc label (some o) = .ok (init, handle)) :
    (init.stream.toNat : Int) = o.streamId.getD 0 ↔ FitsPort (o.streamId.getD 0) := by
  obtain ⟨text, -, -, -, -, rfl⟩ := RtcFactory.createDataChannel_eq_ok hrtc h
  exact toNat_ofInt_eq_iff _

/-- Two calls hand over one record exactly when the record does not tell
their options apart, as far as the streams fit. -/
theorem init_eq_iff (hrtc : rtc.Laws)
    (h : rtc.createDataChannel pc label (some o) = .ok (init, handle))
    (h' : rtc.createDataChannel pc' label' (some o') = .ok (init', handle'))
    (hone : o.OneLimit) (hone' : o'.OneLimit)
    (hfits : FitsPort (o.streamId.getD 0)) (hfits' : FitsPort (o'.streamId.getD 0)) :
    init = init' ↔ Alike o o' := by
  obtain ⟨text, htext, hlife, hretr, -, rfl⟩ := RtcFactory.createDataChannel_eq_ok hrtc h
  obtain ⟨text', htext', hlife', hretr', -, rfl⟩ := RtcFactory.createDataChannel_eq_ok hrtc h'
  have hlimits := limits_eq_iff hone hone'
  have hprotocol := cStrOrNull_encode_eq_iff htext htext'
  have hstream : UInt16.ofInt (o.streamId.getD 0) = UInt16.ofInt (o'.streamId.getD 0)
      ↔ o.streamId.getD 0 = o'.streamId.getD 0 := by
    constructor
    · intro heq
      rw [← (toNat_ofInt_eq_iff _).mpr hfits, ← (toNat_ofInt_eq_iff _).mpr hfits', heq]
    · intro heq
      rw [heq]
  simp only [DataChannelInit.mk.injEq, Reliability.mk.injEq]
  constructor
  · rintro ⟨⟨hordered, hkind, hlifetime, hretransmits⟩, hproto, hneg, hmanual, hs⟩
    exact
      { ordered := Bool.not_inj hordered
        limits := hlimits.mp ⟨hkind, hrtc.toLimit _ _ hlife hlife' hlifetime,
          hrtc.toLimit _ _ hretr hretr' hretransmits⟩
        protocol := hprotocol.mp hproto
        negotiated := hneg
        streamId := isSome_getD_eq_iff.mp ⟨hmanual, hstream.mp hs⟩ }
  · intro halike
    obtain ⟨hkind, hlifetime, hretransmits⟩ := hlimits.mpr halike.limits
    refine ⟨⟨?_, hkind, ?_, ?_⟩, hprotocol.mpr halike.protocol, halike.negotiated, ?_, ?_⟩
    · rw [halike.ordered]
    · rw [hlifetime]
    · rw [hretransmits]
    · rw [halike.streamId]
    · rw [halike.streamId]

/-- The records say what the caller gave: the streams, and two options no
less apart than they were. What goes through is in the range of a C
`int`. -/
structure KeepsOptions (o o' : DataChannelOptions) (init init' : DataChannelInit γ) :
    Prop where
  inRange : ∀ n ∈ o.ints ++ o'.ints, InInt n
  stream : (init.stream.toNat : Int) = o.streamId.getD 0
  stream' : (init'.stream.toNat : Int) = o'.streamId.getD 0
  distinct : init = init' → o = o'

/-- The streams fit 16 bits, and the options are told apart. -/
structure FitsRecord (o o' : DataChannelOptions) : Prop where
  stream : FitsPort (o.streamId.getD 0)
  stream' : FitsPort (o'.streamId.getD 0)
  distinct : Alike o o' → o = o'

/-- The records of two accepted calls keep the options exactly if these
fit them. -/
theorem keepsOptions_iff_fits (hrtc : rtc.Laws)
    (h : rtc.createDataChannel pc label (some o) = .ok (init, handle))
    (h' : rtc.createDataChannel pc' label' (some o') = .ok (init', handle'))
    (hone : o.OneLimit) (hone' : o'.OneLimit) :
    KeepsOptions o o' init init' ↔ FitsRecord o o' := by
  constructor
  · intro hkeeps
    have hs := (stream_eq_iff hrtc h).mp hkeeps.stream
    have hs' := (stream_eq_iff hrtc h').mp hkeeps.stream'
    exact
      { stream := hs
        stream' := hs'
        distinct := fun halike =>
          hkeeps.distinct ((init_eq_iff hrtc h h' hone hone' hs hs').mpr halike) }
  · intro hfits
    refine
      { inRange := ?_
        stream := (stream_eq_iff hrtc h).mpr hfits.stream
        stream' := (stream_eq_iff hrtc h').mpr hfits.stream'
        distinct := ?_ }
    · intro n hn
      rcases List.mem_append.mp hn with hn | hn
      · exact ints_inInt hrtc h n hn
      · exact ints_inInt hrtc h' n hn
    · intro heq
      exact hfits.distinct
        ((init_eq_iff hrtc h h' hone hone' hfits.stream hfits.stream').mp heq)

/-- The record says which ports the caller gave. -/
structure KeepsPorts (config : RTCConfiguration) (cfg : Configuration) : Prop where
  inRange : ∀ n ∈ config.ints, InInt n
  portRangeBegin : (cfg.portRangeBegin.toNat : Int) = config.portRangeBegin
  portRangeEnd : (cfg.portRangeEnd.toNat : Int) = config.portRangeEnd

/-- The record has both ports exactly if both fit sixteen bits. -/
theorem keepsPorts_iff (hrtc : rtc.Laws) {config : RTCConfiguration} {cfg : Configuration}
    (h : rtc.createPeerConnection (some config) = .ok (cfg, handle)) :
    KeepsPorts config cfg ↔ FitsPort config.portRangeBegin ∧ FitsPort config.portRangeEnd := by
  obtain ⟨hints, hfirst, hlast⟩ := RtcFactory.createPeerConnection_eq_ok hrtc h
  have hbegin : (cfg.portRangeBegin.toNat : Int) = config.portRangeBegin
      ↔ FitsPort config.portRangeBegin := by
    rw [hfirst]
    exact toNat_ofInt_eq_iff _
  have hend : (cfg.portRangeEnd.toNat : Int) = config.portRangeEnd
      ↔ FitsPort config.portRangeEnd := by
    rw [hlast]
    exact toNat_ofInt_eq_iff _
  constructor
  · intro hkeeps
    exact ⟨hbegin.mp hkeeps.portRangeBegin, hend.mp hkeeps.portRangeEnd⟩
  · rintro ⟨hb, he⟩
    exact ⟨hints, hbegin.mpr hb, hend.mpr he⟩

/-- Options that go through are kept exactly when their numbers fit 16
bits and no limit of zero and no U+0000 makes two of them alike. -/
theorem keepsOptions_iff (hrtc : rtc.Laws) :
    (∀ pc pc' label label' o o' init init' handle handle',
        rtc.createDataChannel pc label (some o) = .ok (init, handle) →
        rtc.createDataChannel pc' label' (some o') = .ok (init', handle') →
        o.OneLimit → o'.OneLimit → (KeepsOptions o o' init init' ↔ FitsRecord o o'))
      ∧ ∀ config cfg handle, rtc.createPeerConnection (some config) = .ok (cfg, handle) →
        (KeepsPorts config cfg
          ↔ FitsPort config.portRangeBegin ∧ FitsPort config.portRangeEnd) := by
  refine ⟨?_, ?_⟩
  · intro pc pc' label label' o o' init init' handle handle' h h' hone hone'
    exact keepsOptions_iff_fits hrtc h h' hone hone'
  · intro config cfg handle h
    exact keepsPorts_iff hrtc h

end Record

-- ========================================================== what is lost

/-- A factory that accepts every channel and every connection, with
limits of 32 bits. -/
def acceptingFactory : RtcFactory UInt32 where
  rtcCreateDataChannelEx _ _ _ := 1
  rtcCreatePeerConnection _ := 1
  toLimit := UInt32.ofInt
  int n := if InInt n then .ok n else .error (.typeError "incompatible function arguments")
  string s :=
    match s.toChars? with
    | some text => .ok (CString.encode text)
    | none => .error (.typeError "incompatible function arguments")

/-- An `int` is not lost in an `unsigned int`. -/
theorem acceptingFactory_toLimit (m n : Int) (hm : InInt m) (hn : InInt n)
    (h : acceptingFactory.toLimit m = acceptingFactory.toLimit n) : m = n := by
  have hval (k : Int) : ((UInt32.ofInt k).toNat : Int) = k % 4294967296 := by
    rw [UInt32.ofInt, UInt32.toNat_ofNat']
    omega
  have heq : m % 4294967296 = n % 4294967296 := by
    rw [← hval m, ← hval n]
    exact congrArg (fun k : UInt32 => (k.toNat : Int)) h
  unfold InInt at hm hn
  omega

/-- It does what is assumed. -/
theorem acceptingFactory_laws : acceptingFactory.Laws where
  int m n := by
    by_cases hm : InInt m
    · simp [acceptingFactory, hm, eq_comm]
    · simp [acceptingFactory, hm]
  string s bytes := by
    cases htext : s.toChars? with
    | none => simp [acceptingFactory, htext]
    | some text => simp [acceptingFactory, htext, eq_comm]
  toLimit := acceptingFactory_toLimit

/-- Stream 65536 becomes stream 0 and port 70000 port 4464; a lifetime of
zero and no retransmits come out as one record, and so do two protocols
that differ behind a U+0000. -/
theorem options_lost :
    (∃ init,
        acceptingFactory.createDataChannel 1 [] (some { streamId := some 65536 })
            = .ok (init, 1)
          ∧ init.stream = 0
          ∧ ¬ KeepsOptions { streamId := some 65536 } { streamId := some 65536 } init init)
      ∧ (∃ cfg,
        acceptingFactory.createPeerConnection (some { portRangeBegin := 70000 })
            = .ok (cfg, 1)
          ∧ cfg.portRangeBegin = 4464 ∧ ¬ KeepsPorts { portRangeBegin := 70000 } cfg)
      ∧ (∃ init,
        acceptingFactory.createDataChannel 1 [] (some { maxPacketLifetimeMs := some 0 })
            = .ok (init, 1)
          ∧ acceptingFactory.createDataChannel 1 [] (some { maxRetransmits := some 0 })
            = .ok (init, 1))
      ∧ ∃ init,
        acceptingFactory.createDataChannel 1 []
            (some { protocol := PyStr.ofChars ['a', '\x00', 'b'] }) = .ok (init, 1)
          ∧ acceptingFactory.createDataChannel 1 []
            (some { protocol := PyStr.ofChars ['a', '\x00', 'c'] }) = .ok (init, 1) := by
  refine ⟨⟨_, rfl, rfl, ?_⟩, ⟨_, rfl, rfl, ?_⟩, ⟨_, rfl, rfl⟩, ⟨_, rfl, rfl⟩⟩
  · intro hkeeps
    have hstream := hkeeps.stream
    exact absurd hstream (by decide)
  · intro hkeeps
    have hport := hkeeps.portRangeBegin
    exact absurd hport (by decide)

/-- `keepsOptions_iff` for two streams that are given, and for the
defaults of a configuration. -/
theorem keepsOptions_iff_streamSeven :
    ∃ init init' cfg,
      acceptingFactory.createDataChannel 1 [] (some { streamId := some 7 }) = .ok (init, 1)
        ∧ acceptingFactory.createDataChannel 1 [] (some { streamId := some 65536 })
          = .ok (init', 1)
        ∧ acceptingFactory.createPeerConnection (some {}) = .ok (cfg, 1)
        ∧ (KeepsOptions { streamId := some 7 } { streamId := some 65536 } init init'
          ↔ FitsRecord { streamId := some 7 } { streamId := some 65536 })
        ∧ (KeepsPorts {} cfg ↔ FitsPort 0 ∧ FitsPort 0) := by
  obtain ⟨hoptions, hports⟩ := keepsOptions_iff acceptingFactory_laws
  refine ⟨_, _, _, rfl, rfl, rfl, ?_, ?_⟩
  · exact hoptions 1 1 [] [] _ _ _ _ 1 1 rfl rfl (Or.inl rfl) (Or.inl rfl)
  · exact hports {} _ 1 rfl

end AioLibDataChannel
