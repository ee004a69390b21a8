/-
Descriptions and candidates from one native layer to another: out through
a trampoline and a `_cb_*` method, across whatever the application signals
with, and in through `set_remote_description` or `add_remote_candidate`.

Going out, a C string becomes a `str`, which fails when it is not UTF-8;
a description's type becomes one of four, and an empty `mid` stands for
none. Coming in, a `str` becomes a C string, which fails for a surrogate
and ends at the first U+0000; an empty `mid` becomes a null pointer.

`signals_cross`: what comes in is what went out, byte for byte, for every
report there is; and text of an application's own making is cut exactly at
its first U+0000. libdatachannel is a parameter: what its two functions
return.
-/
import AioLibDataChannel.PeerConnection.Callbacks
import AioLibDataChannel.PeerConnection.Snapshot

namespace AioLibDataChannel

/-- What is called of the native layer, with what it reads behind its
pointers. -/
inductive SignalCall
  | rtcSetRemoteDescription (sdp type : List UInt8)
  | rtcAddRemoteCandidate (candidate : List UInt8) (mid : Option (List UInt8))
deriving DecidableEq, Repr

/-- Why there is no such call: nanobind refuses an argument, or
`nb::cast` does. Or there is one, and it failed. -/
inductive SignalError
  | typeError
  | badCast
  | rtc (e : Exc)
deriving DecidableEq, Repr

/-- A `std::string` of a `str`. -/
def stdString (s : PyStr) : Option (List UInt8) := s.toChars?.map CString.encode

namespace SignalCall

/-- The text of `raise_rtc_error`. -/
def ctx : SignalCall → String
  | rtcSetRemoteDescription .. => "rtcSetRemoteDescription"
  | rtcAddRemoteCandidate .. => "rtcAddRemoteCandidate"

/-- `check(no_gil(...), ctx)`. -/
def checked (rtc : SignalCall → Int) (call : SignalCall) : Except SignalError SignalCall :=
  if rtc call < 0 then .error (.rtc (rtcError (rtc call) call.ctx)) else .ok call

end SignalCall

section Bindings

variable (rtc : SignalCall → Int)

/-- `_native.set_remote_description`. -/
def nativeSetRemoteDescription (sdp type : PyStr) : Except SignalError SignalCall :=
  match stdString sdp, stdString type with
  | some sdp, some type =>
      (SignalCall.rtcSetRemoteDescription (CString.upToNul sdp) (CString.upToNul type)).checked
        rtc
  | _, _ => .error .typeError

/-- `_native.add_remote_candidate`. The `mid` is converted by hand. -/
def nativeAddRemoteCandidate (candidate : PyStr) (mid : Option PyStr) :
    Except SignalError SignalCall :=
  match stdString candidate with
  | none => .error .typeError
  | some candidate =>
      match mid with
      | none =>
          (SignalCall.rtcAddRemoteCandidate (CString.upToNul candidate) none).checked rtc
      | some mid =>
          match stdString mid with
          | none => .error .badCast
          | some mid =>
              (SignalCall.rtcAddRemoteCandidate (CString.upToNul candidate)
                (some (CString.upToNul mid))).checked rtc

/-- `_core.PeerConnection.add_remote_candidate`: `mid if mid else None`. -/
def coreAddRemoteCandidate (candidate mid : PyStr) : Except SignalError SignalCall :=
  nativeAddRemoteCandidate rtc candidate (if mid = [] then none else some mid)

/-- The `str` of a text. -/
def pyStr (text : String) : PyStr := PyStr.ofChars text.toList

/-- The other side's call for what a dispatcher is given: the application
passes on what its event holds. -/
def relay : StreamWorld.Dispatch → Option (Except SignalError SignalCall)
  | .localDescription d =>
      some (nativeSetRemoteDescription rtc (pyStr d.sdp) (pyStr d.type.name))
  | .localCandidate c =>
      some (coreAddRemoteCandidate rtc (pyStr c.candidate) (pyStr c.mid))
  | _ => none

end Bindings

-- ============================================================= the meaning

/-- The bytes of a C string; none behind a null pointer. -/
def CText.bytes (p : CText) : List UInt8 := CString.upToNul (p.getD [])

/-- The four types of a description, as C strings. -/
def sdpTypes : List (List UInt8) :=
  [SdpType.offer, .answer, .pranswer, .rollback].map fun t => CString.encode t.name.toList

/-- What an upcall asks the other side's native layer for. An unknown type
counts as an offer. -/
def Upcall.signal? : Upcall → Option SignalCall
  | .localDescription _ sdp type =>
      some (.rtcSetRemoteDescription sdp.bytes
        (if type.bytes ∈ sdpTypes then type.bytes
          else CString.encode SdpType.offer.name.toList))
  | .localCandidate _ cand mid =>
      some (.rtcAddRemoteCandidate cand.bytes (if mid.bytes = [] then none else some mid.bytes))
  | _ => none

-- =================================================================== texts

/-- Every character is that of its code point. -/
theorem charOf?_codePoint (c : Char) : charOf? (codePoint c) = some c := by
  have hvalid : (codePoint c).val.isValidChar := c.valid
  rw [charOf?, dif_pos hvalid]
  exact congrArg some (Char.toNat_inj.mp rfl)

/-- Text of characters can be encoded. -/
theorem PyStr.toChars?_ofChars (text : List Char) :
    (PyStr.ofChars text).toChars? = some text := by
  induction text with
  | nil => rfl
  | cons c rest ih =>
      simp only [PyStr.toChars?, PyStr.ofChars, List.map_cons, List.mapM_cons,
        charOf?_codePoint] at ih ⊢
      rw [ih]
      rfl

/-- A text goes over as its UTF-8. -/
theorem stdString_ofChars (text : List Char) :
    stdString (PyStr.ofChars text) = some (CString.encode text) := by
  rw [stdString, PyStr.toChars?_ofChars]
  rfl

/-- The bytes of a C string are those of the text that was made of it. -/
theorem CText.encode_of_toStr? {p : CText} {text : List Char} (h : p.toStr? = some text) :
    CString.encode text = p.bytes :=
  CString.encode_of_decode? h

/-- What a `str` made of a C string comes back as. -/
theorem stdString_pyStr {p : CText} {text : List Char} (h : p.toStr? = some text) :
    stdString (pyStr (String.ofList text)) = some p.bytes := by
  rw [pyStr, String.toList_ofList, stdString_ofChars, p.encode_of_toStr? h]

/-- A C text ends at its first NUL already. -/
theorem CText.upToNul_bytes (p : CText) : CString.upToNul p.bytes = p.bytes :=
  CString.upToNul_upToNul _

/-- A text is empty exactly if its bytes are. -/
theorem pyStr_eq_nil_iff {p : CText} {text : List Char} (h : p.toStr? = some text) :
    pyStr (String.ofList text) = [] ↔ p.bytes = [] := by
  have hnil : CString.encode [] = [] := rfl
  rw [pyStr, String.toList_ofList, ← p.encode_of_toStr? h, ← hnil,
    CString.encode_injective.eq_iff]
  exact List.map_eq_nil_iff

-- ============================================================== the types

/-- One of the four names is coerced to its kind. -/
theorem coerceSdpType_of_name {s : String} {t : SdpType} (h : s = t.name) :
    coerceSdpType (some s) .offer = t := by
  subst h
  cases t <;> rfl

/-- Any other name is coerced to an offer. -/
theorem coerceSdpType_of_unknown {s : String} (h : ∀ t : SdpType, s ≠ t.name) :
    coerceSdpType (some s) .offer = .offer := by
  unfold coerceSdpType
  split
  next => rfl
  next heq => exact absurd (Option.some.inj heq) (h .answer)
  next heq => exact absurd (Option.some.inj heq) (h .pranswer)
  next heq => exact absurd (Option.some.inj heq) (h .rollback)
  next => rfl

/-- The bytes compared with are those of the four names. -/
theorem mem_sdpTypes_iff {bytes : List UInt8} :
    bytes ∈ sdpTypes ↔ ∃ t : SdpType, CString.encode t.name.toList = bytes := by
  unfold sdpTypes
  rw [List.mem_map]
  constructor
  · rintro ⟨t, -, rfl⟩
    exact ⟨t, rfl⟩
  · rintro ⟨t, rfl⟩
    exact ⟨t, by cases t <;> simp, rfl⟩

/-- The type that is passed on, as a C string. -/
theorem encode_coerceSdpType {p : CText} {text : List Char} (h : p.toStr? = some text) :
    CString.encode (coerceSdpType (some (String.ofList text)) .offer).name.toList
      = if p.bytes ∈ sdpTypes then p.bytes
        else CString.encode SdpType.offer.name.toList := by
  have hbytes := p.encode_of_toStr? h
  split
  next hmem =>
    obtain ⟨t, ht⟩ := mem_sdpTypes_iff.mp hmem
    have htext : text = t.name.toList := CString.encode_injective (hbytes.trans ht.symm)
    have hname : String.ofList text = t.name := by
      rw [htext, String.ofList_toList]
    rw [coerceSdpType_of_name hname]
    exact ht
  next hmem =>
    rw [coerceSdpType_of_unknown]
    intro t heq
    refine hmem (mem_sdpTypes_iff.mpr ⟨t, ?_⟩)
    rw [← heq, String.toList_ofList]
    exact hbytes

-- ============================================================== the calls

variable {rtc : SignalCall → Int}

/-- The native call has both texts up to their first NUL, and a null
pointer for an empty mid. -/
theorem native_candidate_eq {candidate mid : PyStr} {c m : List UInt8}
    (hc : stdString candidate = some c) (hm : stdString mid = some m)
    (hnil : mid = [] ↔ CString.upToNul m = []) :
    coreAddRemoteCandidate rtc candidate mid
      = (SignalCall.rtcAddRemoteCandidate (CString.upToNul c)
          (if CString.upToNul m = [] then none else some (CString.upToNul m))).checked rtc := by
  unfold coreAddRemoteCandidate nativeAddRemoteCandidate
  by_cases hmid : mid = []
  · simp only [hc, if_pos hmid, if_pos (hnil.mp hmid)]
  · simp only [hc, hm, if_neg hmid, if_neg (mt hnil.mpr hmid)]

/-- Every report that reaches the loop, passed on, makes the native call
it asks for, and raises only what that call returns. -/
theorem relay_report {u : Upcall} {d : StreamWorld.Dispatch}
    (h : StreamWorld.report? u = some d) :
    relay rtc d = u.signal?.map (SignalCall.checked rtc) := by
  cases u with
  | localDescription pc sdp type =>
      simp only [StreamWorld.report?] at h
      split at h
      next text text' hs ht =>
        cases h
        have htype := encode_coerceSdpType ht
        have hread : CString.upToNul (if type.bytes ∈ sdpTypes then type.bytes
              else CString.encode SdpType.offer.name.toList)
            = if type.bytes ∈ sdpTypes then type.bytes
              else CString.encode SdpType.offer.name.toList := by
          split
          · exact type.upToNul_bytes
          · rfl
        simp only [relay, nativeSetRemoteDescription, stdString_pyStr hs, Upcall.signal?,
          Option.map_some, Option.some.injEq]
        rw [pyStr, stdString_ofChars, htype]
        simp only [sdp.upToNul_bytes, hread]
      next => cases h
  | localCandidate pc cand mid =>
      simp only [StreamWorld.report?] at h
      split at h
      next text text' hs ht =>
        cases h
        have hnil : pyStr (String.ofList text') = [] ↔ CString.upToNul mid.bytes = [] := by
          rw [mid.upToNul_bytes]
          exact pyStr_eq_nil_iff ht
        show some (coreAddRemoteCandidate rtc _ _) = some _
        rw [native_candidate_eq (stdString_pyStr hs) (stdString_pyStr ht) hnil,
          cand.upToNul_bytes, mid.upToNul_bytes]
      next => cases h
  | stateChange pc state =>
      obtain ⟨e, -, rfl⟩ := Option.map_eq_some_iff.mp h
      rfl
  | iceStateChange pc state =>
      obtain ⟨e, -, rfl⟩ := Option.map_eq_some_iff.mp h
      rfl
  | gatheringStateChange pc state =>
      obtain ⟨e, -, rfl⟩ := Option.map_eq_some_iff.mp h
      rfl
  | signalingStateChange pc state =>
      obtain ⟨e, -, rfl⟩ := Option.map_eq_some_iff.mp h
      rfl
  | dataChannel pc dc =>
      cases h
      rfl
  | _ => cases h

-- ============================================================ the callers

/-- A C string holds all of a text exactly when there is no U+0000 in
it. -/
theorem upToNul_encode_eq_iff (text : List Char) :
    CString.upToNul (CString.encode text) = CString.encode text ↔ '\x00' ∉ text := by
  rw [CString.upToNul_encode, CString.encode_injective.eq_iff, List.takeWhile_eq_self_iff]
  constructor
  · intro h hmem
    have hne := h _ hmem
    exact absurd hne (by decide)
  · intro h c hc
    refine decide_eq_true ?_
    rintro rfl
    exact h hc

/-- What goes over is the UTF-8 of a text. -/
theorem stdString_eq_some {s : PyStr} {bytes : List UInt8} (h : stdString s = some bytes) :
    ∃ text, s.toChars? = some text ∧ bytes = CString.encode text := by
  obtain ⟨text, htext, rfl⟩ := Option.map_eq_some_iff.mp h
  exact ⟨text, htext, rfl⟩

/-- A call that is not refused is made, and succeeds. -/
theorem checked_eq_ok {call call' : SignalCall} (h : call.checked rtc = .ok call') :
    call' = call ∧ 0 ≤ rtc call := by
  unfold SignalCall.checked at h
  split at h
  next => cases h
  next hrc =>
    cases h
    exact ⟨rfl, by omega⟩

/-- A candidate and a `mid` of an application's own: what the native call
reads, and when that is all of it. -/
structure Reads (candidate mid : PyStr) (call : SignalCall) (c m : List Char) : Prop where
  encodes : candidate.toChars? = some c
  encodesMid : mid.toChars? = some m
  read : call = .rtcAddRemoteCandidate (CString.upToNul (CString.encode c))
    (if mid = [] then none else some (CString.upToNul (CString.encode m)))
  whole : call = .rtcAddRemoteCandidate (CString.encode c)
      (if mid = [] then none else some (CString.encode m))
    ↔ '\x00' ∉ c ∧ '\x00' ∉ m

/-- An accepted candidate is read up to the first NUL of each text. -/
theorem reads_of_ok {candidate mid : PyStr} {call : SignalCall}
    (h : coreAddRemoteCandidate rtc candidate mid = .ok call) :
    ∃ c m, Reads candidate mid call c m := by
  unfold coreAddRemoteCandidate nativeAddRemoteCandidate at h
  split at h
  next => cases h
  next bytes hc =>
    obtain ⟨c, hchars, rfl⟩ := stdString_eq_some hc
    by_cases hmid : mid = []
    · subst hmid
      obtain ⟨rfl, -⟩ := checked_eq_ok h
      refine ⟨c, [], hchars, rfl, rfl, ?_⟩
      rw [SignalCall.rtcAddRemoteCandidate.injEq, upToNul_encode_eq_iff]
      exact and_congr_right fun _ => iff_of_true rfl List.not_mem_nil
    · simp only [if_neg hmid] at h
      split at h
      next => cases h
      next bytes' hm =>
        obtain ⟨m, hchars', rfl⟩ := stdString_eq_some hm
        obtain ⟨rfl, -⟩ := checked_eq_ok h
        refine ⟨c, m, hchars, hchars', by rw [if_neg hmid], ?_⟩
        rw [if_neg hmid, SignalCall.rtcAddRemoteCandidate.injEq, Option.some.injEq,
          upToNul_encode_eq_iff, upToNul_encode_eq_iff]

/-- The same of a description. -/
structure ReadsDescription (sdp type : PyStr) (call : SignalCall) (d t : List Char) : Prop where
  encodes : sdp.toChars? = some d
  encodesType : type.toChars? = some t
  read : call = .rtcSetRemoteDescription (CString.upToNul (CString.encode d))
    (CString.upToNul (CString.encode t))
  whole : call = .rtcSetRemoteDescription (CString.encode d) (CString.encode t)
    ↔ '\x00' ∉ d ∧ '\x00' ∉ t

/-- An accepted description is read so, too. -/
theorem readsDescription_of_ok {sdp type : PyStr} {call : SignalCall}
    (h : nativeSetRemoteDescription rtc sdp type = .ok call) :
    ∃ d t, ReadsDescription sdp type call d t := by
  unfold nativeSetRemoteDescription at h
  split at h
  next bytes bytes' hd ht =>
    obtain ⟨d, hchars, rfl⟩ := stdString_eq_some hd
    obtain ⟨t, hchars', rfl⟩ := stdString_eq_some ht
    obtain ⟨rfl, -⟩ := checked_eq_ok h
    refine ⟨d, t, hchars, hchars', rfl, ?_⟩
    rw [SignalCall.rtcSetRemoteDescription.injEq, upToNul_encode_eq_iff,
      upToNul_encode_eq_iff]
  next => cases h

/-- What signalling carries from one native layer to another: every report
that reaches the loop, passed on, makes the call it asks for, with the
bytes it was made with; and text of an application's own is read to its
first U+0000. -/
theorem signals_cross :
    (∀ u d, StreamWorld.report? u = some d →
      relay rtc d = u.signal?.map (SignalCall.checked rtc))
    ∧ (∀ sdp type call, nativeSetRemoteDescription rtc sdp type = .ok call →
      ∃ d t, ReadsDescription sdp type call d t)
    ∧ ∀ candidate mid call, coreAddRemoteCandidate rtc candidate mid = .ok call →
      ∃ c m, Reads candidate mid call c m :=
  ⟨fun _ _ => relay_report, fun _ _ _ => readsDescription_of_ok, fun _ _ _ => reads_of_ok⟩

/-- An answer; a candidate without a `mid`; and one of an application's
own, with a U+0000 in it. -/
theorem signals_cross_threeSignals :
    relay (fun _ => 0) (.localDescription ⟨"v=0", .answer⟩)
        = some (.ok (.rtcSetRemoteDescription [118, 61, 48] [97, 110, 115, 119, 101, 114]))
      ∧ relay (fun _ => -2) (.localCandidate ⟨"c", ""⟩)
        = some (.error (.rtc (rtcError (-2) "rtcAddRemoteCandidate")))
      ∧ ∃ c m, Reads (PyStr.ofChars ['c', '\x00', 'c']) (PyStr.ofChars ['0'])
        (.rtcAddRemoteCandidate [99] (some [48])) c m :=
  ⟨(@signals_cross fun _ => 0).1
      (.localDescription 1 (some [118, 61, 48, 0])
        (some [97, 110, 115, 119, 101, 114, 0])) _ rfl,
    (@signals_cross fun _ => -2).1 (.localCandidate 1 (some [99, 0]) none) _ rfl,
    (@signals_cross fun _ => 0).2.2 (PyStr.ofChars ['c', '\x00', 'c']) (PyStr.ofChars ['0'])
      _ rfl⟩

end AioLibDataChannel
