/-
The message path through `bindings.cpp`: what `send_bytes` and
`send_text` hand to `rtcSendMessage`, and what `tr_dc_message` makes of
the buffer the message callback gets.

Kind and length travel in one signed C `int`. The sender narrows a
`size_t` to it, and a negative value means NUL-terminated text; the
receiver reads text up to its first NUL and ignores the magnitude. The
two halves are written apart, and they disagree on text that contains
U+0000 and on buffers too long for an `int`.

libdatachannel is a parameter (`Rtc`): what `rtcSendMessage` returns,
and the text of nanobind's refusal of an argument.
-/
import AioLibDataChannel.Basic
import AioLibDataChannel.Native.CString

namespace AioLibDataChannel

-- ================================================================ text

/-- A code point as a character, surrogates excepted. -/
def charOf? (p : Fin 0x110000) : Option Char :=
  if h : p.val.isValidChar then some (Char.ofNatAux p.val h) else none

/-- The code point of a character. -/
def codePoint (c : Char) : Fin 0x110000 :=
  ⟨c.toNat, by
    rcases c.valid with h | ⟨-, h⟩
    · exact Nat.lt_trans h (by decide)
    · exact h⟩

/-- The characters of a `str`, when it can be encoded. -/
def PyStr.toChars? (s : PyStr) : Option (List Char) := s.mapM charOf?

/-- The `str` of some characters. -/
def PyStr.ofChars (text : List Char) : PyStr := text.map codePoint

/-- The character of a code point has that code point. -/
theorem charOf?_eq_some {p : Fin 0x110000} {c : Char} (h : charOf? p = some c) :
    codePoint c = p := by
  by_cases hp : p.val.isValidChar
  · rw [charOf?, dif_pos hp] at h
    cases h
    rfl
  · rw [charOf?, dif_neg hp] at h
    cases h

/-- A text is read off its code points. -/
theorem PyStr.ofChars_injective {text text' : List Char}
    (h : PyStr.ofChars text = PyStr.ofChars text') : text = text' := by
  refine (List.map_inj_right ?_).mp h
  intro c c' hpoint
  have hval : (codePoint c).val = (codePoint c').val := by rw [hpoint]
  exact Char.toNat_inj.mp hval

/-- Encodable text comes back from its characters. -/
theorem PyStr.ofChars_of_toChars? {s : PyStr} {text : List Char}
    (h : s.toChars? = some text) : PyStr.ofChars text = s := by
  induction s generalizing text with
  | nil =>
      cases h
      rfl
  | cons p rest ih =>
      simp only [PyStr.toChars?, List.mapM_cons, Option.bind_eq_bind,
        Option.pure_def, Option.bind_eq_some_iff] at h
      obtain ⟨c, hc, cs, hcs, htext⟩ := h
      cases htext
      rw [PyStr.ofChars, List.map_cons, charOf?_eq_some hc]
      exact congrArg (p :: ·) (ih hcs)

/-- Cutting text at its first U+0000, on code points and on
characters. -/
theorem PyStr.ofChars_takeWhile (text : List Char) :
    PyStr.ofChars (text.takeWhile (· ≠ '\x00'))
      = (PyStr.ofChars text).takeWhile (· ≠ 0) := by
  have hzero (c : Char) : codePoint c = 0 ↔ c = '\x00' := by
    rw [← CString.val_toNat_eq_zero, Fin.ext_iff]
    exact Iff.rfl
  induction text with
  | nil => rfl
  | cons c rest ih =>
      simp only [PyStr.ofChars, List.map_cons, List.takeWhile_cons, ne_eq,
        hzero] at ih ⊢
      split
      next => rw [List.map_cons, ih]
      next => rfl

-- ============================================================== sending

/-- What crosses the transport. -/
inductive Wire
  | binary (data : List UInt8)
  | text (data : List UInt8)
deriving DecidableEq, Repr

/-- `rtcSendMessage`: a size of zero or more sends that many bytes as
binary, a negative one sends the NUL-terminated text. -/
def Wire.ofCall (buffer : List UInt8) (size : Int) : Wire :=
  if 0 ≤ size then .binary (buffer.take size.toNat)
  else .text (CString.upToNul buffer)

/-- The parts of the native layer that are not modelled: the code
`rtcSendMessage` returns, and nanobind's text for an argument it cannot
convert. -/
structure Rtc where
  sendMessage : Wire → Int
  argumentError : String

/-- `raise_rtc_error`. -/
def rtcError (code : Int) (ctx : String) : Exc :=
  let reason := if code = -1 then "invalid argument"
    else if code = -2 then "runtime failure"
    else if code = -3 then "not available"
    else if code = -4 then "buffer too small"
    else "unknown error"
  .rtcError (ctx ++ ": " ++ reason ++ " (" ++ toString code ++ ")") (some code)

/-- `check(rtcSendMessage(dc, buffer, size))`: the message on the wire,
or the exception raised. -/
def Rtc.call (rtc : Rtc) (buffer : List UInt8) (size : Int) : Except Exc Wire :=
  let wire := Wire.ofCall buffer size
  if rtc.sendMessage wire < 0
    then .error (rtcError (rtc.sendMessage wire) "rtcSendMessage")
  else .ok wire

/-- `send_bytes`. The buffer of a Python `bytes` ends in a NUL. -/
def Rtc.sendBytes (rtc : Rtc) (data : List UInt8) : Except Exc Wire :=
  rtc.call (data ++ [0]) (CString.toInt data.length)

/-- `send_text`. A `str` that cannot be encoded is no `std::string`. -/
def Rtc.sendText (rtc : Rtc) (text : PyStr) : Except Exc Wire :=
  match text.toChars? with
  | some chars => rtc.call (CString.encode chars ++ [0]) (-1)
  | none => .error (.typeError rtc.argumentError)

/-- The native call `send()` makes for a message of this kind. -/
def Rtc.send (rtc : Rtc) : Message → Except Exc Wire
  | .bytes data => rtc.sendBytes data
  | .str text => rtc.sendText text

/-- The argument cannot be converted, or libdatachannel returns an error
for the buffer and size it is given. -/
def Rtc.Refuses (rtc : Rtc) : Message → Prop
  | .bytes data =>
      rtc.sendMessage (Wire.ofCall (data ++ [0]) (CString.toInt data.length)) < 0
  | .str text =>
      match text.toChars? with
      | some chars =>
          rtc.sendMessage (Wire.ofCall (CString.encode chars ++ [0]) (-1)) < 0
      | none => True

-- ============================================================ receiving

/-- The buffer and size the message callback gets: binary with its
size, text NUL-terminated with minus its length plus one. -/
def Wire.toCallback : Wire → List UInt8 × Int
  | .binary data => (data, data.length)
  | .text data => (data ++ [0], -(data.length + 1))

/-- `tr_dc_message`, with the payload it dispatches. Text that is not
UTF-8 becomes no `str`, and nothing is dispatched. -/
def trDcMessage (buffer : List UInt8) (size : Int) : Option Message :=
  if size < 0 then
    (CString.decode? (CString.upToNul buffer)).map fun chars =>
      .str (PyStr.ofChars chars)
  else some (.bytes (buffer.take size.toNat))

/-- What a receiver's dispatcher is handed for a message on the wire. -/
def Wire.delivered (wire : Wire) : Option Message :=
  trDcMessage wire.toCallback.1 wire.toCallback.2

-- ===================================================== what comes across

/-- A size that is not negative makes a message of bytes. -/
theorem trDcMessage_of_nonneg {buffer : List UInt8} {size : Int} (h : 0 ≤ size) :
    trDcMessage buffer size = some (.bytes (buffer.take size.toNat)) :=
  if_neg (Int.not_lt.mpr h)

/-- A negative one makes it text, up to the first NUL. -/
theorem trDcMessage_of_neg {buffer : List UInt8} {size : Int} (h : size < 0) :
    trDcMessage buffer size
      = (CString.decode? (CString.upToNul buffer)).map fun chars =>
          .str (PyStr.ofChars chars) :=
  if_pos h

/-- A binary message is delivered as it was sent. -/
theorem delivered_binary (data : List UInt8) :
    (Wire.binary data).delivered = some (.bytes data) := by
  show trDcMessage data data.length = _
  rw [trDcMessage_of_nonneg (Int.natCast_nonneg _), Int.toNat_natCast,
    List.take_length]

/-- A text is delivered up to its first NUL, if that decodes. -/
theorem delivered_text (data : List UInt8) :
    (Wire.text data).delivered
      = (CString.decode? (CString.upToNul data)).map fun chars =>
          .str (PyStr.ofChars chars) := by
  show trDcMessage (data ++ [0]) (-(data.length + 1)) = _
  rw [trDcMessage_of_neg (by omega), CString.upToNul_append_zero]

/-- A text message never arrives as bytes. -/
theorem delivered_text_ne_bytes (text data : List UInt8) :
    (Wire.text text).delivered ≠ some (.bytes data) := by
  rw [delivered_text]
  intro h
  obtain ⟨_, -, hmsg⟩ := Option.map_eq_some_iff.mp h
  cases hmsg

/-- Bytes arrive as they were sent exactly when their number fits the
`int`. -/
theorem delivered_sendBytes {rtc : Rtc} {data : List UInt8} {wire : Wire}
    (h : rtc.sendBytes data = .ok wire) :
    wire.delivered = some (.bytes data) ↔ data.length < 2147483648 := by
  have hwire : wire = Wire.ofCall (data ++ [0]) (CString.toInt data.length) := by
    simp only [Rtc.sendBytes, Rtc.call] at h
    split at h
    · cases h
    · exact (Except.ok.inj h).symm
  by_cases hlen : data.length < 2147483648
  · have hsize : (0 : Int) ≤ data.length := by omega
    rw [hwire, CString.toInt_of_lt hlen, Wire.ofCall, if_pos hsize, delivered_binary]
    simp [hlen]
  · have hlt := CString.toInt_lt_of_le (Nat.le_of_not_lt hlen)
    simp only [hlen, iff_false]
    rw [hwire, Wire.ofCall]
    split
    next hsize =>
      rw [delivered_binary]
      intro hmsg
      have hcut := congrArg List.length (Message.bytes.inj (Option.some.inj hmsg))
      simp only [List.length_take, List.length_append, List.length_singleton] at hcut
      omega
    next => exact delivered_text_ne_bytes _ _

/-- Encodable text arrives cut at its first U+0000. -/
theorem delivered_sendText {rtc : Rtc} {text : PyStr} {wire : Wire}
    (h : rtc.sendText text = .ok wire) :
    wire.delivered = some (.str (text.takeWhile (· ≠ 0))) := by
  unfold Rtc.sendText at h
  split at h
  next chars hchars =>
    have hwire : wire = .text (CString.upToNul (CString.encode chars)) := by
      simp only [Rtc.call, Wire.ofCall, if_neg (show ¬ (0 : Int) ≤ -1 by decide),
        CString.upToNul_append_zero] at h
      split at h
      · cases h
      · exact (Except.ok.inj h).symm
    rw [hwire, delivered_text, CString.upToNul_upToNul, CString.upToNul_encode,
      CString.decode?_encode, Option.map_some, PyStr.ofChars_takeWhile,
      PyStr.ofChars_of_toChars? hchars]
  next => cases h

/-- The binding raises exactly if the native send fails. -/
theorem Rtc.call_eq_error_iff {rtc : Rtc} {buffer : List UInt8} {size : Int} :
    (∃ e, rtc.call buffer size = .error e)
      ↔ rtc.sendMessage (Wire.ofCall buffer size) < 0 := by
  simp only [Rtc.call]
  split
  next h => exact ⟨fun _ => h, fun _ => ⟨_, rfl⟩⟩
  next h => exact ⟨nofun, fun hlt => absurd hlt h⟩

/-- The native call raises exactly for what the layer refuses. -/
theorem Rtc.send_eq_error_iff {rtc : Rtc} {m : Message} :
    (∃ e, rtc.send m = .error e) ↔ rtc.Refuses m := by
  cases m with
  | bytes data => exact Rtc.call_eq_error_iff
  | str text =>
      simp only [Rtc.send, Rtc.sendText, Rtc.Refuses]
      cases text.toChars? with
      | none => exact ⟨fun _ => trivial, fun _ => ⟨_, rfl⟩⟩
      | some chars => exact Rtc.call_eq_error_iff

/-- The messages the two halves agree on: bytes whose number fits an
`int`, text without U+0000. -/
def Message.Fits : Message → Prop
  | .bytes data => data.length < 2147483648
  | .str text => 0 ∉ text

/-- What was put on the wire arrives as it was sent exactly when it
fits. -/
theorem delivered_send {rtc : Rtc} {m : Message} {wire : Wire}
    (h : rtc.send m = .ok wire) : wire.delivered = some m ↔ m.Fits := by
  cases m with
  | bytes data => exact delivered_sendBytes h
  | str text =>
      have hcut : text.takeWhile (· ≠ 0) = text ↔ 0 ∉ text := by
        rw [List.takeWhile_eq_self_iff]
        simp only [decide_eq_true_eq]
        exact ⟨fun hne hz => hne 0 hz rfl, fun hz p hp hp0 => hz (hp0 ▸ hp)⟩
      rw [delivered_sendText h, Option.some.injEq, Message.str.injEq]
      exact hcut

end AioLibDataChannel
