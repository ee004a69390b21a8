/-
Reading the local description while the native side changes it.

One read is up to four native getter calls: `read_string` asks for a
length and then copies, and it does so for the SDP and again for its
type. Each call is atomic; between two of them a worker thread may
replace the description, take it away, or let it grow by a candidate.

`consistent_iff` is the exact condition. A copy must find no more text
than was measured, and the kind must be copied while it, or before it,
was held together with the SDP that had been copied: nothing looks at
the two again. `consistent_of_gentle` is the plain case: changes that do
not outgrow a measure, and leave the kind alone once the SDP is copied.

The getters of libdatachannel are a parameter, and what is assumed of
them is `GetterLaws`; everything around them is `read_string` and the
methods of `PeerConnection` that read.
-/
import AioLibDataChannel.PeerConnection.Machine
import AioLibDataChannel.Native.Bindings
import AioLibDataChannel.Transition.Run

namespace AioLibDataChannel

-- ========================================================= read_string

/-- The bytes of a text, with the NUL behind them. -/
def sizeWithNul (text : String) : Int := (CString.encode text.toList).length + 1

/-- A getter of libdatachannel, for a text the native side has or has
not and the size of the buffer, if there is one: what it returns, and
what it leaves in the buffer. -/
abbrev RtcGetter := Option String → Option Int → Int × String

/-- What a getter is assumed to do: without a buffer it returns the size
with NUL, into a buffer that is large enough it copies the text. -/
structure GetterLaws (rtcGet : RtcGetter) : Prop where
  notAvail : ∀ buffer, (rtcGet none buffer).1 = -3
  size : ∀ text, (rtcGet (some text) none).1 = sizeWithNul text
  tooSmall : ∀ text size, size < sizeWithNul text →
    (rtcGet (some text) (some size)).1 = -4
  copies : ∀ text size, sizeWithNul text ≤ size →
    rtcGet (some text) (some size) = (sizeWithNul text, text)

/-- `std::string(scratch.data())`, as a `str`. -/
def cStr (text : String) : String := String.ofList (text.toList.takeWhile (· ≠ '\x00'))

/-- That is what decoding the bytes up to the first NUL gives. -/
theorem decode?_eq_cStr (text : String) :
    (CString.decode? (CString.upToNul (CString.encode text.toList ++ [0]))).map
      String.ofList = some (cStr text) := by
  rw [CString.upToNul_append_zero, CString.upToNul_encode, CString.decode?_encode]
  rfl

/-- `read_string` after its first getter call: it is through, or asks
again with a buffer of this size. -/
inductive ReadString
  | through (result : Except Exc (Option String))
  | again (required : Int)
deriving Repr

def readStringSize (required : Int) (ctx : String) : ReadString :=
  if required = -3 then .through (.ok none)
  else if required < 0 then .through (.error (rtcError required ctx))
  else if required = 0 then .through (.ok (some ""))
  else .again required

/-- `read_string` after its second. -/
def readStringCopy (rc : Int) (scratch : String) (ctx : String) :
    Except Exc (Option String) :=
  if rc < 0 then .error (rtcError rc ctx) else .ok (some (cStr scratch))

-- ============================================================= the read

/-- The methods that read the local description. -/
inductive Reader
  | localDescription
  | createOffer
  | createAnswer
deriving DecidableEq, Repr

/-- The default the kind is coerced with. -/
def Reader.default : Reader → SdpType
  | .localDescription => .offer
  | .createOffer => .offer
  | .createAnswer => .answer

/-- The call whose final read this is. -/
def Reader.call? : Reader → Option PcCall
  | .localDescription => none
  | .createOffer => some .createOffer
  | .createAnswer => some .createAnswer

/-- The string libdatachannel has for a kind. -/
def SdpType.name : SdpType → String
  | .offer => "offer"
  | .answer => "answer"
  | .pranswer => "pranswer"
  | .rollback => "rollback"

/-- Where a read stands: the getter call it makes next, or its result. -/
inductive ReadStage
  | sdpSize
  | sdpCopy (required : Int)
  | typeSize (sdp : Option String)
  | typeCopy (sdp : Option String) (required : Int)
  | done (result : Except Exc (Option LocalDescription))
deriving Repr

/-- With the SDP read: `local_description` leaves without one, the other
two read the kind in any case. -/
def Reader.afterSdp (reader : Reader) (sdp : Option String) : ReadStage :=
  match reader, sdp with
  | .localDescription, none => .done (.ok none)
  | _, sdp => .typeSize sdp

/-- With the kind read as well. -/
def Reader.afterType (reader : Reader) (sdp kind : Option String) : ReadStage :=
  match sdp with
  | none =>
      .done (.error (.rtcError "local description not available after gathering" none))
  | some sdp => .done (.ok (some { sdp := sdp, type := coerceSdpType kind reader.default }))

/-- A read of the local description. `held` are the descriptions the
native side has had since it began. -/
structure DescriptionRead where
  reader : Reader
  native : Option LocalDescription
  held : List LocalDescription
  stage : ReadStage
deriving Repr

namespace DescriptionRead

def sdpCtx : String := "rtcGetLocalDescription"

def typeCtx : String := "rtcGetLocalDescriptionType"

/-- A read begins. -/
def init (reader : Reader) (native : Option LocalDescription) : DescriptionRead where
  reader := reader
  native := native
  held := native.toList
  stage := .sdpSize

def nativeSdp (w : DescriptionRead) : Option String := w.native.map LocalDescription.sdp

def nativeType (w : DescriptionRead) : Option String := w.native.map fun d => d.type.name

/-- What the next getter call does. -/
def call (rtcGet : RtcGetter) (w : DescriptionRead) : Option ReadStage :=
  match w.stage with
  | .sdpSize =>
      match readStringSize (rtcGet w.nativeSdp none).1 sdpCtx with
      | .through (.error e) => some (.done (.error e))
      | .through (.ok sdp) => some (w.reader.afterSdp sdp)
      | .again required => some (.sdpCopy required)
  | .sdpCopy required =>
      let (rc, scratch) := rtcGet w.nativeSdp (some required)
      match readStringCopy rc scratch sdpCtx with
      | .error e => some (.done (.error e))
      | .ok sdp => some (w.reader.afterSdp sdp)
  | .typeSize sdp =>
      match readStringSize (rtcGet w.nativeType none).1 typeCtx with
      | .through (.error e) => some (.done (.error e))
      | .through (.ok kind) => some (w.reader.afterType sdp kind)
      | .again required => some (.typeCopy sdp required)
  | .typeCopy sdp required =>
      let (rc, scratch) := rtcGet w.nativeType (some required)
      match readStringCopy rc scratch typeCtx with
      | .error e => some (.done (.error e))
      | .ok kind => some (w.reader.afterType sdp kind)
  | .done _ => none

/-- A worker thread changes the description, or the next getter call is
made. -/
inductive Action
  | change (next : Option LocalDescription)
  | call
deriving Repr

def finished (w : DescriptionRead) : Bool :=
  match w.stage with
  | .done _ => true
  | _ => false

/-- One step, as long as the read is under way. -/
def step (rtcGet : RtcGetter) : Action → DescriptionRead → Option DescriptionRead
  | .change next, w =>
      if w.finished then none
      else some { w with native := next, held := w.held ++ next.toList }
  | .call, w => (w.call rtcGet).map fun stage => { w with stage := stage }

-- ================================================= what a read is to give

/-- A read that is through did not fail for a buffer that is too small,
and a description it returned is one the native side had during it. -/
structure Consistent (w : DescriptionRead) : Prop where
  fits : ∀ message, w.stage ≠ .done (.error (.rtcError message (some (-4))))
  held : ∀ d, w.stage = .done (.ok (some d)) → d ∈ w.held

/-- A text fits the buffer made for it. -/
def Fits (text : Option String) (required : Int) : Prop :=
  ∀ s, text = some s → sizeWithNul s ≤ required

/-- The SDP that was read was held together with this kind. -/
def Paired (w : DescriptionRead) (sdp : Option String) (type : SdpType) : Prop :=
  ∀ s, sdp = some s → { sdp := s, type := type } ∈ w.held

/-- The getter call that a read makes next finds the description as the
calls before left it, as far as it matters: what is copied has not grown,
and the kind belongs to the SDP that was read. -/
def SteadyCall (w : DescriptionRead) : ReadStage → Prop
  | .sdpCopy required => Fits w.nativeSdp required
  | .typeSize sdp => w.native = none → Paired w sdp w.reader.default
  | .typeCopy sdp required =>
      Fits w.nativeType required ∧ ∀ d, w.native = some d → Paired w sdp d.type
  | _ => True

def Steady : Action → DescriptionRead → Prop
  | .change _, _ => True
  | .call, w => SteadyCall w w.stage

variable {rtcGet : RtcGetter} {w w' : DescriptionRead} {a : Action} {acts : List Action}
  {reader : Reader} {sdp : Option String} {required : Int}

-- =========================================================== the getters

/-- The NUL counts. -/
theorem sizeWithNul_pos (text : String) : 0 < sizeWithNul text := by
  unfold sizeWithNul
  omega

/-- Without a text there, the size call finds nothing. -/
theorem readStringSize_none (hget : GetterLaws rtcGet) (ctx : String) :
    readStringSize (rtcGet none none).1 ctx = .through (.ok none) := by
  rw [hget.notAvail]
  rfl

/-- With a text there, it asks for a buffer that holds it. -/
theorem readStringSize_some (hget : GetterLaws rtcGet) (text ctx : String) :
    readStringSize (rtcGet (some text) none).1 ctx = .again (sizeWithNul text) := by
  have hpos := sizeWithNul_pos text
  rw [hget.size]
  unfold readStringSize
  rw [if_neg (by omega), if_neg (by omega), if_neg (by omega)]

/-- A text that is gone by the copy call is an error. -/
theorem readStringCopy_none (hget : GetterLaws rtcGet) (ctx : String) (required : Int) :
    readStringCopy (rtcGet none (some required)).1 (rtcGet none (some required)).2 ctx
      = .error (rtcError (-3) ctx) := by
  rw [hget.notAvail]
  rfl

/-- The copy call returns the text, or finds the buffer too small. -/
theorem readStringCopy_some (hget : GetterLaws rtcGet) (text ctx : String) (required : Int) :
    readStringCopy (rtcGet (some text) (some required)).1
        (rtcGet (some text) (some required)).2 ctx
      = if sizeWithNul text ≤ required then .ok (some (cStr text))
        else .error (rtcError (-4) ctx) := by
  have hpos := sizeWithNul_pos text
  by_cases hfits : sizeWithNul text ≤ required
  · rw [hget.copies text required hfits, if_pos hfits]
    exact if_neg (by omega)
  · rw [hget.tooSmall text required (Int.not_le.mp hfits), if_neg hfits]
    rfl

/-- A kind comes back from its name. -/
theorem coerceSdpType_name (type default : SdpType) :
    coerceSdpType (some (cStr type.name)) default = type := by
  cases type <;> rfl

-- ================================================================ a step

/-- What the next getter call makes of each stage. -/
inductive Calls (w : DescriptionRead) : ReadStage → ReadStage → Prop
  | noSdp (hn : w.native = none) : Calls w .sdpSize (w.reader.afterSdp none)
  | sdpMeasured (d : LocalDescription) (hn : w.native = some d) :
      Calls w .sdpSize (.sdpCopy (sizeWithNul d.sdp))
  | sdpGone (required : Int) (hn : w.native = none) :
      Calls w (.sdpCopy required) (.done (.error (rtcError (-3) sdpCtx)))
  | sdpCopied (required : Int) (d : LocalDescription) (hn : w.native = some d)
      (hfits : sizeWithNul d.sdp ≤ required) :
      Calls w (.sdpCopy required) (w.reader.afterSdp (some (cStr d.sdp)))
  | sdpTooSmall (required : Int) (d : LocalDescription) (hn : w.native = some d)
      (hfits : ¬ sizeWithNul d.sdp ≤ required) :
      Calls w (.sdpCopy required) (.done (.error (rtcError (-4) sdpCtx)))
  | noType (sdp : Option String) (hn : w.native = none) :
      Calls w (.typeSize sdp) (w.reader.afterType sdp none)
  | typeMeasured (sdp : Option String) (d : LocalDescription) (hn : w.native = some d) :
      Calls w (.typeSize sdp) (.typeCopy sdp (sizeWithNul d.type.name))
  | typeGone (sdp : Option String) (required : Int) (hn : w.native = none) :
      Calls w (.typeCopy sdp required) (.done (.error (rtcError (-3) typeCtx)))
  | typeCopied (sdp : Option String) (required : Int) (d : LocalDescription)
      (hn : w.native = some d) (hfits : sizeWithNul d.type.name ≤ required) :
      Calls w (.typeCopy sdp required) (w.reader.afterType sdp (some (cStr d.type.name)))
  | typeTooSmall (sdp : Option String) (required : Int) (d : LocalDescription)
      (hn : w.native = some d) (hfits : ¬ sizeWithNul d.type.name ≤ required) :
      Calls w (.typeCopy sdp required) (.done (.error (rtcError (-4) typeCtx)))

/-- A getter call does no other thing. -/
theorem calls_of_call (hget : GetterLaws rtcGet) {next : ReadStage}
    (h : w.call rtcGet = some next) : Calls w w.stage next := by
  obtain ⟨reader, native, held, stage⟩ := w
  cases stage with
  | sdpSize =>
      cases native with
      | none =>
          simp only [call, nativeSdp, Option.map_none, readStringSize_none hget] at h
          cases h
          exact .noSdp rfl
      | some d =>
          simp only [call, nativeSdp, Option.map_some, readStringSize_some hget] at h
          cases h
          exact .sdpMeasured d rfl
  | sdpCopy required =>
      cases native with
      | none =>
          simp only [call, nativeSdp, Option.map_none, readStringCopy_none hget] at h
          cases h
          exact .sdpGone required rfl
      | some d =>
          simp only [call, nativeSdp, Option.map_some, readStringCopy_some hget] at h
          by_cases hfits : sizeWithNul d.sdp ≤ required
          · simp only [if_pos hfits] at h
            cases h
            exact .sdpCopied required d rfl hfits
          · simp only [if_neg hfits] at h
            cases h
            exact .sdpTooSmall required d rfl hfits
  | typeSize sdp =>
      cases native with
      | none =>
          simp only [call, nativeType, Option.map_none, readStringSize_none hget] at h
          cases h
          exact .noType sdp rfl
      | some d =>
          simp only [call, nativeType, Option.map_some, readStringSize_some hget] at h
          cases h
          exact .typeMeasured sdp d rfl
  | typeCopy sdp required =>
      cases native with
      | none =>
          simp only [call, nativeType, Option.map_none, readStringCopy_none hget] at h
          cases h
          exact .typeGone sdp required rfl
      | some d =>
          simp only [call, nativeType, Option.map_some, readStringCopy_some hget] at h
          by_cases hfits : sizeWithNul d.type.name ≤ required
          · simp only [if_pos hfits] at h
            cases h
            exact .typeCopied sdp required d rfl hfits
          · simp only [if_neg hfits] at h
            cases h
            exact .typeTooSmall sdp required d rfl hfits
  | done result => cases h

-- ============================================================ consistency

/-- A read that is under way has broken no promise. -/
theorem consistent_of_undone (h : ∀ result, w.stage ≠ .done result) : Consistent w :=
  ⟨fun _ => h _, fun _ hd => absurd hd (h _)⟩

/-- Another error is none that a read must not end with. -/
theorem consistent_of_error {message : String} {code : Option Int}
    (h : w.stage = .done (.error (.rtcError message code))) :
    Consistent w ↔ code ≠ some (-4) := by
  constructor
  · rintro hc rfl
    exact hc.fits message h
  · intro hcode
    refine ⟨fun m hm => ?_, fun d hd => ?_⟩
    · rw [h] at hm
      cases hm
      exact hcode rfl
    · rw [h] at hd
      cases hd

/-- A read that finds nothing returns nothing. -/
theorem consistent_of_none (h : w.stage = .done (.ok none)) : Consistent w := by
  refine ⟨?_, ?_⟩
  · intro m hm
    cases h.symm.trans hm
  · intro d hd
    cases h.symm.trans hd

/-- The SDP alone breaks no promise. -/
theorem consistent_afterSdp (h : w.stage = reader.afterSdp sdp) : Consistent w := by
  cases reader with
  | localDescription =>
      cases sdp with
      | none => exact consistent_of_none h
      | some s => exact consistent_of_undone fun _ hd => nomatch h.symm.trans hd
  | createOffer => exact consistent_of_undone fun _ hd => nomatch h.symm.trans hd
  | createAnswer => exact consistent_of_undone fun _ hd => nomatch h.symm.trans hd

/-- The pair that is returned has to have been held. -/
theorem consistent_afterType {kind : Option String}
    (h : w.stage = reader.afterType sdp kind) :
    Consistent w ↔ Paired w sdp (coerceSdpType kind reader.default) := by
  cases sdp with
  | none => exact iff_of_true ((consistent_of_error h).mpr nofun) nofun
  | some s =>
      constructor
      · intro hc t ht
        cases ht
        exact hc.held _ h
      · intro hpair
        refine ⟨?_, ?_⟩
        · intro m hm
          cases h.symm.trans hm
        · intro d hd
          cases h.symm.trans hd
          exact hpair s rfl

/-- A read that is not finished has no result. -/
theorem undone_of_finished (h : w.finished = false) (result) : w.stage ≠ .done result := by
  intro hd
  rw [finished, hd] at h
  cases h

/-- No text fits any buffer. -/
theorem fits_none (required : Int) : Fits none required := nofun

/-- A text fits if its size does. -/
theorem fits_some {text : String} :
    Fits (some text) required ↔ sizeWithNul text ≤ required := by
  constructor
  · intro h
    exact h text rfl
  · intro h s hs
    cases hs
    exact h

/-- A getter call keeps a read consistent exactly if it finds the
description steady. -/
theorem consistent_call_iff {next : ReadStage} (h : Calls w w.stage next)
    (hw : w' = { w with stage := next }) : Consistent w' ↔ SteadyCall w w.stage := by
  generalize hstage : w.stage = before at h
  subst hw
  cases h with
  | noSdp hn => exact iff_of_true (consistent_afterSdp rfl) trivial
  | sdpMeasured d hn => exact iff_of_true (consistent_of_undone nofun) trivial
  | sdpGone required hn =>
      refine iff_of_true ((consistent_of_error rfl).mpr (by decide)) ?_
      show Fits w.nativeSdp required
      rw [nativeSdp, hn]
      exact fits_none required
  | sdpCopied required d hn hfits =>
      refine iff_of_true (consistent_afterSdp rfl) ?_
      show Fits w.nativeSdp required
      rw [nativeSdp, hn]
      exact fits_some.mpr hfits
  | sdpTooSmall required d hn hfits =>
      refine iff_of_false ?_ ?_
      · intro hc
        exact (consistent_of_error rfl).mp hc rfl
      · show ¬ Fits w.nativeSdp required
        rw [nativeSdp, hn]
        exact fun hf => hfits (fits_some.mp hf)
  | noType sdp hn =>
      rw [consistent_afterType rfl]
      show _ ↔ (w.native = none → Paired w sdp w.reader.default)
      exact ⟨fun hp _ => hp, fun hp => hp hn⟩
  | typeMeasured sdp d hn =>
      refine iff_of_true (consistent_of_undone nofun) ?_
      show w.native = none → _
      rw [hn]
      nofun
  | typeGone sdp required hn =>
      refine iff_of_true ((consistent_of_error rfl).mpr (by decide)) ?_
      show Fits w.nativeType required ∧ ∀ d, w.native = some d → Paired w sdp d.type
      rw [nativeType, hn]
      exact ⟨fits_none required, nofun⟩
  | typeCopied sdp required d hn hfits =>
      rw [consistent_afterType rfl, coerceSdpType_name]
      show _ ↔ Fits w.nativeType required ∧ ∀ d, w.native = some d → Paired w sdp d.type
      rw [nativeType, hn]
      constructor
      · intro hp
        refine ⟨fits_some.mpr hfits, ?_⟩
        intro e he
        cases he
        exact hp
      · intro hboth
        exact hboth.2 d rfl
  | typeTooSmall sdp required d hn hfits =>
      refine iff_of_false ?_ ?_
      · intro hc
        exact (consistent_of_error rfl).mp hc rfl
      · show ¬ (Fits w.nativeType required ∧ _)
        rw [nativeType, hn]
        exact fun hboth => hfits (fits_some.mp hboth.1)

/-- A step keeps a read consistent exactly if it is steady. -/
theorem consistent_step_iff (hget : GetterLaws rtcGet) (h : step rtcGet a w = some w') :
    Consistent w' ↔ Steady a w := by
  cases a with
  | change next =>
      simp only [step] at h
      split at h
      next => cases h
      next hopen =>
        cases h
        have hundone := undone_of_finished (eq_false_of_ne_true hopen)
        exact iff_of_true (consistent_of_undone hundone) trivial
  | call =>
      obtain ⟨next, hcall, hw⟩ := Option.map_eq_some_iff.mp h
      exact consistent_call_iff (calls_of_call hget hcall) hw.symm

/-- A read of a description that is changed under it fails for no buffer
that is too small, and returns a description the native side had,
exactly if each of its getter calls finds the description steady. -/
theorem consistent_iff (hget : GetterLaws rtcGet) {native : Option LocalDescription}
    (hrun : Transition.exec (step rtcGet) (init reader native) acts = some w) :
    (∀ m, Transition.Visits (step rtcGet) (init reader native) acts m → Consistent m) ↔
      ∀ a m, Transition.Takes (step rtcGet) (init reader native) acts a m → Steady a m :=
  Transition.visits_iff_takes (I := fun _ => True) hrun (consistent_of_undone nofun) trivial
    (fun _ _ => trivial) fun _ _ h => consistent_step_iff hget h

-- ======================================================== gentle changes

/-- A change that brings no NUL, does not outgrow the text that was
measured, and, once the SDP is copied, leaves the kind alone. -/
def Gentle : Action → DescriptionRead → Prop
  | .call, _ => True
  | .change next, w =>
      (∀ d, next = some d → '\x00' ∉ d.sdp.toList) ∧
        match w.stage with
        | .sdpCopy required => Fits (next.map LocalDescription.sdp) required
        | .typeSize _ => next.map LocalDescription.type = w.native.map LocalDescription.type
        | .typeCopy _ _ => next.map LocalDescription.type = w.native.map LocalDescription.type
        | _ => True

/-- The kind that is held was held together with the SDP that was read. -/
def Matching (w : DescriptionRead) (sdp : Option String) : Prop :=
  ∀ s, sdp = some s → ∃ type, w.native.map LocalDescription.type = some type
    ∧ { sdp := s, type := type } ∈ w.held

/-- What gentle changes leave of each stage. -/
def Settled (w : DescriptionRead) : ReadStage → Prop
  | .sdpCopy required => Fits w.nativeSdp required
  | .typeSize sdp => Matching w sdp
  | .typeCopy sdp required => Fits w.nativeType required ∧ Matching w sdp
  | _ => True

structure GentleInv (w : DescriptionRead) : Prop where
  held : ∀ d, w.native = some d → d ∈ w.held
  nul : ∀ d, w.native = some d → '\x00' ∉ d.sdp.toList
  settled : Settled w w.stage

/-- A text without a NUL is read whole. -/
theorem cStr_of_notMem {text : String} (h : '\x00' ∉ text.toList) : cStr text = text := by
  have hall : ∀ c ∈ text.toList, decide (c ≠ '\x00') = true := fun c hc =>
    decide_eq_true fun heq => h (heq ▸ hc)
  rw [cStr, List.takeWhile_eq_self_iff.mpr hall, String.ofList_toList]

/-- A kind that a change leaves alone stays the one held. -/
theorem Matching.of_type (h : Matching w sdp)
    (htype : w'.native.map LocalDescription.type = w.native.map LocalDescription.type)
    (hheld : w.held ⊆ w'.held) : Matching w' sdp := by
  intro s hs
  obtain ⟨type, hn, hmem⟩ := h s hs
  exact ⟨type, htype.trans hn, hheld hmem⟩

/-- The getter of the kind reads the kind's name. -/
theorem nativeType_eq (w : DescriptionRead) :
    w.nativeType = (w.native.map LocalDescription.type).map SdpType.name := by
  rw [nativeType, Option.map_map]
  rfl

/-- A getter call finds what gentle changes left. -/
theorem gentleInv_call {next : ReadStage} (hi : GentleInv w) (h : Calls w w.stage next) :
    GentleInv { w with stage := next } := by
  refine ⟨hi.held, hi.nul, ?_⟩
  have hset := hi.settled
  generalize w.stage = before at h hset
  have hsdp : ∀ sdp, Matching w sdp → Settled w (w.reader.afterSdp sdp) := by
    intro sdp hm
    cases w.reader <;> cases sdp <;> first | exact trivial | exact hm
  have htype : ∀ sdp kind, Settled w (w.reader.afterType sdp kind) := by
    intro sdp kind
    cases sdp <;> exact trivial
  cases h with
  | noSdp hn => exact hsdp none (by intro s hs; cases hs)
  | sdpMeasured d hn =>
      show Fits w.nativeSdp _
      rw [nativeSdp, hn]
      exact fits_some.mpr (Int.le_refl _)
  | sdpCopied required d hn hfits =>
      refine hsdp _ fun s hs => ⟨d.type, by rw [hn]; rfl, ?_⟩
      cases hs
      rw [cStr_of_notMem (hi.nul d hn)]
      exact hi.held d hn
  | noType sdp hn => exact htype sdp none
  | typeMeasured sdp d hn =>
      refine ⟨?_, hset⟩
      show Fits w.nativeType _
      rw [nativeType, hn]
      exact fits_some.mpr (Int.le_refl _)
  | typeCopied sdp required d hn hfits => exact htype sdp _
  | _ => exact trivial

/-- A gentle step leaves what it found. -/
theorem gentleInv_step (hget : GetterLaws rtcGet) (hi : GentleInv w) (hok : Gentle a w)
    (h : step rtcGet a w = some w') : GentleInv w' := by
  cases a with
  | call =>
      obtain ⟨next, hcall, rfl⟩ := Option.map_eq_some_iff.mp h
      exact gentleInv_call hi (calls_of_call hget hcall)
  | change next =>
      obtain ⟨-, h⟩ := Option.ite_none_left_eq_some.mp h
      obtain ⟨hnul, hstage⟩ := hok
      cases h
      have hsub : w.held ⊆ w.held ++ next.toList := List.subset_append_left _ _
      refine ⟨fun d hd => ?_, hnul, ?_⟩
      · exact List.mem_append_right _ (Option.mem_toList.mpr hd)
      · have hset := hi.settled
        show Settled { w with native := next, held := w.held ++ next.toList } w.stage
        cases hs : w.stage with
        | sdpCopy required =>
            rw [hs] at hstage
            exact hstage
        | typeSize sdp =>
            rw [hs] at hstage hset
            exact Matching.of_type (w := w) hset hstage hsub
        | typeCopy sdp required =>
            rw [hs] at hstage hset
            refine ⟨?_, Matching.of_type (w := w) hset.2 hstage hsub⟩
            have hfits := hset.1
            rw [nativeType_eq] at hfits ⊢
            exact hstage ▸ hfits
        | _ => exact trivial

/-- What gentle changes leave is steady. -/
theorem steady_of_gentleInv (hi : GentleInv w) (a : Action) : Steady a w := by
  cases a with
  | change next => exact trivial
  | call =>
      have hset := hi.settled
      show SteadyCall w w.stage
      cases hs : w.stage with
      | sdpCopy required =>
          rw [hs] at hset
          exact hset
      | typeSize sdp =>
          rw [hs] at hset
          intro hn s hsdp
          obtain ⟨type, ht, -⟩ := hset s hsdp
          rw [hn] at ht
          cases ht
      | typeCopy sdp required =>
          rw [hs] at hset
          refine ⟨hset.1, fun d hd s hsdp => ?_⟩
          obtain ⟨type, ht, hmem⟩ := hset.2 s hsdp
          rw [hd] at ht
          cases ht
          exact hmem
      | _ => exact trivial

/-- As long as no change outgrows a measure or touches the kind once the
SDP is copied, every read is consistent. -/
theorem consistent_of_gentle (hget : GetterLaws rtcGet) {native : Option LocalDescription}
    (hnul : ∀ d, native = some d → '\x00' ∉ d.sdp.toList)
    (hok : ∀ a m, Transition.Takes (step rtcGet) (init reader native) acts a m → Gentle a m) :
    ∀ m, Transition.Visits (step rtcGet) (init reader native) acts m → Consistent m := by
  have hinit : GentleInv (init reader native) :=
    ⟨fun d hd => Option.mem_toList.mpr hd, hnul, trivial⟩
  have hboth := Transition.visits_of_takes (P := fun v => GentleInv v ∧ Consistent v)
    ⟨hinit, consistent_of_undone nofun⟩ (fun hm hg h => ⟨gentleInv_step hget hm.1 hg h,
      (consistent_step_iff hget h).mpr (steady_of_gentleInv hm.1 _)⟩) hok
  exact fun m hm => (hboth m hm).2

-- ==================================================== the calls that read

/-- What `create_offer` and `create_answer` make of a read that is
through. -/
def outcome : Except Exc (Option LocalDescription) → Option (Asyncio.Outcome PcResult Exc)
  | .ok (some d) => some (.returned (.description d))
  | .error e => some (.raised e)
  | .ok none => none

/-- The final read ends as `readDescription` has it, whatever the getters
answered. -/
theorem afterType_eq_readDescription {call : PcCall} (hcall : reader.call? = some call)
    (sdp kind : Option String) :
    ∃ result, reader.afterType sdp kind = .done result
      ∧ outcome result = some (PcWorld.readDescription call (.ok (sdp, kind))) := by
  cases reader with
  | localDescription => cases hcall
  | createOffer =>
      cases hcall
      cases sdp <;> exact ⟨_, rfl, rfl⟩
  | createAnswer =>
      cases hcall
      cases sdp <;> exact ⟨_, rfl, rfl⟩

-- ======================================================= the failing runs

def offered : LocalDescription := { sdp := "v=0", type := .offer }

/-- The same offer, with a candidate more. -/
def grown : LocalDescription := { sdp := "v=0 a=candidate", type := .offer }

def answered : LocalDescription := { sdp := "v=1", type := .answer }

/-- A candidate is added after the size was asked for. -/
def growingRun : List Action := [.call, .change (some grown), .call]

/-- The offer is replaced after its SDP was copied. -/
def replacedRun : List Action := [.call, .call, .change (some answered), .call, .call]

/-- A getter that does what is assumed, and leaves an empty buffer where
it copies nothing. -/
def copyingGetter : RtcGetter
  | none, _ => (-3, "")
  | some text, none => (sizeWithNul text, "")
  | some text, some size =>
      if size < sizeWithNul text then (-4, "") else (sizeWithNul text, text)

/-- It does what is assumed. -/
theorem copyingGetter_laws : GetterLaws copyingGetter where
  notAvail _ := rfl
  size _ := rfl
  tooSmall text size h := by rw [copyingGetter, if_pos h]
  copies text size h := by rw [copyingGetter, if_neg (Int.not_lt.mpr h)]

/-- The first read fails for a buffer that is too small. The second
returns the SDP of the offer as an answer. -/
theorem changing_reads :
    (∃ w, Transition.exec (step copyingGetter) (init .localDescription (some offered))
          growingRun = some w
        ∧ w.stage = .done (.error (rtcError (-4) sdpCtx)))
      ∧ ∃ w, Transition.exec (step copyingGetter) (init .localDescription (some offered))
          replacedRun = some w
        ∧ w.stage = .done (.ok (some { sdp := "v=0", type := .answer }))
        ∧ { sdp := "v=0", type := .answer } ∉ w.held :=
  ⟨⟨_, rfl, rfl⟩, ⟨_, rfl, rfl, by decide⟩⟩

/-- `consistent_iff` at `replacedRun`, which breaks both sides. -/
theorem consistent_iff_replacedRun :
    (∀ m, Transition.Visits (step copyingGetter) (init .localDescription (some offered))
          replacedRun m → Consistent m) ↔
      ∀ a m, Transition.Takes (step copyingGetter) (init .localDescription (some offered))
          replacedRun a m → Steady a m :=
  consistent_iff copyingGetter_laws (w := _) rfl

end DescriptionRead

end AioLibDataChannel
