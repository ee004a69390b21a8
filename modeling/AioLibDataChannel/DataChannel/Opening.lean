/-
Whether a closed channel can leave `wait_open()` pending.

Both slots are settled by their history (`Slots`), and every closing
handled later settles both. The constructor is the exception: it finds a
channel already closed, settles the closed slot, and leaves the open slot
to a callback that may never come (`DcObs.closedAtBirth`).

`openResolved_iff` says this is the only way: along any run in which no
cancellation reaches a pending slot, a closed channel has its open slot
settled in every state exactly when the handle it was made for was not
closed, or was open as well. `bornClosed_leaves_pending` is the other
kind.
-/
import AioLibDataChannel.DataChannel.Isolation

namespace AioLibDataChannel

open Asyncio (Future Outcome)
open Transition (exec)

-- ============================================================ vocabulary

/-- An error or a closing was handled. -/
def DcObs.ends : DcObs → Bool
  | .errored _ => true
  | .closed => true
  | .closedAtBirth => true
  | _ => false

/-- The channel was seen open before any error or closing was handled. -/
def OpenedFirst (hist : List DcObs) : Prop :=
  ∃ pre post, hist = pre ++ .opened :: post ∧ ∀ o ∈ pre, o.ends = false

/-- Opened, `ConnectionClosedError`, or `RTCError`. -/
inductive OpenOutcome : Outcome Unit Exc → Prop
  | opened : OpenOutcome (.returned ())
  | closed (m : String) : OpenOutcome (.raised (.connectionClosedError m))
  | failed (m : String) (code : Option Int) : OpenOutcome (.raised (.rtcError m code))

namespace DcWorld

variable {w w' : DcWorld} {hist : List DcObs}

/-- A closed channel has its open slot settled, and the open slot says
whether the channel was seen open in time. -/
structure OpenResolved (w : DcWorld) : Prop where
  resolved : (w.slot .closed).done = true →
    ∃ o, w.slot .opened = .settled o ∧ OpenOutcome o
  success : w.slot .opened = .settled (.returned ()) ↔ OpenedFirst w.hist

-- =========================================================== the open slot

/-- An event that ends nothing settles the open slot as opened, if at
all. -/
theorem settles_of_not_ends {o : DcObs} {x : Outcome Unit Exc} (ho : o.ends = false)
    (hx : o.settles .opened = some x) : x = .returned () := by
  cases o with
  | opened => exact (Option.some.inj hx).symm
  | errored m => cases ho
  | closed => cases ho
  | _ => cases hx

/-- Read off a history whose constructor found no closed channel. -/
theorem slotOutcome_opened_iff (hb : DcObs.closedAtBirth ∉ hist) :
    slotOutcome .opened hist = .settled (.returned ()) ↔ OpenedFirst hist := by
  unfold slotOutcome
  constructor
  · intro h
    split at h
    next x hx =>
      cases h
      obtain ⟨pre, o, post, rfl, ho, hpre⟩ := List.findSome?_eq_some_iff.mp hx
      have hopened : o = .opened := by
        cases o with
        | opened => rfl
        | _ => cases ho
      subst hopened
      refine ⟨pre, post, rfl, fun p hp => ?_⟩
      have hnone := hpre p hp
      cases p with
      | errored m => cases hnone
      | closed => cases hnone
      | closedAtBirth => exact absurd (List.mem_append_left _ hp) hb
      | _ => rfl
    next => cases h
  · intro h
    obtain ⟨pre, post, rfl, hpre⟩ := h
    rw [List.findSome?_append]
    cases hfirst : pre.findSome? (DcObs.settles .opened) with
    | none => rfl
    | some x =>
        obtain ⟨o, hmem, ho⟩ := List.exists_of_findSome?_eq_some hfirst
        rw [settles_of_not_ends (hpre o hmem) ho]
        rfl

/-- Whatever the history settles it with. -/
theorem openOutcome_of_slotOutcome {o : Outcome Unit Exc}
    (h : slotOutcome .opened hist = .settled o) : OpenOutcome o := by
  unfold slotOutcome at h
  split at h
  next x hx =>
    cases h
    obtain ⟨e, -, he⟩ := List.exists_of_findSome?_eq_some hx
    cases e with
    | opened => cases he; exact .opened
    | errored m => cases he; exact .failed m none
    | closed => cases he; exact .closed _
    | _ => cases he
  next => cases h

/-- A future that is done holds an outcome. -/
theorem settled_of_done {f : Future Unit Exc} (h : f.done = true) :
    ∃ o, f = .settled o := by
  cases f with
  | pending => cases h
  | settled o => exact ⟨o, rfl⟩

-- ============================================================ the construction

/-- Only the constructor logs what it found. -/
theorem closedAtBirth_apply {a : DcAction} (h : apply a w = some w')
    (hb : DcObs.closedAtBirth ∈ w'.hist) : DcObs.closedAtBirth ∈ w.hist := by
  cases a with
  | native a => exact hist_applyNative h ▸ hb
  | sending a => exact hist_applySending h ▸ hb
  | loop a =>
      obtain ⟨-, hloop⟩ := apply_loop_cases h
      rcases applyLoop_hist_cases hloop with hh | ⟨o, -, ho, hh⟩ | ⟨e, rest, -, rfl⟩
        | ⟨hh, -⟩
      · exact hh ▸ hb
      · rw [hh] at hb
        rcases List.mem_append.mp hb with hold | hnew
        · exact hold
        · exact absurd (List.mem_singleton.mp hnew).symm ho
      · rcases mem_hist_runCallback hb with hold | ⟨-, ho⟩ | ⟨-, ho⟩ | ⟨m, ho⟩ | ⟨m, ho⟩
          | ⟨item, ho⟩
        · exact hold
        · cases ho
        · cases ho
        · cases ho
        · cases ho
        · cases ho
      · rw [hh, hist_destroy] at hb
        split at hb
        · exact hb
        · rcases List.mem_append.mp hb with hold | hnew
          · exact hold
          · cases List.mem_singleton.mp hnew

/-- A channel that closes settles its open slot, unless the constructor
found it closed. -/
theorem openResolved_of_held (hP : ∀ s, w.slot s = slotOutcome s w.hist)
    (hb : DcObs.closedAtBirth ∉ w.hist) : OpenResolved w where
  resolved := by
    intro hdone
    rw [hP] at hdone
    have hclosed : DcObs.closed ∈ w.hist := by
      unfold slotOutcome at hdone
      split at hdone
      next x hx =>
        obtain ⟨o, hmem, ho⟩ := List.exists_of_findSome?_eq_some hx
        cases o with
        | closed => exact hmem
        | closedAtBirth => exact absurd hmem hb
        | _ => cases ho
      next => cases hdone
    obtain ⟨o, ho⟩ := settled_of_done (slotOutcome_closed_done hclosed .opened)
    exact ⟨o, (hP .opened).trans ho, openOutcome_of_slotOutcome ho⟩
  success := by
    rw [hP]
    exact slotOutcome_opened_iff hb

/-- A channel that was open when its wrapper was made is seen open
first. -/
theorem openResolved_of_open {rest : List DcObs}
    (hP : ∀ s, w.slot s = slotOutcome s w.hist) (hh : w.hist = .opened :: rest) :
    OpenResolved w := by
  have hopen : w.slot .opened = .settled (.returned ()) := by
    rw [hP, hh]
    rfl
  exact ⟨fun _ => ⟨_, hopen, .opened⟩,
    fun _ => ⟨[], rest, hh, List.forall_mem_nil _⟩, fun _ => hopen⟩

section Init

variable (handle : Int) (recvBuffer : Nat) (native : NativeChannel)
  (fired : List DcEvent) (core : Core)

/-- Along a run that carries no cancellation to a pending slot, a closed
channel has its open slot settled throughout exactly when its handle was
not closed at construction, or was open too. -/
theorem openResolved_iff {acts : List DcAction} {v : DcWorld}
    (hrun : exec apply (init handle recvBuffer native fired core) acts = some v)
    (hspares : ∀ a w, Transition.Takes apply (init handle recvBuffer native fired core)
      acts a w → SparesSlots a w) :
    (∀ w, Transition.Visits apply (init handle recvBuffer native fired core) acts w →
        OpenResolved w) ↔
      (native.isClosed = true → native.isOpen = true) := by
  have hheld : ∀ w, Transition.Visits apply (init handle recvBuffer native fired core)
      acts w → ∀ s, w.slot s = slotOutcome s w.hist := fun w hw =>
    ((waitersIsolated_iff handle recvBuffer native fired core hrun).mpr hspares w hw).held
  constructor
  · intro hall hclosed
    by_contra hopen
    have hstart := (hall _ (Transition.visits_start acts)).resolved
    obtain ⟨isOpen, isClosed, amount, threshold⟩ := native
    cases hclosed
    cases isOpen with
    | true => exact hopen rfl
    | false =>
        obtain ⟨o, ho, -⟩ := hstart rfl
        cases ho
  · intro hok w hw
    have hreach := hw.reachable
    by_cases hclosed : native.isClosed = true
    · have hprefix : (init handle recvBuffer native fired core).hist <+: w.hist :=
        hreach.invariant
          (P := fun w => (init handle recvBuffer native fired core).hist <+: w.hist)
          List.prefix_rfl fun hm ha => hm.trans (hist_apply ha)
      obtain ⟨rest, hrest⟩ := hprefix
      have hopened : w.hist = .opened :: .closedAtBirth :: rest := by
        rw [← hrest]
        show ((if native.isOpen then [.opened] else [])
          ++ (if native.isClosed then [.closedAtBirth] else [])) ++ rest = _
        rw [if_pos (hok hclosed), if_pos hclosed]
        rfl
      exact openResolved_of_open (hheld w hw) hopened
    · refine openResolved_of_held (hheld w hw) ?_
      refine hreach.invariant (P := fun w => DcObs.closedAtBirth ∉ w.hist) ?_
        fun hm ha hb => hm (closedAtBirth_apply ha hb)
      show DcObs.closedAtBirth ∉ (if native.isOpen then [DcObs.opened] else [])
        ++ (if native.isClosed then [.closedAtBirth] else [])
      rw [if_neg hclosed, List.append_nil]
      split <;> simp

end Init

-- ======================================================= the failing run

/-- A channel that closed before it got its wrapper. -/
def closedNative : NativeChannel where
  isOpen := false
  isClosed := true
  bufferedAmount := 0
  threshold := 0

/-- A task waits for it to open. -/
def bornClosedRun : List DcAction := [.loop (.waitClosed (.user 0)), .loop (.waitOpen (.user 1))]

/-- `wait_closed()` has returned, `wait_open()` is suspended, and nothing
is scheduled. -/
theorem bornClosed_leaves_pending :
    ∃ w, exec apply (init 1 1024 closedNative [] emptyCore) bornClosedRun = some w
      ∧ w.slot .closed = .settled (.returned ()) ∧ w.slot .opened = .pending
      ∧ w.task (.user 0) = .running (some (.waitClosed, .returned none))
      ∧ w.task (.user 1) = .awaitingOpen ∧ w.ready = [] :=
  ⟨_, rfl, rfl, rfl, rfl, rfl, rfl⟩

/-- `openResolved_iff` at `bornClosedRun`, which breaks both sides. -/
theorem openResolved_iff_bornClosedRun :
    (∀ w, Transition.Visits apply (init 1 1024 closedNative [] emptyCore) bornClosedRun w →
        OpenResolved w) ↔
      (closedNative.isClosed = true → closedNative.isOpen = true) := by
  refine openResolved_iff 1 1024 closedNative [] emptyCore (v := _) rfl ?_
  refine (Transition.forall_takes_cons rfl).mpr ⟨?_, ?_⟩
  · intro s hr
    cases s <;> cases hr
  refine (Transition.forall_takes_cons rfl).mpr ⟨?_, Transition.forall_takes_nil⟩
  intro s hr
  cases s <;> cases hr

end DcWorld

end AioLibDataChannel
