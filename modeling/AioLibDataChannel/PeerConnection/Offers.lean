/-
Whether a returned offer or answer is complete.

`create_offer()` and `create_answer()` wait for `gatheringComplete`, and
`_handle_state_change` resolves that slot too when the connection is
closed or failed, with the same value as the end of gathering. A call
that waits then goes on to read the local description, and returns it
if the native getter still answers.

`offersComplete_iff` says this is the only way: along any run, whatever
a call may return next is complete exactly when no such report meets a
waiting call on a live handle. `failedOfferRun` is one that does.
-/
import AioLibDataChannel.PeerConnection.Results

namespace AioLibDataChannel

open Asyncio (Future Outcome)
open Transition (exec)

namespace PcWorld

variable {w w' : PcWorld} {a : PcAction} {t : TaskId}

section Run

variable (handle : Int) (core : Core)

/-- The run dispatched the end of gathering after the slots were reset
with this ticket. -/
def GatheringCompleted (as : List PcAction) (ticket : Nat) : Prop :=
  ∃ m rest, Transition.Takes apply (init handle core) as (.loop .dispatch) m
    ∧ m.ready = .event (.gatheringStateChange .complete) :: rest
    ∧ ticket ≤ m.pc.gatheringComplete.ticket

/-- Wherever the run is, a call that returns a description next, read
from a handle that answers, does so after the end of its gathering was
dispatched. -/
def OffersComplete (as : List PcAction) : Prop :=
  ∀ pre w, pre <+: as → exec apply (init handle core) pre = some w →
    ∀ t call ticket read v desc, w.task t = .awaitingGathering call ticket →
      w.answers read = true → apply (.loop (.resume t read)) w = some v →
      v.task t = .running (some (call, .returned (.description desc))) →
      GatheringCompleted handle core pre ticket

end Run

/-- The step does not report the connection as closed or failed while a
call waits for the end of gathering and the handle is still there. -/
def ReportsLate (a : PcAction) (w : PcWorld) : Prop :=
  a = .loop .dispatch → w.pc.native.handle ∉ w.core.deletedPcs →
    ∀ state rest, w.ready = .event (.stateChange state) :: rest →
      state = .closed ∨ state = .failed → ∀ t, ¬ Waits w t .gatheringComplete

-- =========================================================== every run

section Invariant

variable {handle : Int} {core : Core} {as : List PcAction}

/-- What was dispatched stays dispatched. -/
theorem GatheringCompleted.snoc {ticket : Nat} (a : PcAction)
    (h : GatheringCompleted handle core as ticket) :
    GatheringCompleted handle core (as ++ [a]) ticket := by
  obtain ⟨m, rest, htake, hr, hle⟩ := h
  exact ⟨m, rest, Transition.takes_snoc_iff.mpr (Or.inl htake), hr, hle⟩

/-- What every run keeps: the end of gathering settles every ticket
handed out before. -/
structure GatheringInv (handle : Int) (core : Core) (as : List PcAction) (w : PcWorld) :
    Prop where
  ticketed : Ticketed w
  owed : OwedInv w
  settled : ∀ ticket, GatheringCompleted handle core as ticket →
    ticket ≤ w.pc.gatheringComplete.ticket
      ∧ w.pc.settled .gatheringComplete ticket = true

/-- No gathering has ended yet. -/
theorem gatheringInv_init : GatheringInv handle core [] (init handle core) where
  ticketed := ticketed_init handle core
  owed := owedInv_init handle core
  settled := by
    intro ticket h
    obtain ⟨m, rest, htake, -, -⟩ := h
    cases htake.mem

/-- The end of gathering settles every ticket that is out. -/
theorem gatheringInv_apply (hrun : exec apply (init handle core) as = some w)
    (hi : GatheringInv handle core as w) (h : apply a w = some w') :
    GatheringInv handle core (as ++ [a]) w' where
  ticketed := ticketed_apply hi.ticketed h
  owed := owedInv_apply hi.ticketed hi.owed h
  settled := by
    intro ticket hdone
    obtain ⟨m, rest, htake, hr, hle⟩ := hdone
    rcases Transition.takes_snoc_iff.mp htake with htake | ⟨rfl, hm⟩
    · obtain ⟨hle', hs⟩ := hi.settled ticket ⟨m, rest, htake, hr, hle⟩
      exact ⟨Nat.le_trans hle' ((later_apply h).ticket_le .gatheringComplete),
        (later_apply h).settled_of_settled hle' hs⟩
    · cases hrun.symm.trans hm
      exact ⟨Nat.le_trans hle ((later_apply h).ticket_le .gatheringComplete),
        settled_of_settles hr rfl h ticket⟩

/-- In every run the end of gathering settles every ticket that was
out. -/
theorem gatheringInv_exec (hrun : exec apply (init handle core) as = some w) :
    GatheringInv handle core as w :=
  Transition.exec_invariant gatheringInv_init gatheringInv_apply hrun

-- ================================================= runs that report late

/-- A call that has its result has it from the end of gathering, or can
read nothing any more. -/
def Resolved (handle : Int) (core : Core) (as : List PcAction) (w : PcWorld) : Prop :=
  ∀ t ticket, (w.task t).awaits = some (.gatheringComplete, ticket) →
    w.pc.gatheringComplete.nth ticket = .settled (.returned ()) →
    GatheringCompleted handle core as ticket ∨ w.pc.native.handle ∈ w.core.deletedPcs

/-- Nobody has a result yet. -/
theorem resolved_init : Resolved handle core [] (init handle core) := by
  intro t ticket ht
  cases t <;> cases ht

/-- A step that reports late resolves a waiter by the end of its gathering
only. -/
theorem resolved_apply (hrun : exec apply (init handle core) as = some w)
    (hi : Resolved handle core as w) (hok : ReportsLate a w) (h : apply a w = some w') :
    Resolved handle core (as ++ [a]) w' := by
  intro t ticket ht hres
  rcases awaits_apply h ht with hold | hstarts
  · by_cases hdel : w.pc.native.handle ∈ w.core.deletedPcs
    · exact Or.inr ((shutdown_step h).deleted_of_deleted hdel)
    rcases gathering_result h hres with hbefore | ⟨rfl, hpending, hle, e, rest, hr, hs⟩
    · exact Or.inl (((hi t ticket hold hbefore).resolve_right hdel).snoc a)
    · left
      have hinv := gatheringInv_exec hrun
      cases e with
      | gatheringStateChange state =>
          cases of_decide_eq_true hs
          exact ⟨w, rest, Transition.takes_snoc_iff.mpr (Or.inr ⟨rfl, hrun⟩), hr,
            hinv.ticketed t _ ticket hold⟩
      | stateChange state =>
          refine absurd ?_ (hok rfl hdel state rest hr (of_decide_eq_true hs) t)
          refine ⟨ticket, hold, ?_⟩
          show (w.pc.gatheringComplete.nth ticket).done = false
          rw [FutureSlot.nth_of_ticket_le hle, hpending]
          rfl
      | localDescription desc => cases hs
      | dataChannel handle => cases hs
  · exact absurd hres (fresh_gathering hstarts h ht)

/-- A run of steps that report late resolves its waiters by the end of
their gathering. -/
theorem resolved_exec
    (hok : ∀ a m, Transition.Takes apply (init handle core) as a m → ReportsLate a m)
    (hrun : exec apply (init handle core) as = some w) : Resolved handle core as w :=
  Transition.exec_of_takes resolved_init resolved_apply hok hrun

/-- Who awaits that slot is in one of the two calls. -/
theorem eq_awaitingGathering {st : PcTask} {ticket : Nat}
    (h : st.awaits = some (.gatheringComplete, ticket)) :
    ∃ call, st = .awaitingGathering call ticket := by
  cases st with
  | awaitingGathering call k =>
      obtain ⟨-, rfl⟩ := Prod.mk.inj (Option.some.inj h)
      exact ⟨call, rfl⟩
  | awaitingLocal k => cases h
  | _ => cases h

/-- Runs that report late return complete offers. -/
theorem offersComplete_of_late
    (hok : ∀ a m, Transition.Takes apply (init handle core) as a m → ReportsLate a m) :
    OffersComplete handle core as := by
  intro pre w hpre hexec t call ticket read v desc ht hans hv hret
  have hres : Resolved handle core pre w :=
    resolved_exec (fun a m htake => hok a m (htake.mono hpre)) hexec
  obtain ⟨hdone, hread⟩ := resume_gathering ht hv hret
  have hawaits : (w.task t).awaits = some (.gatheringComplete, ticket) := by
    rw [ht]
    rfl
  refine (hres t ticket hawaits hdone).resolve_right ?_
  cases read with
  | error e => cases hread
  | ok answer => exact of_decide_eq_true hans

-- ======================================================== the other runs

/-- A report resolves the future of a call that waits. -/
theorem resolved_by_report {ticket : Nat} {state : RTCState}
    (hstate : state = .closed ∨ state = .failed)
    (hs : w.pc.settled .gatheringComplete ticket = false) :
    (w.pc.handleStateChange state).gatheringComplete.nth ticket
      = .settled (.returned ()) := by
  have hpending : (w.pc.gatheringComplete.nth ticket).done = false := hs
  have hslot : (w.pc.handleStateChange state).gatheringComplete
      = w.pc.gatheringComplete.set () := by
    rw [PeerConnection.handleStateChange, if_pos hstate]
    simp only [FutureSlot.future_of_nth hpending]
    rfl
  rw [hslot]
  exact FutureSlot.nth_set_of_pending () hpending

/-- A call whose future holds a result, and which owes no cancellation,
returns what it reads. -/
theorem resume_resolved {ticket : Nat} {call : PcCall}
    (read : Except Exc (Option String × Option String))
    (ht : w.task t = .awaitingGathering call ticket)
    (hres : w.pc.gatheringComplete.nth ticket = .settled (.returned ()))
    (hm : w.mustCancel t = false) :
    apply (.loop (.resume t read)) w
      = some (w.finishCall t call (readDescription call read)) := by
  simp only [apply, applyLoop, resume, ht, hres, endWait, hm]
  rfl

/-- Runs that return complete offers report late. -/
theorem late_of_offersComplete (hall : OffersComplete handle core as) :
    ∀ a m, Transition.Takes apply (init handle core) as a m → ReportsLate a m := by
  intro a m htake ha hlive state rest hr hstate t hwait
  subst ha
  obtain ⟨pre, hpre, hexec⟩ := htake
  have hinv := gatheringInv_exec hexec
  obtain ⟨ticket, hawaits, hs⟩ := hwait
  obtain ⟨call, ht⟩ := eq_awaitingGathering hawaits
  have hm : m.mustCancel t = false := hinv.owed t _ ⟨ticket, hawaits, hs⟩
  let m' : PcWorld := { m with ready := rest, pc := m.pc.handleStateChange state }
  have hexec' : exec apply (init handle core) (pre ++ [.loop .dispatch]) = some m' := by
    rw [Transition.exec_snoc, hexec]
    show m.dispatch = _
    simp only [dispatch, hr, m']
  have hans : m'.answers (Except.ok (some "v=0", none) :
      Except Exc (Option String × Option String)) = true := by
    have hnative : m'.pc.native = m.pc.native := by
      show (m.pc.handleStateChange state).native = _
      rw [PeerConnection.handleStateChange, if_pos hstate]
    rw [answers, hnative]
    exact decide_eq_true hlive
  obtain ⟨n, rest', htake, hr', hle⟩ :=
    hall _ m' hpre hexec' t call ticket _ _ ⟨"v=0", _⟩ ht hans
      (resume_resolved _ ht (resolved_by_report hstate hs) hm)
      (Function.update_self t _ m'.task)
  -- the end of gathering would have settled the call before
  rcases Transition.takes_snoc_iff.mp htake with hbefore | ⟨-, hn⟩
  · have hdone := (hinv.settled ticket ⟨n, rest', hbefore, hr', hle⟩).2
    exact Bool.false_ne_true (hs.symm.trans hdone)
  · cases hexec.symm.trans hn
    cases hr.symm.trans hr'

end Invariant

/-- Along any run, whatever a call may return is complete exactly when
every report that the connection is closed or failed comes late. -/
theorem offersComplete_iff (handle : Int) (core : Core) (as : List PcAction) :
    OffersComplete handle core as ↔
      ∀ a m, Transition.Takes apply (init handle core) as a m → ReportsLate a m :=
  ⟨late_of_offersComplete, offersComplete_of_late⟩

-- ======================================================= the failing run

/-- The connection fails while an offer waits; gathering never ends. -/
def failedOfferRun : List PcAction :=
  [.loop (.createOffer (.user 0) (.ok ())), .native (.fire (.stateChange .failed)),
    .native (.schedule 0), .loop .dispatch,
    .loop (.resume (.user 0) (.ok (some "v=0", some "offer")))]

/-- The offer is returned, and no run of `failedOfferRun` dispatched the
end of gathering. -/
theorem failed_returns_offer :
    (∃ w, exec apply (init 1 ⟨[], [], [], []⟩) failedOfferRun = some w
        ∧ w.task (.user 0)
          = .running (some (.createOffer, .returned (.description ⟨"v=0", .offer⟩)))
        ∧ w.pc.gatheringState = .new ∧ w.core.deletedPcs = [])
      ∧ ∀ ticket, ¬ GatheringCompleted 1 ⟨[], [], [], []⟩ failedOfferRun ticket := by
  refine ⟨⟨_, rfl, rfl, rfl, rfl⟩, fun ticket hdone => ?_⟩
  obtain ⟨m, rest, htake, hr, -⟩ := hdone
  have hnone : ∀ a w, Transition.Takes apply (init 1 ⟨[], [], [], []⟩) failedOfferRun a w →
      a = .loop .dispatch → w.ready = [.event (.stateChange .failed)] := by
    refine Transition.takes_of_only 3 rfl rfl (fun _ => rfl) ?_
    simp [failedOfferRun]
  cases (hnone _ m htake rfl).symm.trans hr

end PcWorld

end AioLibDataChannel
