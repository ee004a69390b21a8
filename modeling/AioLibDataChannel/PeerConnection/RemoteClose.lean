/-
What the report that the native connection closed does to the streams.

The remote peer goes away, and the native layer reports `CLOSED`.
`_handle_state_change` ends the candidates; the incoming channels and the
events are ended by `close()` alone, so before it their queues hold no
marker (`unmarked_exec`).

`releasedSince_iff` is the outcome: from the report on every stream has
ended for everybody exactly if `close()` was called before it.
`peerGoneRun` is a run without.
-/
import AioLibDataChannel.PeerConnection.Streams

namespace AioLibDataChannel

open Asyncio (Relay)
open Transition (exec)

namespace StreamWorld

variable {w w' : StreamWorld} {a : Action} {acts : List Action}

-- ============================================================ the two queues

/-- The queues of the incoming channels and of the events hold no
marker. -/
structure Unmarked (w : StreamWorld) : Prop where
  incoming : none ∉ w.incomingDc.queue.items
  events : none ∉ w.eventsQueue.queue.items

/-- An item that is put is no marker. -/
theorem unmarked_put {α ι : Type} {r : Relay α ι} (hr : r.Sound) (x : α)
    (hm : none ∉ r.queue.items) : none ∉ (r.put (some x)).queue.items := by
  rw [Relay.put_items hr.full]
  intro hmem
  rcases List.mem_append.mp hmem with hold | hnew
  · exact hm hold
  · exact Option.some_ne_none x (List.mem_singleton.mp hnew).symm

/-- A dispatcher marks neither. -/
theorem unmarked_dispatch (d : Dispatch) (hs : StreamsSound w) (hm : Unmarked w) :
    Unmarked (w.dispatch d) := by
  have hemit := unmarked_put hs.events d.event hm.events
  cases d with
  | localDescription desc => exact ⟨hm.incoming, hemit⟩
  | localCandidate cand => exact ⟨hm.incoming, hemit⟩
  | stateChange state =>
      show Unmarked (w.handleStateChange state)
      unfold handleStateChange
      split <;> exact ⟨hm.incoming, hemit⟩
  | iceState state => exact ⟨hm.incoming, hemit⟩
  | gatheringState state =>
      show Unmarked (w.handleGatheringState state)
      unfold handleGatheringState
      split <;> exact ⟨hm.incoming, hemit⟩
  | signalingState state => exact ⟨hm.incoming, hemit⟩
  | incomingDc handle => exact ⟨unmarked_put hs.incoming handle hm.incoming, hemit⟩

/-- So does a consumer. -/
theorem unmarked_consume {s : ConsumerStep} {c : Consumer} (hs : StreamsSound w)
    (hm : Unmarked w) (h : w.consume s c = some w') : Unmarked w' := by
  have hput : ∀ {α ι : Type} (t : ι), (s.on t : Relay.Action α ι) ≠ .put none := by
    intro α ι t heq
    cases s <;> cases heq
  cases c with
  | iceCandidates n =>
      obtain ⟨r, -, rfl⟩ := Option.map_eq_some_iff.mp h
      exact ⟨hm.incoming, hm.events⟩
  | incoming n =>
      obtain ⟨r, hr, rfl⟩ := Option.map_eq_some_iff.mp h
      exact ⟨Relay.unmarked_step hs.incoming hm.incoming (hput n) hr, hm.events⟩
  | events n =>
      obtain ⟨r, hr, rfl⟩ := Option.map_eq_some_iff.mp h
      exact ⟨hm.incoming, Relay.unmarked_step hs.events hm.events (hput n) hr⟩

/-- Without a `close()` the connection stays open, and neither queue is
marked. -/
theorem unmarked_exec (hw : StreamsInv w) (hopen : w.pc.closed = false)
    (hm : Unmarked w) (hacts : ∀ owned, Action.close owned ∉ acts)
    (h : exec apply w acts = some w') : w'.pc.closed = false ∧ Unmarked w' := by
  induction acts generalizing w with
  | nil =>
      cases h
      exact ⟨hopen, hm⟩
  | cons a rest ih =>
      obtain ⟨m, ha, hrest⟩ := Transition.exec_cons_cases h
      have hinv := (step_spec hw ha).2.1
      have hleft : ∀ owned, Action.close owned ∉ rest := fun owned hmem =>
        hacts owned (List.mem_cons_of_mem a hmem)
      cases a with
      | dispatch d =>
          cases ha
          exact ih hinv ((closed_dispatch d w).trans hopen)
            (unmarked_dispatch d hw.sound hm) hleft hrest
      | close owned => exact absurd List.mem_cons_self (hacts owned)
      | consume s c =>
          have hpc := (streamed_consume ha).2
          exact ih hinv ((congrArg PeerConnection.closed hpc).trans hopen)
            (unmarked_consume hw.sound hm ha) hleft hrest

/-- A new connection has no markers in its streams. -/
theorem unmarked_init (handle : Int) (core : Core) : Unmarked (init handle core) :=
  ⟨List.not_mem_nil, List.not_mem_nil⟩

-- ======================================================== after the report

/-- The candidates have ended once the report was dispatched. -/
theorem ice_ended_of_report {handle : Int} {core : Core} {pre post : List Action}
    (h : exec apply (init handle core) (pre ++ .dispatch (.stateChange .closed) :: post)
      = some w) : Relay.Terminated iterator w.iceCandidates := by
  rw [Transition.exec_append] at h
  obtain ⟨m, hm, h⟩ := Option.bind_eq_some_iff.mp h
  obtain ⟨u, hu, h⟩ := Transition.exec_cons_cases h
  have hinv := (run_spec (streamsInv_init handle core) hm).2.1
  have hmark : none ∈ u.iceCandidates.queue.items := by
    cases hu
    show none ∈ (m.iceCandidates.put none).queue.items
    rw [Relay.put_items hinv.sound.ice.full]
    exact List.mem_append_right _ (List.mem_singleton_self _)
  have hinvU := (step_spec hinv hu).2.1
  obtain ⟨hrun, hinvW, -⟩ := run_spec hinvU h
  exact Relay.terminated_of_marked hinvW.sound.ice (hrun.ice.marked hinvU.sound.ice hmark)

/-- In every state since the report that is dispatched after `pre`, every
stream has ended for everybody. -/
def ReleasedSince (handle : Int) (core : Core) (pre post : List Action) : Prop :=
  ∀ mid, mid <+: post → ∀ w,
    exec apply (init handle core) (pre ++ .dispatch (.stateChange .closed) :: mid) = some w →
      Ended w

/-- Along any run, the report leaves every stream ended exactly if
`close()` was called before. -/
theorem releasedSince_iff {handle : Int} {core : Core} {pre post : List Action}
    (h : exec apply (init handle core) (pre ++ .dispatch (.stateChange .closed) :: post)
      = some w) :
    ReleasedSince handle core pre post ↔ ∃ owned, Action.close owned ∈ pre := by
  constructor
  · intro hall
    rw [Transition.exec_append] at h
    obtain ⟨m, hm, h⟩ := Option.bind_eq_some_iff.mp h
    obtain ⟨u, hu, -⟩ := Transition.exec_cons_cases h
    have hend : Ended u := by
      refine hall [] List.nil_prefix u ?_
      rw [Transition.exec_append, hm]
      exact Transition.exec_cons hu
    by_contra hnone
    have hpre : ∀ owned, Action.close owned ∉ pre := fun owned hmem => hnone ⟨owned, hmem⟩
    have hinit := streamsInv_init handle core
    have hinv := (run_spec hinit hm).2.1
    have hclean := (unmarked_exec hinit rfl (unmarked_init handle core) hpre hm).2
    cases hu
    exact (unmarked_dispatch _ hinv.sound hclean).events hend.events.marked
  · intro hclosed mid hmid v hv
    obtain ⟨owned, hmem⟩ := hclosed
    exact (streams_delivered_and_ended hv).2 ⟨owned, List.mem_append_left _ hmem⟩

/-- Three consumers wait, one on each stream, when the peer goes away. -/
def peerGoneRun : List Action :=
  [.consume .get (.iceCandidates 0), .consume .get (.incoming (.accept 0)),
    .dispatch (.stateChange .connected), .consume .get (.events 0),
    .consume .get (.events 0), .dispatch (.stateChange .closed),
    .consume .resume (.events 0), .consume .get (.events 0)]

/-- The candidates have ended. The other two consumers wait, on queues
without a marker, and cannot run. -/
theorem peerGone_leaves_waiting :
    ∃ w, exec apply (init 1 ⟨[], [], [], []⟩) peerGoneRun = some w
      ∧ w.pc.closed = false ∧ w.pc.state = .closed
      ∧ w.iceCandidates.queue.items = [none]
      ∧ w.incomingDc.reader (.accept 0) = .inGet ∧ w.incomingDc.queue.items = []
      ∧ w.eventsQueue.reader 0 = .inGet ∧ w.eventsQueue.queue.items = []
      ∧ w.consume .resume (.incoming (.accept 0)) = none
      ∧ w.consume .resume (.events 0) = none :=
  ⟨_, rfl, rfl, rfl, rfl, rfl, rfl, rfl, rfl, rfl, rfl⟩

/-- `releasedSince_iff` at `peerGoneRun`, which breaks both sides. -/
theorem releasedSince_iff_peerGoneRun :
    ReleasedSince 1 ⟨[], [], [], []⟩ (peerGoneRun.take 5) (peerGoneRun.drop 6) ↔
      ∃ owned, Action.close owned ∈ peerGoneRun.take 5 :=
  releasedSince_iff (w := _) rfl

end StreamWorld

end AioLibDataChannel
