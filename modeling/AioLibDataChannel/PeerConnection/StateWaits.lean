/-
`wait_for_state`: the state events of a connection, beside its streams.

Each state has an event of its own, which `_handle_state_change` sets
and nothing clears. So the events are latches, and the call means "has
been in this state" rather than "is in it": it returns for a state the
connection has left, and it waits, closed connection or not, for a state
that was never reported. `close()` reports none, and a connection that
closes itself reports `CLOSED` to nobody, its callbacks being gone by
then. `waitForState_exact` says who returns and who waits for good.
-/
import AioLibDataChannel.Asyncio.Latch
import AioLibDataChannel.PeerConnection.Streams

namespace AioLibDataChannel

open Asyncio (Event Latches)
open Function (update)
open Transition (exec)

/-- A connection with its streams, and the tasks in `wait_for_state`. A
task that `close()` cancels is cancelled by an action of its own. -/
structure WaitWorld where
  stream : StreamWorld
  waiting : TaskId → Option RTCState
  owed : TaskId → Bool
  returned : List (TaskId × RTCState)

namespace WaitWorld

/-- `PeerConnection.__init__`. -/
def init (handle : Int) (core : Core) : WaitWorld where
  stream := StreamWorld.init handle core
  waiting := fun _ => none
  owed := fun _ => false
  returned := []

/-- `_state_events` and who waits there. -/
def latches (w : WaitWorld) : Latches RTCState TaskId where
  event := w.stream.stateEvents
  waiting := w.waiting
  owed := w.owed
  returned := w.returned

def withLatches (w : WaitWorld) (l : Latches RTCState TaskId) : WaitWorld where
  stream := { w.stream with stateEvents := l.event }
  waiting := l.waiting
  owed := l.owed
  returned := l.returned

inductive Action
  | stream (a : StreamWorld.Action)
  | waitForState (t : TaskId) (state : RTCState)
  | resume (t : TaskId)
  | cancel (t : TaskId)
  | absorb (t : TaskId)
deriving DecidableEq, Repr

/-- `await self._state_events[state].wait()`. -/
def waitForState (t : TaskId) (state : RTCState) (w : WaitWorld) : Option WaitWorld :=
  (w.latches.wait t state).map w.withLatches

/-- The transition. -/
def apply : Action → WaitWorld → Option WaitWorld
  | .stream a, w => (StreamWorld.apply a w.stream).map fun s => { w with stream := s }
  | .waitForState t state, w => w.waitForState t state
  | .resume t, w => (w.latches.resume t).map w.withLatches
  | .cancel t, w => some (w.withLatches (w.latches.cancel t))
  | .absorb t, w => (w.latches.absorb t).map w.withLatches

/-- What an action does to the latches. -/
def Action.latch? : Action → Option (Latches.Action RTCState TaskId)
  | .stream (.dispatch (.stateChange state)) => some (.raise state)
  | .stream _ => none
  | .waitForState t state => some (.wait t state)
  | .resume t => some (.resume t)
  | .cancel t => some (.cancel t)
  | .absorb t => some (.absorb t)

/-- The state an action reports. -/
def Action.reported? : Action → Option RTCState
  | .stream (.dispatch (.stateChange state)) => some state
  | _ => none

-- ================================================================ streams

variable {w w' : WaitWorld} {a : Action}

/-- Only a report of a state touches the state events. -/
theorem stateEvents_dispatch (d : StreamWorld.Dispatch) (s : StreamWorld) :
    (s.dispatch d).stateEvents
      = match d with
        | .stateChange state => update s.stateEvents state (s.stateEvents state).set
        | _ => s.stateEvents := by
  cases d with
  | stateChange state =>
      show (s.handleStateChange state).stateEvents = _
      unfold StreamWorld.handleStateChange
      split <;> rfl
  | gatheringState state =>
      show (s.handleGatheringState state).stateEvents = _
      unfold StreamWorld.handleGatheringState
      split <;> rfl
  | localDescription desc => rfl
  | localCandidate cand => rfl
  | iceState state => rfl
  | signalingState state => rfl
  | incomingDc handle => rfl

/-- A consumer of a stream sets no state event. -/
theorem stateEvents_consume {s s' : StreamWorld} {c : ConsumerStep}
    {r : Consumer} (h : s.consume c r = some s') :
    s'.stateEvents = s.stateEvents := by
  cases r <;> (obtain ⟨q, -, rfl⟩ := Option.map_eq_some_iff.mp h; rfl)

/-- `close()` sets none. -/
theorem stateEvents_close (owned : List Consumer) (s : StreamWorld) :
    (s.close owned).stateEvents = s.stateEvents := by
  have hcancels : ∀ (cs : List Consumer) (s : StreamWorld),
      (cs.foldl StreamWorld.cancel s).stateEvents = s.stateEvents := by
    intro cs
    induction cs with
    | nil => exact fun _ => rfl
    | cons c rest ih =>
        intro s
        rw [List.foldl_cons, ih]
        cases c <;> rfl
  unfold StreamWorld.close
  split
  · rfl
  · exact hcancels owned _

/-- A step is a step of the latches, or none. -/
theorem latches_step (h : apply a w = some w') :
    exec Latches.step w.latches a.latch?.toList = some w'.latches := by
  have hone : ∀ {b : Latches.Action RTCState TaskId} {l : Latches RTCState TaskId},
      Latches.step b w.latches = some l → w' = w.withLatches l →
        exec Latches.step w.latches [b] = some w'.latches := by
    rintro b l hb rfl
    exact (Transition.exec_cons hb).trans rfl
  have hsame : ∀ {s : StreamWorld}, s.stateEvents = w.stream.stateEvents →
      ({ w with stream := s } : WaitWorld).latches = w.latches := by
    intro s hs
    show Latches.mk s.stateEvents w.waiting w.owed w.returned = _
    rw [hs]
    rfl
  cases a with
  | stream b =>
      obtain ⟨s, hs, rfl⟩ := Option.map_eq_some_iff.mp h
      cases b with
      | dispatch d =>
          cases hs
          have hev := stateEvents_dispatch d w.stream
          cases d with
          | stateChange state =>
              show some (w.latches.raise state) = some (Latches.mk _ _ _ _)
              rw [hev]
              rfl
          | localDescription desc => exact congrArg some (hsame hev).symm
          | localCandidate cand => exact congrArg some (hsame hev).symm
          | iceState state => exact congrArg some (hsame hev).symm
          | gatheringState state => exact congrArg some (hsame hev).symm
          | signalingState state => exact congrArg some (hsame hev).symm
          | incomingDc handle => exact congrArg some (hsame hev).symm
      | close owned =>
          cases hs
          exact congrArg some (hsame (stateEvents_close owned w.stream)).symm
      | consume c r => exact congrArg some (hsame (stateEvents_consume hs)).symm
  | waitForState t state =>
      obtain ⟨l, hl, rfl⟩ := Option.map_eq_some_iff.mp h
      exact hone (b := .wait t state) hl rfl
  | resume t =>
      obtain ⟨l, hl, rfl⟩ := Option.map_eq_some_iff.mp h
      exact hone (b := .resume t) hl rfl
  | cancel t =>
      cases h
      exact hone (b := .cancel t) rfl rfl
  | absorb t =>
      obtain ⟨l, hl, rfl⟩ := Option.map_eq_some_iff.mp h
      exact hone (b := .absorb t) hl rfl

/-- A run of the connection is one of the latches. -/
theorem latches_exec {acts : List Action} (h : exec apply w acts = some w') :
    exec Latches.step w.latches (acts.filterMap Action.latch?) = some w'.latches :=
  Transition.exec_filterMap latches_step h

-- ================================================================ states

/-- The connection was in this state: it is the first one, or a report
of it was dispatched. -/
def Reached (acts : List Action) (state : RTCState) : Prop :=
  state = .new ∨ state ∈ acts.filterMap Action.reported?

/-- A latch is raised for a state that is reported. -/
theorem raise_mem_iff {acts : List Action} {state : RTCState} :
    Latches.Action.raise state ∈ acts.filterMap Action.latch?
      ↔ state ∈ acts.filterMap Action.reported? := by
  simp only [List.mem_filterMap]
  refine exists_congr fun a => and_congr_right fun _ => ?_
  cases a with
  | stream b =>
      cases b with
      | dispatch d => cases d <;> simp [Action.latch?, Action.reported?]
      | _ => simp [Action.latch?, Action.reported?]
  | _ => simp [Action.latch?, Action.reported?]

/-- Nobody waits for a state at the start. -/
theorem sound_init (handle : Int) (core : Core) :
    (init handle core).latches.Sound where
  quiet := by
    intro state
    show (if state = .new then Event.new.set else Event.new).Quiet
    split
    · exact Event.quiet_set _
    · exact Event.quiet_new
  listed := nofun

/-- A flag is up exactly for the states the connection was in. -/
theorem reached_iff {handle : Int} {core : Core} {acts : List Action}
    (h : exec apply (init handle core) acts = some w) (state : RTCState) :
    (w.stream.stateEvents state).value = true ↔ Reached acts state := by
  refine (Latches.raised_exec (latches_exec h) state).trans (or_congr ?_ raise_mem_iff)
  show (if state = .new then Event.new.set else Event.new : Event TaskId).value = true ↔ _
  split
  next hs => exact ⟨fun _ => hs, fun _ => rfl⟩
  next hs => exact ⟨nofun, fun hnew => absurd hnew hs⟩

-- =============================================================== the waits

/-- What `wait_for_state` means in a state some run has led to. -/
structure WaitsExact (acts : List Action) (w : WaitWorld) : Prop where
  /-- a call returns at once exactly for a state the connection was in,
  whatever it is in now; -/
  atOnce : ∀ t state, w.waiting t = none →
    ((∃ w', apply (.waitForState t state) w = some w' ∧ w'.waiting t = none)
      ↔ Reached acts state)
  /-- a suspended one can go on exactly then, and returns; -/
  resumes : ∀ t state, w.waiting t = some state → w.owed t = false →
    ((∃ w', apply (.resume t) w = some w') ↔ Reached acts state)
  returns : ∀ t state w', w.waiting t = some state → w.owed t = false →
    apply (.resume t) w = some w' →
      w'.returned = w.returned ++ [(t, state)] ∧ w'.waiting t = none
  /-- none ever returned otherwise; -/
  honest : ∀ p ∈ w.returned, Reached acts p.2
  /-- and as long as the state is not reported, a call that is not
  cancelled waits, through `close()` and everything else. -/
  strands : ∀ t state, w.waiting t = some state → w.owed t = false →
    ¬ Reached acts state → ∀ more w', exec apply w more = some w' →
      state ∉ more.filterMap Action.reported? → Action.cancel t ∉ more →
        w'.waiting t = some state ∧ apply (.resume t) w' = none

/-- What has returned, a step adds to for states that were reached. -/
theorem returned_latches {κ ι : Type} [DecidableEq κ] [DecidableEq ι]
    {l l' : Latches κ ι} {b : Latches.Action κ ι} (hs : l.Sound)
    (hr : ∀ p ∈ l.returned, (l.event p.2).value = true)
    (h : Latches.step b l = some l') : ∀ p ∈ l'.returned, (l'.event p.2).value = true := by
  have hold : ∀ p ∈ l.returned, (l'.event p.2).value = true := fun p hp =>
    (Latches.raised_step h p.2).mpr (Or.inl (hr p hp))
  have hone : ∀ {q : ι × κ}, (l.event q.2).value = true →
      ∀ p ∈ l.returned ++ [q], (l'.event p.2).value = true := by
    intro q hq p hp
    rcases List.mem_append.mp hp with hp | hp
    · exact hold p hp
    · rw [List.mem_singleton.mp hp]
      exact (Latches.raised_step h q.2).mpr (Or.inl hq)
  cases Latches.step_cases h with
  | atOnce t k _ hup => exact hone (q := (t, k)) hup
  | woken t k _ _ hwoken => exact hone (q := (t, k)) ((hs.quiet k).raised hwoken)
  | _ => exact hold

/-- A wait is ended by its state's report or by its task's
cancellation. -/
theorem ends_latch {t : TaskId} {state : RTCState}
    {b : Latches.Action RTCState TaskId} (h : a.latch? = some b)
    (hr : a.reported? ≠ some state) (hc : a ≠ .cancel t) : b.ends t state = false := by
  cases a with
  | stream c =>
      cases c with
      | dispatch d =>
          cases d with
          | stateChange s =>
              cases h
              exact decide_eq_false fun hs => hr (congrArg some hs)
          | _ => cases h
      | _ => cases h
  | waitForState u s => cases h; rfl
  | resume u => cases h; rfl
  | cancel u =>
      cases h
      exact decide_eq_false fun hu => hc (congrArg Action.cancel hu)
  | absorb u => cases h; rfl

/-- In every state of every run `wait_for_state` is exact. -/
theorem waitForState_exact {handle : Int} {core : Core} {acts : List Action}
    (h : exec apply (init handle core) acts = some w) : WaitsExact acts w := by
  have hl := latches_exec h
  have hs : w.latches.Sound := Latches.sound_exec (sound_init handle core) hl
  have hreached := reached_iff h
  refine ⟨?_, ?_, ?_, ?_, ?_⟩
  · intro t state ht
    have hfree : w.latches.waiting t = none := ht
    rw [← hreached state]
    by_cases hv : (w.stream.stateEvents state).value = true
    · refine ⟨fun _ => hv, fun _ => ?_⟩
      refine ⟨w.withLatches { w.latches with
        returned := w.latches.returned ++ [(t, state)] }, ?_, ht⟩
      have hv' : (w.latches.event state).value = true := hv
      show (w.latches.wait t state).map _ = _
      rw [Latches.wait, hfree]
      simp only [hv', if_true, Option.map_some]
    · refine ⟨?_, fun hv' => absurd hv' hv⟩
      rintro ⟨w', hw', hnone⟩
      obtain ⟨l, hwait, rfl⟩ := Option.map_eq_some_iff.mp hw'
      have hstep : Latches.step (.wait t state) w.latches = some l := hwait
      cases Latches.step_cases hstep with
      | atOnce _ _ _ hup => exact hup
      | parks _ _ _ _ _ _ =>
          have hparked : update w.latches.waiting t (some state) t = none := hnone
          rw [Function.update_self] at hparked
          cases hparked
  · intro t state ht ho
    rw [← hreached state]
    refine Iff.trans ⟨?_, ?_⟩ (Latches.resume_iff hs ht ho)
    · rintro ⟨w', hw'⟩
      obtain ⟨l, hl', -⟩ := Option.map_eq_some_iff.mp hw'
      exact ⟨l, hl'⟩
    · rintro ⟨l, hl'⟩
      exact ⟨w.withLatches l, Option.map_eq_some_iff.mpr ⟨l, hl', rfl⟩⟩
  · intro t state w' ht ho hw'
    obtain ⟨l, hl', rfl⟩ := Option.map_eq_some_iff.mp hw'
    exact Latches.returned_resume ht ho hl'
  · have hinit : (init handle core).latches.Sound
        ∧ ∀ p ∈ (init handle core).latches.returned,
          ((init handle core).latches.event p.2).value = true :=
      ⟨sound_init handle core, List.forall_mem_nil _⟩
    have hall := (Transition.reachable_of_exec hl).invariant
      (P := fun l => l.Sound ∧ ∀ p ∈ l.returned, (l.event p.2).value = true) hinit
      fun hm hb => ⟨Latches.sound_step hm.1 hb, returned_latches hm.1 hm.2 hb⟩
    exact fun p hp => (hreached p.2).mp (hall.2 p hp)
  · intro t state ht ho hnot more w' hmore hquiet hcancel
    have hdown : (w.latches.event state).value = false :=
      Bool.eq_false_iff.mpr fun hv => hnot ((hreached state).mp hv)
    have hends : ∀ b ∈ more.filterMap Action.latch?, b.ends t state = false := by
      intro b hb
      obtain ⟨a, ha, hab⟩ := List.mem_filterMap.mp hb
      refine ends_latch hab ?_ fun hc => hcancel (hc ▸ ha)
      exact fun hr => hquiet (List.mem_filterMap.mpr ⟨a, ha, hr⟩)
    obtain ⟨hwait, hnone⟩ :=
      Latches.parked_exec hs ht ho hdown hends (latches_exec hmore)
    exact ⟨hwait, congrArg (Option.map w'.withLatches) hnone⟩

/-- A task waits for `CONNECTED`, another for `CLOSED`; the connection
connects and drops out of it, the first returns, a third asks for the
state that is past, and the connection is closed. -/
def passedRun : List Action :=
  [.waitForState (.user 0) .connected, .waitForState (.user 1) .closed,
    .stream (.dispatch (.stateChange .connected)),
    .stream (.dispatch (.stateChange .disconnected)), .resume (.user 0),
    .waitForState (.user 2) .connected, .stream (.close [])]

theorem waitForState_exact_passedRun :
    ∃ w, exec apply (init 1 ⟨[], [], [], []⟩) passedRun = some w
      ∧ w.returned = [(.user 0, .connected), (.user 2, .connected)]
      ∧ w.waiting (.user 1) = some .closed ∧ WaitsExact passedRun w :=
  ⟨_, rfl, rfl, rfl, waitForState_exact rfl⟩

end WaitWorld

end AioLibDataChannel
