/-
The three public streams of a `PeerConnection`: `ice_candidates()`,
`incoming_data_channels()` with `accept_data_channel()`, and `events()`,
with the seven loop-thread dispatchers that feed them and the `close()`
that ends them.

Each stream is a queue of its own (`Relay`). A dispatcher puts an event
for `events()`, and some put for one of the others too. The marker
`None` comes from `close()`, and for the candidates also from the report
that gathering is complete or that the connection is closed or failed.

# What a step is

A dispatcher, `close()`, or what one consumer does: it begins to wait
for the next item, runs, or is cancelled. A consumer is one iterator,
or one call of `accept_data_channel`. Dispatchers run at any time, after
`close()` too, in any order and any number.

`close()` cancels the tasks that `spawn_task` registered. Which
consumers these tasks are running is the environment's to say, so the
action names them.
-/
import AioLibDataChannel.Asyncio.Relay
import AioLibDataChannel.PeerConnection.Machine
import AioLibDataChannel.PeerConnection.Remote

namespace AioLibDataChannel

open Asyncio (Event Outcome Relay Seen)
open Function (update)
open Transition (exec)

/-- `ICEState`. -/
inductive IceState
  | new
  | checking
  | connected
  | completed
  | failed
  | disconnected
  | closed
deriving DecidableEq, Repr

/-- `SignalingState`. -/
inductive SignalingState
  | stable
  | haveLocalOffer
  | haveRemoteOffer
  | haveLocalPranswer
  | haveRemotePranswer
deriving DecidableEq, Repr

/-- `PCEvent`: what `events()` yields. A channel is named by its
handle. -/
inductive PublicEvent
  | localDescription (description : LocalDescription)
  | localCandidate (candidate : Candidate)
  | stateChange (state : RTCState)
  | iceStateChange (state : IceState)
  | gatheringStateChange (state : GatheringState)
  | signalingStateChange (state : SignalingState)
  | dataChannel (channel : Int)
deriving DecidableEq, Repr

/-- A consumer of the incoming channels: an iterator, or one call of
`accept_data_channel`. -/
inductive IncomingReader
  | iterator (n : Nat)
  | accept (n : Nat)
deriving DecidableEq, Repr

/-- `accept_data_channel` is finished with the first item. -/
def IncomingReader.single : IncomingReader → Bool
  | iterator _ => false
  | accept _ => true

/-- The two streams that only have iterators. -/
def iterator : Nat → Bool := fun _ => false

/-- A consumer of one of the streams. -/
inductive Consumer
  | iceCandidates (n : Nat)
  | incoming (r : IncomingReader)
  | events (n : Nat)
deriving DecidableEq, Repr

/-- What a consumer does. -/
inductive ConsumerStep
  | get
  | resume
  | cancel
  | absorb
deriving DecidableEq, Repr

/-- The step, as an action on the consumer's stream. -/
def ConsumerStep.on {α ι : Type} (t : ι) : ConsumerStep → Relay.Action α ι
  | get => .get t
  | resume => .resume t
  | cancel => .cancel t
  | absorb => .absorb t

/-- A `PeerConnection` with its streams, and the registry its incoming
channels enter. -/
structure StreamWorld where
  core : Core
  pc : PeerConnection
  iceState : IceState
  signalingState : SignalingState
  stateEvents : RTCState → Event TaskId
  iceCandidates : Relay Candidate Nat
  incomingDc : Relay Int IncomingReader
  eventsQueue : Relay PublicEvent Nat
  dataChannels : List ChannelRef

namespace StreamWorld

/-- `PeerConnection.__init__`. -/
def init (handle : Int) (core : Core) : StreamWorld :=
  let (core, pc) := PeerConnection.create handle core
  { core := core
    pc := pc
    iceState := .new
    signalingState := .stable
    stateEvents := fun state => if state = .new then Event.new.set else Event.new
    iceCandidates := Relay.new
    incomingDc := Relay.new
    eventsQueue := Relay.new
    dataChannels := [] }

-- ========================================================== dispatchers

/-- `_emit`. -/
def emit (event : PublicEvent) (w : StreamWorld) : StreamWorld :=
  { w with eventsQueue := w.eventsQueue.put (some event) }

/-- `_handle_local_description`. -/
def handleLocalDescription (desc : LocalDescription) (w : StreamWorld) : StreamWorld :=
  ({ w with pc := w.pc.handleLocalDescription desc } : StreamWorld).emit
    (.localDescription desc)

/-- `_handle_local_candidate`. -/
def handleLocalCandidate (cand : Candidate) (w : StreamWorld) : StreamWorld :=
  ({ w with iceCandidates := w.iceCandidates.put (some cand) } : StreamWorld).emit
    (.localCandidate cand)

/-- `_handle_state_change`. -/
def handleStateChange (state : RTCState) (w : StreamWorld) : StreamWorld :=
  let w' := ({ w with
    pc := w.pc.handleStateChange state
    stateEvents := update w.stateEvents state (w.stateEvents state).set } :
      StreamWorld).emit (.stateChange state)
  if state = .closed ∨ state = .failed then
    { w' with iceCandidates := w'.iceCandidates.put none }
  else w'

/-- `_handle_ice_state`. -/
def handleIceState (state : IceState) (w : StreamWorld) : StreamWorld :=
  ({ w with iceState := state } : StreamWorld).emit (.iceStateChange state)

/-- `_handle_gathering_state`. -/
def handleGatheringState (state : GatheringState) (w : StreamWorld) : StreamWorld :=
  let w' := ({ w with pc := w.pc.handleGatheringState state } : StreamWorld).emit
    (.gatheringStateChange state)
  if state = .complete then { w' with iceCandidates := w'.iceCandidates.put none }
  else w'

/-- `_handle_signaling_state`. -/
def handleSignalingState (state : SignalingState) (w : StreamWorld) : StreamWorld :=
  ({ w with signalingState := state } : StreamWorld).emit (.signalingStateChange state)

/-- `_handle_incoming_dc`. -/
def handleIncomingDc (handle : Int) (w : StreamWorld) : StreamWorld :=
  ({ w with
    core := (ChannelRef.create handle w.core).1
    dataChannels := w.dataChannels ++ [(ChannelRef.create handle w.core).2]
    incomingDc := w.incomingDc.put (some handle) } : StreamWorld).emit
      (.dataChannel handle)

-- ============================================================ consumers

/-- One step of a consumer, on its stream. -/
def consume (s : ConsumerStep) (c : Consumer) (w : StreamWorld) : Option StreamWorld :=
  match c with
  | .iceCandidates n =>
      (Relay.step iterator (s.on n) w.iceCandidates).map
        fun r => { w with iceCandidates := r }
  | .incoming n =>
      (Relay.step IncomingReader.single (s.on n) w.incomingDc).map
        fun r => { w with incomingDc := r }
  | .events n =>
      (Relay.step iterator (s.on n) w.eventsQueue).map
        fun r => { w with eventsQueue := r }

/-- `task.cancel()` on the task running this consumer. -/
def cancel (w : StreamWorld) : Consumer → StreamWorld
  | .iceCandidates n => { w with iceCandidates := w.iceCandidates.cancel n }
  | .incoming n => { w with incomingDc := w.incomingDc.cancel n }
  | .events n => { w with eventsQueue := w.eventsQueue.cancel n }

/-- What a call of `accept_data_channel` comes to. -/
def acceptOutcome : Seen Int → Outcome Int Exc
  | .item dc => .returned dc
  | .ended =>
      .raised (.connectionClosedError "peer connection closed before a data channel arrived")
  | .cancelled => .cancelled

-- ================================================================ close

/-- The three sentinels of `close()`. -/
def endStreams (w : StreamWorld) : StreamWorld :=
  { w with
    iceCandidates := w.iceCandidates.put none
    incomingDc := w.incomingDc.put none
    eventsQueue := w.eventsQueue.put none }

/-- `close()`, when the owned tasks run these consumers. -/
def close (owned : List Consumer) (w : StreamWorld) : StreamWorld :=
  if w.pc.closed then w
  else
    let w₁ := ({ w with pc := { w.pc with closed := true } } : StreamWorld).endStreams
    let w₂ := owned.foldl cancel w₁
    { w₂ with pc := { w₂.pc with teardownTask := .created } }

-- ============================================================== actions

/-- What the loop runs for the native layer. -/
inductive Dispatch
  | localDescription (desc : LocalDescription)
  | localCandidate (cand : Candidate)
  | stateChange (state : RTCState)
  | iceState (state : IceState)
  | gatheringState (state : GatheringState)
  | signalingState (state : SignalingState)
  | incomingDc (handle : Int)
deriving DecidableEq, Repr

inductive Action
  | dispatch (d : Dispatch)
  | close (owned : List Consumer)
  | consume (s : ConsumerStep) (c : Consumer)
deriving DecidableEq, Repr

def dispatch : Dispatch → StreamWorld → StreamWorld
  | .localDescription desc, w => w.handleLocalDescription desc
  | .localCandidate cand, w => w.handleLocalCandidate cand
  | .stateChange state, w => w.handleStateChange state
  | .iceState state, w => w.handleIceState state
  | .gatheringState state, w => w.handleGatheringState state
  | .signalingState state, w => w.handleSignalingState state
  | .incomingDc handle, w => w.handleIncomingDc handle

/-- The transition. -/
def apply : Action → StreamWorld → Option StreamWorld
  | .dispatch d, w => some (w.dispatch d)
  | .close owned, w => some (w.close owned)
  | .consume s c, w => w.consume s c

-- ============================================================= the items

/-- The candidate, the channel and the event a dispatcher puts. -/
def Dispatch.candidate? : Dispatch → Option Candidate
  | .localCandidate cand => some cand
  | _ => none

def Dispatch.channel? : Dispatch → Option Int
  | .incomingDc handle => some handle
  | _ => none

def Dispatch.event : Dispatch → PublicEvent
  | .localDescription desc => .localDescription desc
  | .localCandidate cand => .localCandidate cand
  | .stateChange state => .stateChange state
  | .iceState state => .iceStateChange state
  | .gatheringState state => .gatheringStateChange state
  | .signalingState state => .signalingStateChange state
  | .incomingDc handle => .dataChannel handle

/-- The dispatcher an action runs. -/
def Action.dispatch? : Action → Option Dispatch
  | .dispatch d => some d
  | _ => none

-- ============================================================== one step

variable {w w' : StreamWorld} {a : Action}

/-- The three streams as one step takes them: what each is given, and
that none is left unended by the `close()` that closes. -/
structure Streamed (candidates : List Candidate) (channels : List Int)
    (events : List PublicEvent) (w w' : StreamWorld) : Prop where
  ice : Relay.Follows iterator w.iceCandidates candidates w'.iceCandidates
  incoming : Relay.Follows IncomingReader.single w.incomingDc channels w'.incomingDc
  events : Relay.Follows iterator w.eventsQueue events w'.eventsQueue

/-- Streams that did nothing were put nothing. -/
theorem Streamed.refl (w : StreamWorld) : Streamed [] [] [] w w where
  ice := Relay.Follows.refl _
  incoming := Relay.Follows.refl _
  events := Relay.Follows.refl _

/-- What two runs put is put by both together. -/
theorem Streamed.trans {w'' : StreamWorld} {cs cs' : List Candidate}
    {ds ds' : List Int} {es es' : List PublicEvent} (h : Streamed cs ds es w w')
    (h' : Streamed cs' ds' es' w' w'') :
    Streamed (cs ++ cs') (ds ++ ds') (es ++ es') w w'' where
  ice := h.ice.trans h'.ice
  incoming := h.incoming.trans h'.incoming
  events := h.events.trans h'.events

/-- One `put`, on each kind of stream. -/
theorem follows_put {α ι : Type} [DecidableEq ι] (once : ι → Bool) (e : Option α)
    (r : Relay α ι) : Relay.Follows once r e.toList (r.put e) :=
  Relay.Follows.of_step (a := .put e) rfl

/-- Every dispatcher emits its event, and two put an item beside it. -/
theorem streamed_dispatch (d : Dispatch) (w : StreamWorld) :
    Streamed d.candidate?.toList d.channel?.toList [d.event] w (w.dispatch d) := by
  have hmark : ∀ (p : Prop) [Decidable p] (r : Relay Candidate Nat),
      Relay.Follows iterator r [] (if p then r.put none else r) := by
    intro p _ r
    split
    · exact follows_put iterator none r
    · exact Relay.Follows.refl r
  cases d with
  | localDescription desc =>
      exact ⟨.refl _, .refl _, follows_put iterator (some _) w.eventsQueue⟩
  | localCandidate cand =>
      exact ⟨follows_put iterator (some cand) w.iceCandidates, .refl _,
        follows_put iterator (some _) w.eventsQueue⟩
  | stateChange state =>
      have hice := hmark (state = .closed ∨ state = .failed) w.iceCandidates
      have hev := follows_put iterator (some (.stateChange state)) w.eventsQueue
      show Streamed [] [] _ w (w.handleStateChange state)
      unfold handleStateChange
      by_cases hs : state = .closed ∨ state = .failed
      · rw [if_pos hs] at hice
        simp only [if_pos hs]
        exact ⟨hice, .refl _, hev⟩
      · simp only [if_neg hs]
        exact ⟨.refl _, .refl _, hev⟩
  | iceState state =>
      exact ⟨.refl _, .refl _, follows_put iterator (some _) w.eventsQueue⟩
  | gatheringState state =>
      have hice := hmark (state = .complete) w.iceCandidates
      have hev := follows_put iterator (some (.gatheringStateChange state)) w.eventsQueue
      show Streamed [] [] _ w (w.handleGatheringState state)
      unfold handleGatheringState
      by_cases hs : state = .complete
      · rw [if_pos hs] at hice
        simp only [if_pos hs]
        exact ⟨hice, .refl _, hev⟩
      · simp only [if_neg hs]
        exact ⟨.refl _, .refl _, hev⟩
  | signalingState state =>
      exact ⟨.refl _, .refl _, follows_put iterator (some _) w.eventsQueue⟩
  | incomingDc handle =>
      exact ⟨.refl _, follows_put IncomingReader.single (some handle) w.incomingDc,
        follows_put iterator (some _) w.eventsQueue⟩

/-- A consumer puts nothing. -/
theorem ConsumerStep.item?_on {α ι : Type} (s : ConsumerStep) (t : ι) :
    (s.on t : Relay.Action α ι).item? = none := by
  cases s <;> rfl

/-- A consumer puts nothing. -/
theorem follows_consume {α ι : Type} [DecidableEq ι] {once : ι → Bool}
    {s : ConsumerStep} {t : ι} {r r' : Relay α ι}
    (h : Relay.step once (s.on t) r = some r') : Relay.Follows once r [] r' := by
  have hrun := Relay.Follows.of_step h
  rwa [ConsumerStep.item?_on] at hrun

/-- A consumer puts nothing into any of the streams. -/
theorem streamed_consume {s : ConsumerStep} {c : Consumer}
    (h : w.consume s c = some w') : Streamed [] [] [] w w' ∧ w'.pc = w.pc := by
  cases c with
  | iceCandidates n =>
      obtain ⟨r, hr, rfl⟩ := Option.map_eq_some_iff.mp h
      exact ⟨⟨follows_consume hr, .refl _, .refl _⟩, rfl⟩
  | incoming n =>
      obtain ⟨r, hr, rfl⟩ := Option.map_eq_some_iff.mp h
      exact ⟨⟨.refl _, follows_consume hr, .refl _⟩, rfl⟩
  | events n =>
      obtain ⟨r, hr, rfl⟩ := Option.map_eq_some_iff.mp h
      exact ⟨⟨.refl _, .refl _, follows_consume hr⟩, rfl⟩

/-- Cancelling the consumers of the owned tasks. -/
theorem streamed_cancels (owned : List Consumer) (w : StreamWorld) :
    Streamed [] [] [] w (owned.foldl cancel w) ∧ (owned.foldl cancel w).pc = w.pc := by
  induction owned generalizing w with
  | nil => exact ⟨.refl w, rfl⟩
  | cons c rest ih =>
      have hone : w.consume .cancel c = some (w.cancel c) := by
        cases c <;> rfl
      obtain ⟨hs, hpc⟩ := streamed_consume hone
      obtain ⟨hrest, hpc'⟩ := ih (w.cancel c)
      exact ⟨hs.trans hrest, hpc'.trans hpc⟩

/-- `close()` puts the markers, which are no items. -/
theorem streamed_endStreams (w : StreamWorld) : Streamed [] [] [] w w.endStreams where
  ice := follows_put iterator none w.iceCandidates
  incoming := follows_put IncomingReader.single none w.incomingDc
  events := follows_put iterator none w.eventsQueue

-- ============================================================ every state

/-- Each queue knows its consumers. -/
structure StreamsSound (w : StreamWorld) : Prop where
  ice : w.iceCandidates.Sound
  incoming : w.incomingDc.Sound
  events : w.eventsQueue.Sound

/-- Each queue holds a marker. -/
structure Marked (w : StreamWorld) : Prop where
  ice : none ∈ w.iceCandidates.queue.items
  incoming : none ∈ w.incomingDc.queue.items
  events : none ∈ w.eventsQueue.queue.items

/-- Putting and reading keeps the streams sound. -/
theorem Streamed.sound {cs : List Candidate} {ds : List Int} {es : List PublicEvent}
    (h : Streamed cs ds es w w') (hs : StreamsSound w) : StreamsSound w' where
  ice := h.ice.sound hs.ice
  incoming := h.incoming.sound hs.incoming
  events := h.events.sound hs.events

/-- A marked stream stays marked. -/
theorem Streamed.marked {cs : List Candidate} {ds : List Int} {es : List PublicEvent}
    (h : Streamed cs ds es w w') (hs : StreamsSound w) (hm : Marked w) : Marked w' where
  ice := h.ice.marked hs.ice hm.ice
  incoming := h.incoming.marked hs.incoming hm.incoming
  events := h.events.marked hs.events hm.events

/-- After `close()` every stream is marked. -/
theorem marked_endStreams (hs : StreamsSound w) : Marked w.endStreams := by
  have hput : ∀ {α ι : Type} [DecidableEq ι] {r : Relay α ι}, r.Sound →
      none ∈ (r.put none).queue.items := by
    intro α ι _ r hr
    rw [Relay.put_items hr.full]
    exact List.mem_append_right _ (List.mem_singleton_self _)
  exact ⟨hput hs.ice, hput hs.incoming, hput hs.events⟩

/-- `close()` puts no item, and a closed connection's streams are
marked. -/
theorem close_spec (owned : List Consumer) (hs : StreamsSound w)
    (hm : w.pc.closed = true → Marked w) :
    Streamed [] [] [] w (w.close owned) ∧ Marked (w.close owned)
      ∧ (w.close owned).pc.closed = true := by
  unfold close
  by_cases hc : w.pc.closed = true
  · rw [if_pos hc]
    exact ⟨.refl w, hm hc, hc⟩
  · rw [if_neg hc]
    let w₀ : StreamWorld := { w with pc := { w.pc with closed := true } }
    obtain ⟨hcancels, hpc⟩ := streamed_cancels owned w₀.endStreams
    have hend : Streamed [] [] [] w₀ w₀.endStreams := streamed_endStreams w₀
    have hs₀ : StreamsSound w₀ := ⟨hs.ice, hs.incoming, hs.events⟩
    have hrun := hend.trans hcancels
    have hmark := hcancels.marked (hend.sound hs₀) (marked_endStreams hs₀)
    refine ⟨⟨hrun.ice, hrun.incoming, hrun.events⟩,
      ⟨hmark.ice, hmark.incoming, hmark.events⟩, ?_⟩
    show (owned.foldl cancel w₀.endStreams).pc.closed = true
    rw [hpc]
    rfl

/-- No dispatcher closes or reopens the connection. -/
theorem closed_dispatch (d : Dispatch) (w : StreamWorld) :
    (w.dispatch d).pc.closed = w.pc.closed := by
  cases d with
  | stateChange state =>
      show (w.handleStateChange state).pc.closed = _
      have hpc : (w.pc.handleStateChange state).closed = w.pc.closed := by
        unfold PeerConnection.handleStateChange
        split <;> rfl
      unfold handleStateChange
      split <;> exact hpc
  | gatheringState state =>
      show (w.handleGatheringState state).pc.closed = _
      unfold handleGatheringState
      split <;> rfl
  | localDescription desc => rfl
  | localCandidate cand => rfl
  | iceState state => rfl
  | signalingState state => rfl
  | incomingDc handle => rfl

/-- What every reachable state keeps. -/
structure StreamsInv (w : StreamWorld) : Prop where
  sound : StreamsSound w
  marked : w.pc.closed = true → Marked w

/-- The streams of a new connection are sound. -/
theorem streamsInv_init (handle : Int) (core : Core) : StreamsInv (init handle core) where
  sound := ⟨Relay.sound_new, Relay.sound_new, Relay.sound_new⟩
  marked := fun h => absurd h Bool.false_ne_true

/-- The items an action puts, by stream. -/
def Action.candidate? (a : Action) : Option Candidate :=
  a.dispatch?.bind Dispatch.candidate?

def Action.channel? (a : Action) : Option Int := a.dispatch?.bind Dispatch.channel?

def Action.event? (a : Action) : Option PublicEvent := a.dispatch?.map Dispatch.event

/-- What one step does: it gives each stream its items, keeps the
invariant, and never reopens the connection. -/
theorem step_spec (hw : StreamsInv w) (h : apply a w = some w') :
    Streamed a.candidate?.toList a.channel?.toList a.event?.toList w w'
      ∧ StreamsInv w'
      ∧ (w.pc.closed = true ∨ (∃ owned, a = .close owned) → w'.pc.closed = true) := by
  cases a with
  | dispatch d =>
      cases h
      have hrun := streamed_dispatch d w
      have hclosed := closed_dispatch d w
      refine ⟨hrun, ⟨hrun.sound hw.sound, fun hc => ?_⟩, fun hc => ?_⟩
      · exact hrun.marked hw.sound (hw.marked (hclosed.symm.trans hc))
      · rcases hc with hc | ⟨owned, ho⟩
        · exact hclosed.trans hc
        · cases ho
  | close owned =>
      cases h
      obtain ⟨hrun, hmark, hclosed⟩ := close_spec owned hw.sound hw.marked
      exact ⟨hrun, ⟨hrun.sound hw.sound, fun _ => hmark⟩, fun _ => hclosed⟩
  | consume s c =>
      obtain ⟨hrun, hpc⟩ := streamed_consume h
      refine ⟨hrun, ⟨hrun.sound hw.sound, fun hc => ?_⟩, fun hc => ?_⟩
      · rw [hpc] at hc
        exact hrun.marked hw.sound (hw.marked hc)
      · rw [hpc]
        rcases hc with hc | ⟨owned, ho⟩
        · exact hc
        · cases ho

/-- What a run does: the same, with the items of all its dispatchers. -/
theorem run_spec {acts : List Action} (hw : StreamsInv w)
    (h : exec apply w acts = some w') :
    Streamed (acts.filterMap Action.candidate?) (acts.filterMap Action.channel?)
        (acts.filterMap Action.event?) w w'
      ∧ StreamsInv w'
      ∧ (w.pc.closed = true ∨ (∃ owned, Action.close owned ∈ acts) →
          w'.pc.closed = true) := by
  induction acts generalizing w with
  | nil =>
      cases h
      refine ⟨.refl _, hw, fun hc => hc.resolve_right ?_⟩
      rintro ⟨owned, hmem⟩
      exact List.not_mem_nil hmem
  | cons a rest ih =>
      obtain ⟨m, ha, hexec⟩ := Transition.exec_cons_cases h
      obtain ⟨hone, hm, hclosed⟩ := step_spec hw ha
      obtain ⟨hrest, hinv, hclosed'⟩ := ih hm hexec
      refine ⟨?_, hinv, fun hc => hclosed' ?_⟩
      · have hboth := hone.trans hrest
        rwa [Transition.toList_append_filterMap, Transition.toList_append_filterMap,
          Transition.toList_append_filterMap] at hboth
      · rcases hc with hc | ⟨owned, hmem⟩
        · exact Or.inl (hclosed (Or.inl hc))
        · rcases List.mem_cons.mp hmem with hmem | hmem
          · exact Or.inl (hclosed (Or.inr ⟨owned, hmem.symm⟩))
          · exact Or.inr ⟨owned, hmem⟩

-- ============================================================ the streams

/-- What the calls of this accepting consumer came to. -/
def accepts (n : Nat) (r : Relay Int IncomingReader) : List (Outcome Int Exc) :=
  (r.seen.filter fun s => decide (s.1 = .accept n)).map fun s => acceptOutcome s.2

/-- What a sole `accept_data_channel` comes to, from the channels ahead
of the marker. -/
def acceptDue : List Int → Outcome Int Exc
  | dc :: _ => .returned dc
  | [] =>
      .raised (.connectionClosedError "peer connection closed before a data channel arrived")

/-- What a reader sees is what its `accept_data_channel()` is told. -/
theorem accepts_append {n : Nat} {r r' : Relay Int IncomingReader} {l : List (Seen Int)}
    (h : r'.seen = r.seen ++ l.map (Prod.mk (.accept n))) :
    accepts n r' = accepts n r ++ l.map acceptOutcome := by
  have hall : (l.map (Prod.mk (IncomingReader.accept n))).filter
      (fun s => decide (s.1 = .accept n)) = l.map (Prod.mk (.accept n)) := by
    rw [List.filter_eq_self]
    intro s hs
    obtain ⟨x, -, rfl⟩ := List.mem_map.mp hs
    exact decide_eq_true rfl
  unfold accepts
  rw [h, List.filter_append, hall, List.map_append, List.map_map]
  rfl

/-- An `accept_data_channel()` is due the first channel, or the end. -/
theorem due_accept (ahead : List Int) :
    (Relay.due true ahead).map acceptOutcome = [acceptDue ahead] := by
  cases ahead <;> rfl

/-- `accept_data_channel` in a closed connection, with nobody else
reading: it returns the channel that is ahead of the marker, or raises
`ConnectionClosedError`, and nothing else; and it does come to that. -/
structure AcceptEnds (r : Relay Int IncomingReader) : Prop where
  only : ∀ n ahead rest acts r', Relay.Sole (.accept n) r →
    r.queue.items = ahead.map some ++ none :: rest →
    (∀ a ∈ acts, Relay.Action.feeds (.accept n) a = true) →
    exec (Relay.step IncomingReader.single) r acts = some r' →
      accepts n r' <+: accepts n r ++ [acceptDue ahead]
  all : ∀ n ahead rest, Relay.Sole (.accept n) r →
    r.queue.items = ahead.map some ++ none :: rest →
    ∃ acts r', (∀ a ∈ acts, Relay.Action.reads (.accept n) a = true)
      ∧ exec (Relay.step IncomingReader.single) r acts = some r'
      ∧ accepts n r' = accepts n r ++ [acceptDue ahead]

/-- In a stream that has ended every `accept_data_channel()` ends. -/
theorem acceptEnds_of_terminated {r : Relay Int IncomingReader}
    (h : Relay.Terminated IncomingReader.single r) : AcceptEnds r where
  only := by
    intro n ahead rest acts r' hsole hi hacts hexec
    obtain ⟨l, hseen, hpre, -⟩ := (h.sole _ ahead rest hsole hi).1 acts r' hacts hexec
    rw [accepts_append hseen, ← due_accept]
    exact (List.prefix_append_right_inj _).mpr (hpre.map acceptOutcome)
  all := by
    intro n ahead rest hsole hi
    obtain ⟨acts, r', hacts, hexec, hseen, -⟩ := (h.sole _ ahead rest hsole hi).2
    refine ⟨acts, r', hacts, hexec, ?_⟩
    rw [accepts_append hseen]
    exact congrArg (accepts n r ++ ·) (due_accept ahead)

/-- What the consumers of each stream took, followed by what is queued
there, is what the dispatchers of the run put. -/
structure Delivered (acts : List Action) (w : StreamWorld) : Prop where
  ice : w.iceCandidates.taken ++ w.iceCandidates.queued
    = acts.filterMap Action.candidate?
  incoming : w.incomingDc.taken ++ w.incomingDc.queued = acts.filterMap Action.channel?
  events : w.eventsQueue.taken ++ w.eventsQueue.queued = acts.filterMap Action.event?

/-- Every stream has ended for everybody. -/
structure Ended (w : StreamWorld) : Prop where
  ice : Relay.Terminated iterator w.iceCandidates
  incoming : Relay.Terminated IncomingReader.single w.incomingDc
  events : Relay.Terminated iterator w.eventsQueue
  accept : AcceptEnds w.incomingDc

/-- Marked streams end for every consumer. -/
theorem ended_of_marked (hs : StreamsSound w) (hm : Marked w) : Ended w where
  ice := Relay.terminated_of_marked hs.ice hm.ice
  incoming := Relay.terminated_of_marked hs.incoming hm.incoming
  events := Relay.terminated_of_marked hs.events hm.events
  accept := acceptEnds_of_terminated (Relay.terminated_of_marked hs.incoming hm.incoming)

/-- In every state of every run the streams have delivered each item
once and in order, and after a `close()` they have ended. -/
theorem streams_delivered_and_ended {handle : Int} {core : Core} {acts : List Action}
    (h : exec apply (init handle core) acts = some w) :
    Delivered acts w ∧ ((∃ owned, Action.close owned ∈ acts) → Ended w) := by
  have hinit := streamsInv_init handle core
  obtain ⟨hrun, hinv, hclosed⟩ := run_spec hinit h
  refine ⟨⟨?_, ?_, ?_⟩, fun hc => ?_⟩
  · exact hrun.ice.conserves hinit.sound.ice
  · exact hrun.incoming.conserves hinit.sound.incoming
  · exact hrun.events.conserves hinit.sound.events
  · exact ended_of_marked hinv.sound (hinv.marked (hclosed (Or.inr hc)))

/-- Two candidates, two consumers waiting and one of them cancelled by
`close()`, and a candidate that comes late. -/
def busyRun : List Action :=
  [.consume .get (.iceCandidates 0), .consume .get (.iceCandidates 1),
    .dispatch (.localCandidate ⟨"a", "0"⟩), .dispatch (.localCandidate ⟨"b", "0"⟩),
    .close [.iceCandidates 0], .consume .resume (.iceCandidates 0),
    .consume .resume (.iceCandidates 1), .dispatch (.localCandidate ⟨"c", "0"⟩),
    .close [], .consume .get (.iceCandidates 1), .consume .get (.iceCandidates 1),
    .dispatch (.incomingDc 7)]

theorem streams_delivered_and_ended_busyRun :
    ∃ w, exec apply (init 1 ⟨[], [], [], []⟩) busyRun = some w
      ∧ w.iceCandidates.taken = [⟨"a", "0"⟩, ⟨"b", "0"⟩]
      ∧ w.iceCandidates.queue.items = [some ⟨"c", "0"⟩, none]
      ∧ Delivered busyRun w ∧ Ended w := by
  have hrun := @streams_delivered_and_ended _ 1 ⟨[], [], [], []⟩ busyRun rfl
  exact ⟨_, rfl, rfl, rfl, hrun.1, hrun.2 ⟨[], by decide⟩⟩

end StreamWorld

end AioLibDataChannel
