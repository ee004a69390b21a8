/-
From libdatachannel to the public surface of a connection: the upcalls,
the threads they come on, the loop, and the streams, properties and
`wait_for_state` they end up in.

# What a step is

An upcall goes through its trampoline and `_dispatch` to the callback it
finds (`upcall`). The callback runs next, when its thread has the GIL
(`call`), and posts its dispatcher; the loop runs dispatchers in the
order they were posted (`run`, which names the dispatcher it runs). In
between come the consumers and calls of the connection (`api`), the
destroy of the wrapper, by the teardown's job or by the sweep at exit,
the moment the sweep takes the dispatcher away, and the end of the loop.

# What is lost

Nothing on the way: `reports_exact`. Before that, what comes after the
destroy has begun, a text that is none, and a number no enumeration
knows; after it, what a closed loop forgets. And `close()` by itself
reports nothing: once the destroy has begun and the last callbacks are
through, what the connection shows is final (`reports_final`).
-/
import AioLibDataChannel.Asyncio.Posting
import AioLibDataChannel.PeerConnection.Callbacks
import AioLibDataChannel.PeerConnection.StateWaits

namespace AioLibDataChannel

open Asyncio (Latches Posting Relay)
open Transition (exec)

/-- A connection with its streams and waits, what is on its way there,
and whether trampolines still have the dispatcher to call. -/
structure ReportWorld where
  wait : WaitWorld
  posting : Posting DispatchArgs StreamWorld.Dispatch
  dispatcher : Bool

namespace ReportWorld

open StreamWorld (Dispatch Streamed StreamsSound)

/-- `PeerConnection.__init__`. -/
def init (handle : Int) (core : Core) : ReportWorld where
  wait := WaitWorld.init handle core
  posting := Posting.new
  dispatcher := true

/-- What a callback schedules, called as it was found. -/
def convert (a : DispatchArgs) : Option Dispatch :=
  match a.kind with
  | .pc kind => (StreamWorld.callback kind a.payload).toOption
  | _ => none

/-- `_dispatch` finds the wrapper and its callback. -/
def found (u : Upcall) (w : ReportWorld) : Option DispatchArgs :=
  match u.args?, u.kind with
  | some a, .pc kind =>
      if w.dispatcher && w.wait.stream.pc.native.dispatches w.wait.stream.core kind
        then some a else none
  | _, _ => none

inductive Action
  | upcall (u : Upcall)
  | call (n : Nat)
  | run (d : Dispatch)
  | api (a : WaitWorld.Action)
  | beginDestroy
  | clearDispatcher
  | closeLoop
deriving DecidableEq, Repr

/-- It is a dispatcher, which only `run` runs. -/
def dispatches : WaitWorld.Action → Bool
  | .stream (.dispatch _) => true
  | _ => false

/-- An upcall for this connection. -/
def upcall (u : Upcall) (w : ReportWorld) : Option ReportWorld :=
  if u.handle = w.wait.stream.pc.native.handle then
    match w.found u with
    | none => some w
    | some a => some { w with posting := w.posting.find a }
  else none

/-- The loop runs the dispatcher posted first. -/
def run (d : Dispatch) (w : ReportWorld) : Option ReportWorld :=
  if w.posting.ready.head? = some d then
    w.posting.run.map fun p =>
      { w with
        wait := { w.wait with stream := w.wait.stream.dispatch d }
        posting := p }
  else none

/-- `_native.destroy` up to the native delete. -/
def beginDestroy (w : ReportWorld) : ReportWorld :=
  let (core, native) := w.wait.stream.pc.native.beginDestroy w.wait.stream.core
  { w with
    wait := { w.wait with
      stream := { w.wait.stream with
        core := core
        pc := { w.wait.stream.pc with native := native } } } }

/-- The transition. A closed loop runs nothing. -/
def apply : Action → ReportWorld → Option ReportWorld
  | .upcall u, w => w.upcall u
  | .call n, w => (w.posting.call convert n).map fun p => { w with posting := p }
  | .run d, w => w.run d
  | .api a, w =>
      if dispatches a ∨ w.posting.closed = true then none
      else (WaitWorld.apply a w.wait).map fun v => { w with wait := v }
  | .beginDestroy, w => some w.beginDestroy
  | .clearDispatcher, w => some { w with dispatcher := false }
  | .closeLoop, w => some { w with posting := w.posting.close }

-- ============================================================== the labels

/-- After it, `_dispatch` finds the connection no more. -/
def Action.silences : Action → Bool
  | beginDestroy => true
  | clearDispatcher => true
  | _ => false

/-- What an upcall means. -/
def Action.report? : Action → Option Dispatch
  | upcall u => StreamWorld.report? u
  | _ => none

/-- The dispatcher an action runs. -/
def Action.ran? : Action → Option Dispatch
  | run d => some d
  | _ => none

/-- No callback is called before one that was found earlier. -/
def Action.inTurn : Action → Bool
  | call n => decide (n = 0)
  | _ => true

/-- What libdatachannel reported while the connection was there to be
found, in order. -/
def heard (acts : List Action) : List Dispatch :=
  (acts.takeWhile fun a => !a.silences).filterMap Action.report?

variable {w w' : ReportWorld} {a : Action}

-- ================================================================= lookups

/-- A callback is found, for every kind or for none. -/
structure Found (on : Bool) (w : ReportWorld) : Prop where
  on : ∀ kind, (w.dispatcher
    && w.wait.stream.pc.native.dispatches w.wait.stream.core kind) = on

/-- A new wrapper is found. -/
theorem found_init (handle : Int) (core : Core) : Found true (init handle core) := by
  refine ⟨fun kind => ?_⟩
  have hkey : handle ∈ insertKey handle core.pcs := mem_insertKey.mpr (Or.inl rfl)
  show (true && (decide (handle ∈ insertKey handle core.pcs)
    && decide (kind ∈ [PcKind.localDescription, .localCandidate, .stateChange,
      .iceStateChange, .gatheringStateChange, .signalingStateChange,
      .dataChannel]))) = true
  rw [decide_eq_true hkey]
  cases kind <;> rfl

/-- No dispatcher touches what `_dispatch` looks up. -/
theorem registered_dispatch (d : Dispatch) (s : StreamWorld) :
    (s.dispatch d).pc.native = s.pc.native ∧ (s.dispatch d).core.pcs = s.core.pcs := by
  cases d with
  | stateChange state =>
      show (s.handleStateChange state).pc.native = _
        ∧ (s.handleStateChange state).core.pcs = _
      have hpc : (s.pc.handleStateChange state).native = s.pc.native := by
        unfold PeerConnection.handleStateChange
        split <;> rfl
      unfold StreamWorld.handleStateChange
      split <;> exact ⟨hpc, rfl⟩
  | gatheringState state =>
      show (s.handleGatheringState state).pc.native = _
        ∧ (s.handleGatheringState state).core.pcs = _
      unfold StreamWorld.handleGatheringState
      split <;> exact ⟨rfl, rfl⟩
  | localDescription desc => exact ⟨rfl, rfl⟩
  | localCandidate cand => exact ⟨rfl, rfl⟩
  | iceState state => exact ⟨rfl, rfl⟩
  | signalingState state => exact ⟨rfl, rfl⟩
  | incomingDc handle => exact ⟨rfl, rfl⟩

-- ================================================================ the shown

/-- The four state properties. -/
structure Shown where
  state : RTCState
  iceState : IceState
  gatheringState : GatheringState
  signalingState : SignalingState
deriving DecidableEq, Repr

/-- `state`, `ice_state`, `gathering_state`, `signaling_state`. -/
def shown (s : StreamWorld) : Shown where
  state := s.pc.state
  iceState := s.iceState
  gatheringState := s.pc.gatheringState
  signalingState := s.signalingState

/-- What they are before any report. -/
def Shown.initial : Shown where
  state := .new
  iceState := .new
  gatheringState := .new
  signalingState := .stable

/-- A report of a state is shown until the next one of its kind. -/
def Shown.after (v : Shown) : Dispatch → Shown
  | .stateChange state => { v with state := state }
  | .iceState state => { v with iceState := state }
  | .gatheringState state => { v with gatheringState := state }
  | .signalingState state => { v with signalingState := state }
  | _ => v

/-- A dispatched report is shown. -/
theorem shown_dispatch (d : Dispatch) (s : StreamWorld) :
    shown (s.dispatch d) = (shown s).after d := by
  cases d with
  | stateChange state =>
      show shown (s.handleStateChange state) = _
      have hpc : (s.pc.handleStateChange state).state = state
          ∧ (s.pc.handleStateChange state).gatheringState = s.pc.gatheringState := by
        unfold PeerConnection.handleStateChange
        split <;> exact ⟨rfl, rfl⟩
      have hshown : ∀ e : PublicEvent, shown (({ s with
          pc := s.pc.handleStateChange state
          stateEvents := Function.update s.stateEvents state (s.stateEvents state).set } :
            StreamWorld).emit e) = (shown s).after (.stateChange state) := by
        intro e
        show Shown.mk (s.pc.handleStateChange state).state _
          (s.pc.handleStateChange state).gatheringState _ = _
        rw [hpc.1, hpc.2]
        rfl
      unfold StreamWorld.handleStateChange
      split <;> exact hshown (.stateChange state)
  | gatheringState state =>
      show shown (s.handleGatheringState state) = _
      unfold StreamWorld.handleGatheringState
      split <;> rfl
  | localDescription desc => rfl
  | localCandidate cand => rfl
  | iceState state => rfl
  | signalingState state => rfl
  | incomingDc handle => rfl

-- ============================================================ feeding

/-- What the public surface gets from some dispatchers: the streams
their items, the properties their values. The lookup it does not
touch. -/
structure Fed (ds : List Dispatch) (s s' : StreamWorld) : Prop where
  streamed : Streamed (ds.filterMap Dispatch.candidate?) (ds.filterMap Dispatch.channel?)
    (ds.map Dispatch.event) s s'
  shown : shown s' = ds.foldl Shown.after (ReportWorld.shown s)

/-- A stream that did nothing was fed nothing. -/
theorem Fed.refl (s : StreamWorld) : Fed [] s s := ⟨Streamed.refl s, rfl⟩

/-- What is fed in one run and then in another is fed in both. -/
theorem Fed.trans {ds ds' : List Dispatch} {s s' s'' : StreamWorld} (h : Fed ds s s')
    (h' : Fed ds' s' s'') : Fed (ds ++ ds') s s'' where
  streamed := by
    rw [List.filterMap_append, List.filterMap_append, List.map_append]
    exact h.streamed.trans h'.streamed
  shown := by
    rw [List.foldl_append, ← h.shown]
    exact h'.shown

/-- A dispatch feeds its report. -/
theorem fed_dispatch (d : Dispatch) (s : StreamWorld) : Fed [d] s (s.dispatch d) where
  streamed := by
    have hone := StreamWorld.streamed_dispatch d s
    have hlist : ∀ {α : Type} (f : Dispatch → Option α), [d].filterMap f = (f d).toList := by
      intro α f
      cases hf : f d <;> simp [hf]
    rw [hlist, hlist]
    exact hone
  shown := shown_dispatch d s

/-- A consumer's step shows nothing new, and neither does `close()`. -/
theorem shown_consume {s s' : StreamWorld} {c : ConsumerStep} {r : Consumer}
    (h : s.consume c r = some s') :
    shown s' = shown s ∧ s'.pc = s.pc ∧ s'.core = s.core := by
  cases r <;> (obtain ⟨q, -, rfl⟩ := Option.map_eq_some_iff.mp h; exact ⟨rfl, rfl, rfl⟩)

/-- `close()` shows nothing and destroys nothing. -/
theorem shown_close (owned : List Consumer) (s : StreamWorld) :
    shown (s.close owned) = shown s ∧ (s.close owned).pc.native = s.pc.native
      ∧ (s.close owned).core = s.core := by
  have hcancels : ∀ (cs : List Consumer) (s : StreamWorld),
      shown (cs.foldl StreamWorld.cancel s) = shown s
        ∧ (cs.foldl StreamWorld.cancel s).pc = s.pc
        ∧ (cs.foldl StreamWorld.cancel s).core = s.core := by
    intro cs
    induction cs with
    | nil => exact fun s => ⟨rfl, rfl, rfl⟩
    | cons c rest ih =>
        intro s
        obtain ⟨hsh, hpc, hcore⟩ := ih (s.cancel c)
        cases c <;> exact ⟨hsh, hpc, hcore⟩
  unfold StreamWorld.close
  split
  · exact ⟨rfl, rfl, rfl⟩
  · let s₀ : StreamWorld := { s with pc := { s.pc with closed := true } }
    obtain ⟨hsh, hpc, hcore⟩ := hcancels owned s₀.endStreams
    refine ⟨hsh, ?_, hcore⟩
    show (owned.foldl StreamWorld.cancel s₀.endStreams).pc.native = _
    rw [hpc]
    rfl

/-- The calls and consumers of the connection feed it nothing. -/
theorem fed_api {b : WaitWorld.Action} {v v' : WaitWorld} (hb : dispatches b = false)
    (hv : StreamWorld.StreamsInv v.stream) (h : WaitWorld.apply b v = some v') :
    Fed [] v.stream v'.stream ∧ StreamWorld.StreamsInv v'.stream
      ∧ v'.stream.pc.native = v.stream.pc.native
      ∧ v'.stream.core.pcs = v.stream.core.pcs := by
  have hsame : ∀ l : Latches RTCState TaskId,
      Fed [] v.stream (v.withLatches l).stream
        ∧ StreamWorld.StreamsInv (v.withLatches l).stream
        ∧ (v.withLatches l).stream.pc.native = v.stream.pc.native
        ∧ (v.withLatches l).stream.core.pcs = v.stream.core.pcs := by
    intro l
    have hrefl := Streamed.refl v.stream
    exact ⟨⟨⟨hrefl.ice, hrefl.incoming, hrefl.events⟩, rfl⟩,
      ⟨⟨hv.sound.ice, hv.sound.incoming, hv.sound.events⟩, fun hc =>
        ⟨(hv.marked hc).ice, (hv.marked hc).incoming, (hv.marked hc).events⟩⟩, rfl, rfl⟩
  cases b with
  | stream c =>
      obtain ⟨s, hs, rfl⟩ := Option.map_eq_some_iff.mp h
      obtain ⟨hstep, hinv, -⟩ := StreamWorld.step_spec hv hs
      cases c with
      | dispatch d => cases hb
      | close owned =>
          cases hs
          obtain ⟨hsh, hn, hcore⟩ := shown_close owned v.stream
          exact ⟨⟨hstep, hsh⟩, hinv, hn, congrArg Core.pcs hcore⟩
      | consume c r =>
          obtain ⟨hsh, hpc, hcore⟩ := shown_consume hs
          exact ⟨⟨hstep, hsh⟩, hinv, congrArg PeerConnection.native hpc,
            congrArg Core.pcs hcore⟩
  | waitForState t state =>
      obtain ⟨l, -, rfl⟩ := Option.map_eq_some_iff.mp h
      exact hsame l
  | resume t =>
      obtain ⟨l, -, rfl⟩ := Option.map_eq_some_iff.mp h
      exact hsame l
  | cancel t =>
      cases h
      exact hsame _
  | absorb t =>
      obtain ⟨l, -, rfl⟩ := Option.map_eq_some_iff.mp h
      exact hsame l

-- =============================================================== one step

/-- What a step can be. -/
inductive Step (w : ReportWorld) : Action → ReportWorld → Prop
  | missed (u : Upcall) : w.found u = none → Step w (.upcall u) w
  | found (u : Upcall) (a : DispatchArgs) : w.found u = some a →
      Step w (.upcall u) { w with posting := w.posting.find a }
  | called (n : Nat) (p : Posting DispatchArgs Dispatch) :
      w.posting.call convert n = some p → Step w (.call n) { w with posting := p }
  | ran (d : Dispatch) (rest : List Dispatch) : w.posting.ready = d :: rest →
      Step w (.run d)
        { w with
          wait := { w.wait with stream := w.wait.stream.dispatch d }
          posting := { w.posting with ready := rest, ran := w.posting.ran ++ [d] } }
  | api (b : WaitWorld.Action) (v : WaitWorld) : dispatches b = false →
      WaitWorld.apply b w.wait = some v → Step w (.api b) { w with wait := v }
  | destroyed : Step w .beginDestroy w.beginDestroy
  | cleared : Step w .clearDispatcher { w with dispatcher := false }
  | closed : Step w .closeLoop { w with posting := w.posting.close }

/-- The transition takes no other step. -/
theorem step_cases (h : apply a w = some w') : Step w a w' := by
  cases a with
  | upcall u =>
      simp only [apply, upcall] at h
      split at h
      · split at h
        next hu =>
          cases h
          exact .missed u hu
        next a hu =>
          cases h
          exact .found u a hu
      · cases h
  | call n =>
      obtain ⟨p, hp, rfl⟩ := Option.map_eq_some_iff.mp h
      exact .called n p hp
  | run d =>
      simp only [apply, run] at h
      split at h
      next hd =>
        obtain ⟨p, hp, rfl⟩ := Option.map_eq_some_iff.mp h
        obtain ⟨d', rest, hr, rfl⟩ := Posting.run_cases hp
        rw [hr] at hd
        cases hd
        exact .ran d rest hr
      next => cases h
  | api b =>
      simp only [apply] at h
      split at h
      next => cases h
      next hb =>
        obtain ⟨v, hv, rfl⟩ := Option.map_eq_some_iff.mp h
        exact .api b v ((Bool.not_eq_true _).mp fun hd => hb (Or.inl hd)) hv
  | beginDestroy =>
      cases h
      exact .destroyed
  | clearDispatcher =>
      cases h
      exact .cleared
  | closeLoop =>
      cases h
      exact .closed

/-- The lookups go on until they are silenced. -/
theorem found_step {on : Bool} (hf : Found on w)
    (hs : StreamWorld.StreamsInv w.wait.stream) (h : apply a w = some w') :
    Found (on && !a.silences) w' := by
  have hkeep : ∀ {v : ReportWorld}, v.dispatcher = w.dispatcher →
      v.wait.stream.pc.native = w.wait.stream.pc.native →
      v.wait.stream.core.pcs = w.wait.stream.core.pcs → Found (on && true) v := by
    intro v hd hn hc
    refine ⟨fun kind => ?_⟩
    rw [hd, CorePeerConnection.dispatches, hn, hc, Bool.and_true]
    exact hf.on kind
  cases step_cases h with
  | missed u hu => exact hkeep rfl rfl rfl
  | found u a hu => exact hkeep rfl rfl rfl
  | called n p hp => exact hkeep rfl rfl rfl
  | ran d rest hr =>
      obtain ⟨hn, hc⟩ := registered_dispatch d w.wait.stream
      exact hkeep rfl hn hc
  | api b v hb hv =>
      obtain ⟨-, -, hn, hc⟩ := fed_api hb hs hv
      exact hkeep rfl hn hc
  | destroyed =>
      refine ⟨fun kind => ?_⟩
      have hnot : kind ∉ ([] : List PcKind) := List.not_mem_nil
      show (w.dispatcher && (decide _ && decide (kind ∈ ([] : List PcKind))))
        = (on && false)
      rw [decide_eq_false hnot, Bool.and_false, Bool.and_false, Bool.and_false]
  | cleared =>
      refine ⟨fun kind => ?_⟩
      show (false && _) = (on && false)
      rw [Bool.false_and, Bool.and_false]
  | closed => exact hkeep rfl rfl rfl

/-- The public surface gets what is run. -/
theorem fed_step (hs : StreamWorld.StreamsInv w.wait.stream) (h : apply a w = some w') :
    Fed a.ran?.toList w.wait.stream w'.wait.stream
      ∧ StreamWorld.StreamsInv w'.wait.stream := by
  cases step_cases h with
  | ran d rest hr =>
      obtain ⟨-, hinv, -⟩ := StreamWorld.step_spec (a := .dispatch d) hs rfl
      exact ⟨fed_dispatch d w.wait.stream, hinv⟩
  | api b v hb hv =>
      obtain ⟨hfed, hinv, -⟩ := fed_api hb hs hv
      exact ⟨hfed, hinv⟩
  | destroyed =>
      have hrefl := Streamed.refl w.wait.stream
      exact ⟨⟨⟨hrefl.ice, hrefl.incoming, hrefl.events⟩, rfl⟩,
        ⟨⟨hs.sound.ice, hs.sound.incoming, hs.sound.events⟩, fun hc =>
          ⟨(hs.marked hc).ice, (hs.marked hc).incoming, (hs.marked hc).events⟩⟩⟩
  | _ => exact ⟨Fed.refl _, hs⟩

/-- The way to the loop takes at most one step of its own. -/
theorem posting_step (h : apply a w = some w') :
    w'.posting = w.posting
      ∨ ∃ b, Posting.step convert b w.posting = some w'.posting
        ∧ (a.inTurn = true → b.inTurn = true) := by
  cases step_cases h with
  | found u x hu => exact Or.inr ⟨.find x, rfl, fun _ => rfl⟩
  | called n p hp => exact Or.inr ⟨.call n, hp, id⟩
  | ran d rest hr =>
      refine Or.inr ⟨.run, ?_, fun _ => rfl⟩
      show w.posting.run = some _
      rw [Posting.run, hr]
  | closed => exact Or.inr ⟨.close, rfl, fun _ => rfl⟩
  | _ => exact Or.inl rfl

/-- What a callback posts is what its upcall means. -/
theorem convert_args {u : Upcall} {x : DispatchArgs} {kind : PcKind}
    (hx : u.args? = some x) (hk : u.kind = .pc kind) :
    convert x = StreamWorld.report? u := by
  have hcall := StreamWorld.callback_args hx hk
  simp only [convert, (Upcall.args?_spec hx).1, hk, hcall]
  cases StreamWorld.report? u <;> rfl

/-- While the connection is found, every upcall that means something
finds its callback; afterwards none does. -/
theorem found_convert {on : Bool} (hf : Found on w) (u : Upcall) :
    (w.found u).toList.filterMap convert
      = if on then (StreamWorld.report? u).toList else [] := by
  cases hr : StreamWorld.report? u with
  | none =>
      have hnone : (w.found u).toList.filterMap convert = [] := by
        cases hu : w.found u with
        | none => rfl
        | some x =>
            unfold found at hu
            split at hu
            next a kind ha hk =>
              split at hu
              · cases hu
                simp [convert_args ha hk, hr]
              · cases hu
            next => cases hu
      rw [hnone]
      exact (ite_self _).symm
  | some d =>
      obtain ⟨x, kind, hx, hk⟩ := StreamWorld.args?_of_report? hr
      have hd : convert x = some d := (convert_args hx hk).trans hr
      simp only [found, hx, hk, hf.on kind]
      cases on
      · rfl
      · simp [hd]

/-- The history of the way, by what a step adds to it. -/
theorem history_step {on : Bool} (hf : Found on w) (h : apply a w = some w') :
    w'.posting.ran = w.posting.ran ++ a.ran?.toList
      ∧ w'.posting.found.filterMap convert = w.posting.found.filterMap convert
        ++ (if on then a.report?.toList else [])
      ∧ (w'.posting.closed = true → w.posting.closed = true ∨ a = .closeLoop) := by
  have hnil : ∀ l : List Dispatch, l = l ++ (if on then [] else []) := by
    intro l
    rw [ite_self, List.append_nil]
  cases step_cases h with
  | missed u hu =>
      have hconv := found_convert hf u
      rw [hu] at hconv
      refine ⟨(List.append_nil _).symm, ?_, Or.inl⟩
      exact (List.append_nil _).symm.trans (congrArg (_ ++ ·) hconv)
  | found u x hu =>
      have hconv := found_convert hf u
      rw [hu] at hconv
      refine ⟨(List.append_nil _).symm, ?_, Or.inl⟩
      show (w.posting.found ++ [x]).filterMap convert = _
      rw [List.filterMap_append]
      exact congrArg (_ ++ ·) hconv
  | called n p hp =>
      obtain ⟨x, -, ⟨-, rfl⟩ | ⟨d, -, rfl⟩⟩ := Posting.call_cases hp
      · exact ⟨(List.append_nil _).symm, hnil _, Or.inl⟩
      · obtain ⟨hfound, -, hran, hclosed⟩ := Posting.post_spec d
          ({ w.posting with inFlight := w.posting.inFlight.eraseIdx n } : Posting _ _)
        refine ⟨hran.trans (List.append_nil _).symm, ?_, fun hc => ?_⟩
        · rw [hfound]
          exact hnil _
        · exact Or.inl (hclosed.symm.trans hc)
  | ran d rest hr => exact ⟨rfl, hnil _, Or.inl⟩
  | api b v hb hv => exact ⟨(List.append_nil _).symm, hnil _, Or.inl⟩
  | destroyed => exact ⟨(List.append_nil _).symm, hnil _, Or.inl⟩
  | cleared => exact ⟨(List.append_nil _).symm, hnil _, Or.inl⟩
  | closed => exact ⟨(List.append_nil _).symm, hnil _, fun _ => Or.inr rfl⟩

-- =================================================================== runs

/-- A report is heard until something silences the wrapper. -/
theorem heard_snoc (acts : List Action) (a : Action) :
    heard (acts ++ [a]) = heard acts
      ++ (if acts.all fun a => !a.silences then a.report?.toList else []) := by
  unfold heard
  rw [List.takeWhile_append]
  have hlen : (acts.takeWhile fun a => !a.silences).length = acts.length
      ↔ (acts.all fun a => !a.silences) = true := by
    rw [List.all_eq_true]
    constructor
    · intro h b hb
      have hall : acts.takeWhile (fun a => !a.silences) = acts :=
        (List.takeWhile_prefix _).eq_of_length h
      exact List.mem_takeWhile_imp (p := fun a : Action => !a.silences) (hall ▸ hb)
    · intro h
      rw [List.takeWhile_eq_self_iff.mpr h]
  by_cases hall : (acts.all fun a => !a.silences) = true
  · rw [if_pos (hlen.mpr hall), if_pos hall, List.filterMap_append,
      List.takeWhile_eq_self_iff.mpr (List.all_eq_true.mp hall)]
    cases a <;> rfl
  · rw [if_neg fun h => hall (hlen.mp h), if_neg hall, List.append_nil]

/-- What is true along a run from the construction. -/
structure Along (handle : Int) (core : Core) (acts : List Action) (w : ReportWorld) :
    Prop where
  found : Found (acts.all fun a => !a.silences) w
  inv : StreamWorld.StreamsInv w.wait.stream
  fed : Fed (acts.filterMap Action.ran?) (init handle core).wait.stream w.wait.stream
  kept : Posting.Kept convert w.posting
  order : (∀ a ∈ acts, a.inTurn = true) → Posting.Ordered convert w.posting
  ran : w.posting.ran = acts.filterMap Action.ran?
  heard : w.posting.found.filterMap convert = heard acts
  opened : .closeLoop ∉ acts → w.posting.closed = false

/-- Nothing has been reported. -/
theorem along_init (handle : Int) (core : Core) :
    Along handle core [] (init handle core) where
  found := found_init handle core
  inv := StreamWorld.streamsInv_init handle core
  fed := Fed.refl _
  kept := Posting.kept_new
  order := fun _ => Posting.ordered_new
  ran := rfl
  heard := rfl
  opened := fun _ => rfl

/-- A step accounts for the report it brings. -/
theorem along_step {handle : Int} {core : Core} {acts : List Action}
    (hw : Along handle core acts w) (h : apply a w = some w') :
    Along handle core (acts ++ [a]) w' := by
  obtain ⟨hfed, hinv⟩ := fed_step hw.inv h
  obtain ⟨hran, hheard, hclosed⟩ := history_step hw.found h
  have hone : [a].filterMap Action.ran? = a.ran?.toList := by
    cases ha : a.ran? <;> simp [ha]
  refine ⟨?_, hinv, ?_, ?_, fun hturn => ?_, ?_, ?_, fun hopen => ?_⟩
  · rw [List.all_append, List.all_cons, List.all_nil, Bool.and_true]
    exact found_step hw.found hw.inv h
  · rw [List.filterMap_append, hone]
    exact hw.fed.trans hfed
  · rcases posting_step h with heq | ⟨b, hb, -⟩
    · rw [heq]
      exact hw.kept
    · exact Posting.kept_step hw.kept hb
  · have hbefore := hw.order fun b hb => hturn b (List.mem_append_left _ hb)
    rcases posting_step h with heq | ⟨b, hb, hin⟩
    · rw [heq]
      exact hbefore
    · have ha := hturn a (List.mem_append_right _ (List.mem_singleton_self a))
      exact Posting.ordered_step hbefore (hin ha) hb
  · rw [hran, hw.ran, List.filterMap_append, hone]
  · rw [hheard, hw.heard, heard_snoc]
  · have hbefore := hw.opened fun hmem => hopen (List.mem_append_left _ hmem)
    refine Bool.eq_false_iff.mpr fun hc => ?_
    rcases hclosed hc with hc | rfl
    · exact absurd (hbefore.symm.trans hc) Bool.noConfusion
    · exact hopen (List.mem_append_right _ (List.mem_singleton_self _))

/-- A run accounts for all its reports. -/
theorem along_exec {handle : Int} {core : Core} {acts : List Action}
    (h : exec apply (init handle core) acts = some w) : Along handle core acts w :=
  Transition.exec_invariant (P := Along handle core) (along_init handle core)
    (fun _ hm ha => along_step hm ha) h

/-- The reports of a run, and where they are. -/
structure ReportsExact (acts : List Action) (w : ReportWorld) : Prop where
  /-- Each is in one place: run, scheduled, in a thread, or dropped by a
  loop that was closed. -/
  kept : (heard acts).Perm
    (w.posting.ran ++ w.posting.ready ++ w.posting.inFlight.filterMap convert
      ++ w.posting.dropped)
  /-- The three streams have been given what was run, in order, and
  nothing else. -/
  candidates : w.wait.stream.iceCandidates.taken ++ w.wait.stream.iceCandidates.queued
    = w.posting.ran.filterMap Dispatch.candidate?
  channels : w.wait.stream.incomingDc.taken ++ w.wait.stream.incomingDc.queued
    = w.posting.ran.filterMap Dispatch.channel?
  events : w.wait.stream.eventsQueue.taken ++ w.wait.stream.eventsQueue.queued
    = w.posting.ran.map Dispatch.event
  /-- The properties show the last one of each kind. -/
  shown : shown w.wait.stream = w.posting.ran.foldl Shown.after .initial
  /-- As long as no callback overtakes another, they are run in the order
  they were made, and on a loop that is open none is skipped. -/
  order : (∀ a ∈ acts, a.inTurn = true) →
    (w.posting.ran ++ w.posting.ready ++ w.posting.inFlight.filterMap convert).Sublist
        (heard acts)
      ∧ (.closeLoop ∉ acts →
        w.posting.ran ++ w.posting.ready ++ w.posting.inFlight.filterMap convert
          = heard acts)

/-- In every state of every run the reports of libdatachannel are all
accounted for, and the public surface is exactly what was run of them. -/
theorem reports_exact {handle : Int} {core : Core} {acts : List Action}
    (h : exec apply (init handle core) acts = some w) : ReportsExact acts w := by
  have hw := along_exec h
  have hinit := StreamWorld.streamsInv_init handle core
  refine ⟨?_, ?_, ?_, ?_, ?_, fun hturn => ?_⟩
  · rw [← hw.heard]
    exact hw.kept
  · rw [hw.ran]
    exact hw.fed.streamed.ice.conserves hinit.sound.ice
  · rw [hw.ran]
    exact hw.fed.streamed.incoming.conserves hinit.sound.incoming
  · rw [hw.ran]
    exact hw.fed.streamed.events.conserves hinit.sound.events
  · rw [hw.ran]
    exact hw.fed.shown
  · have horder := hw.order hturn
    rw [← hw.heard]
    exact ⟨horder.sublist, fun hopen => horder.all (hw.opened hopen)⟩

/-- Two threads, a channel and a state overtaking each other, a number
that is no state, a destroy, a report after it, and the loop closed with
a report still on its way. -/
def crossedRun : List Action :=
  [.upcall (.dataChannel 1 7), .upcall (.stateChange 1 2),
    .call 1, .run (.stateChange .connected), .upcall (.stateChange 1 9), .call 1,
    .upcall (.stateChange 1 5), .beginDestroy, .upcall (.stateChange 1 4), .call 0,
    .run (.incomingDc 7), .closeLoop, .call 0]

theorem reports_exact_crossedRun :
    ∃ w, exec apply (init 1 ⟨[], [], [], []⟩) crossedRun = some w
      ∧ w.posting.ran = [.stateChange .connected, .incomingDc 7]
      ∧ w.posting.dropped = [.stateChange .closed]
      ∧ ReportsExact crossedRun w :=
  ⟨_, rfl, rfl, rfl, @reports_exact _ 1 ⟨[], [], [], []⟩ crossedRun rfl⟩

-- =================================================================== waits

/-- What an action does to the latches of `wait_for_state`. -/
def Action.latch? : Action → Option (Latches.Action RTCState TaskId)
  | run d => WaitWorld.Action.latch? (.stream (.dispatch d))
  | api b => if dispatches b then none else b.latch?
  | _ => none

/-- Seen from the latches, a step is one of theirs. -/
theorem latches_step (h : apply a w = some w') :
    exec Latches.step w.wait.latches a.latch?.toList = some w'.wait.latches := by
  cases step_cases h with
  | ran d rest hr =>
      exact WaitWorld.latches_step (a := .stream (.dispatch d)) (w := w.wait) rfl
  | api b v hb hv =>
      simp only [Action.latch?, hb]
      exact WaitWorld.latches_step hv
  | _ => rfl

/-- A run of the connection is one of the latches. -/
theorem latches_exec {acts : List Action} (h : exec apply w acts = some w') :
    exec Latches.step w.wait.latches (acts.filterMap Action.latch?)
      = some w'.wait.latches :=
  Transition.exec_filterMap (f := fun w : ReportWorld => w.wait.latches)
    (g := Action.latch?) latches_step h

/-- A flag is raised by a dispatcher that is run. -/
theorem latch?_eq_raise {state : RTCState} (h : a.latch? = some (.raise state)) :
    a.ran? = some (.stateChange state) := by
  cases a with
  | run d =>
      cases d with
      | stateChange s =>
          cases h
          rfl
      | _ => cases h
  | api b =>
      simp only [Action.latch?] at h
      cases b with
      | stream c =>
          cases c with
          | dispatch d => cases h
          | close owned => cases h
          | consume s c => cases h
      | _ => cases h
  | _ => cases h

-- ============================================================ after the end

/-- Nothing is found any more, and nothing is on the way. -/
structure Quiet (w : ReportWorld) : Prop where
  found : Found false w
  inFlight : w.posting.inFlight = []
  ready : w.posting.ready = []

/-- In a quiet world no report runs any more, and it stays quiet. -/
theorem quiet_step (hq : Quiet w) (hs : StreamWorld.StreamsInv w.wait.stream)
    (h : apply a w = some w') : Quiet w' ∧ a.ran? = none := by
  have hf := found_step hq.found hs h
  cases step_cases h with
  | missed u hu => exact ⟨⟨hf, hq.inFlight, hq.ready⟩, rfl⟩
  | found u x hu =>
      unfold ReportWorld.found at hu
      split at hu
      next a kind ha hk =>
        rw [hq.found.on kind] at hu
        cases hu
      next => cases hu
  | called n p hp =>
      obtain ⟨x, hx, -⟩ := Posting.call_cases hp
      rw [hq.inFlight] at hx
      cases hx
  | ran d rest hr =>
      rw [hq.ready] at hr
      cases hr
  | api b v hb hv => exact ⟨⟨hf, hq.inFlight, hq.ready⟩, rfl⟩
  | destroyed => exact ⟨⟨hf, hq.inFlight, hq.ready⟩, rfl⟩
  | cleared => exact ⟨⟨hf, hq.inFlight, hq.ready⟩, rfl⟩
  | closed => exact ⟨⟨hf, hq.inFlight, rfl⟩, rfl⟩

/-- From a quiet state on, nothing is run. -/
theorem quiet_exec {more : List Action} (hq : Quiet w)
    (hs : StreamWorld.StreamsInv w.wait.stream) (h : exec apply w more = some w') :
    Quiet w' ∧ StreamWorld.StreamsInv w'.wait.stream
      ∧ Fed [] w.wait.stream w'.wait.stream ∧ ∀ a ∈ more, a.ran? = none := by
  induction more generalizing w with
  | nil =>
      cases h
      exact ⟨hq, hs, Fed.refl _, List.forall_mem_nil _⟩
  | cons a rest ih =>
      obtain ⟨m, ha, hrest⟩ := Transition.exec_cons_cases h
      obtain ⟨hqm, hnone⟩ := quiet_step hq hs ha
      obtain ⟨hfed, hsm⟩ := fed_step hs ha
      rw [hnone] at hfed
      obtain ⟨hq', hs', hfed', hall⟩ := ih hqm hsm hrest
      exact ⟨hq', hs', hfed.trans hfed', List.forall_mem_cons.mpr ⟨hnone, hall⟩⟩

/-- What nothing changes any more: what the streams were given, the four
properties, and who waits for a state. -/
structure Final (w w' : ReportWorld) : Prop where
  candidates : w'.wait.stream.iceCandidates.taken ++ w'.wait.stream.iceCandidates.queued
    = w.wait.stream.iceCandidates.taken ++ w.wait.stream.iceCandidates.queued
  channels : w'.wait.stream.incomingDc.taken ++ w'.wait.stream.incomingDc.queued
    = w.wait.stream.incomingDc.taken ++ w.wait.stream.incomingDc.queued
  events : w'.wait.stream.eventsQueue.taken ++ w'.wait.stream.eventsQueue.queued
    = w.wait.stream.eventsQueue.taken ++ w.wait.stream.eventsQueue.queued
  shown : shown w'.wait.stream = shown w.wait.stream

/-- Once the connection is found no more and the last callbacks are
through, its public surface is final; and a `wait_for_state` for a state
that was not reported by then, `CLOSED` included, waits until it is
cancelled. -/
theorem reports_final {handle : Int} {core : Core} {acts : List Action}
    (h : exec apply (init handle core) acts = some w)
    (hsilent : ∃ a ∈ acts, a.silences = true) (hfly : w.posting.inFlight = [])
    (hready : w.posting.ready = []) {more : List Action}
    (hmore : exec apply w more = some w') :
    Final w w' ∧ ∀ t state, w.wait.waiting t = some state → w.wait.owed t = false →
      state ≠ .new → .stateChange state ∉ w.posting.ran → .api (.cancel t) ∉ more →
        w'.wait.waiting t = some state ∧ apply (.api (.resume t)) w' = none := by
  have hw := along_exec h
  have hoff : (acts.all fun a => !a.silences) = false := by
    obtain ⟨a, ha, hs⟩ := hsilent
    exact List.all_eq_false.mpr ⟨a, ha, by rw [hs]; exact Bool.false_ne_true⟩
  have hquiet : Quiet w := ⟨hoff ▸ hw.found, hfly, hready⟩
  obtain ⟨-, -, hfed, hnone⟩ := quiet_exec hquiet hw.inv hmore
  refine ⟨⟨?_, ?_, ?_, hfed.shown⟩, fun t state ht ho hnew hran hcancel => ?_⟩
  · exact (hfed.streamed.ice.conserves hw.inv.sound.ice).trans (List.append_nil _)
  · exact (hfed.streamed.incoming.conserves hw.inv.sound.incoming).trans (List.append_nil _)
  · exact (hfed.streamed.events.conserves hw.inv.sound.events).trans (List.append_nil _)
  · have hlatches := latches_exec h
    have hsound : w.wait.latches.Sound :=
      Latches.sound_exec (WaitWorld.sound_init handle core) hlatches
    have hdown : (w.wait.latches.event state).value = false := by
      refine Bool.eq_false_iff.mpr fun hup => ?_
      rcases (Latches.raised_exec hlatches state).mp hup with hup | hmem
      · have hinit : (if state = .new then Asyncio.Event.new.set else Asyncio.Event.new :
            Asyncio.Event TaskId).value = true := hup
        rw [if_neg hnew] at hinit
        cases hinit
      · obtain ⟨a, ha, hraise⟩ := List.mem_filterMap.mp hmem
        rw [hw.ran] at hran
        exact hran (List.mem_filterMap.mpr ⟨a, ha, latch?_eq_raise hraise⟩)
    have hends : ∀ b ∈ more.filterMap Action.latch?, b.ends t state = false := by
      intro b hb
      obtain ⟨a, ha, hab⟩ := List.mem_filterMap.mp hb
      cases b with
      | raise s => cases (latch?_eq_raise hab).symm.trans (hnone a ha)
      | cancel u =>
          refine decide_eq_false fun hu => hcancel ?_
          obtain rfl : a = .api (.cancel u) := by
            cases a with
            | run d => cases d <;> cases hab
            | api c =>
                simp only [Action.latch?] at hab
                cases c with
                | stream e =>
                    cases e with
                    | dispatch d => cases hab
                    | close owned => cases hab
                    | consume s c => cases hab
                | cancel v =>
                    cases hab
                    rfl
                | _ => cases hab
            | _ => cases hab
          exact hu ▸ ha
      | _ => rfl
    obtain ⟨hwait, hstuck⟩ :=
      Latches.parked_exec hsound ht ho hdown hends (latches_exec hmore)
    refine ⟨hwait, ?_⟩
    have hresume : WaitWorld.apply (.resume t) w'.wait = none :=
      congrArg (Option.map w'.wait.withLatches) hstuck
    simp only [apply, hresume]
    exact ite_self _

/-- A connection that closes itself while a task waits for `CLOSED`: the
native layer closes it, too late for anybody to be told. -/
def locallyClosedRun : List Action :=
  [.upcall (.stateChange 1 2), .call 0, .run (.stateChange .connected),
    .api (.waitForState (.user 0) .closed), .api (.stream (.close [])), .beginDestroy]

theorem reports_final_locallyClosedRun :
    ∃ w w', exec apply (init 1 ⟨[], [], [], []⟩) locallyClosedRun = some w
      ∧ exec apply w [.upcall (.stateChange 1 5), .api (.stream (.close []))] = some w'
      ∧ shown w'.wait.stream = { Shown.initial with state := .connected }
      ∧ Final w w' ∧ apply (.api (.resume (.user 0))) w' = none := by
  obtain ⟨hfinal, hwaits⟩ := @reports_final _ _ 1 ⟨[], [], [], []⟩ locallyClosedRun rfl
    ⟨.beginDestroy, by decide, rfl⟩ rfl rfl
    [.upcall (.stateChange 1 5), .api (.stream (.close []))] rfl
  exact ⟨_, _, rfl, rfl, rfl, hfinal,
    (hwaits (.user 0) .closed rfl rfl (by decide) (by decide) (by decide)).2⟩

end ReportWorld

end AioLibDataChannel
