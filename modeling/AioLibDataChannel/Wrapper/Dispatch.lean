/-
`_core` as a machine: the two registries, the dispatcher the native
trampolines call into, and the sweep at exit.

# What a step is

An operation runs up to where it lets go of the GIL: a construction, a
`set_on_*`, `init_logger`, a `destroy` up to its native delete, or a
`_dispatch`. `_dispatch` only looks things up and calls at most one
callable, so a callback appears here as an entry of the history `ran`;
what the callable does comes as operations of its own.

The sweep lets go of the GIL in each native delete and in
`_native.cleanup`, so late callbacks, registrations and other teardowns
run in between: the action carries them (`late`). No wrapper is
constructed meanwhile.

# The handles

The native layer hands each handle out once, to a connection or to a
channel.
-/
import AioLibDataChannel.Transition.Run
import AioLibDataChannel.Wrapper.Registry

namespace AioLibDataChannel

open Transition (exec)

/-- `CallbackKind`. -/
inductive CallbackKind
  | pc (kind : PcKind)
  | dc (kind : DcKind)
  | log
deriving DecidableEq, Repr

/-- The numbers `bindings.cpp` gives them. -/
def CallbackKind.code : CallbackKind → Int
  | pc .localDescription => 0
  | pc .localCandidate => 1
  | pc .stateChange => 2
  | pc .iceStateChange => 3
  | pc .gatheringStateChange => 4
  | pc .signalingStateChange => 5
  | pc .dataChannel => 6
  | dc .open => 7
  | dc .closed => 8
  | dc .error => 9
  | dc .message => 10
  | dc .bufferedAmountLow => 11
  | log => 12

/-- In the order `_dispatch` compares them. -/
def CallbackKind.all : List CallbackKind :=
  [.pc .localDescription, .pc .localCandidate, .pc .stateChange, .pc .iceStateChange,
    .pc .gatheringStateChange, .pc .signalingStateChange, .pc .dataChannel, .dc .open,
    .dc .closed, .dc .error, .dc .message, .dc .bufferedAmountLow, .log]

/-- The branch of `_dispatch` that a number selects. -/
def CallbackKind.ofCode? (code : Int) : Option CallbackKind :=
  all.find? fun kind => decide (kind.code = code)

/-- The exceptions `_dispatch` itself can raise: the payload of a
message is no pair, that of a log line is empty. -/
inductive DispatchError
  | valueError
  | indexError
deriving DecidableEq, Repr

/-- A callable that `_dispatch` called, with its arguments. -/
inductive Fired (β V : Type)
  | wrapper (callback : β) (args : List V)
  | log (callback : β) (level : Int) (message : V)

/-- The module state of `_core`, and the callables called so far, oldest
first. -/
structure CoreWorld (β V : Type) where
  pcs : Registry PcKind β
  dcs : Registry DcKind β
  logCallback : Option β
  dispatcher : Bool
  ran : List (Fired β V)

namespace CoreWorld

variable {β V : Type}

/-- The module right after its import. -/
def init : CoreWorld β V where
  pcs := .empty
  dcs := .empty
  logCallback := none
  dispatcher := true
  ran := []

-- ============================================================= _dispatch

/-- What the branch of a channel callback passes on. -/
def channelArgs (kind : DcKind) (payload : List V) : Except DispatchError (List V) :=
  match kind with
  | .open => .ok []
  | .closed => .ok []
  | .error => .ok payload
  | .message =>
      match payload with
      | [data, _] => .ok [data]
      | _ => .error .valueError
  | .bufferedAmountLow => .ok []

/-- `_dispatch`: the callable it calls, if any. -/
def dispatch (code handle : Int) (payload : List V) (w : CoreWorld β V) :
    Except DispatchError (Option (Fired β V)) :=
  match CallbackKind.ofCode? code with
  | none => .ok none
  | some (.pc kind) =>
      match w.pcs.lookup handle with
      | none => .ok none
      | some pc => .ok ((pc.callbacks kind).map fun cb => .wrapper cb payload)
  | some (.dc kind) =>
      match w.dcs.lookup handle with
      | none => .ok none
      | some dc =>
          match channelArgs kind payload with
          | .error e => .error e
          | .ok args => .ok ((dc.callbacks kind).map fun cb => .wrapper cb args)
  | some .log =>
      match w.logCallback with
      | none => .ok none
      | some cb =>
          match payload with
          | [] => .error .indexError
          | message :: _ => .ok (some (.log cb handle message))

/-- The callable a `_dispatch` calls goes into the history. -/
def fire (code handle : Int) (payload : List V) (w : CoreWorld β V) : CoreWorld β V :=
  match w.dispatch code handle payload with
  | .ok (some f) => { w with ran := w.ran ++ [f] }
  | _ => w

/-- `safe_call_dispatcher`, from a trampoline. -/
def trampoline (code handle : Int) (payload : List V) (w : CoreWorld β V) :
    CoreWorld β V :=
  if w.dispatcher then w.fire code handle payload else w

-- ============================================================ operations

/-- `_core.PeerConnection(...)`. -/
def createPc (handle : Int) (w : CoreWorld β V) : CoreWorld β V :=
  { w with pcs := w.pcs.create handle }

/-- `_core.DataChannel(handle)`. -/
def createDc (handle : Int) (w : CoreWorld β V) : CoreWorld β V :=
  { w with dcs := w.dcs.create handle }

/-- `_core.PeerConnection.destroy`. -/
def destroyPc (n : Nat) (w : CoreWorld β V) : CoreWorld β V :=
  { w with pcs := w.pcs.destroy n }

/-- `_core.DataChannel.destroy`. -/
def destroyDc (n : Nat) (w : CoreWorld β V) : CoreWorld β V :=
  { w with dcs := w.dcs.destroy n }

/-- The operations that construct nothing. -/
inductive Op (β V : Type)
  | setOnPc (n : Nat) (kind : PcKind) (callback : β)
  | setOnDc (n : Nat) (kind : DcKind) (callback : β)
  | destroyPc (n : Nat)
  | destroyDc (n : Nat)
  | initLogger (callback : Option β)
  | dispatch (code handle : Int) (payload : List V)
  | trampoline (code handle : Int) (payload : List V)

def run : Op β V → CoreWorld β V → CoreWorld β V
  | .setOnPc n kind callback, w => { w with pcs := w.pcs.setOn n kind callback }
  | .setOnDc n kind callback, w => { w with dcs := w.dcs.setOn n kind callback }
  | .destroyPc n, w => w.destroyPc n
  | .destroyDc n, w => w.destroyDc n
  | .initLogger callback, w => { w with logCallback := callback }
  | .dispatch code handle payload, w => w.fire code handle payload
  | .trampoline code handle payload, w => w.trampoline code handle payload

def runAll (ops : List (Op β V)) (w : CoreWorld β V) : CoreWorld β V :=
  ops.foldl (fun w op => w.run op) w

-- ============================================================== the sweep

/-- One loop of `_atexit_destroy_all` over a snapshot of handles: look
the wrapper up and destroy it. `late` is what runs after each. -/
def sweep (lookup : CoreWorld β V → Int → Option Nat)
    (destroy : Nat → CoreWorld β V → CoreWorld β V) :
    List Int → List (List (Op β V)) → CoreWorld β V →
      CoreWorld β V × List (List (Op β V))
  | [], late, w => (w, late)
  | handle :: rest, late, w =>
      let w' := match lookup w handle with
        | some n => destroy n w
        | none => w
      sweep lookup destroy rest late.tail (w'.runAll (late.headD []))

/-- `_atexit_destroy_all`. The last of `late` runs during
`_native.cleanup`. -/
def atexitDestroyAll (late : List (List (Op β V))) (w : CoreWorld β V) :
    CoreWorld β V :=
  let (w₁, late₁) := sweep (fun w h => dictGet h w.dcs.live) destroyDc w.dcs.keys late w
  let (w₂, late₂) :=
    sweep (fun w h => dictGet h w.pcs.live) destroyPc w₁.pcs.keys late₁ w₁
  { w₂.runAll (late₂.headD []) with dispatcher := false }

-- =============================================================== actions

inductive Action (β V : Type)
  | createPc (handle : Int)
  | createDc (handle : Int)
  | op (o : Op β V)
  | atexit (late : List (List (Op β V)))

/-- The native layer has not handed the handle out yet. -/
def fresh (handle : Int) (w : CoreWorld β V) : Bool :=
  decide (handle ∉ w.pcs.handles ∧ handle ∉ w.dcs.handles)

/-- The transition. -/
def apply : Action β V → CoreWorld β V → Option (CoreWorld β V)
  | .createPc handle, w => if w.fresh handle then some (w.createPc handle) else none
  | .createDc handle, w => if w.fresh handle then some (w.createDc handle) else none
  | .op o, w => some (w.run o)
  | .atexit late, w => some (w.atexitDestroyAll late)

-- ================================================================= kinds

/-- A kind comes back from its code. -/
theorem ofCode?_code (kind : CallbackKind) :
    CallbackKind.ofCode? kind.code = some kind := by
  cases kind with
  | pc kind => cases kind <;> rfl
  | dc kind => cases kind <;> rfl
  | log => rfl

/-- A code decodes to the kind that has it. -/
theorem code_of_ofCode? {code : Int} {kind : CallbackKind}
    (h : CallbackKind.ofCode? code = some kind) : kind.code = code :=
  of_decide_eq_true
    (List.find?_some (p := fun k : CallbackKind => decide (k.code = code)) h)

-- =============================================================== account

/-- Both registries are exact, and no handle is in both. -/
structure Sound (w : CoreWorld β V) : Prop where
  pcs : w.pcs.Exact
  dcs : w.dcs.Exact
  apart : ∀ h ∈ w.pcs.handles, h ∉ w.dcs.handles

/-- What operations that construct nothing do to the registries: the
wrappers are those there were, and none comes back. -/
structure Wanes (w w' : CoreWorld β V) : Prop where
  pcHandles : w'.pcs.handles = w.pcs.handles
  dcHandles : w'.dcs.handles = w.dcs.handles
  pcLive : ∀ e ∈ w'.pcs.live, e ∈ w.pcs.live
  dcLive : ∀ e ∈ w'.dcs.live, e ∈ w.dcs.live

variable {w w' w'' : CoreWorld β V}

/-- A world that stays wanes. -/
theorem Wanes.refl (w : CoreWorld β V) : Wanes w w := ⟨rfl, rfl, fun _ h => h, fun _ h => h⟩

/-- A world that wanes twice wanes. -/
theorem Wanes.trans (h : Wanes w w') (h' : Wanes w' w'') : Wanes w w'' where
  pcHandles := h'.pcHandles.trans h.pcHandles
  dcHandles := h'.dcHandles.trans h.dcHandles
  pcLive := fun e he => h.pcLive e (h'.pcLive e he)
  dcLive := fun e he => h.dcLive e (h'.dcLive e he)

/-- What wanes with exact registries stays sound. -/
theorem Sound.wanes (h : Sound w) (hw : Wanes w w') (hp : w'.pcs.Exact)
    (hd : w'.dcs.Exact) : Sound w' where
  pcs := hp
  dcs := hd
  apart := by
    rw [hw.pcHandles, hw.dcHandles]
    exact h.apart

/-- A callback leaves both registries alone. -/
theorem fire_spec (code handle : Int) (payload : List V) (w : CoreWorld β V) :
    (w.fire code handle payload).pcs = w.pcs
      ∧ (w.fire code handle payload).dcs = w.dcs
      ∧ (w.fire code handle payload).logCallback = w.logCallback
      ∧ (w.fire code handle payload).dispatcher = w.dispatcher := by
  unfold fire
  split <;> exact ⟨rfl, rfl, rfl, rfl⟩

/-- Nothing but what a wrapper stores changes. -/
theorem sound_same (h : Sound w) (hp : w'.pcs = w.pcs) (hd : w'.dcs = w.dcs) :
    Sound w' ∧ Wanes w w' := by
  refine ⟨⟨?_, ?_, ?_⟩, ⟨?_, ?_, ?_, ?_⟩⟩
  · rw [hp]; exact h.pcs
  · rw [hd]; exact h.dcs
  · rw [hp, hd]; exact h.apart
  · rw [hp]
  · rw [hd]
  · rw [hp]; exact fun _ he => he
  · rw [hd]; exact fun _ he => he

/-- One class changes, keeping its wrappers and bringing none back. -/
theorem sound_pcs {r : Registry PcKind β} (h : Sound w) (hr : r.Exact)
    (hh : r.handles = w.pcs.handles) (hl : ∀ e ∈ r.live, e ∈ w.pcs.live) :
    Sound { w with pcs := r } ∧ Wanes w { w with pcs := r } := by
  have hw : Wanes w { w with pcs := r } := ⟨hh, rfl, hl, fun _ he => he⟩
  exact ⟨h.wanes hw hr h.dcs, hw⟩

/-- An exact registry with no new live entry keeps the world sound. -/
theorem sound_dcs {r : Registry DcKind β} (h : Sound w) (hr : r.Exact)
    (hh : r.handles = w.dcs.handles) (hl : ∀ e ∈ r.live, e ∈ w.dcs.live) :
    Sound { w with dcs := r } ∧ Wanes w { w with dcs := r } := by
  have hw : Wanes w { w with dcs := r } := ⟨rfl, hh, fun _ he => he, hl⟩
  exact ⟨h.wanes hw h.pcs hr, hw⟩

/-- A destroyed connection leaves a sound world that wanes. -/
theorem sound_destroyPc (h : Sound w) (n : Nat) :
    Sound (w.destroyPc n) ∧ Wanes w (w.destroyPc n) :=
  sound_pcs h (Registry.exact_destroy h.pcs n) (Registry.handles_destroy n _)
    (Registry.live_destroy n _)

/-- A destroyed channel leaves a sound world that wanes. -/
theorem sound_destroyDc (h : Sound w) (n : Nat) :
    Sound (w.destroyDc n) ∧ Wanes w (w.destroyDc n) :=
  sound_dcs h (Registry.exact_destroy h.dcs n) (Registry.handles_destroy n _)
    (Registry.live_destroy n _)

/-- Every operation that constructs nothing. -/
theorem sound_run (h : Sound w) (o : Op β V) : Sound (w.run o) ∧ Wanes w (w.run o) := by
  have hfire : ∀ code handle payload, Sound (w.fire code handle payload)
      ∧ Wanes w (w.fire code handle payload) := by
    intro code handle payload
    obtain ⟨hp, hd, -⟩ := fire_spec code handle payload w
    exact sound_same h hp hd
  cases o with
  | setOnPc n kind callback =>
      have hl : ∀ e ∈ (w.pcs.setOn n kind callback).live, e ∈ w.pcs.live := by
        rw [(Registry.setOn_spec n kind callback w.pcs).2.1]
        exact fun _ he => he
      exact sound_pcs h (Registry.exact_setOn h.pcs n kind callback)
        (Registry.handles_setOn n kind callback w.pcs) hl
  | setOnDc n kind callback =>
      have hl : ∀ e ∈ (w.dcs.setOn n kind callback).live, e ∈ w.dcs.live := by
        rw [(Registry.setOn_spec n kind callback w.dcs).2.1]
        exact fun _ he => he
      exact sound_dcs h (Registry.exact_setOn h.dcs n kind callback)
        (Registry.handles_setOn n kind callback w.dcs) hl
  | destroyPc n => exact sound_destroyPc h n
  | destroyDc n => exact sound_destroyDc h n
  | initLogger callback => exact sound_same h rfl rfl
  | dispatch code handle payload => exact hfire code handle payload
  | trampoline code handle payload =>
      show Sound (w.trampoline code handle payload)
        ∧ Wanes w (w.trampoline code handle payload)
      unfold trampoline
      split
      · exact hfire code handle payload
      · exact ⟨h, Wanes.refl w⟩

/-- Operations that callbacks run keep the world sound. -/
theorem sound_runAll (h : Sound w) (ops : List (Op β V)) :
    Sound (w.runAll ops) ∧ Wanes w (w.runAll ops) := by
  induction ops generalizing w with
  | nil => exact ⟨h, Wanes.refl w⟩
  | cons o ops ih =>
      obtain ⟨hs, hw⟩ := sound_run h o
      obtain ⟨hs', hw'⟩ := ih hs
      exact ⟨hs', hw.trans hw'⟩

-- ============================================================== the sweep

/-- A loop of the sweep keeps the account, and when it is through, none
of the handles it went over is a key any more. By induction on the
snapshot: no later operation brings a key back. -/
theorem sweep_spec {lookup : CoreWorld β V → Int → Option Nat}
    {destroy : Nat → CoreWorld β V → CoreWorld β V}
    {keys : CoreWorld β V → List Int}
    (hkeys : ∀ {w w' : CoreWorld β V}, Wanes w w' → ∀ k ∈ keys w', k ∈ keys w)
    (hstep : ∀ {w : CoreWorld β V} (h : Int), Sound w →
      let w' := match lookup w h with
        | some n => destroy n w
        | none => w
      Sound w' ∧ Wanes w w' ∧ h ∉ keys w')
    (h : Sound w) (handles : List Int) (late : List (List (Op β V))) :
    Sound (sweep lookup destroy handles late w).1
      ∧ Wanes w (sweep lookup destroy handles late w).1
      ∧ ∀ k ∈ handles, k ∉ keys (sweep lookup destroy handles late w).1 := by
  induction handles generalizing w late with
  | nil => exact ⟨h, Wanes.refl w, List.forall_mem_nil _⟩
  | cons k rest ih =>
      obtain ⟨hs, hw, hk⟩ := hstep k h
      obtain ⟨hs', hw'⟩ := sound_runAll hs (late.headD [])
      obtain ⟨hs'', hw'', hrest⟩ := ih hs' late.tail
      refine ⟨hs'', (hw.trans hw').trans hw'', ?_⟩
      intro j hj
      rcases List.mem_cons.mp hj with rfl | hj
      · exact fun hmem => hk (hkeys hw' _ (hkeys hw'' _ hmem))
      · exact hrest j hj

/-- One turn of a loop: a key is looked up, and its wrapper destroyed. -/
theorem sweepDcs_step (k : Int) (h : Sound w) :
    let w' := match dictGet k w.dcs.live with
      | some n => w.destroyDc n
      | none => w
    Sound w' ∧ Wanes w w' ∧ k ∉ w'.dcs.keys := by
  cases hget : dictGet k w.dcs.live with
  | some n =>
      obtain ⟨hs, hw⟩ := sound_destroyDc h n
      obtain ⟨o, ho, rfl, -⟩ :=
        (h.dcs.live k n).mp ((Registry.dictGet_eq_some h.dcs.keys).mp hget)
      exact ⟨hs, hw, Registry.not_mem_keys_destroy h.dcs ho⟩
  | none => exact ⟨h, Wanes.refl w, Registry.not_mem_keys_of_get hget⟩

/-- The sweep destroys what is registered under the handle, if anything
is. -/
theorem sweepPcs_step (k : Int) (h : Sound w) :
    let w' := match dictGet k w.pcs.live with
      | some n => w.destroyPc n
      | none => w
    Sound w' ∧ Wanes w w' ∧ k ∉ w'.pcs.keys := by
  cases hget : dictGet k w.pcs.live with
  | some n =>
      obtain ⟨hs, hw⟩ := sound_destroyPc h n
      obtain ⟨o, ho, rfl, -⟩ :=
        (h.pcs.live k n).mp ((Registry.dictGet_eq_some h.pcs.keys).mp hget)
      exact ⟨hs, hw, Registry.not_mem_keys_destroy h.pcs ho⟩
  | none => exact ⟨h, Wanes.refl w, Registry.not_mem_keys_of_get hget⟩

/-- No connection is registered anew. -/
theorem Wanes.pcKeys (h : Wanes w w') : ∀ k ∈ w'.pcs.keys, k ∈ w.pcs.keys :=
  fun _ hk => List.map_subset Prod.fst h.pcLive hk

/-- No channel is registered anew. -/
theorem Wanes.dcKeys (h : Wanes w w') : ∀ k ∈ w'.dcs.keys, k ∈ w.dcs.keys :=
  fun _ hk => List.map_subset Prod.fst h.dcLive hk

/-- What the sweep leaves: the same wrappers, and two empty registries. -/
theorem atexitDestroyAll_spec (h : Sound w) (late : List (List (Op β V))) :
    Sound (w.atexitDestroyAll late) ∧ Wanes w (w.atexitDestroyAll late)
      ∧ (w.atexitDestroyAll late).pcs.live = []
      ∧ (w.atexitDestroyAll late).dcs.live = []
      ∧ (w.atexitDestroyAll late).dispatcher = false := by
  let s₁ := sweep (fun w h => dictGet h w.dcs.live) destroyDc w.dcs.keys late w
  let s₂ := sweep (fun w h => dictGet h w.pcs.live) destroyPc s₁.1.pcs.keys s₁.2 s₁.1
  let w₃ := s₂.1.runAll (s₂.2.headD [])
  obtain ⟨hs₁, hw₁, hdcs⟩ := sweep_spec Wanes.dcKeys sweepDcs_step h w.dcs.keys late
  obtain ⟨hs₂, hw₂, hpcs⟩ :=
    sweep_spec Wanes.pcKeys sweepPcs_step hs₁ s₁.1.pcs.keys s₁.2
  obtain ⟨hs₃, hw₃⟩ : Sound w₃ ∧ Wanes s₂.1 w₃ := sound_runAll hs₂ _
  have hall : Wanes w w₃ := (hw₁.trans hw₂).trans hw₃
  have hp : w₃.pcs.keys = [] := by
    refine List.eq_nil_iff_forall_not_mem.mpr fun k hk => ?_
    exact hpcs k ((hw₂.trans hw₃).pcKeys k hk) (hw₃.pcKeys k hk)
  have hd : w₃.dcs.keys = [] := by
    refine List.eq_nil_iff_forall_not_mem.mpr fun k hk => ?_
    exact hdcs k (hall.dcKeys k hk) ((hw₂.trans hw₃).dcKeys k hk)
  exact ⟨⟨hs₃.pcs, hs₃.dcs, hs₃.apart⟩, ⟨hall.pcHandles, hall.dcHandles, hall.pcLive,
    hall.dcLive⟩, List.map_eq_nil_iff.mp hp, List.map_eq_nil_iff.mp hd, rfl⟩

-- ============================================================== isolation

/-- What a `_dispatch` calls: the callback that the wrapper of this
handle stores for this kind, while it is not destroyed; for a log line,
the logger's. -/
inductive Calls (w : CoreWorld β V) (code handle : Int) (payload : List V) :
    Fired β V → Prop
  | pc {kind : PcKind} {o : Wrapper PcKind β} {cb : β} :
      (CallbackKind.pc kind).code = code → o ∈ w.pcs.wrappers → o.handle = handle →
      o.destroyed = false → o.callbacks kind = some cb →
      Calls w code handle payload (.wrapper cb payload)
  | dc {kind : DcKind} {o : Wrapper DcKind β} {cb : β} {args : List V} :
      (CallbackKind.dc kind).code = code → o ∈ w.dcs.wrappers → o.handle = handle →
      o.destroyed = false → channelArgs kind payload = .ok args →
      o.callbacks kind = some cb → Calls w code handle payload (.wrapper cb args)
  | log {cb : β} {message : V} {rest : List V} :
      CallbackKind.log.code = code → w.logCallback = some cb →
      payload = message :: rest → Calls w code handle payload (.log cb handle message)

/-- A callback that is called is the live wrapper's own. -/
theorem calls_of_dispatch {code handle : Int} {payload : List V} {f : Fired β V}
    (hs : Sound w) (h : w.dispatch code handle payload = .ok (some f)) :
    Calls w code handle payload f := by
  unfold dispatch at h
  split at h
  next => cases h
  next kind hk =>
    split at h
    next => cases h
    next o ho =>
      obtain ⟨hmem, hh, hd⟩ := hs.pcs.lookup_eq_some.mp ho
      obtain ⟨cb, hcb, rfl⟩ := Option.map_eq_some_iff.mp (Except.ok.inj h)
      exact .pc (code_of_ofCode? hk) hmem hh hd hcb
  next kind hk =>
    split at h
    next => cases h
    next o ho =>
      obtain ⟨hmem, hh, hd⟩ := hs.dcs.lookup_eq_some.mp ho
      split at h
      next => cases h
      next args hargs =>
        obtain ⟨cb, hcb, rfl⟩ := Option.map_eq_some_iff.mp (Except.ok.inj h)
        exact .dc (code_of_ofCode? hk) hmem hh hd hargs hcb
  next hk =>
    split at h
    next => cases h
    next cb hcb =>
      split at h
      next => cases h
      next message rest =>
        cases h
        exact .log (code_of_ofCode? hk) hcb rfl

/-- The live wrapper's own callback is called. -/
theorem dispatch_of_calls {code handle : Int} {payload : List V} {f : Fired β V}
    (hs : Sound w) (h : Calls w code handle payload f) :
    w.dispatch code handle payload = .ok (some f) := by
  cases h with
  | pc hcode hmem hh hd hcb =>
      subst hcode
      simp only [dispatch, ofCode?_code, hs.pcs.lookup_eq_some.mpr ⟨hmem, hh, hd⟩, hcb,
        Option.map_some]
  | dc hcode hmem hh hd hargs hcb =>
      subst hcode
      simp only [dispatch, ofCode?_code, hs.dcs.lookup_eq_some.mpr ⟨hmem, hh, hd⟩, hargs,
        hcb, Option.map_some]
  | log hcode hcb hp =>
      subst hcode
      subst hp
      simp only [dispatch, ofCode?_code, hcb]

/-- No other callable, no other wrapper: what a `_dispatch` with any
arguments does in this state. -/
structure Isolated (w : CoreWorld β V) (code handle : Int) (payload : List V) :
    Prop where
  calls : ∀ f, w.dispatch code handle payload = .ok (some f)
    ↔ Calls w code handle payload f
  ran : (w.fire code handle payload).ran = w.ran
    ∨ ∃ f, Calls w code handle payload f
      ∧ (w.fire code handle payload).ran = w.ran ++ [f]
  untouched : (w.fire code handle payload).pcs = w.pcs
    ∧ (w.fire code handle payload).dcs = w.dcs
    ∧ (w.fire code handle payload).logCallback = w.logCallback
  pcDestroyed : ∀ o ∈ w.pcs.wrappers, o.handle = handle → o.destroyed = true →
    ∀ kind, (CallbackKind.pc kind).code = code →
      w.dispatch code handle payload = .ok none
  dcDestroyed : ∀ o ∈ w.dcs.wrappers, o.handle = handle → o.destroyed = true →
    ∀ kind, (CallbackKind.dc kind).code = code →
      w.dispatch code handle payload = .ok none

/-- A dispatch in a sound world reaches the wrapper it is for, and no
other. -/
theorem isolated_of_sound (hs : Sound w) (code handle : Int) (payload : List V) :
    Isolated w code handle payload where
  calls := fun f => ⟨calls_of_dispatch hs, dispatch_of_calls hs⟩
  ran := by
    unfold fire
    split
    next f hf => exact Or.inr ⟨f, calls_of_dispatch hs hf, rfl⟩
    next => exact Or.inl rfl
  untouched := by
    obtain ⟨hp, hd, hl, -⟩ := fire_spec code handle payload w
    exact ⟨hp, hd, hl⟩
  pcDestroyed := by
    intro o ho hh hd kind hcode
    subst hcode
    simp only [dispatch, ofCode?_code, hs.pcs.lookup_of_destroyed ho hh hd]
  dcDestroyed := by
    intro o ho hh hd kind hcode
    subst hcode
    simp only [dispatch, ofCode?_code, hs.dcs.lookup_of_destroyed ho hh hd]

-- ================================================================= logger

/-- The operation installs a logger, or removes it. -/
def Op.logs : Op β V → Bool
  | initLogger _ => true
  | _ => false

/-- The same, also for what runs during a sweep. -/
def Action.logs : Action β V → Bool
  | op o => o.logs
  | atexit late => late.any fun ops => ops.any Op.logs
  | _ => false

/-- An operation that installs no logger keeps the log callback. -/
theorem logCallback_run {o : Op β V} (h : o.logs = false) (w : CoreWorld β V) :
    (w.run o).logCallback = w.logCallback := by
  cases o with
  | initLogger callback => cases h
  | dispatch code handle payload => exact (fire_spec code handle payload w).2.2.1
  | trampoline code handle payload =>
      show (w.trampoline code handle payload).logCallback = _
      unfold trampoline
      split
      · exact (fire_spec code handle payload w).2.2.1
      · rfl
  | setOnPc n kind callback => rfl
  | setOnDc n kind callback => rfl
  | destroyPc n => rfl
  | destroyDc n => rfl

/-- A list of such operations keeps it. -/
theorem logCallback_runAll {ops : List (Op β V)} (h : ∀ o ∈ ops, o.logs = false)
    (w : CoreWorld β V) : (w.runAll ops).logCallback = w.logCallback := by
  induction ops generalizing w with
  | nil => rfl
  | cons o ops ih =>
      exact (ih (fun p hp => h p (List.mem_cons_of_mem _ hp)) (w.run o)).trans
        (logCallback_run (h o (List.mem_cons_self ..)) w)

/-- The next of the lists that run in between. -/
theorem forall_headD {late : List (List (Op β V))}
    (h : ∀ ops ∈ late, ∀ o ∈ ops, o.logs = false) :
    ∀ o ∈ late.headD [], o.logs = false := by
  cases late with
  | nil => exact List.forall_mem_nil _
  | cons ops late => exact h ops (List.mem_cons_self ..)

/-- A sweep keeps it. -/
theorem logCallback_sweep (lookup : CoreWorld β V → Int → Option Nat)
    {destroy : Nat → CoreWorld β V → CoreWorld β V}
    (hdestroy : ∀ n w, (destroy n w).logCallback = w.logCallback) (handles : List Int)
    {late : List (List (Op β V))} (h : ∀ ops ∈ late, ∀ o ∈ ops, o.logs = false)
    (w : CoreWorld β V) :
    (sweep lookup destroy handles late w).1.logCallback = w.logCallback
      ∧ ∀ ops ∈ (sweep lookup destroy handles late w).2, ∀ o ∈ ops, o.logs = false := by
  induction handles generalizing w late with
  | nil => exact ⟨rfl, h⟩
  | cons k rest ih =>
      have htail : ∀ ops ∈ late.tail, ∀ o ∈ ops, o.logs = false :=
        fun ops hops => h ops (List.mem_of_mem_tail hops)
      obtain ⟨hsame, hlate⟩ := ih htail _
      refine ⟨hsame.trans ((logCallback_runAll (forall_headD h) _).trans ?_), hlate⟩
      split
      · exact hdestroy _ w
      · rfl

/-- A step that installs no logger keeps it. -/
theorem logCallback_apply {a : Action β V} (ha : a.logs = false)
    (h : apply a w = some w') : w'.logCallback = w.logCallback := by
  cases a with
  | createPc handle =>
      simp only [apply] at h
      split at h
      · cases h
        rfl
      · cases h
  | createDc handle =>
      simp only [apply] at h
      split at h
      · cases h
        rfl
      · cases h
  | op o =>
      cases h
      exact logCallback_run ha w
  | atexit late =>
      cases h
      have hlate : ∀ ops ∈ late, ∀ o ∈ ops, o.logs = false := by
        intro ops hops o ho
        have hany := List.any_eq_false.mp ha ops hops
        exact (Bool.not_eq_true _).mp (List.any_eq_false.mp ((Bool.not_eq_true _).mp hany) o ho)
      have hdc : ∀ n (v : CoreWorld β V), (destroyDc n v).logCallback = v.logCallback :=
        fun _ _ => rfl
      have hpc : ∀ n (v : CoreWorld β V), (destroyPc n v).logCallback = v.logCallback :=
        fun _ _ => rfl
      obtain ⟨h₁, hlate₁⟩ :=
        logCallback_sweep (fun w h => dictGet h w.dcs.live) hdc w.dcs.keys hlate w
      obtain ⟨h₂, hlate₂⟩ :=
        logCallback_sweep (fun w h => dictGet h w.pcs.live) hpc _ hlate₁ _
      exact (logCallback_runAll (forall_headD hlate₂) _).trans (h₂.trans h₁)

-- ================================================================== runs

/-- The handle an action constructs a wrapper with. -/
def Action.pcHandle? : Action β V → Option Int
  | createPc handle => some handle
  | _ => none

def Action.dcHandle? : Action β V → Option Int
  | createDc handle => some handle
  | _ => none

/-- One step keeps the account and constructs what it says. -/
theorem sound_apply {a : Action β V} (hs : Sound w) (h : apply a w = some w') :
    Sound w' ∧ w'.pcs.handles = w.pcs.handles ++ a.pcHandle?.toList
      ∧ w'.dcs.handles = w.dcs.handles ++ a.dcHandle?.toList := by
  have hnone : ∀ {v : CoreWorld β V}, Sound v ∧ Wanes w v → Sound v
      ∧ v.pcs.handles = w.pcs.handles ++ [] ∧ v.dcs.handles = w.dcs.handles ++ [] := by
    rintro v ⟨hv, hw⟩
    rw [List.append_nil, List.append_nil]
    exact ⟨hv, hw.pcHandles, hw.dcHandles⟩
  cases a with
  | createPc handle =>
      simp only [apply] at h
      split at h
      next hf =>
        cases h
        obtain ⟨hp, hd⟩ := of_decide_eq_true hf
        have hh : (w.pcs.create handle).handles = w.pcs.handles ++ [handle] :=
          Registry.handles_create handle w.pcs
        refine ⟨⟨Registry.exact_create hs.pcs hp, hs.dcs, ?_⟩, hh,
          (List.append_nil _).symm⟩
        intro k hk
        rcases List.mem_append.mp (hh ▸ hk) with hk | hk
        · exact hs.apart k hk
        · rw [List.mem_singleton.mp hk]
          exact hd
      next => cases h
  | createDc handle =>
      simp only [apply] at h
      split at h
      next hf =>
        cases h
        obtain ⟨hp, hd⟩ := of_decide_eq_true hf
        have hh : (w.dcs.create handle).handles = w.dcs.handles ++ [handle] :=
          Registry.handles_create handle w.dcs
        refine ⟨⟨hs.pcs, Registry.exact_create hs.dcs hd, ?_⟩,
          (List.append_nil _).symm, hh⟩
        intro k hk hk'
        rcases List.mem_append.mp (hh ▸ hk') with hk' | hk'
        · exact hs.apart k hk hk'
        · rw [List.mem_singleton.mp hk'] at hk
          exact hp hk
      next => cases h
  | op o =>
      cases h
      exact hnone (sound_run hs o)
  | atexit late =>
      cases h
      obtain ⟨hv, hw, -⟩ := atexitDestroyAll_spec hs late
      exact hnone ⟨hv, hw⟩

/-- Nothing is registered at the start. -/
theorem sound_init : Sound (init : CoreWorld β V) where
  pcs := Registry.exact_empty
  dcs := Registry.exact_empty
  apart := List.forall_mem_nil _

/-- The handles of a run's wrappers are those its constructions were
given. -/
theorem sound_exec {acts : List (Action β V)} (hs : Sound w)
    (h : exec apply w acts = some w') :
    Sound w' ∧ w'.pcs.handles = w.pcs.handles ++ acts.filterMap Action.pcHandle?
      ∧ w'.dcs.handles = w.dcs.handles ++ acts.filterMap Action.dcHandle? := by
  induction acts generalizing w with
  | nil =>
      cases h
      exact ⟨hs, (List.append_nil _).symm, (List.append_nil _).symm⟩
  | cons a rest ih =>
      obtain ⟨m, ha, hrest⟩ := Transition.exec_cons_cases h
      obtain ⟨hm, hp, hd⟩ := sound_apply hs ha
      obtain ⟨hw', hp', hd'⟩ := ih hm hrest
      refine ⟨hw', ?_, ?_⟩
      · rw [hp', hp, List.append_assoc, Transition.toList_append_filterMap]
      · rw [hd', hd, List.append_assoc, Transition.toList_append_filterMap]

/-- A run that installs no logger keeps the log callback. -/
theorem logCallback_exec {acts : List (Action β V)} (hl : ∀ a ∈ acts, a.logs = false)
    (h : exec apply w acts = some w') : w'.logCallback = w.logCallback := by
  induction acts generalizing w with
  | nil =>
      cases h
      rfl
  | cons a rest ih =>
      obtain ⟨m, ha, hrest⟩ := Transition.exec_cons_cases h
      exact (ih (fun b hb => hl b (List.mem_cons_of_mem _ hb)) hrest).trans
        (logCallback_apply (hl a (List.mem_cons_self ..)) ha)

-- ============================================================ other machines

/-- The registries as the machines of a channel and of a connection have
them: by their keys. -/
def toCore (w : CoreWorld β V) : Core where
  pcs := w.pcs.keys
  dcs := w.dcs.keys
  deletedPcs := w.pcs.deleted
  deletedDcs := w.dcs.deleted

/-- A wrapper as these machines have it: the kinds it stores a callback
for, without the callbacks. -/
def asPc (o : Wrapper PcKind β) : CorePeerConnection where
  handle := o.handle
  callbacks := [.localDescription, .localCandidate, .stateChange, .iceStateChange,
    .gatheringStateChange, .signalingStateChange, .dataChannel].filter
      fun kind => (o.callbacks kind).isSome
  destroyed := o.destroyed

def asDc (o : Wrapper DcKind β) : CoreDataChannel where
  handle := o.handle
  callbacks := [.open, .closed, .error, .message, .bufferedAmountLow].filter
    fun kind => (o.callbacks kind).isSome
  destroyed := o.destroyed

/-- A connection's callbacks are those that are set. -/
theorem mem_asPc {o : Wrapper PcKind β} {kind : PcKind} :
    kind ∈ (asPc o).callbacks ↔ (o.callbacks kind).isSome = true := by
  rw [asPc, List.mem_filter]
  refine ⟨And.right, fun hk => ⟨?_, hk⟩⟩
  cases kind <;> decide

/-- A channel's callbacks are those that are set. -/
theorem mem_asDc {o : Wrapper DcKind β} {kind : DcKind} :
    kind ∈ (asDc o).callbacks ↔ (o.callbacks kind).isSome = true := by
  rw [asDc, List.mem_filter]
  refine ⟨And.right, fun hk => ⟨?_, hk⟩⟩
  cases kind <;> decide

/-- A connection is created in both models alike. -/
theorem toCore_createPc (h : Int) (w : CoreWorld β V) :
    (w.createPc h).toCore = (CorePeerConnection.create h w.toCore).1 := by
  unfold toCore createPc
  exact congrArg (Core.mk · _ _ _) (Registry.map_fst_dictSet h _ w.pcs.live)

/-- A channel is created in both models alike. -/
theorem toCore_createDc (h : Int) (w : CoreWorld β V) :
    (w.createDc h).toCore = (CoreDataChannel.create h w.toCore).1 := by
  unfold toCore createDc
  exact congrArg (Core.mk _ · _ _) (Registry.map_fst_dictSet h _ w.dcs.live)

/-- A channel's `destroy` is the one of its machine. -/
theorem toCore_destroyDc {n : Nat} {o : Wrapper DcKind β}
    (ho : w.dcs.wrappers[n]? = some o) :
    (w.destroyDc n).toCore = ((asDc o).destroy w.toCore).1 := by
  cases hd : o.destroyed with
  | true =>
      have hself : w.dcs.destroy n = w.dcs :=
        Registry.destroy_eq_self fun p hp => by rw [Option.some.inj (hp.symm.trans ho), hd]
      have hdc : (asDc o).destroyed = true := hd
      rw [CoreDataChannel.destroy, if_pos hdc, destroyDc, hself]
  | false =>
      have hdc : ¬ (asDc o).destroyed = true := by
        show ¬ o.destroyed = true
        rw [hd]
        exact Bool.false_ne_true
      rw [CoreDataChannel.destroy, if_neg hdc, destroyDc, Registry.destroy_of_live ho hd]
      exact congrArg (Core.mk _ · _ _) (Registry.map_fst_dictPop o.handle w.dcs.live)

/-- A connection's is the two steps of its machine. -/
theorem toCore_destroyPc {n : Nat} {o : Wrapper PcKind β}
    (ho : w.pcs.wrappers[n]? = some o) (hd : o.destroyed = false) :
    (w.destroyPc n).toCore
      = { ((asPc o).beginDestroy w.toCore).1 with
          deletedPcs := w.toCore.deletedPcs ++ [o.handle] } := by
  rw [destroyPc, Registry.destroy_of_live ho hd]
  exact congrArg (Core.mk · _ _ _) (Registry.map_fst_dictPop o.handle w.pcs.live)

/-- `_dispatch` calls a callback of a wrapper when the machines say that
it dispatches the kind. -/
theorem dispatches_pc_iff (hs : Sound w) {o : Wrapper PcKind β} (ho : o ∈ w.pcs.wrappers)
    (kind : PcKind) (payload : List V) :
    (asPc o).dispatches w.toCore kind = true
      ↔ ∃ f, w.dispatch (CallbackKind.pc kind).code o.handle payload = .ok (some f) := by
  rw [CorePeerConnection.dispatches, Bool.and_eq_true, decide_eq_true_eq,
    decide_eq_true_eq, mem_asPc]
  show o.handle ∈ w.pcs.keys ∧ _ ↔ _
  rw [hs.pcs.mem_keys_iff ho]
  constructor
  · rintro ⟨hd, hk⟩
    obtain ⟨cb, hcb⟩ := Option.isSome_iff_exists.mp hk
    exact ⟨_, dispatch_of_calls hs (.pc rfl ho rfl hd hcb)⟩
  · rintro ⟨f, hf⟩
    cases hd : o.destroyed with
    | true =>
        simp only [dispatch, ofCode?_code, hs.pcs.lookup_of_destroyed ho rfl hd] at hf
        cases hf
    | false =>
        simp only [dispatch, ofCode?_code, hs.pcs.lookup_eq_some.mpr ⟨ho, rfl, hd⟩] at hf
        obtain ⟨cb, hcb, -⟩ := Option.map_eq_some_iff.mp (Except.ok.inj hf)
        exact ⟨rfl, Option.isSome_iff_exists.mpr ⟨cb, hcb⟩⟩

/-- The two models dispatch to a channel alike. -/
theorem dispatches_dc_iff (hs : Sound w) {o : Wrapper DcKind β} (ho : o ∈ w.dcs.wrappers)
    {kind : DcKind} {payload args : List V} (hargs : channelArgs kind payload = .ok args) :
    (asDc o).dispatches w.toCore kind = true
      ↔ ∃ f, w.dispatch (CallbackKind.dc kind).code o.handle payload = .ok (some f) := by
  rw [CoreDataChannel.dispatches, Bool.and_eq_true, decide_eq_true_eq,
    decide_eq_true_eq, mem_asDc]
  show o.handle ∈ w.dcs.keys ∧ _ ↔ _
  rw [hs.dcs.mem_keys_iff ho]
  constructor
  · rintro ⟨hd, hk⟩
    obtain ⟨cb, hcb⟩ := Option.isSome_iff_exists.mp hk
    exact ⟨_, dispatch_of_calls hs (.dc rfl ho rfl hd hargs hcb)⟩
  · rintro ⟨f, hf⟩
    cases hd : o.destroyed with
    | true =>
        simp only [dispatch, ofCode?_code, hs.dcs.lookup_of_destroyed ho rfl hd] at hf
        cases hf
    | false =>
        simp only [dispatch, ofCode?_code, hs.dcs.lookup_eq_some.mpr ⟨ho, rfl, hd⟩,
          hargs] at hf
        obtain ⟨cb, hcb, -⟩ := Option.map_eq_some_iff.mp (Except.ok.inj hf)
        exact ⟨rfl, Option.isSome_iff_exists.mpr ⟨cb, hcb⟩⟩

-- ======================================================= the whole registry

/-- The registries hold the wrappers that were constructed and are not
destroyed: under its handle each, and nothing else. -/
structure Holds (acts : List (Action β V)) (w : CoreWorld β V) : Prop where
  pcs : ∀ h n, (h, n) ∈ w.pcs.live
    ↔ ∃ o, w.pcs.wrappers[n]? = some o ∧ o.handle = h ∧ o.destroyed = false
  dcs : ∀ h n, (h, n) ∈ w.dcs.live
    ↔ ∃ o, w.dcs.wrappers[n]? = some o ∧ o.handle = h ∧ o.destroyed = false
  pcKeys : w.pcs.keys.Nodup
  dcKeys : w.dcs.keys.Nodup
  pcHandles : w.pcs.handles = acts.filterMap Action.pcHandle?
  dcHandles : w.dcs.handles = acts.filterMap Action.dcHandle?

/-- What the sweep at exit leaves: empty registries, and one native
delete for every wrapper there ever was. -/
structure Swept (w : CoreWorld β V) : Prop where
  pcs : w.pcs.live = []
  dcs : w.dcs.live = []
  pcDeleted : ∀ h ∈ w.pcs.handles, w.pcs.deleted.count h = 1
  dcDeleted : ∀ h ∈ w.dcs.handles, w.dcs.deleted.count h = 1
  dispatcher : w.dispatcher = false

/-- The sweep at exit leaves nothing registered and has deleted everything
once. -/
theorem swept_atexit (hs : Sound w) (late : List (List (Op β V))) :
    Swept (w.atexitDestroyAll late) := by
  obtain ⟨hv, -, hp, hd, hoff⟩ := atexitDestroyAll_spec hs late
  exact ⟨hp, hd, fun h hh => hv.pcs.count_deleted hp hh,
    fun h hh => hv.dcs.count_deleted hd hh, hoff⟩

/-- No handle is deleted twice. -/
theorem Sound.deleted_nodup (hs : Sound w) : (w.pcs.deleted ++ w.dcs.deleted).Nodup := by
  refine hs.pcs.once.append hs.dcs.once fun h hp hd => ?_
  exact hs.apart h (hs.pcs.mem_handles_of_deleted hp) (hs.dcs.mem_handles_of_deleted hd)

/-- In every state of every run: the registries are exact, no handle was
deleted twice, a `_dispatch` is isolated whatever it is given, without a
logger a log line calls nothing, and a sweep at exit is complete. -/
theorem registries_exact_dispatch_isolated {acts : List (Action β V)}
    (h : exec apply init acts = some w) :
    Holds acts w
      ∧ (w.pcs.deleted ++ w.dcs.deleted).Nodup
      ∧ (∀ code handle payload, Isolated w code handle payload)
      ∧ ((∀ a ∈ acts, a.logs = false) → ∀ handle payload,
          w.dispatch CallbackKind.log.code handle payload = .ok none)
      ∧ ∀ late, Swept (w.atexitDestroyAll late) := by
  obtain ⟨hs, hp, hd⟩ := sound_exec sound_init h
  refine ⟨?_, hs.deleted_nodup, isolated_of_sound hs, fun hl handle payload => ?_,
    swept_atexit hs⟩
  · exact ⟨hs.pcs.live, hs.dcs.live, hs.pcs.keys, hs.dcs.keys, hp, hd⟩
  · have hnone : w.logCallback = none := logCallback_exec hl h
    simp only [dispatch, ofCode?_code, hnone]

/-- A connection and two channels: a callback of each, a channel torn
down twice and by the exit sweep a third time, with a callback for it
arriving late and one for the other channel during the sweep. -/
def lateRun : List (Action Nat Nat) :=
  [.createPc 1, .createDc 2, .createDc 3, .op (.setOnDc 0 .open 10),
    .op (.setOnDc 1 .error 11), .op (.dispatch 7 2 []), .op (.destroyDc 0),
    .op (.dispatch 7 2 []), .op (.setOnDc 0 .open 12), .op (.trampoline 7 2 []),
    .op (.destroyDc 0), .op (.dispatch 9 3 [5])]

theorem registries_exact_dispatch_isolated_lateRun :
    ∃ w, exec apply init lateRun = some w
      ∧ w.dcs.live = [(3, 1)] ∧ w.dcs.deleted = [2] ∧ w.ran.length = 2
      ∧ Holds lateRun w ∧ Isolated w 7 2 []
      ∧ Swept (w.atexitDestroyAll [[.dispatch 9 3 [6]], [.destroyDc 1]]) := by
  obtain ⟨hholds, -, hisolated, -, hswept⟩ :=
    @registries_exact_dispatch_isolated Nat Nat _ lateRun rfl
  exact ⟨_, rfl, rfl, rfl, rfl, hholds, hisolated 7 2 [], hswept _⟩

end CoreWorld

end AioLibDataChannel
