/-
One upcall, all the way: from the arguments libdatachannel calls a
trampoline with, through `_dispatch` and the wrapper's callback, to what
is scheduled on the loop.

The wrappers register their own methods (`Bound`) and nothing else does,
so in every state of every such run a callback that is found belongs to
the wrapper that has the handle, and to the kind (`Owned`). From that,
and from the payloads fitting the methods, `upcall_exact` says what every
upcall comes to: what it means, scheduled for the right object; or
nothing; or an exception, for two reasons only. None of them is the
`DispatchError` that `_dispatch` has for a payload of the wrong shape.
-/
import AioLibDataChannel.DataChannel.Callbacks
import AioLibDataChannel.PeerConnection.Callbacks

namespace AioLibDataChannel

open Function (update)
open Transition (exec)

/-- The bound methods that are registered: the `_cb_*` of a connection
and of a channel, by the number of the wrapper, and loggers. -/
inductive Bound
  | pc (n : Nat) (kind : PcKind)
  | dc (n : Nat) (kind : DcKind)
  | logger (n : Nat)
deriving DecidableEq, Repr

/-- What an upcall comes to, when it is not lost: a dispatcher on the
loop, or a line for the logger. -/
inductive Heard
  | pc (n : Nat) (d : StreamWorld.Dispatch)
  | dc (n : Nat) (e : DcEvent)
  | log (n : Nat) (level : Int) (message : List Char)
deriving DecidableEq, Repr

/-- What is raised, and by whom: a text that makes no `str`, `_dispatch`,
or the callback. -/
inductive UpcallError
  | notText
  | dispatch (e : DispatchError)
  | callback (e : CallbackError)
deriving DecidableEq, Repr

-- ============================================================= the wrappers

/-- Every stored callback is the one that belongs there. -/
def Registry.Owned {κ β : Type} (own : Nat → κ → β) (r : Registry κ β) : Prop :=
  ∀ n o kind cb, r.wrappers[n]? = some o → o.callbacks kind = some cb → cb = own n kind

section Registry

variable {κ β : Type} {own : Nat → κ → β} {r : Registry κ β}

/-- A new wrapper has no callback that is not its own. -/
theorem Registry.owned_create (h : r.Owned own) (handle : Int) :
    (r.create handle).Owned own := by
  intro n o kind cb ho hcb
  rcases Nat.lt_trichotomy n r.wrappers.length with hn | rfl | hn
  · rw [create, List.getElem?_append_left hn] at ho
    exact h n o kind cb ho hcb
  · rw [create, List.getElem?_concat_length] at ho
    cases ho
    cases hcb
  · rw [create, List.getElem?_eq_none (by rw [List.length_append]; exact hn)] at ho
    cases ho

/-- A callback that is its own may be set. -/
theorem Registry.owned_setOn [DecidableEq κ] (h : r.Owned own) (n : Nat) (kind : κ) :
    (r.setOn n kind (own n kind)).Owned own := by
  unfold setOn
  split
  next => exact h
  next o ho =>
    intro m p kind' cb hp hcb
    rw [List.getElem?_set] at hp
    split at hp
    next hm =>
      split at hp
      next =>
        cases hp
        have hslot : update o.callbacks kind (some (own n kind)) kind' = some cb := hcb
        by_cases hk : kind' = kind
        · subst hk
          rw [Function.update_self] at hslot
          rw [← Option.some.inj hslot, hm]
        · rw [Function.update_of_ne hk] at hslot
          exact hm ▸ h n o kind' cb ho hslot
      next => cases hp
    next => exact h m p kind' cb hp hcb

/-- A destroy takes callbacks away. -/
theorem Registry.owned_destroy (h : r.Owned own) (n : Nat) : (r.destroy n).Owned own := by
  rcases destroy_cases n r with heq | ⟨o, ho, hd⟩
  · rw [heq]
    exact h
  · rw [destroy_of_live ho hd]
    intro m p kind cb hp hcb
    rw [List.getElem?_set] at hp
    split at hp
    next =>
      split at hp
      next =>
        cases hp
        cases hcb
      next => cases hp
    next => exact h m p kind cb hp hcb

end Registry

namespace CoreWorld

variable {w w' : CoreWorld Bound PyValue}

/-- Each wrapper stores its own methods, and the log callback is a
logger. -/
structure Owned (w : CoreWorld Bound PyValue) : Prop where
  pcs : w.pcs.Owned Bound.pc
  dcs : w.dcs.Owned Bound.dc
  log : ∀ cb, w.logCallback = some cb → ∃ n, cb = .logger n

/-- The operation registers a wrapper's own method, or a logger, if
anything. -/
def Op.owns : Op Bound PyValue → Bool
  | setOnPc n kind callback => decide (callback = .pc n kind)
  | setOnDc n kind callback => decide (callback = .dc n kind)
  | initLogger (some (.logger _)) => true
  | initLogger (some _) => false
  | _ => true

def Action.owns : Action Bound PyValue → Bool
  | op o => o.owns
  | atexit late => late.all fun ops => ops.all Op.owns
  | _ => true

/-- Nothing is registered yet. -/
theorem owned_init : Owned (init : CoreWorld Bound PyValue) where
  pcs := fun n o kind cb ho => by cases ho
  dcs := fun n o kind cb ho => by cases ho
  log := fun cb hcb => by cases hcb

/-- A callback stores nothing. -/
theorem owned_fire (h : Owned w) (code handle : Int) (payload : List PyValue) :
    Owned (w.fire code handle payload) := by
  obtain ⟨hp, hd, hl, -⟩ := fire_spec code handle payload w
  exact ⟨hp ▸ h.pcs, hd ▸ h.dcs, hl ▸ h.log⟩

/-- An operation that sets a wrapper's own callbacks keeps to that. -/
theorem owned_run {o : Op Bound PyValue} (ho : o.owns = true) (h : Owned w) :
    Owned (w.run o) := by
  cases o with
  | setOnPc n kind callback =>
      obtain rfl := of_decide_eq_true ho
      exact ⟨Registry.owned_setOn h.pcs n kind, h.dcs, h.log⟩
  | setOnDc n kind callback =>
      obtain rfl := of_decide_eq_true ho
      exact ⟨h.pcs, Registry.owned_setOn h.dcs n kind, h.log⟩
  | destroyPc n => exact ⟨Registry.owned_destroy h.pcs n, h.dcs, h.log⟩
  | destroyDc n => exact ⟨h.pcs, Registry.owned_destroy h.dcs n, h.log⟩
  | initLogger callback =>
      refine ⟨h.pcs, h.dcs, fun cb hcb => ?_⟩
      obtain rfl : callback = some cb := hcb
      cases cb with
      | logger n => exact ⟨n, rfl⟩
      | pc n kind => cases ho
      | dc n kind => cases ho
  | dispatch code handle payload => exact owned_fire h code handle payload
  | trampoline code handle payload =>
      show Owned (w.trampoline code handle payload)
      unfold trampoline
      split
      · exact owned_fire h code handle payload
      · exact h

/-- A list of operations that set a wrapper's own callbacks keeps to
that. -/
theorem owned_runAll {ops : List (Op Bound PyValue)} (hops : ops.all Op.owns = true)
    (h : Owned w) : Owned (w.runAll ops) := by
  induction ops generalizing w with
  | nil => exact h
  | cons o ops ih =>
      obtain ⟨ho, hrest⟩ := Bool.and_eq_true_iff.mp ((List.all_cons ..).symm.trans hops)
      exact ih hrest (owned_run ho h)

/-- The next of the lists that run in between. -/
theorem owns_headD {late : List (List (Op Bound PyValue))}
    (h : ∀ ops ∈ late, ops.all Op.owns = true) : (late.headD []).all Op.owns = true := by
  cases late with
  | nil => rfl
  | cons ops late => exact h ops (List.mem_cons_self ..)

/-- A loop of the sweep registers nothing else either. -/
theorem owned_sweep (lookup : CoreWorld Bound PyValue → Int → Option Nat)
    {destroy : Nat → CoreWorld Bound PyValue → CoreWorld Bound PyValue}
    (hdestroy : ∀ n w, Owned w → Owned (destroy n w)) (handles : List Int)
    {late : List (List (Op Bound PyValue))}
    (hlate : ∀ ops ∈ late, ops.all Op.owns = true) (h : Owned w) :
    Owned (sweep lookup destroy handles late w).1
      ∧ ∀ ops ∈ (sweep lookup destroy handles late w).2, ops.all Op.owns = true := by
  induction handles generalizing w late with
  | nil => exact ⟨h, hlate⟩
  | cons k rest ih =>
      have htail : ∀ ops ∈ late.tail, ops.all Op.owns = true :=
        fun ops hops => hlate ops (List.mem_of_mem_tail hops)
      refine ih htail (owned_runAll (owns_headD hlate) ?_)
      split
      · exact hdestroy _ w h
      · exact h

/-- A step that sets a wrapper's own callbacks keeps to that. -/
theorem owned_apply {a : Action Bound PyValue} (ha : a.owns = true) (h : Owned w)
    (happly : apply a w = some w') : Owned w' := by
  cases a with
  | createPc handle =>
      simp only [apply] at happly
      split at happly
      · cases happly
        exact ⟨Registry.owned_create h.pcs handle, h.dcs, h.log⟩
      · cases happly
  | createDc handle =>
      simp only [apply] at happly
      split at happly
      · cases happly
        exact ⟨h.pcs, Registry.owned_create h.dcs handle, h.log⟩
      · cases happly
  | op o =>
      cases happly
      exact owned_run ha h
  | atexit late =>
      cases happly
      have hlate : ∀ ops ∈ late, ops.all Op.owns = true := List.all_eq_true.mp ha
      obtain ⟨h₁, hlate₁⟩ := owned_sweep (fun w h => dictGet h w.dcs.live)
        (fun n w hw => owned_run (o := .destroyDc n) rfl hw) w.dcs.keys hlate h
      obtain ⟨h₂, hlate₂⟩ := owned_sweep (fun w h => dictGet h w.pcs.live)
        (fun n w hw => owned_run (o := .destroyPc n) rfl hw) _ hlate₁ h₁
      have hlast := owned_runAll (owns_headD hlate₂) h₂
      exact ⟨hlast.pcs, hlast.dcs, hlast.log⟩

/-- Every state of a run that registers only these. -/
theorem owned_exec {acts : List (Action Bound PyValue)}
    (hacts : ∀ a ∈ acts, a.owns = true) (h : Owned w)
    (hrun : exec apply w acts = some w') : Owned w' := by
  induction acts generalizing w with
  | nil =>
      cases hrun
      exact h
  | cons a rest ih =>
      obtain ⟨m, ha, hrest⟩ := Transition.exec_cons_cases hrun
      have hm := owned_apply (hacts a (List.mem_cons_self ..)) h ha
      exact ih (fun b hb => hacts b (List.mem_cons_of_mem _ hb)) hm hrest

-- ============================================================ one upcall

/-- The callable that `_dispatch` found, called. -/
def call : Fired Bound PyValue → Except UpcallError Heard
  | .wrapper (.pc n kind) args =>
      match StreamWorld.callback kind args with
      | .ok d => .ok (.pc n d)
      | .error e => .error (.callback e)
  | .wrapper (.dc n kind) args =>
      match DcWorld.callback kind args with
      | .ok e => .ok (.dc n e)
      | .error e => .error (.callback e)
  | .wrapper (.logger _) _ => .error (.callback .unannotated)
  | .log (.logger n) level (.str message) => .ok (.log n level message)
  | .log _ _ _ => .error (.callback .unannotated)

/-- If there is one. -/
def callFound : Option (Fired Bound PyValue) → Except UpcallError (Option Heard)
  | none => .ok none
  | some f =>
      match call f with
      | .ok heard => .ok (some heard)
      | .error e => .error e

/-- A trampoline: the tuple, `_dispatch`, and the callable it finds. -/
def upcall (u : Upcall) (w : CoreWorld Bound PyValue) :
    Except UpcallError (Option Heard) :=
  match u.args? with
  | none => .error .notText
  | some a =>
      if w.dispatcher then
        match w.dispatch a.kind.code a.handle a.payload with
        | .error e => .error (.dispatch e)
        | .ok found => callFound found
      else .ok none

/-- The object that stands for the upcall's handle, and its callback. -/
def Live {κ : Type} (r : Registry κ Bound) (handle : Int) (kind : κ) (n : Nat) : Prop :=
  ∃ o, r.wrappers[n]? = some o ∧ o.handle = handle ∧ o.destroyed = false
    ∧ (o.callbacks kind).isSome = true

/-- No two wrappers are live under one handle. -/
theorem live_unique {κ : Type} {r : Registry κ Bound} (hr : r.Exact) {handle : Int}
    {kind kind' : κ} {n m : Nat} (hn : Live r handle kind n) (hm : Live r handle kind' m) :
    n = m := by
  obtain ⟨o, ho, hoh, -⟩ := hn
  obtain ⟨p, hp, hph, -⟩ := hm
  exact hr.unique ho hp (hoh.trans hph.symm)

/-- What `_dispatch` finds for a handle and a kind is the live object's
own method. -/
theorem found_iff {κ : Type} {own : Nat → κ → Bound} {r : Registry κ Bound}
    (hr : r.Exact) (ho : r.Owned own) (handle : Int) (kind : κ) (cb : Bound) :
    (r.lookup handle).bind (fun o => o.callbacks kind) = some cb
      ↔ ∃ n, Live r handle kind n ∧ cb = own n kind := by
  rw [Option.bind_eq_some_iff]
  constructor
  · rintro ⟨o, hl, hcb⟩
    obtain ⟨hmem, hh, hd⟩ := hr.lookup_eq_some.mp hl
    obtain ⟨n, hn⟩ := List.mem_iff_getElem?.mp hmem
    exact ⟨n, ⟨o, hn, hh, hd, Option.isSome_iff_exists.mpr ⟨cb, hcb⟩⟩,
      ho n o kind cb hn hcb⟩
  · rintro ⟨n, ⟨o, hn, hh, hd, hsome⟩, rfl⟩
    obtain ⟨cb, hcb⟩ := Option.isSome_iff_exists.mp hsome
    refine ⟨o, hr.lookup_eq_some.mpr ⟨List.mem_of_getElem? hn, hh, hd⟩, ?_⟩
    rw [hcb, ho n o kind cb hn hcb]

/-- What an upcall comes to, said without the code: scheduled with its
meaning, for the object that stands for its handle; lost because nobody
does, or because the dispatcher is gone; or raised, for a text that is
none or a state that is none. -/
inductive Comes (w : CoreWorld Bound PyValue) (u : Upcall) :
    Except UpcallError (Option Heard) → Prop
  | notText : (∃ p ∈ u.texts, p.toStr? = none) → Comes w u (.error .notText)
  | cleared : (∀ p ∈ u.texts, p.toStr?.isSome) → w.dispatcher = false →
      Comes w u (.ok none)
  | pc {kind : PcKind} {n : Nat} {d : StreamWorld.Dispatch} :
      (∀ p ∈ u.texts, p.toStr?.isSome) → w.dispatcher = true → u.kind = .pc kind →
      Live w.pcs u.handle kind n → StreamWorld.report? u = some d →
      Comes w u (.ok (some (.pc n d)))
  | unknown {kind : PcKind} {n : Nat} {state : Int} {states : Nat} :
      (∀ p ∈ u.texts, p.toStr?.isSome) → w.dispatcher = true → u.kind = .pc kind →
      Live w.pcs u.handle kind n → StreamWorld.state? u = some (state, states) →
      ¬ (0 ≤ state ∧ state < states) → Comes w u (.error (.callback .valueError))
  | noPc {kind : PcKind} :
      (∀ p ∈ u.texts, p.toStr?.isSome) → w.dispatcher = true → u.kind = .pc kind →
      (∀ n, ¬ Live w.pcs u.handle kind n) → Comes w u (.ok none)
  | dc {kind : DcKind} {n : Nat} {e : DcEvent} :
      (∀ p ∈ u.texts, p.toStr?.isSome) → w.dispatcher = true → u.kind = .dc kind →
      Live w.dcs u.handle kind n → DcWorld.report? u = some e →
      Comes w u (.ok (some (.dc n e)))
  | noDc {kind : DcKind} :
      (∀ p ∈ u.texts, p.toStr?.isSome) → w.dispatcher = true → u.kind = .dc kind →
      (∀ n, ¬ Live w.dcs u.handle kind n) → Comes w u (.ok none)
  | log {n : Nat} {level : Int} {message : CText} {text : List Char} :
      (∀ p ∈ u.texts, p.toStr?.isSome) → w.dispatcher = true →
      u = .log level message → message.toStr? = some text →
      w.logCallback = some (.logger n) → Comes w u (.ok (some (.log n level text)))
  | noLog : (∀ p ∈ u.texts, p.toStr?.isSome) → w.dispatcher = true → u.kind = .log →
      w.logCallback = none → Comes w u (.ok none)

variable {u : Upcall} {a : DispatchArgs}

/-- A connection's upcall, as the dispatcher gets it. -/
theorem comes_pc {kind : PcKind} (hs : Sound w) (ho : Owned w)
    (ha : u.args? = some a) (hon : w.dispatcher = true) (hk : u.kind = .pc kind) :
    Comes w u (w.upcall u) := by
  have htexts := u.args?_isSome_iff.mp (Option.isSome_of_eq_some ha)
  obtain ⟨hkind, hhandle⟩ := Upcall.args?_spec ha
  have hdispatch : w.dispatch a.kind.code a.handle a.payload
      = .ok (((w.pcs.lookup u.handle).bind fun o => o.callbacks kind).map
          fun cb => .wrapper cb a.payload) := by
    rw [hkind, hk, hhandle]
    simp only [dispatch, ofCode?_code]
    cases w.pcs.lookup u.handle <;> rfl
  have hup : w.upcall u
      = callFound (((w.pcs.lookup u.handle).bind fun o => o.callbacks kind).map
          fun cb => .wrapper cb a.payload) := by
    simp only [upcall, ha, hon, if_true, hdispatch]
  have hfound := found_iff hs.pcs ho.pcs u.handle kind
  cases hcb : (w.pcs.lookup u.handle).bind fun o => o.callbacks kind with
  | none =>
      rw [hcb] at hup
      rw [hup]
      refine .noPc htexts hon hk fun n hn => ?_
      have hsome := (hfound (.pc n kind)).mpr ⟨n, hn, rfl⟩
      cases hcb.symm.trans hsome
  | some cb =>
      obtain ⟨n, hn, rfl⟩ := (hfound cb).mp hcb
      have hargs := StreamWorld.callback_args ha hk
      rw [hcb] at hup
      rw [hup]
      simp only [Option.map_some, callFound, call, hargs]
      cases hr : StreamWorld.report? u with
      | some d => exact .pc htexts hon hk hn hr
      | none =>
          obtain ⟨state, states, hst, hout⟩ :=
            (StreamWorld.report?_eq_none_iff ha hk).mp hr
          exact .unknown htexts hon hk hn hst hout

/-- A channel's. -/
theorem comes_dc {kind : DcKind} (hs : Sound w) (ho : Owned w)
    (ha : u.args? = some a) (hon : w.dispatcher = true) (hk : u.kind = .dc kind) :
    Comes w u (w.upcall u) := by
  have htexts := u.args?_isSome_iff.mp (Option.isSome_of_eq_some ha)
  obtain ⟨hkind, hhandle⟩ := Upcall.args?_spec ha
  obtain ⟨args, e, hargs, hcall, hreport⟩ := DcWorld.callback_args ha hk
  have hdispatch : w.dispatch a.kind.code a.handle a.payload
      = .ok (((w.dcs.lookup u.handle).bind fun o => o.callbacks kind).map
          fun cb => .wrapper cb args) := by
    rw [hkind, hk, hhandle]
    simp only [dispatch, ofCode?_code, hargs]
    cases w.dcs.lookup u.handle <;> rfl
  have hup : w.upcall u
      = callFound (((w.dcs.lookup u.handle).bind fun o => o.callbacks kind).map
          fun cb => .wrapper cb args) := by
    simp only [upcall, ha, hon, if_true, hdispatch]
  have hfound := found_iff hs.dcs ho.dcs u.handle kind
  cases hcb : (w.dcs.lookup u.handle).bind fun o => o.callbacks kind with
  | none =>
      rw [hcb] at hup
      rw [hup]
      refine .noDc htexts hon hk fun n hn => ?_
      have hsome := (hfound (.dc n kind)).mpr ⟨n, hn, rfl⟩
      cases hcb.symm.trans hsome
  | some cb =>
      obtain ⟨n, hn, rfl⟩ := (hfound cb).mp hcb
      rw [hcb] at hup
      rw [hup]
      simp only [Option.map_some, callFound, call, hcall]
      exact .dc htexts hon hk hn hreport

/-- A log line. -/
theorem comes_log (ho : Owned w) (ha : u.args? = some a) (hon : w.dispatcher = true)
    (hk : u.kind = .log) : Comes w u (w.upcall u) := by
  have htexts := u.args?_isSome_iff.mp (Option.isSome_of_eq_some ha)
  obtain ⟨hkind, hhandle⟩ := Upcall.args?_spec ha
  obtain ⟨level, message, text, rfl, htext, hpayload⟩ := Upcall.args?_log ha hk
  cases hcb : w.logCallback with
  | none =>
      have hup : w.upcall (.log level message) = .ok none := by
        simp only [upcall, ha, hon, if_true, hkind, hk, dispatch, ofCode?_code, hcb]
        rfl
      rw [hup]
      exact .noLog htexts hon hk hcb
  | some cb =>
      obtain ⟨n, rfl⟩ := ho.log cb hcb
      have hup : w.upcall (.log level message) = .ok (some (.log n level text)) := by
        simp only [upcall, ha, hon, if_true, hkind, hk, dispatch, ofCode?_code, hcb,
          hpayload, hhandle]
        rfl
      rw [hup]
      exact .log htexts hon rfl htext hcb

/-- Every upcall comes to something of the list. -/
theorem comes_upcall (hs : Sound w) (ho : Owned w) (u : Upcall) :
    Comes w u (w.upcall u) := by
  cases ha : u.args? with
  | none =>
      have hup : w.upcall u = .error .notText := by
        simp only [upcall, ha]
      rw [hup]
      refine .notText ?_
      by_contra hnot
      push Not at hnot
      have hsome := u.args?_isSome_iff.mpr
        fun p hp => Option.isSome_iff_ne_none.mpr (hnot p hp)
      rw [ha] at hsome
      cases hsome
  | some a =>
      by_cases hon : w.dispatcher = true
      · cases hk : u.kind with
        | pc kind => exact comes_pc hs ho ha hon hk
        | dc kind => exact comes_dc hs ho ha hon hk
        | log => exact comes_log ho ha hon hk
      · have hup : w.upcall u = .ok none := by
          simp only [upcall, ha, hon]
          rfl
        rw [hup]
        exact .cleared (u.args?_isSome_iff.mp (Option.isSome_of_eq_some ha))
          ((Bool.not_eq_true _).mp hon)

/-- A state change that means something has a number in range. -/
theorem known_of_report? {kind : PcKind} {d : StreamWorld.Dispatch} {state : Int}
    {states : Nat} (htexts : ∀ p ∈ u.texts, p.toStr?.isSome) (hk : u.kind = .pc kind)
    (hr : StreamWorld.report? u = some d)
    (hst : StreamWorld.state? u = some (state, states)) : 0 ≤ state ∧ state < states := by
  obtain ⟨a, ha⟩ := Option.isSome_iff_exists.mp (u.args?_isSome_iff.mpr htexts)
  by_contra hout
  have hnone := (StreamWorld.report?_eq_none_iff ha hk).mpr ⟨state, states, hst, hout⟩
  cases hr.symm.trans hnone

/-- The list leaves no choice: its guards exclude one another, and one
object stands for a handle. -/
theorem Comes.unique (hs : Sound w) {r r' : Except UpcallError (Option Heard)}
    (h : Comes w u r) (h' : Comes w u r') : r = r' := by
  have hpcs := @live_unique _ _ hs.pcs
  have hdcs := @live_unique _ _ hs.dcs
  cases h <;> cases h' <;> grind [→ known_of_report?, Upcall.kind]

/-- In every state of every run in which the wrappers register their own
methods, every upcall comes to what the list says, and to nothing
else. -/
theorem upcall_exact {acts : List (Action Bound PyValue)}
    (hown : ∀ a ∈ acts, a.owns = true) (h : exec apply init acts = some w)
    (u : Upcall) (r : Except UpcallError (Option Heard)) :
    w.upcall u = r ↔ Comes w u r := by
  have hs : Sound w := (sound_exec sound_init h).1
  have hall := comes_upcall hs (owned_exec hown owned_init h) u
  constructor
  · rintro rfl
    exact hall
  · exact hall.unique hs

/-- Two connections and a channel, the first connection destroyed while
reports for it are under way. -/
def servedRun : List (Action Bound PyValue) :=
  [.createPc 1, .op (.setOnPc 0 .stateChange (.pc 0 .stateChange)), .createPc 2,
    .op (.setOnPc 1 .stateChange (.pc 1 .stateChange)), .createDc 3,
    .op (.setOnDc 0 .message (.dc 0 .message)), .op (.initLogger (some (.logger 0))),
    .op (.destroyPc 0)]

theorem upcall_exact_servedRun :
    ∃ w, exec apply init servedRun = some w
      ∧ Comes w (.stateChange 2 5) (.ok (some (.pc 1 (.stateChange .closed))))
      ∧ Comes w (.stateChange 1 5) (.ok none)
      ∧ Comes w (.stateChange 2 6) (.error (.callback .valueError))
      ∧ Comes w (.dcMessage 3 (some [104, 105, 0]) (-3))
          (.ok (some (.dc 0 (.message (.str (PyStr.ofChars ['h', 'i']))))))
      ∧ Comes w (.dcMessage 3 (some [255, 0]) (-2)) (.error .notText) := by
  have hexact := @upcall_exact _ servedRun (by decide) rfl
  refine ⟨_, rfl, (hexact _ _).mp ?_, (hexact _ _).mp ?_, (hexact _ _).mp ?_,
    (hexact _ _).mp ?_, (hexact _ _).mp ?_⟩
  · rfl
  · rfl
  · rfl
  · rfl
  · rfl

end CoreWorld

end AioLibDataChannel
