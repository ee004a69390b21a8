/-
What becomes of a negotiation call when its connection is closed.

Neither `close()` nor `_teardown` settles a slot. Once the native delete
has returned no call is accepted any more, and a waiter depends on a
callback that was scheduled before it did (`Shutdown.Promised`); once the
loop knows, it depends on nothing.

`noneHanging_of_settledFirst` gives the condition under which every
waiter has such a callback, and `noneHanging_after_iff` says it is the
exact one: where it fails, the loop has only to go on for a call to be
left behind. `closed_leaves_hanging` are two runs that miss it, one with
a call that started before `close()` and one with a call that started
during the delete.
-/
import AioLibDataChannel.PeerConnection.Negotiation
import Mathlib.Data.List.TakeWhile

namespace AioLibDataChannel

open Transition (exec)

-- ============================================================ the promise

/-- The teardown task has been told that the destroy is over. -/
def PcTeardown.told : PcTeardown → Bool
  | .destroying .delivered => true
  | .finished => true
  | _ => false

namespace Shutdown

variable {s s' : Shutdown} {a : PcAction} {slot : Negotiation}

/-- The callbacks that run before the end of the destroy is known. -/
def ahead (s : Shutdown) : List PcCallback :=
  s.ready.takeWhile (· ≠ .destroyDone)

/-- Once the native delete has returned, this slot will still be settled
before the loop knows. -/
def Promised (slot : Negotiation) (s : Shutdown) : Prop :=
  s.teardown.deletedNative = true →
    s.teardown.told = false ∧ ∃ cb ∈ s.ahead, cb.settles slot = true

/-- As long as the destroy has not reported, all that is ready is ahead of
it. -/
theorem ahead_eq_ready (h : PcCallback.destroyDone ∉ s.ready) : s.ahead = s.ready := by
  rw [ahead, List.takeWhile_eq_self_iff]
  intro cb hcb
  exact decide_eq_true fun heq => h (heq ▸ hcb)

/-- Callbacks scheduled later take nothing from those ahead. -/
theorem mem_takeWhile_append {cb : PcCallback} {p : PcCallback → Bool}
    {ready more : List PcCallback} (h : cb ∈ ready.takeWhile p) :
    cb ∈ (ready ++ more).takeWhile p := by
  rw [List.takeWhile_append]
  split
  · exact List.mem_append_left _ (List.takeWhile_subset p h)
  · exact h

/-- A callback that does not settle the slot is not the promised one. -/
theorem promised_rest {e : PcEvent} {rest : List PcCallback}
    (hr : s.ready = .event e :: rest) (he : e.settles slot = false)
    (h : ∃ cb ∈ s.ahead, cb.settles slot = true) :
    ∃ cb ∈ rest.takeWhile (· ≠ .destroyDone), cb.settles slot = true := by
  obtain ⟨cb, hcb, hs⟩ := h
  rw [ahead, hr, List.takeWhile_cons, if_pos (by rfl)] at hcb
  rcases List.mem_cons.mp hcb with rfl | hcb
  · exact absurd (hs.symm.trans he) nofun
  · exact ⟨cb, hcb, hs⟩

/-- The promise is kept by every step but the end of the delete, which
makes it, and until the slot is settled. -/
theorem Promised.step (hp : s.Promised slot) (h : ShutdownStep s a s')
    (hi : Orderly s) (hend : a ≠ .native .endDestroy)
    (hrun : a = .loop .dispatch → ∀ e rest, s.ready = .event e :: rest →
      e.settles slot = false) : s'.Promised slot := by
  cases h with
  | deleted => exact absurd rfl hend
  | scheduled n e _ =>
      intro hd
      obtain ⟨htold, cb, hcb, hs⟩ := hp hd
      exact ⟨htold, cb, mem_takeWhile_append hcb, hs⟩
  | ran e rest hr _ =>
      intro hd
      obtain ⟨htold, hahead⟩ := hp hd
      exact ⟨htold, promised_rest hr (hrun rfl e rest hr) hahead⟩
  | incoming handle rest hr =>
      intro hd
      obtain ⟨htold, hahead⟩ := hp hd
      exact ⟨htold, promised_rest hr (hrun rfl _ rest hr) hahead⟩
  | told rest hr =>
      have ht := (hi.of_told hr).1
      obtain ⟨-, cb, hcb, -⟩ := hp (by rw [ht]; rfl)
      rw [ahead, hr] at hcb
      cases hcb
  | ends ht =>
      have htold := (hp (by rw [ht]; rfl)).1
      rw [ht] at htold
      cases htold
  | begun => exact nofun
  | closes => exact nofun
  | gathers => exact nofun
  | walks => exact nofun
  | _ => exact hp

/-- The native delete returns once. -/
theorem deletedNative_step (hi : Orderly s) (h : ShutdownStep s a s')
    (hd : s.teardown.deletedNative = true) : s'.teardown.deletedNative = true := by
  cases h with
  | closes _ _ hc =>
      rw [hi.closed.mp hc] at hd
      cases hd
  | begun ht =>
      rw [ht] at hd
      cases hd
  | gathers _ ht =>
      rw [ht] at hd
      cases hd
  | walks _ _ ht =>
      rcases ht with ht | ⟨tasks, ht⟩ <;> rw [ht] at hd <;> cases hd
  | deleted _ => rfl
  | told _ _ => rfl
  | ends _ => rfl
  | _ => exact hd

end Shutdown

namespace PcWorld

variable {w w' : PcWorld} {a : PcAction}

-- ========================================================= nobody hangs

/-- Once the closed event is set, no negotiation call is suspended on a
pending future. -/
def NoneHanging (w : PcWorld) : Prop :=
  w.pc.closedEvent.value = true → ∀ t slot, ¬ Waits w t slot

/-- Each waiting call has a callback scheduled that settles its slot. -/
def Served (w : PcWorld) : Prop :=
  ∀ t slot, Waits w t slot → ∃ cb ∈ w.ready, cb.settles slot = true

/-- The native delete does not return before each waiting call has its
callback scheduled. -/
def SettledFirst (a : PcAction) (w : PcWorld) : Prop :=
  a = .native .endDestroy → w.pc.teardownTask = .destroying .begun → Served w

/-- There is nothing to ask once the delete has returned. -/
theorem settledFirst_of_deleted (hd : w.pc.teardownTask.deletedNative = true) :
    SettledFirst a w := by
  intro _ ht
  rw [ht] at hd
  cases hd

/-- Every waiter has a promise. -/
def Sheltered (w : PcWorld) : Prop :=
  ∀ t slot, Waits w t slot → w.shutdown.Promised slot

/-- A negotiation call is no step of the shutdown. -/
theorem shutdown_of_starts {t : TaskId} {slot : Negotiation} (hs : Starts w a t slot)
    (h : apply a w = some w') : w'.shutdown = w.shutdown := by
  cases hs with
  | offer t _ => exact shutdown_createOffer (started_eq h).1
  | answer t => exact shutdown_createDescription (started_eq h).1
  | setLocal t => exact shutdown_setLocalDescription (started_eq h).1

/-- A callback that is scheduled when the delete returns runs before the
loop knows of it. -/
theorem promised_of_end {slot : Negotiation} (hi : Orderly w.shutdown)
    (hserved : w.pc.teardownTask = .destroying .begun →
      ∃ cb ∈ w.ready, cb.settles slot = true)
    (h : w.endDestroy = some w') : w'.shutdown.Promised slot := by
  unfold endDestroy at h
  split at h
  next ht =>
    cases h
    have hnot : PcCallback.destroyDone ∉ w.ready :=
      hi.destroyDone_not_mem (s := w.shutdown) fun hd => nomatch ht.symm.trans hd
    obtain ⟨cb, hcb, hs⟩ := hserved ht
    have hahead : cb ∈ w.shutdown.ahead := by
      rw [Shutdown.ahead_eq_ready (s := w.shutdown) hnot]
      exact hcb
    exact fun _ => ⟨rfl, cb, Shutdown.mem_takeWhile_append hahead, hs⟩
  next => cases h

/-- A step that settles first keeps a promise for every waiter. -/
theorem sheltered_apply (hw : Ticketed w) (hi : Orderly w.shutdown) (hs : Sheltered w)
    (hok : SettledFirst a w) (h : apply a w = some w') : Sheltered w' := by
  intro t slot hwait'
  rcases waits_apply hw h hwait' with hwait | ⟨hstarts, hlive, -⟩
  · by_cases hend : a = .native .endDestroy
    · subst hend
      exact promised_of_end hi (fun ht => hok rfl ht t slot hwait) h
    · refine (hs t slot hwait).step (shutdown_step h) hi hend ?_
      intro heq e rest hr
      subst heq
      rw [← Bool.not_eq_true]
      exact fun hsettles => not_waits_of_settles hr hsettles h hwait'
  · rw [shutdown_of_starts hstarts h]
    exact fun hd => absurd (hi.gone hd) hlive

/-- With promises kept, nobody waits once the closed event is set. -/
theorem noneHanging_of_sheltered (hi : Orderly w.shutdown) (hs : Sheltered w) :
    NoneHanging w := by
  intro hflag t slot hwait
  have ht : w.shutdown.teardown = .finished := hi.flag.mp hflag
  have htold := (hs t slot hwait (by rw [ht]; rfl)).1
  rw [ht] at htold
  cases htold

/-- What the run below keeps. -/
structure HangingInv (w : PcWorld) : Prop where
  ticketed : Ticketed w
  orderly : Orderly w.shutdown
  sheltered : Sheltered w

/-- Every step that settles first keeps the invariant. -/
theorem hangingInv_apply (hi : HangingInv w) (hok : SettledFirst a w)
    (h : apply a w = some w') : HangingInv w' where
  ticketed := ticketed_apply hi.ticketed h
  orderly := orderly_apply hi.orderly h
  sheltered := sheltered_apply hi.ticketed hi.orderly hi.sheltered hok h

/-- Nobody waits at the start. -/
theorem not_waits_init (handle : Int) (core : Core) (t : TaskId) (slot : Negotiation) :
    ¬ Waits (init handle core) t slot := by
  intro hex
  obtain ⟨k, hk, -⟩ := hex
  cases t <;> cases hk

/-- The invariant holds of a new connection. -/
theorem hangingInv_init (handle : Int) (core : Core) :
    HangingInv (init handle core) where
  ticketed := ticketed_init handle core
  orderly := orderly_init handle core
  sheltered := fun t slot hwait => absurd hwait (not_waits_init handle core t slot)

/-- Along a run whose steps settle first, a closed connection leaves no
negotiation call behind. -/
theorem noneHanging_of_settledFirst (handle : Int) (core : Core) (as : List PcAction)
    (hok : ∀ a w, Transition.Takes apply (init handle core) as a w → SettledFirst a w) :
    ∀ w, Transition.Visits apply (init handle core) as w → NoneHanging w := by
  intro w hvisit
  have hinv := Transition.visits_of_takes (hangingInv_init handle core)
    (fun hi hstep h => hangingInv_apply hi hstep h) hok w hvisit
  exact noneHanging_of_sheltered hinv.orderly hinv.sheltered

-- ============================================================ exactness

/-- A callback that does not settle the slot leaves who waits for it. -/
theorem dispatch_unsettling {t : TaskId} {slot : Negotiation} {e : PcEvent}
    {rest : List PcCallback} (hr : w.ready = .event e :: rest)
    (he : e.settles slot = false) (hwait : Waits w t slot) :
    ∃ w', w.dispatch = some w' ∧ w'.ready = rest
      ∧ w'.pc.teardownTask = w.pc.teardownTask ∧ Waits w' t slot := by
  obtain ⟨k, hk, hs⟩ := hwait
  simp only [dispatch, hr]
  cases e with
  | localDescription desc =>
      cases slot with
      | localDescription => cases he
      | gatheringComplete => exact ⟨_, rfl, rfl, rfl, k, hk, hs⟩
  | gatheringStateChange state =>
      refine ⟨_, rfl, rfl, rfl, k, hk, ?_⟩
      cases slot with
      | localDescription => exact hs
      | gatheringComplete =>
          rw [PeerConnection.handleGatheringState, if_neg (of_decide_eq_false he)]
          exact hs
  | stateChange state =>
      have hstate : ¬ (state = .closed ∨ state = .failed) := by
        cases slot <;> exact of_decide_eq_false he
      have hpc : w.pc.handleStateChange state = { w.pc with state := state } := by
        rw [PeerConnection.handleStateChange, if_neg hstate]
      simp only [hpc]
      exact ⟨_, rfl, rfl, rfl, k, hk, by cases slot <;> exact hs⟩
  | dataChannel handle => exact ⟨_, rfl, rfl, rfl, k, hk, hs⟩

/-- So do any number of them. -/
theorem exec_unsettling {t : TaskId} {slot : Negotiation} {es : List PcEvent}
    {back : List PcCallback} (hr : w.ready = es.map .event ++ back)
    (he : ∀ e ∈ es, e.settles slot = false) (hwait : Waits w t slot) :
    ∃ w', exec apply w (List.replicate es.length (.loop .dispatch)) = some w'
      ∧ w'.ready = back ∧ w'.pc.teardownTask = w.pc.teardownTask
      ∧ Waits w' t slot := by
  induction es generalizing w with
  | nil => exact ⟨w, rfl, hr, rfl, hwait⟩
  | cons e es ih =>
      obtain ⟨m, hm, hmr, hmt, hmw⟩ :=
        dispatch_unsettling hr (he e List.mem_cons_self) hwait
      obtain ⟨w', hw', hr', ht', hwait'⟩ :=
        ih hmr (fun e' he' => he e' (List.mem_cons_of_mem e he')) hmw
      refine ⟨w', ?_, hr', ht'.trans hmt, hwait'⟩
      exact (Transition.exec_cons hm).trans hw'

/-- Without the destroy's, callbacks are events. -/
theorem eq_map_event {ready : List PcCallback} (h : PcCallback.destroyDone ∉ ready) :
    ∃ es : List PcEvent, ready = es.map .event := by
  induction ready with
  | nil => exact ⟨[], rfl⟩
  | cons cb rest ih =>
      obtain ⟨es, hes⟩ := ih fun hm => h (List.mem_cons_of_mem cb hm)
      cases cb with
      | event e => exact ⟨e :: es, by rw [hes]; rfl⟩
      | destroyDone => exact absurd List.mem_cons_self h

/-- A call without a callback is left behind if the loop just goes on to
the end of the teardown. -/
theorem hanging_of_unserved {t : TaskId} {slot : Negotiation} (hi : Orderly w.shutdown)
    (ht : w.pc.teardownTask = .destroying .begun) (hwait : Waits w t slot)
    (hnone : ∀ cb ∈ w.ready, cb.settles slot = false) :
    ∃ as v, exec apply w (.native .endDestroy :: as) = some v ∧ ¬ NoneHanging v := by
  have hnot : PcCallback.destroyDone ∉ w.ready :=
    hi.destroyDone_not_mem (s := w.shutdown) fun hd => nomatch ht.symm.trans hd
  obtain ⟨es, hes⟩ := eq_map_event hnot
  -- the delete returns
  obtain ⟨m, hm, hmr, hmw⟩ : ∃ m, apply (.native .endDestroy) w = some m
      ∧ m.ready = es.map .event ++ [.destroyDone] ∧ Waits m t slot := by
    simp only [apply, applyNative, endDestroy, ht]
    refine ⟨_, rfl, by rw [hes], ?_⟩
    obtain ⟨k, hk, hs⟩ := hwait
    exact ⟨k, hk, by cases slot <;> exact hs⟩
  -- what was scheduled before runs
  obtain ⟨u, hu, hur, -, k, hk, hs⟩ := exec_unsettling hmr
    (fun e he => hnone (.event e) (by rw [hes]; exact List.mem_map_of_mem he)) hmw
  -- the loop is told, and the teardown ends
  have hlast : ∃ v, exec apply u [.loop .dispatch, .loop .endTeardown] = some v
      ∧ v.pc.closedEvent.value = true ∧ Waits v t slot := by
    simp only [exec, apply, applyLoop, dispatch, hur, endTeardown]
    exact ⟨_, rfl, rfl, k, hk, by cases slot <;> exact hs⟩
  obtain ⟨v, hv, hflag, hwaitv⟩ := hlast
  refine ⟨List.replicate es.length (.loop .dispatch)
    ++ [.loop .dispatch, .loop .endTeardown], v, ?_, ?_⟩
  · rw [Transition.exec_cons hm, Transition.exec_append, hu]
    exact hv
  · exact fun hnone => hnone hflag t slot hwaitv

/-- As the native delete is about to return, no continuation leaves a
negotiation call behind exactly when each waiting call is served. -/
theorem noneHanging_after_iff {handle : Int} {core : Core}
    (hreach : Transition.Reachable apply (init handle core) w)
    (ht : w.pc.teardownTask = .destroying .begun) :
    (∀ as v, exec apply w (.native .endDestroy :: as) = some v → NoneHanging v)
      ↔ Served w := by
  have hinv : Ticketed w ∧ Orderly w.shutdown :=
    hreach.invariant (P := fun w => Ticketed w ∧ Orderly w.shutdown)
      ⟨ticketed_init handle core, orderly_init handle core⟩
      fun hi h => ⟨ticketed_apply hi.1 h, orderly_apply hi.2 h⟩
  constructor
  · intro hall t slot hwait
    by_contra hnone
    obtain ⟨as, v, hv, hhang⟩ := hanging_of_unserved hinv.2 ht hwait
      fun cb hcb => Bool.eq_false_iff.mpr fun hs => hnone ⟨cb, hcb, hs⟩
    exact hhang (hall as v hv)
  · intro hserved as v hv
    have hpending : w.shutdown.teardown.deletedNative ≠ true := by
      rw [show w.shutdown.teardown = .destroying .begun from ht]
      exact Bool.false_ne_true
    have hstart : HangingInv w :=
      ⟨hinv.1, hinv.2, fun t slot _ hd => absurd hd hpending⟩
    obtain ⟨m, hm, hrest⟩ := Transition.exec_cons_cases hv
    have hdone : m.shutdown.teardown.deletedNative = true := by
      have hstep := shutdown_step hm
      generalize m.shutdown = s at hstep ⊢
      cases hstep
      rfl
    have hend := (Transition.reachable_of_exec hrest).invariant
      (P := fun u => HangingInv u ∧ u.shutdown.teardown.deletedNative = true)
      ⟨hangingInv_apply hstart (fun _ _ => hserved) hm, hdone⟩
      (fun hi h => ⟨hangingInv_apply hi.1 (settledFirst_of_deleted hi.2) h,
        Shutdown.deletedNative_step hi.1.orderly (shutdown_step h) hi.2⟩)
    exact noneHanging_of_sheltered hend.1.orderly hend.1.sheltered

-- ================================================================== runs

/-- An offer waits when its connection is closed, and the report that
the native connection closed is scheduled before the delete returns. -/
def reportedRun : List PcAction :=
  [.loop (.createOffer (.user 0) (.ok ())), .loop .close, .loop .startTeardown,
    .native (.fire (.stateChange .closed)), .native (.schedule 0),
    .native .beginDestroy, .native .endDestroy, .loop .dispatch,
    .loop (.resume (.user 0) (.ok (some "v=0", some "offer"))), .loop .dispatch,
    .loop .endTeardown]

/-- The report is scheduled before the delete returns. -/
theorem settledFirst_reportedRun :
    ∀ a w, Transition.Takes apply (init 1 ⟨[], [], [], []⟩) reportedRun a w →
      SettledFirst a w := by
  refine Transition.takes_of_only 6 rfl rfl ?_ ?_
  · intro _ _ t slot _
    exact ⟨.event (.stateChange .closed), List.mem_cons_self, by cases slot <;> rfl⟩
  · simp [reportedRun, SettledFirst]

/-- `noneHanging_of_settledFirst` at `reportedRun`. -/
theorem noneHanging_reportedRun :
    ∃ w, exec apply (init 1 ⟨[], [], [], []⟩) reportedRun = some w
      ∧ w.pc.closedEvent.value = true ∧ NoneHanging w :=
  ⟨_, rfl, rfl, noneHanging_of_settledFirst 1 ⟨[], [], [], []⟩ reportedRun
    settledFirst_reportedRun _ (Transition.visits_end rfl)⟩

/-- An offer waits when its connection is closed. -/
def closedOfferRun : List PcAction :=
  [.loop (.createOffer (.user 0) (.ok ())), .loop .close, .loop .startTeardown,
    .native .beginDestroy, .native .endDestroy, .loop .dispatch, .loop .endTeardown]

/-- `set_local_description` is called while the native delete is under
way. -/
def lateLocalRun : List PcAction :=
  [.loop .close, .loop .startTeardown, .native .beginDestroy,
    .loop (.setLocalDescription (.user 0) (.ok ())), .native .endDestroy,
    .loop .dispatch, .loop .endTeardown]

/-- After either run the closed event is set and the call is suspended
for good: no callback is on its way. -/
theorem closed_leaves_hanging :
    (∃ w, exec apply (init 1 ⟨[], [], [], []⟩) closedOfferRun = some w
        ∧ w.pc.closedEvent.value = true ∧ w.Waits (.user 0) .gatheringComplete
        ∧ w.ready = [] ∧ w.inFlight = [])
      ∧ ∃ w, exec apply (init 1 ⟨[], [], [], []⟩) lateLocalRun = some w
          ∧ w.pc.closedEvent.value = true ∧ w.Waits (.user 0) .localDescription
          ∧ w.ready = [] ∧ w.inFlight = [] :=
  ⟨⟨_, rfl, rfl, ⟨_, rfl, rfl⟩, rfl, rfl⟩, ⟨_, rfl, rfl, ⟨_, rfl, rfl⟩, rfl, rfl⟩⟩

end PcWorld

end AioLibDataChannel
