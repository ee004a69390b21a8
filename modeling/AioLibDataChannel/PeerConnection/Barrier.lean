/-
The shutdown of a connection is one barrier.

`close()` and `aclose()` share a flag, so one of them creates the
teardown, and `spawn_task` asks for the same flag, so the owned set only
shrinks from then on. The snapshot `_teardown` awaits covers that set
(`CustodyInv`), the set covers every task that was ever spawned and is
not done, and the native delete is one step of the teardown. What ends
`aclose()` and `wait_closed()` is the event at the end of it.

A task that catches its cancellation, or calls back into the shutdown,
is no special case: until it is done, the snapshot has it.
-/
import AioLibDataChannel.PeerConnection.Channels
import AioLibDataChannel.PeerConnection.Tasks

namespace AioLibDataChannel

open Asyncio (Event Future Outcome)
open Function (update)
open Transition (exec)

-- ============================================================ vocabulary

/-- `close()`, or `aclose()`, which begins with it. -/
def PcAction.closes : PcAction → Bool
  | .loop .close => true
  | .loop (.aclose _) => true
  | _ => false

/-- The teardown's own steps, and the callbacks it waits behind. -/
def PcAction.ofTeardown : PcAction → Bool
  | .loop .startTeardown => true
  | .loop .resumeTeardown => true
  | .native .beginDestroy => true
  | .native .endDestroy => true
  | .loop .dispatch => true
  | .loop .endTeardown => true
  | _ => false

/-- The tasks `_teardown` awaits. -/
def PcTeardown.snapshot : PcTeardown → List TaskId
  | .gathering snapshot => snapshot
  | _ => []

namespace Shutdown

variable {s s' : Shutdown} {a : PcAction}

/-- Only a close closes. -/
theorem closed_step (h : ShutdownStep s a s') (ha : a.closes = false) :
    s'.closed = s.closed := by
  cases h with
  | closes b hb _ => rcases hb with rfl | ⟨t, rfl⟩ <;> cases ha
  | _ => rfl

/-- Only the start of `_teardown` takes a snapshot. -/
theorem gathering_step {snapshot : List TaskId} (h : ShutdownStep s a s')
    (ha : a ≠ .loop .startTeardown) (ht : s'.teardown = .gathering snapshot) :
    s.teardown = .gathering snapshot := by
  cases h with
  | gathers tasks _ => exact absurd rfl ha
  | begun _ => cases ht
  | deleted _ => cases ht
  | told rest _ => cases ht
  | closes b _ _ => cases ht
  | walks b _ _ => cases ht
  | ends _ => cases ht
  | _ => exact ht

/-- Only `_teardown` past its owned tasks submits the destroy. -/
theorem submitted_step (hi : Orderly s) (h : ShutdownStep s a s')
    (ha : a ≠ .loop .startTeardown) (ha' : a ≠ .loop .resumeTeardown)
    (ht : s'.teardown.submitted = true) : s.teardown.submitted = true := by
  cases h with
  | walks b hb _ =>
      rcases hb with rfl | rfl
      · exact absurd rfl ha
      · exact absurd rfl ha'
  | begun hs => rw [hs]; rfl
  | deleted hs => rw [hs]; rfl
  | told rest hr => rw [(hi.of_told hr).1]; rfl
  | ends hs => rw [hs]; rfl
  | closes b _ _ => cases ht
  | gathers tasks _ => cases ht
  | _ => exact ht

/-- The handles deleted so far are those from before, and this
connection's once the native delete has returned. -/
def DeletedOnce (handle : Int) (before : List Int) (s : Shutdown) : Prop :=
  s.native.handle = handle
    ∧ s.core.deletedPcs
      = before ++ if s.teardown.deletedNative = true then [handle] else []

/-- The native delete is made once, and nothing else deletes. -/
theorem DeletedOnce.step {handle : Int} {before : List Int}
    (hd : s.DeletedOnce handle before) (hi : Orderly s) (h : ShutdownStep s a s') :
    s'.DeletedOnce handle before := by
  obtain ⟨hhandle, hdel⟩ := hd
  cases h with
  | begun ht =>
      rw [ht] at hdel
      exact ⟨hhandle, hdel⟩
  | deleted ht =>
      rw [ht] at hdel
      refine ⟨hhandle, ?_⟩
      show s.core.deletedPcs ++ [s.native.handle] = _
      rw [hdel, hhandle]
      exact congrArg (· ++ [handle]) (List.append_nil before)
  | told rest hr =>
      rw [(hi.of_told hr).1] at hdel
      exact ⟨hhandle, hdel⟩
  | closes b _ hc =>
      rw [hi.closed.mp hc] at hdel
      exact ⟨hhandle, hdel⟩
  | gathers tasks ht =>
      rw [ht] at hdel
      exact ⟨hhandle, hdel⟩
  | walks b _ ht =>
      refine ⟨hhandle, ?_⟩
      show (PcWorld.destroyAll s.core s.channels).1.deletedPcs = _
      rw [PcWorld.destroyAll_deletedPcs, hdel]
      rcases ht with ht | ⟨tasks, ht⟩ <;> rw [ht] <;> rfl
  | ends ht =>
      rw [ht] at hdel
      exact ⟨hhandle, hdel⟩
  | closesChannel n c _ =>
      refine ⟨hhandle, ?_⟩
      show (c.destroy s.core).1.deletedPcs = _
      rw [ChannelRef.destroy_deletedPcs]
      exact hdel
  | _ => exact ⟨hhandle, hdel⟩

end Shutdown

namespace PcWorld

variable {w w' : PcWorld} {a : PcAction} {t : TaskId}

-- ========================================================== the one close

/-- The step gets to the last line of `close()`, which creates the
teardown task. -/
def createsTeardown (a : PcAction) (w : PcWorld) : Bool := a.closes && !w.pc.closed

/-- `close()` closes. -/
theorem closed_close (w : PcWorld) : w.close.pc.closed = true := by
  unfold close
  split
  next hc => exact hc
  next =>
    exact congrArg Shutdown.closed (shutdown_cancelTasks w.pc.tasks
      { w with pc := { w.pc with closed := true } })

/-- A step has the connection closed if it was or if it closes. -/
theorem closed_apply (h : apply a w = some w') :
    w'.pc.closed = (w.pc.closed || a.closes) := by
  cases ha : a.closes with
  | false =>
      rw [Bool.or_false]
      exact Shutdown.closed_step (shutdown_step h) ha
  | true =>
      rw [Bool.or_true]
      cases a with
      | native a => cases ha
      | loop a =>
          cases a with
          | close =>
              cases h
              exact closed_close w
          | aclose u =>
              cases (started_eq h).1
              exact (congrArg Shutdown.closed (shutdown_awaitClosed .aclose u w.close)).trans
                (closed_close w)
          | _ => cases ha

/-- A run has, if one of its steps does. -/
theorem closed_exec {as : List PcAction} (h : exec apply w as = some w') :
    w'.pc.closed = (w.pc.closed || as.any PcAction.closes) := by
  induction as generalizing w with
  | nil =>
      cases h
      exact (Bool.or_false _).symm
  | cons a rest ih =>
      obtain ⟨m, hm, hrest⟩ := Transition.exec_cons_cases h
      rw [ih hrest, closed_apply hm, Bool.or_assoc]
      rfl

/-- Such a step is one that takes `_teardown_task` from `None` to a
task. -/
theorem createsTeardown_iff (hi : Orderly w.shutdown) (h : apply a w = some w') :
    createsTeardown a w = true
      ↔ w.pc.teardownTask = .absent ∧ w'.pc.teardownTask ≠ .absent := by
  have hbefore : w.pc.closed = false ↔ w.pc.teardownTask = .absent := hi.closed
  have hafter : w'.pc.closed = false ↔ w'.pc.teardownTask = .absent :=
    (orderly_apply hi h).closed
  rw [← hbefore, Ne, ← hafter, closed_apply h, createsTeardown]
  cases w.pc.closed <;> cases a.closes <;> decide

-- ========================================================= the owned tasks

/-- Every task the connection ever spawned is done. -/
def OwnedDone (w : PcWorld) : Prop :=
  ∀ n, w.task (.ofConnection n) = .unborn ∨ w.task (.ofConnection n) = .done

/-- The set covers the tasks the connection spawned, the snapshot covers
the set, and past both every one of those tasks is done. -/
structure CustodyInv (w : PcWorld) : Prop where
  owned : ∀ n, w.task (.ofConnection n) = .unborn ∨ w.task (.ofConnection n) = .done
    ∨ .ofConnection n ∈ w.pc.tasks
  spawned : ∀ t, t ∈ w.pc.tasks ∨ t ∈ w.pc.teardownTask.snapshot →
    ∃ n, t = .ofConnection n ∧ w.task t ≠ .unborn
  covered : ∀ snapshot, w.pc.teardownTask = .gathering snapshot →
    ∀ t ∈ w.pc.tasks, t ∈ snapshot
  past : w.pc.teardownTask.submitted = true → OwnedDone w

/-- Only a task that is alive moves, and it moves to no unborn state. -/
theorem Moves.done (h : Moves w w') (hd : w.task t = .done) : w'.task t = .done := by
  rcases h with htask | ⟨u, st, hedge, htask⟩
  · rw [htask]
    exact hd
  · rw [htask]
    by_cases hut : t = u
    · subst hut
      exact absurd hd hedge.alive.2.1
    · rw [Function.update_of_ne hut]
      exact hd

/-- A step that moves a task spawns none. -/
theorem Moves.unborn_iff (h : Moves w w') : w'.task t = .unborn ↔ w.task t = .unborn := by
  rcases h with htask | ⟨u, st, hedge, htask⟩
  · rw [htask]
  · rw [htask]
    by_cases hut : t = u
    · subst hut
      rw [Function.update_self]
      exact ⟨fun hst => absurd hst hedge.alive.2.2, fun hst => absurd hst hedge.alive.1⟩
    · rw [Function.update_of_ne hut]

/-- Tasks that are done stay done. -/
theorem OwnedDone.of_moves (hd : OwnedDone w) (h : Moves w w') : OwnedDone w' :=
  fun n => (hd n).imp h.unborn_iff.mpr h.done

/-- Past the gather every task the connection spawned is done. -/
theorem ownedDone_of_past (hi : CustodyInv w) (hp : PastGather w) : OwnedDone w := by
  intro n
  rcases hi.owned n with h | h | h
  · exact Or.inl h
  · exact Or.inr h
  · rcases hp with ⟨-, hnil⟩ | ⟨snapshot, hs, hall⟩
    · rw [hnil] at h
      cases h
    · exact Or.inr (hall _ (hi.covered snapshot hs _ h))

-- ================================================= where the teardown stands

/-- A snapshot is the owned set as `_teardown` found it. -/
theorem gathering_apply {snapshot : List TaskId} (h : apply a w = some w')
    (ht : w'.pc.teardownTask = .gathering snapshot) :
    w.pc.teardownTask = .gathering snapshot ∨ snapshot = w.pc.tasks := by
  by_cases ha : a = .loop .startTeardown
  · subst ha
    obtain ⟨-, ⟨-, rfl⟩ | rfl⟩ := startTeardown_cases h
    · cases ht
    · cases ht
      exact Or.inr rfl
  · exact Or.inl (Shutdown.gathering_step (shutdown_step h) ha ht)

/-- The destroy is submitted when the teardown is past its tasks. -/
theorem submitted_apply (hi : Orderly w.shutdown) (h : apply a w = some w')
    (ht : w'.pc.teardownTask.submitted = true) :
    w.pc.teardownTask.submitted = true ∨ PastGather w := by
  by_cases ha : a = .loop .startTeardown
  · subst ha
    obtain ⟨hc, ⟨hnil, -⟩ | rfl⟩ := startTeardown_cases h
    · exact Or.inr (Or.inl ⟨hc, hnil⟩)
    · cases ht
  · by_cases ha' : a = .loop .resumeTeardown
    · subst ha'
      exact Or.inr (resumeTeardown_cases h).2
    · exact Or.inl (Shutdown.submitted_step hi (shutdown_step h) ha ha' ht)

-- =========================================================== the invariant

/-- A new connection has spawned nothing. -/
theorem custodyInv_init (handle : Int) (core : Core) :
    CustodyInv (init handle core) where
  owned := fun _ => Or.inl rfl
  spawned := by
    intro t ht
    rcases ht with ht | ht <;> cases ht
  covered := nofun
  past := nofun

/-- A step that spawns nothing. -/
theorem CustodyInv.of_moves (hi : CustodyInv w) (ho : Orderly w.shutdown)
    (h : apply a w = some w') (hm : Moves w w')
    (hsub : ∀ u ∈ w'.pc.tasks, u ∈ w.pc.tasks)
    (hkeep : ∀ u ∈ w.pc.tasks, w.task u = .done ∨ u ∈ w'.pc.tasks) :
    CustodyInv w' where
  owned := by
    intro n
    rcases hi.owned n with hu | hd | hmem
    · exact Or.inl (hm.unborn_iff.mpr hu)
    · exact Or.inr (Or.inl (hm.done hd))
    · exact Or.inr ((hkeep _ hmem).imp hm.done id)
  spawned := by
    intro u hu
    have hold : u ∈ w.pc.tasks ∨ u ∈ w.pc.teardownTask.snapshot := by
      rcases hu with hu | hu
      · exact Or.inl (hsub u hu)
      · cases ht : w'.pc.teardownTask with
        | gathering snapshot =>
            rw [ht] at hu
            rcases gathering_apply h ht with hs | rfl
            · rw [hs]
              exact Or.inr hu
            · exact Or.inl hu
        | _ =>
            rw [ht] at hu
            cases hu
    obtain ⟨n, hn, hborn⟩ := hi.spawned u hold
    exact ⟨n, hn, fun hu' => hborn (hm.unborn_iff.mp hu')⟩
  covered := by
    intro snapshot ht u hu
    rcases gathering_apply h ht with hs | rfl
    · exact hi.covered snapshot hs u (hsub u hu)
    · exact hsub u hu
  past := by
    intro ht
    rcases submitted_apply ho h ht with hs | hp
    · exact (hi.past hs).of_moves hm
    · exact (ownedDone_of_past hi hp).of_moves hm

/-- `spawn_task` succeeds only before there is a teardown. -/
theorem CustodyInv.spawns {n : Nat} (hi : CustodyInv w) (ho : Orderly w.shutdown)
    (h : Spawns n w w') : CustodyInv w' := by
  obtain ⟨hu, hc, rfl⟩ := h
  have habsent : w.pc.teardownTask = .absent := ho.closed.mp hc
  refine ⟨?_, ?_, ?_, ?_⟩
  · intro m
    show update w.task (.ofConnection n) (.running none) (.ofConnection m) = .unborn
      ∨ update w.task (.ofConnection n) (.running none) (.ofConnection m) = .done
      ∨ .ofConnection m ∈ w.pc.tasks ++ [.ofConnection n]
    by_cases hmn : m = n
    · subst hmn
      exact Or.inr (Or.inr (List.mem_append_right _ (List.mem_singleton_self _)))
    · rw [Function.update_of_ne fun heq => hmn (TaskId.ofConnection.inj heq)]
      exact (hi.owned m).imp id (Or.imp id (List.mem_append_left _))
  · intro t ht
    show ∃ m, t = .ofConnection m ∧ update w.task (.ofConnection n) (.running none) t ≠ .unborn
    by_cases htn : t = .ofConnection n
    · subst htn
      refine ⟨n, rfl, ?_⟩
      rw [Function.update_self]
      exact nofun
    · rw [Function.update_of_ne htn]
      apply hi.spawned t
      rcases ht with ht | ht
      · rcases List.mem_append.mp ht with ht | ht
        · exact Or.inl ht
        · exact absurd (List.mem_singleton.mp ht) htn
      · exact Or.inr ht
  · intro snapshot ht
    cases habsent.symm.trans ht
  · intro ht
    have hsub : w.pc.teardownTask.submitted = true := ht
    rw [habsent] at hsub
    cases hsub

/-- Every step keeps the tasks in custody. -/
theorem custodyInv_apply (hi : CustodyInv w) (ho : Orderly w.shutdown)
    (h : apply a w = some w') : CustodyInv w' := by
  rcases moves_apply h with hm | ⟨n, -, hspawn⟩
  · rcases keeps_apply h with hk | ⟨u, hd, heq⟩ | ⟨n, hspawn⟩
    · refine hi.of_moves ho h hm ?_ ?_
      · exact fun u hu => hk.tasks ▸ hu
      · exact fun u hu => Or.inr (hk.tasks.symm ▸ hu)
    · refine hi.of_moves ho h hm ?_ ?_
      · intro v hv
        rw [heq] at hv
        exact (List.mem_filter.mp hv).1
      · intro v hv
        by_cases hvu : v = u
        · exact Or.inl (hvu ▸ hd)
        · right
          rw [heq]
          exact List.mem_filter.mpr ⟨hv, decide_eq_true hvu⟩
    · exact hi.spawns ho hspawn
  · exact hi.spawns ho hspawn

/-- After `close()` the owned set only shrinks. -/
theorem tasks_subset_apply (hc : w.pc.closed = true) (h : apply a w = some w') :
    w'.pc.tasks ⊆ w.pc.tasks := by
  rcases keeps_apply h with hk | ⟨u, -, heq⟩ | ⟨n, -, hopen, -⟩
  · rw [hk.tasks]
    exact List.Subset.refl _
  · rw [heq]
    exact List.filter_subset_self _
  · cases hc.symm.trans hopen

/-- A closed connection takes no new tasks. -/
theorem tasks_subset_exec {as : List PcAction} (hc : w.pc.closed = true)
    (h : exec apply w as = some w') : w'.pc.tasks ⊆ w.pc.tasks := by
  have hboth := (Transition.reachable_of_exec h).invariant
    (P := fun v => v.pc.closed = true ∧ v.pc.tasks ⊆ w.pc.tasks)
    ⟨hc, List.Subset.refl _⟩
    (fun hm hstep => ⟨by rw [closed_apply hstep, hm.1, Bool.true_or],
      List.Subset.trans (tasks_subset_apply hm.1 hstep) hm.2⟩)
  exact hboth.2

-- ========================================================= what has returned

/-- A call that waits for the closed event has returned only if the event
is set. -/
structure ReturnInv (w : PcWorld) : Prop where
  quiet : w.pc.closedEvent.Quiet
  gathering : ∀ t call ticket, w.task t = .awaitingGathering call ticket →
    call.awaitsClosed = false
  returned : ∀ t call r, w.task t = .running (some (call, .returned r)) →
    call.awaitsClosed = true → w.pc.closedEvent.value = true

/-- The closed event wakes nobody before it is set. -/
theorem quiet_apply (hq : w.pc.closedEvent.Quiet) (h : apply a w = some w') :
    w'.pc.closedEvent.Quiet := by
  rcases keeps_apply h with hk | ⟨u, -, rfl⟩ | ⟨n, -, -, rfl⟩
  · exact hk.quiet hq
  · exact hq
  · exact hq

/-- The event is never cleared. -/
theorem closedEvent_apply (ho : Orderly w.shutdown) (h : apply a w = some w')
    (hv : w.pc.closedEvent.value = true) : w'.pc.closedEvent.value = true := by
  have hfin : w.shutdown.teardown = .finished := ho.flag.mp hv
  have hstep := shutdown_step h
  show w'.shutdown.closedFlag = true
  generalize w'.shutdown = s' at hstep ⊢
  cases hstep with
  | ends _ => rfl
  | _ => exact hv

/-- Nothing has returned yet. -/
theorem returnInv_init (handle : Int) (core : Core) : ReturnInv (init handle core) where
  quiet := Event.quiet_new
  gathering := by
    intro t call ticket ht
    cases t <;> cases ht
  returned := by
    intro t call r ht
    cases t <;> cases ht

/-- A call that waits for the closed event returns when it is set. -/
theorem returnInv_apply (hi : ReturnInv w) (ho : Orderly w.shutdown)
    (h : apply a w = some w') : ReturnInv w' := by
  have hup := closedEvent_apply ho h
  rcases moves_apply h with htask | ⟨n, -, -, -, rfl⟩
  · rcases htask with htask | ⟨u, st, hedge, htask⟩
    · refine ⟨quiet_apply hi.quiet h, ?_, ?_⟩
      · rw [htask]
        exact hi.gathering
      · rw [htask]
        exact fun t call r ht hcall => hup (hi.returned t call r ht hcall)
    · refine ⟨quiet_apply hi.quiet h, ?_, ?_⟩
      · intro t call ticket ht
        rw [htask] at ht
        by_cases htu : t = u
        · subst htu
          rw [Function.update_self] at ht
          subst ht
          exact hedge.of_gather
        · rw [Function.update_of_ne htu] at ht
          exact hi.gathering t call ticket ht
      · intro t call r ht hcall
        rw [htask] at ht
        by_cases htu : t = u
        · subst htu
          rw [Function.update_self] at ht
          subst ht
          rcases hedge.of_returned hcall with ⟨ticket, hst⟩ | hv | hwoken
          · exact absurd ((hi.gathering t call ticket hst).symm.trans hcall)
              Bool.false_ne_true
          · exact hup hv
          · exact hup (hi.quiet.raised hwoken)
        · rw [Function.update_of_ne htu] at ht
          exact hup (hi.returned t call r ht hcall)
  · refine ⟨quiet_apply hi.quiet h, ?_, ?_⟩
    · intro t call ticket ht
      by_cases htn : t = .ofConnection n
      · subst htn
        cases (Function.update_self _ _ w.task).symm.trans ht
      · exact hi.gathering t call ticket ((Function.update_of_ne htn _ w.task).symm.trans ht)
    · intro t call r ht hcall
      by_cases htn : t = .ofConnection n
      · subst htn
        cases (Function.update_self _ _ w.task).symm.trans ht
      · exact hi.returned t call r ((Function.update_of_ne htn _ w.task).symm.trans ht) hcall

-- ================================================== the teardown gets there

/-- The teardown's own steps set the closed event. -/
def Completes (w : PcWorld) : Prop :=
  ∃ bs v, (∀ b ∈ bs, PcAction.ofTeardown b = true) ∧ exec apply w bs = some v
    ∧ v.pc.closedEvent.value = true

/-- A step of the teardown towards its end. -/
theorem Completes.cons {v : PcWorld} (ha : a.ofTeardown = true) (h : apply a w = some v)
    (hc : Completes v) : Completes w := by
  obtain ⟨bs, u, hbs, hexec, hv⟩ := hc
  refine ⟨a :: bs, u, List.forall_mem_cons.mpr ⟨ha, hbs⟩, ?_, hv⟩
  rw [Transition.exec_cons h]
  exact hexec

/-- When the loop knows of the delete, one step is left. -/
theorem completes_of_delivered (ht : w.pc.teardownTask = .destroying .delivered) :
    Completes w := by
  have hstep : ∃ v, apply (.loop .endTeardown) w = some v
      ∧ v.pc.closedEvent.value = true := by
    simp only [apply, applyLoop, endTeardown, ht]
    exact ⟨_, rfl, rfl⟩
  obtain ⟨v, hv, hvalue⟩ := hstep
  exact .cons rfl hv ⟨[], v, List.forall_mem_nil _, rfl, hvalue⟩

/-- A dispatch runs the callback in front and moves the teardown if it is
the destroy's. -/
theorem dispatch_cons {cb : PcCallback} {rest : List PcCallback}
    (hr : w.ready = cb :: rest) :
    ∃ v, w.dispatch = some v ∧ v.ready = rest
      ∧ v.pc.teardownTask = if cb = .destroyDone then .destroying .delivered
        else w.pc.teardownTask := by
  simp only [dispatch, hr]
  cases cb with
  | destroyDone => exact ⟨_, rfl, rfl, rfl⟩
  | event e =>
      cases e with
      | stateChange state =>
          refine ⟨_, rfl, rfl, ?_⟩
          simp only [PeerConnection.handleStateChange]
          split <;> rfl
      | _ => exact ⟨_, rfl, rfl, rfl⟩

/-- What was scheduled ahead of the word that the destroy is over runs
first. -/
theorem completes_of_deleted {ready : List PcCallback} (hr : w.ready = ready)
    (ho : Orderly w.shutdown) (ht : w.pc.teardownTask = .destroying .deleted) :
    Completes w := by
  induction ready generalizing w with
  | nil =>
      have hmarker : w.ready.count .destroyDone = 1 := ho.marker.trans (if_pos ht)
      rw [hr] at hmarker
      cases hmarker
  | cons cb rest ih =>
      obtain ⟨v, hv, hvr, hvt⟩ := dispatch_cons hr
      refine .cons (a := .loop .dispatch) rfl hv ?_
      by_cases hcb : cb = .destroyDone
      · rw [if_pos hcb] at hvt
        exact completes_of_delivered hvt
      · rw [if_neg hcb] at hvt
        exact ih hvr (orderly_apply (a := .loop .dispatch) ho hv) (hvt.trans ht)

/-- A teardown gets to its end from a destroy that has begun. -/
theorem completes_of_begun (ho : Orderly w.shutdown)
    (ht : w.pc.teardownTask = .destroying .begun) : Completes w := by
  have hstep : ∃ v, apply (.native .endDestroy) w = some v
      ∧ v.pc.teardownTask = .destroying .deleted := by
    simp only [apply, applyNative, endDestroy, ht]
    exact ⟨_, rfl, rfl⟩
  obtain ⟨v, hv, hvt⟩ := hstep
  exact .cons rfl hv (completes_of_deleted rfl (orderly_apply ho hv) hvt)

/-- A teardown gets to its end from a destroy that was submitted. -/
theorem completes_of_queued (ho : Orderly w.shutdown)
    (ht : w.pc.teardownTask = .destroying .queued) : Completes w := by
  have hstep : ∃ v, apply (.native .beginDestroy) w = some v
      ∧ v.pc.teardownTask = .destroying .begun := by
    simp only [apply, applyNative, beginDestroy, ht]
    exact ⟨_, rfl, rfl⟩
  obtain ⟨v, hv, hvt⟩ := hstep
  exact .cons rfl hv (completes_of_begun (orderly_apply ho hv) hvt)

/-- A teardown gets to its end from a gather whose tasks are done. -/
theorem completes_of_gathering {snapshot : List TaskId} (ho : Orderly w.shutdown)
    (ht : w.pc.teardownTask = .gathering snapshot)
    (hdone : ∀ t ∈ snapshot, w.task t = .done) : Completes w := by
  have hstep : apply (.loop .resumeTeardown) w = some w.walkChannels := by
    simp only [apply, applyLoop, resumeTeardown, ht]
    rw [if_pos]
    exact List.all_eq_true.mpr fun t hmem => decide_eq_true (hdone t hmem)
  exact .cons rfl hstep (completes_of_queued (orderly_apply ho hstep) rfl)

/-- A teardown gets to its end from its start. -/
theorem completes_of_created (ho : Orderly w.shutdown)
    (ht : w.pc.teardownTask = .created) (hdone : ∀ t ∈ w.pc.tasks, w.task t = .done) :
    Completes w := by
  by_cases hnil : w.pc.tasks = []
  · have hstep : apply (.loop .startTeardown) w = some w.walkChannels := by
      simp only [apply, applyLoop, startTeardown, ht]
      exact if_pos hnil
    exact .cons rfl hstep (completes_of_queued (orderly_apply ho hstep) rfl)
  · have hstep : apply (.loop .startTeardown) w = some
        { w with pc := { w.pc with teardownTask := .gathering w.pc.tasks } } := by
      simp only [apply, applyLoop, startTeardown, ht]
      exact if_neg hnil
    exact .cons rfl hstep (completes_of_gathering (orderly_apply ho hstep) rfl hdone)

/-- Once the owned tasks are done, nothing else is in the way. -/
theorem completes_of_ownedDone (hi : CustodyInv w) (ho : Orderly w.shutdown)
    (hc : w.pc.closed = true) (hd : OwnedDone w) : Completes w := by
  have hdone : ∀ t, t ∈ w.pc.tasks ∨ t ∈ w.pc.teardownTask.snapshot → w.task t = .done := by
    intro t ht
    obtain ⟨n, rfl, hborn⟩ := hi.spawned t ht
    exact (hd n).resolve_left hborn
  cases ht : w.pc.teardownTask with
  | absent =>
      have hopen : w.pc.closed = false := ho.closed.mpr ht
      cases hc.symm.trans hopen
  | created => exact completes_of_created ho ht fun t hmem => hdone t (Or.inl hmem)
  | gathering snapshot =>
      refine completes_of_gathering ho ht fun t hmem => hdone t (Or.inr ?_)
      rw [ht]
      exact hmem
  | destroying phase =>
      cases phase with
      | queued => exact completes_of_queued ho ht
      | begun => exact completes_of_begun ho ht
      | deleted => exact completes_of_deleted rfl ho ht
      | delivered => exact completes_of_delivered ht
  | finished => exact ⟨[], w, nofun, rfl, ho.flag.mpr ht⟩

-- ============================================================== the barrier

/-- What a run from a fresh connection to `w` has done about its
shutdown: one teardown if anything closed the connection, one native
delete once that teardown is past it, no task added to the owned set
behind a close, and no return of `aclose()` or `wait_closed()` before all
of it is over — which it will be when the owned tasks are done. -/
structure Barrier (handle : Int) (core : Core) (as : List PcAction) (w : PcWorld) :
    Prop where
  created : Transition.tally apply createsTeardown (init handle core) as
    = (as.any PcAction.closes).toNat
  deleted : w.core.deletedPcs = core.deletedPcs
    ++ if w.pc.teardownTask.deletedNative = true then [handle] else []
  frozen : as.any PcAction.closes = true → ∀ bs v, exec apply w bs = some v →
    v.pc.tasks ⊆ w.pc.tasks
  returned : ∀ t call r, w.task t = .running (some (call, .returned r)) →
    call = .aclose ∨ call = .waitClosed →
      OwnedDone w ∧ w.core.deletedPcs = core.deletedPcs ++ [handle]
  completes : as.any PcAction.closes = true → OwnedDone w → Completes w

/-- What the barrier rests on. -/
structure BarrierInv (handle : Int) (core : Core) (w : PcWorld) : Prop where
  orderly : Orderly w.shutdown
  custody : CustodyInv w
  deleted : w.shutdown.DeletedOnce handle core.deletedPcs
  returned : ReturnInv w

/-- What the barrier rests on holds of a new connection. -/
theorem barrierInv_init (handle : Int) (core : Core) :
    BarrierInv handle core (init handle core) where
  orderly := orderly_init handle core
  custody := custodyInv_init handle core
  deleted := ⟨rfl, (List.append_nil _).symm⟩
  returned := returnInv_init handle core

/-- Every step keeps what the barrier rests on. -/
theorem barrierInv_apply {handle : Int} {core : Core} (hi : BarrierInv handle core w)
    (h : apply a w = some w') : BarrierInv handle core w' where
  orderly := orderly_apply hi.orderly h
  custody := custodyInv_apply hi.custody hi.orderly h
  deleted := hi.deleted.step hi.orderly (shutdown_step h)
  returned := returnInv_apply hi.returned hi.orderly h

/-- Every run keeps it. -/
theorem shutdown_barrier (handle : Int) (core : Core) (as : List PcAction)
    (hrun : exec apply (init handle core) as = some w) : Barrier handle core as w := by
  have hi : BarrierInv handle core w :=
    (Transition.reachable_of_exec hrun).invariant (barrierInv_init handle core)
      barrierInv_apply
  have hclosed : w.pc.closed = as.any PcAction.closes := closed_exec hrun
  constructor
  · have htally := (Transition.tally_flag (p := createsTeardown)
      (fun v : PcWorld => v.pc.closed) (fun {a m m'} h => by
        rw [closed_apply h, createsTeardown]
        cases m.pc.closed <;> cases a.closes <;> decide) hrun).1
    rw [htally, hclosed]
    rfl
  · exact hi.deleted.2
  · exact fun hany bs v hv => tasks_subset_exec (hclosed.trans hany) hv
  · intro t call r ht hcall
    have hv : w.pc.closedEvent.value = true := by
      apply hi.returned.returned t call r ht
      rcases hcall with rfl | rfl <;> rfl
    have hfin : w.pc.teardownTask = .finished := hi.orderly.flag.mp hv
    refine ⟨hi.custody.past (by rw [hfin]; rfl), ?_⟩
    have hdel : w.core.deletedPcs = core.deletedPcs
        ++ if w.pc.teardownTask.deletedNative = true then [handle] else [] := hi.deleted.2
    rw [hfin] at hdel
    exact hdel
  · exact fun hany => completes_of_ownedDone hi.custody hi.orderly (hclosed.trans hany)

/-- Two tasks close the connection at once, a third waits; an owned task
catches its cancellation, calls `close()` itself and is refused a new
task before it ends. -/
def contendedRun : List PcAction :=
  [.loop (.spawnTask 0), .loop (.aclose (.user 0)), .loop (.aclose (.user 1)),
    .loop .startTeardown, .loop (.absorb (.ofConnection 0)), .loop .close,
    .loop (.spawnTask 1), .loop (.waitClosed (.user 2)), .loop (.finish 0),
    .loop (.discard (.ofConnection 0)), .loop .resumeTeardown, .native .beginDestroy,
    .native .endDestroy, .loop .dispatch, .loop .endTeardown,
    .loop (.resume (.user 0) (.ok (none, none))),
    .loop (.resume (.user 1) (.ok (none, none))),
    .loop (.resume (.user 2) (.ok (none, none)))]

/-- `shutdown_barrier` at `contendedRun`, after which all three have
returned. -/
theorem shutdown_barrier_contendedRun :
    ∃ w, exec apply (init 1 ⟨[], [], [], []⟩) contendedRun = some w
      ∧ w.task (.user 0) = .running (some (.aclose, .returned .nothing))
      ∧ w.task (.user 1) = .running (some (.aclose, .returned .nothing))
      ∧ w.task (.user 2) = .running (some (.waitClosed, .returned .nothing))
      ∧ Barrier 1 ⟨[], [], [], []⟩ contendedRun w :=
  ⟨_, rfl, rfl, rfl, rfl, shutdown_barrier 1 ⟨[], [], [], []⟩ contendedRun rfl⟩

end PcWorld

end AioLibDataChannel
