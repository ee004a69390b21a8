/-
Whose description `set_local_description()` returns.

The local-description callback says nothing about the native call that
produced the description. `Traced` runs the machine with that written
beside it: each callback on its way carries the number of a native call,
and the numbers are the tickets of `localDescription`, because every
call resets that slot just before. What a native thread fires is
produced by a call that was made already, or (number 0) by none. The
numbers change nothing (`exec_world`, `exists_trace`); they are there to
state the property.

`ownDescriptions_iff`: along any run, whatever a call may return is its
own exactly when no description reaches a waiting call but its own. A
call that is cancelled leaves its callback on the way, and the next call
can meet it (`staleDescriptionRun`).
-/
import AioLibDataChannel.PeerConnection.Results

namespace AioLibDataChannel

open Asyncio (Future Outcome)
open Transition (exec)

/-- A connection with, for each callback in flight and each one
scheduled, the native call that produced it. -/
structure Traced where
  world : PcWorld
  inFlight : List Nat
  ready : List Nat

/-- The numbers of the callbacks in flight after a step, which fires its
callback for native call `n` if it fires one. -/
def PcAction.fly (n : Nat) (s : Shutdown) (inFlight : List Nat) : PcAction → List Nat
  | .native (.fire e) =>
      if s.native.dispatches s.core e.kind then inFlight ++ [n] else inFlight
  | .native (.schedule i) => inFlight.eraseIdx i
  | _ => inFlight

/-- The numbers of the scheduled ones; the end of the destroy has 0. -/
def PcAction.line (inFlight ready : List Nat) : PcAction → List Nat
  | .native (.schedule i) => ready ++ (inFlight[i]?).toList
  | .native .endDestroy => ready ++ [0]
  | .loop .dispatch => ready.tail
  | _ => ready

/-- What is fired comes from a native call that was made. -/
def PcAction.made (n : Nat) (w : PcWorld) : PcAction → Bool
  | .native (.fire _) => decide (n ≤ w.pc.localDescription.ticket)
  | _ => true

namespace Traced

/-- A fresh connection. -/
def init (handle : Int) (core : Core) : Traced where
  world := .init handle core
  inFlight := []
  ready := []

/-- The machine's own step, with the numbers carried along. -/
def apply (a : PcAction × Nat) (s : Traced) : Option Traced :=
  if a.1.made a.2 s.world then
    (PcWorld.apply a.1 s.world).map fun w =>
      { world := w
        inFlight := a.1.fly a.2 s.world.shutdown s.inFlight
        ready := a.1.line s.inFlight s.ready }
  else none

variable {s s' : Traced} {a : PcAction × Nat} {t : TaskId}

/-- A traced step is one of the connection, with the numbers beside it. -/
theorem apply_cases (h : apply a s = some s') :
    a.1.made a.2 s.world = true ∧ PcWorld.apply a.1 s.world = some s'.world
      ∧ s'.inFlight = a.1.fly a.2 s.world.shutdown s.inFlight
      ∧ s'.ready = a.1.line s.inFlight s.ready := by
  unfold apply at h
  split at h
  next hmade =>
    obtain ⟨w, hw, rfl⟩ := Option.map_eq_some_iff.mp h
    exact ⟨hmade, hw, rfl, rfl⟩
  next => cases h

-- ==================================================== the numbers change nothing

/-- Without the numbers a traced run is a run of the connection. -/
theorem exec_world {as : List (PcAction × Nat)} (h : exec apply s as = some s') :
    exec PcWorld.apply s.world (as.map Prod.fst) = some s'.world := by
  induction as generalizing s with
  | nil =>
      cases h
      rfl
  | cons a rest ih =>
      obtain ⟨m, hm, hrest⟩ := Transition.exec_cons_cases h
      rw [List.map_cons, Transition.exec_cons (apply_cases hm).2.1]
      exact ih hrest

/-- Every run of the connection can be traced. -/
theorem exists_trace {as : List PcAction} {w : PcWorld}
    (h : exec PcWorld.apply s.world as = some w) :
    ∃ s', exec apply s (as.map fun a => (a, 0)) = some s' ∧ s'.world = w := by
  induction as generalizing s with
  | nil =>
      cases h
      exact ⟨s, rfl, rfl⟩
  | cons a rest ih =>
      obtain ⟨m, hm, hrest⟩ := Transition.exec_cons_cases h
      have hmade : a.made 0 s.world = true := by
        cases a with
        | native b =>
            cases b with
            | fire e =>
                show decide (0 ≤ s.world.pc.localDescription.ticket) = true
                exact decide_eq_true (Nat.zero_le _)
            | _ => rfl
        | loop b => rfl
      have hstep : apply (a, 0) s = some
          { world := m
            inFlight := a.fly 0 s.world.shutdown s.inFlight
            ready := a.line s.inFlight s.ready } := by
        rw [apply, if_pos hmade, hm]
        rfl
      obtain ⟨s', hs', hworld⟩ := ih (s := { world := m, inFlight := _, ready := _ }) hrest
      refine ⟨s', ?_, hworld⟩
      rw [List.map_cons, Transition.exec_cons hstep]
      exact hs'

end Traced

-- ======================================================== the numbers are right

/-- Each callback has its number. -/
structure Numbered (s : Shutdown) (inFlight ready : List Nat) : Prop where
  inFlight : inFlight.length = s.inFlight.length
  ready : ready.length = s.ready.length

/-- Every callback on its way keeps its number. -/
theorem Numbered.step {s s' : Shutdown} {a : PcAction} {n : Nat}
    {inFlight ready : List Nat} (hi : Numbered s inFlight ready)
    (h : ShutdownStep s a s') :
    Numbered s' (a.fly n s inFlight) (a.line inFlight ready) := by
  obtain ⟨hfly, hline⟩ := hi
  cases h with
  | fired e _ =>
      refine ⟨?_, hline⟩
      show (if _ then _ else _ : List Nat).length = (if _ then _ else _ : List PcEvent).length
      split
      · rw [List.length_append, List.length_append, hfly]
        rfl
      · exact hfly
  | scheduled i e hi =>
      obtain ⟨hlt, -⟩ := List.getElem?_eq_some_iff.mp hi
      have hlt' : i < inFlight.length := hfly ▸ hlt
      constructor
      · show (inFlight.eraseIdx i).length = (s.inFlight.eraseIdx i).length
        rw [List.length_eraseIdx_of_lt hlt', List.length_eraseIdx_of_lt hlt, hfly]
      · show (ready ++ (inFlight[i]?).toList).length = (s.ready ++ [PcCallback.event e]).length
        rw [List.getElem?_eq_getElem hlt', List.length_append, List.length_append, hline]
        rfl
  | deleted _ =>
      refine ⟨hfly, ?_⟩
      show (ready ++ [0]).length = (s.ready ++ [PcCallback.destroyDone]).length
      rw [List.length_append, List.length_append, hline]
      rfl
  | ran e rest hr _ =>
      refine ⟨hfly, ?_⟩
      show ready.tail.length = rest.length
      rw [List.length_tail, hline, hr]
      rfl
  | incoming handle rest hr =>
      refine ⟨hfly, ?_⟩
      show ready.tail.length = rest.length
      rw [List.length_tail, hline, hr]
      rfl
  | told rest hr =>
      refine ⟨hfly, ?_⟩
      show ready.tail.length = rest.length
      rw [List.length_tail, hline, hr]
      rfl
  | same b hd _ =>
      refine ⟨hfly, ?_⟩
      cases b with
      | dispatch => exact absurd rfl hd
      | _ => exact hline
  | closes b hb _ =>
      rcases hb with rfl | ⟨t, rfl⟩ <;> exact ⟨hfly, hline⟩
  | walks b hb _ =>
      rcases hb with rfl | rfl <;> exact ⟨hfly, hline⟩
  | _ => exact ⟨hfly, hline⟩

namespace Traced

variable {s s' : Traced} {a : PcAction × Nat} {t : TaskId}

section Run

variable (handle : Int) (core : Core)

/-- The run dispatched this description from this native call. -/
def Described (as : List (PcAction × Nat)) (call : Nat) (desc : LocalDescription) : Prop :=
  ∃ n m rest ns, Transition.Takes apply (init handle core) as (.loop .dispatch, n) m
    ∧ m.world.ready = .event (.localDescription desc) :: rest ∧ m.ready = call :: ns

/-- Wherever the run is, a `set_local_description` that returns next
returns a description of its own native call. -/
def OwnDescriptions (as : List (PcAction × Nat)) : Prop :=
  ∀ pre s, pre <+: as → exec apply (init handle core) pre = some s →
    ∀ t ticket read v desc, s.world.task t = .awaitingLocal ticket →
      PcWorld.apply (.loop (.resume t read)) s.world = some v →
      v.task t = .running (some (.setLocalDescription, .returned (.description desc))) →
      Described handle core pre ticket desc

end Run

/-- The step brings no description to a call that waits for it but that
call's own. -/
def Punctual (a : PcAction × Nat) (s : Traced) : Prop :=
  a.1 = .loop .dispatch → ∀ desc rest n ns,
    s.world.ready = .event (.localDescription desc) :: rest → s.ready = n :: ns →
    ∀ t ticket, s.world.task t = .awaitingLocal ticket →
      s.world.pc.settled .localDescription ticket = false → n = ticket

-- =============================================================== every run

section Invariant

variable {handle : Int} {core : Core} {as : List (PcAction × Nat)}

/-- What was dispatched stays dispatched. -/
theorem Described.snoc {call : Nat} {desc : LocalDescription} (a : PcAction × Nat)
    (h : Described handle core as call desc) :
    Described handle core (as ++ [a]) call desc := by
  obtain ⟨n, m, rest, ns, htake, hr, hn⟩ := h
  exact ⟨n, m, rest, ns, Transition.takes_snoc_iff.mpr (Or.inl htake), hr, hn⟩

/-- Every number is that of a call that was made. -/
theorem le_ticket_apply (hi : ∀ n ∈ s.inFlight ++ s.ready,
      n ≤ s.world.pc.localDescription.ticket) (h : apply a s = some s') :
    ∀ n ∈ s'.inFlight ++ s'.ready, n ≤ s'.world.pc.localDescription.ticket := by
  obtain ⟨hmade, hworld, hfly, hline⟩ := apply_cases h
  have hle : s.world.pc.localDescription.ticket ≤ s'.world.pc.localDescription.ticket :=
    (PcWorld.later_apply hworld).ticket_le .localDescription
  have hold : ∀ n ∈ s'.inFlight ++ s'.ready,
      n ∈ s.inFlight ++ s.ready ∨ n = 0 ∨ n ≤ s.world.pc.localDescription.ticket := by
    intro n hn
    rw [hfly, hline] at hn
    obtain ⟨act, call⟩ := a
    cases act with
    | native b =>
        cases b with
        | fire e =>
            rcases List.mem_append.mp hn with hn | hn
            · simp only [PcAction.fly] at hn
              split at hn
              · rcases List.mem_append.mp hn with hn | hn
                · exact Or.inl (List.mem_append_left _ hn)
                · rw [List.mem_singleton.mp hn]
                  exact Or.inr (Or.inr (of_decide_eq_true hmade))
              · exact Or.inl (List.mem_append_left _ hn)
            · exact Or.inl (List.mem_append_right _ hn)
        | schedule i =>
            left
            rcases List.mem_append.mp hn with hn | hn
            · exact List.mem_append_left _ (List.mem_of_mem_eraseIdx hn)
            · rcases List.mem_append.mp hn with hn | hn
              · exact List.mem_append_right _ hn
              · exact List.mem_append_left _
                  (List.mem_of_getElem? (Option.mem_toList.mp hn))
        | beginDestroy => exact Or.inl hn
        | endDestroy =>
            rcases List.mem_append.mp hn with hn | hn
            · exact Or.inl (List.mem_append_left _ hn)
            · rcases List.mem_append.mp hn with hn | hn
              · exact Or.inl (List.mem_append_right _ hn)
              · exact Or.inr (Or.inl (List.mem_singleton.mp hn))
    | loop b =>
        left
        cases b with
        | dispatch =>
            rcases List.mem_append.mp hn with hn | hn
            · exact List.mem_append_left _ hn
            · exact List.mem_append_right _ (List.mem_of_mem_tail hn)
        | _ => exact hn
  intro n hn
  rcases hold n hn with hmem | rfl | hmade'
  · exact Nat.le_trans (hi n hmem) hle
  · exact Nat.zero_le _
  · exact Nat.le_trans hmade' hle

/-- What every traced run keeps: a call's own description, once
dispatched, has settled its future. -/
structure TraceInv (handle : Int) (core : Core) (as : List (PcAction × Nat))
    (s : Traced) : Prop where
  ticketed : PcWorld.Ticketed s.world
  owed : PcWorld.OwedInv s.world
  numbered : Numbered s.world.shutdown s.inFlight s.ready
  made : ∀ n ∈ s.inFlight ++ s.ready, n ≤ s.world.pc.localDescription.ticket
  settled : ∀ call desc, Described handle core as call desc →
    call ≤ s.world.pc.localDescription.ticket
      ∧ s.world.pc.settled .localDescription call = true

/-- No description has come yet. -/
theorem traceInv_init : TraceInv handle core [] (init handle core) where
  ticketed := PcWorld.ticketed_init handle core
  owed := PcWorld.owedInv_init handle core
  numbered := ⟨rfl, rfl⟩
  made := nofun
  settled := by
    intro call desc h
    obtain ⟨n, m, rest, ns, htake, -, -⟩ := h
    cases htake.mem

/-- A call's own description settles its future. -/
theorem traceInv_apply (hrun : exec apply (init handle core) as = some s)
    (hi : TraceInv handle core as s) (h : apply a s = some s') :
    TraceInv handle core (as ++ [a]) s' := by
  obtain ⟨-, hworld, hfly, hline⟩ := apply_cases h
  have hlater := PcWorld.later_apply hworld
  refine ⟨PcWorld.ticketed_apply hi.ticketed hworld,
    PcWorld.owedInv_apply hi.ticketed hi.owed hworld, ?_, le_ticket_apply hi.made h, ?_⟩
  · rw [hfly, hline]
    exact hi.numbered.step (PcWorld.shutdown_step hworld)
  · intro call desc hdone
    obtain ⟨n, m, rest, ns, htake, hr, hn⟩ := hdone
    rcases Transition.takes_snoc_iff.mp htake with htake | ⟨rfl, hm⟩
    · obtain ⟨hle, hs⟩ := hi.settled call desc ⟨n, m, rest, ns, htake, hr, hn⟩
      exact ⟨Nat.le_trans hle (hlater.ticket_le .localDescription),
        hlater.settled_of_settled hle hs⟩
    · cases hrun.symm.trans hm
      have hcall : call ≤ s.world.pc.localDescription.ticket := by
        apply hi.made
        rw [hn]
        exact List.mem_append_right _ List.mem_cons_self
      exact ⟨Nat.le_trans hcall (hlater.ticket_le .localDescription),
        PcWorld.settled_of_settles hr rfl hworld call⟩

/-- In every traced run a call's own description settles its future. -/
theorem traceInv_exec (hrun : exec apply (init handle core) as = some s) :
    TraceInv handle core as s :=
  Transition.exec_invariant traceInv_init traceInv_apply hrun

-- =================================================== runs that are punctual

/-- A call that has a description has its own. -/
def Answered (handle : Int) (core : Core) (as : List (PcAction × Nat)) (s : Traced) :
    Prop :=
  ∀ t ticket desc, (s.world.task t).awaits = some (.localDescription, ticket) →
    s.world.pc.localDescription.nth ticket = .settled (.returned desc) →
    Described handle core as ticket desc

/-- Who awaits that slot is in `set_local_description()`. -/
theorem eq_awaitingLocal {st : PcTask} {ticket : Nat}
    (h : st.awaits = some (.localDescription, ticket)) : st = .awaitingLocal ticket := by
  cases st with
  | awaitingGathering call k => cases h
  | awaitingLocal k =>
      obtain ⟨-, rfl⟩ := Prod.mk.inj (Option.some.inj h)
      rfl
  | _ => cases h

/-- A punctual step answers a call with its own description only. -/
theorem answered_apply (hrun : exec apply (init handle core) as = some s)
    (hi : Answered handle core as s) (hok : Punctual a s) (h : apply a s = some s') :
    Answered handle core (as ++ [a]) s' := by
  intro t ticket desc ht hres
  obtain ⟨-, hworld, -, -⟩ := apply_cases h
  rcases PcWorld.awaits_apply hworld ht with hold | hstarts
  · rcases PcWorld.local_result hworld hres with hbefore | ⟨ha, hpending, hle, rest, hr⟩
    · exact (hi t ticket desc hold hbefore).snoc a
    · have hinv := traceInv_exec hrun
      obtain ⟨n, ns, hn⟩ : ∃ n ns, s.ready = n :: ns := by
        apply List.exists_cons_of_length_pos
        rw [hinv.numbered.ready]
        show 0 < s.world.ready.length
        rw [hr]
        exact Nat.succ_pos _
      have hpend : s.world.pc.settled .localDescription ticket = false := by
        show (s.world.pc.localDescription.nth ticket).done = false
        rw [FutureSlot.nth_of_ticket_le hle, hpending]
        rfl
      have hown : n = ticket :=
        hok ha desc rest n ns hr hn t ticket (eq_awaitingLocal hold) hpend
      refine ⟨a.2, s, rest, ns, Transition.takes_snoc_iff.mpr (Or.inr ⟨?_, hrun⟩), hr, ?_⟩
      · exact Prod.ext ha.symm rfl
      · rw [hn, hown]
  · exact absurd hres (PcWorld.fresh_local hstarts hworld ht)

/-- A run of punctual steps answers each call with its own description. -/
theorem answered_exec
    (hok : ∀ a m, Transition.Takes apply (init handle core) as a m → Punctual a m)
    (hrun : exec apply (init handle core) as = some s) : Answered handle core as s := by
  refine Transition.exec_of_takes ?_ answered_apply hok hrun
  intro t ticket desc ht
  cases t <;> cases ht

/-- Punctual runs return each call's own description. -/
theorem ownDescriptions_of_punctual
    (hok : ∀ a m, Transition.Takes apply (init handle core) as a m → Punctual a m) :
    OwnDescriptions handle core as := by
  intro pre s hpre hexec t ticket read v desc ht hv hret
  have hans : Answered handle core pre s :=
    answered_exec (fun a m htake => hok a m (htake.mono hpre)) hexec
  apply hans t ticket desc
  · rw [ht]
    rfl
  · exact PcWorld.resume_local ht hv hret

-- ========================================================== the other runs

/-- A call whose future holds a description, and which owes no
cancellation, returns it. -/
theorem resume_described {w : PcWorld} {ticket : Nat} {desc : LocalDescription}
    (read : Except Exc (Option String × Option String))
    (ht : w.task t = .awaitingLocal ticket)
    (hres : w.pc.localDescription.nth ticket = .settled (.returned desc))
    (hm : w.mustCancel t = false) :
    PcWorld.apply (.loop (.resume t read)) w = some
      (w.finishCall t .setLocalDescription (.returned (.description desc))) := by
  simp only [PcWorld.apply, PcWorld.applyLoop, PcWorld.resume, ht, hres, PcWorld.endWait, hm]
  rfl

/-- Runs that return each call's own description are punctual. -/
theorem punctual_of_ownDescriptions (hall : OwnDescriptions handle core as) :
    ∀ a m, Transition.Takes apply (init handle core) as a m → Punctual a m := by
  intro a m htake ha desc rest n ns hr hn t ticket ht hs
  obtain ⟨pre, hpre, hexec⟩ := htake
  have hinv := traceInv_exec hexec
  have hawaits : (m.world.task t).awaits = some (.localDescription, ticket) := by
    rw [ht]
    rfl
  have hm : m.world.mustCancel t = false := hinv.owed t _ ⟨ticket, hawaits, hs⟩
  let w' : PcWorld := { m.world with
    ready := rest, pc := m.world.pc.handleLocalDescription desc }
  have hstep : ∃ m', apply a m = some m' ∧ m'.world = w' := by
    obtain ⟨act, call⟩ := a
    cases ha
    refine ⟨⟨w', m.inFlight, m.ready.tail⟩, ?_, rfl⟩
    have hworld : PcWorld.apply (.loop .dispatch) m.world = some w' := by
      simp only [PcWorld.apply, PcWorld.applyLoop, PcWorld.dispatch, hr, w']
    simp only [apply, hworld]
    rfl
  obtain ⟨m', hm', hworld⟩ := hstep
  have hexec' : exec apply (init handle core) (pre ++ [a]) = some m' := by
    rw [Transition.exec_snoc, hexec]
    exact hm'
  have hret : PcWorld.apply (.loop (.resume t (.ok (none, none)))) m'.world = some
      (w'.finishCall t .setLocalDescription (.returned (.description desc))) := by
    rw [hworld]
    exact resume_described _ ht (FutureSlot.nth_set_of_pending desc hs) hm
  obtain ⟨k, m₀, rest', ns', htake, hr', hn'⟩ :=
    hall _ m' hpre hexec' t ticket _ _ desc (hworld ▸ ht) hret
      (Function.update_self t _ w'.task)
  -- its own description would have settled the call before
  rcases Transition.takes_snoc_iff.mp htake with hbefore | ⟨-, hnow⟩
  · have hdone := (hinv.settled ticket desc ⟨k, m₀, rest', ns', hbefore, hr', hn'⟩).2
    exact absurd (hs.symm.trans hdone) Bool.false_ne_true
  · cases hexec.symm.trans hnow
    exact (List.cons.inj (hn.symm.trans hn')).1

end Invariant

/-- Along any run, whatever `set_local_description` may return is its own
exactly when no description reaches a waiting call but its own. -/
theorem ownDescriptions_iff (handle : Int) (core : Core) (as : List (PcAction × Nat)) :
    OwnDescriptions handle core as ↔
      ∀ a m, Transition.Takes apply (init handle core) as a m → Punctual a m :=
  ⟨punctual_of_ownDescriptions, ownDescriptions_of_punctual⟩

-- ======================================================== the failing run

/-- The first call is cancelled while its description is on the way; the
second call has reset the slot when it arrives. -/
def staleDescriptionRun : List (PcAction × Nat) :=
  [(.loop (.setLocalDescription (.user 0) (.ok ())), 0),
    (.native (.fire (.localDescription ⟨"first", .offer⟩)), 1),
    (.native (.schedule 0), 0), (.loop (.cancel (.user 0)), 0),
    (.loop (.resume (.user 0) (.ok (none, none))), 0),
    (.loop (.setLocalDescription (.user 0) (.ok ())), 0), (.loop .dispatch, 0),
    (.loop (.resume (.user 0) (.ok (none, none))), 0)]

/-- The second call returns the first one's description, which was the
only one dispatched. -/
theorem stale_description_returned :
    (∃ s, exec apply (init 1 ⟨[], [], [], []⟩) staleDescriptionRun = some s
        ∧ s.world.task (.user 0) = .running (some
          (.setLocalDescription, .returned (.description ⟨"first", .offer⟩)))
        ∧ s.world.pc.localDescription.ticket = 2)
      ∧ ∀ desc, ¬ Described 1 ⟨[], [], [], []⟩ staleDescriptionRun 2 desc := by
  refine ⟨⟨_, rfl, rfl, rfl⟩, fun desc hown => ?_⟩
  obtain ⟨n, m, rest, ns, htake, -, hn⟩ := hown
  have hfirst : ∀ a s,
      Transition.Takes apply (init 1 ⟨[], [], [], []⟩) staleDescriptionRun a s →
        a.1 = .loop .dispatch → s.ready = [1] := by
    refine Transition.takes_of_only 6 rfl rfl (fun _ => rfl) ?_
    simp [staleDescriptionRun]
  cases (hfirst _ m htake rfl).symm.trans hn

end Traced

end AioLibDataChannel
