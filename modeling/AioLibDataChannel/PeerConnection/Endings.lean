/-
How a call of a connection ends without a result, and why.

`Ends` is the step at which the caller gets an exception or a
cancellation. Often that step is innocent: it resumes a call whose
future was spoiled long before, or whose task was cancelled.
`endings_caused` traces each ending back to the step that made it: a call
that raised or was cancelled is owed to a step on the lists of `Raises`
and `Cancels`, which is the last step the task took in a call, or from
which on what it did has lain in wait for that step (`Spoilt`, `Coming`).
So a call is cancelled by its own task's cancellation or by another call
that took its slot, never by the cancellation of another task; and
`_gathering_complete`, `aclose()` and `wait_closed()` raise nothing of
their own.
-/
import AioLibDataChannel.PeerConnection.Spoiling

namespace AioLibDataChannel

open Asyncio (Event Future Outcome)
open Function (update)
open Transition (exec Last Since)

/-- The task whose call starts or goes on in this step. -/
def PcAction.caller? : PcAction → Option TaskId
  | .loop (.createOffer t _) => some t
  | .loop (.createAnswer t _) => some t
  | .loop (.setLocalDescription t _) => some t
  | .loop (.createDataChannel t _) => some t
  | .loop (.aclose t) => some t
  | .loop (.waitClosed t) => some t
  | .loop (.resume t _) => some t
  | _ => none

namespace PcWorld

variable {w w' : PcWorld} {t u : TaskId} {a : PcAction}

-- ====================================================== how a call ends

/-- How a call ends that does not return, at the step that ends it. -/
inductive Ends (t : TaskId) (w : PcWorld) (a : PcAction) (call : PcCall) :
    Outcome PcResult Exc → Prop
  | raises {e : Exc} (h : Raises t w a call e) : Ends t w a call (.raised e)
  | owed (hm : w.mustCancel t = true) : Ends t w a call .cancelled
  | failed {slot : Negotiation} {k : Nat} (hk : (w.task t).awaits = some (slot, k))
      (hf : w.pc.failed slot k = some none) : Ends t w a call .cancelled
  | spoiled {slot : Negotiation} {k : Nat} {e : Exc}
      (hk : (w.task t).awaits = some (slot, k))
      (hc : slot = .localDescription → call = .setLocalDescription)
      (hf : w.pc.failed slot k = some (some e)) : Ends t w a call (.raised e)

variable {call : PcCall} {o : Outcome PcResult Exc}

/-- The step that moves one task ends no other's call. -/
theorem ended_update {st : PcTask} (htask : w'.task = update w.task u st)
    (ht : w'.task t = .running (some (call, o))) :
    (t ≠ u ∧ w'.task t = w.task t) ∨ (t = u ∧ st = .running (some (call, o))) := by
  by_cases htu : t = u
  · subst htu
    rw [htask, Function.update_self] at ht
    exact Or.inr ⟨rfl, ht⟩
  · left
    rw [htask, Function.update_of_ne htu]
    exact ⟨htu, rfl⟩

/-- A wait ends cancelled if a cancellation is owed, and else with what it
waited for. -/
theorem ended_endWait {c : PcCall} {o' : Outcome PcResult Exc}
    (ht : (w.endWait u c o').task t = .running (some (call, o))) :
    (t ≠ u ∧ (w.endWait u c o').task t = w.task t)
      ∨ (t = u ∧ call = c ∧ ((o = .cancelled ∧ w.mustCancel t = true)
        ∨ (o = o' ∧ w.mustCancel t = false))) := by
  unfold endWait at ht ⊢
  split at ht
  next hm =>
    rw [if_pos hm]
    rcases ended_update (w := w) rfl ht with hsame | ⟨rfl, hst⟩
    · exact Or.inl hsame
    · cases hst
      exact Or.inr ⟨rfl, rfl, Or.inl ⟨rfl, hm⟩⟩
  next hm =>
    rw [if_neg hm]
    rcases ended_update (w := w) rfl ht with hsame | ⟨rfl, hst⟩
    · exact Or.inl hsame
    · cases hst
      exact Or.inr ⟨rfl, rfl, Or.inr ⟨rfl, Bool.eq_false_iff.mpr hm⟩⟩

/-- A task that is suspended has no outcome. -/
theorem ended_suspend {st : PcTask} (hst : ∀ last, st ≠ .running last) {v : PcWorld}
    (hv : v.task = w.task) (ht : (v.suspend u st).task t = .running (some (call, o))) :
    t ≠ u ∧ (v.suspend u st).task t = w.task t := by
  rw [task_suspend] at ht ⊢
  by_cases htu : t = u
  · subst htu
    rw [Function.update_self] at ht
    exact absurd ht (hst _)
  · rw [Function.update_of_ne htu, hv]
    exact ⟨htu, rfl⟩

/-- A wait for the closed event ends with a result, if it ends. -/
theorem ended_awaitClosed {c : PcCall} (hret : ∀ r, o ≠ .returned r) {v : PcWorld}
    (hv : v.task = w.task) (ht : (v.awaitClosed c u).task t = .running (some (call, o))) :
    t ≠ u ∧ (v.awaitClosed c u).task t = w.task t := by
  unfold awaitClosed at ht ⊢
  split at ht
  next hf =>
    rw [if_pos hf]
    rcases ended_update (w := v) rfl ht with ⟨hne, hsame⟩ | ⟨-, hst⟩
    · exact ⟨hne, hsame.trans (congrFun hv t)⟩
    · cases hst
      exact absurd rfl (hret .nothing)
  next hf =>
    rw [if_neg hf]
    exact ended_suspend (w := w) (v := { v with
      pc := { v.pc with closedEvent := v.pc.closedEvent.park u } }) (fun last hlast => by cases hlast)
      hv ht

/-- A resumed call that has no result has one of the endings. -/
theorem ended_resume {read : Except Exc (Option String × Option String)}
    (hret : ∀ r, o ≠ .returned r) (h : w.resume u read = some w')
    (ht : w'.task t = .running (some (call, o))) :
    (t ≠ u ∧ w'.task t = w.task t) ∨ (t = u ∧ Ends t w (.loop (.resume u read)) call o) := by
  cases resume_cases h with
  | gathered c k o' hst ho =>
      rcases ended_endWait ht with hsame | ⟨rfl, rfl, ⟨rfl, hm⟩ | ⟨rfl, hm⟩⟩
      · exact Or.inl hsame
      · exact Or.inr ⟨rfl, .owed hm⟩
      · refine Or.inr ⟨rfl, ?_⟩
        have hk : (w.task t).awaits = some (.gatheringComplete, k) := by
          rw [hst]
          rfl
        cases o' with
        | returned v =>
            cases hread : afterGathering call read (.returned v) with
            | returned r => exact absurd hread (hret r)
            | raised e => exact .raises (.read hst hm ho hread)
            | cancelled =>
                exfalso
                simp only [afterGathering, readDescription] at hread
                split at hread <;> cases hread
        | raised e =>
            refine .spoiled hk nofun ?_
            rw [PeerConnection.failed, FutureSlot.failed, ho]
        | cancelled =>
            refine .failed hk ?_
            rw [PeerConnection.failed, FutureSlot.failed, ho]
  | described k o' hst ho =>
      rcases ended_endWait ht with hsame | ⟨rfl, rfl, ⟨rfl, hm⟩ | ⟨rfl, hm⟩⟩
      · exact Or.inl hsame
      · exact Or.inr ⟨rfl, .owed hm⟩
      · refine Or.inr ⟨rfl, ?_⟩
        have hk : (w.task t).awaits = some (.localDescription, k) := by
          rw [hst]
          rfl
        cases o' with
        | returned desc => exact absurd rfl (hret _)
        | raised e =>
            refine .spoiled hk (fun _ => rfl) ?_
            rw [PeerConnection.failed, FutureSlot.failed, ho]
        | cancelled =>
            refine .failed hk ?_
            rw [PeerConnection.failed, FutureSlot.failed, ho]
  | waited c hst hwoken =>
      rcases ended_endWait (w := { w with
          pc := { w.pc with closedEvent := w.pc.closedEvent.leave u } }) ht with
        hsame | ⟨rfl, rfl, ⟨rfl, hm⟩ | ⟨rfl, -⟩⟩
      · exact Or.inl hsame
      · exact Or.inr ⟨rfl, .owed hm⟩
      · exact absurd rfl (hret _)

/-- A call that is refused raises what is listed. -/
theorem ended_refused {c : PcCall} {e : Exc} {v : PcWorld} (hv : v.task = w.task)
    (hraise : Raises u w a c e)
    (ht : (v.finishCall u c (.raised e)).task t = .running (some (call, o))) :
    (t ≠ u ∧ (v.finishCall u c (.raised e)).task t = w.task t)
      ∨ (t = u ∧ Ends t w a call o) := by
  rcases ended_update (w := v) rfl ht with ⟨hne, hsame⟩ | ⟨rfl, hst⟩
  · exact Or.inl ⟨hne, hsame.trans (congrFun hv t)⟩
  · cases hst
    exact Or.inr ⟨rfl, .raises hraise⟩

/-- A call whose native call raises raises that; the others wait. -/
theorem ended_createDescription {c : PcCall} {answer : Except Exc Unit}
    (hraise : ∀ e, answer = .error e → Raises u w a c e)
    (h : w.createDescription u c answer = some w')
    (ht : w'.task t = .running (some (call, o))) :
    (t ≠ u ∧ w'.task t = w.task t) ∨ (t = u ∧ Ends t w a call o) := by
  obtain ⟨-, ⟨e, he, rfl⟩ | ⟨-, rfl⟩⟩ := createDescription_eq h
  · exact ended_refused (w := w) rfl (hraise e he) ht
  · exact Or.inl (ended_suspend (w := w) (fun last hlast => by cases hlast) rfl ht)

/-- A step of `u` is one of `t`, or another task's. -/
theorem by_caller {P Q : Prop} (h : (t ≠ u ∧ P) ∨ (t = u ∧ Q)) :
    (some u ≠ some t ∧ P) ∨ (some u = some t ∧ Q) := by
  rcases h with ⟨hne, hp⟩ | ⟨rfl, hq⟩
  · exact Or.inl ⟨fun heq => hne (Option.some.inj heq).symm, hp⟩
  · exact Or.inr ⟨rfl, hq⟩

/-- A step that leaves a task with an outcome that is no result ended its
call, or the task took no part in it and had the outcome before. -/
theorem ended_apply (hret : ∀ r, o ≠ .returned r) (h : apply a w = some w')
    (ht : w'.task t = .running (some (call, o))) :
    (a.caller? ≠ some t ∧ w'.task t = w.task t)
      ∨ (a.caller? = some t ∧ Ends t w a call o) := by
  cases a with
  | native b => exact Or.inl ⟨(Option.some_ne_none t).symm, congrFun (task_native h) t⟩
  | loop b =>
      cases b with
      | dispatch => exact Or.inl ⟨(Option.some_ne_none t).symm, congrFun (task_dispatch h) t⟩
      | close =>
          cases h
          exact Or.inl ⟨(Option.some_ne_none t).symm, congrFun (task_close w) t⟩
      | startTeardown =>
          obtain ⟨-, ⟨-, rfl⟩ | rfl⟩ := startTeardown_cases h
          · exact Or.inl ⟨(Option.some_ne_none t).symm, rfl⟩
          · exact Or.inl ⟨(Option.some_ne_none t).symm, rfl⟩
      | resumeTeardown =>
          obtain ⟨rfl, -⟩ := resumeTeardown_cases h
          exact Or.inl ⟨(Option.some_ne_none t).symm, rfl⟩
      | endTeardown =>
          simp only [apply, applyLoop, endTeardown] at h
          split at h
          · cases h
            exact Or.inl ⟨(Option.some_ne_none t).symm, rfl⟩
          · cases h
      | spawnTask n =>
          simp only [apply, applyLoop, spawnTask] at h
          split at h
          · split at h
            · cases h
              exact Or.inl ⟨(Option.some_ne_none t).symm, rfl⟩
            · cases h
              rcases ended_update (w := w) (u := .ofConnection n) rfl ht with hsame | ⟨-, hst⟩
              · exact Or.inl ⟨(Option.some_ne_none t).symm, hsame.2⟩
              · cases hst
          · cases h
      | finish n =>
          simp only [apply, applyLoop, finish] at h
          split at h
          · cases h
            rcases ended_update (w := w) (u := .ofConnection n) rfl ht with hsame | ⟨-, hst⟩
            · exact Or.inl ⟨(Option.some_ne_none t).symm, hsame.2⟩
            · cases hst
          · cases h
      | discard u =>
          simp only [apply, applyLoop, discard] at h
          split at h
          · cases h
            exact Or.inl ⟨(Option.some_ne_none t).symm, rfl⟩
          · cases h
      | createOffer u answer =>
          have hcall := (started_eq h).1
          unfold createOffer at hcall
          split at hcall
          next hc =>
            cases hcall
            exact by_caller (ended_refused rfl (.closed hc) ht)
          next hc =>
            refine by_caller (ended_createDescription (fun e he => ?_) hcall ht)
            subst he
            exact .offer (Bool.eq_false_iff.mpr hc)
      | createAnswer u answer =>
          refine by_caller (ended_createDescription (fun e he => ?_) (started_eq h).1 ht)
          subst he
          exact .answer
      | setLocalDescription u answer =>
          obtain ⟨-, ⟨e, rfl, rfl⟩ | ⟨-, rfl⟩⟩ := setLocalDescription_eq (started_eq h).1
          · exact by_caller (ended_refused (w := w) rfl .setLocal ht)
          · refine by_caller (Or.inl (ended_suspend (w := w) ?_ rfl ht))
            intro last hlast
            cases hlast
      | createDataChannel u answer =>
          have hcall := (started_eq h).1
          unfold createDataChannel at hcall
          split at hcall
          · cases answer with
            | error e =>
                cases hcall
                exact by_caller (ended_refused rfl .channel ht)
            | ok handle =>
                simp only at hcall
                split at hcall
                · cases hcall
                · cases hcall
                  rcases ended_update (w := w) (u := u) rfl ht with hsame | ⟨-, hst⟩
                  · exact by_caller (Or.inl hsame)
                  · cases hst
                    exact absurd rfl (hret _)
          · cases hcall
      | destroyChannel n =>
          simp only [apply, applyLoop, destroyChannel] at h
          split at h
          · cases h
          · cases h
            exact Or.inl ⟨(Option.some_ne_none t).symm, rfl⟩
      | aclose u =>
          cases (started_eq h).1
          exact by_caller (Or.inl (ended_awaitClosed hret (task_close w) ht))
      | waitClosed u =>
          cases (started_eq h).1
          exact by_caller (Or.inl (ended_awaitClosed hret rfl ht))
      | resume u read => exact by_caller (ended_resume hret h ht)
      | cancel u =>
          cases h
          exact Or.inl ⟨(Option.some_ne_none t).symm, congrFun (task_cancelTask u w) t⟩
      | absorb u =>
          cases (started_eq h).1
          exact Or.inl ⟨(Option.some_ne_none t).symm, rfl⟩

-- ================================================================== runs

/-- The description that the task waits for will not come: its future
holds the exception. -/
def Spoilt (t : TaskId) (e : Exc) (w : PcWorld) : Prop :=
  ∃ k, (w.task t).awaits = some (.localDescription, k)
    ∧ w.pc.failed .localDescription k = some (some e)

/-- A cancellation is on its way to the task: it is owed one, or the
future it awaits is cancelled. -/
def Coming (t : TaskId) (w : PcWorld) : Prop :=
  w.mustCancel t = true
    ∨ ∃ slot k, (w.task t).awaits = some (slot, k) ∧ w.pc.failed slot k = some none

section Init

variable (handle : Int) (core : Core)

/-- What a run has to account for: every exception and every cancellation
that lies in wait for a task. -/
structure EndingsInv (acts : List PcAction) (w : PcWorld) : Prop where
  ticketed : Ticketed w
  sole : Sole w
  spoilt : ∀ t slot k e, (w.task t).awaits = some (slot, k) →
    w.pc.failed slot k = some (some e) → slot = .localDescription ∧ ∃ a u,
      Since apply (Spoilt t e) (init handle core) acts a u
        ∧ Raises t u a .setLocalDescription e
  coming : ∀ t, Coming t w →
    ∃ a u, Since apply (Coming t) (init handle core) acts a u ∧ Cancels t u a

/-- Over every run: what lies in wait for a task was put there by a step
of the run, and has been there since. -/
theorem endingsInv_exec {acts : List PcAction}
    (hrun : exec apply (init handle core) acts = some w) :
    EndingsInv handle core acts w := by
  refine Transition.exec_invariant (P := EndingsInv handle core) ?_ ?_ hrun
  · refine ⟨ticketed_init handle core, sole_init handle core, ?_, ?_⟩
    · intro t slot k e hk
      cases t <;> cases hk
    · rintro t (hm | ⟨slot, k, hk, -⟩)
      · cases hm
      · cases t <;> cases hk
  · intro acts a m m' hm hi ha
    refine ⟨ticketed_apply hi.ticketed ha, sole_apply hi.ticketed hi.sole ha, ?_, ?_⟩
    · intro t slot k e hk hx
      rcases failed_apply hi.ticketed hi.sole ha hk hx with ⟨hk', hx'⟩ | hf | ⟨hnone, -⟩
      · obtain ⟨rfl, b, u, hb, hr⟩ := hi.spoilt t slot k e hk' hx'
        exact ⟨rfl, b, u, hb.snoc hm ha ⟨k, hk, hx⟩, hr⟩
      · cases hf with
        | raises hr => exact ⟨rfl, a, m, Transition.since_snoc hm ha ⟨k, hk, hx⟩, hr⟩
      · cases hnone
    · intro t hcoming
      have hbefore : Coming t m →
          ∃ b u, Since apply (Coming t) (init handle core) (acts ++ [a]) b u
            ∧ Cancels t u b := by
        intro hold
        obtain ⟨b, u, hb, hc⟩ := hi.coming t hold
        exact ⟨b, u, hb.snoc hm ha hcoming, hc⟩
      rcases id hcoming with hm' | ⟨slot, k, hk, hx⟩
      · rcases owed_apply hi.ticketed hi.sole ha hm' with hold | hc
        · exact hbefore (Or.inl hold)
        · exact ⟨a, m, Transition.since_snoc hm ha hcoming, .own hc⟩
      · rcases failed_apply hi.ticketed hi.sole ha hk hx with hold | hf | ⟨-, hold⟩
        · exact hbefore (Or.inr ⟨slot, k, hold⟩)
        · cases hf with
          | cancels hc => exact ⟨a, m, Transition.since_snoc hm ha hcoming, hc⟩
        · exact hbefore (Or.inl hold)

/-- Why the call that `a` ended, after `acts`, has no result: `a` raises,
or it finds what an earlier step left. -/
inductive Caused (acts : List PcAction) (w : PcWorld) (a : PcAction) (t : TaskId)
    (call : PcCall) : Outcome PcResult Exc → Prop
  | raised {e : Exc} (hr : Raises t w a call e) : Caused acts w a t call (.raised e)
  | spoilt {e : Exc} (b : PcAction) (u : PcWorld)
      (hu : Since apply (Spoilt t e) (init handle core) acts b u)
      (hr : Raises t u b call e) : Caused acts w a t call (.raised e)
  | cancelled (b : PcAction) (u : PcWorld)
      (hu : Since apply (Coming t) (init handle core) acts b u)
      (hc : Cancels t u b) : Caused acts w a t call .cancelled

/-- The step that ends a call is the cause, or it finds one behind it. -/
theorem caused_of_ends {acts : List PcAction}
    (hrun : exec apply (init handle core) acts = some w) (h : Ends t w a call o) :
    Caused handle core acts w a t call o := by
  have hi := endingsInv_exec handle core hrun
  cases h with
  | raises hr => exact .raised hr
  | owed hm =>
      obtain ⟨b, u, hb, hc⟩ := hi.coming t (Or.inl hm)
      exact .cancelled b u hb hc
  | failed hk hf =>
      obtain ⟨b, u, hb, hc⟩ := hi.coming t (Or.inr ⟨_, _, hk, hf⟩)
      exact .cancelled b u hb hc
  | spoiled hk hc hf =>
      obtain ⟨hslot, b, u, hb, hr⟩ := hi.spoilt t _ _ _ hk hf
      rw [hc hslot]
      exact .spoilt b u hb hr

/-- Over every run: a call without a result was ended by its task's last
step, with a cause. -/
theorem caused_exec {acts : List PcAction}
    (hrun : exec apply (init handle core) acts = some w) (hret : ∀ r, o ≠ .returned r)
    (ht : w.task t = .running (some (call, o))) :
    ∃ pre a u, Last apply (fun b _ => b.caller? = some t) (init handle core) acts pre a u
      ∧ Caused handle core pre u a t call o := by
  induction acts using List.reverseRecOn generalizing w with
  | nil =>
      cases hrun
      cases t <;> cases ht
  | append_singleton acts a ih =>
      rw [Transition.exec_snoc] at hrun
      obtain ⟨m, hm, ha⟩ := Option.bind_eq_some_iff.mp hrun
      rcases ended_apply hret ha ht with ⟨hother, hsame⟩ | ⟨hown, hends⟩
      · obtain ⟨pre, b, u, hb, hc⟩ := ih hm (hsame ▸ ht)
        exact ⟨pre, b, u, hb.snoc hm hother, hc⟩
      · exact ⟨acts, a, m, Transition.last_snoc hm ha hown,
          caused_of_ends handle core hm hends⟩

/-- Over every run: a call that raised does so at the last step its task
took in a call, which makes it raise exactly that or finds the exception
in the future it waits for, where a step has put it; and a call that ended
cancelled, for a step that cancelled its own task or reset the slot it
waited for, from which on the cancellation was coming. -/
theorem endings_caused {acts : List PcAction} {v : PcWorld}
    (hrun : exec apply (init handle core) acts = some v) :
    (∀ t call e, v.task t = .running (some (call, .raised e)) →
        ∃ pre b m, Last apply (fun c _ => c.caller? = some t) (init handle core) acts pre b m
          ∧ (Raises t m b call e ∨ ∃ a u,
              Since apply (Spoilt t e) (init handle core) pre a u ∧ Raises t u a call e)) ∧
      ∀ t call, v.task t = .running (some (call, .cancelled)) →
        ∃ pre b m, Last apply (fun c _ => c.caller? = some t) (init handle core) acts pre b m
          ∧ ∃ a u, Since apply (Coming t) (init handle core) pre a u ∧ Cancels t u a := by
  constructor
  · intro t call e ht
    obtain ⟨pre, b, m, hlast, hc⟩ := caused_exec handle core hrun (by exact fun _ => nofun) ht
    refine ⟨pre, b, m, hlast, ?_⟩
    cases hc with
    | raised hr => exact Or.inl hr
    | spoilt a u hu hr => exact Or.inr ⟨a, u, hu, hr⟩
  · intro t call ht
    obtain ⟨pre, b, m, hlast, hc⟩ := caused_exec handle core hrun (by exact fun _ => nofun) ht
    refine ⟨pre, b, m, hlast, ?_⟩
    cases hc with
    | cancelled a u hu hc => exact ⟨a, u, hu, hc⟩

end Init

-- ============================================================== one run

/-- A second `set_local_description()` takes the first one's slot, the
connection fails under it, and a third comes after the close. -/
def spoiledRun : List PcAction :=
  [.loop (.setLocalDescription (.user 0) (.ok ())),
    .loop (.setLocalDescription (.user 1) (.ok ())),
    .loop (.resume (.user 0) (.ok (none, none))),
    .native (.fire (.stateChange .failed)), .native (.schedule 0), .loop .dispatch,
    .loop (.resume (.user 1) (.ok (none, none))), .loop .close,
    .loop (.createOffer (.user 2) (.ok ()))]

/-- `endings_caused` at `spoiledRun`, where one call is cancelled and two
raise. -/
theorem endings_caused_spoiledRun :
    ∃ v, exec apply (init 1 ⟨[], [], [], []⟩) spoiledRun = some v
      ∧ v.task (.user 0) = .running (some (.setLocalDescription, .cancelled))
      ∧ v.task (.user 1) = .running (some (.setLocalDescription,
        .raised (.connectionClosedError "peer connection closed")))
      ∧ v.task (.user 2) = .running (some (.createOffer,
        .raised (.connectionClosedError "peer connection is closed")))
      ∧ (∀ t call e, v.task t = .running (some (call, .raised e)) →
          ∃ pre b m, Last apply (fun c _ => c.caller? = some t) (init 1 ⟨[], [], [], []⟩)
              spoiledRun pre b m
            ∧ (Raises t m b call e ∨ ∃ a u,
              Since apply (Spoilt t e) (init 1 ⟨[], [], [], []⟩) pre a u
                ∧ Raises t u a call e))
      ∧ ∀ t call, v.task t = .running (some (call, .cancelled)) →
          ∃ pre b m, Last apply (fun c _ => c.caller? = some t) (init 1 ⟨[], [], [], []⟩)
              spoiledRun pre b m
            ∧ ∃ a u, Since apply (Coming t) (init 1 ⟨[], [], [], []⟩) pre a u
              ∧ Cancels t u a :=
  ⟨_, rfl, rfl, rfl, rfl, endings_caused 1 ⟨[], [], [], []⟩ rfl⟩

end PcWorld

end AioLibDataChannel
