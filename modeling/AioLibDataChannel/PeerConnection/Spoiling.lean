/-
What spoils the future a negotiation call waits for.

A call of a connection waits on a future that others reach: a report
that the connection closed or failed puts an exception into
`_local_description`, and the next negotiation call resets the slot and
cancels whoever still waits. `Raises` and `Cancels` list the steps that
make a call of a task raise or end cancelled, `Fails` those among them
that do it through its future.

Two things carry `failed_apply`. Tickets are handed out once, so no two
tasks await one future (`Sole`), and a cancellation that reaches a
future is its only waiter's. And what a step does to a waiter's future
is either nothing or a cancellation of its task (`Spared`), a reset, or
a dispatched report.
-/
import AioLibDataChannel.PeerConnection.Results

namespace AioLibDataChannel

open Asyncio (Event Future Outcome)
open Function (update)

-- ============================================================ vocabulary

/-- What the slot's future with this ticket failed with: an exception, or
a cancellation. -/
def PeerConnection.failed (pc : PeerConnection) : Negotiation → Nat → Option (Option Exc)
  | .localDescription, k => pc.localDescription.failed k
  | .gatheringComplete, k => pc.gatheringComplete.failed k

namespace PcWorld

variable {w w' w₁ w₂ w₃ : PcWorld} {t u : TaskId} {slot : Negotiation} {k : Nat}
  {x : Option Exc} {a : PcAction}

/-- The step abandons the slot's current future for a fresh one. -/
def Resets (slot : Negotiation) (w : PcWorld) : PcAction → Prop
  | .loop (.createOffer _ _) => w.pc.closed = false
  | .loop (.createAnswer _ _) => True
  | .loop (.setLocalDescription _ _) => slot = .localDescription
  | _ => False

/-- The step cancels the task: by name, or as one that a closing
connection owns. -/
def CancelsTask (t : TaskId) (w : PcWorld) : PcAction → Prop
  | .loop (.cancel u) => u = t
  | .loop .close => w.pc.closed = false ∧ t ∈ w.pc.tasks
  | .loop (.aclose _) => w.pc.closed = false ∧ t ∈ w.pc.tasks
  | _ => False

/-- The steps at which a call of `t` raises, or that make it raise once
it is resumed. -/
inductive Raises (t : TaskId) (w : PcWorld) : PcAction → PcCall → Exc → Prop
  | closed {answer : Except Exc Unit} (hc : w.pc.closed = true) :
      Raises t w (.loop (.createOffer t answer)) .createOffer
        (.connectionClosedError "peer connection is closed")
  /-- The native layer refused. -/
  | offer {e : Exc} (hc : w.pc.closed = false) :
      Raises t w (.loop (.createOffer t (.error e))) .createOffer e
  | answer {e : Exc} : Raises t w (.loop (.createAnswer t (.error e))) .createAnswer e
  | setLocal {e : Exc} :
      Raises t w (.loop (.setLocalDescription t (.error e))) .setLocalDescription e
  | channel {e : Exc} :
      Raises t w (.loop (.createDataChannel t (.error e))) .createDataChannel e
  /-- Gathering is over, and the description cannot be read. -/
  | read {call : PcCall} {k : Nat} {e : Exc}
      {read : Except Exc (Option String × Option String)}
      (ht : w.task t = .awaitingGathering call k) (hm : w.mustCancel t = false)
      (hs : w.pc.gatheringComplete.nth k = .settled (.returned ()))
      (hr : readDescription call read = .raised e) :
      Raises t w (.loop (.resume t read)) call e
  /-- The connection is reported closed or failed before the call has its
  description. -/
  | reported {k : Nat} {state : RTCState} {rest : List PcCallback}
      (ht : (w.task t).awaits = some (.localDescription, k))
      (hp : w.pc.settled .localDescription k = false)
      (hr : w.ready = .event (.stateChange state) :: rest)
      (hs : state = .closed ∨ state = .failed) :
      Raises t w (.loop .dispatch) .setLocalDescription
        (.connectionClosedError "peer connection closed")

/-- The steps that make a call of `t` end cancelled. -/
inductive Cancels (t : TaskId) (w : PcWorld) : PcAction → Prop
  | own {a : PcAction} (hc : CancelsTask t w a) : Cancels t w a
  /-- Another negotiation call resets the slot. -/
  | replaced {a : PcAction} {slot : Negotiation} {k : Nat}
      (ht : (w.task t).awaits = some (slot, k)) (hp : w.pc.settled slot k = false)
      (hr : Resets slot w a) : Cancels t w a

/-- The steps that make the future fail that `t` awaits. -/
inductive Fails (t : TaskId) (w : PcWorld) : PcAction → Negotiation → Option Exc → Prop
  | raises {a : PcAction} {e : Exc} (h : Raises t w a .setLocalDescription e) :
      Fails t w a .localDescription (some e)
  | cancels {a : PcAction} {slot : Negotiation} (h : Cancels t w a) : Fails t w a slot none

-- ===================================================== one waiter a future

/-- No two tasks await one future. -/
def Sole (w : PcWorld) : Prop :=
  ∀ t u slot k, (w.task t).awaits = some (slot, k) → (w.task u).awaits = some (slot, k) →
    t = u

/-- A step that starts no call brings no second waiter. -/
theorem Sole.of_eased (hs : Sole w) (he : Eased w w') : Sole w' := by
  intro t u slot k ht hu
  rcases he.awaits t with ht' | ht'
  · rcases he.awaits u with hu' | hu'
    · exact hs t u slot k (ht' ▸ ht) (hu' ▸ hu)
    · cases hu'.symm.trans hu
  · cases ht'.symm.trans ht

/-- A task that suspends takes the ticket there is. -/
theorem ticket_suspend (t : TaskId) (st : PcTask) (w : PcWorld) :
    (w.suspend t st).pc.ticket slot = w.pc.ticket slot := by
  unfold suspend
  split
  · exact ticket_cancelTask t slot _
  · rfl

/-- A call that starts gets a ticket nobody had. -/
theorem ticket_of_starts (hs : Starts w a t slot) (h : apply a w = some w') :
    w'.pc.ticket slot = w.pc.ticket slot + 1 := by
  have hboth : ∀ {call}, w.createDescription t call (.ok ()) = some w' →
      w'.pc.ticket .gatheringComplete = w.pc.ticket .gatheringComplete + 1 := by
    intro call hcall
    obtain ⟨-, ⟨e, he, -⟩ | ⟨-, rfl⟩⟩ := createDescription_eq hcall
    · cases he
    · rw [ticket_suspend]
      exact FutureSlot.reset_ticket _
  cases hs with
  | offer _ hc =>
      have hcall := (started_eq h).1
      rw [createOffer, if_neg (Bool.eq_false_iff.mp hc)] at hcall
      exact hboth hcall
  | answer _ => exact hboth (started_eq h).1
  | setLocal _ =>
      obtain ⟨-, ⟨e, he, -⟩ | ⟨-, rfl⟩⟩ := setLocalDescription_eq (started_eq h).1
      · cases he
      · rw [ticket_suspend]
        exact FutureSlot.reset_ticket _

/-- Every step keeps one waiter a future. -/
theorem sole_apply (hw : Ticketed w) (hs : Sole w) (h : apply a w = some w') : Sole w' := by
  rcases negotiation_cases h with heased | ⟨v, slot, hstarts, hopen⟩
  · exact hs.of_eased heased
  · have hnew := ticket_of_starts hstarts h
    have hold : ∀ {u slot' k}, u ≠ v → (w'.task u).awaits = some (slot', k) →
        (w.task u).awaits = some (slot', k) := fun hu hk => hopen.others _ hu ▸ hk
    -- the new waiter's ticket is above every old one
    have hlate : ∀ {u slot' k}, u ≠ v → (w'.task u).awaits = some (slot', k) →
        (w'.task v).awaits ≠ some (slot', k) := by
      intro u slot' k hu hk hv
      rw [hopen.awaits] at hv
      obtain ⟨rfl, rfl⟩ := Prod.mk.inj (Option.some.inj hv)
      have hle := hw u slot _ (hold hu hk)
      omega
    intro t u slot' k ht hu
    by_cases htv : t = v
    · subst htv
      by_cases hut : u = t
      · exact hut.symm
      · exact absurd ht (hlate hut hu)
    · by_cases huv : u = v
      · subst huv
        exact absurd hu (hlate htv ht)
      · exact hs t u slot' k (hold htv ht) (hold huv hu)

/-- At the start nobody waits. -/
theorem sole_init (handle : Int) (core : Core) : Sole (init handle core) := by
  intro t u slot k hk
  cases t <;> cases hk

/-- A pending future is the current one. -/
theorem ticket_of_pending (hw : Ticketed w) (ht : (w.task t).awaits = some (slot, k))
    (hp : w.pc.settled slot k = false) : k = w.pc.ticket slot := by
  refine Nat.le_antisymm (hw t slot k ht) (Nat.le_of_not_lt fun hlt => ?_)
  cases slot with
  | localDescription => exact Bool.false_ne_true (hp.symm.trans (FutureSlot.nth_done_of_lt hlt))
  | gatheringComplete =>
      exact Bool.false_ne_true (hp.symm.trans (FutureSlot.nth_done_of_lt hlt))

-- ================================================ steps that only cancel

/-- The step starts no call and spoils no future, except by cancelling
tasks in `C`. -/
structure Spared (C : TaskId → Prop) (w w' : PcWorld) : Prop where
  eased : Eased w w'
  failed : ∀ u slot k x, (w'.task u).awaits = some (slot, k) →
    w'.pc.failed slot k = some x → w.pc.failed slot k = some x ∨ (x = none ∧ C u)
  owed : ∀ u, w'.mustCancel u = true → w.mustCancel u = true ∨ C u

namespace Spared

variable {C D : TaskId → Prop}

/-- What two steps spare, both together spare. -/
theorem trans (h₁ : Spared C w₁ w₂) (h₂ : Spared C w₂ w₃) : Spared C w₁ w₃ where
  eased := h₁.eased.trans h₂.eased
  failed := by
    intro u slot k x hk hx
    rcases h₂.eased.awaits u with hu | hu
    · rcases h₂.failed u slot k x hk hx with hmid | hc
      · exact h₁.failed u slot k x (hu ▸ hk) hmid
      · exact Or.inr hc
    · cases hu.symm.trans hk
  owed := by
    intro u hu
    rcases h₂.owed u hu with hmid | hc
    · exact h₁.owed u hmid
    · exact Or.inr hc

/-- What is spared but for a few is spared but for more. -/
theorem mono (h : Spared C w w') (hCD : ∀ u, C u → D u) : Spared D w w' where
  eased := h.eased
  failed := fun u slot k x hk hx => (h.failed u slot k x hk hx).imp_right fun hc =>
    ⟨hc.1, hCD u hc.2⟩
  owed := fun u hu => (h.owed u hu).imp_right (hCD u)

/-- It touches neither slot. -/
theorem of_eq (he : Eased w w') (hl : w'.pc.localDescription = w.pc.localDescription)
    (hg : w'.pc.gatheringComplete = w.pc.gatheringComplete)
    (hm : ∀ u, w'.mustCancel u = true → w.mustCancel u = true) : Spared C w w' where
  eased := he
  failed := by
    intro u slot k x _ hx
    left
    cases slot with
    | localDescription =>
        rw [PeerConnection.failed, hl] at hx
        exact hx
    | gatheringComplete =>
        rw [PeerConnection.failed, hg] at hx
        exact hx
  owed := fun u hu => Or.inl (hm u hu)

end Spared

/-- A cancellation is owed to the task that is cancelled. -/
theorem owed_cancelTask (h : (w.cancelTask t).mustCancel u = true) :
    w.mustCancel u = true ∨ u = t := by
  unfold cancelTask at h
  split at h
  · exact Or.inl h
  · exact Or.inl h
  · split at h
    · exact owes_setMustCancel t w h
    · exact Or.inl h
  · split at h
    · exact owes_setMustCancel t w h
    · exact Or.inl h
  · exact owes_setMustCancel t w h
  · exact owes_setMustCancel t w h

/-- Cancelling a task reaches its own future. -/
theorem spared_cancelTask (hw : Ticketed w) (hs : Sole w) (t : TaskId) :
    Spared (· = t) w (w.cancelTask t) where
  eased := eased_cancelTask t w
  owed := fun _ hu => owed_cancelTask hu
  failed := by
    intro u slot k x hk hx
    rw [task_cancelTask] at hk
    -- what is pending is the current future, and `t` awaits that one
    have hsole : ∀ {k'}, (w.task t).awaits = some (slot, k') →
        w.pc.settled slot k' = false → w.pc.settled slot k = false → u = t := by
      intro k' ht hp' hp
      rw [ticket_of_pending hw ht hp', ← ticket_of_pending hw hk hp] at ht
      exact hs u t slot k hk ht
    unfold cancelTask at hx
    cases htask : w.task t with
    | awaitingGathering call k' =>
        rw [htask] at hx
        simp only at hx
        split at hx
        next => exact Or.inl hx
        next hp' =>
          cases slot with
          | localDescription => exact Or.inl hx
          | gatheringComplete =>
              rcases FutureSlot.failed_settle hx with hold | ⟨hp, ⟨e, he, -⟩ | ⟨-, hx⟩⟩
              · exact Or.inl hold
              · cases he
              · exact Or.inr ⟨hx, hsole (by rw [htask]; rfl) (Bool.eq_false_iff.mpr hp') hp⟩
    | awaitingLocal k' =>
        rw [htask] at hx
        simp only at hx
        split at hx
        next => exact Or.inl hx
        next hp' =>
          cases slot with
          | gatheringComplete => exact Or.inl hx
          | localDescription =>
              rcases FutureSlot.failed_settle hx with hold | ⟨hp, ⟨e, he, -⟩ | ⟨-, hx⟩⟩
              · exact Or.inl hold
              · cases he
              · exact Or.inr ⟨hx, hsole (by rw [htask]; rfl) (Bool.eq_false_iff.mpr hp') hp⟩
    | inWaitClosed call =>
        rw [htask] at hx
        left
        cases slot <;> exact hx
    | unborn =>
        rw [htask] at hx
        exact Or.inl hx
    | done =>
        rw [htask] at hx
        exact Or.inl hx
    | running last =>
        rw [htask] at hx
        exact Or.inl hx

/-- Cancelling tasks spares the others. -/
theorem spared_cancelTasks (ts : List TaskId) (hw : Ticketed w) (hs : Sole w) :
    Spared (· ∈ ts) w (w.cancelTasks ts) := by
  induction ts generalizing w with
  | nil => exact .of_eq (.refl w) rfl rfl fun _ hu => hu
  | cons t ts ih =>
      have hone := spared_cancelTask hw hs t
      have hrest := ih (hone.eased.ticketed hw) (hs.of_eased hone.eased)
      refine (hone.mono fun u hu => ?_).trans (hrest.mono fun u hu => ?_)
      · rw [hu]
        exact List.mem_cons_self
      · exact List.mem_cons_of_mem _ hu

/-- `close()` spares all but the tasks it cancels. -/
theorem spared_close (hw : Ticketed w) (hs : Sole w) :
    Spared (fun u => w.pc.closed = false ∧ u ∈ w.pc.tasks) w w.close := by
  unfold close
  split
  next => exact .of_eq (.refl w) rfl rfl fun _ hu => hu
  next hc =>
    have hclosing : Eased w { w with pc := { w.pc with closed := true } } :=
      .of_same_tasks ⟨.refl _, .refl _⟩ rfl
    have hcancels := spared_cancelTasks w.pc.tasks (hclosing.ticketed hw)
      (hs.of_eased hclosing)
    have hfirst : Spared (fun u => w.pc.closed = false ∧ u ∈ w.pc.tasks) w
        { w with pc := { w.pc with closed := true } } :=
      .of_eq hclosing rfl rfl fun _ hu => hu
    have hboth := hfirst.trans (hcancels.mono fun u hu => ⟨Bool.eq_false_iff.mpr hc, hu⟩)
    exact hboth.trans (.of_eq (.of_same_tasks ⟨.refl _, .refl _⟩ rfl) rfl rfl fun _ hu => hu)

/-- A task that suspends is owed nothing new. -/
theorem owed_suspend {st : PcTask} (h : (w.suspend t st).mustCancel u = true) :
    w.mustCancel u = true := by
  unfold suspend at h
  split at h
  next hm =>
    rcases owed_cancelTask h with hold | rfl
    · exact of_clearMustCancel (w := { w with task := update w.task t st }) hold
    · exact hm
  next => exact h

/-- Waiting for the closed event leaves the slots alone. -/
theorem spared_awaitClosed {C : TaskId → Prop} (call : PcCall) (t : TaskId) (w : PcWorld) :
    Spared C w (w.awaitClosed call t) := by
  have heased := eased_awaitClosed call t w
  unfold awaitClosed at heased ⊢
  split
  next hv =>
    rw [if_pos hv] at heased
    exact .of_eq heased rfl rfl fun _ hu => hu
  next hv =>
    rw [if_neg hv] at heased
    have hslots : ∀ v : PcWorld, (v.suspend t (.inWaitClosed call)).pc.localDescription
        = v.pc.localDescription ∧ (v.suspend t (.inWaitClosed call)).pc.gatheringComplete
          = v.pc.gatheringComplete := by
      intro v
      unfold suspend
      split
      · unfold cancelTask
        simp only [clearMustCancel, Function.update_self, and_self]
      · exact ⟨rfl, rfl⟩
    refine .of_eq heased ?_ ?_ fun u hu => owed_suspend (w := { w with
      pc := { w.pc with closedEvent := w.pc.closedEvent.park t } }) hu
    · exact (hslots _).1
    · exact (hslots _).2

/-- A wait that ends spares everybody. -/
theorem spared_endWait {C : TaskId → Prop} (call : PcCall) (o : Outcome PcResult Exc)
    (t : TaskId) (w : PcWorld) : Spared C w (w.endWait t call o) := by
  have heased := eased_endWait t call o w
  unfold endWait at heased ⊢
  split
  next hm =>
    rw [if_pos hm] at heased
    exact .of_eq heased rfl rfl fun u hu => of_clearMustCancel hu
  next hm =>
    rw [if_neg hm] at heased
    exact .of_eq heased rfl rfl fun u hu => hu

/-- A resumed call spares everybody. -/
theorem spared_resume {C : TaskId → Prop} {read : Except Exc (Option String × Option String)}
    (h : w.resume t read = some w') : Spared C w w' := by
  cases resume_cases h with
  | gathered call ticket o ht ho => exact spared_endWait call _ t w
  | described ticket o ht ho => exact spared_endWait _ _ t w
  | waited call ht hw =>
      have hleave : Spared C w
          { w with pc := { w.pc with closedEvent := w.pc.closedEvent.leave t } } :=
        .of_eq (.of_same_tasks ⟨.refl _, .refl _⟩ rfl) rfl rfl fun _ hu => hu
      exact hleave.trans (spared_endWait call _ t _)

/-- `create_data_channel()` spares everybody. -/
theorem spared_createDataChannel {C : TaskId → Prop} {answer : Except Exc Int}
    (h : w.createDataChannel t answer = some w') : Spared C w w' := by
  have heased := eased_createDataChannel h
  unfold createDataChannel at h
  split at h
  · cases answer with
    | error e =>
        cases h
        exact .of_eq heased rfl rfl fun _ hu => hu
    | ok handle =>
        simp only at h
        split at h
        · cases h
        · cases h
          exact .of_eq heased rfl rfl fun _ hu => hu
  · cases h

/-- A call that starts resets the slot it will wait for. -/
theorem resets_of_starts (h : Starts w a t slot) : Resets slot w a := by
  cases h with
  | offer _ hc => exact hc
  | answer _ => exact trivial
  | setLocal _ => exact rfl

/-- What is left once the dispatches and the negotiation calls are set
aside. -/
theorem spared_loop {b : PcLoop} (hw : Ticketed w) (hs : Sole w)
    (h : applyLoop b w = some w') (hd : b ≠ .dispatch)
    (hr : ∀ slot, ¬ Resets slot w (.loop b)) :
    Spared (CancelsTask · w (.loop b)) w w' := by
  have hquiet : w'.pc.localDescription = w.pc.localDescription →
      w'.pc.gatheringComplete = w.pc.gatheringComplete → w'.mustCancel = w.mustCancel →
      Spared (CancelsTask · w (.loop b)) w w' := by
    intro hl hg hm
    rcases negotiation_loop h with heased | ⟨t, slot, hstarts, -⟩
    · exact .of_eq heased hl hg fun u hu => hm ▸ hu
    · exact absurd (resets_of_starts hstarts) (hr slot)
  cases b with
  | dispatch => exact absurd rfl hd
  | close =>
      cases h
      exact spared_close hw hs
  | startTeardown =>
      obtain ⟨-, ⟨-, rfl⟩ | rfl⟩ := startTeardown_cases h
      · exact hquiet rfl rfl rfl
      · exact hquiet rfl rfl rfl
  | resumeTeardown =>
      obtain ⟨rfl, -⟩ := resumeTeardown_cases h
      exact hquiet rfl rfl rfl
  | endTeardown =>
      simp only [applyLoop, endTeardown] at h hquiet
      split at h
      · cases h
        exact hquiet rfl rfl rfl
      · cases h
  | spawnTask n =>
      simp only [applyLoop, spawnTask] at h hquiet
      split at h
      · split at h
        · cases h
          exact hquiet rfl rfl rfl
        · cases h
          exact hquiet rfl rfl rfl
      · cases h
  | finish n =>
      simp only [applyLoop, finish] at h hquiet
      split at h
      · cases h
        exact hquiet rfl rfl rfl
      · cases h
  | discard u =>
      simp only [applyLoop, discard] at h hquiet
      split at h
      · cases h
        exact hquiet rfl rfl rfl
      · cases h
  | createOffer u answer =>
      have hclosed : w.pc.closed = true := (Bool.not_eq_false _).mp (hr .gatheringComplete)
      have hcall := (started_eq h).1
      rw [createOffer, if_pos hclosed] at hcall
      cases hcall
      exact .of_eq (eased_finishCall u _ _ w) rfl rfl fun _ hu => hu
  | createAnswer u answer => exact absurd trivial (hr .gatheringComplete)
  | setLocalDescription u answer => exact absurd rfl (hr .localDescription)
  | createDataChannel u answer => exact spared_createDataChannel (started_eq h).1
  | destroyChannel n =>
      simp only [applyLoop, destroyChannel] at h hquiet
      split at h
      · cases h
      · cases h
        exact hquiet rfl rfl rfl
  | aclose u =>
      cases (started_eq h).1
      exact (spared_close hw hs).trans (spared_awaitClosed .aclose u w.close)
  | waitClosed u =>
      cases (started_eq h).1
      exact spared_awaitClosed .waitClosed u w
  | resume u read => exact spared_resume h
  | cancel u =>
      cases h
      exact (spared_cancelTask hw hs u).mono fun _ hv => hv.symm
  | absorb u =>
      cases (started_eq h).1
      exact .of_eq (eased_clearMustCancel u w) rfl rfl fun _ hv => of_clearMustCancel hv

-- ========================================================= the dispatches

/-- A dispatch fails a future by a report that the connection closed or
failed. -/
theorem failed_dispatch (h : w.dispatch = some w')
    (hk : (w.task t).awaits = some (slot, k)) (hx : w'.pc.failed slot k = some x) :
    w.pc.failed slot k = some x ∨ Fails t w (.loop .dispatch) slot x := by
  unfold dispatch at h
  split at h
  · cases h
  next cb rest hr =>
    split at h
    next desc =>
      cases h
      cases slot with
      | gatheringComplete => exact Or.inl hx
      | localDescription =>
          rcases FutureSlot.failed_settle hx with hold | ⟨-, ⟨e, he, -⟩ | ⟨he, -⟩⟩
          · exact Or.inl hold
          · cases he
          · cases he
    next state =>
      cases h
      by_cases hstate : state = .closed ∨ state = .failed
      · simp only [PeerConnection.handleStateChange, if_pos hstate] at hx
        cases slot with
        | gatheringComplete =>
            simp only [PeerConnection.failed] at hx
            split at hx
            · exact Or.inl hx
            · rcases FutureSlot.failed_settle hx with hold | ⟨-, ⟨e, he, -⟩ | ⟨he, -⟩⟩
              · exact Or.inl hold
              · cases he
              · cases he
        | localDescription =>
            simp only [PeerConnection.failed] at hx
            split at hx
            · exact Or.inl hx
            · rcases FutureSlot.failed_settle hx with hold | ⟨hp, ⟨e, he, rfl⟩ | ⟨he, -⟩⟩
              · exact Or.inl hold
              · cases he
                exact Or.inr (.raises (.reported hk hp hr hstate))
              · cases he
      · simp only [PeerConnection.handleStateChange, if_neg hstate] at hx
        left
        cases slot <;> exact hx
    next state =>
      cases h
      cases slot with
      | localDescription => exact Or.inl hx
      | gatheringComplete =>
          simp only [PeerConnection.handleGatheringState, PeerConnection.failed] at hx
          split at hx
          · rcases FutureSlot.failed_settle hx with hold | ⟨-, ⟨e, he, -⟩ | ⟨he, -⟩⟩
            · exact Or.inl hold
            · cases he
            · cases he
          · exact Or.inl hx
    next handle =>
      cases h
      exact Or.inl hx
    next =>
      cases h
      left
      cases slot <;> exact hx

-- ======================================================= the negotiation calls

/-- A reset cancels a future that is pending. -/
theorem failed_resetBoth {pc : PeerConnection} (h : pc.resetBoth.failed slot k = some x) :
    pc.failed slot k = some x ∨ (pc.settled slot k = false ∧ x = none) := by
  cases slot with
  | localDescription =>
      exact (FutureSlot.failed_reset h).imp_right fun hr => ⟨hr.1, hr.2.2⟩
  | gatheringComplete =>
      exact (FutureSlot.failed_reset h).imp_right fun hr => ⟨hr.1, hr.2.2⟩

/-- A reset of one slot cancels that slot's future. -/
theorem failed_resetLocal {pc : PeerConnection} (h : pc.resetLocal.failed slot k = some x) :
    pc.failed slot k = some x
      ∨ (pc.settled slot k = false ∧ x = none ∧ slot = .localDescription) := by
  cases slot with
  | localDescription =>
      exact (FutureSlot.failed_reset h).imp_right fun hr => ⟨hr.1, hr.2.2, rfl⟩
  | gatheringComplete => exact Or.inl h

/-- The world a negotiation call suspends in: its slots are reset, and
its task has the new ticket. -/
theorem spared_suspend {pc : PeerConnection} {st : PcTask} {slot₀ : Negotiation}
    (hw : Ticketed w) (hs : Sole w) (hle : ∀ s, w.pc.ticket s ≤ pc.ticket s)
    (hlt : w.pc.ticket slot₀ < pc.ticket slot₀)
    (hst : st.awaits = some (slot₀, pc.ticket slot₀)) :
    Spared (fun u => u = t ∧ w.mustCancel t = true)
      ({ w with pc := pc, task := update w.task t st } : PcWorld)
      (({ w with pc := pc } : PcWorld).suspend t st) := by
  have hother : ∀ {u s k}, u ≠ t → (update w.task t st u).awaits = some (s, k) →
      (w.task u).awaits = some (s, k) := by
    intro u s k hu hk
    rw [Function.update_of_ne hu] at hk
    exact hk
  have hown : ∀ {s k}, (update w.task t st t).awaits = some (s, k) →
      s = slot₀ ∧ k = pc.ticket slot₀ := by
    intro s k hk
    rw [Function.update_self, hst] at hk
    obtain ⟨rfl, rfl⟩ := Prod.mk.inj (Option.some.inj hk)
    exact ⟨rfl, rfl⟩
  have hw₁ : Ticketed { w with pc := pc, task := update w.task t st } := by
    intro u s k hk
    by_cases hu : u = t
    · subst hu
      obtain ⟨rfl, rfl⟩ := hown hk
      exact Nat.le_refl _
    · exact Nat.le_trans (hw u s k (hother hu hk)) (hle s)
  have hs₁ : Sole { w with pc := pc, task := update w.task t st } := by
    have hfresh : ∀ {u s k}, u ≠ t → (update w.task t st u).awaits = some (s, k) →
        (update w.task t st t).awaits ≠ some (s, k) := by
      intro u s k hu hk hk'
      obtain ⟨rfl, rfl⟩ := hown hk'
      exact absurd (hw u s _ (hother hu hk)) (Nat.not_le_of_lt hlt)
    intro u v s k hu hv
    by_cases hut : u = t
    · subst hut
      by_cases hvu : v = u
      · exact hvu.symm
      · exact absurd hu (hfresh hvu hv)
    · by_cases hvt : v = t
      · subst hvt
        exact absurd hv (hfresh hut hu)
      · exact hs u v s k (hother hut hu) (hother hvt hv)
  unfold suspend
  split
  next hm =>
    have hclear : Spared (fun u => u = t ∧ w.mustCancel t = true)
        ({ w with pc := pc, task := update w.task t st } : PcWorld)
        (clearMustCancel t { w with pc := pc, task := update w.task t st }) :=
      .of_eq (eased_clearMustCancel t _) rfl rfl fun _ hv => of_clearMustCancel hv
    have hcancel := spared_cancelTask (hclear.eased.ticketed hw₁)
      (hs₁.of_eased hclear.eased) t
    exact hclear.trans (hcancel.mono fun u hu => ⟨hu, hm⟩)
  next => exact .of_eq (.refl _) rfl rfl fun _ hu => hu

/-- A native layer that refuses leaves the slots reset all the same. -/
theorem failed_refused {pc : PeerConnection} {call : PcCall} {o : Outcome PcResult Exc}
    (hreset : ∀ s k x, pc.failed s k = some x →
      w.pc.failed s k = some x ∨ (w.pc.settled s k = false ∧ x = none ∧ Resets s w a))
    (hk : ((({ w with pc := pc } : PcWorld).finishCall u call o).task t).awaits
      = some (slot, k))
    (hx : pc.failed slot k = some x) :
    ((w.task t).awaits = some (slot, k) ∧ w.pc.failed slot k = some x)
      ∨ Fails t w a slot x := by
  have heased := eased_finishCall u call o { w with pc := pc }
  have hold : (w.task t).awaits = some (slot, k) := by
    rcases heased.awaits t with ht | ht
    · exact ht ▸ hk
    · cases ht.symm.trans hk
  rcases hreset slot k x hx with hf | ⟨hp, rfl, hr⟩
  · exact Or.inl ⟨hold, hf⟩
  · exact Or.inr (.cancels (.replaced hold hp hr))

/-- A call that starts takes the future from whoever waited, and fails
its own only with a cancellation its task was owed. -/
theorem failed_started {pc : PeerConnection} {st : PcTask} {slot₀ : Negotiation}
    (hw : Ticketed w) (hs : Sole w) (hle : ∀ s, w.pc.ticket s ≤ pc.ticket s)
    (hlt : w.pc.ticket slot₀ < pc.ticket slot₀)
    (hst : st.awaits = some (slot₀, pc.ticket slot₀))
    (hreset : ∀ s k x, pc.failed s k = some x →
      w.pc.failed s k = some x ∨ (w.pc.settled s k = false ∧ x = none ∧ Resets s w a))
    (hfresh : pc.failed slot₀ (pc.ticket slot₀) = none)
    (hk : ((({ w with pc := pc } : PcWorld).suspend u st).task t).awaits = some (slot, k))
    (hx : (({ w with pc := pc } : PcWorld).suspend u st).pc.failed slot k = some x) :
    ((w.task t).awaits = some (slot, k) ∧ w.pc.failed slot k = some x)
      ∨ Fails t w a slot x ∨ (x = none ∧ w.mustCancel t = true) := by
  rcases (spared_suspend (t := u) hw hs hle hlt hst).failed t slot k x hk hx with
    hbefore | ⟨hnone, rfl, hm⟩
  · rw [task_suspend] at hk
    have hk' : (update w.task u st t).awaits = some (slot, k) := hk
    by_cases htu : t = u
    · subst htu
      rw [Function.update_self, hst] at hk'
      obtain ⟨rfl, rfl⟩ := Prod.mk.inj (Option.some.inj hk')
      have hsome : pc.failed slot₀ (pc.ticket slot₀) = some x := hbefore
      cases hfresh.symm.trans hsome
    · rw [Function.update_of_ne htu] at hk'
      rcases hreset slot k x hbefore with hold | ⟨hp, rfl, hr⟩
      · exact Or.inl ⟨hk', hold⟩
      · exact Or.inr (Or.inl (.cancels (.replaced hk' hp hr)))
  · exact Or.inr (Or.inr ⟨hnone, hm⟩)

/-- A call that resets both slots cancels who waited, for that cause. -/
theorem failed_createDescription {call : PcCall} {answer : Except Exc Unit}
    (hw : Ticketed w) (hs : Sole w) (hr : ∀ s, Resets s w a)
    (h : w.createDescription u call answer = some w')
    (hk : (w'.task t).awaits = some (slot, k)) (hx : w'.pc.failed slot k = some x) :
    ((w.task t).awaits = some (slot, k) ∧ w.pc.failed slot k = some x)
      ∨ Fails t w a slot x ∨ (x = none ∧ w.mustCancel t = true) := by
  have hreset : ∀ s k x, w.pc.resetBoth.failed s k = some x →
      w.pc.failed s k = some x ∨ (w.pc.settled s k = false ∧ x = none ∧ Resets s w a) :=
    fun s k x hf => (failed_resetBoth hf).imp_right fun hp => ⟨hp.1, hp.2, hr s⟩
  have hticket : ∀ s, w.pc.resetBoth.ticket s = w.pc.ticket s + 1 := by
    intro s
    cases s <;> exact FutureSlot.reset_ticket _
  obtain ⟨-, ⟨e, -, rfl⟩ | ⟨-, rfl⟩⟩ := createDescription_eq h
  · exact (failed_refused hreset hk hx).imp_right Or.inl
  · refine failed_started hw hs (fun s => ?_) ?_ rfl hreset ?_ hk hx
    · rw [hticket s]
      exact Nat.le_succ _
    · rw [hticket .gatheringComplete]
      exact Nat.lt_succ_self _
    · exact FutureSlot.failed_of_pending (FutureSlot.nth_of_ticket_le (Nat.le_refl _))

/-- `set_local_description()` cancels who waited for the description. -/
theorem failed_setLocalDescription {answer : Except Exc Unit} (hw : Ticketed w)
    (hs : Sole w) (h : w.setLocalDescription u answer = some w')
    (hk : (w'.task t).awaits = some (slot, k)) (hx : w'.pc.failed slot k = some x) :
    ((w.task t).awaits = some (slot, k) ∧ w.pc.failed slot k = some x)
      ∨ Fails t w (.loop (.setLocalDescription u answer)) slot x
      ∨ (x = none ∧ w.mustCancel t = true) := by
  have hreset : ∀ s k x, w.pc.resetLocal.failed s k = some x → w.pc.failed s k = some x
      ∨ (w.pc.settled s k = false ∧ x = none
        ∧ Resets s w (.loop (.setLocalDescription u answer))) :=
    fun s k x hf => failed_resetLocal hf
  have hticket : w.pc.resetLocal.ticket .localDescription
      = w.pc.ticket .localDescription + 1 := FutureSlot.reset_ticket _
  obtain ⟨-, ⟨e, -, rfl⟩ | ⟨-, rfl⟩⟩ := setLocalDescription_eq h
  · exact (failed_refused hreset hk hx).imp_right Or.inl
  · refine failed_started hw hs (fun s => ?_) ?_ rfl hreset ?_ hk hx
    · cases s with
      | localDescription =>
          rw [hticket]
          exact Nat.le_succ _
      | gatheringComplete => exact Nat.le_refl _
    · rw [hticket]
      exact Nat.lt_succ_self _
    · exact FutureSlot.failed_of_pending (FutureSlot.nth_of_ticket_le (Nat.le_refl _))

/-- A waiter's future failed before, fails for a cause, or is that of a
call whose task was owed a cancellation. -/
theorem failed_apply (hw : Ticketed w) (hs : Sole w) (h : apply a w = some w')
    (hk : (w'.task t).awaits = some (slot, k)) (hx : w'.pc.failed slot k = some x) :
    ((w.task t).awaits = some (slot, k) ∧ w.pc.failed slot k = some x)
      ∨ Fails t w a slot x ∨ (x = none ∧ w.mustCancel t = true) := by
  cases a with
  | native b =>
      obtain ⟨core, native, teardown, issued, inFlight, ready, rfl⟩ := applyNative_eq h
      exact Or.inl ⟨hk, by cases slot <;> exact hx⟩
  | loop b =>
      by_cases hd : b = .dispatch
      · subst hd
        rw [task_dispatch h] at hk
        exact (failed_dispatch h hk hx).imp (fun hf => ⟨hk, hf⟩) Or.inl
      by_cases hr : ∀ s, ¬ Resets s w (.loop b)
      · have hspared := spared_loop hw hs h hd hr
        have hk' : (w.task t).awaits = some (slot, k) := by
          rcases hspared.eased.awaits t with ht | ht
          · exact ht ▸ hk
          · cases ht.symm.trans hk
        rcases hspared.failed t slot k x hk hx with hold | ⟨rfl, hc⟩
        · exact Or.inl ⟨hk', hold⟩
        · exact Or.inr (Or.inl (.cancels (.own hc)))
      · obtain ⟨s, hr⟩ := not_forall_not.mp hr
        cases b with
        | createOffer u answer =>
            have hclosed : w.pc.closed = false := hr
            have hcall := (started_eq h).1
            rw [createOffer, if_neg (Bool.eq_false_iff.mp hclosed)] at hcall
            exact failed_createDescription hw hs (fun _ => hclosed) hcall hk hx
        | createAnswer u answer =>
            exact failed_createDescription hw hs (fun _ => trivial) (started_eq h).1 hk hx
        | setLocalDescription u answer =>
            exact failed_setLocalDescription hw hs (started_eq h).1 hk hx
        | _ => exact False.elim hr

/-- A cancellation is owed to a task that was cancelled. -/
theorem owed_apply (hw : Ticketed w) (hs : Sole w) (h : apply a w = some w')
    (hm : w'.mustCancel t = true) : w.mustCancel t = true ∨ CancelsTask t w a := by
  have hcreate : ∀ {v call answer}, w.createDescription v call answer = some w' →
      w.mustCancel t = true := by
    intro v call answer hcall
    obtain ⟨-, ⟨e, -, rfl⟩ | ⟨-, rfl⟩⟩ := createDescription_eq hcall
    · exact hm
    · exact owed_suspend (w := { w with pc := w.pc.resetBoth }) hm
  cases a with
  | native b =>
      obtain ⟨core, native, teardown, issued, inFlight, ready, rfl⟩ := applyNative_eq h
      exact Or.inl hm
  | loop b =>
      by_cases hd : b = .dispatch
      · subst hd
        left
        simp only [apply, applyLoop, dispatch] at h
        split at h
        · cases h
        · split at h <;> cases h <;> exact hm
      by_cases hr : ∀ s, ¬ Resets s w (.loop b)
      · exact (spared_loop hw hs h hd hr).owed t hm
      · obtain ⟨s, hr⟩ := not_forall_not.mp hr
        left
        cases b with
        | createOffer v answer =>
            have hclosed : w.pc.closed = false := hr
            have hcall := (started_eq h).1
            rw [createOffer, if_neg (Bool.eq_false_iff.mp hclosed)] at hcall
            exact hcreate hcall
        | createAnswer v answer => exact hcreate (started_eq h).1
        | setLocalDescription v answer =>
            obtain ⟨-, ⟨e, -, rfl⟩ | ⟨-, rfl⟩⟩ := setLocalDescription_eq (started_eq h).1
            · exact hm
            · exact owed_suspend (w := { w with pc := w.pc.resetLocal }) hm
        | _ => exact False.elim hr

end PcWorld

end AioLibDataChannel
