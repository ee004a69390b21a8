/-
Exceptions that nobody retrieves: why `FutureSlot.fail` adds
`_retrieve_exception` to the future it fails.

A future that was given an exception logs "Future exception was never
retrieved" when it is collected, unless somebody has read the exception
by then; `logTraceback` is that flag. A slot may fail with nobody
waiting, and be dropped or reset. The callback that `fail` adds goes into
the loop's ready list and reads the exception there, after the wakeups of
the tasks that do wait. While it is in the list the future is alive.

`retrieved_exact` says what this is worth, over every run of sets,
fails, resets, tasks that come, wait and are cancelled, and collections:
nothing is logged as long as the loop is open, and afterwards exactly the
failures whose callback the close of the loop cut off.
-/
import AioLibDataChannel.Transition.Run
import AioLibDataChannel.Wrapper.FutureSlot

namespace AioLibDataChannel

open Asyncio (Future Outcome)
open Function (update)
open Transition (exec Takes)

/-- What the loop has ready for a future: the wakeup of a task, or the
callback `fail` adds. -/
inductive SlotHandle
  | wakeup (t n : Nat)
  | retrieve (n : Nat)
deriving DecidableEq, Repr

/-- The future it is for. -/
def SlotHandle.ticket : SlotHandle → Nat
  | wakeup _ n => n
  | retrieve n => n

/-- A task that is suspended on a future. -/
structure SlotWaiter where
  task : Nat
  ticket : Nat
  mustCancel : Bool
deriving DecidableEq, Repr

/-- A slot, its futures by ticket, and the loop. -/
structure SlotWorld (α ε : Type) where
  slot : FutureSlot α ε
  /-- The owner of the slot still has it. -/
  held : Bool
  logTraceback : Nat → Bool
  waiting : List SlotWaiter
  ready : List SlotHandle
  /-- What tasks got of which future, oldest first. -/
  got : List (Nat × Nat × Outcome α ε)
  collected : Nat → Bool
  warned : List Nat
  isOpen : Bool

namespace SlotWorld

variable {α ε : Type}

def init : SlotWorld α ε where
  slot := .new
  held := true
  logTraceback := fun _ => false
  waiting := []
  ready := []
  got := []
  collected := fun _ => false
  warned := []
  isOpen := true

-- ============================================================ the slot

/-- The callbacks that a future schedules when it is done. -/
def wakeups (n : Nat) (w : SlotWorld α ε) : List SlotHandle :=
  (w.waiting.filter fun x => x.ticket = n).map fun x => .wakeup x.task n

/-- The current future is settled; `slot` is the slot afterwards. -/
def settle (slot : FutureSlot α ε) (w : SlotWorld α ε) : SlotWorld α ε :=
  if w.slot.future.done then { w with slot := slot }
  else { w with slot := slot, ready := w.ready ++ w.wakeups w.slot.ticket }

/-- `FutureSlot.fail`: the wakeups first, then the callback. -/
def fail (exc : ε) (w : SlotWorld α ε) : SlotWorld α ε :=
  if w.slot.future.done then w
  else
    let w' := w.settle (w.slot.fail exc)
    { w' with
      logTraceback := update w'.logTraceback w.slot.ticket true
      ready := w'.ready ++ [.retrieve w.slot.ticket] }

/-- `Future.result()` of a future that is done, in task `t`. -/
def result (t n : Nat) (o : Outcome α ε) (w : SlotWorld α ε) : SlotWorld α ε :=
  { w with logTraceback := update w.logTraceback n false, got := w.got ++ [(t, n, o)] }

/-- Task `t` awaits the current future. -/
def await (t : Nat) (w : SlotWorld α ε) : SlotWorld α ε :=
  match w.slot.future with
  | .pending => { w with waiting := w.waiting ++ [⟨t, w.slot.ticket, false⟩] }
  | .settled o => w.result t w.slot.ticket o

/-- `task.cancel()` of a task that is suspended on a future: the future is
cancelled, or, if it is done, the task when it wakes. -/
def cancelTask (t : Nat) (w : SlotWorld α ε) : SlotWorld α ε :=
  match w.waiting.find? fun x => x.task = t with
  | none => w
  | some x =>
      if (w.slot.nth x.ticket).done then
        { w with
          waiting := w.waiting.map fun y =>
            if y.task = t then { y with mustCancel := true } else y }
      else w.settle w.slot.cancel

/-- A task takes up again: it reads the future, whatever it goes on to
do. -/
def wake (t n : Nat) (w : SlotWorld α ε) : SlotWorld α ε :=
  match w.waiting.find? fun x => x.task = t, w.slot.nth n with
  | some x, .settled o =>
      { w with waiting := w.waiting.filter fun y => y.task ≠ t }.result t n
        (if x.mustCancel then .cancelled else o)
  | _, _ => w

/-- The loop runs the next callback that is ready. -/
def runReady (w : SlotWorld α ε) : Option (SlotWorld α ε) :=
  match w.ready with
  | [] => none
  | .wakeup t n :: rest => some ({ w with ready := rest }.wake t n)
  | .retrieve n :: rest =>
      some { w with ready := rest, logTraceback := update w.logTraceback n false }

/-- Nothing refers to the future any more. -/
def unreachable (n : Nat) (w : SlotWorld α ε) : Bool :=
  decide (n ≤ w.slot.ticket ∧ w.collected n = false ∧ (n < w.slot.ticket ∨ w.held = false)
    ∧ (∀ x ∈ w.waiting, x.ticket ≠ n) ∧ ∀ h ∈ w.ready, h.ticket ≠ n)

/-- `Future.__del__`. -/
def collect (n : Nat) (w : SlotWorld α ε) : SlotWorld α ε :=
  { w with
    collected := update w.collected n true
    warned := if w.logTraceback n then w.warned ++ [n] else w.warned }

-- ============================================================== actions

inductive Action (α ε : Type)
  | set (value : α)
  | fail (exc : ε)
  | reset
  | await (t : Nat)
  | cancelTask (t : Nat)
  | runReady
  | drop
  | collect (n : Nat)
  | close
  | forget (t : Nat)
deriving DecidableEq, Repr

/-- The slot is still there to be used, on a loop that runs. -/
def usable (w : SlotWorld α ε) : Bool := w.held && w.isOpen

/-- The transition. A loop that is closed forgets what was ready; its
tasks never go on, and are collected too. -/
def apply : Action α ε → SlotWorld α ε → Option (SlotWorld α ε)
  | .set value, w => if w.usable then some (w.settle (w.slot.set value)) else none
  | .fail exc, w => if w.usable then some (w.fail exc) else none
  | .reset, w => if w.usable then some (w.settle w.slot.reset) else none
  | .await t, w =>
      if w.usable && w.waiting.all fun x => x.task ≠ t then some (w.await t) else none
  | .cancelTask t, w => if w.isOpen then some (w.cancelTask t) else none
  | .runReady, w => if w.isOpen then w.runReady else none
  | .drop, w => some { w with held := false }
  | .collect n, w => if w.unreachable n then some (w.collect n) else none
  | .close, w => if w.isOpen then some { w with ready := [], isOpen := false } else none
  | .forget t, w =>
      if w.isOpen then none
      else some { w with waiting := w.waiting.filter fun x => x.task ≠ t }

variable {w w' : SlotWorld α ε} {a : Action α ε}

-- ================================================= futures that are done

/-- `slot'` comes after `slot`, and what a ticket read as settled it reads
so for good. -/
def Extends (slot slot' : FutureSlot α ε) : Prop :=
  slot.ticket ≤ slot'.ticket
    ∧ ∀ n o, n ≤ slot.ticket → slot.nth n = .settled o → slot'.nth n = .settled o

/-- A future that is settled stays as it was settled first. -/
theorem extends_settle (slot : FutureSlot α ε) (o : Outcome α ε) :
    Extends slot { slot with future := slot.future.settle o } := by
  refine ⟨Nat.le_refl _, fun n o' hn h => ?_⟩
  rcases Nat.lt_or_ge n slot.ticket with hlt | hge
  · rw [← h, FutureSlot.nth, FutureSlot.nth, List.getD_eq_getElem _ _ hlt,
      List.getD_eq_getElem _ _ hlt]
  · rw [FutureSlot.nth_of_ticket_le hge] at h
    have hread : ({ slot with future := slot.future.settle o } : FutureSlot α ε).nth n
        = slot.future.settle o := FutureSlot.nth_of_ticket_le hge
    rw [hread, h]
    rfl

/-- A reset slot keeps what its old future held. -/
theorem extends_reset (slot : FutureSlot α ε) : Extends slot slot.reset := by
  refine ⟨by rw [FutureSlot.reset_ticket]; exact Nat.le_succ _, fun n o hn h => ?_⟩
  rcases Nat.lt_or_eq_of_le hn with hlt | rfl
  · show (slot.past ++ [slot.future.cancel]).getD n _ = _
    rw [← h, FutureSlot.nth, List.getD_append _ _ _ _ hlt, List.getD_eq_getElem _ _ hlt,
      List.getD_eq_getElem _ _ hlt]
  · rw [FutureSlot.nth_of_ticket_le (Nat.le_refl _)] at h
    show (slot.past ++ [slot.future.cancel]).getD slot.past.length _ = _
    rw [List.getD_append_right _ _ _ _ (Nat.le_refl _), Nat.sub_self, h]
    rfl

-- =========================================================== the invariant

/-- A future that would log has an exception nobody got, and its callback
is ready as long as the loop is open. A callback is ready once, for a
future that failed, which would log unless somebody got its exception. -/
structure Retrieved (w : SlotWorld α ε) : Prop where
  failed : ∀ n, w.logTraceback n = true →
    n ≤ w.slot.ticket ∧ ∃ exc, w.slot.nth n = .settled (.raised exc)
  unread : ∀ n, w.logTraceback n = true → ∀ t o, (t, n, o) ∉ w.got
  answers : ∀ t n o, (t, n, o) ∈ w.got →
    n ≤ w.slot.ticket ∧ ∃ o', w.slot.nth n = .settled o' ∧ (o = .cancelled ∨ o = o')
  waiting : ∀ x ∈ w.waiting, x.ticket ≤ w.slot.ticket
  ready : ∀ h ∈ w.ready, h.ticket ≤ w.slot.ticket
  pending : w.isOpen = true → ∀ n, w.logTraceback n = true → .retrieve n ∈ w.ready
  due : ∀ n, .retrieve n ∈ w.ready → ∃ exc, w.slot.nth n = .settled (.raised exc)
  flagged : ∀ n, .retrieve n ∈ w.ready →
    w.logTraceback n = true ∨ ∃ t o, (t, n, o) ∈ w.got
  once : ∀ n, w.ready.count (.retrieve n) ≤ 1
  gone : ∀ n, w.collected n = true → n < w.slot.ticket ∨ w.held = false
  quiet : w.isOpen = true → w.warned = []
  clean : w.isOpen = true → ∀ n, w.collected n = true → w.logTraceback n = false

/-- Nothing has failed. -/
theorem retrieved_init : Retrieved (init : SlotWorld α ε) where
  failed := fun n hn => by cases hn
  unread := fun n hn => by cases hn
  answers := fun t n o h => by cases h
  waiting := fun x hx => by cases hx
  ready := fun h hh => by cases hh
  pending := fun _ n hn => by cases hn
  due := fun n hn => by cases hn
  flagged := fun n hn => by cases hn
  once := fun n => Nat.zero_le _
  gone := fun n hn => by cases hn
  quiet := fun _ => rfl
  clean := fun _ n hn => by cases hn

/-- The wakeups of a future hold no callback of a `fail`. -/
theorem retrieve_notMem_wakeups (n m : Nat) (w : SlotWorld α ε) :
    .retrieve n ∉ w.wakeups m := by
  intro hn
  obtain ⟨x, -, hx⟩ := List.mem_map.mp hn
  cases hx

/-- The wakeups of a future add no callback of a `fail`. -/
theorem count_wakeups (n m : Nat) (w : SlotWorld α ε) :
    (w.wakeups m).count (.retrieve n) = 0 :=
  List.count_eq_zero.mpr (retrieve_notMem_wakeups n m w)

/-- The wakeups of a settled future change no account. -/
theorem retrieved_settle (h : Retrieved w) {slot : FutureSlot α ε}
    (hslot : Extends w.slot slot) : Retrieved (w.settle slot) := by
  have hsame : Retrieved { w with slot := slot } := by
    refine { h with
      failed := fun n hn => ?_
      answers := fun t n o ho => ?_
      waiting := fun x hx => ?_
      ready := fun x hx => ?_
      due := fun n hn => ?_
      gone := fun n hn => ?_ }
    · obtain ⟨hle, exc, hexc⟩ := h.failed n hn
      exact ⟨Nat.le_trans hle hslot.1, exc, hslot.2 n _ hle hexc⟩
    · obtain ⟨hle, o', ho', heq⟩ := h.answers t n o ho
      exact ⟨Nat.le_trans hle hslot.1, o', hslot.2 n _ hle ho', heq⟩
    · exact Nat.le_trans (h.waiting x hx) hslot.1
    · exact Nat.le_trans (h.ready x hx) hslot.1
    · obtain ⟨exc, hexc⟩ := h.due n hn
      exact ⟨exc, hslot.2 n _ (h.ready (.retrieve n) hn) hexc⟩
    · exact (h.gone n hn).imp_left fun hlt => Nat.lt_of_lt_of_le hlt hslot.1
  unfold settle
  split
  next => exact hsame
  next =>
    have hold : ∀ n, .retrieve n ∈ w.ready ++ w.wakeups w.slot.ticket →
        .retrieve n ∈ w.ready := fun n hn =>
      (List.mem_append.mp hn).resolve_right (retrieve_notMem_wakeups n _ w)
    refine { hsame with
      ready := fun x hx => ?_
      pending := fun ho n hn => ?_
      due := fun n hn => hsame.due n (hold n hn)
      flagged := fun n hn => h.flagged n (hold n hn)
      once := fun n => ?_ }
    · rcases List.mem_append.mp hx with hx | hx
      · exact hsame.ready x hx
      · obtain ⟨y, -, rfl⟩ := List.mem_map.mp hx
        exact hslot.1
    · exact List.mem_append_left _ (h.pending ho n hn)
    · show (w.ready ++ w.wakeups w.slot.ticket).count (.retrieve n) ≤ 1
      rw [List.count_append, count_wakeups, Nat.add_zero]
      exact h.once n

/-- A failure is flagged and its callback made ready, behind the
wakeups. -/
theorem retrieved_fail (h : Retrieved w) (hheld : w.held = true) (exc : ε) :
    Retrieved (w.fail exc) := by
  unfold fail
  split
  next => exact h
  next hpending =>
    have hfut : w.slot.future = .pending := by
      cases hf : w.slot.future with
      | pending => rfl
      | settled o =>
          rw [hf] at hpending
          exact absurd rfl hpending
    have hs := retrieved_settle h (extends_settle w.slot (.raised exc))
    have hsettle : w.settle (w.slot.fail exc)
        = { w with slot := w.slot.fail exc, ready := w.ready ++ w.wakeups w.slot.ticket } :=
      if_neg hpending
    have hs' : Retrieved (w.settle (w.slot.fail exc)) := hs
    rw [hsettle] at hs' ⊢
    have hticket : (w.slot.fail exc).ticket = w.slot.ticket := rfl
    have hnow : (w.slot.fail exc).nth w.slot.ticket = .settled (.raised exc) := by
      rw [FutureSlot.nth_of_ticket_le (Nat.le_of_eq hticket)]
      show w.slot.future.settle _ = _
      rw [hfut]
      rfl
    have hflag : ∀ n, update w.logTraceback w.slot.ticket true n = true →
        n = w.slot.ticket ∨ w.logTraceback n = true := by
      intro n hn
      by_cases heq : n = w.slot.ticket
      · exact .inl heq
      · rw [Function.update_of_ne heq] at hn
        exact .inr hn
    refine { hs' with
      failed := fun n hn => ?_
      unread := fun n hn => ?_
      ready := fun x hx => ?_
      pending := fun ho n hn => ?_
      due := fun n hn => ?_
      flagged := fun n hn => ?_
      once := fun n => ?_
      clean := fun ho n hn => ?_ }
    · rcases hflag n hn with rfl | hn
      · exact ⟨Nat.le_refl _, exc, hnow⟩
      · exact hs'.failed n hn
    · rcases hflag n hn with rfl | hn
      · intro t o hgot
        -- Nobody gets anything of a future that is pending.
        obtain ⟨-, o', ho', -⟩ := h.answers t _ o hgot
        rw [FutureSlot.nth_of_ticket_le (Nat.le_refl _), hfut] at ho'
        cases ho'
      · exact h.unread n hn
    · rcases List.mem_append.mp hx with hx | hx
      · exact hs'.ready x hx
      · cases List.mem_singleton.mp hx
        exact Nat.le_refl _
    · rcases hflag n hn with rfl | hn
      · exact List.mem_append_right _ (List.mem_singleton.mpr rfl)
      · exact List.mem_append_left _ (hs'.pending ho n hn)
    · rcases List.mem_append.mp hn with hn | hn
      · exact hs'.due n hn
      · cases List.mem_singleton.mp hn
        exact ⟨exc, hnow⟩
    · by_cases heq : n = w.slot.ticket
      · subst heq
        exact .inl (Function.update_self ..)
      · rcases List.mem_append.mp hn with hn | hn
        · exact (hs'.flagged n hn).imp_left (Function.update_of_ne heq ..).trans
        · cases List.mem_singleton.mp hn
          exact absurd rfl heq
    · show (w.ready ++ w.wakeups w.slot.ticket
        ++ [SlotHandle.retrieve w.slot.ticket]).count (.retrieve n) ≤ 1
      rw [List.count_append, List.count_append, count_wakeups, Nat.add_zero]
      by_cases heq : n = w.slot.ticket
      · subst heq
        -- The future was pending, so its callback was not ready before.
        have hnone : .retrieve w.slot.ticket ∉ w.ready := by
          intro hin
          obtain ⟨e, he⟩ := h.due _ hin
          rw [FutureSlot.nth_of_ticket_le (Nat.le_refl _), hfut] at he
          cases he
        rw [List.count_eq_zero.mpr hnone, Nat.zero_add]
        exact List.count_le_length
      · have hother : SlotHandle.retrieve n ∉ [SlotHandle.retrieve w.slot.ticket] := by
          rw [List.mem_singleton, SlotHandle.retrieve.injEq]
          exact heq
        rw [List.count_eq_zero.mpr hother]
        exact h.once n
    · have hne : n ≠ w.slot.ticket := by
        rintro rfl
        rcases h.gone _ hn with hlt | hgone
        · exact absurd hlt (Nat.lt_irrefl _)
        · rw [hheld] at hgone
          cases hgone
      show update w.logTraceback w.slot.ticket true n = false
      rw [Function.update_of_ne hne]
      exact h.clean ho n hn

/-- A flag that is up after one was cleared is another. -/
theorem cleared {f : Nat → Bool} {n m : Nat} (h : update f n false m = true) :
    m ≠ n ∧ f m = true := by
  have hne : m ≠ n := by
    rintro rfl
    rw [Function.update_self] at h
    cases h
  rw [Function.update_of_ne hne] at h
  exact ⟨hne, h⟩

/-- Clearing a flag raises none. -/
theorem cleared_of {f : Nat → Bool} (n : Nat) {m : Nat} (h : f m = false) :
    update f n false m = false :=
  Bool.eq_false_iff.mpr fun ht => Bool.false_ne_true (h.symm.trans (cleared ht).2)

/-- Whoever gets the exception clears the flag. -/
theorem retrieved_result (h : Retrieved w) {t n : Nat} {o o' : Outcome α ε}
    (hn : n ≤ w.slot.ticket) (hread : w.slot.nth n = .settled o')
    (ho : o = .cancelled ∨ o = o') : Retrieved (w.result t n o) := by
  refine { h with
    failed := fun m hm => h.failed m (cleared hm).2
    unread := fun m hm t' x hx => ?_
    answers := fun t' m x hx => ?_
    pending := fun hopen m hm => h.pending hopen m (cleared hm).2
    flagged := fun m hm => ?_
    clean := fun hopen m hm => cleared_of n (h.clean hopen m hm) }
  · obtain ⟨hne, hm⟩ := cleared hm
    rcases List.mem_append.mp hx with hx | hx
    · exact h.unread m hm t' x hx
    · cases List.mem_singleton.mp hx
      exact hne rfl
  · rcases List.mem_append.mp hx with hx | hx
    · exact h.answers t' m x hx
    · cases List.mem_singleton.mp hx
      exact ⟨hn, o', hread, ho⟩
  · by_cases heq : m = n
    · subst heq
      exact .inr ⟨t, o, List.mem_append_right _ (List.mem_singleton.mpr rfl)⟩
    · refine (h.flagged m hm).imp (Function.update_of_ne heq ..).trans ?_
      rintro ⟨t', x, hx⟩
      exact ⟨t', x, List.mem_append_left _ hx⟩

/-- A task waits for a pending future, or gets what a settled one has. -/
theorem retrieved_await (h : Retrieved w) (t : Nat) : Retrieved (w.await t) := by
  unfold await
  split
  next =>
    refine { h with waiting := fun x hx => ?_ }
    rcases List.mem_append.mp hx with hx | hx
    · exact h.waiting x hx
    · cases List.mem_singleton.mp hx
      exact Nat.le_refl _
  next o hf =>
    have hread : w.slot.nth w.slot.ticket = .settled o := by
      rw [FutureSlot.nth_of_ticket_le (Nat.le_refl _), hf]
    exact retrieved_result h (Nat.le_refl _) hread (.inr rfl)

/-- A cancelled task cancels its future, which fails nothing. -/
theorem retrieved_cancelTask (h : Retrieved w) (t : Nat) : Retrieved (w.cancelTask t) := by
  unfold cancelTask
  split
  next => exact h
  next x hx =>
    split
    · refine { h with waiting := fun y hy => ?_ }
      obtain ⟨z, hz, rfl⟩ := List.mem_map.mp hy
      split <;> exact h.waiting z hz
    · exact retrieved_settle h (extends_settle w.slot .cancelled)

/-- A task that wakes gets what its future has. -/
theorem retrieved_wake (h : Retrieved w) {t n : Nat} (hn : n ≤ w.slot.ticket) :
    Retrieved (w.wake t n) := by
  unfold wake
  split
  next x o _ ho =>
    have hgone : Retrieved { w with waiting := w.waiting.filter fun y => y.task ≠ t } :=
      { h with waiting := fun y hy => h.waiting y (List.mem_filter.mp hy).1 }
    refine retrieved_result hgone hn ho ?_
    split
    · exact .inl rfl
    · exact .inr rfl
  next => exact h

/-- A wakeup or a callback that runs takes its flag down. -/
theorem retrieved_runReady (h : Retrieved w) (hrun : w.runReady = some w') :
    Retrieved w' := by
  unfold runReady at hrun
  split at hrun
  next => cases hrun
  next t n rest hready =>
    cases hrun
    have hrest : ∀ x ∈ rest, x ∈ w.ready := fun x hx => by
      rw [hready]
      exact List.mem_cons_of_mem _ hx
    have hpop : Retrieved { w with ready := rest } := by
      refine { h with
        ready := fun x hx => h.ready x (hrest x hx)
        pending := fun ho m hm => ?_
        due := fun m hm => h.due m (hrest _ hm)
        flagged := fun m hm => h.flagged m (hrest _ hm)
        once := fun m => Nat.le_trans ?_ (h.once m) }
      · have hmem := h.pending ho m hm
        rw [hready] at hmem
        exact (List.mem_cons.mp hmem).resolve_left fun heq => by cases heq
      · rw [hready]
        exact List.count_le_count_cons
    exact retrieved_wake hpop
      (h.ready (.wakeup t n) (by rw [hready]; exact List.mem_cons_self))
  next n rest hready =>
    cases hrun
    have hrest : ∀ x ∈ rest, x ∈ w.ready := fun x hx => by
      rw [hready]
      exact List.mem_cons_of_mem _ hx
    refine { h with
      failed := fun m hm => h.failed m (cleared hm).2
      unread := fun m hm => h.unread m (cleared hm).2
      ready := fun x hx => h.ready x (hrest x hx)
      pending := fun ho m hm => ?_
      due := fun m hm => h.due m (hrest _ hm)
      flagged := fun m hm => ?_
      once := fun m => Nat.le_trans ?_ (h.once m)
      clean := fun hopen m hm => cleared_of n (h.clean hopen m hm) }
    · obtain ⟨hne, hm⟩ := cleared hm
      have hmem := h.pending ho m hm
      rw [hready] at hmem
      exact (List.mem_cons.mp hmem).resolve_left fun heq => by cases heq; exact hne rfl
    · by_cases heq : m = n
      · subst heq
        -- This callback was the only one, and it has run.
        have honce := h.once m
        rw [hready, List.count_cons_self] at honce
        have hpos : 0 < rest.count (.retrieve m) := List.count_pos_iff.mpr hm
        omega
      · exact (h.flagged m (hrest _ hm)).imp_left (Function.update_of_ne heq ..).trans
    · rw [hready]
      exact List.count_le_count_cons

/-- On an open loop a future that would log is not collected. -/
theorem unreachable_spec {n : Nat} (hu : w.unreachable n = true) :
    w.collected n = false ∧ (n < w.slot.ticket ∨ w.held = false)
      ∧ ∀ h ∈ w.ready, h.ticket ≠ n := by
  have hu := of_decide_eq_true hu
  exact ⟨hu.2.1, hu.2.2.1, hu.2.2.2.2⟩

/-- A future that is collected on an open loop logs nothing. -/
theorem silent_of_open (h : Retrieved w) (hopen : w.isOpen = true) {n : Nat}
    (hu : w.unreachable n = true) : w.logTraceback n = false :=
  Bool.eq_false_iff.mpr fun hn =>
    (unreachable_spec hu).2.2 (.retrieve n) (h.pending hopen n hn) rfl

/-- A collection keeps the account. -/
theorem retrieved_collect (h : Retrieved w) {n : Nat} (hu : w.unreachable n = true) :
    Retrieved (w.collect n) := by
  refine { h with
    gone := fun m hm => ?_
    quiet := fun ho => ?_
    clean := fun ho m hm => ?_ }
  · by_cases heq : m = n
    · subst heq
      exact (unreachable_spec hu).2.1
    · have hat : update w.collected n true m = true := hm
      rw [Function.update_of_ne heq] at hat
      exact h.gone m hat
  · show (if w.logTraceback n then w.warned ++ [n] else w.warned) = []
    rw [silent_of_open h ho hu]
    exact h.quiet ho
  · by_cases heq : m = n
    · subst heq
      exact silent_of_open h ho hu
    · have hat : update w.collected n true m = true := hm
      rw [Function.update_of_ne heq] at hat
      exact h.clean ho m hat

/-- Every step keeps the account. -/
theorem retrieved_apply (h : Retrieved w) (ha : apply a w = some w') : Retrieved w' := by
  cases a with
  | set value =>
      obtain ⟨-, ha⟩ := Option.ite_none_right_eq_some.mp ha
      cases ha
      exact retrieved_settle h (extends_settle w.slot (.returned value))
  | fail exc =>
      obtain ⟨hu, ha⟩ := Option.ite_none_right_eq_some.mp ha
      cases ha
      exact retrieved_fail h (Bool.and_eq_true_iff.mp hu).1 exc
  | reset =>
      obtain ⟨-, ha⟩ := Option.ite_none_right_eq_some.mp ha
      cases ha
      exact retrieved_settle h (extends_reset w.slot)
  | await t =>
      obtain ⟨-, ha⟩ := Option.ite_none_right_eq_some.mp ha
      cases ha
      exact retrieved_await h t
  | cancelTask t =>
      obtain ⟨-, ha⟩ := Option.ite_none_right_eq_some.mp ha
      cases ha
      exact retrieved_cancelTask h t
  | runReady =>
      obtain ⟨-, ha⟩ := Option.ite_none_right_eq_some.mp ha
      exact retrieved_runReady h ha
  | drop =>
      cases ha
      exact { h with gone := fun n _ => .inr rfl }
  | collect n =>
      obtain ⟨hu, ha⟩ := Option.ite_none_right_eq_some.mp ha
      cases ha
      exact retrieved_collect h hu
  | close =>
      obtain ⟨-, ha⟩ := Option.ite_none_right_eq_some.mp ha
      cases ha
      exact { h with
        ready := fun x hx => by cases hx
        pending := fun ho => by cases ho
        due := fun n hn => by cases hn
        flagged := fun n hn => by cases hn
        once := fun n => Nat.zero_le _
        quiet := fun ho => by cases ho
        clean := fun ho => by cases ho }
  | forget t =>
      obtain ⟨-, ha⟩ := Option.ite_none_left_eq_some.mp ha
      cases ha
      exact { h with waiting := fun x hx => h.waiting x (List.mem_filter.mp hx).1 }

-- ================================================================ closing

/-- What the close of the loop left: no flag has changed since, and the
futures that logged are the flagged ones among those collected. -/
def ClosedAt (m w : SlotWorld α ε) : Prop :=
  w.logTraceback = m.logTraceback
    ∧ ∀ n, n ∈ w.warned ↔ w.collected n = true ∧ m.logTraceback n = true

/-- What the close leaves, it leaves flagged. -/
theorem closedAt_close (h : Retrieved w) (hopen : w.isOpen = true) :
    ClosedAt w { w with ready := [], isOpen := false } := by
  refine ⟨rfl, fun n => iff_of_false ?_ fun hn => ?_⟩
  · show n ∉ w.warned
    rw [h.quiet hopen]
    exact List.not_mem_nil
  · exact Bool.false_ne_true ((h.clean hopen n hn.1).symm.trans hn.2)

/-- A future that is collected later logs if it was left flagged. -/
theorem closedAt_collect {m : SlotWorld α ε} (h : ClosedAt m w) (n : Nat) :
    ClosedAt m (w.collect n) := by
  refine ⟨h.1, fun k => ?_⟩
  show k ∈ (if w.logTraceback n then w.warned ++ [n] else w.warned)
    ↔ update w.collected n true k = true ∧ m.logTraceback k = true
  by_cases hk : k = n
  · subst hk
    rw [Function.update_self, h.1]
    split
    next hflag =>
      exact iff_of_true (List.mem_append_right _ (List.mem_singleton.mpr rfl)) ⟨rfl, hflag⟩
    next hflag =>
      exact iff_of_false (fun hin => hflag ((h.2 k).mp hin).2) fun hin => hflag hin.2
  · rw [Function.update_of_ne hk, ← h.2 k]
    split
    next =>
      rw [List.mem_append, List.mem_singleton]
      exact or_iff_left hk
    next => exact Iff.rfl

/-- A step on a closed loop. -/
theorem closedAt_apply {m : SlotWorld α ε} (h : ClosedAt m w) (hclosed : w.isOpen = false)
    (ha : apply a w = some w') : ClosedAt m w' ∧ w'.isOpen = false := by
  have hdead : w.usable = false := by
    unfold usable
    rw [hclosed, Bool.and_false]
  cases a with
  | drop =>
      cases ha
      exact ⟨h, hclosed⟩
  | collect n =>
      obtain ⟨-, ha⟩ := Option.ite_none_right_eq_some.mp ha
      cases ha
      exact ⟨closedAt_collect h n, hclosed⟩
  | forget t =>
      obtain ⟨-, ha⟩ := Option.ite_none_left_eq_some.mp ha
      cases ha
      exact ⟨h, hclosed⟩
  | await t =>
      obtain ⟨hen, -⟩ := Option.ite_none_right_eq_some.mp ha
      rw [hdead, Bool.false_and] at hen
      cases hen
  | set value =>
      obtain ⟨hen, -⟩ := Option.ite_none_right_eq_some.mp ha
      cases hdead.symm.trans hen
  | fail exc =>
      obtain ⟨hen, -⟩ := Option.ite_none_right_eq_some.mp ha
      cases hdead.symm.trans hen
  | reset =>
      obtain ⟨hen, -⟩ := Option.ite_none_right_eq_some.mp ha
      cases hdead.symm.trans hen
  | cancelTask t =>
      obtain ⟨hen, -⟩ := Option.ite_none_right_eq_some.mp ha
      cases hclosed.symm.trans hen
  | runReady =>
      obtain ⟨hen, -⟩ := Option.ite_none_right_eq_some.mp ha
      cases hclosed.symm.trans hen
  | close =>
      obtain ⟨hen, -⟩ := Option.ite_none_right_eq_some.mp ha
      cases hclosed.symm.trans hen

/-- Settling a future does not close the loop. -/
theorem isOpen_settle (slot : FutureSlot α ε) (w : SlotWorld α ε) :
    (w.settle slot).isOpen = w.isOpen := by
  unfold settle
  split <;> rfl

/-- A task that wakes does not close it. -/
theorem isOpen_wake (t n : Nat) (w : SlotWorld α ε) : (w.wake t n).isOpen = w.isOpen := by
  unfold wake
  split <;> rfl

/-- No callback closes it. -/
theorem isOpen_runReady (ha : w.runReady = some w') : w'.isOpen = w.isOpen := by
  unfold runReady at ha
  split at ha
  next => cases ha
  next =>
    cases ha
    exact isOpen_wake ..
  next =>
    cases ha
    rfl

/-- Only `close` closes the loop. -/
theorem isOpen_apply (ha : apply a w = some w') (hne : a ≠ .close) :
    w'.isOpen = w.isOpen := by
  cases a with
  | set value =>
      obtain ⟨-, ha⟩ := Option.ite_none_right_eq_some.mp ha
      cases ha
      exact isOpen_settle ..
  | fail exc =>
      obtain ⟨-, ha⟩ := Option.ite_none_right_eq_some.mp ha
      cases ha
      unfold fail
      split
      · rfl
      · exact isOpen_settle ..
  | reset =>
      obtain ⟨-, ha⟩ := Option.ite_none_right_eq_some.mp ha
      cases ha
      exact isOpen_settle ..
  | await t =>
      obtain ⟨-, ha⟩ := Option.ite_none_right_eq_some.mp ha
      cases ha
      unfold await
      split <;> rfl
  | cancelTask t =>
      obtain ⟨-, ha⟩ := Option.ite_none_right_eq_some.mp ha
      cases ha
      unfold cancelTask
      split
      next => rfl
      next =>
        split
        · rfl
        · exact isOpen_settle ..
  | runReady =>
      obtain ⟨-, ha⟩ := Option.ite_none_right_eq_some.mp ha
      exact isOpen_runReady ha
  | drop =>
      cases ha
      rfl
  | collect n =>
      obtain ⟨-, ha⟩ := Option.ite_none_right_eq_some.mp ha
      cases ha
      rfl
  | close => exact absurd rfl hne
  | forget t =>
      obtain ⟨-, ha⟩ := Option.ite_none_left_eq_some.mp ha
      cases ha
      rfl

/-- The future failed, nobody got its exception, and the callback that
would have read it is still to come. -/
def Cut (m : SlotWorld α ε) (n : Nat) : Prop :=
  .retrieve n ∈ m.ready ∧ (∃ exc, m.slot.nth n = .settled (.raised exc))
    ∧ ∀ t o, (t, n, o) ∉ m.got

/-- On an open loop the flag of a future is up just when its failure is
still to be retrieved. -/
theorem logTraceback_iff_cut (h : Retrieved w) (hopen : w.isOpen = true) (n : Nat) :
    w.logTraceback n = true ↔ w.Cut n := by
  constructor
  · intro hn
    exact ⟨h.pending hopen n hn, (h.failed n hn).2, h.unread n hn⟩
  · rintro ⟨hready, -, hnobody⟩
    refine (h.flagged n hready).resolve_right ?_
    rintro ⟨t, o, ho⟩
    exact hnobody t o ho

/-- What is logged, over a run that ends in `w`. -/
structure Hygienic (acts : List (Action α ε)) (w : SlotWorld α ε) : Prop where
  /-- Nothing, as long as the loop is open, -/
  quiet : w.isOpen = true → w.warned = []
  /-- and then just the futures that are collected and whose failure the
  close of the loop cut off. -/
  closing : w.isOpen = false → ∃ m, Takes apply init acts .close m
    ∧ ∀ n, n ∈ w.warned ↔ w.collected n = true ∧ m.Cut n
  /-- These are the futures that are flagged when the loop is closed. -/
  cut : ∀ m, Takes apply init acts .close m → ∀ n, m.logTraceback n = true ↔ m.Cut n
  /-- Whoever waits gets what the future has, or is cancelled. -/
  answers : ∀ t n o, (t, n, o) ∈ w.got → o = .cancelled ∨ w.slot.nth n = .settled o

/-- `_retrieve_exception` keeps every failure quiet that the loop lives to
see, and takes nothing away from those who wait. -/
theorem retrieved_exact {acts : List (Action α ε)} (h : exec apply init acts = some w) :
    Hygienic acts w := by
  have hinv : ∀ {bs : List (Action α ε)} {m : SlotWorld α ε},
      exec apply init bs = some m → Retrieved m := fun hm =>
    (Transition.reachable_of_exec hm).invariant retrieved_init retrieved_apply
  have hclosing : w.isOpen = false →
      ∃ m, Takes apply init acts .close m ∧ ClosedAt m w := by
    refine Transition.exec_invariant
      (P := fun bs v => v.isOpen = false → ∃ m, Takes apply init bs .close m ∧ ClosedAt m v)
      (fun hc => by cases hc) ?_ h
    intro bs b m v hm ih hb hclosed
    cases hopen : m.isOpen with
    | false =>
        obtain ⟨u, hu, hat⟩ := ih hopen
        exact ⟨u, Transition.takes_snoc_iff.mpr (.inl hu), (closedAt_apply hat hopen hb).1⟩
    | true =>
        have hb' : b = .close := by
          by_contra hne
          exact Bool.false_ne_true
            (hclosed.symm.trans ((isOpen_apply hb hne).trans hopen))
        subst hb'
        obtain ⟨-, hb⟩ := Option.ite_none_right_eq_some.mp hb
        cases hb
        exact ⟨m, Transition.takes_snoc_iff.mpr (.inr ⟨rfl, hm⟩),
          closedAt_close (hinv hm) hopen⟩
  have hflags : ∀ m, Takes apply init acts .close m →
      ∀ n, m.logTraceback n = true ↔ m.Cut n := by
    intro m hm
    have hr : Retrieved m := hm.visits.reachable.invariant retrieved_init retrieved_apply
    obtain ⟨v, hv⟩ := hm.enabled h
    obtain ⟨hopen, -⟩ := Option.ite_none_right_eq_some.mp hv
    exact logTraceback_iff_cut hr hopen
  constructor
  case quiet => exact (hinv h).quiet
  case closing =>
    intro hc
    obtain ⟨m, hm, hat⟩ := hclosing hc
    refine ⟨m, hm, fun n => ?_⟩
    rw [hat.2 n, hflags m hm n]
  case cut => exact hflags
  case answers =>
    intro t n o ho
    obtain ⟨-, o', ho', heq⟩ := (hinv h).answers t n o ho
    refine heq.imp_right fun heq => ?_
    rw [heq]
    exact ho'

/-- A slot fails with nobody waiting and is reset; then it fails with a
task waiting, and the loop is closed before either callback runs. -/
def cutRun : List (Action Unit String) :=
  [.fail "closed", .reset, .runReady, .collect 0, .await 3, .fail "gone", .drop, .close,
    .forget 3, .collect 1]

theorem retrieved_exact_cutRun :
    ∃ w, exec apply (init : SlotWorld Unit String) cutRun = some w
      ∧ w.warned = [1] ∧ w.collected 0 = true ∧ Hygienic cutRun w :=
  ⟨_, rfl, rfl, rfl, @retrieved_exact Unit String _ cutRun rfl⟩

end SlotWorld

end AioLibDataChannel
