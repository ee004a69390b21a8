/-
No thread waits for a callback mutex with the GIL in hand — unless a
binding function that keeps the GIL makes libdatachannel write a log
line.

# The discipline

Read a thread's code knowing whether it holds the GIL, and every lock of
a callback mutex should stand where it does not (`obeys`). The bindings
are written so: those that do more than read or write a field are inside
`no_gil`, and a trampoline takes the GIL inside the mutex and gives it
back before the mutex is. Every step keeps the discipline
(`disciplined_apply`), except one: a call made with the GIL, about a
handle that libdatachannel no longer knows, may take the log mutex on the
spot.

# The exception

It is real: `keeper_deadlocks` closes the cycle with a worker inside
`tr_log`, for every binding function that keeps the GIL and takes a
handle, whatever else the library logs.
-/
import AioLibDataChannel.Native.Gil

namespace AioLibDataChannel

namespace LockWorld

open Function (update)
open Transition (exec Visits Takes)

-- ============================================================ what to avoid

/-- The thread waits for a mutex that another one holds. -/
def Waits (t : Nat) (m : CbMutex) (w : LockWorld) : Prop :=
  ∃ rest u depth, w.code t = .lock m :: rest ∧ w.owner m = some (u, depth) ∧ u ≠ t

/-- The thread waits for the GIL that another one holds. -/
def WaitsGil (t : Nat) (w : LockWorld) : Prop :=
  (∃ rest, w.code t = .acquireGil :: rest ∨ w.code t = .trampoline :: rest)
    ∧ ∃ u, w.gil = some u ∧ u ≠ t

/-- The GIL and the callback mutexes are not in each other's way. -/
structure NoInversion (w : LockWorld) : Prop where
  waits : ∀ t m, w.gil = some t → ¬ Waits t m w
  cycle : ∀ t u m depth, ¬ (w.gil = some t ∧ Waits t m w
    ∧ w.owner m = some (u, depth) ∧ WaitsGil u w)

/-- An `rtc*` call made with the GIL in hand is about a handle that
libdatachannel knows, and not one it may write a log line about. -/
def quiet (mayLog : RtcCall → Bool) : Action → LockWorld → Bool
  | .rtc t _, w =>
      match w.code t with
      | .rtc c :: _ => decide (w.gil ≠ some t) || (c.known w.live && !mayLog c)
      | _ => true
  | _, _ => true

-- ============================================================ the discipline

/-- The code is fit for a thread that holds the GIL, or does not: it
takes callback mutexes without it, and with it calls only what reads or
writes a field. -/
def obeys : Bool → List Instr → Bool
  | g, [] => !g
  | g, .python :: rest => g && obeys true rest
  | g, .acquireGil :: rest => !g && obeys true rest
  | g, .releaseGil :: rest => g && obeys false rest
  | g, .lock _ :: rest => !g && obeys false rest
  | g, .unlock _ :: rest => !g && obeys false rest
  | g, .trampoline :: rest => !g && obeys false rest
  | g, .rtc c :: rest => (!g || decide (c.kind = .plain)) && obeys g rest

/-- Native code is fit for a thread without the GIL. -/
theorem obeys_native (n : Native) (rest : List Instr) :
    obeys false (n.code ++ rest) = obeys false rest := by
  induction n generalizing rest with
  | done => rfl
  | guarded m before fires next ihb ihn =>
      have hfires : ∀ rest, obeys false ((if fires then [.trampoline] else []) ++ rest)
          = obeys false rest := by
        intro rest
        cases fires <;> rfl
      show obeys false ((.lock m :: (before.code ++ (if fires then [.trampoline] else []))
        ++ .unlock m :: next.code) ++ rest) = _
      calc obeys false ((.lock m :: (before.code ++ (if fires then [.trampoline] else []))
              ++ .unlock m :: next.code) ++ rest)
          = obeys false (before.code ++ ((if fires then [.trampoline] else [])
              ++ (.unlock m :: (next.code ++ rest)))) := by
            simp only [List.cons_append, List.append_assoc]
            rfl
        _ = obeys false (.unlock m :: (next.code ++ rest)) := by rw [ihb, hfires]
        _ = obeys false rest := ihn rest

/-- So are the calls inside `no_gil`. -/
theorem obeys_released (cs : List RtcCall) (rest : List Instr) :
    obeys false (cs.map Instr.rtc ++ rest) = obeys false rest := by
  induction cs with
  | nil => rfl
  | cons c cs ih => exact ih

/-- Calls that only read or write a field may keep it. -/
theorem obeys_kept {cs : List RtcCall} (h : ∀ c ∈ cs, c.kind = .plain)
    (rest : List Instr) : obeys true (cs.map Instr.rtc ++ rest) = obeys true rest := by
  induction cs with
  | nil => rfl
  | cons c cs ih =>
      show (decide (c.kind = .plain) && obeys true (cs.map Instr.rtc ++ rest)) = _
      rw [decide_eq_true (h c (List.mem_cons_self ..)), Bool.true_and]
      exact ih fun c hc => h c (List.mem_cons_of_mem _ hc)

/-- Reading a string makes plain calls only. -/
theorem plain_readString {getter : RtcCall} (h : getter.kind = .plain) (again : Bool) :
    ∀ c ∈ Binding.readString getter again, c.kind = .plain := by
  intro c hc
  unfold Binding.readString at hc
  split at hc <;> simp only [List.mem_cons, List.not_mem_nil, or_false, or_self] at hc
  all_goals rw [hc]; exact h

/-- The binding functions outside `no_gil` do nothing else. -/
theorem plain_of_keeps {b : Binding} (h : b.releasesGil = false) (again : Bool) :
    ∀ c ∈ b.rtcCalls again, c.kind = .plain := by
  have hone : ∀ {c : RtcCall}, c.kind = .plain → ∀ c' ∈ [c], c'.kind = .plain := by
    intro c hc c' hc'
    rw [List.mem_singleton.mp hc']
    exact hc
  cases b with
  | registerDispatcher => exact List.forall_mem_nil _
  | getLocalDescription pc => exact plain_readString rfl again
  | getRemoteDescription pc => exact plain_readString rfl again
  | getLocalDescriptionType pc => exact plain_readString rfl again
  | getDcLabel dc => exact plain_readString rfl again
  | getDcProtocol dc => exact plain_readString rfl again
  | isOpen dc => exact hone rfl
  | isClosed dc => exact hone rfl
  | bufferedAmount dc => exact hone rfl
  | maxMessageSize dc => exact hone rfl
  | setBufferedAmountLowThreshold dc => exact hone rfl
  | getDcStream dc => exact hone rfl
  | setThreadPoolSize => exact hone rfl
  | _ => cases h

/-- A binding function hands the GIL back as it found it. -/
theorem obeys_binding (b : Binding) (again : Bool) {rest : List Instr}
    (h : obeys true rest = true) : obeys true (b.code again ++ rest) = true := by
  unfold Binding.code
  cases hb : b.releasesGil with
  | true =>
      rw [if_pos rfl, List.append_assoc, List.cons_append]
      show obeys false ((b.rtcCalls again).map Instr.rtc ++ ([.acquireGil] ++ rest)) = true
      rw [obeys_released]
      exact h
  | false =>
      rw [if_neg Bool.false_ne_true, obeys_kept (plain_of_keeps hb again)]
      exact h

/-- Every thread's code is fit for it. -/
def Disciplined (w : LockWorld) : Prop :=
  ∀ t, obeys (decide (w.gil = some t)) (w.code t) = true

variable {mayLog : RtcCall → Bool} {w w' : LockWorld} {t : Nat}

/-- One thread moves; the others see at most the GIL go from free to
taken by it, or back. -/
theorem Disciplined.move (hw : Disciplined w) (hcode : ∀ u, u ≠ t → w'.code u = w.code u)
    (hgil : ∀ u, u ≠ t → (w'.gil = some u ↔ w.gil = some u))
    (ht : obeys (decide (w'.gil = some t)) (w'.code t) = true) : Disciplined w' := by
  intro u
  by_cases hut : u = t
  · rw [hut]
    exact ht
  · rw [hcode u hut, decide_eq_decide.mpr (hgil u hut)]
    exact hw u

/-- The same, when the GIL stays where it is. -/
theorem Disciplined.setCode (hw : Disciplined w) {code : List Instr}
    (h : obeys (decide (w.gil = some t)) code = true) : Disciplined (w.setCode t code) :=
  hw.move (fun _ hu => Function.update_of_ne hu ..) (fun _ _ => Iff.rfl) <| by
    show obeys _ (update w.code t code t) = true
    rw [Function.update_self]
    exact h

/-- The thread takes the GIL when nobody has it. -/
theorem Disciplined.acquire (hw : Disciplined w) (hg : w.gil = none) {code : List Instr}
    (h : obeys true code = true) :
    Disciplined { w.setCode t code with gil := some t } := by
  refine hw.move (t := t) (fun u hu => Function.update_of_ne hu ..) (fun u hu => ?_) ?_
  · rw [hg]
    exact ⟨fun heq => absurd (Option.some.inj heq).symm hu,
      fun heq => absurd heq.symm (Option.some_ne_none u)⟩
  · show obeys (decide (some t = some t)) (update w.code t code t) = true
    rw [Function.update_self, decide_eq_true rfl]
    exact h

/-- The thread that has the GIL lets it go. -/
theorem Disciplined.release (hw : Disciplined w) (hg : w.gil = some t)
    {code : List Instr} (h : obeys false code = true) :
    Disciplined { w.setCode t code with gil := none } := by
  refine hw.move (t := t) (fun u hu => Function.update_of_ne hu ..) (fun u hu => ?_) ?_
  · rw [hg]
    exact ⟨fun heq => absurd heq.symm (Option.some_ne_none u),
      fun heq => absurd (Option.some.inj heq).symm hu⟩
  · show obeys (decide ((none : Option Nat) = some t)) (update w.code t code t) = true
    rw [Function.update_self]
    exact h

/-- Only the mutexes, or the handles, change. -/
theorem Disciplined.of_eq (hw : Disciplined w) (hg : w'.gil = w.gil)
    (hc : w'.code = w.code) : Disciplined w' := by
  intro u
  rw [hg, hc]
  exact hw u

/-- The thread's code, with what is known of the GIL. -/
theorem Disciplined.head (hw : Disciplined w) {code : List Instr}
    (hc : w.code t = code) : obeys (decide (w.gil = some t)) code = true :=
  hc ▸ hw t

/-- The thread that has the GIL runs code that may have it. -/
theorem obeys_with {i : Instr} {rest : List Instr} (hg : w.gil = some t)
    (hw : Disciplined w) (hc : w.code t = i :: rest) : obeys true (i :: rest) = true := by
  have hhead := hw.head hc
  rwa [decide_eq_true hg] at hhead

/-- Code that must not have the GIL is run without it. -/
theorem obeys_without {i : Instr} {rest : List Instr} (hw : Disciplined w)
    (hc : w.code t = i :: rest) (hbad : obeys true (i :: rest) = false) :
    decide (w.gil = some t) = false ∧ obeys false (i :: rest) = true := by
  have hhead := hw.head hc
  cases hg : decide (w.gil = some t) with
  | false =>
      rw [hg] at hhead
      exact ⟨rfl, hhead⟩
  | true =>
      rw [hg, hbad] at hhead
      cases hhead

/-- A mutex is taken and given back without the GIL, and leaves it so. -/
theorem obeys_rest {i : Instr} {rest : List Instr} (hw : Disciplined w)
    (hc : w.code t = i :: rest) (hbad : obeys true (i :: rest) = false)
    (hsame : obeys false (i :: rest) = obeys false rest) :
    obeys (decide (w.gil = some t)) rest = true := by
  obtain ⟨hg, hrest⟩ := obeys_without hw hc hbad
  rw [hg, ← hsame]
  exact hrest

-- ================================================================= one step

/-- A thread starts when it is through with what it ran before. -/
theorem start_cases {code : List Instr} (h : w.start t code = some w') :
    w.code t = [] ∧ w' = w.setCode t code := by
  unfold start at h
  split at h
  next hc => exact ⟨hc, (Option.some.inj h).symm⟩
  next => cases h

/-- Python code runs with the GIL. -/
theorem python_cases {f : List Instr → LockWorld → LockWorld}
    (h : w.python t f = some w') :
    ∃ rest, w.code t = .python :: rest ∧ w.gil = some t ∧ w' = f rest w := by
  unfold python at h
  split at h
  next rest hc =>
    split at h
    next hg => exact ⟨rest, hc, hg, (Option.some.inj h).symm⟩
    next => cases h
  next => cases h

/-- A native call does what the library allows it to. -/
theorem callRtc_cases {n : Native} (h : w.callRtc mayLog t n = some w') :
    ∃ c rest, w.code t = .rtc c :: rest ∧ c.allows mayLog w.live n = true
      ∧ w' = { w.setCode t (n.code ++ rest) with live := c.forgets w.live } := by
  unfold callRtc at h
  split at h
  next c rest hc =>
    split at h
    next ha => exact ⟨c, rest, hc, ha, (Option.some.inj h).symm⟩
    next => cases h
  next => cases h

/-- A thread that starts. -/
theorem disciplined_start {code : List Instr} (hw : Disciplined w)
    (hcode : obeys false code = true) (h : w.start t code = some w') :
    Disciplined w' := by
  obtain ⟨hc, rfl⟩ := start_cases h
  have hfree : decide (w.gil = some t) = false := by
    have hhead := hw.head hc
    rwa [obeys, Bool.not_eq_true'] at hhead
  refine hw.setCode ?_
  rw [hfree]
  exact hcode

/-- With the GIL, a quiet call does nothing inside; without it, it may
do anything. -/
theorem disciplined_rtc {n : Native} (hw : Disciplined w)
    (hq : quiet mayLog (.rtc t n) w = true) (h : w.callRtc mayLog t n = some w') :
    Disciplined w' := by
  obtain ⟨c, rest, hc, hallows, rfl⟩ := callRtc_cases h
  refine Disciplined.of_eq (w := w.setCode t (n.code ++ rest)) (hw.setCode ?_) rfl rfl
  have hhead := hw.head hc
  by_cases hg : w.gil = some t
  · obtain ⟨hknown, hsilent⟩ : c.known w.live = true ∧ mayLog c = false := by
      simpa [quiet, hc, hg] using hq
    rw [decide_eq_true hg] at hhead ⊢
    obtain ⟨hkind, hrest⟩ := Bool.and_eq_true_iff.mp hhead
    have hplain : c.kind = .plain := of_decide_eq_true hkind
    have hdone : n = .done := by
      rw [RtcCall.allows, if_pos hknown, hplain] at hallows
      simp only [hsilent, Bool.false_eq_true, if_false] at hallows
      exact of_decide_eq_true hallows
    rw [hdone]
    exact hrest
  · rw [decide_eq_false hg] at hhead ⊢
    rw [obeys_native]
    exact hhead

/-- Taking and giving back locks. -/
theorem disciplined_lockStep (hw : Disciplined w) (h : w.lockStep t = some w') :
    Disciplined w' := by
  have howner : ∀ {code : List Instr} {owner : CbMutex → Option (Nat × Nat)},
      obeys (decide (w.gil = some t)) code = true →
        Disciplined { w.setCode t code with owner := owner } :=
    fun hcode => Disciplined.of_eq (hw.setCode hcode) rfl rfl
  unfold lockStep at h
  split at h
  next rest hc =>
    split at h
    next hg =>
      cases h
      exact hw.acquire hg (obeys_without hw hc rfl).2
    next => cases h
  next rest hc =>
    split at h
    next hg =>
      cases h
      exact hw.release hg (obeys_with hg hw hc)
    next => cases h
  next m rest hc =>
    have hrest := obeys_rest hw hc rfl rfl
    split at h
    next => cases h; exact howner hrest
    next u depth ho =>
      split at h
      next => cases h; exact howner hrest
      next => cases h
  next m rest hc =>
    have hrest := obeys_rest hw hc rfl rfl
    split at h
    next => cases h
    next u depth ho =>
      split at h
      next => cases h; exact howner hrest
      next => cases h
  next rest hc =>
    obtain ⟨hfree, hrest⟩ := obeys_without hw hc rfl
    split at h
    next hg =>
      cases h
      exact hw.acquire hg hrest
    next u hg =>
      split at h
      next hut => exact absurd (hut ▸ hg) (of_decide_eq_false hfree)
      next => cases h
  next => cases h

/-- Every quiet step keeps the discipline. -/
theorem disciplined_apply {a : Action} (hw : Disciplined w) (hq : quiet mayLog a w = true)
    (h : apply mayLog a w = some w') : Disciplined w' := by
  cases a with
  | startPython t => exact disciplined_start hw rfl h
  | startWorker t n =>
      refine disciplined_start hw ?_ h
      have hcode := obeys_native n []
      rwa [List.append_nil] at hcode
  | issue handle =>
      simp only [apply] at h
      split at h
      · cases h
      · cases h
        exact hw.of_eq rfl rfl
  | call t b again =>
      obtain ⟨rest, hc, hg, rfl⟩ := python_cases h
      refine hw.setCode ?_
      rw [decide_eq_true hg]
      exact obeys_binding b again (obeys_with hg hw hc)
  | ret t =>
      obtain ⟨rest, hc, hg, rfl⟩ := python_cases h
      refine hw.setCode ?_
      rw [decide_eq_true hg]
      exact obeys_with hg hw hc
  | switch t =>
      obtain ⟨rest, hc, hg, rfl⟩ := python_cases (f := fun rest v =>
        { v.setCode t (.acquireGil :: .python :: rest) with gil := none }) h
      exact hw.release hg (obeys_with hg hw hc)
  | rtc t n => exact disciplined_rtc hw hq h
  | step t => exact disciplined_lockStep hw h

-- ================================================================== all runs

/-- Nobody runs anything at the start. -/
theorem disciplined_init : Disciplined init := fun _ => rfl

/-- Where threads keep to the discipline, nobody waits for a mutex with
the GIL. -/
theorem noInversion_of_disciplined (hw : Disciplined w) : NoInversion w := by
  have hwaits : ∀ t m, w.gil = some t → ¬ Waits t m w := by
    rintro t m hg ⟨rest, u, depth, hc, -⟩
    exact absurd (obeys_with hg hw hc) Bool.false_ne_true
  exact ⟨hwaits, fun t u m depth h => hwaits t m h.1 h.2.1⟩

/-- Along a run whose calls with the GIL in hand are all quiet, the GIL
and the callback mutexes are never in each other's way. -/
theorem noInversion_of_quiet {acts : List Action}
    (hq : ∀ a s, Takes (apply mayLog) init acts a s → quiet mayLog a s = true) :
    ∀ s, Visits (apply mayLog) init acts s → NoInversion s := by
  intro s hs
  have hstep : ∀ {a m m'}, Disciplined m → quiet mayLog a m = true →
      apply mayLog a m = some m' → Disciplined m' := disciplined_apply
  exact noInversion_of_disciplined
    (Transition.visits_of_takes disciplined_init hstep hq s hs)

-- ============================================================ the exception

/-- A library that writes a log line about an unknown handle only. -/
def terse : RtcCall → Bool := fun _ => false

/-- A log line that reaches Python. -/
def logLine : Native := .guarded .log .done true .done

/-- A worker writes a log line and waits for the GIL in `tr_log`; the
thread that has it calls `b` about a handle that is gone. -/
def logRace (b : Binding) : List Action :=
  [.startPython 0, .step 0, .startWorker 1 logLine, .step 1, .call 0 b false,
    .rtc 0 logLine]

/-- Each waits for what the other holds. -/
def Deadlocked (w : LockWorld) : Prop :=
  w.gil = some 0 ∧ Waits 0 .log w ∧ w.owner .log = some (1, 1) ∧ WaitsGil 1 w

/-- A deadlock is an inversion. -/
theorem not_noInversion_of_deadlocked (h : Deadlocked w) : ¬ NoInversion w := by
  obtain ⟨hg, hwaits, -⟩ := h
  exact fun hno => hno.waits 0 .log hg hwaits

/-- No binding function that keeps the GIL and takes a handle is safe. -/
theorem keeper_deadlocks {b : Binding} {c : RtcCall} {handle : Int}
    (hb : b.releasesGil = false) (hc : b.rtcCalls false = [c])
    (hh : c.handle? = some handle) :
    ∃ w, exec (apply mayLog) init (logRace b) = some w ∧ Deadlocked w := by
  have hunknown : c.known [] = false := by
    rw [RtcCall.known, hh]
    rfl
  have hcode : b.code false = [.rtc c] := by
    rw [Binding.code, hb, hc]
    rfl
  have hallows : c.allows mayLog [] logLine = true := by
    rw [RtcCall.allows, hunknown]
    rfl
  -- the worker is in `tr_log`, the thread in Python
  let w₁ : LockWorld := {
    gil := some 0
    owner := update (fun _ => none) .log (some (1, 1))
    code := update (update (update (update (fun _ => []) 0
      [.acquireGil, .python, .releaseGil]) 0 [.python, .releaseGil]) 1
      [.lock .log, .trampoline, .unlock .log]) 1 [.trampoline, .unlock .log]
    live := [] }
  have hworker : exec (apply mayLog) init
      [.startPython 0, .step 0, .startWorker 1 logLine, .step 1] = some w₁ := rfl
  let w₂ : LockWorld := w₁.setCode 0 (.rtc c :: [.python, .releaseGil])
  have hcall : apply mayLog (.call 0 b false) w₁ = some w₂ := by
    show some (w₁.setCode 0 (b.code false ++ .python :: [.releaseGil])) = _
    rw [hcode]
    rfl
  let w₃ : LockWorld := { w₂.setCode 0 (logLine.code ++ [.python, .releaseGil]) with
    live := c.forgets [] }
  have hrtc : apply mayLog (.rtc 0 logLine) w₂ = some w₃ := by
    show (if c.allows mayLog [] logLine then some w₃ else none) = some w₃
    rw [if_pos hallows]
  refine ⟨w₃, ?_, rfl, ⟨_, 1, 1, rfl, rfl, by decide⟩, rfl, ⟨_, Or.inr rfl⟩, 0, rfl,
    by decide⟩
  show exec (apply mayLog) init ([.startPython 0, .step 0, .startWorker 1 logLine, .step 1]
    ++ [.call 0 b false, .rtc 0 logLine]) = _
  rw [Transition.exec_append, hworker]
  show exec (apply mayLog) w₁ [.call 0 b false, .rtc 0 logLine] = _
  rw [Transition.exec_cons hcall, Transition.exec_cons hrtc]
  rfl

/-- A channel is destroyed on the loop thread, a worker writes a log
line, and the loop thread asks the channel whether it is closed. -/
def closedRace : List Action :=
  [.issue 3, .startPython 0, .step 0, .call 0 (.deleteDataChannel 3) false, .step 0,
    .rtc 0 (.guarded (.dc .open 3) .done false .done), .step 0, .step 0,
    .rtc 0 (.guarded (.dc .closed 3) .done false .done), .step 0, .step 0,
    .rtc 0 (.guarded (.dc .error 3) .done false .done), .step 0, .step 0,
    .rtc 0 (.guarded (.dc .message 3) .done false .done), .step 0, .step 0,
    .rtc 0 (.guarded (.dc .bufferedAmountLow 3) .done false .done), .step 0, .step 0,
    .rtc 0 .done, .step 0, .startWorker 1 logLine, .step 1, .call 0 (.isClosed 3) false,
    .rtc 0 logLine]

/-- The bindings do let a thread wait for a callback mutex with the GIL
in hand, while the holder of the mutex waits for the GIL. -/
theorem gil_log_inversion :
    ∃ w, exec (apply terse) init closedRace = some w ∧ ¬ NoInversion w := by
  obtain ⟨w, hrun, hdead⟩ : ∃ w, exec (apply terse) init closedRace = some w
      ∧ Deadlocked w := by
    refine ⟨_, rfl, rfl, ⟨_, 1, 1, rfl, rfl, by decide⟩, rfl, ⟨_, Or.inr rfl⟩, 0, rfl, ?_⟩
    decide
  exact ⟨w, hrun, not_noInversion_of_deadlocked hdead⟩

/-- Callbacks registered on a live channel while a worker is inside
`tr_dc_message`, and the channel asked for its state. -/
def registerRun : List Action :=
  [.issue 3, .startWorker 1 (.guarded (.dc .message 3) .done true .done), .step 1,
    .startPython 0, .step 0, .call 0 (.setDcCallback .message 3 true) false, .step 0,
    .rtc 0 (.guarded (.dc .message 3) .done false .done), .step 1, .ret 1, .step 1, .step 1,
    .step 0, .step 0, .step 0, .call 0 (.isClosed 3) false, .rtc 0 .done]

theorem noInversion_of_quiet_registerRun :
    (∃ w, exec (apply terse) init registerRun = some w)
      ∧ ∀ s, Visits (apply terse) init registerRun s → NoInversion s :=
  ⟨⟨_, rfl⟩, noInversion_of_quiet (Transition.takes_of_checks rfl)⟩

end LockWorld

end AioLibDataChannel
