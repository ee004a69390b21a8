/-
The filter that `install_python_logger` derives from the logger's
effective level: it takes away nothing the logger would have taken,
except verbose lines and what a level lowered since then lets in.

Two runs are compared on one schedule: with the code's
`_py_level_to_rtc`, and with a derivation that lets every line through.
The first is the image of the second under `narrow`, which forgets the
lines that are not `Covered` wherever they are; each action commutes with
it.
-/
import Mathlib.Data.List.InsertIdx
import AioLibDataChannel.Logging.Basic

namespace AioLibDataChannel

open Function (update)
open Transition (exec)

namespace LogWorld

variable {passes : Int → Int → Bool} {w w' : LogWorld} {a : Action}

/-- The logger's level at the install lets the line through, if the filter
was derived from one. -/
def Covered (line : LogLine) : Prop :=
  ∀ e, line.derivedFrom = some e → Covers e line.level

instance (line : LogLine) : Decidable (Covered line) :=
  match h : line.derivedFrom with
  | none => .isTrue fun e he => by rw [h] at he; cases he
  | some e =>
      decidable_of_iff (Covers e line.level)
        ⟨fun hc e' he => by rw [h] at he; cases he; exact hc, fun hc => hc e h⟩

/-- What `_py_level_to_rtc` makes of a filter that let everything
through. -/
def narrowFilter (f : LogFilter) : LogFilter :=
  match f.derivedFrom with
  | none => f
  | some e => { f with level := (pyLevelToRtc e).value }

/-- What the derived filter makes of a world without it. -/
def narrow (w : LogWorld) : LogWorld :=
  { w with
    calls := w.calls.map narrowFilter
    native := w.native.map narrowFilter
    inflight := fun t => (w.inflight t).filter fun line => decide (Covered line)
    records := w.records.filter fun r => decide (Covered r.line)
    heard := w.heard.filter fun h => decide (Covered h.line) }

/-- The derivation that filters nothing. -/
def letAll (_ : Int) : LogLevel := .verbose

/-- A filter that was derived so. -/
def WideFilter (f : LogFilter) : Prop :=
  ∀ e, f.derivedFrom = some e → f.level = LogLevel.verbose.value ∧ f.enable = true

/-- The invariant of the run that filters nothing. -/
structure Wide (w : LogWorld) : Prop where
  calls : ∀ f ∈ w.calls, WideFilter f
  native : ∀ f, w.native = some f → WideFilter f
  records : ∀ r ∈ w.records, r.effective ≤ r.pyLevel
    ∧ r.pyLevel = adapterLevel r.line.level.value

-- ============================================================== install

/-- An explicit level is narrowed to itself. -/
theorem narrow_coreInitLogger (level : Int) (callback : Option LogCallback)
    (w : LogWorld) :
    (w.coreInitLogger level none callback).narrow
      = w.narrow.coreInitLogger level none callback := by
  unfold coreInitLogger narrow
  split
  next => rw [List.map_append]; rfl
  next => rfl

/-- Narrowed, an install that lets everything pass is one that derives its
filter. -/
theorem narrow_install (g : Nat) (level : InstallLevel) (w : LogWorld) :
    (w.installPythonLogger letAll g level).narrow
      = w.narrow.installPythonLogger pyLevelToRtc g level := by
  unfold installPythonLogger
  cases level with
  | unset =>
      simp only [coreInitLogger, narrow, fitsInt_value, if_true, List.map_append]
      rfl
  | member l => exact narrow_coreInitLogger l.value _ w
  | code n =>
      cases hn : LogLevel.enum.ofValue? n with
      | none => simp only [hn]
      | some l =>
          simp only [hn]
          exact narrow_coreInitLogger l.value _ w

/-- An install keeps the run wide if a filter it derives lets everything
pass. -/
theorem wide_coreInitLogger (h : Wide w) {level : Int} {derivedFrom : Option Int}
    {callback : Option LogCallback}
    (hnew : derivedFrom.isSome = true →
      level = LogLevel.verbose.value ∧ callback.isSome = true) :
    Wide (w.coreInitLogger level derivedFrom callback) where
  calls := by
    intro f hf
    unfold coreInitLogger at hf
    split at hf
    next =>
      rcases List.mem_append.mp hf with hf | hf
      · exact h.calls f hf
      · cases List.mem_singleton.mp hf
        intro e he
        exact hnew (Option.isSome_iff_exists.mpr ⟨e, he⟩)
    next => exact h.calls f hf
  native := h.native
  records := h.records

/-- `install_python_logger` makes such installs. -/
theorem wide_install (h : Wide w) (g : Nat) (level : InstallLevel) :
    Wide (w.installPythonLogger letAll g level) := by
  unfold installPythonLogger
  split
  next => exact wide_coreInitLogger h fun _ => ⟨rfl, rfl⟩
  next => exact wide_coreInitLogger h fun hd => by cases hd
  next =>
    split
    next => exact h
    next => exact wide_coreInitLogger h fun hd => by cases hd

-- ================================================================ lines

/-- The library's filter: the levels of the lines up to its own. -/
def Thresholds (passes : Int → Int → Bool) : Prop :=
  ∀ f l : LogLevel, passes f.value l.value = decide (l.value ≤ f.value)

/-- VERBOSE has the highest number. -/
theorem value_le_verbose (level : LogLevel) : level.value ≤ LogLevel.verbose.value := by
  cases level <;> decide

/-- The filter keeps a covered line. -/
theorem filter_covered {line : LogLine} (h : Covered line) :
    (some line).filter (fun line => decide (Covered line)) = some line := by
  simp [h]

/-- The filter drops a line that is not covered. -/
theorem filter_uncovered {line : LogLine} (h : ¬Covered line) :
    (some line).filter (fun line => decide (Covered line)) = none := by
  simp [h]

/-- Narrowed, a thread waits with its line if that is covered. -/
theorem narrow_await (t : Nat) (line : Option LogLine) (w : LogWorld) :
    (w.await t line).narrow
      = w.narrow.await t (line.filter fun line => decide (Covered line)) := by
  have hcomp := Function.comp_update (Option.filter fun line => decide (Covered line))
    w.inflight t line
  unfold narrow await
  congr 1

/-- A thread that is free is free in the narrow run. -/
theorem narrow_free {t : Nat} (h : w.inflight t = none) : w.narrow.inflight t = none := by
  show (w.inflight t).filter _ = none
  rw [h, Option.filter_none]

/-- With a covered line it waits in both. -/
theorem narrow_await_covered {line : LogLine} (h : Covered line) (t : Nat) (w : LogWorld) :
    (w.await t (some line)).narrow = w.narrow.await t (some line) := by
  rw [narrow_await, filter_covered h]

/-- With another it waits in the wide run only. -/
theorem narrow_await_uncovered {line : LogLine} (h : ¬Covered line) {t : Nat}
    (hfree : w.inflight t = none) : (w.await t (some line)).narrow = w.narrow := by
  rw [narrow_await, filter_uncovered h]
  unfold await
  rw [← narrow_free hfree, Function.update_eq_self]

/-- What an explicit filter passes, both runs write. -/
theorem narrow_write_explicit (t : Nat) (level : LogLevel) (text : CText) {f : LogFilter}
    (hf : f.derivedFrom = none) (w : LogWorld) :
    (w.write t level text f).narrow = w.narrow.write t level text f := by
  unfold write
  split
  next => exact narrow_await_covered (fun e he => by cases hf.symm.trans he) t w
  next => rfl

/-- Where a line goes under the derived filter, and without it. -/
theorem narrow_emit (hp : Thresholds passes) (h : Wide w) {t : Nat} {level : LogLevel}
    (hlevel : level ≠ .none) (hfree : w.inflight t = none) (text : CText) :
    (w.emit passes t level text).narrow = w.narrow.emit passes t level text := by
  have hnat : w.narrow.native = w.native.map narrowFilter := rfl
  unfold emit
  rw [hnat]
  cases hn : w.native with
  | none => rfl
  | some f =>
      obtain ⟨flevel, enable, install, derivedFrom⟩ := f
      cases derivedFrom with
      | none =>
          -- A filter that is not derived is the same in both.
          by_cases hpass : passes flevel level.value = true
          · simp only [Option.map_some, narrowFilter, if_pos hpass]
            exact narrow_write_explicit t level text rfl w
          · simp only [Option.map_some, narrowFilter, if_neg hpass]
      | some e =>
          obtain ⟨rfl, henable⟩ := h.native _ hn e rfl
          cases henable
          have hcov : Covered ⟨t, level, text, install, some e⟩ ↔ Covers e level :=
            ⟨fun hc => hc e rfl, fun hc e' he => by cases he; exact hc⟩
          have hwide : passes LogLevel.verbose.value level.value = true := by
            rw [hp]
            exact decide_eq_true (value_le_verbose level)
          have hnarrow : passes (pyLevelToRtc e).value level.value = true
              ↔ Covers e level := by
            rw [hp, decide_eq_true_iff]
            exact le_pyLevelToRtc_iff e hlevel
          by_cases hc : Covers e level
          · simp only [Option.map_some, narrowFilter, if_pos hwide,
              if_pos (hnarrow.mpr hc)]
            exact narrow_await_covered (hcov.mpr hc) t w
          · simp only [Option.map_some, narrowFilter, if_pos hwide,
              if_neg (mt hnarrow.mp hc)]
            exact narrow_await_uncovered (mt hcov.mp hc) hfree

/-- The narrow run makes the calls for covered lines. -/
theorem narrow_call (line : LogLine) (cb : LogCallback) (level : Int) (text : List Char)
    (w : LogWorld) :
    (w.call line (.log cb level (.str text))).narrow
      = if Covered line then w.narrow.call line (.log cb level (.str text))
        else w.narrow := by
  cases cb with
  | user n =>
      simp only [call, narrow, List.filter_append, List.filter_singleton]
      split <;> simp_all
  | adapter g =>
      simp only [call, log]
      show LogWorld.narrow (if w.loggers.isEnabledFor g _ = true then _ else _) = _
      by_cases hon : w.loggers.isEnabledFor g (adapterLevel level) = true
      · have hon' : w.narrow.loggers.isEnabledFor g (adapterLevel level) = true := hon
        rw [if_pos hon, if_pos hon']
        simp only [narrow, List.filter_append, List.filter_singleton]
        split <;> simp_all
      · have hon' : ¬w.narrow.loggers.isEnabledFor g (adapterLevel level) = true := hon
        rw [if_neg hon, if_neg hon', ite_self]

/-- The narrow run makes `tr_log`'s calls for covered lines. -/
theorem narrow_trLog (line : LogLine) (w : LogWorld) :
    (w.trLog line).narrow = if Covered line then w.narrow.trLog line else w.narrow := by
  have hcore : w.narrow.core = w.core := rfl
  rcases trLog_spec line w with ⟨hn, heq⟩ | ⟨cb, text, hs, heq⟩
  · rcases trLog_spec line w.narrow with ⟨-, heq'⟩ | ⟨cb, text, hs', -⟩
    · rw [heq, heq', ite_self]
    · rw [hcore, hn] at hs'
      cases hs'
  · rcases trLog_spec line w.narrow with ⟨hn', -⟩ | ⟨cb', text', hs', heq'⟩
    · rw [hcore, hs] at hn'
      cases hn'
    · rw [hcore, hs] at hs'
      cases hs'
      rw [heq, heq', narrow_call]

/-- A turn of the wide run is one of the narrow run. -/
theorem narrow_turn (t : Nat) (w : LogWorld) : (w.turn t).narrow = w.narrow.turn t := by
  have hin : w.narrow.inflight t = (w.inflight t).filter fun line => decide (Covered line) :=
    rfl
  cases hline : w.inflight t with
  | none =>
      rw [hline, Option.filter_none] at hin
      simp only [turn, hline, hin]
  | some line =>
      have hgone : (w.await t none).narrow = w.narrow.await t none := narrow_await t none w
      by_cases hc : Covered line
      · rw [hline, filter_covered hc] at hin
        simp only [turn, hline, hin, narrow_trLog, if_pos hc, hgone]
      · rw [hline, filter_uncovered hc] at hin
        simp only [turn, hline, hin, narrow_trLog, if_neg hc, hgone]
        unfold await
        rw [← hin, Function.update_eq_self]

/-- After its turn a thread is free. -/
theorem turn_inflight (t : Nat) (w : LogWorld) : (w.turn t).inflight t = none := by
  have hgone : (w.await t none).inflight t = none := Function.update_self ..
  have hturns := turn_cases t w
  generalize w.turn t = w' at hturns
  cases hturns with
  | idle hline => exact hline
  | dropped => exact hgone
  | heard => exact hgone
  | recorded => exact hgone

-- ============================================================= the runs

/-- Emitting a line keeps the run wide. -/
theorem wide_emit (h : Wide w) (t : Nat) (level : LogLevel) (text : CText) :
    Wide (w.emit passes t level text) := by
  have hemits := emit_cases passes t level text w
  generalize w.emit passes t level text = w' at hemits
  cases hemits with
  | nowhere => exact h
  | printed => exact ⟨h.calls, h.native, h.records⟩
  | waits => exact ⟨h.calls, h.native, h.records⟩

/-- A turn keeps the run wide. -/
theorem wide_turn (h : Wide w) (t : Nat) : Wide (w.turn t) := by
  have hturns := turn_cases t w
  generalize w.turn t = w' at hturns
  cases hturns with
  | idle => exact h
  | dropped => exact ⟨h.calls, h.native, h.records⟩
  | heard => exact ⟨h.calls, h.native, h.records⟩
  | recorded hline hcb htext hle =>
      refine ⟨h.calls, h.native, fun r hr => ?_⟩
      rcases List.mem_append.mp hr with hr | hr
      · exact h.records r hr
      · cases List.mem_singleton.mp hr
        exact ⟨hle, rfl⟩

/-- One step of the run that filters nothing, and the same one under the
derived filter. -/
theorem narrow_step (hp : Thresholds passes) (h : Wide w)
    (ha : apply passes letAll a w = some w') :
    apply passes pyLevelToRtc a w.narrow = some w'.narrow ∧ Wide w' := by
  cases a with
  | install g level =>
      cases ha
      exact ⟨congrArg some (narrow_install g level w).symm, wide_install h g level⟩
  | initLogger level callback =>
      cases ha
      exact ⟨congrArg some (narrow_coreInitLogger level _ w).symm,
        wide_coreInitLogger h fun hd => by cases hd⟩
  | enter k =>
      obtain ⟨f, hf, rfl⟩ := enter_eq_some ha
      have hk : (w.calls.map narrowFilter)[k]? = some (narrowFilter f) := by
        rw [List.getElem?_map, hf]
        rfl
      constructor
      · simp only [apply, narrow, hk, List.eraseIdx_map]
        rfl
      · refine ⟨fun f' hf' => h.calls f' (List.mem_of_mem_eraseIdx hf'), fun f' hf' => ?_,
          h.records⟩
        cases hf'
        exact h.calls f (List.mem_of_getElem? hf)
  | setLevel g level =>
      cases ha
      exact ⟨rfl, h.calls, h.native, h.records⟩
  | setDisabled g disabled =>
      cases ha
      exact ⟨rfl, h.calls, h.native, h.records⟩
  | disable level =>
      cases ha
      exact ⟨rfl, h.calls, h.native, h.records⟩
  | emit t level text =>
      obtain ⟨hlevel, hfree, rfl⟩ := emit_eq_some ha
      refine ⟨?_, wide_emit h t level text⟩
      simp only [apply, if_pos (And.intro hlevel (narrow_free hfree))]
      exact congrArg some (narrow_emit hp h hlevel hfree text).symm
  | turn t =>
      cases ha
      exact ⟨congrArg some (narrow_turn t w).symm, wide_turn h t⟩
  | atexit =>
      cases ha
      exact ⟨rfl, h.calls, h.native, h.records⟩

/-- The derived filter's run against one that filters nothing. -/
structure Narrowed (wide w : LogWorld) : Prop where
  /-- The records are those of the lines that are covered, in order, -/
  records : w.records = wide.records.filter fun r => decide (Covered r.line)
  heard : w.heard = wide.heard.filter fun h => decide (Covered h.line)
  printed : w.printed = wide.printed
  /-- and one that is missing is of a verbose line, or its logger's level
  had been lowered. -/
  missing : ∀ r ∈ wide.records, ¬Covered r.line →
    r.line.level = .verbose ∨ ∃ e, r.line.derivedFrom = some e ∧ r.effective < e

/-- Narrowed, a wide run lacks just the lines that are not covered. -/
theorem narrowed_of_wide (h : Wide w) : Narrowed w w.narrow := by
  refine ⟨rfl, rfl, rfl, fun r hr hc => ?_⟩
  obtain ⟨hle, hpy⟩ := h.records r hr
  unfold Covered at hc
  push Not at hc
  obtain ⟨e, he, hnot⟩ := hc
  by_cases hv : r.line.level = .verbose
  · exact .inl hv
  · refine .inr ⟨e, he, ?_⟩
    have hlow : ¬e ≤ adapterLevel r.line.level.value := fun hle' =>
      hnot (.inr ⟨hv, hle'⟩)
    omega

/-- The schedule with a turn for a thread before it logs again. -/
def settled : Action → List Action
  | .emit t level text => [.turn t, .emit t level text]
  | a => [a]

/-- A run begins wide, with nothing installed. -/
theorem wide_init (loggers : Loggers) : Wide (init loggers) where
  calls := fun f hf => by cases hf
  native := fun f hf => by cases hf
  records := fun r hr => by cases hr

/-- The derived run's step is one of the wide run, and the turn of a line
that is not covered. -/
theorem narrow_settled (hp : Thresholds passes) {narrowed : LogWorld}
    (h : narrowed = w.narrow ∧ Wide w) (ha : apply passes pyLevelToRtc a narrowed = some w') :
    ∃ v, exec (apply passes letAll) w (settled a) = some v ∧ w' = v.narrow ∧ Wide v := by
  obtain ⟨rfl, hw⟩ := h
  have hone : ∀ {v u : LogWorld}, Wide u → apply passes letAll a u = some v →
      u.narrow = w.narrow → w' = v.narrow ∧ Wide v := by
    intro v u hu hv heq
    obtain ⟨hn, hv'⟩ := narrow_step hp hu hv
    rw [heq, ha] at hn
    exact ⟨Option.some.inj hn, hv'⟩
  cases a with
  | emit t level text =>
      obtain ⟨hlevel, hfree, -⟩ := emit_eq_some ha
      have hsame : (w.turn t).narrow = w.narrow := by
        rw [narrow_turn]
        simp only [turn, hfree]
      have hturn : apply passes letAll (.turn t) w = some (w.turn t) := rfl
      have hemit : apply passes letAll (.emit t level text) (w.turn t)
          = some ((w.turn t).emit passes t level text) :=
        if_pos ⟨hlevel, turn_inflight t w⟩
      refine ⟨_, ?_, hone (wide_turn hw t) hemit hsame⟩
      rw [settled, Transition.exec_cons hturn]
      exact Transition.exec_cons hemit
  | enter k =>
      obtain ⟨f, hf, -⟩ := enter_eq_some ha
      have hk : (w.calls.map narrowFilter)[k]? = some f := hf
      rw [List.getElem?_map] at hk
      obtain ⟨g, hg, -⟩ := Option.map_eq_some_iff.mp hk
      have henter : apply passes letAll (.enter k) w
          = some { w with calls := w.calls.eraseIdx k, native := some g } := by
        simp only [apply, hg]
      exact ⟨_, Transition.exec_cons henter, hone hw henter rfl⟩
  | _ => exact ⟨_, rfl, hone hw rfl rfl⟩

/-- The filter that is derived from a logger's level costs nothing but
verbose lines, as long as the level is not lowered: a schedule that a run
without it can follow has the same records otherwise, and every run of
the code is matched by such a run. -/
theorem records_derived (hp : Thresholds passes) (loggers : Loggers)
    (acts : List Action) :
    (∀ wide, exec (apply passes letAll) (init loggers) acts = some wide →
      ∃ w, exec (apply passes pyLevelToRtc) (init loggers) acts = some w ∧ Narrowed wide w)
    ∧ ∀ w, exec (apply passes pyLevelToRtc) (init loggers) acts = some w →
      ∃ wide, exec (apply passes letAll) (init loggers) (acts.flatMap settled) = some wide
        ∧ Narrowed wide w := by
  constructor
  · intro wide h
    obtain ⟨w, hw, rfl, hwide⟩ := Transition.exec_lockstep
      (R := fun wide w => w = narrow wide ∧ Wide wide)
      (fun {_ _ _ _} hR ha => by
        obtain ⟨rfl, hm⟩ := hR
        obtain ⟨hn, hm'⟩ := narrow_step hp hm ha
        exact ⟨_, hn, rfl, hm'⟩)
      ⟨rfl, wide_init loggers⟩ h
    exact ⟨_, hw, narrowed_of_wide hwide⟩
  · intro w h
    obtain ⟨wide, hrun, rfl, hwide⟩ := Transition.exec_simulation
      (R := fun w wide => w = narrow wide ∧ Wide wide)
      (fun {_ _ _ _} hR ha => narrow_settled hp hR ha) ⟨rfl, wide_init loggers⟩ h
    exact ⟨wide, hrun, narrowed_of_wide hwide⟩

/-- Loggers that each have logger 9 above them, and no level set. -/
def underRoot : Loggers where
  chain := fun g => [g, 9]
  level := fun _ => 0
  disabled := fun _ => false
  disable := 0

/-- A logger at `WARNING`, with an error and an info line; then its level
is lowered, and there is an info line again. -/
def loweredRun : List Action :=
  [.setLevel 9 30, .install 0 .unset, .enter 0,
    .emit 1 .error (some [104, 105, 10, 0]), .turn 1,
    .emit 1 .info (some [104, 105, 10, 0]), .turn 1, .setLevel 0 10,
    .emit 1 .info (some [104, 105, 10, 0]), .turn 1]

theorem records_derived_loweredRun :
    ∃ wide w, exec (apply (fun f s => decide (s ≤ f)) letAll) (init underRoot) loweredRun
        = some wide
      ∧ wide.records.map (fun r => (r.pyLevel, r.message))
        = [(40, ['h', 'i']), (20, ['h', 'i'])]
      ∧ w.records.map (fun r => (r.pyLevel, r.message)) = [(40, ['h', 'i'])]
      ∧ Narrowed wide w := by
  obtain ⟨w, hw, hn⟩ := (@records_derived (fun f s => decide (s ≤ f)) (fun f l => rfl)
    underRoot loweredRun).1 _ rfl
  refine ⟨_, w, rfl, rfl, ?_, hn⟩
  cases hw
  rfl

end LogWorld

end AioLibDataChannel
