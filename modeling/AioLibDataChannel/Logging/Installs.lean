/-
Installs, lines and turns in any order. `_core.init_logger` sets the
callback before the filter, so a filter in effect is never newer than
the callback in place, and neither is the filter that let a line in
flight through: `records_ordered`. The two halves belong to one install
when installs do not overlap.
-/
import AioLibDataChannel.Logging.Filter

namespace AioLibDataChannel

open Function (update)
open Transition (exec)

namespace LogWorld

variable {passes : Int → Int → Bool} {w w' : LogWorld} {a : Action}

/-- The callback that install number `n` set. -/
def SetBy (installed : List (Option LogCallback)) (n : Nat) (cb : LogCallback) : Prop :=
  n ≤ installed.length ∧ (installed.take n).getLast? = some (some cb)

/-- Later installs leave the earlier ones where they are. -/
theorem SetBy.append {installed : List (Option LogCallback)} {n : Nat} {cb : LogCallback}
    (h : SetBy installed n cb) (more : List (Option LogCallback)) :
    SetBy (installed ++ more) n cb := by
  refine ⟨h.1.trans (by rw [List.length_append]; omega), ?_⟩
  rw [List.take_append_of_le_length h.1]
  exact h.2

/-- Lines, the filters that let them through, and the callbacks they were
given to. -/
structure Served (w : LogWorld) : Prop where
  current : w.core.logCallback = w.installed.getLast?.join
  calls : ∀ f ∈ w.calls, f.install ≤ w.installed.length
  native : ∀ f, w.native = some f → f.install ≤ w.installed.length
  inflight : ∀ t line, w.inflight t = some line → line.install ≤ w.installed.length
  /-- A record is the work of one install, and of a line that the filter
  of the same or an older one let through. -/
  records : ∀ r ∈ w.records, r.line.install ≤ r.install
    ∧ SetBy w.installed r.install (.adapter r.logger)
  heard : ∀ h ∈ w.heard, h.line.install ≤ h.install
    ∧ SetBy w.installed h.install (.user h.callback)
  /-- Later records are never the work of earlier installs. -/
  recordsOrder : w.records.Pairwise fun r r' => r.install ≤ r'.install
  heardOrder : w.heard.Pairwise fun h h' => h.install ≤ h'.install
  /-- What is recorded, and that the logger was enabled for it. -/
  content : ∀ r ∈ w.records, ∃ text, r.line.text.toStr? = some text
    ∧ r.message = rstrip text ∧ r.pyLevel = adapterLevel r.line.level.value
    ∧ r.effective ≤ r.pyLevel

/-- Before the first install nothing is served. -/
theorem served_init (loggers : Loggers) : Served (init loggers) where
  current := rfl
  calls := fun f hf => by cases hf
  native := fun f hf => by cases hf
  inflight := fun t line hl => by cases hl
  records := fun r hr => by cases hr
  heard := fun h hh => by cases hh
  recordsOrder := .nil
  heardOrder := .nil
  content := fun r hr => by cases hr

/-- An install serves itself. -/
theorem served_coreInitLogger (h : Served w) (level : Int) (derivedFrom : Option Int)
    (callback : Option LogCallback) :
    Served (w.coreInitLogger level derivedFrom callback) := by
  have hlen : (w.installed ++ [callback]).length = w.installed.length + 1 :=
    List.length_append
  constructor
  case current =>
    show callback = (w.installed ++ [callback]).getLast?.join
    rw [List.getLast?_concat]
    rfl
  case calls =>
    intro f hf
    show f.install ≤ (w.installed ++ [callback]).length
    rw [hlen]
    unfold coreInitLogger at hf
    split at hf
    next =>
      rcases List.mem_append.mp hf with hf | hf
      · exact (h.calls f hf).trans (by omega)
      · cases List.mem_singleton.mp hf
        exact Nat.le_refl _
    next => exact (h.calls f hf).trans (by omega)
  case native => exact fun f hf => (h.native f hf).trans (by rw [coreInitLogger, hlen]; omega)
  case inflight =>
    exact fun t line hl => (h.inflight t line hl).trans (by rw [coreInitLogger, hlen]; omega)
  case records => exact fun r hr => ⟨(h.records r hr).1, (h.records r hr).2.append _⟩
  case heard => exact fun r hr => ⟨(h.heard r hr).1, (h.heard r hr).2.append _⟩
  case recordsOrder => exact h.recordsOrder
  case heardOrder => exact h.heardOrder
  case content => exact h.content

/-- A line in flight was let through by an install that was made. -/
theorem served_await (h : Served w) {t : Nat} {line : Option LogLine}
    (hl : ∀ l, line = some l → l.install ≤ w.installed.length) : Served (w.await t line) := by
  refine { h with inflight := fun t' l hl' => ?_ }
  have hat : update w.inflight t line t' = some l := hl'
  by_cases ht : t' = t
  · subst ht
    rw [Function.update_self] at hat
    exact hl l hat
  · rw [Function.update_of_ne ht] at hat
    exact h.inflight t' l hat

/-- A line is let through by the filter of an install that was made. -/
theorem served_emit (h : Served w) (t : Nat) (level : LogLevel) (text : CText) :
    Served (w.emit passes t level text) := by
  have hemits := emit_cases passes t level text w
  generalize w.emit passes t level text = w' at hemits
  cases hemits with
  | nowhere => exact h
  | printed => exact { h with }
  | waits level text hf =>
      refine served_await h fun l hl => ?_
      cases hl
      exact h.native _ hf

/-- The callback in place is the last one that was set. -/
theorem Served.setBy (h : Served w) {cb : LogCallback} (hcb : w.core.logCallback = some cb) :
    SetBy w.installed w.installed.length cb := by
  refine ⟨Nat.le_refl _, ?_⟩
  rw [List.take_length]
  exact Option.join_eq_some_iff.mp (h.current.symm.trans hcb)

/-- A line is handed to the callback of its install or a later one. -/
theorem served_turn (h : Served w) (t : Nat) : Served (w.turn t) := by
  have hgone : Served (w.await t none) := served_await h fun l hl => by cases hl
  have hturns := turn_cases t w
  generalize w.turn t = w' at hturns
  cases hturns with
  | idle => exact h
  | dropped => exact hgone
  | @heard line n text hline hcb htext =>
      refine { hgone with heard := fun r hr => ?_, heardOrder := ?_ }
      · rcases List.mem_append.mp hr with hr | hr
        · exact h.heard r hr
        · cases List.mem_singleton.mp hr
          exact ⟨h.inflight t line hline, h.setBy hcb⟩
      · refine List.pairwise_append.mpr ⟨h.heardOrder, List.pairwise_singleton _ _, ?_⟩
        intro r hr r' hr'
        cases List.mem_singleton.mp hr'
        exact (h.heard r hr).2.1
  | @recorded line g text hline hcb htext hle =>
      refine { hgone with
        records := fun r hr => ?_, recordsOrder := ?_, content := fun r hr => ?_ }
      · rcases List.mem_append.mp hr with hr | hr
        · exact h.records r hr
        · cases List.mem_singleton.mp hr
          exact ⟨h.inflight t line hline, h.setBy hcb⟩
      · refine List.pairwise_append.mpr ⟨h.recordsOrder, List.pairwise_singleton _ _, ?_⟩
        intro r hr r' hr'
        cases List.mem_singleton.mp hr'
        exact (h.records r hr).2.1
      · rcases List.mem_append.mp hr with hr | hr
        · exact h.content r hr
        · cases List.mem_singleton.mp hr
          exact ⟨text, htext, rfl, rfl, hle⟩

/-- Every step serves in order. -/
theorem served_apply {derive : Int → LogLevel} (h : Served w)
    (ha : apply passes derive a w = some w') : Served w' := by
  cases a with
  | install g level =>
      cases ha
      rcases install_cases derive g level w with heq | ⟨l, d, heq⟩ <;> rw [heq]
      · exact h
      · exact served_coreInitLogger h l.value d _
  | initLogger level callback =>
      cases ha
      exact served_coreInitLogger h level none _
  | enter k =>
      obtain ⟨f, hf, rfl⟩ := enter_eq_some ha
      refine { h with
        calls := fun f' hf' => h.calls f' (List.mem_of_mem_eraseIdx hf')
        native := fun f' hf' => ?_ }
      cases hf'
      exact h.calls f (List.mem_of_getElem? hf)
  | emit t level text =>
      obtain ⟨-, -, rfl⟩ := emit_eq_some ha
      exact served_emit h t level text
  | turn t =>
      cases ha
      exact served_turn h t
  | atexit =>
      cases ha
      have hlog := CoreWorld.logCallback_apply (a := .atexit []) (w := w.core) rfl rfl
      exact { h with current := hlog.trans h.current }
  | _ =>
      cases ha
      exact { h with }

/-- The action calls `_core.init_logger`. -/
def Action.sets : Action → Bool
  | install .. => true
  | initLogger .. => true
  | _ => false

/-- No call of it is under way when one is made, and its level is a C
`int`. -/
def Alone (a : Action) (w : LogWorld) : Prop :=
  a.sets = true → w.calls = [] ∧ ∀ level callback, a = .initLogger level callback →
    fitsInt level = true

/-- The filter in effect, or the one call under way, is that of the
install whose callback is in place. -/
def Matched (w : LogWorld) : Prop :=
  (w.calls = [] ∧ ∀ f, w.native = some f → f.install = w.installed.length)
    ∨ ∃ f, w.calls = [f] ∧ f.install = w.installed.length

/-- An install that is alone leaves its own filter and its own
callback. -/
theorem matched_coreInitLogger {level : Int} (hfit : fitsInt level = true)
    (hcalls : w.calls = []) (derivedFrom : Option Int) (callback : Option LogCallback) :
    Matched (w.coreInitLogger level derivedFrom callback) := by
  refine .inr ⟨⟨level, callback.isSome, w.installed.length + 1, derivedFrom⟩, ?_, ?_⟩
  · simp only [coreInitLogger, if_pos hfit, hcalls, List.nil_append]
  · show w.installed.length + 1 = (w.installed ++ [callback]).length
    rw [List.length_append, List.length_singleton]

/-- A step that is alone keeps filter and callback together. -/
theorem matched_apply {derive : Int → LogLevel} (h : Matched w) (halone : Alone a w)
    (ha : apply passes derive a w = some w') : Matched w' := by
  have hsame : ∀ {v : LogWorld}, v.calls = w.calls → v.native = w.native →
      v.installed = w.installed → Matched v := by
    intro v hcalls hnative hinstalled
    unfold Matched
    rw [hcalls, hnative, hinstalled]
    exact h
  cases a with
  | install g level =>
      cases ha
      rcases install_cases derive g level w with heq | ⟨l, d, heq⟩ <;> rw [heq]
      · exact h
      · exact matched_coreInitLogger (fitsInt_value l) (halone rfl).1 d _
  | initLogger level callback =>
      cases ha
      obtain ⟨hcalls, hfit⟩ := halone rfl
      exact matched_coreInitLogger (hfit level callback rfl) hcalls none _
  | enter k =>
      obtain ⟨f, hf, rfl⟩ := enter_eq_some ha
      rcases h with ⟨hcalls, -⟩ | ⟨g, hcalls, hg⟩
      · rw [hcalls] at hf
        cases hf
      · rw [hcalls] at hf
        cases k with
        | succ k => cases hf
        | zero =>
            cases hf
            refine .inl ⟨?_, fun f' hf' => ?_⟩
            · show w.calls.eraseIdx 0 = []
              rw [hcalls]
              rfl
            · cases hf'
              exact hg
  | emit t level text =>
      obtain ⟨-, -, rfl⟩ := emit_eq_some ha
      have hemits := emit_cases passes t level text w
      generalize w.emit passes t level text = w' at hemits
      cases hemits <;> exact hsame rfl rfl rfl
  | turn t =>
      cases ha
      have hturns := turn_cases t w
      generalize w.turn t = w' at hturns
      cases hturns <;> exact hsame rfl rfl rfl
  | _ =>
      cases ha
      exact hsame rfl rfl rfl

/-- However installs, lines and turns interleave, a line is handed to the
callback of the install whose filter let it through or of a later one,
never of an earlier one; and installs that do not overlap leave a filter
and a callback that belong together. -/
theorem records_ordered {derive : Int → LogLevel} {loggers : Loggers} {acts : List Action}
    (h : exec (apply passes derive) (init loggers) acts = some w) :
    Served w ∧ ((∀ a m, Transition.Takes (apply passes derive) (init loggers) acts a m →
      Alone a m) → Matched w) := by
  constructor
  · exact (Transition.reachable_of_exec h).invariant (served_init loggers) served_apply
  · intro halone
    refine Transition.exec_of_takes (P := fun _ m => Matched m) ?_
      (fun _ hm (hok : Alone _ _) ha => matched_apply hm hok ha) halone h
    exact .inl ⟨rfl, fun f hf => by cases hf⟩

/-- Two installs for two loggers whose native calls cross, and a line
that waits for the GIL meanwhile. -/
def crossedInstallsRun : List Action :=
  [.install 0 (.member .info), .enter 0, .emit 1 .info (some [104, 105, 10, 0]),
    .install 2 (.code 2), .install 3 .unset, .enter 1, .enter 0, .turn 1]

theorem records_ordered_crossedInstallsRun :
    ∃ w, exec (apply (fun f s => decide (s ≤ f)) pyLevelToRtc) (init underRoot)
        crossedInstallsRun = some w
      ∧ w.native.map (fun f => f.install) = some 2
      ∧ w.records.map (fun r => (r.line.install, r.install, r.logger)) = [(1, 3, 3)]
      ∧ Served w :=
  ⟨_, rfl, rfl, rfl,
    (@records_ordered (fun f s => decide (s ≤ f)) _ pyLevelToRtc underRoot crossedInstallsRun
      rfl).1⟩

end LogWorld

end AioLibDataChannel
