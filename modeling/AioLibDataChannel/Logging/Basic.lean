/-
The logger: `install_python_logger` and `init_logger`, the two halves of
`_core.init_logger`, and a line of libdatachannel's on its way to the
record it becomes.

The filter sits in the library and the adapter in Python. A line is
filtered in the native thread that logs it, without the GIL, and then
waits for its turn at the GIL; an install sets `_log_callback` first and
then, having released the GIL, the filter. Between any two of these
anything else can happen, another install included.
-/
import AioLibDataChannel.IntEnum.Basic
import AioLibDataChannel.Native.Trampoline

namespace AioLibDataChannel

open Function (update)

-- ================================================================ levels

/-- `LogLevel`. -/
inductive LogLevel
  | none
  | fatal
  | error
  | warning
  | info
  | debug
  | verbose
deriving DecidableEq, Repr

def LogLevel.enum : IntEnum LogLevel where
  members := [.none, .fatal, .error, .warning, .info, .debug, .verbose]
  value
    | .none => 0
    | .fatal => 1
    | .error => 2
    | .warning => 3
    | .info => 4
    | .debug => 5
    | .verbose => 6
  complete := fun e => by cases e <;> decide
  distinct := fun e e' => by cases e <;> cases e' <;> decide

/-- `int(level)`. -/
abbrev LogLevel.value (level : LogLevel) : Int := LogLevel.enum.value level

namespace Logging

/-- The levels of `logging`. -/
def critical : Int := 50
def error : Int := 40
def warning : Int := 30
def info : Int := 20
def debug : Int := 10
def notset : Int := 0

end Logging

/-- `_RTC_TO_PY_LEVEL`. -/
def rtcToPyLevel : List (Int × Int) :=
  [(LogLevel.fatal.value, Logging.critical),
    (LogLevel.error.value, Logging.error),
    (LogLevel.warning.value, Logging.warning),
    (LogLevel.info.value, Logging.info),
    (LogLevel.debug.value, Logging.debug),
    (LogLevel.verbose.value, Logging.debug)]

/-- `_RTC_TO_PY_LEVEL.get(rtc_lvl, logging.INFO)`. -/
def adapterLevel (rtcLvl : Int) : Int := (rtcToPyLevel.lookup rtcLvl).getD Logging.info

/-- `_py_level_to_rtc`. -/
def pyLevelToRtc (pyLevel : Int) : LogLevel :=
  if pyLevel ≤ Logging.debug then .debug
  else if pyLevel ≤ Logging.info then .info
  else if pyLevel ≤ Logging.warning then .warning
  else if pyLevel ≤ Logging.error then .error
  else .fatal

/-- What a logger at this level lets through of a line: a fatal one is
never filtered, a verbose one always. -/
def Covers (pyLevel : Int) (level : LogLevel) : Prop :=
  level = .fatal ∨ (level ≠ .verbose ∧ pyLevel ≤ adapterLevel level.value)

instance (pyLevel : Int) (level : LogLevel) : Decidable (Covers pyLevel level) :=
  inferInstanceAs (Decidable (_ ∨ _))

/-- The mapped level by the numbers. -/
theorem value_pyLevelToRtc (pyLevel : Int) :
    (pyLevelToRtc pyLevel).value
      = if pyLevel ≤ 10 then 5 else if pyLevel ≤ 20 then 4 else if pyLevel ≤ 30 then 3
        else if pyLevel ≤ 40 then 2 else 1 := by
  unfold pyLevelToRtc Logging.debug Logging.info Logging.warning Logging.error
  split_ifs <;> rfl

/-- A level between the two that are special. -/
theorem covers_between {pyLevel : Int} {level : LogLevel} (hf : level ≠ .fatal)
    (hv : level ≠ .verbose) : Covers pyLevel level ↔ pyLevel ≤ adapterLevel level.value :=
  ⟨fun h => (h.resolve_left hf).2, fun h => .inr ⟨hv, h⟩⟩

/-- The derived filter, against the table it is the inverse of. -/
theorem le_pyLevelToRtc_iff (pyLevel : Int) {level : LogLevel} (h : level ≠ .none) :
    level.value ≤ (pyLevelToRtc pyLevel).value ↔ Covers pyLevel level := by
  rw [value_pyLevelToRtc]
  cases level with
  | none => exact absurd rfl h
  | fatal =>
      refine iff_of_true ?_ (.inl rfl)
      split_ifs <;> decide
  | verbose =>
      refine iff_of_false ?_ ?_
      · split_ifs <;> decide
      · rintro (hf | ⟨hv, -⟩)
        · cases hf
        · exact hv rfl
  | error =>
      rw [covers_between (by decide) (by decide)]
      show (2 : Int) ≤ _ ↔ pyLevel ≤ 40
      split_ifs <;> omega
  | warning =>
      rw [covers_between (by decide) (by decide)]
      show (3 : Int) ≤ _ ↔ pyLevel ≤ 30
      split_ifs <;> omega
  | info =>
      rw [covers_between (by decide) (by decide)]
      show (4 : Int) ≤ _ ↔ pyLevel ≤ 20
      split_ifs <;> omega
  | debug =>
      rw [covers_between (by decide) (by decide)]
      show (5 : Int) ≤ _ ↔ pyLevel ≤ 10
      split_ifs <;> omega

-- =============================================================== logging

/-- The loggers of `logging`, by number. `chain` lists a logger and its
ancestors, itself first. -/
structure Loggers where
  chain : Nat → List Nat
  level : Nat → Int
  disabled : Nat → Bool
  /-- `manager.disable`. -/
  disable : Int

namespace Loggers

/-- `Logger.getEffectiveLevel`: the first level that is set. -/
def getEffectiveLevel (loggers : Loggers) (g : Nat) : Int :=
  (((loggers.chain g).map loggers.level).find? (· ≠ 0)).getD Logging.notset

/-- `Logger.isEnabledFor`. -/
def isEnabledFor (loggers : Loggers) (g : Nat) (level : Int) : Bool :=
  !loggers.disabled g && decide (loggers.disable < level)
    && decide (loggers.getEffectiveLevel g ≤ level)

end Loggers

/-- `str.isspace`, of a character. -/
def isSpace (c : Char) : Bool :=
  let n := c.toNat
  decide ((9 ≤ n ∧ n ≤ 13) ∨ (28 ≤ n ∧ n ≤ 32) ∨ n = 0x85 ∨ n = 0xa0 ∨ n = 0x1680
    ∨ (0x2000 ≤ n ∧ n ≤ 0x200a) ∨ n = 0x2028 ∨ n = 0x2029 ∨ n = 0x202f ∨ n = 0x205f
    ∨ n = 0x3000)

/-- `str.rstrip`. -/
def rstrip (text : List Char) : List Char := (text.reverse.dropWhile isSpace).reverse

-- ================================================================= state

/-- What `_log_callback` can be: the `_adapter` of an install, or a
caller's own. -/
inductive LogCallback
  | adapter (logger : Nat)
  | user (n : Nat)
deriving DecidableEq, Repr

/-- The `level` argument of `install_python_logger`. -/
inductive InstallLevel
  | unset
  | member (level : LogLevel)
  | code (n : Int)
deriving DecidableEq, Repr

/-- A call of `rtcInitLogger`. `install` and `derivedFrom` say which call
of `_core.init_logger` it belongs to, and which effective level its level
was derived from. -/
structure LogFilter where
  level : Int
  enable : Bool
  install : Nat
  derivedFrom : Option Int
deriving DecidableEq, Repr

/-- A line that was let through, and by which filter. -/
structure LogLine where
  thread : Nat
  level : LogLevel
  text : CText
  install : Nat
  derivedFrom : Option Int
deriving DecidableEq, Repr

/-- A record a logger made of a line, through the adapter of an install,
at an effective level. -/
structure LogRecord where
  line : LogLine
  install : Nat
  logger : Nat
  effective : Int
  pyLevel : Int
  message : List Char
deriving DecidableEq, Repr

/-- A line that a caller's own callback was called with. -/
structure LogHeard where
  line : LogLine
  install : Nat
  callback : Nat
  level : Int
  message : List Char
deriving DecidableEq, Repr

/-- The module state of `_core`, the loggers, and the library. -/
structure LogWorld where
  core : CoreWorld LogCallback PyValue
  loggers : Loggers
  /-- The callbacks `_core.init_logger` was called with, oldest first. -/
  installed : List (Option LogCallback)
  /-- Its native calls that have released the GIL and are not in effect
  yet. -/
  calls : List LogFilter
  native : Option LogFilter
  /-- The line a native thread waits for the GIL with. -/
  inflight : Nat → Option LogLine
  records : List LogRecord
  heard : List LogHeard
  printed : List LogLine

namespace LogWorld

def init (loggers : Loggers) : LogWorld where
  core := .init
  loggers := loggers
  installed := []
  calls := []
  native := none
  inflight := fun _ => none
  records := []
  heard := []
  printed := []

-- =============================================================== install

/-- `_native.init_logger` takes a C `int`. -/
def fitsInt (n : Int) : Bool := decide (-2147483648 ≤ n ∧ n < 2147483648)

/-- `_core.init_logger`, up to the native call. One whose level does not
fit raises a `TypeError`, with the callback already in place. -/
def coreInitLogger (level : Int) (derivedFrom : Option Int)
    (callback : Option LogCallback) (w : LogWorld) : LogWorld :=
  { w with
    core := w.core.run (.initLogger callback)
    installed := w.installed ++ [callback]
    calls :=
      if fitsInt level then
        w.calls ++ [⟨level, callback.isSome, w.installed.length + 1, derivedFrom⟩]
      else w.calls }

/-- `install_python_logger`, with `derive` for `_py_level_to_rtc`. A
number that is no `LogLevel` raises before anything is set. -/
def installPythonLogger (derive : Int → LogLevel) (g : Nat) (level : InstallLevel)
    (w : LogWorld) : LogWorld :=
  match level with
  | .unset =>
      let effective := w.loggers.getEffectiveLevel g
      w.coreInitLogger (derive effective).value (some effective) (some (.adapter g))
  | .member l => w.coreInitLogger l.value none (some (.adapter g))
  | .code n =>
      match LogLevel.enum.ofValue? n with
      | none => w
      | some l => w.coreInitLogger l.value none (some (.adapter g))

-- ================================================================= lines

/-- A native thread waits for the GIL with a line, or no longer. -/
def await (t : Nat) (line : Option LogLine) (w : LogWorld) : LogWorld :=
  { w with inflight := update w.inflight t line }

/-- What the filter let through goes to `tr_log` or to stdout. -/
def write (t : Nat) (level : LogLevel) (text : CText) (f : LogFilter) (w : LogWorld) :
    LogWorld :=
  let line : LogLine := ⟨t, level, text, f.install, f.derivedFrom⟩
  if f.enable then w.await t (some line) else { w with printed := w.printed ++ [line] }

/-- A native thread logs a line. -/
def emit (passes : Int → Int → Bool) (t : Nat) (level : LogLevel) (text : CText)
    (w : LogWorld) : LogWorld :=
  match w.native with
  | none => w
  | some f => if passes f.level level.value then w.write t level text f else w

/-- `log.log(py_lvl, "%s", message.rstrip())`. -/
def log (line : LogLine) (g : Nat) (rtcLvl : Int) (message : List Char)
    (w : LogWorld) : LogWorld :=
  let pyLvl := adapterLevel rtcLvl
  if w.loggers.isEnabledFor g pyLvl then
    { w with
      records := w.records ++ [⟨line, w.installed.length, g, w.loggers.getEffectiveLevel g,
        pyLvl, rstrip message⟩] }
  else w

/-- `cb(int(level), str(message))`. -/
def call (line : LogLine) (w : LogWorld) : Fired LogCallback PyValue → LogWorld
  | .log (.adapter g) level (.str message) => w.log line g level message
  | .log (.user n) level (.str message) =>
      { w with heard := w.heard ++ [⟨line, w.installed.length, n, level, message⟩] }
  | _ => w

/-- `tr_log`, with the GIL. -/
def trLog (line : LogLine) (w : LogWorld) : LogWorld :=
  match AioLibDataChannel.trLog line.level.value line.text with
  | none => w
  | some a =>
      if w.core.dispatcher then
        match w.core.dispatch a.kind.code a.handle a.payload with
        | .ok (some f) => w.call line f
        | _ => w
      else w

/-- A thread's turn at the GIL. -/
def turn (t : Nat) (w : LogWorld) : LogWorld :=
  match w.inflight t with
  | none => w
  | some line => (w.await t none).trLog line

-- =============================================================== actions

inductive Action
  | install (g : Nat) (level : InstallLevel)
  | initLogger (level : Int) (callback : Option Nat)
  | enter (k : Nat)
  | setLevel (g : Nat) (level : Int)
  | setDisabled (g : Nat) (disabled : Bool)
  | disable (level : Int)
  | emit (t : Nat) (level : LogLevel) (text : CText)
  | turn (t : Nat)
  | atexit
deriving DecidableEq, Repr

/-- The transition. Each line has a level, and a thread that waits for the
GIL logs nothing. -/
def apply (passes : Int → Int → Bool) (derive : Int → LogLevel) :
    Action → LogWorld → Option LogWorld
  | .install g level, w => some (w.installPythonLogger derive g level)
  | .initLogger level callback, w =>
      some (w.coreInitLogger level none (callback.map .user))
  | .enter k, w =>
      match w.calls[k]? with
      | none => none
      | some f => some { w with calls := w.calls.eraseIdx k, native := some f }
  | .setLevel g level, w =>
      some { w with loggers := { w.loggers with level := update w.loggers.level g level } }
  | .setDisabled g disabled, w =>
      some { w with
        loggers := { w.loggers with disabled := update w.loggers.disabled g disabled } }
  | .disable level, w => some { w with loggers := { w.loggers with disable := level } }
  | .emit t level text, w =>
      if level ≠ .none ∧ w.inflight t = none then some (w.emit passes t level text)
      else none
  | .turn t, w => some (w.turn t)
  | .atexit, w => some { w with core := w.core.atexitDestroyAll [] }

-- ================================================================= a turn

variable {passes : Int → Int → Bool} {w w' : LogWorld} {a : Action}

/-- The callback a line reaches, and what it is called with. -/
def reached (core : CoreWorld LogCallback PyValue) (line : LogLine) :
    Option (LogCallback × List Char) :=
  if core.dispatcher then
    line.text.toStr?.bind fun text => core.logCallback.map fun cb => (cb, text)
  else none

/-- A line that is dispatched goes to the callback there is, if any. -/
theorem dispatch_log (core : CoreWorld LogCallback PyValue) (level : Int)
    (text : List Char) :
    core.dispatch CallbackKind.log.code level [.str text]
      = .ok (core.logCallback.map fun cb => .log cb level (.str text)) := by
  unfold CoreWorld.dispatch
  rw [CoreWorld.ofCode?_code]
  cases hcb : core.logCallback <;> rfl

/-- `tr_log` drops the line, or calls the callback with its text. -/
theorem trLog_spec (line : LogLine) (w : LogWorld) :
    (reached w.core line = none ∧ w.trLog line = w)
      ∨ ∃ cb text, reached w.core line = some (cb, text)
        ∧ w.trLog line = w.call line (.log cb line.level.value (.str text)) := by
  unfold trLog AioLibDataChannel.trLog textArgs reached
  cases htext : line.text.toStr? with
  | none =>
      refine .inl ⟨?_, rfl⟩
      split <;> rfl
  | some text =>
      simp only [Option.map_some, Option.bind_some, dispatch_log]
      by_cases hon : w.core.dispatcher = true
      · rw [if_pos hon, if_pos hon]
        cases hcb : w.core.logCallback with
        | none => exact .inl ⟨rfl, rfl⟩
        | some cb => exact .inr ⟨cb, text, rfl, rfl⟩
      · rw [if_neg hon, if_neg hon]
        exact .inl ⟨rfl, rfl⟩

/-- A line that reaches a callback reaches the one that is set. -/
theorem reached_eq_some {core : CoreWorld LogCallback PyValue} {line : LogLine}
    {cb : LogCallback} {text : List Char} (h : reached core line = some (cb, text)) :
    core.logCallback = some cb ∧ line.text.toStr? = some text := by
  unfold reached at h
  split at h
  next =>
    obtain ⟨text', htext, hcb⟩ := Option.bind_eq_some_iff.mp h
    obtain ⟨cb', hcb', heq⟩ := Option.map_eq_some_iff.mp hcb
    cases heq
    exact ⟨hcb', htext⟩
  next => cases h

/-- What a turn of thread `t` can come to. -/
inductive Turns (t : Nat) (w : LogWorld) : LogWorld → Prop
  | idle : w.inflight t = none → Turns t w w
  | dropped {line : LogLine} : w.inflight t = some line → Turns t w (w.await t none)
  | heard {line : LogLine} {n : Nat} {text : List Char} :
      w.inflight t = some line → w.core.logCallback = some (.user n) →
      line.text.toStr? = some text →
      Turns t w { w.await t none with
        heard := w.heard ++ [⟨line, w.installed.length, n, line.level.value, text⟩] }
  | recorded {line : LogLine} {g : Nat} {text : List Char} :
      w.inflight t = some line → w.core.logCallback = some (.adapter g) →
      line.text.toStr? = some text →
      w.loggers.getEffectiveLevel g ≤ adapterLevel line.level.value →
      Turns t w { w.await t none with
        records := w.records ++ [⟨line, w.installed.length, g, w.loggers.getEffectiveLevel g,
          adapterLevel line.level.value, rstrip text⟩] }

/-- What a thread's turn does is one of these. -/
theorem turn_cases (t : Nat) (w : LogWorld) : Turns t w (w.turn t) := by
  unfold turn
  split
  next hline => exact .idle hline
  next line hline =>
    rcases trLog_spec line (w.await t none) with ⟨-, heq⟩ | ⟨cb, text, hs, heq⟩ <;> rw [heq]
    · exact .dropped hline
    · obtain ⟨hcb, htext⟩ := reached_eq_some hs
      cases cb with
      | user n => exact .heard hline hcb htext
      | adapter g =>
          simp only [call, log]
          split
          next hon =>
            simp only [Loggers.isEnabledFor, Bool.and_eq_true, decide_eq_true_eq] at hon
            exact .recorded hline hcb htext hon.2
          next => exact .dropped hline

/-- What logging a line can come to. -/
inductive Emits (t : Nat) (w : LogWorld) : LogWorld → Prop
  | nowhere : Emits t w w
  | printed (line : LogLine) : Emits t w { w with printed := w.printed ++ [line] }
  | waits {f : LogFilter} (level : LogLevel) (text : CText) : w.native = some f →
      Emits t w (w.await t (some ⟨t, level, text, f.install, f.derivedFrom⟩))

/-- What emitting a line does is one of these. -/
theorem emit_cases (passes : Int → Int → Bool) (t : Nat) (level : LogLevel) (text : CText)
    (w : LogWorld) : Emits t w (w.emit passes t level text) := by
  unfold emit
  split
  next => exact .nowhere
  next f hf =>
    split
    · unfold write
      split
      · exact .waits level text hf
      · exact .printed _
    · exact .nowhere

/-- What an install can come to. -/
theorem install_cases (derive : Int → LogLevel) (g : Nat) (level : InstallLevel)
    (w : LogWorld) :
    w.installPythonLogger derive g level = w
      ∨ ∃ (l : LogLevel) (derivedFrom : Option Int),
        w.installPythonLogger derive g level
          = w.coreInitLogger l.value derivedFrom (some (.adapter g)) := by
  cases level with
  | unset => exact .inr ⟨_, _, rfl⟩
  | member l => exact .inr ⟨l, none, rfl⟩
  | code n =>
      simp only [installPythonLogger]
      split
      next => exact .inl rfl
      next l _ => exact .inr ⟨l, none, rfl⟩

/-- Every level of the library fits an `int`. -/
theorem fitsInt_value (level : LogLevel) : fitsInt level.value = true := by
  cases level <;> rfl

/-- A call to the native layer takes effect as it was made. -/
theorem enter_eq_some {derive : Int → LogLevel} {k : Nat}
    (h : apply passes derive (.enter k) w = some w') :
    ∃ f, w.calls[k]? = some f
      ∧ w' = { w with calls := w.calls.eraseIdx k, native := some f } := by
  simp only [apply] at h
  split at h
  next => cases h
  next f hf =>
    cases h
    exact ⟨f, hf, rfl⟩

/-- A thread emits a line at a real level when it has none under way. -/
theorem emit_eq_some {derive : Int → LogLevel} {t : Nat} {level : LogLevel} {text : CText}
    (h : apply passes derive (.emit t level text) w = some w') :
    level ≠ .none ∧ w.inflight t = none ∧ w' = w.emit passes t level text := by
  simp only [apply] at h
  split at h
  next hen =>
    cases h
    exact ⟨hen.1, hen.2, rfl⟩
  next => cases h

end LogWorld

end AioLibDataChannel
