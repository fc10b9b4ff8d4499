/-
**Log levels.**

A record is written if its level reaches the threshold of its logger.  Levels are ordered by rank;
the lowest is no threshold at all but says that the threshold is found elsewhere.

Main definitions:

* `Calculator.Log.Level` — the levels;
* `Calculator.Log.Level.rank`, `Calculator.Log.Level.label` — their order and their names;
* `Calculator.Log.Level.ofName?` — a level by its name, two of them having a second name.

Main results:

* `Calculator.Log.Level.ofName?_label` — every level is found by its own name.
-/

namespace Calculator.Log

/-- How serious a record is. -/
inductive Level where
  | notset
  | debug
  | info
  | warning
  | error
  | critical
  deriving DecidableEq

namespace Level

/-- The place of a level in the order. -/
def rank : Level → Nat
  | .notset => 0
  | .debug => 10
  | .info => 20
  | .warning => 30
  | .error => 40
  | .critical => 50

/-- The name under which a level is written. -/
def label : Level → String
  | .notset => "NOTSET"
  | .debug => "DEBUG"
  | .info => "INFO"
  | .warning => "WARNING"
  | .error => "ERROR"
  | .critical => "CRITICAL"

/-- A level by its name. -/
def ofName? : String → Option Level
  | "NOTSET" => some .notset
  | "DEBUG" => some .debug
  | "INFO" => some .info
  | "WARNING" => some .warning
  | "WARN" => some .warning
  | "ERROR" => some .error
  | "CRITICAL" => some .critical
  | "FATAL" => some .critical
  | _ => none

/-- Every level is found by its own name. -/
@[simp] theorem ofName?_label (level : Level) : ofName? level.label = some level := by
  cases level <;> rfl

end Level

end Calculator.Log
