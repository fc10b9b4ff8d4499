/-
**Log configuration and routing.**

Loggers are named by dotted paths and inherit their threshold: a logger without one of its own, or
whose own is the lowest level, has that of the nearest ancestor with one, and in the end that of the
root.  The configuration gives the loggers of the web server and the root a fixed threshold, and the
calculator's logger the level that was asked for.  Each configured logger hands its records to its
own handler and to no other, so that an enabled record is written exactly once.

Only loggers that have been made are ancestors, and the way up to them passes over a dot that stands
directly before the one found last.  A name with two dots in a row may therefore be cut off from the
loggers whose names it continues.

Main definitions:

* `Calculator.Log.Configuration` — thresholds by logger, and the form of a line;
* `Calculator.Log.Configuration.ofLevel` — the configuration for a requested level;
* `Calculator.Log.lineage` — the loggers above a name;
* `Calculator.Log.Configuration.ancestors` — the logger itself and those above it;
* `Calculator.Log.Configuration.threshold` — the threshold of any logger;
* `Calculator.Log.Routing.ofLevel` — the routing for a requested level, if the level is known;
* `Calculator.Log.Routing.write` — the lines that are written for records.

Main results:

* `Calculator.Log.Routing.write_append` — records are routed one by one;
* `Calculator.Log.Routing.write_records` — the lines of records under one id.
-/

import Calculator.Log.Record
import Calculator.Text.Uppercase

namespace Calculator.Log

/-! ### Configurations -/

/-- What is configured for a logger. -/
structure LoggerRule where
  handlers : List String
  level : String
  /-- Whether records are also handed to the logger above; the root has none above. -/
  propagate : Option Bool

/-- What is configured for all loggers. -/
structure Configuration where
  version : Nat
  disableExisting : Bool
  /-- The fields of a line. -/
  format : String
  /-- The form of the time. -/
  dateFormat : String
  /-- The rules of named loggers. -/
  loggers : List (String × LoggerRule)
  root : LoggerRule

/-- The calculator's logger, above all others of the calculator. -/
def applicationLogger : String := "calc_app"

/-- A logger with a handler of its own. -/
def LoggerRule.own (level : String) : LoggerRule := ⟨["default"], level, some false⟩

/-- The configuration for a requested level, which may be written in any case. -/
def Configuration.ofLevel (level : String) : Configuration where
  version := 1
  disableExisting := false
  format := "%(asctime)s %(levelname)s %(name)s %(message)s %(request_id)s"
  dateFormat := "%Y-%m-%dT%H:%M:%S%z"
  loggers := [("uvicorn", .own "INFO"), ("uvicorn.error", .own "INFO"),
    ("uvicorn.access", .own "INFO"), (applicationLogger, .own (upper level))]
  root := ⟨["default"], "INFO", none⟩

/-! ### The way up -/

/-- The loggers above a name, whose characters are given from the last to the first, the nearest
logger first.  Above a name stand its parts before a dot, if a logger of that name has been made;
from there the way goes on like that of the logger found.  A part for which there is no logger is
passed over together with its last character, even if that is a dot. -/
def lineage (made : List String) : List Char → List String
  | '.' :: last :: rest =>
      let above := String.ofList (last :: rest).reverse
      if above ∈ made then above :: lineage made (last :: rest) else lineage made rest
  | _ :: rest => lineage made rest
  | [] => []

/-! ### Thresholds -/

namespace Configuration

/-- The level configured for a named logger. -/
def levelOf? (configuration : Configuration) (logger : String) : Option Level :=
  (configuration.loggers.lookup logger).bind fun rule => Level.ofName? rule.level

/-- The level configured for a named logger, if it is a threshold. -/
def ownThreshold? (configuration : Configuration) (logger : String) : Option Level :=
  (configuration.levelOf? logger).filter (· ≠ .notset)

/-- The logger itself and those above it, the nearest first.  There are those that are configured
and those that have been made besides. -/
def ancestors (configuration : Configuration) (made : List String) (logger : String) :
    List String :=
  logger :: lineage (configuration.loggers.map (·.1) ++ made) logger.toList.reverse

/-- The threshold of a logger: that of its nearest ancestor with one, or else that of the root. -/
def threshold (configuration : Configuration) (made : List String) (logger : String) : Level :=
  ((configuration.ancestors made logger).findSome? configuration.ownThreshold?).getD
    ((Level.ofName? configuration.root.level).getD .notset)

/-- The first logger whose level is unknown. -/
def unknownLevel? (configuration : Configuration) : Option String :=
  (configuration.loggers.find? fun (_, rule) => (Level.ofName? rule.level).isNone).map (·.1)

end Configuration

/-! ### Routing -/

/-- A logger cannot be configured, because its level is unknown. -/
structure UnknownLevel where
  logger : String
  deriving DecidableEq

/-- What is said about it. -/
def UnknownLevel.message (fault : UnknownLevel) : String :=
  "Unable to configure logger '" ++ fault.logger ++ "'"

/-- The thresholds of the loggers as the configuration leaves them.  That of a logger whose name has
no two dots in a row stays the same whatever loggers are made later. -/
structure Routing where
  threshold : String → Level

namespace Routing

/-- The routing for a requested level, if the level is known. -/
def ofLevel (level : String) : Except UnknownLevel Routing :=
  let configuration := Configuration.ofLevel level
  match configuration.unknownLevel? with
  | some logger => .error ⟨logger⟩
  | none => .ok ⟨configuration.threshold []⟩

/-- The record is written. -/
def Enabled (routing : Routing) (record : Record) : Prop :=
  (routing.threshold record.logger).rank ≤ record.level.rank

instance (routing : Routing) (record : Record) : Decidable (routing.Enabled record) :=
  inferInstanceAs (Decidable (_ ≤ _))

/-- The lines that are written for records, each with the id under which it was said. -/
def write (routing : Routing) (records : List (Record × Option RequestId)) : List Json :=
  (records.filter (routing.Enabled ·.1)).map fun (record, id) => record.line id

@[simp] theorem write_nil (routing : Routing) : routing.write [] = [] := rfl

/-- Records are routed one by one. -/
@[simp] theorem write_append (routing : Routing) (s t : List (Record × Option RequestId)) :
    routing.write (s ++ t) = routing.write s ++ routing.write t := by
  simp [write]

/-- The lines of records under one id are those of the records that are enabled. -/
theorem write_records (routing : Routing) (id : Option RequestId) (records : List Record) :
    routing.write (records.map (·, id)) =
      (records.filter (routing.Enabled ·)).map (·.line id) := by
  rw [write, List.filter_map, List.map_map]
  rfl

end Routing

end Calculator.Log
