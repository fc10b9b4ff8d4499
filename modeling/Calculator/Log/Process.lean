/-
**Records of a process.**

A process makes a logger when its name is used for the first time.  It asks the logger whether a
record is to be written; the answer follows from the threshold that is found on the way up, but it
is remembered for the level, and given again even if a logger that is made in between has changed
that way.  A record that is to be written is handed from its logger to those above it, up to the
first one that hands nothing on, and every handler on the way writes it.

Thresholds have names, but a record may be logged at any number, between two of them or beyond all.
Loggers that were made before the configuration have no threshold and no handler but what is
configured, and remember nothing.

Main definitions:

* `Calculator.Log.NumberedRecord` — a record at a level of any number;
* `Calculator.Log.Loggers` — the loggers that have been made, and what they remember;
* `Calculator.Log.Configuration.enabled` — whether a threshold is reached;
* `Calculator.Log.Configuration.handlers` — the handlers that a record of a logger reaches;
* `Calculator.Log.Configuration.delivered` — what they write for records;
* `Calculator.Log.logged` — what is written for records after a level has been asked for.
-/

import Calculator.Log.Configuration

namespace Calculator.Log

/-! ### Levels of any number -/

/-- The name of a level of any number: that of the level of this rank, or a made up one. -/
def rankLabel (rank : Int) : String :=
  match [Level.notset, .debug, .info, .warning, .error, .critical].find? (·.rank = rank) with
  | some level => level.label
  | none => "Level " ++ toString rank

/-- What a logger says at a level of any number. -/
structure NumberedRecord where
  rank : Int
  logger : String
  message : String
  /-- Further fields. -/
  extra : List (String × Json)

/-- The line that is written for a record. -/
def NumberedRecord.line (record : NumberedRecord) (id : Option RequestId) : Json :=
  .object <|
    [("asctime", .string Record.timeText), ("levelname", .string (rankLabel record.rank)),
      ("name", .string (Record.loggerName record.logger)), ("message", .string record.message),
      (Record.stampName, .string (Record.stamp id))] ++
      record.extra.filter (Record.isWritten ·.1)

/-- A record at the number of its level. -/
def Record.numbered (record : Record) : NumberedRecord :=
  ⟨record.level.rank, record.logger, record.message, record.extra⟩

/-! ### Loggers that are made and remember -/

/-- The names of the loggers that have been made, and the answers that they remember, each by the
name of the logger and the number of the level. -/
structure Loggers (α : Type) where
  made : List String
  remembered : List ((String × Int) × α)

/-- Asks a logger about a level.  The logger is made if there is none; an answer that it remembers
is given again, and any other one depends on the loggers that have been made. -/
def Loggers.ask {α : Type} (answer : List String → String → Int → α) (loggers : Loggers α)
    (logger : String) (rank : Int) : α × Loggers α :=
  let made := logger :: loggers.made
  match loggers.remembered.lookup (logger, rank) with
  | some found => (found, ⟨made, loggers.remembered⟩)
  | none =>
      let found := answer made logger rank
      (found, ⟨made, ((logger, rank), found) :: loggers.remembered⟩)

namespace Configuration

/-- The level is a positive one and reaches the threshold of the logger. -/
def enabled (configuration : Configuration) (made : List String) (logger : String) (rank : Int) :
    Bool :=
  0 < rank && (configuration.threshold made logger).rank ≤ rank

/-! ### Handlers -/

/-- The handlers that a record reaches on its way up the given loggers and to the root.  A logger
without a rule has no handler and hands the record on. -/
def handlersAlong (configuration : Configuration) : List String → List String
  | [] => configuration.root.handlers
  | logger :: above =>
      match configuration.loggers.lookup logger with
      | none => configuration.handlersAlong above
      | some rule =>
          rule.handlers ++
            if rule.propagate = some false then [] else configuration.handlersAlong above

/-- The handlers that a record of a logger reaches. -/
def handlers (configuration : Configuration) (made : List String) (logger : String) :
    List String :=
  configuration.handlersAlong (configuration.ancestors made logger)

/-- What the handlers write for records: each writes a line for every record that is to be written
and reaches it. -/
def delivered (configuration : Configuration) : Loggers Bool →
    List (NumberedRecord × Option RequestId) → List (String × Json)
  | _, [] => []
  | loggers, (record, id) :: records =>
      let (enabled, after) := loggers.ask configuration.enabled record.logger record.rank
      (if enabled then (configuration.handlers after.made record.logger).map (·, record.line id)
        else []) ++ configuration.delivered after records

end Configuration

/-! ### What is written -/

/-- What is written for records after a level has been asked for, and by which handlers, where
loggers of the given names have been made before. -/
def logged (level : String) (made : List String)
    (records : List (NumberedRecord × Option RequestId)) :
    Except UnknownLevel (List (String × Json)) :=
  let configuration := Configuration.ofLevel level
  match configuration.unknownLevel? with
  | some logger => .error ⟨logger⟩
  | none => .ok (configuration.delivered ⟨made, []⟩ records)

end Calculator.Log
