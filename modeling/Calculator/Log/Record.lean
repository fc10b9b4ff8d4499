/-
**Log records.**

A record is said by a logger at a level and may carry further fields.  It is written as one line of
named values and stamped with the id of the request under which it was said.

Main definitions:

* `Calculator.Log.Record` — what a logger says;
* `Calculator.Log.Record.line` — the line that is written.

Main results:

* `Calculator.Log.Record.find?_requestId` — the stamp is found in the line, whatever the record
  carries.
-/

import Calculator.Json.Basic
import Calculator.Log.Level
import Calculator.RequestId

namespace Calculator.Log

/-- What a logger says. -/
structure Record where
  level : Level
  logger : String
  message : String
  /-- Further fields. -/
  extra : List (String × Json)

namespace Record

/-- What stands for the time of a line. -/
def timeText : String := "<asctime>"

/-- The name of the stamp. -/
def stampName : String := "request_id"

/-- The stamp of a line: the request id, or a dash if there is none. -/
def stamp (id : Option RequestId) : String := (id.map (·.text)).getD "-"

/-- The name of the logger in which all others end has two spellings. -/
def loggerName (logger : String) : String := if logger = "" then "root" else logger

/-- A further field that is written: names that begin with an underscore are private, and the
stamp cannot be replaced. -/
def isWritten (name : String) : Bool := name.toList.head? != some '_' && name != stampName

/-- The line that is written for a record. -/
def line (record : Record) (id : Option RequestId) : Json :=
  .object <|
    [("asctime", .string timeText), ("levelname", .string record.level.label),
      ("name", .string (loggerName record.logger)), ("message", .string record.message),
      (stampName, .string (stamp id))] ++ record.extra.filter (isWritten ·.1)

/-- What is written of further fields does not hold the stamp. -/
theorem lastValue?_written (extra : List (String × Json)) :
    lastValue? stampName (extra.filter (isWritten ·.1)) = none := by
  unfold lastValue?
  rw [Option.map_eq_none_iff, List.find?_eq_none]
  intro e he hn
  rw [List.mem_reverse, List.mem_filter] at he
  simp_all [isWritten]

/-- The stamp is found in the line, whatever the record carries. -/
theorem find?_requestId (record : Record) (id : Option RequestId) :
    (record.line id).find? stampName = some (.string (stamp id)) := by
  change lastValue? stampName (_ ++ record.extra.filter (isWritten ·.1)) = _
  rw [lastValue?_append, lastValue?_written]
  rfl

end Record

end Calculator.Log
