/-
**Settings.**

A setting is given as an argument, or else in the environment, or else has its default; its name may
be written in any case.  Values from the environment are texts, except that the list of origins is
written there as a structured value; arguments are structured values.  Every setting is checked, and
all problems are reported together, in the order of the settings.

Main definitions:

* `Calculator.Settings` — checked settings;
* `Calculator.Settings.Problem`, `Calculator.Settings.Fault` — what may be wrong;
* `Calculator.Settings.given` — the value that is given for a setting;
* `Calculator.Settings.build` — the settings for an environment and arguments.

Main results:

* `Calculator.Settings.build_default` — nothing given, nothing wrong, and the defaults hold.
-/

import Calculator.Json.Reader
import Calculator.Settings.Environment
import Calculator.Settings.Origin
import Calculator.Text.Integer

namespace Calculator

-- Powers are the ones of the numbers themselves, also where more general ones are at hand.
attribute [local instance (high)] instPowNat

/-- Checked settings. -/
structure Settings where
  apiTitle : String
  apiVersion : String
  logLevel : String
  /-- The most characters that an expression may have. -/
  maxExpressionLength : Int
  one_le_maxExpressionLength : 1 ≤ maxExpressionLength
  /-- The origins as they were configured. -/
  corsOrigins : List String
  frontendOrigin : Option String
  deriving DecidableEq

namespace Settings

/-- The origins from which browsers may ask. -/
def resolvedOrigins (settings : Settings) : List String :=
  Origin.resolve settings.corsOrigins settings.frontendOrigin

/-! ### Problems -/

/-- What may be wrong with a value. -/
inductive ProblemKind where
  | notString
  | notList
  | notInteger
  | unreadableInteger
  | oversizedInteger
  | notWhole
  | notFinite
  | tooSmall
  deriving DecidableEq

/-- The type under which a problem is reported. -/
def ProblemKind.type : ProblemKind → String
  | .notString => "string_type"
  | .notList => "list_type"
  | .notInteger => "int_type"
  | .unreadableInteger => "int_parsing"
  | .oversizedInteger => "int_parsing_size"
  | .notWhole => "int_from_float"
  | .notFinite => "finite_number"
  | .tooSmall => "greater_than_equal"

/-- What is said about a problem. -/
def ProblemKind.message : ProblemKind → String
  | .notString => "Input should be a valid string"
  | .notList => "Input should be a valid list"
  | .notInteger => "Input should be a valid integer"
  | .unreadableInteger =>
      "Input should be a valid integer, unable to parse string as an integer"
  | .oversizedInteger => "Unable to parse input string as an integer, exceeded maximum size"
  | .notWhole => "Input should be a valid integer, got a number with a fractional part"
  | .notFinite => "Input should be a finite number"
  | .tooSmall => "Input should be greater than or equal to 1"

/-- A problem with a setting, or with one item of a list. -/
structure Problem where
  setting : String
  index : Option Nat
  kind : ProblemKind
  deriving DecidableEq

/-- Why there are no settings. -/
inductive Fault where
  /-- The text of a setting in the environment is no structured value. -/
  | unreadable (setting : String)
  /-- Some values are wrong. -/
  | invalid (problems : List Problem)
  deriving DecidableEq

/-- What is said about a setting whose text cannot be read. -/
def unreadableMessage (setting : String) : String :=
  "error parsing value for field \"" ++ setting ++ "\" from source \"EnvSettingsSource\""

/-! ### Checks -/

/-- A checked value, or the problems with it. -/
abbrev Checked (α : Type) := Except (List Problem) α

/-- The problems with a value. -/
def Checked.problems {α : Type} : Checked α → List Problem
  | .error problems => problems
  | .ok _ => []

/-- A string. -/
def checkString (setting : String) (index : Option Nat) : Json → Checked String
  | .string text => .ok text
  | _ => .error [⟨setting, index, .notString⟩]

/-- The number of bits of the magnitudes that a double may stand for. -/
def integerBits : Nat := 63

/-- A double of this magnitude or more stands for no integer. -/
def integerBound : Nat := 2 ^ integerBits

/-- The whole number that a double stands for. -/
def wholeNumber : Double → Except ProblemKind Int
  | .finite negative m =>
      if m.isWhole then
        let magnitude := m.units / unitsPerOne
        if magnitude < integerBound then .ok (signed negative magnitude) else .error .oversizedInteger
      else .error .notWhole
  | _ => .error .notFinite

/-- What is reported of a text that stands for no integer. -/
def ProblemKind.ofIntegerFault : IntegerFault → ProblemKind
  | .unreadable => .unreadableInteger
  | .oversized => .oversizedInteger

/-- An integer, or what stands for one: a double that is a whole number, a truth value as zero or
one, or a text. -/
def integer : Json → Except ProblemKind Int
  | .integer value => .ok value
  | .real value => wholeNumber value
  | .bool value => .ok (if value then 1 else 0)
  | .string text => (readInteger text).mapError ProblemKind.ofIntegerFault
  | _ => .error .notInteger

/-- A positive integer. -/
def checkPositive (setting : String) (json : Json) : Checked { n : Int // 1 ≤ n } :=
  match integer json with
  | .error kind => .error [⟨setting, none, kind⟩]
  | .ok n => if h : 1 ≤ n then .ok ⟨n, h⟩ else .error [⟨setting, none, .tooSmall⟩]

/-- Strings that stand at the given index and after it. -/
def checkItems (setting : String) : Nat → List Json → Checked (List String)
  | _, [] => .ok []
  | index, item :: items =>
      match checkString setting (some index) item, checkItems setting (index + 1) items with
      | .ok text, .ok texts => .ok (text :: texts)
      | first, others => .error (Checked.problems first ++ Checked.problems others)

/-- A list of strings. -/
def checkStrings (setting : String) : Json → Checked (List String)
  | .array items => checkItems setting 0 items
  | _ => .error [⟨setting, none, .notList⟩]

/-- A string, or nothing. -/
def checkOptional (setting : String) : Json → Checked (Option String)
  | .null => .ok none
  | json => (checkString setting none json).map some

/-! ### Values that are given -/

/-- The name of the one setting that is structured. -/
def originsSetting : String := "cors_origins"

/-- The value that the environment gives for a setting.  A structured setting that is written as no
value at all is not given. -/
def fromEnvironment (environment : Environment) (setting : String) :
    Except Fault (Option Json) :=
  match environment.find? setting with
  | none => .ok none
  | some text =>
      if setting = originsSetting then
        match Json.ofText? text with
        | none => .error (.unreadable setting)
        | some .null => .ok none
        | some json => .ok (some json)
      else
        .ok (some (.string text))

/-- The argument for a setting, whose name may be written in any case.  If there are several
spellings, the first one counts. -/
def argument? (arguments : List (String × Json)) (setting : String) : Option Json :=
  (arguments.find? fun a => Environment.folded a.1 = Environment.folded setting).map (·.2)

/-- The value that is given for a setting: an argument wins over the environment. -/
def given (environment : Environment) (arguments : List (String × Json)) (setting : String) :
    Option Json :=
  (argument? arguments setting).or
    ((fromEnvironment environment setting).toOption.getD none)

/-- The default origins. -/
def defaultOrigins : List String := ["http://localhost:5173", "http://127.0.0.1:5173"]

/-- The default limit. -/
def defaultLength : { n : Int // 1 ≤ n } := ⟨200, by decide⟩

/-- Checks a value if it is given, and takes the default if not. -/
def orDefault {α : Type} (default : α) (check : Json → Checked α) : Option Json → Checked α
  | none => .ok default
  | some json => check json

/-- The settings for an environment and arguments. -/
def build (environment : Environment) (arguments : List (String × Json)) :
    Except Fault Settings :=
  match fromEnvironment environment originsSetting with
  | .error fault => .error fault
  | .ok _ =>
      let value := given environment arguments
      let text (setting default : String) :=
        orDefault default (checkString setting none) (value setting)
      let title := text "api_title" "Calculator API"
      let version := text "api_version" "0.1.0"
      let level := text "log_level" "INFO"
      let length := orDefault defaultLength (checkPositive "calc_max_expression_length")
        (value "calc_max_expression_length")
      let origins := orDefault defaultOrigins (checkStrings originsSetting) (value originsSetting)
      let frontend := orDefault none (checkOptional "frontend_origin") (value "frontend_origin")
      match title, version, level, length, origins, frontend with
      | .ok title, .ok version, .ok level, .ok ⟨length, h⟩, .ok origins, .ok frontend =>
          .ok ⟨title, version, level, length, h, origins, frontend⟩
      | title, version, level, length, origins, frontend =>
          .error <| .invalid <| Checked.problems title ++ Checked.problems version ++
            Checked.problems level ++ Checked.problems length ++ Checked.problems origins ++
            Checked.problems frontend

/-- **The defaults.**  If nothing is given, nothing is wrong. -/
theorem build_default : build .empty [] =
    .ok ⟨"Calculator API", "0.1.0", "INFO", 200, by decide, defaultOrigins, none⟩ := rfl

end Settings

end Calculator
