/-
**Request ids.**

Work is done under a request id, so that everything said about it can be traced.  An id is offered
from outside or generated; an empty offer counts as none.  Ids are set and restored with tokens:
setting an id gives a token, and resetting the token once brings back the id that was current
before, whatever happened in between.

Main definitions:

* `Calculator.RequestId` — an id, which is never empty;
* `Calculator.RequestId.offered?`, `Calculator.RequestId.choose` — an offer as an id, and an id in
  any case;
* `Calculator.Context` — the current id and the tokens that were given;
* `Calculator.Context.set`, `Calculator.Context.reset?` — entering and leaving an id;
* `Calculator.Context.Session` — runs of such steps, with a supply of generated ids.

Main results:

* `Calculator.RequestId.text_ne_empty` — no id is empty;
* `Calculator.RequestId.choose_of_offered`, `Calculator.RequestId.choose_of_not_offered` — which id
  is chosen;
* `Calculator.Context.reset?_set` — resetting a token brings back the id from before it was given;
* `Calculator.Context.reset?_used` — a used token cannot be reset.
-/

namespace Calculator

/-! ### Ids -/

/-- A request id. -/
inductive RequestId where
  /-- An id from outside. -/
  | given (text : String) (text_ne_empty : text ≠ "")
  /-- The generated id of this number, different from all others. -/
  | generated (number : Nat)
  deriving DecidableEq

namespace RequestId

/-- An id as it is shown.  Generated ids are shown by their number. -/
def text : RequestId → String
  | .given text _ => text
  | .generated number => "<generated:" ++ toString number ++ ">"

/-- No id is empty. -/
theorem text_ne_empty (id : RequestId) : id.text ≠ "" := by
  cases id with
  | given text h => exact h
  | generated number =>
      intro h
      have := congrArg String.toList h
      simp [text] at this

/-- An offer as an id; nothing and an empty text are none. -/
def offered? : Option String → Option RequestId
  | none => none
  | some text => if h : text = "" then none else some (.given text h)

/-- The offered id, or else the generated one of the given number. -/
def choose (offer : Option String) (fresh : Nat) : RequestId :=
  (offered? offer).getD (.generated fresh)

@[simp] theorem offered?_none : offered? none = none := rfl

@[simp] theorem offered?_empty : offered? (some "") = none := rfl

@[simp] theorem offered?_given {text : String} (h : text ≠ "") :
    offered? (some text) = some (.given text h) := by
  simp [offered?, h]

/-- An id that is offered is taken. -/
theorem choose_of_offered {offer : Option String} {text : String} (fresh : Nat)
    (hoffer : offer = some text) (h : text ≠ "") : choose offer fresh = .given text h := by
  rw [choose, hoffer, offered?_given h, Option.getD_some]

/-- Where nothing is offered an id is generated. -/
theorem choose_of_not_offered {offer : Option String} (fresh : Nat)
    (hoffer : offer = none ∨ offer = some "") : choose offer fresh = .generated fresh := by
  rcases hoffer with rfl | rfl <;> rfl

end RequestId

/-! ### The current id -/

/-- What a token remembers: the id before it was given, and whether it has been used. -/
structure Token where
  previous : Option RequestId
  used : Bool
  deriving DecidableEq

/-- The current id, and the tokens in the order in which they were given. -/
structure Context where
  current : Option RequestId
  tokens : List Token
  deriving DecidableEq

namespace Context

/-- No id, and no token given yet. -/
def empty : Context := ⟨none, []⟩

/-- Makes an id current and gives a token, the next one in order. -/
def set (id : RequestId) (context : Context) : Context :=
  ⟨some id, context.tokens ++ [⟨context.current, false⟩]⟩

/-- Brings back the id from before a token was given, unless the token has been used. -/
def reset? (token : Nat) (context : Context) : Option Context :=
  match context.tokens[token]? with
  | some ⟨previous, false⟩ => some ⟨previous, context.tokens.set token ⟨previous, true⟩⟩
  | _ => none

@[simp] theorem current_set (id : RequestId) (context : Context) :
    (context.set id).current = some id := rfl

/-- A used token cannot be reset. -/
theorem reset?_used {token : Nat} {context : Context} {previous : Option RequestId}
    (h : context.tokens[token]? = some ⟨previous, true⟩) : context.reset? token = none := by
  simp [reset?, h]

/-! ### Runs -/

/-- What can be done with the current id. -/
inductive Step where
  | set (offer : Option String)
  | reset (token : Nat)
  | get
  deriving DecidableEq

/-- A context with the number of ids that have been generated. -/
structure Session where
  context : Context
  generated : Nat
  deriving DecidableEq

namespace Session

/-- Nothing has happened yet. -/
def start : Session := ⟨.empty, 0⟩

/-- One step; a step that is refused changes nothing. -/
def step? (session : Session) : Step → Option Session
  | .set offer =>
      let id := RequestId.choose offer session.generated
      let generated :=
        if (RequestId.offered? offer).isNone then session.generated + 1 else session.generated
      some ⟨session.context.set id, generated⟩
  | .reset token => (session.context.reset? token).map ({ session with context := · })
  | .get => some session

/-- For every step, whether it was accepted and the id that is current after it. -/
def run (session : Session) : List Step → List (Bool × Option RequestId)
  | [] => []
  | s :: steps =>
      let next := session.step? s
      let after := next.getD session
      (next.isSome, after.context.current) :: after.run steps

@[simp] theorem length_run (session : Session) (steps : List Step) :
    (session.run steps).length = steps.length := by
  induction steps generalizing session with
  | nil => rfl
  | cons s steps ih => simp [run, ih]

end Session

end Context

end Calculator
