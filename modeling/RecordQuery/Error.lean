import RecordQuery.ErrorCode
import RecordQuery.Value.Coercion

/-!
# Errors

Only a missing argument, a malformed request, a strict coercion and bad settings are errors. Bad
data inside a well-formed request is never one.

* `Fault` is what went wrong, with its category, its code and its wording;
* `QueryError` is a fault with what was added to its message on the way;
* `QueryError.message` is for the log, `QueryError.userMessage` for the user.
-/

namespace RecordQuery

/-- What was at fault. -/
inductive ErrorCategory
  | argument
  | coercion
  | request
  | settings
  | other
  deriving DecidableEq

namespace ErrorCategory

/-- The words between the code and the message. -/
def heading : ErrorCategory → String
  | .argument => "Argument error: "
  | .coercion => "Coercion error: "
  | .request => "Request error: "
  | .settings => "Configuration error: "
  | .other => ""

/-- The status with which the program ends. -/
def exitCode : ErrorCategory → Nat
  | .argument => 2
  | .coercion => 3
  | .request => 4
  | .settings => 5
  | .other => 1

/-- Whether the caller is at fault, and not the data. -/
def isCallerError : ErrorCategory → Bool
  | .argument => true
  | .request => true
  | _ => false

end ErrorCategory

/-- What is wrong with a clause or a sort key. -/
inductive ClauseDefect
  | operatorAndPredicates
  | neither
  | noField
  | surplusTokens (key : String)
  | stated (reason : String)
  deriving DecidableEq

def ClauseDefect.reason : ClauseDefect → String
  | .operatorAndPredicates => "a clause cannot carry both an operator and nested predicates"
  | .neither => "a clause needs an operator or nested predicates"
  | .noField => "a simple clause needs a field"
  | .surplusTokens key => s!"unexpected tokens in sort key '{key}'"
  | .stated reason => reason

/-- What went wrong. -/
inductive Fault
  | nullArgument (name : String)
  | coercion (error : CoercionError)
  | unknownOperator (name : String) (field : Option String)
  | unknownJoiner (condition : String)
  | unknownDirection (direction : String) (field : Option String)
  | malformedClause (defect : ClauseDefect) (field : Option String)
  | negativePaging (name : String) (value : Int)
  | malformedRequest
  | settingsNotFound (path : String)
  | settingsUnreadable (path : String)
  | malformedSettings
  | invalidSetting (key reason : String)
  /-- Any other fault, in the words of who reports it. -/
  | reported (category : ErrorCategory) (code : Nat) (text : String) (subject : Option String)
  deriving DecidableEq

namespace Fault

def category : Fault → ErrorCategory
  | .nullArgument _ => .argument
  | .coercion _ => .coercion
  | .unknownOperator _ _ | .unknownJoiner _ | .unknownDirection _ _ | .malformedClause _ _
  | .negativePaging _ _ | .malformedRequest => .request
  | .settingsNotFound _ | .settingsUnreadable _ | .malformedSettings | .invalidSetting _ _ =>
    .settings
  | .reported category _ _ _ => category

def code : Fault → Nat
  | .nullArgument _ => ErrorCode.nullArgument
  | .coercion error => error.code
  | .unknownOperator _ _ => ErrorCode.unknownOperator
  | .unknownJoiner _ => ErrorCode.unknownJoiner
  | .unknownDirection _ _ => ErrorCode.unknownDirection
  | .malformedClause _ _ => ErrorCode.malformedClause
  | .negativePaging _ _ => ErrorCode.invalidPaging
  | .malformedRequest => ErrorCode.malformedRequest
  | .settingsNotFound _ => ErrorCode.settingsNotFound
  | .settingsUnreadable _ => ErrorCode.settings
  | .malformedSettings => ErrorCode.malformedSettings
  | .invalidSetting _ _ => ErrorCode.invalidSetting
  | .reported _ code _ _ => code

def text : Fault → String
  | .nullArgument name => s!"Value cannot be null. (Parameter '{name}')"
  | .coercion error => error.message
  | .unknownOperator name _ => s!"Unknown filter operator '{name}'"
  | .unknownJoiner condition => s!"Unknown clause condition '{condition}', expected 'and' or 'or'"
  | .unknownDirection direction _ =>
    s!"Unknown sort direction '{direction}', expected 'ascending' or 'descending'"
  | .malformedClause defect _ => s!"Malformed filter clause: {defect.reason}"
  | .negativePaging name value => s!"'{name}' must not be negative, got {intText value}"
  | .malformedRequest => "Malformed request JSON"
  | .settingsNotFound path => s!"Configuration file not found: {path}"
  | .settingsUnreadable path => s!"Failed to read {path}"
  | .malformedSettings => "Failed to parse shaping configuration"
  | .invalidSetting key reason => s!"Invalid value for '{key}': {reason}"
  | .reported _ _ text _ => text

/-- The argument, the type or the field at fault. -/
def subject? : Fault → Option String
  | .nullArgument name => some name
  | .coercion error => some error.target
  | .unknownOperator _ field => field
  | .unknownDirection _ field => field
  | .malformedClause _ field => field
  | .negativePaging name _ => some name
  | .reported _ _ _ subject => subject
  | _ => none

/-- Whether a fault is the consequence of another error. -/
def hasCause : Fault → Bool
  | .coercion _ => true
  | .malformedRequest => true
  | .settingsUnreadable _ => true
  | .malformedSettings => true
  | _ => false

end Fault

/-- An error. -/
structure QueryError where
  fault : Fault
  /-- What was added to the message, in order. -/
  context : List String := []
  hasCause : Bool := fault.hasCause

namespace QueryError

/-- The error for a fault. -/
def of (fault : Fault) : QueryError := { fault }

/-- Adds to the message. -/
def withContext (e : QueryError) (context : String) : QueryError :=
  { e with context := e.context ++ [context] }

/-- The error as the consequence of another one. -/
def withCause (e : QueryError) : QueryError := { e with hasCause := true }

def category (e : QueryError) : ErrorCategory := e.fault.category

def code (e : QueryError) : Nat := e.fault.code

/-- The text of the fault with all that was added. -/
def text (e : QueryError) : String :=
  e.context.foldl (fun text context => s!"{text}: {context}") e.fault.text

/-- The message with the code. -/
def message (e : QueryError) : String :=
  s!"[E{String.ofList (Text.padDigits 4 e.code)}] {e.category.heading}{e.text}"

/-- What the user is told first. -/
def userHeading (e : QueryError) : String :=
  match e.category, e.fault.subject? with
  | .argument, some name => s!"Invalid argument '{name}': "
  | .argument, none => "Invalid argument: "
  | .coercion, some target => s!"Cannot convert value to {target}: "
  | .coercion, none => "Cannot convert value: "
  | .request, some field => s!"Invalid request at '{field}': "
  | .request, none => "Invalid request: "
  | .settings, _ => "Configuration problem: "
  | .other, _ => ""

/-- The message for the user. -/
def userMessage (e : QueryError) : String := e.userHeading ++ e.text

def exitCode (e : QueryError) : Nat := e.category.exitCode

def isCallerError (e : QueryError) : Bool := e.category.isCallerError

end QueryError

end RecordQuery
