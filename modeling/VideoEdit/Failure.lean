import VideoEdit.Json
/-!
Failures as they are reported. Some carry a code and concern input that the caller can put right;
context may be added around any failure, and the code is found through all of it.
-/
namespace VideoEdit

/-- The codes of failures that the caller can put right. -/
inductive ErrorCode
  | emptyPrompt
  | unsupportedInput
  | invalidResourceName
  | outputFormatMismatch
  deriving DecidableEq

def ErrorCode.name : ErrorCode → String
  | emptyPrompt => "EMPTY_PROMPT"
  | unsupportedInput => "UNSUPPORTED_INPUT"
  | invalidResourceName => "INVALID_RESOURCE_NAME"
  | outputFormatMismatch => "OUTPUT_FORMAT_MISMATCH"

structure CodedError where
  code : ErrorCode
  message : String
  details : Option Json

namespace CodedError

def text (e : CodedError) : String := e.code.name ++ ": " ++ e.message

def exitCode : Nat := 2

/-- The error as a JSON object; absent details are left out. -/
def json (e : CodedError) : Json :=
  .object ([("code", .text e.code.name), ("message", .text e.message)] ++
    (e.details.map fun d => ("details", d.sortKeys)).toList)

/-- What is reported on one line for a failure with a code. -/
def envelope (e : CodedError) : Json := .object [("ok", .bool false), ("error", e.json)]

end CodedError

/-- A failure: one with a code, any other with its message, or either with context around it. -/
inductive Failure
  | coded (error : CodedError)
  | plain (message : String)
  | within (context : String) (inner : Failure)

namespace Failure

/-- The messages of a failure, the outermost context first. -/
def chain : Failure → List String
  | coded e => [e.text]
  | plain message => [message]
  | within context inner => context :: inner.chain

def outermost : Failure → String
  | coded e => e.text
  | plain message => message
  | within context _ => context

def message (f : Failure) : String := ": ".intercalate f.chain

/-- The failure with a code inside all context. -/
def coded? : Failure → Option CodedError
  | coded e => some e
  | plain _ => none
  | within _ inner => inner.coded?

end Failure

end VideoEdit
