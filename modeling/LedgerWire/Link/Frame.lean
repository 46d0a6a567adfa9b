import LedgerWire.Json.Parser
import LedgerWire.Json.Writer
import LedgerWire.Link.Error
import LedgerWire.Stream.Kind

namespace LedgerWire.Frame

def idField : String := "id"

def commandField : String := "command"

def typeField : String := "type"

def statusField : String := "status"

def errorField : String := "error"

def errorMessageField : String := "error_message"

def streamsField : String := "streams"

def validatedField : String := "validated"

def ofText? (text : String) : Option Fields :=
  (Json.parse? text).bind Json.fields?

def requestId? (frame : Fields) : Option Nat :=
  (frame.get? idField).bind Json.unsigned?

def type? (frame : Fields) : Option String :=
  (frame.get? typeField).bind Json.string?

-- A transaction is proposed if it says that it is not validated.
def stream? (frame : Fields) : Option Stream.Kind :=
  match (type? frame).bind Stream.Kind.ofPushType? with
  | some .transactions =>
    if (frame.get? validatedField).bind Json.bool? = some false then some .transactionsProposed
    else some .transactions
  | kind => kind

def errorText : Json → String
  | .string text => text
  | value        => value.text

-- An error field of any kind refuses the request, even `null`, and so does the status alone.
def refusal? (reply : Fields) : Option LinkError :=
  let message := (reply.get? errorMessageField).bind Json.string?
  match reply.get? errorField with
  | some value => some (.rejected (errorText value) message)
  | none =>
    if (reply.get? statusField).bind Json.string? = some "error" then
      some (.rejected "unknown" message)
    else none

end LedgerWire.Frame
