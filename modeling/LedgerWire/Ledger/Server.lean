import LedgerWire.Account.Transaction
import LedgerWire.Link.Frame
import LedgerWire.Stream.Names

namespace LedgerWire

structure Ledger where
  subscriptions : Stream.Names
  silent : Bool
  received : List Fields
  results : List (String × Json)

namespace Ledger

def start : Ledger where
  subscriptions := .empty
  silent := false
  received := []
  results := []

def setSilent (ledger : Ledger) (silent : Bool) : Ledger :=
  { ledger with silent }

def setResult (ledger : Ledger) (command : String) (result : Json) : Ledger :=
  { ledger with results := (command, result) :: ledger.results.filter (·.1 ≠ command) }

structure Refusal where
  error : String
  message : String
  deriving DecidableEq, Repr

def malformedStream : Refusal :=
  ⟨"malformedStream", "Stream malformed."⟩

def missingTransaction : Refusal :=
  ⟨"invalidParams", "Missing field 'tx_json'."⟩

def badSignature : Refusal :=
  ⟨"invalidTransaction", "Transaction has an invalid signature."⟩

def resultField : String := "result"

-- The texts in a list of streams, which counts as empty if it is no list.
def streamNames (request : Fields) : List String :=
  (((request.get? Frame.streamsField).bind Json.items?).getD []).filterMap Json.string?

def changeStreams (ledger : Ledger) (change : Stream.Names → List String → Stream.Names)
    (request : Fields) : Except Refusal Json × Ledger :=
  let names := streamNames request
  if names.all fun name => (Stream.Kind.ofName? name).isSome then
    (.ok (.object []), { ledger with subscriptions := change ledger.subscriptions names })
  else (.error malformedStream, ledger)

def submit (request : Fields) : Except Refusal Json :=
  match (request.get? Transaction.commandField).bind Json.fields? with
  | none    => .error missingTransaction
  | some tx =>
    match Transaction.verify tx with
    | .error _ => .error badSignature
    | .ok ()   => .ok (.object [
        ("engine_result", .string "tesSUCCESS"),
        ("engine_result_message", .string "The transaction was applied."),
        (Transaction.commandField, .object tx)
      ])

def echo (request : Fields) : Json :=
  .object [("echo", .object (request.erase Frame.idField))]

def perform (ledger : Ledger) (request : Fields) : Except Refusal Json × Ledger :=
  match ((request.get? Frame.commandField).bind Json.string?).getD "" with
  | "subscribe"   => ledger.changeStreams .insertAll request
  | "unsubscribe" => ledger.changeStreams .eraseAll request
  | "submit"      => (submit request, ledger)
  | command       => (.ok ((ledger.results.lookup command).getD (echo request)), ledger)

def reply (id : Option Json) (outcome : Except Refusal Json) : Fields :=
  let numbered := match id with
    | some id => [(Frame.idField, id)]
    | none    => []
  let rest := match outcome with
    | .ok result => [(Frame.statusField, .string "success"), (resultField, result)]
    | .error refusal => [
        (Frame.statusField, .string "error"),
        (Frame.errorField, .string refusal.error),
        (Frame.errorMessageField, .string refusal.message)
      ]
  .ofEntries ((Frame.typeField, .string "response") :: numbered ++ rest)

-- Takes a request in, and answers it unless silent.
def receive (ledger : Ledger) (request : Fields) : Option Fields × Ledger :=
  let ledger := { ledger with received := ledger.received ++ [request] }
  if ledger.silent then (none, ledger)
  else
    let (outcome, ledger) := ledger.perform request
    (some (reply (request.get? Frame.idField) outcome), ledger)

-- The fields of a push. A body that is no object is one field of it.
def pushBody : Json → Fields
  | .object fields => fields
  | body           => [("data", body)]

-- The frame of a push. A proposed transaction says that it is not validated, unless its body has
-- something else to say.
def pushFrame (kind : Stream.Kind) (body : Json) : Fields :=
  let typed := (pushBody body).insert Frame.typeField (.string kind.pushType)
  if kind = .transactionsProposed ∧ (typed.get? Frame.validatedField).isNone then
    typed.insert Frame.validatedField (.bool false)
  else typed

def isSubscribed (ledger : Ledger) (kind : Stream.Kind) : Bool :=
  decide (kind.name ∈ ledger.subscriptions)

end Ledger

end LedgerWire
