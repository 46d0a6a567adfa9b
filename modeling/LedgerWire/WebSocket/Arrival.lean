import LedgerWire.Link.Connection
import LedgerWire.WebSocket.Message

namespace LedgerWire.WebSocket

inductive Item where
  | message (message : Message)
  | raw (frame : Frame)
  | tooLong (size limit : Nat)
  | failed
  | finished
  deriving DecidableEq, Repr

inductive Arrival where
  | text (text : String)
  | unreadable (error : LinkError)
  | ended
  deriving DecidableEq, Repr

def tooLongText (size limit : Nat) : String :=
  s!"Space limit exceeded: Message too long: {size} > {limit}"

def Item.arrival? : Item → Option Arrival
  | message (.text text) => some (.text text)
  | message (.binary bytes) =>
    match Bytes.toText? bytes with
    | some text => some (.text text)
    | none      => some (.unreadable (.transport "binary frame is not UTF-8"))
  | message (.ping _) | message (.pong _) | raw _ => none
  | message (.close _) | failed | finished => some .ended
  | tooLong size limit => some (.unreadable (.transport (tooLongText size limit)))

-- One receive: the next arrival and the items behind it.
def receive : List Item → Option (Arrival × List Item)
  | []            => none
  | item :: items =>
    match item.arrival? with
    | some arrival => some (arrival, items)
    | none         => receive items

-- The loop of a connection that reads from a WebSocket, which stops where that ends.
def feed (c : Connection) : List Item → Connection
  | []            => c
  | item :: items =>
    match item.arrival? with
    | some (.text text)   => feed (c.route text) items
    | some (.unreadable _) => feed c items
    | some .ended         => c.shutDown
    | none                => feed c items

end LedgerWire.WebSocket
