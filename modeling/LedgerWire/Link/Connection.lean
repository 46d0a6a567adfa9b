import LedgerWire.Link.Call
import LedgerWire.Link.Config
import LedgerWire.Link.Pending
import LedgerWire.Stream.Hub

namespace LedgerWire

inductive Outbound where
  | frame (id : Nat) (text : String)
  | close
  deriving DecidableEq, Repr

structure Connection where
  config : LinkConfig
  -- The id of the next request, unless the last id is used up.
  nextId : Option Nat
  pending : Pending
  calls : List Call
  finished : List (Nat × Outcome LinkError)
  active : Stream.Names
  hub : Stream.Hub
  closed : Bool
  outbound : List Outbound

namespace Connection

def start (config : LinkConfig) : Connection where
  config := config
  nextId := some config.firstId.toNat
  pending := .empty
  calls := []
  finished := []
  active := .empty
  hub := .start config.streamCapacity
  closed := false
  outbound := []

def idSpace : Nat := 2 ^ 64

def finish (c : Connection) (ticket : Nat) (outcome : Outcome LinkError) : Connection :=
  if c.calls.any (·.ticket = ticket) then
    { c with
      calls := c.calls.filter (·.ticket ≠ ticket)
      finished := c.finished ++ [(ticket, outcome)] }
  else c

def answer (c : Connection) (ticket : Nat) (reply : Fields) : Connection :=
  match c.calls.find? (·.ticket = ticket) with
  | some call =>
    let (outcome, active) := call.purpose.conclude c.active reply
    { c.finish ticket outcome with active }
  | none => c

def abandon (c : Connection) (call : Call) (outcome : Outcome LinkError) : Connection :=
  finish { c with pending := c.pending.erase call.id } call.ticket outcome

def expire (c : Connection) (now : Nat) : Connection :=
  c.calls.foldl (fun c call =>
    match call.overdue? now with
    | some limit => c.abandon call (.failed (.timeout limit))
    | none       => c) c

def cancel (c : Connection) (ticket : Nat) : Bool × Connection :=
  match c.calls.find? (·.ticket = ticket) with
  | some call => (true, c.abandon call .cancelled)
  | none      => (false, c)

-- Ends the request of an id, if it is still pending, because its frame was not written.
def failRequest (c : Connection) (id : Nat) (error : LinkError) : Connection :=
  match c.pending.ticket? id with
  | some ticket => finish { c with pending := c.pending.erase id } ticket (.failed error)
  | none        => c

-- Ends the connection, all its calls, and its streams. Only the first time has an effect: after it
-- there is nothing left to end.
def shutDown (c : Connection) : Connection :=
  if c.closed then c
  else
    c.pending.tickets.foldl (fun c ticket => c.finish ticket (.failed .closed))
      { c with closed := true, hub := c.hub.close, pending := .empty }

-- Ends the connection, and its wire once everything before is written.
def close (c : Connection) : Connection :=
  shutDown { c with outbound := c.outbound ++ [Outbound.close] }

def allocate? (c : Connection) : Except LinkError Nat :=
  if c.closed then .error .closed
  else match c.nextId with
    | none    => .error .idsExhausted
    | some id => if c.pending.contains id then .error .idsExhausted else .ok id

def frameText (command : Fields) (id : Nat) : String :=
  (command.insert Frame.idField (.int id)).text

def dispatch (c : Connection) (id ticket now : Nat) (request : Request) : Connection :=
  { c with
    nextId := if id + 1 < idSpace then some (id + 1) else none
    pending := c.pending.insert id ticket
    calls := c.calls ++ [⟨ticket, id, request.purpose, request.limit, now⟩]
    outbound := c.outbound ++ [.frame id (frameText request.command id)] }

-- Starts a call. One that cannot be dispatched fails at once.
def call (c : Connection) (ticket now : Nat) (request : Request) : Connection :=
  match c.allocate? with
  | .ok id       => (c.dispatch id ticket now request).expire now
  | .error error => { c with finished := c.finished ++ [(ticket, .failed error)] }

def push (c : Connection) (frame : Fields) : Connection :=
  match Frame.stream? frame with
  | some kind => { c with hub := c.hub.deliver kind frame }
  | none      => { c with hub := c.hub.drop }

def routeFrame (c : Connection) (frame : Fields) : Connection :=
  match Frame.requestId? frame with
  | some id =>
    match c.pending.ticket? id with
    | some ticket => answer { c with pending := c.pending.erase id } ticket frame
    | none        => c.push frame
  | none => c.push frame

def route (c : Connection) (text : String) : Connection :=
  match Frame.ofText? text with
  | some frame => c.routeFrame frame
  | none       => c

-- What cannot be received is one bad frame, and the connection goes on.
def receive (c : Connection) : Except LinkError String → Connection
  | .ok text => c.route text
  | .error _ => c

def take (c : Connection) (kind : Stream.Kind) : Bool × Connection :=
  let (taken, hub) := c.hub.take kind
  (taken, { c with hub })

def read (c : Connection) (kind : Stream.Kind) (most : Nat) : List Stream.Reading × Connection :=
  let (readings, hub) := c.hub.read kind most
  (readings, { c with hub })

def dropConsumer (c : Connection) (kind : Stream.Kind) : Bool × Connection :=
  let (dropped, hub) := c.hub.dropConsumer kind
  (dropped, { c with hub })

def shown (c : Connection) : String :=
  let nextId := shownOption (c.nextId.map toString)
  s!"Connection \x7b pending: {c.pending.size}, closed: {c.closed}, next_id: {nextId} \x7d"

end Connection

end LedgerWire
