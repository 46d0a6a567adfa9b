namespace LedgerWire.Stream

inductive Kind where
  | ledger
  | transactions
  | transactionsProposed
  | validations
  | manifests
  | peerStatus
  | consensus
  | server
  | bookChanges
  deriving DecidableEq, Repr

namespace Kind

def all : List Kind := [
  ledger, transactions, transactionsProposed, validations, manifests, peerStatus, consensus, server,
  bookChanges
]

theorem mem_all (kind : Kind) : kind ∈ all := by
  cases kind <;> decide

def name : Kind → String
  | ledger               => "ledger"
  | transactions         => "transactions"
  | transactionsProposed => "transactions_proposed"
  | validations          => "validations"
  | manifests            => "manifests"
  | peerStatus           => "peer_status"
  | consensus            => "consensus"
  | server               => "server"
  | bookChanges          => "book_changes"

def ofName? (name : String) : Option Kind :=
  all.find? (·.name = name)

def pushType : Kind → String
  | ledger               => "ledgerClosed"
  | transactions         => "transaction"
  | transactionsProposed => "transaction"
  | validations          => "validationReceived"
  | manifests            => "manifestReceived"
  | peerStatus           => "peerStatusChange"
  | consensus            => "consensusPhase"
  | server               => "serverStatus"
  | bookChanges          => "bookChanges"

-- The first kind whose pushes have the type. The type alone does not tell proposed transactions
-- from validated ones, which come first.
def ofPushType? (type : String) : Option Kind :=
  all.find? (·.pushType = type)

end Kind

end LedgerWire.Stream
