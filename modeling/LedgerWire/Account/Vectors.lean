import LedgerWire.Account.Address
import LedgerWire.Account.Transaction

namespace LedgerWire.Vectors

-- A payload and its text, in Base58Check if it has a version and in plain Base58 if not.
structure Codec where
  name : String
  version : Option UInt8
  payload : Bytes
  encoded : String

structure Account where
  name : String
  seed : String
  entropy : String
  secretKey : String
  publicKey : String
  address : String
  classicAddress : String

structure KeyTexts where
  name : String
  publicKey : String
  address : String
  classicAddress : String
  accountPublic : String

def codec : List Codec := [
  ⟨"ascii text", none, Bytes.ofText "hello world", "StVrDLaUATiyKyV"⟩,
  ⟨"leading zero bytes", none, [0, 0, 1, 2], "rrnT"⟩,
  ⟨"all zeros", none, [0, 0, 0], "rrr"⟩,
  ⟨"all ones", none, [0xff, 0xff, 0xff, 0xff], "fYXq9G"⟩,
  ⟨"zero account", some Address.classicVersion, List.replicate 20 0, "rrrrrrrrrrrrrrrrrrrrrhoLvTp"⟩,
  ⟨"account one", some Address.classicVersion, List.replicate 19 0 ++ [1],
    "rrrrrrrrrrrrrrrrrrrrBZbvji"⟩
]

def genesis : Account where
  name := "genesis"
  seed := "snoPBrXtMeMyMHUVTgbuqAfg1SUTb"
  entropy := "dedce9ce67b451d852fd4e846fcde31c"
  secretKey := "93d09224d09221b8845e7a9772e0d6259cd01029c557cd95978cc674e0192b25"
  publicKey := "aac3f98bb94f451804ef5993c847daaa4e6154f455635659d88aa5c80f156303"
  address := "EVfUFDeq3HG5RdwfbNwHvRqzHMUjY5HYsd"
  classicAddress := "rQHaMRDkGyhsoTHnjYW3xsKTE6B5mMAgeL"

def keys : List KeyTexts := [
  ⟨"RFC 8032 test 1", "d75a980182b10ab7d54bfed3c964073a0ee172f3daa62325af021a68f707511a",
    "EffUaNZD22sAWXN92MkMZemEwyXdJa9bYZ", "rpHndS33jEqGtMMf5gaUbGN59KWcT2bcd3",
    "pUCuaF4a3RCwGYKdQsieVgiFsL95H9x2FgtwHA9NLTG8iqNKrAM"⟩,
  ⟨"genesis", genesis.publicKey, genesis.address, genesis.classicAddress,
    "pULG9jbU9ptT9jhQYXJcG74KWno7darKqCnU3WmG3tgmGwWktZg"⟩
]

def payment : Fields := [
  ("Account", .string genesis.classicAddress),
  ("Amount", .string "1000"),
  ("Destination", .string "rrrrrrrrrrrrrrrrrrrrBZbvji"),
  ("Fee", .string "12"),
  ("Sequence", .int 7),
  ("TransactionType", .string "Payment")
]

def paymentCommand : Fields := [
  ("command", .string "submit"),
  (Transaction.commandField, .object payment)
]

def paymentSignature : String :=
  "03F4AD0C79192A84BBFC46CB2286A1F6736E708356AC3825445905DCC543BC67" ++
  "6E0DDB1EB45FB83D33B5A0F1792859E8E9E67D628B58381DD2138D53DE599508"

end LedgerWire.Vectors
