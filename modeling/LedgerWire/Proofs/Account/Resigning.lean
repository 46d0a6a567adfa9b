import LedgerWire.Proofs.Account.Signing
import LedgerWire.Proofs.Json.Paths
import LedgerWire.Proofs.Json.Reading

namespace LedgerWire.Transaction

variable {tx tx' command command' : Fields} {key : PublicKey} {keypair : Keypair}

-- The transactions differ at most in who has signed them, and how.
def SameContent (tx tx' : Fields) : Prop :=
  ∀ key, key ≠ signerField → key ≠ signatureField → tx.get? key = tx'.get? key

-- The commands differ at most in who has signed their transactions, and how.
structure SameRequest (command command' : Fields) : Prop where
  others      : ∀ key, key ≠ commandField → command.get? key = command'.get? key
  transaction : ∃ tx tx', command.get? commandField = some (.object tx) ∧
    command'.get? commandField = some (.object tx') ∧
    Fields.Ordered tx ∧ Fields.Ordered tx' ∧ SameContent tx tx'

-- A signer gets to see a transaction only under its own name.
theorem sign_congr (h : nameSigner tx keypair.publicKey = nameSigner tx' keypair.publicKey) :
    sign tx keypair = sign tx' keypair := by
  simp only [sign, h]

theorem get?_nameSigner (tx : Fields) (signer : PublicKey) (name : String) :
    (nameSigner tx signer).get? name =
      if name = signerField then some (.string signer.hex)
      else if name = signatureField then none else tx.get? name := by
  rw [nameSigner, Fields.get?_insert, Fields.get?_erase]

theorem nameSigner_sign (tx : Fields) (keypair : Keypair) (key : PublicKey) :
    nameSigner (sign tx keypair) key = nameSigner tx key := by
  have absent : (nameSigner tx keypair.publicKey).get? signatureField = none := by
    rw [get?_nameSigner, if_neg (by decide), if_pos rfl]
  calc nameSigner (sign tx keypair) key
    _ = ((nameSigner tx keypair.publicKey).erase signatureField).insert signerField
          (.string key.hex) := by rw [nameSigner, sign, Fields.erase_insert]
    _ = (nameSigner tx keypair.publicKey).insert signerField (.string key.hex) := by
      rw [Fields.erase_of_get?_eq_none absent]
    _ = nameSigner tx key := by rw [nameSigner, Fields.insert_insert, nameSigner]

theorem ordered_nameSigner (ho : tx.Ordered) (key : PublicKey) : (nameSigner tx key).Ordered :=
  (ho.erase _).insert _ _

theorem nameSigner_eq (ho : tx.Ordered) (ho' : tx'.Ordered) (h : SameContent tx tx')
    (key : PublicKey) : nameSigner tx key = nameSigner tx' key := by
  refine (ordered_nameSigner ho key).ext (ordered_nameSigner ho' key) fun name => ?_
  rw [get?_nameSigner, get?_nameSigner]
  split
  case isTrue => rfl
  case isFalse hs =>
    split
    case isTrue    => rfl
    case isFalse hg => exact h name hs hg

theorem sign_sign (tx : Fields) (first second : Keypair) :
    sign (sign tx first) second = sign tx second :=
  sign_congr <| nameSigner_sign tx first second.publicKey

theorem sign_eq (ho : tx.Ordered) (ho' : tx'.Ordered) (h : SameContent tx tx')
    (keypair : Keypair) : sign tx keypair = sign tx' keypair :=
  sign_congr <| nameSigner_eq ho ho' h keypair.publicKey

theorem signCommand_of_get? (h : command.get? commandField = some (.object tx))
    (keypair : Keypair) : signCommand command keypair =
      .ok (command.insert commandField (.object (sign tx keypair))) :=
  (signCommand_eq_ok_iff command keypair).mpr ⟨tx, h, rfl⟩

theorem signCommand_insert_sign (command tx : Fields) (first second : Keypair) :
    signCommand (command.insert commandField (.object (sign tx first))) second =
      .ok (command.insert commandField (.object (sign tx second))) := by
  rw [signCommand_of_get? (Fields.get?_insert_self ..), sign_sign, Fields.insert_insert]

theorem signCommand_eq (ho : command.Ordered) (ho' : command'.Ordered)
    (h : SameRequest command command') (keypair : Keypair) :
    ∃ signed, signCommand command keypair = .ok signed ∧
      signCommand command' keypair = .ok signed := by
  obtain ⟨tx, tx', ht, ht', hx, hx', hs⟩ := h.transaction
  have same : command.insert commandField (.object (sign tx keypair)) =
      command'.insert commandField (.object (sign tx' keypair)) := by
    rw [sign_eq hx hx' hs]
    refine (ho.insert _ _).ext (ho'.insert _ _) fun name => ?_
    rw [Fields.get?_insert, Fields.get?_insert]
    split
    case isTrue     => rfl
    case isFalse hn => exact h.others name hn
  exact ⟨_, signCommand_of_get? ht keypair, same ▸ signCommand_of_get? ht' keypair⟩

-- A transaction that is signed by one and then by another is what the other would have made of it
-- at once. Of two transactions with the same content a signer makes the same, whatever either held
-- in place of the signer and of the signature. The same goes for the transactions in commands.
theorem signing_starts_afresh (tx : Fields) (first second : Keypair) :
    sign (sign tx first) second = sign tx second ∧
    (∀ tx', Fields.Ordered tx → Fields.Ordered tx' → SameContent tx tx' →
      sign tx second = sign tx' second) ∧
    (∀ command : Fields, command.get? commandField = some (.object tx) → ∃ once twice,
      signCommand command first = .ok once ∧ signCommand once second = .ok twice ∧
        signCommand command second = .ok twice) ∧
    (∀ command command' : Fields, command.Ordered → command'.Ordered →
      SameRequest command command' → ∃ signed, signCommand command second = .ok signed ∧
        signCommand command' second = .ok signed) :=
  ⟨sign_sign tx first second, fun _ ho ho' h => sign_eq ho ho' h second,
    fun command h => ⟨_, _, signCommand_of_get? h first,
      signCommand_insert_sign command tx first second, signCommand_of_get? h second⟩,
    fun _ _ ho ho' h => signCommand_eq ho ho' h second⟩

theorem signing_starts_afresh_over_stale_fields :
    let keypair (b : UInt8) : Keypair := ⟨⟨List.replicate 32 b, rfl⟩⟩
    let fresh : Fields := [("Fee", .int 10)]
    let stale : Fields := [("Fee", .int 10), (signerField, .null), (signatureField, .array [])]
    let command (tx : Fields) : Fields := [("command", .string "submit"), (commandField, .object tx)]
    fresh.Ordered ∧ stale.Ordered ∧ SameContent stale fresh ∧
      SameRequest (command stale) (command fresh) ∧ ∃ signed,
        signCommand (command stale) (keypair 7) = .ok signed ∧
          signCommand (command fresh) (keypair 7) = .ok signed := by
  intro keypair fresh stale command
  have ho : fresh.Ordered := .of_keys ["Fee"] rfl (by decide)
  have ho' : stale.Ordered := .of_keys ["Fee", "SigningPubKey", "TxnSignature"] rfl (by decide)
  have hc (tx : Fields) : (command tx).Ordered := .of_keys ["command", "tx_json"] rfl (by decide)
  have content : SameContent stale fresh := fun key hs hg => by
    simp only [stale, fresh, Fields.get?_cons, if_neg hs, if_neg hg]
  have request : SameRequest (command stale) (command fresh) :=
    ⟨fun key hn => by simp only [command, Fields.get?_cons, if_neg hn],
      stale, fresh, rfl, rfl, ho', ho, content⟩
  have h := signing_starts_afresh stale (keypair 0) (keypair 7)
  exact ⟨ho, ho', content, request, h.right.right.right _ _ (hc stale) (hc fresh) request⟩

end LedgerWire.Transaction
