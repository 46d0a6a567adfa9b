import LedgerWire.Account.Transaction
import LedgerWire.Account.Vectors
import LedgerWire.Proofs.Bytes.Text
import LedgerWire.Proofs.Json.Lookup

namespace LedgerWire

theorem PublicKey.ofHex_hex (key : PublicKey) : ofHex key.hex = .ok key := by
  simp only [ofHex, hex, Hex.decode?_encode, ofBytes, Bytes.Sized.ofBytes?_val]

theorem PublicKey.spells_hex (key : PublicKey) : Hex.Spells .lower 64 key.bytes.val key.hex :=
  Hex.spells_encode .lower key.bytes

theorem Signature.spells_hex (signature : Signature) :
    Hex.Spells .upper 128 signature.bytes.val signature.hex :=
  Hex.spells_encode .upper signature.bytes

theorem Signature.ofHex_hex (signature : Signature) : ofHex signature.hex = .ok signature := by
  simp only [ofHex, hex, Hex.decode?_encode, Option.bind_some, Bytes.Sized.ofBytes?_val]

-- The curve accepts the signature that the secret makes of the message, for the public key of the
-- secret.
def Keypair.SignatureHolds (keypair : Keypair) (message : Bytes) : Prop :=
  Curve.Ed25519.verify (Curve.Ed25519.publicKey keypair.secret) message
    (Curve.Ed25519.sign keypair.secret message)

instance (keypair : Keypair) (message : Bytes) : Decidable (keypair.SignatureHolds message) :=
  inferInstanceAs (Decidable (_ = true))

theorem Keypair.SignatureHolds.verify {keypair : Keypair} {message : Bytes}
    (h : keypair.SignatureHolds message) :
    keypair.publicKey.verify message (keypair.sign message) = .ok () :=
  if_pos h

namespace Transaction

variable (tx command : Fields) (keypair : Keypair)

-- What a signer signs, which stands in the transaction before any signature.
def signed (tx : Fields) (key : PublicKey) : Bytes :=
  (signingDigest (nameSigner tx key)).val

theorem text_of_get? {tx : Fields} {key s : String} (h : tx.get? key = some (.string s)) :
    text tx key = .ok s := by
  rw [text, h]
  rfl

theorem get?_sign_signature :
    (sign tx keypair).get? signatureField =
      some (.string (keypair.sign (signed tx keypair.publicKey)).hex) :=
  Fields.get?_insert_self ..

theorem get?_sign_signer :
    (sign tx keypair).get? signerField = some (.string keypair.publicKey.hex) := by
  rw [sign, Fields.get?_insert_of_ne _ _ (by decide), nameSigner, Fields.get?_insert_self]

theorem get?_sign_of_ne {key : String} (hs : key ≠ signerField) (hn : key ≠ signatureField) :
    (sign tx keypair).get? key = tx.get? key := by
  rw [sign, Fields.get?_insert_of_ne _ _ hn, nameSigner, Fields.get?_insert_of_ne _ _ hs,
    Fields.get?_erase_of_ne _ hn]

-- The verifier leaves out the one field that was not there when the signer hashed the rest.
theorem signingDigest_sign :
    (signingDigest (sign tx keypair)).val = signed tx keypair.publicKey := by
  rw [signed, signingDigest, signingDigest, sign, Fields.erase_insert]

variable {tx} in
theorem verify_eq {key : PublicKey} {signature : Signature}
    (hk : tx.get? signerField = some (.string key.hex))
    (hs : tx.get? signatureField = some (.string signature.hex)) :
    verify tx = key.verify (signingDigest tx).val signature := by
  rw [verify, text_of_get? hk, text_of_get? hs]
  simp only [bind, Except.bind, PublicKey.ofHex_hex, Signature.ofHex_hex]

theorem verify_sign (h : keypair.SignatureHolds (signed tx keypair.publicKey)) :
    verify (sign tx keypair) = .ok () := by
  rw [verify_eq (get?_sign_signer tx keypair) (get?_sign_signature tx keypair), signingDigest_sign]
  exact h.verify

theorem signCommand_eq_ok_iff {result : Fields} :
    signCommand command keypair = .ok result ↔ ∃ tx, command.get? commandField = some (.object tx) ∧
      result = command.insert commandField (.object (sign tx keypair)) := by
  rw [signCommand]
  cases command.get? commandField
  case none => simp
  case some value => cases value <;> simp [Json.fields?, eq_comm]

theorem signCommand_eq_ok {result : Fields} (h : signCommand command keypair = .ok result) :
    (∃ tx, command.get? commandField = some (.object tx) ∧
      result.get? commandField = some (.object (sign tx keypair))) ∧
    ∀ key, key ≠ commandField → result.get? key = command.get? key := by
  obtain ⟨tx, ht, rfl⟩ := (signCommand_eq_ok_iff command keypair).mp h
  exact ⟨⟨tx, ht, Fields.get?_insert_self ..⟩, fun _ hk => Fields.get?_insert_of_ne _ _ hk⟩

-- Whatever the transaction held before, signing it gives it a key and a signature that hold up, and
-- changes nothing else.
theorem signed_transactions_verify
    (h : keypair.SignatureHolds (signed tx keypair.publicKey)) :
    verify (sign tx keypair) = .ok () ∧
    (∃ key, (sign tx keypair).get? signerField = some (.string key) ∧
      Hex.Spells .lower 64 keypair.publicKey.bytes.val key) ∧
    (∃ signature, (sign tx keypair).get? signatureField = some (.string signature) ∧
      Hex.Spells .upper 128 (keypair.sign (signed tx keypair.publicKey)).bytes.val signature) ∧
    (∀ key, key ≠ signerField → key ≠ signatureField →
      (sign tx keypair).get? key = tx.get? key) ∧
    ((∃ result, signCommand command keypair = .ok result) ↔
      ∃ tx, command.get? commandField = some (.object tx)) ∧
    ∀ result, signCommand command keypair = .ok result →
      (∃ tx, command.get? commandField = some (.object tx) ∧
        result.get? commandField = some (.object (sign tx keypair))) ∧
      ∀ key, key ≠ commandField → result.get? key = command.get? key := by
  refine ⟨verify_sign tx keypair h, ⟨_, get?_sign_signer tx keypair, PublicKey.spells_hex _⟩,
    ⟨_, get?_sign_signature tx keypair, Signature.spells_hex _⟩,
    fun _ => get?_sign_of_ne tx keypair, ?_, fun _ => signCommand_eq_ok command keypair⟩
  simp only [signCommand_eq_ok_iff]
  exact ⟨fun ⟨_, tx, ht, _⟩ => ⟨tx, ht⟩, fun ⟨tx, ht⟩ => ⟨_, tx, ht, rfl⟩⟩

theorem signed_transactions_verify_over_stale_fields :
    let keypair : Keypair := ⟨⟨List.replicate 32 7, rfl⟩⟩
    let tx : Fields := [
      ("Memo", .string "<é>"), ("Sequence", .int (-7)), (signerField, .array [.null]),
      (signatureField, .object [(signatureField, .bool false)])
    ]
    keypair.SignatureHolds (signed tx keypair.publicKey) ∧ verify (sign tx keypair) = .ok () := by
  intro keypair tx
  have h : keypair.SignatureHolds (signed tx keypair.publicKey) := by decide +kernel
  exact ⟨h, (signed_transactions_verify tx [(commandField, .object tx)] keypair h).left⟩

end Transaction
end LedgerWire
