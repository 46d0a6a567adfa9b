import LedgerWire.Account.Address
import LedgerWire.Proofs.Base58.Framing
import LedgerWire.Proofs.Base58.Leading

namespace LedgerWire.PublicKey

variable {key key' : PublicKey}

theorem ofBytes_val (key : PublicKey) : ofBytes key.bytes.val = .ok key := by
  rw [ofBytes, Bytes.Sized.ofBytes?_val]

theorem ofBytes_of_length_ne {bs : Bytes} (h : bs.length ≠ 32) :
    ofBytes bs = .error (.keyLength 32 bs.length) := by
  rw [ofBytes, Bytes.Sized.ofBytes?_eq_none h]

-- Each identifier comes out with the same length and first letter, whatever its checksum is.
theorem encode_identifier (identifier : Bytes.Sized Address.accountIdLength)
    (trailer : Bytes.Sized Base58.checksumLength) :
    (Base58.encode (Address.version :: identifier.val ++ trailer.val)).length = 34 ∧
      (Base58.encode (Address.version :: identifier.val ++ trailer.val)).toList.head? = some 'E' :=
  Base58.encode_of_version (d := 14) (k := 33) identifier trailer (by decide) (by decide)
    (by decide) (by decide)

theorem address_letters (key : PublicKey) :
    key.address.length = 34 ∧ key.address.toList.head? = some 'E' :=
  encode_identifier key.accountId (Base58.checksum (Address.version :: key.accountId.val))

theorem classicAddress_letter (key : PublicKey) : key.classicAddress.toList.head? = some 'r' :=
  Base58.head?_encode_zero (key.accountId.val ++ _)

theorem address_ne_accountPublic (key key' : PublicKey) : key.address ≠ key'.accountPublic := by
  intro he
  have hl := congrArg List.length (Base58.encodeCheck_inj he).right
  rw [key.accountId.property, key'.bytes.property] at hl
  exact absurd hl (by decide)

-- All other kinds are told apart by their versions.
theorem forms_disjoint :
    [address, classicAddress, accountPublic, nodePublic].Pairwise fun form form' =>
      ∀ key key', form key ≠ form' key' := by
  have hv {version version' : UInt8} {bs bs' : Bytes} (h : version ≠ version') :
      Base58.encodeCheck version bs ≠ Base58.encodeCheck version' bs' :=
    fun he => h (Base58.encodeCheck_inj he).left
  simp only [List.pairwise_cons, List.forall_mem_cons, List.not_mem_nil, IsEmpty.forall_iff,
    implies_true, List.Pairwise.nil, and_true]
  refine ⟨⟨?_, address_ne_accountPublic, ?_⟩, ⟨?_, ?_⟩, ?_⟩
  all_goals exact fun _ _ => hv (by decide)

theorem eq_of_encodeCheck_bytes {version : UInt8}
    (h : Base58.encodeCheck version key.bytes.val = Base58.encodeCheck version key'.bytes.val) :
    key = key' := by
  have hb := (Base58.encodeCheck_inj h).right
  cases key
  cases key'
  exact congrArg mk (Subtype.ext hb)

-- Both forms of the account identifier are read back to the first twenty bytes of the digest, and
-- both forms of the key to the key. Bytes that are not as many as a key has get no address.
theorem forms_recoverable_and_distinct :
    (∀ key : PublicKey,
      Address.derive key.bytes.val = .ok key.address ∧
      key.address.length = 34 ∧ key.address.toList.head? = some 'E' ∧
      Base58.decodeCheck key.address = .ok (0x23, (Digest.sha512 key.bytes.val).val.take 20) ∧
      key.classicAddress.toList.head? = some 'r' ∧
      Base58.decodeCheck key.classicAddress =
        .ok (0x00, (Digest.sha512 key.bytes.val).val.take 20) ∧
      Base58.decodeCheck key.accountPublic = .ok (0x23, key.bytes.val) ∧
      Base58.decodeCheck key.nodePublic = .ok (0x1c, key.bytes.val)) ∧
    ([address, classicAddress, accountPublic, nodePublic].Pairwise fun form form' =>
      ∀ key key', form key ≠ form' key') ∧
    Function.Injective accountPublic ∧ Function.Injective nodePublic ∧
    ∀ bs : Bytes, bs.length ≠ 32 → Address.derive bs = .error (.keyLength 32 bs.length) := by
  refine ⟨fun key => ?forms, forms_disjoint, fun _ _ => eq_of_encodeCheck_bytes,
    fun _ _ => eq_of_encodeCheck_bytes, fun bs h => ?length⟩
  case forms =>
    have ⟨hl, hh⟩ := key.address_letters
    refine ⟨?derive, hl, hh, Base58.decodeCheck_encodeCheck .., key.classicAddress_letter,
      Base58.decodeCheck_encodeCheck .., Base58.decodeCheck_encodeCheck ..,
      Base58.decodeCheck_encodeCheck ..⟩
    case derive =>
      rw [Address.derive, ofBytes_val]
      rfl
  case length =>
    rw [Address.derive, ofBytes_of_length_ne h]
    rfl

end LedgerWire.PublicKey
