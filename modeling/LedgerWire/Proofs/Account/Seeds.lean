import LedgerWire.Account.Seed
import LedgerWire.Proofs.Base58.Framing
import LedgerWire.Proofs.Base58.Leading

namespace LedgerWire.Seed

open Base58 (frame)
open Numeral (Leads)

variable {seed : Seed}

def number (seed : Seed) : Nat :=
  Bytes.toNatBE (frame version seed.entropy)

theorem number_bounds (seed : Seed) :
    33 * 256 ^ (seed.entropy.length + 4) ≤ seed.number ∧
      seed.number < 34 * 256 ^ (seed.entropy.length + 4) := by
  have h := Base58.toNatBE_cons version
    (seed.entropy ++ (Base58.checksum (version :: seed.entropy)).val)
  rw [List.length_append, (Base58.checksum _).property] at h
  exact h

-- The letter is the symbol of the digit two.
theorem head?_encode (seed : Seed) :
    seed.encode.toList.head? = some firstLetter ↔ Leads 58 2 seed.number := by
  have hs : firstLetter = Base58.symbol 2 := by decide +kernel
  rw [hs, encode, Base58.encodeCheck, Base58.encode, String.toList_ofList, frame, List.cons_append]
  exact Base58.head?_encodeChars_eq_iff (by decide) (by decide) (by decide)

theorem parse_eq_ok_iff (text : String) :
    parse text = .ok seed ↔ text = seed.encode ∧ Leads 58 2 seed.number := by
  rw [← head?_encode, parse]
  constructor
  case mp =>
    intro h
    split at h
    case isTrue => cases h
    case isFalse hl =>
      split at h
      case h_1 => cases h
      case h_2 found entropy hd =>
        split at h
        case isTrue => cases h
        case isFalse hv =>
          cases h
          obtain ⟨bs, rfl, hu⟩ := Base58.exists_unframe hd
          rw [not_not.mp hv] at hu
          cases Base58.eq_frame_of_unframe hu
          exact ⟨rfl, not_not.mp hl⟩
  case mpr =>
    rintro ⟨rfl, hl⟩
    rw [if_neg (not_not.mpr hl), encode, Base58.decodeCheck_encodeCheck]
    exact if_neg (not_not.mpr rfl)

-- All numbers of such a length lead with the digit two.
theorem leads_two (h : seed.entropy.length = 8 ∨ seed.entropy.length = 16) :
    Leads 58 2 seed.number := by
  have ⟨hl, hu⟩ := seed.number_bounds
  rcases h with h | h
  all_goals rw [h] at hl hu
  case inl => exact ⟨17, by omega, by omega⟩
  case inr => exact ⟨28, by omega, by omega⟩

-- For every other length up to 26 all numbers lie between the multiples of some power of 58 by
-- three and by 116, where none leads with the digit two.
theorem exists_gap : ∀ n < 27, n ≠ 8 → n ≠ 16 →
    ∃ k < 50, 3 * 58 ^ k ≤ 33 * 256 ^ (n + 4) ∧ 34 * 256 ^ (n + 4) ≤ 2 * 58 ^ (k + 1) := by
  decide +kernel

theorem not_leads_of_gap {n k : Nat} (hl : 3 * 58 ^ k ≤ n) (hu : n < 2 * 58 ^ (k + 1)) :
    ¬Leads 58 2 n := by
  intro ⟨j, hj, hj'⟩
  -- A power with a smaller exponent is too small, and one with a greater exponent too great.
  rcases Nat.lt_or_ge k j with h | h
  all_goals have hp := Nat.pow_le_pow_right (n := 58) (by decide) h
  case inl => omega
  case inr => omega

theorem leads_two_iff (h : seed.entropy.length < 27) :
    Leads 58 2 seed.number ↔ seed.entropy.length = 8 ∨ seed.entropy.length = 16 := by
  constructor
  case mp =>
    intro hl
    by_contra hn
    have ⟨h8, h16⟩ := not_or.mp hn
    have ⟨k, _, hk, hk'⟩ := exists_gap _ h h8 h16
    have ⟨hb, hb'⟩ := seed.number_bounds
    exact not_leads_of_gap (Nat.le_trans hk hb) (Nat.lt_of_lt_of_le hb' hk') hl
  case mpr => exact leads_two

-- Whether a text is accepted can be evaluated, but errors cannot be compared.
theorem parse_of_toOption {text : String} (h : (parse text).toOption = some seed) :
    parse text = .ok seed := by
  cases hp : parse text <;> simp_all [Except.toOption]

-- A text is accepted if it encodes entropy whose number leads with the digit two, whatever the
-- length. Up to 26 bytes these are the encodings of eight and of sixteen bytes, and all of them.
theorem parse_accepts (text : String) (seed : Seed) :
    (parse text = .ok seed ↔ text = seed.encode ∧ Leads 58 2 seed.number) ∧
    (parse text = .ok seed ∧ seed.entropy.length < 27 ↔
      text = seed.encode ∧ (seed.entropy.length = 8 ∨ seed.entropy.length = entropyLength)) := by
  refine ⟨parse_eq_ok_iff text, ?_⟩
  rw [parse_eq_ok_iff, entropyLength, and_assoc]
  refine and_congr_right fun _ => ?_
  constructor
  case mp  => exact fun ⟨hl, h⟩ => (leads_two_iff h).mp hl
  case mpr => exact fun h => ⟨leads_two h, by omega⟩

theorem parse_accepts_eight_bytes :
    parse "skSXMrXksYRf2CxMYS" = .ok ⟨[1, 2, 3, 4, 5, 6, 7, 8]⟩ ∧
    ¬∀ text seed, parse text = .ok seed → seed.entropy.length = entropyLength := by
  have hp : parse "skSXMrXksYRf2CxMYS" = .ok ⟨[1, 2, 3, 4, 5, 6, 7, 8]⟩ :=
    parse_of_toOption (by decide +kernel)
  exact ⟨hp, fun h => absurd (h _ _ hp) (by decide)⟩

theorem encode_trailed (entropy : Bytes.Sized entropyLength)
    (trailer : Bytes.Sized Base58.checksumLength) :
    (Base58.encode (version :: entropy.val ++ trailer.val)).length = 29 ∧
      (Base58.encode (version :: entropy.val ++ trailer.val)).toList.head? = some 's' :=
  Base58.encode_of_version (d := 2) (k := 28) entropy trailer (by decide) (by decide) (by decide)
    (by decide)

theorem parse_encode (entropy : Bytes.Sized entropyLength) :
    parse (ofEntropy entropy).encode = .ok (ofEntropy entropy) :=
  parse_eq_ok_iff _ |>.mpr ⟨rfl, leads_two <| .inr entropy.property⟩

-- Sixteen bytes of entropy are written in 29 letters, the first of them as seeds ask for, whatever
-- stands as their checksum. They are read back from their text, and no text is read as a seed but
-- the one that the seed is written as.
theorem texts_round_trip (entropy : Bytes.Sized entropyLength) :
    (∀ trailer : Bytes.Sized Base58.checksumLength,
      (Base58.encode (version :: entropy.val ++ trailer.val)).length = 29 ∧
      (Base58.encode (version :: entropy.val ++ trailer.val)).toList.head? = some 's') ∧
    (ofEntropy entropy).encode.length = 29 ∧
    (ofEntropy entropy).encode.toList.head? = some 's' ∧
    parse (ofEntropy entropy).encode = .ok ⟨entropy.val⟩ ∧
    Keypair.ofSeedText (ofEntropy entropy).encode = .ok (ofEntropy entropy).keypair ∧
    ∀ text seed, parse text = .ok seed → seed.encode = text := by
  have ⟨hl, hs⟩ := encode_trailed entropy (Base58.checksum (version :: entropy.val))
  have hp := parse_encode entropy
  have hk : Keypair.ofSeedText (ofEntropy entropy).encode = .ok (ofEntropy entropy).keypair := by
    rw [Keypair.ofSeedText, hp]
    rfl
  have hu (text : String) (seed : Seed) (h : parse text = .ok seed) : seed.encode = text :=
    (parse_eq_ok_iff text |>.mp h).left.symm
  exact ⟨encode_trailed entropy, hl, hs, hp, hk, hu⟩

end LedgerWire.Seed
