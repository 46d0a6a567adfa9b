import LedgerWire.Bytes.Basic

namespace LedgerWire.Digest

-- What one member of the family fixes.
structure Rule (W : Type) where
  wordBytes : Nat
  readWord : Bytes → W
  writeWord : W → Bytes
  sum₀ : W → W
  sum₁ : W → W
  mix₀ : W → W
  mix₁ : W → W
  constants : List W

@[ext]
structure State (W : Type) where
  a : W
  b : W
  c : W
  d : W
  e : W
  f : W
  g : W
  h : W

namespace State

variable {W : Type}

def words (s : State W) : List W :=
  [s.a, s.b, s.c, s.d, s.e, s.f, s.g, s.h]

variable [Add W]

def add (s t : State W) : State W :=
  ⟨s.a + t.a, s.b + t.b, s.c + t.c, s.d + t.d, s.e + t.e, s.f + t.f, s.g + t.g, s.h + t.h⟩

variable [AndOp W] [XorOp W] [Complement W]

def round (rule : Rule W) (s : State W) (constant word : W) : State W :=
  let choice := (s.e &&& s.f) ^^^ (~~~s.e &&& s.g)
  let majority := (s.a &&& s.b) ^^^ (s.a &&& s.c) ^^^ (s.b &&& s.c)
  let t₁ := s.h + rule.sum₁ s.e + choice + constant + word
  let t₂ := rule.sum₀ s.a + majority
  ⟨t₁ + t₂, s.a, s.b, s.c, s.d + t₁, s.e, s.f, s.g⟩

end State

namespace Rule

variable {W : Type} (rule : Rule W)

def blockBytes : Nat :=
  16 * rule.wordBytes

-- The message, a one bit, zeros up to a whole block, and last the length in bits.
def pad (message : Bytes) : Bytes :=
  let tail := 2 * rule.wordBytes
  let used := (message.length + 1 + tail) % rule.blockBytes
  message ++ 0x80 :: List.replicate ((rule.blockBytes - used) % rule.blockBytes) 0
    ++ Bytes.ofNatBE tail (8 * message.length)

def readWords : (count : Nat) → Bytes → List W
  | 0, _          => []
  | count + 1, bs => rule.readWord (bs.take rule.wordBytes) :: readWords count (bs.drop rule.wordBytes)

variable [Add W]

-- The schedule `newest` after `steps` more words. The schedule is built newest word first, so that
-- the four words a new one depends on stand at fixed distances from the head.
def extend [Inhabited W] : (steps : Nat) → (newest : List W) → List W
  | 0, newest         => newest
  | steps + 1, newest =>
    let word := rule.mix₁ (newest.getD 1 default) + newest.getD 6 default
      + rule.mix₀ (newest.getD 14 default) + newest.getD 15 default
    extend steps (word :: newest)

def schedule [Inhabited W] (block : Bytes) : List W :=
  (rule.extend (rule.constants.length - 16) (rule.readWords 16 block).reverse).reverse

variable [Inhabited W] [AndOp W] [XorOp W] [Complement W]

def compress (s : State W) (block : Bytes) : State W :=
  s.add <| (rule.constants.zip (rule.schedule block)).foldl (fun t (constant, word) =>
    t.round rule constant word) s

def absorb : (count : Nat) → State W → Bytes → State W
  | 0, s, _          => s
  | count + 1, s, bs =>
    absorb count (rule.compress s (bs.take rule.blockBytes)) (bs.drop rule.blockBytes)

def digest (start : State W) (message : Bytes) : Bytes :=
  let padded := rule.pad message
  let final := rule.absorb (padded.length / rule.blockBytes) start padded
  final.words.flatMap rule.writeWord

theorem length_digest {n : Nat} (size : ∀ w, (rule.writeWord w).length = n) (start : State W)
    (message : Bytes) : (rule.digest start message).length = 8 * n := by
  simp [digest, State.words, size]
  omega

end Rule

end LedgerWire.Digest
