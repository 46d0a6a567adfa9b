import LedgerWire.Curve.Point
import LedgerWire.Digest.Sha512

namespace LedgerWire.Curve.Ed25519

open Bytes (Sized)

-- The scalar of a secret: bits cleared so that it is a multiple of eight, and its top bit fixed.
def clamp (n : Nat) : Nat :=
  2 ^ 254 + n % 2 ^ 254 / 8 * 8

structure Expanded where
  scalar : Nat
  nonceKey : Bytes

def expand (secret : Sized 32) : Expanded :=
  let digest := (Digest.sha512 secret.val).val
  ⟨clamp (Bytes.toNatLE (digest.take 32)), digest.drop 32⟩

def challenge (parts : Bytes) : Nat :=
  Bytes.toNatLE (Digest.sha512 parts).val % order

def publicKey (secret : Sized 32) : Sized 32 :=
  (Point.base.smul (expand secret).scalar).toBytes

def sign (secret : Sized 32) (message : Bytes) : Sized 64 :=
  let key := expand secret
  let nonce := challenge (key.nonceKey ++ message)
  let point := (Point.base.smul nonce).toBytes
  let k := challenge (point.val ++ (publicKey secret).val ++ message)
  let scalar := (nonce + k * key.scalar) % order
  ⟨point.val ++ Bytes.ofNatLE 32 scalar, by simp [point.property]⟩

def verify (key : Sized 32) (message : Bytes) (signature : Sized 64) : Bool :=
  let point := signature.val.take 32
  let scalar := Bytes.toNatLE (signature.val.drop 32)
  match Point.ofBytes? key with
  | none   => false
  | some a =>
    let k := challenge (point ++ key.val ++ message)
    scalar < order && ((Point.base.smul scalar).add (a.neg.smul k)).toBytes.val == point

end LedgerWire.Curve.Ed25519
