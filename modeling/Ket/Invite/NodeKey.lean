import Ket.Invite.Cbor

/-!
# Node identity keys (`invite-capsule/src/node_key.rs`, `signature.rs`)

The Ed25519 implementation is a library the repository uses.  `Ed25519` is what the repository
takes from it, with what is assumed of it: a key pair's public key is a valid key, and a
signature verifies under the key it was made for.
-/

namespace Ket.Invite

open Ket.Lib

/-- The Ed25519 operations, over encoded keys and signatures. -/
structure Ed25519 where
  /-- `VerifyingKey::from_bytes` succeeds: the bytes are a curve point. -/
  isPoint : Vector UInt8 32 → Bool
  /-- The point has small order. -/
  isWeak : Vector UInt8 32 → Bool
  verifyStrict : Vector UInt8 32 → List UInt8 → Vector UInt8 64 → Bool
  /-- The public key of a seed. -/
  publicKey : Vector UInt8 32 → Vector UInt8 32
  sign : Vector UInt8 32 → List UInt8 → Vector UInt8 64
  publicKey_isPoint : ∀ seed, isPoint (publicKey seed) = true
  publicKey_ne_zero : ∀ seed, publicKey seed ≠ Vector.replicate 32 0
  verifyStrict_sign : ∀ seed message,
    verifyStrict (publicKey seed) message (sign seed message) = true

variable {E : Ed25519}

/-- A node's public key: nonzero and a valid curve point. -/
structure NodePublicKey (E : Ed25519) where
  bytes : Vector UInt8 32
  ne_zero : bytes ≠ Vector.replicate 32 0
  isPoint : E.isPoint bytes = true
deriving DecidableEq

namespace NodePublicKey

/-- `NodePublicKey::from_bytes`. -/
def fromBytes (E : Ed25519) (bytes : Vector UInt8 32) : Except CapsuleError (NodePublicKey E) :=
  if h : bytes ≠ Vector.replicate 32 0 ∧ E.isPoint bytes = true then .ok ⟨bytes, h.1, h.2⟩
  else .error .invalidNodeKey

lemma fromBytes_bytes (key : NodePublicKey E) : fromBytes E key.bytes = .ok key :=
  dif_pos ⟨key.ne_zero, key.isPoint⟩

lemma bytes_of_fromBytes {bytes : Vector UInt8 32} {key : NodePublicKey E}
    (h : fromBytes E bytes = .ok key) : key.bytes = bytes := by
  unfold fromBytes at h
  split_ifs at h
  cases h
  rfl

/-- Strict Ed25519 verification. -/
def verify (key : NodePublicKey E) (message : List UInt8) (signature : Vector UInt8 64) : Bool :=
  E.isPoint key.bytes && E.verifyStrict key.bytes message signature

end NodePublicKey

/-- A node's signing key, by its seed. -/
structure NodeSigningKey where
  seed : Vector UInt8 32

namespace NodeSigningKey

def publicKey (E : Ed25519) (key : NodeSigningKey) : NodePublicKey E :=
  ⟨E.publicKey key.seed, E.publicKey_ne_zero key.seed, E.publicKey_isPoint key.seed⟩

def sign (E : Ed25519) (key : NodeSigningKey) (message : List UInt8) : Vector UInt8 64 :=
  E.sign key.seed message

/-- What a node signs verifies under its public key. -/
lemma verify_sign (key : NodeSigningKey) (message : List UInt8) :
    (key.publicKey E).verify message (key.sign E message) = true := by
  rw [NodePublicKey.verify, (key.publicKey E).isPoint, Bool.true_and]
  exact E.verifyStrict_sign key.seed message

end NodeSigningKey

/-- `signature_input`: the bytes a node signs, `domain || u16be(len) || application_id || payload`. -/
def signatureInput (domain : List UInt8) (applicationId : String) (payload : List UInt8) :
    List UInt8 :=
  domain ++ toBigEndian 2 (min (Str.bytes applicationId).length 0xffff) ++
    Str.bytes applicationId ++ payload

end Ket.Invite
