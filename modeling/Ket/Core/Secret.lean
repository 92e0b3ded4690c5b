import Ket.Lib.Str
import Mathlib.Tactic

/-!
# Access codes and session tokens (`ket-core/src/secret.rs`)

The hashing itself (Argon2id for access codes, BLAKE2s for tokens) is library code; `Crypto` is
what the server takes from it.
-/

namespace Ket.Core

open Ket.Lib

/-- A BLAKE2s digest. -/
abbrev TokenHash : Type := Vector UInt8 32

/-- The hashing the server uses. -/
structure Crypto where
  /-- `is_supported_secret_hash`. -/
  isSupportedSecretHash : String → Bool
  verifySecret : String → String → Bool
  hashTokenSecret : String → TokenHash

/-- `verify_token_secret`. -/
def Crypto.verifyTokenSecret (C : Crypto) (secret : String) (expected : TokenHash) : Bool :=
  decide (C.hashTokenSecret secret = expected)

def accessCodeLength : ℕ := 32
def sessionTokenLength : ℕ := 44
def accessIdLength : ℕ := 10
def sessionIdLength : ℕ := 12

/-- The ID and the secret in an access code or a session token. -/
structure TokenParts where
  id : String
  secret : String
deriving DecidableEq, Repr

/-- `validate_alphanumeric` and the two slices, which are of ASCII text. -/
def splitToken (length idLength : ℕ) (value : String) : Option TokenParts :=
  if Str.len value = length ∧ Str.allAsciiAlphanumeric value then
    some ⟨String.ofList (value.toList.take idLength), String.ofList (value.toList.drop idLength)⟩
  else none

def splitAccessCode (value : String) : Option TokenParts :=
  splitToken accessCodeLength accessIdLength value

def splitSessionToken (value : String) : Option TokenParts :=
  splitToken sessionTokenLength sessionIdLength value

end Ket.Core
