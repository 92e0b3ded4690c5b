import Ket.Lib.Parser
import Ket.Share.Http

/-!
# The SOCKS5 front door (`ket-share/src/socks5.rs`)

The handshake reads exactly the bytes it needs, so how they arrive does not matter.  Its refusals
tell the device why; those answers are not modelled, but that the device may not take an answer is:
`Answers` says which of the two that the handshake waits for it takes.
-/

namespace Ket.Share.Socks5

open Ket.Lib

def version : UInt8 := 0x05
def passwordMethod : UInt8 := 0x02
def passwordVersion : UInt8 := 0x01
def connect : UInt8 := 0x01
def ipv4 : UInt8 := 0x01
def name : UInt8 := 0x03
def ipv6 : UInt8 := 0x04

/-- Which answers the device takes. -/
structure Answers where
  method : Bool
  signIn : Bool
deriving DecidableEq, Repr

def readU8 : Parser Refusal UInt8 := fun input =>
  match input with
  | [] => .error .malformed
  | b :: rest => .ok (b, rest)

/-- `read_exact` for so many bytes. -/
def readExact (n : ℕ) : Parser Refusal (List UInt8) := fun input =>
  if input.length < n then .error .malformed else .ok (input.take n, input.drop n)

def check (b : Bool) (refusal : Refusal) : Parser Refusal Unit := Parser.lift (require b refusal)

/-- A field of 1 to 255 bytes, behind its length. -/
def readField : Parser Refusal (List UInt8) := do
  let length ← readU8
  check (length != 0) .malformed
  readExact length.toNat

/-- The host of a request, by the kind of its address. -/
def readHost (A : ShareLib) (kind : UInt8) : Parser Refusal Host :=
  if kind = ipv4 then do
    let a ← readU8
    let b ← readU8
    let c ← readU8
    let d ← readU8
    return .address (.v4 ⟨a, b, c, d⟩)
  else if kind = ipv6 then do
    let octets ← readExact 16
    return .address (.v6 (BitVec.ofNat 128 (ofBigEndian octets)))
  else if kind = name then do
    let text ← readField
    check (Http.isUtf8 text) (.target .invalid)
    Parser.lift ((Host.parse A text).mapError .target)
  else Parser.lift (.error .unsupported)

/-- The sign-in of the device. -/
def signIn (credentials : Credentials) (answers : Answers) : Parser Refusal Unit := do
  let count ← readU8
  let methods ← readExact count.toNat
  check (methods.contains passwordMethod) .noCredentials
  check answers.method .malformed
  let version ← readU8
  check (version == passwordVersion) .malformed
  let username ← readField
  let password ← readField
  check (credentials.isMatch username password) .badCredentials
  check answers.signIn .malformed

/-- What the device asks for once it has signed in. -/
def readRequest (A : ShareLib) : Parser Refusal Target := do
  let requestVersion ← readU8
  let command ← readU8
  let reserved ← readU8
  let kind ← readU8
  check (requestVersion == version && reserved == 0) .malformed
  check (command == connect) .unsupported
  let host ← readHost A kind
  let port ← readExact 2
  check (UInt16.ofNat (ofBigEndian port) != 0) (.target .invalid)
  return ⟨host, UInt16.ofNat (ofBigEndian port)⟩

/-- `negotiate`, after the version byte. -/
def negotiate (A : ShareLib) (credentials : Credentials) (answers : Answers) :
    Parser Refusal Target := do
  signIn credentials answers
  readRequest A

/-! ### What a completed handshake has read -/

variable {A : ShareLib} {credentials : Credentials} {answers : Answers}

/-- The bytes of a field. -/
def field (text : List UInt8) : List UInt8 := UInt8.ofNat text.length :: text

/-- The bytes of a sign-in with the credentials: the methods, with the one for passwords among them,
and then the user name and the password. -/
def SignIn (credentials : Credentials) (bytes : List UInt8) : Prop :=
  ∃ methods : List UInt8, passwordMethod ∈ methods ∧
    bytes = field methods ++ passwordVersion :: field credentials.username ++
      field credentials.password

variable {input rest : List UInt8} {u : Unit} {target : Target}

lemma readU8_eq_ok {b : UInt8} : readU8.run input = .ok (b, rest) ↔ input = b :: rest := by
  cases input with
  | nil => simp [readU8, StateT.run]
  | cons c input =>
    simp only [readU8, StateT.run, Except.ok.injEq, Prod.mk.injEq, List.cons.injEq]

lemma eq_of_readExact {n : ℕ} {bytes : List UInt8} (h : (readExact n).run input = .ok (bytes, rest))
    : input = bytes ++ rest ∧ bytes.length = n := by
  simp only [readExact, StateT.run] at h
  split at h
  · cases h
  · rename_i hlen
    cases h
    exact ⟨(List.take_append_drop n input).symm, List.length_take_of_le (Nat.le_of_not_lt hlen)⟩

lemma check_eq_ok {b : Bool} {refusal : Refusal} :
    (check b refusal).run input = .ok (u, rest) ↔ b = true ∧ rest = input := by
  cases b with
  | false => simp [check, Parser.lift, StateT.run, Except.map]
  | true => simp [check, Parser.lift, StateT.run, Except.map, eq_comm]

lemma eq_of_readField {text : List UInt8} (h : readField.run input = .ok (text, rest)) :
    input = field text ++ rest := by
  simp only [readField, StateT.run_bind, bind_eq_ok] at h
  obtain ⟨⟨length, _⟩, hlength, ⟨_, _⟩, hcheck, hread⟩ := h
  obtain rfl := readU8_eq_ok.mp hlength
  obtain ⟨-, rfl⟩ := check_eq_ok.mp hcheck
  obtain ⟨rfl, hlen⟩ := eq_of_readExact hread
  rw [field, hlen, UInt8.ofNat_toNat]
  rfl

/-- A completed sign-in has read the credentials. -/
lemma signIn_spec (h : (signIn credentials answers).run input = .ok (u, rest)) :
    ∃ bytes, SignIn credentials bytes ∧ input = bytes ++ rest := by
  simp only [signIn, StateT.run_bind, bind_eq_ok] at h
  obtain ⟨⟨count, _⟩, hcount, ⟨methods, _⟩, hmethods, ⟨_, _⟩, hoffered, ⟨_, _⟩, htaken, ⟨v, _⟩,
    hversion, ⟨_, _⟩, hknown, ⟨username, _⟩, husername, ⟨password, _⟩, hpassword, ⟨_, _⟩, hmatch,
    hdone⟩ := h
  obtain rfl := readU8_eq_ok.mp hcount
  obtain ⟨rfl, hlen⟩ := eq_of_readExact hmethods
  obtain ⟨hoffered, rfl⟩ := check_eq_ok.mp hoffered
  obtain ⟨-, rfl⟩ := check_eq_ok.mp htaken
  obtain rfl := readU8_eq_ok.mp hversion
  obtain ⟨hknown, rfl⟩ := check_eq_ok.mp hknown
  obtain rfl := eq_of_readField husername
  obtain rfl := eq_of_readField hpassword
  obtain ⟨hmatch, rfl⟩ := check_eq_ok.mp hmatch
  obtain ⟨-, rfl⟩ := check_eq_ok.mp hdone
  simp only [Credentials.isMatch, Bool.and_eq_true, beq_iff_eq] at hmatch
  have hv : v = passwordVersion := beq_iff_eq.mp hknown
  have hmethods : field methods = count :: methods := by
    have hcount : methods.length = count.toNat := hlen
    rw [field, hcount, UInt8.ofNat_toNat]
  refine ⟨_, ⟨methods, by simpa using hoffered, rfl⟩, ?_⟩
  rw [hmatch.1, hmatch.2, hv, hmethods]
  simp

lemma port_ne_zero_of_readRequest (h : (readRequest A).run input = .ok (target, rest)) :
    target.port ≠ 0 := by
  simp only [readRequest, StateT.run_bind, bind_eq_ok] at h
  obtain ⟨_, -, _, -, _, -, _, -, _, -, _, -, _, -, ⟨port, _⟩, -, ⟨_, _⟩, hport, heq⟩ := h
  obtain ⟨hport, -⟩ := check_eq_ok.mp hport
  cases heq
  simpa using hport

/-- **A completed handshake**: the credentials have been read, and the port is not zero. -/
lemma negotiate_spec (h : (negotiate A credentials answers).run input = .ok (target, rest)) :
    (∃ bytes more, SignIn credentials bytes ∧ input = bytes ++ more) ∧ target.port ≠ 0 := by
  simp only [negotiate, StateT.run_bind, bind_eq_ok] at h
  obtain ⟨⟨_, more⟩, hsignIn, hrequest⟩ := h
  obtain ⟨bytes, hbytes, hinput⟩ := signIn_spec hsignIn
  exact ⟨⟨bytes, more, hbytes, hinput⟩, port_ne_zero_of_readRequest hrequest⟩

end Ket.Share.Socks5
