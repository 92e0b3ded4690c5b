import Ket.Lib.Grammar
import Ket.Share.Server

/-!
# What a SOCKS5 handshake accepts (`ket-share/src/socks5.rs`)

The bytes of a handshake, stated without the code that reads them: a greeting that offers passwords, a
sign-in with the credentials, and a request to connect.  `negotiate` accepts exactly these
(`negotiate_iff`).  The device takes the answers that it is sent.
-/

namespace Ket.Share.Socks5

open Ket.Lib

/-! ### The grammar -/

/-- A field with a length of 1 to 255 in front. -/
def IsField (text bytes : List UInt8) : Prop :=
  text ≠ [] ∧ text.length < 256 ∧ bytes = field text

/-- The methods that the device offers, behind their number, the one for passwords among them. -/
def IsGreeting (bytes : List UInt8) : Prop :=
  ∃ methods : List UInt8, methods.length < 256 ∧ passwordMethod ∈ methods ∧ bytes = field methods

/-- A user name and a password. -/
def IsSignIn (credentials : Credentials) (bytes : List UInt8) : Prop :=
  ∃ username password, IsField credentials.username username ∧
    IsField credentials.password password ∧ bytes = passwordVersion :: username ++ password

/-- The ways to write a host. -/
inductive IsHost (A : ShareLib) : Host → List UInt8 → Prop where
  | ipv4 (a b c d : UInt8) : IsHost A (.address (.v4 ⟨a, b, c, d⟩)) [ipv4, a, b, c, d]
  | ipv6 (address : BitVec 128) :
      IsHost A (.address (.v6 address)) (ipv6 :: toBigEndian 16 address.toNat)
  | name {host : Host} {text bytes : List UInt8} (hfield : IsField text bytes)
      (hutf8 : Http.isUtf8 text = true) (hparse : Host.parse A text = .ok host) :
      IsHost A host (name :: bytes)

/-- A request to connect to a target. -/
def IsConnect (A : ShareLib) (target : Target) (bytes : List UInt8) : Prop :=
  target.port ≠ 0 ∧ ∃ host, IsHost A target.host host ∧
    bytes = [version, connect, 0] ++ host ++ toBigEndian 2 target.port.toNat

/-- The bytes of a handshake, behind the version byte. -/
def IsHandshake (A : ShareLib) (credentials : Credentials) (target : Target)
    (bytes : List UInt8) : Prop :=
  ∃ greeting signIn request, IsGreeting greeting ∧ IsSignIn credentials signIn ∧
    IsConnect A target request ∧ bytes = greeting ++ signIn ++ request

/-! ### Fields -/

variable {A : ShareLib} {credentials : Credentials}

lemma accepts_readU8 : readU8.Accepts fun b bytes => bytes = [b] := by
  intro input b rest
  rw [readU8_eq_ok]
  simp

lemma accepts_readExact (n : ℕ) :
    (readExact n).Accepts fun text bytes => text.length = n ∧ bytes = text := by
  intro input text rest
  constructor
  · intro h
    obtain ⟨rfl, hlen⟩ := eq_of_readExact h
    exact ⟨text, ⟨hlen, rfl⟩, rfl⟩
  · rintro ⟨_, ⟨rfl, rfl⟩, rfl⟩
    simp [readExact, StateT.run]

lemma accepts_check (b : Bool) (refusal : Refusal) :
    (check b refusal).Accepts fun _ bytes => b = true ∧ bytes = [] := by
  intro input u rest
  rw [check_eq_ok]
  constructor
  · rintro ⟨hb, rfl⟩
    exact ⟨[], ⟨hb, rfl⟩, rfl⟩
  · rintro ⟨_, ⟨hb, rfl⟩, rfl⟩
    exact ⟨hb, rfl⟩

variable {α : Type} {text bytes : List UInt8} {host : Host}

lemma accepts_readU8_bind {f : UInt8 → Parser Refusal α} {H : UInt8 → α → List UInt8 → Prop}
    (hf : ∀ b, (f b).Accepts (H b)) :
    (readU8 >>= f).Accepts fun a bytes => ∃ b rest, H b a rest ∧ bytes = b :: rest := by
  refine (accepts_readU8.bind hf).congr fun a bytes => exists_congr fun b => ?_
  constructor
  · rintro ⟨_, rest, rfl, hrest, rfl⟩
    exact ⟨rest, hrest, rfl⟩
  · rintro ⟨rest, hrest, rfl⟩
    exact ⟨[b], rest, rfl, hrest, rfl⟩

/-- A check reads nothing. -/
lemma accepts_check_bind {b : Bool} {refusal : Refusal} {f : Unit → Parser Refusal α}
    {H : Unit → α → List UInt8 → Prop} (hf : ∀ u, (f u).Accepts (H u)) :
    (check b refusal >>= f).Accepts fun a bytes => b = true ∧ H () a bytes := by
  refine ((accepts_check b refusal).bind hf).congr fun a bytes => ?_
  constructor
  · rintro ⟨_, _, _, ⟨hb, rfl⟩, hbytes, rfl⟩
    exact ⟨hb, hbytes⟩
  · rintro ⟨hb, hbytes⟩
    exact ⟨(), [], bytes, ⟨hb, rfl⟩, hbytes, rfl⟩

lemma field_eq_cons {length : UInt8} (h : text.length = length.toNat) :
    field text = length :: text := by
  rw [field, h, UInt8.ofNat_toNat]

lemma toNat_ofNat_length (h : text.length < 256) :
    (UInt8.ofNat text.length).toNat = text.length := by
  rw [UInt8.toNat_ofNat', Nat.mod_eq_of_lt h]

lemma accepts_readField : readField.Accepts IsField := by
  refine (accepts_readU8_bind fun length => accepts_check_bind fun _ =>
    accepts_readExact length.toNat).congr fun text bytes => ?_
  constructor
  · rintro ⟨length, _, ⟨hlength, hlen, rfl⟩, rfl⟩
    refine ⟨?_, hlen ▸ length.toNat_lt, (field_eq_cons hlen).symm⟩
    rintro rfl
    have hzero : length = 0 := UInt8.toNat_inj.mp hlen.symm
    simp [hzero] at hlength
  · rintro ⟨hne, hlen, rfl⟩
    have hlength := toNat_ofNat_length hlen
    refine ⟨UInt8.ofNat text.length, text, ⟨?_, hlength.symm, rfl⟩, rfl⟩
    have hne' : UInt8.ofNat text.length ≠ 0 := by
      intro hzero
      rw [hzero] at hlength
      exact hne (List.length_eq_zero_iff.mp hlength.symm)
    simpa using hne'

/-! ### The parts of a handshake -/

/-- The device takes both answers. -/
def allTaken : Answers := ⟨true, true⟩

lemma accepts_signIn : (signIn credentials allTaken).Accepts fun _ bytes =>
    ∃ greeting signIn, IsGreeting greeting ∧ IsSignIn credentials signIn ∧
      bytes = greeting ++ signIn := by
  refine (accepts_readU8_bind fun count => (accepts_readExact count.toNat).bind fun methods =>
    accepts_check_bind fun _ => accepts_check_bind fun _ => accepts_readU8_bind fun v =>
    accepts_check_bind fun _ => accepts_readField.bind fun username =>
    accepts_readField.bind fun password => accepts_check_bind fun _ =>
    accepts_check _ _).congr fun _ bytes => ?_
  constructor
  · rintro ⟨count, _, ⟨_, methods, _, ⟨hlen, rfl⟩, ⟨hoffered, -, v, _, ⟨hversion, username, ubytes, _,
      husername, ⟨password, pbytes, _, hpassword, ⟨hmatch, -, rfl⟩, rfl⟩, rfl⟩, rfl⟩, rfl⟩, rfl⟩
    simp only [Credentials.isMatch, Bool.and_eq_true, beq_iff_eq] at hmatch
    refine ⟨field methods, passwordVersion :: ubytes ++ pbytes,
      ⟨methods, hlen ▸ count.toNat_lt, by simpa using hoffered, rfl⟩,
      ⟨ubytes, pbytes, hmatch.1 ▸ husername, hmatch.2 ▸ hpassword, rfl⟩, ?_⟩
    rw [field_eq_cons hlen, beq_iff_eq.mp hversion]
    simp
  · rintro ⟨_, _, ⟨methods, hlen, hoffered, rfl⟩, ⟨ubytes, pbytes, husername, hpassword, rfl⟩, rfl⟩
    refine ⟨UInt8.ofNat methods.length, _, ⟨methods, methods, _,
      ⟨(toNat_ofNat_length hlen).symm, rfl⟩, ⟨by simpa using hoffered, rfl, passwordVersion, _,
      ⟨by decide, _, ubytes, _, husername, ⟨_, pbytes, [], hpassword, ⟨?_, rfl, rfl⟩, rfl⟩, rfl⟩,
      rfl⟩, rfl⟩, ?_⟩
    · simp [Credentials.isMatch]
    · simp [field]

/-- The ways to write a host, by their kinds. -/
lemma isHost_cons {kind : UInt8} : IsHost A host (kind :: bytes) ↔
      (kind = ipv4 ∧ ∃ a b c d, host = .address (.v4 ⟨a, b, c, d⟩) ∧ bytes = [a, b, c, d]) ∨
      (kind = ipv6 ∧ ∃ address : BitVec 128, host = .address (.v6 address) ∧
        bytes = toBigEndian 16 address.toNat) ∨
      (kind = name ∧ ∃ text, IsField text bytes ∧ Http.isUtf8 text = true ∧
        Host.parse A text = .ok host) := by
  constructor
  · generalize hwhole : kind :: bytes = whole
    intro h
    cases h with
    | ipv4 a b c d =>
      obtain ⟨rfl, rfl⟩ := List.cons.inj hwhole
      exact .inl ⟨rfl, a, b, c, d, rfl, rfl⟩
    | ipv6 address =>
      obtain ⟨hkind, hbytes⟩ := List.cons.inj hwhole
      exact .inr (.inl ⟨hkind, address, rfl, hbytes⟩)
    | name hfield hutf8 hparse =>
      obtain ⟨rfl, rfl⟩ := List.cons.inj hwhole
      exact .inr (.inr ⟨rfl, _, hfield, hutf8, hparse⟩)
  · rintro (⟨hkind, a, b, c, d, hhost, hbytes⟩ | ⟨hkind, address, hhost, hbytes⟩ |
      ⟨hkind, text, hfield, hutf8, hparse⟩)
    · rw [hkind, hhost, hbytes]
      exact .ipv4 a b c d
    · rw [hkind, hhost, hbytes]
      exact .ipv6 address
    · rw [hkind]
      exact .name hfield hutf8 hparse

lemma ok_of_mapError {x : Except TargetError Host} (h : x.mapError Refusal.target = .ok host) :
    x = .ok host := by
  cases x with
  | error e => cases h
  | ok host' =>
    cases h
    rfl

/-- The bytes of a host behind its kind. -/
lemma accepts_readHost (kind : UInt8) :
    (readHost A kind).Accepts fun host bytes => IsHost A host (kind :: bytes) := by
  have hkinds : ipv4 ≠ ipv6 ∧ ipv4 ≠ name ∧ ipv6 ≠ name := by decide
  rw [readHost]
  split
  · rename_i hipv4
    refine (accepts_readU8_bind fun a => accepts_readU8_bind fun b => accepts_readU8_bind fun c =>
      accepts_readU8_bind fun d => Parser.Accepts.pure _).congr fun host bytes => ?_
    simp only [isHost_cons, hipv4, hkinds.1, hkinds.2.1, true_and, false_and, or_false]
    constructor
    · rintro ⟨a, _, ⟨b, _, ⟨c, _, ⟨d, _, ⟨rfl, rfl⟩, rfl⟩, rfl⟩, rfl⟩, rfl⟩
      exact ⟨a, b, c, d, rfl, rfl⟩
    · rintro ⟨a, b, c, d, rfl, rfl⟩
      exact ⟨a, _, ⟨b, _, ⟨c, _, ⟨d, _, ⟨rfl, rfl⟩, rfl⟩, rfl⟩, rfl⟩, rfl⟩
  · rename_i hipv4
    split
    · rename_i hipv6
      refine ((accepts_readExact 16).bind fun octets => Parser.Accepts.pure _).congr
        fun host bytes => ?_
      simp only [isHost_cons, hipv6, hkinds.1.symm, hkinds.2.2, true_and, false_and, or_false,
        false_or]
      constructor
      · rintro ⟨_, octets, _, ⟨hlen, rfl⟩, ⟨rfl, rfl⟩, rfl⟩
        have hlt := ofBigEndian_lt octets
        rw [hlen] at hlt
        refine ⟨_, rfl, ?_⟩
        rw [BitVec.toNat_ofNat, Nat.mod_eq_of_lt (show _ < 2 ^ 128 from hlt), List.append_nil,
          ← hlen]
        exact (toBigEndian_ofBigEndian octets).symm
      · rintro ⟨address, hhost, hbytes⟩
        refine ⟨bytes, bytes, [], ⟨hbytes ▸ length_toBigEndian _ _, rfl⟩, ⟨?_, rfl⟩,
          (List.append_nil _).symm⟩
        rw [hhost, hbytes, ofBigEndian_toBigEndian (show address.toNat < 256 ^ 16 from address.isLt),
          BitVec.ofNat_toNat, BitVec.setWidth_eq]
    · rename_i hipv6
      split
      · rename_i hname
        refine (accepts_readField.bind fun text => accepts_check_bind fun _ =>
          Parser.Accepts.lift _).congr fun host bytes => ?_
        simp only [isHost_cons, hname, hkinds.2.1.symm, hkinds.2.2.symm, true_and, false_and,
          false_or]
        constructor
        · rintro ⟨text, bytes, _, hfield, ⟨hutf8, hparse, rfl⟩, rfl⟩
          rw [List.append_nil]
          exact ⟨text, hfield, hutf8, ok_of_mapError hparse⟩
        · rintro ⟨text, hfield, hutf8, hparse⟩
          refine ⟨text, bytes, [], hfield, ⟨hutf8, ?_, rfl⟩, (List.append_nil _).symm⟩
          rw [hparse]
          rfl
      · rename_i hname
        refine (Parser.Accepts.lift _).congr fun host bytes => ?_
        simp only [isHost_cons, hipv4, hipv6, hname, false_and, or_false, reduceCtorEq]

lemma IsHost.exists_kind (h : IsHost A host bytes) : ∃ kind rest, bytes = kind :: rest := by
  cases h with
  | _ => exact ⟨_, _, rfl⟩

lemma accepts_readRequest : (readRequest A).Accepts (IsConnect A) := by
  refine (accepts_readU8_bind fun requestVersion => accepts_readU8_bind fun command =>
    accepts_readU8_bind fun reserved => accepts_readU8_bind fun kind =>
    accepts_check_bind fun _ => accepts_check_bind fun _ => (accepts_readHost kind).bind fun host =>
    (accepts_readExact 2).bind fun port => accepts_check_bind fun _ =>
    Parser.Accepts.pure _).congr fun target bytes => ?_
  constructor
  · rintro ⟨v, _, ⟨c, _, ⟨r, _, ⟨kind, _, ⟨hheader, hconnect, host, hostBytes, _, hhost, ⟨_, port, _,
      ⟨hlen, rfl⟩, ⟨hport, rfl, rfl⟩, rfl⟩, rfl⟩, rfl⟩, rfl⟩, rfl⟩, rfl⟩
    simp only [Bool.and_eq_true, beq_iff_eq] at hheader
    have hlt := ofBigEndian_lt port
    rw [hlen] at hlt
    have hbytes : toBigEndian 2 (UInt16.ofNat (ofBigEndian port)).toNat = port := by
      rw [UInt16.toNat_ofNat', Nat.mod_eq_of_lt (show _ < 2 ^ 16 from hlt), ← hlen]
      exact toBigEndian_ofBigEndian port
    refine ⟨by simpa using hport, _, hhost, ?_⟩
    rw [hheader.1, hheader.2, beq_iff_eq.mp hconnect, hbytes]
    simp
  · rintro ⟨hport, _, hhost, hbytes⟩
    obtain ⟨kind, hostBytes, rfl⟩ := hhost.exists_kind
    have hportBytes : UInt16.ofNat (ofBigEndian (toBigEndian 2 target.port.toNat)) = target.port := by
      rw [ofBigEndian_toBigEndian (show target.port.toNat < 256 ^ 2 from target.port.toNat_lt),
        UInt16.ofNat_toNat]
    refine ⟨version, _, ⟨connect, _, ⟨0, _, ⟨kind, _, ⟨by decide, by decide, target.host, hostBytes, _,
      hhost, ⟨_, toBigEndian 2 target.port.toNat, [], ⟨length_toBigEndian _ _, rfl⟩, ⟨?_, ?_, rfl⟩,
      rfl⟩, rfl⟩, rfl⟩, rfl⟩, rfl⟩, ?_⟩
    · rw [hportBytes]
      simpa using hport
    · rw [hportBytes]
    · rw [hbytes]
      simp

/-- **The handshake accepts its grammar**: it returns a target exactly if the stream starts with a
handshake for it, and leaves what stands behind.  Every part of a handshake is refused. -/
theorem negotiate_iff (A : ShareLib) (credentials : Credentials) :
    (∀ input target rest, (negotiate A credentials allTaken).run input = .ok (target, rest) ↔
      ∃ bytes, IsHandshake A credentials target bytes ∧ input = bytes ++ rest) ∧
    ∀ target bytes start, IsHandshake A credentials target bytes → start <+: bytes →
      start ≠ bytes → ∃ refusal, (negotiate A credentials allTaken).run start = .error refusal := by
  have haccepts : (negotiate A credentials allTaken).Accepts (IsHandshake A credentials) := by
    refine (accepts_signIn.bind fun _ => accepts_readRequest).congr fun target bytes => ?_
    constructor
    · rintro ⟨-, _, request, ⟨greeting, signIn, hgreeting, hsignIn, rfl⟩, hrequest, rfl⟩
      exact ⟨greeting, signIn, request, hgreeting, hsignIn, hrequest, rfl⟩
    · rintro ⟨greeting, signIn, request, hgreeting, hsignIn, hrequest, rfl⟩
      exact ⟨(), _, request, ⟨greeting, signIn, hgreeting, hsignIn, rfl⟩, hrequest, rfl⟩
  exact ⟨haccepts, fun target bytes start hbytes hstart hne =>
    haccepts.refuses hbytes hstart hne⟩

/-- A device that signs in and asks for a name, and sends more. -/
theorem negotiate_iff_name :
    (negotiate Sample.noIpv6 ⟨Str.bytes "ket", Str.bytes "abc"⟩ allTaken).run
        ([2, 0, 2] ++ 1 :: field (Str.bytes "ket") ++ field (Str.bytes "abc") ++
          [5, 1, 0, 3] ++ field (Str.bytes "Example.com") ++ [1, 187] ++ [22, 3]) =
      .ok (⟨.name (Str.bytes "example.com"), 443⟩, [22, 3]) ∧
    ∃ refusal, (negotiate Sample.noIpv6 ⟨Str.bytes "ket", Str.bytes "abc"⟩ allTaken).run
      [2, 0, 2, 1, 3] = .error refusal := by
  have hbytes : IsHandshake Sample.noIpv6 ⟨Str.bytes "ket", Str.bytes "abc"⟩
      ⟨.name (Str.bytes "example.com"), 443⟩ ([2, 0, 2] ++ 1 :: field (Str.bytes "ket") ++
        field (Str.bytes "abc") ++ [5, 1, 0, 3] ++ field (Str.bytes "Example.com") ++ [1, 187]) := by
    refine ⟨[2, 0, 2], 1 :: field (Str.bytes "ket") ++ field (Str.bytes "abc"),
      [version, connect, 0] ++ (name :: field (Str.bytes "Example.com")) ++ toBigEndian 2 443,
      ⟨[0, 2], by decide, by decide, rfl⟩, ⟨_, _, ⟨by decide, by decide, rfl⟩,
        ⟨by decide, by decide, rfl⟩, rfl⟩, ⟨by decide, _, ?_, rfl⟩, by decide⟩
    exact .name ⟨by decide, by decide, rfl⟩ (by decide) (by decide)
  have hiff := negotiate_iff Sample.noIpv6 ⟨Str.bytes "ket", Str.bytes "abc"⟩
  refine ⟨(hiff.1 _ _ _).mpr ⟨_, hbytes, rfl⟩, hiff.2 _ _ [2, 0, 2, 1, 3] hbytes ?_ (by decide)⟩
  exact List.isPrefixOf_iff_prefix.mp (by decide)

end Ket.Share.Socks5
