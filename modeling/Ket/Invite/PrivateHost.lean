import Ket.Invite.PublicUrl
import Ket.Lib.Origin

/-!
# Onion and I2P addresses, in both directions (`invite-capsule/src/locator/private.rs`)

An address is accepted exactly when it is the text that is written for the key or the hash it stands
for (`parseOnionHost_eq_ok_iff`, `parseI2pHost_eq_ok_iff`).
-/

namespace Ket.Invite

open Ket.Lib

/-! ### Base32 -/

variable {H : PrivateLib} {c : Char} {key : Vector UInt8 32} {n : ℕ}

lemma toLower_of_isBase32 (h : isBase32 c = true) :
    isLowerBase32 c.toLower = true ∧ c.toLower.toUpper = c := by
  have hall : ∀ n : Fin 0x80, isBase32 (Char.ofNat n) = true →
      isLowerBase32 (Char.ofNat n).toLower = true ∧
        (Char.ofNat n).toLower.toUpper = Char.ofNat n := by decide +kernel
  have hc := hall ⟨c.toNat, toNat_lt_of_isBase32 h⟩
  rw [Char.ofNat_toNat] at hc
  exact hc h

lemma toNat_of_isLowerBase32 (h : isLowerBase32 c = true) : 0x32 ≤ c.toNat ∧ c.toNat ≤ 0x7a := by
  have hlower : c.isLower = (decide ('a'.val ≤ c.val) && decide (c.val ≤ 'z'.val)) := rfl
  simp only [isLowerBase32, Bool.or_eq_true, hlower, Bool.and_eq_true, decide_eq_true_eq,
    Char.le_def, UInt32.le_iff_toNat_le, Char.toNat_val, Char.reduceToNat] at h
  omega

lemma toList_encodeBase32 (bytes : List UInt8) :
    (encodeBase32 H bytes).toList = (H.base32.encode bytes).map Char.toLower :=
  String.toList_ofList

variable {bytes : List UInt8}

lemma isLowerBase32_of_mem (h : c ∈ (encodeBase32 H bytes).toList) : isLowerBase32 c = true := by
  rw [toList_encodeBase32] at h
  obtain ⟨d, hd, rfl⟩ := List.mem_map.mp h
  exact (toLower_of_isBase32 (H.base32.isDigit_of_mem d hd)).1

lemma ascii_of_mem (h : c ∈ (encodeBase32 H bytes).toList) : c.toNat < 0x80 :=
  Nat.lt_of_le_of_lt (toNat_of_isLowerBase32 (isLowerBase32_of_mem h)).2 (by decide)

lemma length_encodeBase32 (bytes : List UInt8) :
    (encodeBase32 H bytes).toList.length = base32Length bytes.length := by
  rw [toList_encodeBase32, List.length_map, H.base32.length_encode, base32Length]

lemma map_toUpper_encodeBase32 (bytes : List UInt8) :
    (encodeBase32 H bytes).toList.map Char.toUpper = H.base32.encode bytes := by
  rw [toList_encodeBase32, List.map_map]
  refine (List.map_congr_left fun c hc => ?_).trans (List.map_id _)
  exact (toLower_of_isBase32 (H.base32.isDigit_of_mem c hc)).2

/-- **One spelling.**  Bytes are read from their own text only. -/
lemma decodeBase32_eq_ok_iff {text : String} {bytes : Vector UInt8 n} :
    decodeBase32 H n text = .ok bytes ↔ text = encodeBase32 H bytes.toList := by
  constructor
  · intro h
    obtain ⟨-, h⟩ := require_bind_eq_ok.mp h
    obtain ⟨decoded, -, h⟩ := bind_eq_ok.mp h
    obtain ⟨htext, h⟩ := require_bind_eq_ok.mp h
    split at h
    · cases h
      exact (of_decide_eq_true htext).symm
    · cases h
  · rintro rfl
    have hlen : Str.len (encodeBase32 H bytes.toList) = base32Length n := by
      rw [Str.len_of_ascii fun c hc => ascii_of_mem hc, length_encodeBase32, Vector.length_toList]
    have hall : (encodeBase32 H bytes.toList).toList.all isLowerBase32 = true :=
      List.all_eq_true.mpr fun c hc => isLowerBase32_of_mem hc
    refine require_bind_eq_ok.mpr ⟨Bool.and_eq_true_iff.mpr ⟨decide_eq_true hlen, hall⟩, ?_⟩
    refine bind_eq_ok.mpr ⟨bytes.toList, okOr_eq_ok.mpr ?_, ?_⟩
    · rw [map_toUpper_encodeBase32, H.base32.decode_eq_some_iff]
    · refine require_bind_eq_ok.mpr ⟨decide_eq_true rfl, ?_⟩
      rw [dif_pos bytes.length_toList]
      rfl

/-! ### Onion and I2P hosts -/

variable {E : Ed25519} {host : String}

/-- An onion host is accepted in one spelling, the one that is written for its key. -/
lemma parseOnionHost_eq_ok_iff :
    parseOnionHost H E host = .ok key ↔ host = onionHost H key ∧ validOnionKey E key = true := by
  have hascii : ∀ c ∈ ".onion".toList, c.toNat < 0x80 := by simp
  constructor
  · intro h
    obtain ⟨label, hlabel, h⟩ := bind_eq_ok.mp h
    obtain ⟨bytes, hbytes, h⟩ := bind_eq_ok.mp h
    obtain ⟨hcheck, h⟩ := require_bind_eq_ok.mp h
    obtain ⟨hvalid, h⟩ := require_bind_eq_ok.mp h
    obtain ⟨hversion, hchecksum⟩ := of_decide_eq_true hcheck
    have hkey := Except.ok.inj h
    obtain rfl := (Str.stripSuffix_eq_some_iff hascii).mp (okOr_eq_ok.mp hlabel)
    rw [decodeBase32_eq_ok_iff.mp hbytes, onionHost]
    rw [hkey] at hchecksum hvalid
    exact ⟨by rw [← onionBytes_iff.mpr ⟨hkey, hversion, hchecksum⟩], hvalid⟩
  · rintro ⟨rfl, hvalid⟩
    obtain ⟨hkey, hversion, hchecksum⟩ := onionBytes_iff.mp
      (rfl : key ++ onionChecksum H key ++ (#v[3] : Vector UInt8 1) = _)
    refine bind_eq_ok.mpr ⟨_, okOr_eq_ok.mpr ((Str.stripSuffix_eq_some_iff hascii).mpr rfl), ?_⟩
    refine bind_eq_ok.mpr ⟨_, decodeBase32_eq_ok_iff.mpr rfl, ?_⟩
    rw [hkey]
    exact require_bind_eq_ok.mpr ⟨decide_eq_true ⟨hversion, hchecksum⟩,
      require_bind_eq_ok.mpr ⟨hvalid, rfl⟩⟩

/-- An I2P host is accepted in one spelling, the one that is written for its hash. -/
lemma parseI2pHost_eq_ok_iff {hash : Vector UInt8 32} :
    parseI2pHost H host = .ok hash ↔ host = i2pHost H hash ∧ hash ≠ Vector.replicate 32 0 := by
  have hascii : ∀ c ∈ ".b32.i2p".toList, c.toNat < 0x80 := by simp
  constructor
  · intro h
    obtain ⟨label, hlabel, h⟩ := bind_eq_ok.mp h
    obtain ⟨bytes, hbytes, h⟩ := bind_eq_ok.mp h
    obtain ⟨hzero, h⟩ := require_bind_eq_ok.mp h
    cases h
    obtain rfl := (Str.stripSuffix_eq_some_iff hascii).mp (okOr_eq_ok.mp hlabel)
    rw [decodeBase32_eq_ok_iff.mp hbytes]
    exact ⟨rfl, of_decide_eq_true hzero⟩
  · rintro ⟨rfl, hzero⟩
    refine bind_eq_ok.mpr ⟨_, okOr_eq_ok.mpr ((Str.stripSuffix_eq_some_iff hascii).mpr rfl), ?_⟩
    refine bind_eq_ok.mpr ⟨_, decodeBase32_eq_ok_iff.mpr rfl, ?_⟩
    exact require_bind_eq_ok.mpr ⟨decide_eq_true hzero, rfl⟩

/-! ### What the URL library sees -/

/-- A host that the URL library reads as the name it is. -/
structure PrivateName (host : String) : Prop where
  ordinary : Web.isOrdinaryName host = true
  bytes : ∀ b ∈ Str.bytes host, 0x2d ≤ b.toNat ∧ b.toNat ≤ 0x7a
  length : (Str.bytes host).length ≤ maxHostBytes
  not_number : Web.endsInANumber (Str.bytes host) = false

/-- The last labels of private hosts. -/
structure PrivateSuffix (suffix : String) : Prop where
  ordinary : Web.isOrdinaryName suffix = true
  bytes : ∀ b ∈ Str.bytes suffix, 0x2d ≤ b.toNat ∧ b.toNat ≤ 0x7a
  length : (Str.bytes suffix).length ≤ 16
  not_number : Web.endsInANumber (Str.bytes suffix) = false
  last : ∃ label, ((Str.bytes suffix).splitOn 0x2e).getLast? = some label ∧ label ≠ []

lemma privateSuffix_onion : PrivateSuffix "onion" := by
  constructor
  all_goals decide +kernel

lemma privateSuffix_i2p : PrivateSuffix "b32.i2p" := by
  constructor
  all_goals decide +kernel

/-- Whether a host ends in a number depends on what is behind its first dot. -/
lemma endsInANumber_append {label rest : List UInt8} (hlabel : 0x2e ∉ label)
    (hlast : ∃ last, (rest.splitOn 0x2e).getLast? = some last ∧ last ≠ []) :
    Web.endsInANumber (label ++ 0x2e :: rest) = Web.endsInANumber rest := by
  obtain ⟨last, hlast, hne⟩ := hlast
  have hsplit : (label ++ 0x2e :: rest).splitOn 0x2e = label :: rest.splitOn 0x2e :=
    List.splitOn_append_cons_self_of_not_mem hlabel _
  have hlast' : (label :: rest.splitOn 0x2e).getLast? = some last := by
    rw [List.getLast?_cons, hlast, Option.getD_some]
  simp only [Web.endsInANumber, Web.labels, hsplit, hlast, hlast', Option.some.injEq, hne,
    false_and, if_false]

lemma privateName (H : PrivateLib) (bytes : List UInt8) {suffix : String}
    (hlength : 1 ≤ base32Length bytes.length ∧ base32Length bytes.length ≤ 63)
    (hsuffix : PrivateSuffix suffix) :
    PrivateName (encodeBase32 H bytes ++ "." ++ suffix) := by
  have hlabelBytes : ∀ b ∈ Str.bytes (encodeBase32 H bytes), 0x32 ≤ b.toNat ∧ b.toNat ≤ 0x7a := by
    intro b hb
    rw [Str.bytes_of_ascii fun c hc => ascii_of_mem hc] at hb
    obtain ⟨c, hc, rfl⟩ := List.mem_map.mp hb
    have hrange := toNat_of_isLowerBase32 (isLowerBase32_of_mem hc)
    rw [UInt8.toNat_ofNat']
    omega
  have hdot : '.' ∉ (encodeBase32 H bytes).toList := fun hmem =>
    absurd (isLowerBase32_of_mem hmem) (by decide)
  have hbytes : Str.bytes (encodeBase32 H bytes ++ "." ++ suffix)
      = Str.bytes (encodeBase32 H bytes) ++ 0x2e :: Str.bytes suffix := by
    rw [Str.bytes_append, Str.bytes_append, List.append_assoc]
    rfl
  refine ⟨?_, fun b hb => ?_, ?_, ?_⟩
  · have hsplit : (encodeBase32 H bytes ++ "." ++ suffix).toList.splitOn '.'
        = (encodeBase32 H bytes).toList :: suffix.toList.splitOn '.' := by
      rw [String.toList_append, String.toList_append, List.append_assoc]
      exact List.splitOn_append_cons_self_of_not_mem hdot _
    have hlabel : (encodeBase32 H bytes).toList.all (fun c => c.isLower || c.isDigit) = true := by
      refine List.all_eq_true.mpr fun c hc => ?_
      have hchar := isLowerBase32_of_mem hc
      simp only [isLowerBase32, Bool.or_eq_true, decide_eq_true_eq] at hchar
      rcases hchar with hlower | ⟨hle, hge⟩
      · rw [hlower, Bool.true_or]
      · have hdigit : c.isDigit = true := by
          simp only [Char.le_def, UInt32.le_iff_toNat_le] at hle hge
          simp only [Char.isDigit, Bool.and_eq_true, decide_eq_true_eq, ge_iff_le,
            UInt32.le_iff_toNat_le]
          exact ⟨le_trans (by decide) hle, le_trans hge (by decide)⟩
        rw [hdigit, Bool.or_true]
    rw [Web.isOrdinaryName, hsplit, List.all_cons, length_encodeBase32, hlabel]
    exact Bool.and_eq_true_iff.mpr ⟨by simpa using hlength, hsuffix.ordinary⟩
  · rw [hbytes] at hb
    rcases List.mem_append.mp hb with hb | hb
    · have := hlabelBytes b hb
      omega
    · rcases List.mem_cons.mp hb with rfl | hb
      · decide
      · exact hsuffix.bytes b hb
  · have hlabel : (Str.bytes (encodeBase32 H bytes)).length = base32Length bytes.length := by
      rw [Str.bytes_of_ascii fun c hc => ascii_of_mem hc, List.length_map, length_encodeBase32]
    have hsize := hsuffix.length
    rw [hbytes, List.length_append, List.length_cons, hlabel, maxHostBytes]
    omega
  · rw [hbytes, endsInANumber_append _ hsuffix.last]
    · exact hsuffix.not_number
    · intro hmem
      exact absurd (hlabelBytes _ hmem).1 (by decide)

lemma privateName_onionHost (key : Vector UInt8 32) : PrivateName (onionHost H key) := by
  have h := privateName H (key ++ onionChecksum H key ++ (#v[3] : Vector UInt8 1)).toList
    (by simp [base32Length]) privateSuffix_onion
  rwa [String.append_assoc] at h

lemma privateName_i2pHost (hash : Vector UInt8 32) : PrivateName (i2pHost H hash) := by
  have h := privateName H hash.toList (by simp [base32Length]) privateSuffix_i2p
  rwa [String.append_assoc] at h

end Ket.Invite
