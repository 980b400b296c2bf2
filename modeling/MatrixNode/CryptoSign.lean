import Mathlib.Data.Nat.Size
import MatrixNode.CommonTypes

/-! `crypto/signature_cgo.go`: signatures that carry one bit of opinion. -/
namespace MatrixNode
open GoLib

def secp256k1N : ℕ := 0xfffffffffffffffffffffffffffffffebaaedce6af48a03bbfd25e8cd0364141

def s256BitSize : ℕ := 256

structure PrivateKey where
  d : ℕ
  d_pos : 0 < d
  d_lt : d < secp256k1N

def paddedBigBytes (bigint n : ℕ) : Bytes :=
  if n ≤ Nat.size bigint/8 then beBytes bigint
  else fixedBytes n bigint

def PrivateKey.seckey (prv : PrivateKey) : Bytes := paddedBigBytes prv.d (s256BitSize/8)

/-- The number has at least 8n bits here, so it fills all n bytes. -/
theorem paddedBigBytes_length {bigint n : ℕ} (h : bigint < 256^n) :
    (paddedBigBytes bigint n).length = n := by
  have hle := (beBytes_length_le_iff bigint n).mpr h
  unfold paddedBigBytes
  split_ifs with hs
  · refine le_antisymm hle (Nat.le_of_not_lt fun hlt => ?_)
    have hn : 0 < n := by omega
    have hlow := (beBytes_length_le_iff bigint (n-1)).mp (by omega)
    have hbits : Nat.size bigint ≤ 8*(n-1) := by
      rw [Nat.size_le, pow_mul]
      exact hlow
    omega
  · rw [fixedBytes, List.length_append, List.length_replicate]
    omega

theorem PrivateKey.seckey_length (prv : PrivateKey) : prv.seckey.length = 32 := by
  apply paddedBigBytes_length
  have h := prv.d_lt
  norm_num [secp256k1N, s256BitSize] at h ⊢
  omega

/-- The libraries behind package `crypto`: signing and public-key recovery on
secp256k1, and Keccak-256. -/
structure CryptoLib where
  sign : Bytes → Bytes → Except GoError Bytes
  recoverPubkey : Bytes → Bytes → Except GoError Bytes
  keccak256 : Bytes → BitVec 256

namespace CryptoLib
variable (C : CryptoLib)

def pubkeyToAddress (pub : Bytes) : Address := (C.keccak256 (pub.drop 1)).setWidth 160

/-- What a disagreeing signature is made over: the hash plus one, written with
its shortest byte string and cut to 32 bytes. -/
def disagreeHash (hash : Bytes) : Except GoError Bytes := sliceTo (beBytes (beNat hash+1)) 32

def signWithValidate (hash : Bytes) (validate : Bool) (prv : PrivateKey) : Except GoError Bytes := do
  if hash.length ≠ 32 then
    throw (.error ("hash is required to be exactly 32 bytes (" ++ toString hash.length ++ ")"))
  let hash ← if validate then pure hash else disagreeHash hash
  let sig ← C.sign hash prv.seckey
  if validate then pure sig else updateByte sig 64 (· + 2)

def verifySignWithValidate (sighash sig : Bytes) : Except GoError (Address × Bool) := do
  if sighash.length ≠ 32 then
    throw (.error ("hash is required to be exactly 32 bytes (" ++ toString sighash.length ++ ")"))
  let last ← byteAt sig 64
  let validate : Bool := last < 2
  let sig ← if validate then pure sig else updateByte sig 64 (· - 2)
  let sighash ← if validate then pure sighash else disagreeHash sighash
  let pub ← C.recoverPubkey sighash sig
  -- An empty key and a key in another format are one error.
  if pub.head? ≠ some 4 then
    throw (.error "invalid public key")
  pure (C.pubkeyToAddress pub, validate)

/-- What the callers of secp256k1 rely on: every 32-byte message can be signed,
the signature is 65 bytes ending in 0 or 1, and recovery finds the signer. -/
structure RecoveryInvertsSigning (pubkey : PrivateKey → Bytes) : Prop where
  sign_recover : ∀ (msg : Bytes) (prv : PrivateKey), msg.length = 32 →
    ∃ (rs : Bytes) (v : UInt8), rs.length = 64 ∧ (v = 0 ∨ v = 1) ∧
      C.sign msg prv.seckey = .ok (rs ++ [v]) ∧
      C.recoverPubkey msg (rs ++ [v]) = .ok (pubkey prv)
  uncompressed : ∀ prv : PrivateKey, (pubkey prv).head? = some 4

/-- Signing succeeds and the signature reads back as the signer with the same
opinion, with no panic on either side. -/
def SignRoundTrip (pubkey : PrivateKey → Bytes) (hash : Bytes) (validate : Bool)
    (prv : PrivateKey) : Prop :=
  ∃ sig, C.signWithValidate hash validate prv = .ok sig ∧
    C.verifySignWithValidate hash sig = .ok (C.pubkeyToAddress (pubkey prv), validate)

variable {hash : Bytes}

theorem disagreeHash_ok (h : 2^248 ≤ beNat hash+1) :
    ∃ msg, disagreeHash hash = .ok msg ∧ msg.length = 32 := by
  have hl : 32 ≤ (beBytes (beNat hash+1)).length := by
    by_contra hlt
    have hb := (beBytes_length_le_iff (beNat hash+1) 31).mp (by omega)
    omega
  exact ⟨_, if_pos hl, by rw [List.length_take]; omega⟩

theorem disagreeHash_panic (h : beNat hash+1 < 2^248) :
    disagreeHash hash = .error (.panic "slice bounds out of range") := by
  have hl : (beBytes (beNat hash+1)).length ≤ 31 := by
    rw [beBytes_length_le_iff]
    omega
  exact if_neg (by omega)

variable {C} {pubkey : PrivateKey → Bytes}

theorem agree_round_trip (hC : C.RecoveryInvertsSigning pubkey) (hlen : hash.length = 32)
    (prv : PrivateKey) : C.SignRoundTrip pubkey hash true prv := by
  obtain ⟨rs, v, hrs, hv, hs, hr⟩ := hC.sign_recover hash prv hlen
  refine ⟨rs ++ [v], ?_, ?_⟩
  · simp [signWithValidate, hlen, hs]
  · have hlt : v < 2 := by rcases hv with rfl | rfl <;> decide
    simp [verifySignWithValidate, hlen, byteAt_last v hrs, hlt, hr, hC.uncompressed]

theorem disagree_round_trip (hC : C.RecoveryInvertsSigning pubkey) (hlen : hash.length = 32)
    (prv : PrivateKey) (h : 2^248 ≤ beNat hash+1) : C.SignRoundTrip pubkey hash false prv := by
  obtain ⟨msg, hm, hml⟩ := disagreeHash_ok h
  obtain ⟨rs, v, hrs, hv, hs, hr⟩ := hC.sign_recover msg prv hml
  refine ⟨rs ++ [v+2], ?_, ?_⟩
  · simp [signWithValidate, hlen, hm, hs, updateByte_last _ v hrs]
  · have hge : ¬ v+2 < 2 := by rcases hv with rfl | rfl <;> decide
    have hback : v+2-2 = v := by rcases hv with rfl | rfl <;> decide
    simp [verifySignWithValidate, hlen, byteAt_last _ hrs, hge, updateByte_last _ _ hrs, hback,
      hm, hr, hC.uncompressed]

theorem disagree_panics (hlen : hash.length = 32) (prv : PrivateKey) (h : beNat hash+1 < 2^248) :
    C.signWithValidate hash false prv = .error (.panic "slice bounds out of range") := by
  simp [signWithValidate, hlen, disagreeHash_panic h]

/-- The round trip holds exactly for agreeing signatures and for hashes whose
successor needs all 32 bytes; below that, signing a disagreement panics. -/
theorem sign_round_trip_iff (hC : C.RecoveryInvertsSigning pubkey) (hash : Bytes)
    (hlen : hash.length = 32) (validate : Bool) (prv : PrivateKey) :
    C.SignRoundTrip pubkey hash validate prv ↔ validate = true ∨ 2^248 ≤ beNat hash+1 := by
  constructor
  · rintro ⟨sig, hs, -⟩
    cases validate with
    | true => exact Or.inl rfl
    | false =>
      refine Or.inr (Nat.le_of_not_lt fun hlt => ?_)
      rw [disagree_panics hlen prv hlt] at hs
      cases hs
  · intro h
    cases validate with
    | true => exact agree_round_trip hC hlen prv
    | false => exact disagree_round_trip hC hlen prv (h.resolve_left (by decide))

def sampleLib : CryptoLib where
  sign := fun _ seckey => .ok (seckey ++ List.replicate 32 0 ++ [0])
  recoverPubkey := fun _ sig => .ok (4 :: sig.take 64)
  keccak256 := fun b => BitVec.ofNat 256 (beNat b)

def samplePubkey (prv : PrivateKey) : Bytes := 4 :: (prv.seckey ++ List.replicate 32 0)

def sampleKey : PrivateKey := ⟨1, by norm_num, by norm_num [secp256k1N]⟩

theorem sampleLib_recovery : sampleLib.RecoveryInvertsSigning samplePubkey := by
  refine ⟨fun msg prv _ => ?_, fun prv => rfl⟩
  have hs := prv.seckey_length
  refine ⟨prv.seckey ++ List.replicate 32 0, 0, by simp [hs], Or.inl rfl, rfl, ?_⟩
  simp [sampleLib, samplePubkey, List.take_append, hs]

theorem sign_round_trip_largest_hash :
    sampleLib.SignRoundTrip samplePubkey (List.replicate 32 255) false sampleKey :=
  (sign_round_trip_iff sampleLib_recovery _ rfl false sampleKey).mpr (Or.inr (by decide +kernel))

/-- Signing disagreement with the zero hash slices one byte to 32. -/
theorem disagree_zero_hash_panics :
    sampleLib.RecoveryInvertsSigning samplePubkey ∧
    sampleLib.signWithValidate (List.replicate 32 0) false sampleKey =
      .error (.panic "slice bounds out of range") ∧
    ¬ sampleLib.SignRoundTrip samplePubkey (List.replicate 32 0) false sampleKey := by
  have hp : sampleLib.signWithValidate (List.replicate 32 0) false sampleKey =
      .error (.panic "slice bounds out of range") :=
    disagree_panics rfl sampleKey (by rw [beNat_replicate_zero]; norm_num)
  refine ⟨sampleLib_recovery, hp, ?_⟩
  rintro ⟨sig, hs, -⟩
  rw [hp] at hs
  cases hs

end CryptoLib

end MatrixNode
