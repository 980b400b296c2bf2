import MatrixNode.TransactionSigning

/-! Signing a transaction: `SignatureValues` of the signers and `WithSignature`. -/
namespace MatrixNode
open GoLib List

namespace Signer

def signatureV (signer : Signer) (last : UInt8) : ℕ :=
  match signer with
  | .frontier | .homestead => (last+27).toNat
  | .eip155 chainId => if chainId ≠ 0 then (last+35).toNat+2*chainId else (last+27).toNat

def signatureValues (signer : Signer) (sig : Bytes) : Except GoError (ℕ × ℕ × ℕ) :=
  if sig.length ≠ 65 then
    throw (.panic ("wrong size for signature: got " ++ toString sig.length ++ ", want 65"))
  else
    pure (beNat (sig.take 32), beNat ((sig.drop 32).take 32), signer.signatureV (sig.getD 64 0))

/-- The signers that read the mark of 128 back as they wrote it: the older ones only without extra
recipients, the replay-protected one with them or on a small chain id. -/
def ReadsMark (signer : Signer) (tx : Transaction) : Prop :=
  match signer with
  | .frontier | .homestead => tx.extra = []
  | .eip155 chainId => tx.extra ≠ [] ∨ chainId ≤ 46

end Signer

def Transaction.withSignature (tx : Transaction) (signer : Signer) (sig : Bytes) :
    Except GoError Transaction := do
  let (r, s, v) ← signer.signatureValues sig
  pure { tx with v := if 0 < tx.extra.length then v+128 else v, r := r, s := s }

def sigBytes (r s : ℕ) (v : UInt8) : Bytes := fixedBytes 32 r ++ fixedBytes 32 s ++ [v]

namespace TxCrypto
variable {Hash : Type}

/-- Keys whose signatures are recovered. `made key h sig` says that `sig` is a signature of the key
over `h`: 32 bytes of R, 32 bytes of S in the lower half, and 0 or 1. -/
structure SigningKeys (C : TxCrypto Hash) (Key : Type) where
  made : Key → Hash → Bytes → Prop
  pubkey : Key → Bytes
  shape : ∀ key h sig, made key h sig →
    ∃ r s v, sig = sigBytes r s v ∧ validateSignatureValues v r s true = true
  recover : ∀ key h sig, made key h sig → C.ecrecover h sig = .ok (pubkey key)
  uncompressed : ∀ key, (pubkey key).head? = some 4

def SigningKeys.account {C : TxCrypto Hash} {Key : Type} (K : C.SigningKeys Key) (key : Key) :
    Address :=
  C.pubAddress (K.pubkey key)

section Plain
variable {C : TxCrypto Hash} {h : Hash} {r s : ℕ} {account : Address}

variable {homestead : Bool}

theorem validateSignatureValues_eq_true_iff {v : UInt8} :
    validateSignatureValues v r s homestead = true ↔
      (1 ≤ r ∧ r < secp256k1N) ∧ (1 ≤ s ∧ s < secp256k1N) ∧
        (homestead = true → s ≤ secp256k1halfN) ∧ (v = 0 ∨ v = 1) := by
  unfold validateSignatureValues
  split_ifs with hlow hhigh
  · simp only [Bool.or_eq_true, decide_eq_true_eq] at hlow
    simp only [false_iff]
    omega
  · simp only [Bool.and_eq_true, decide_eq_true_eq] at hhigh
    simp only [false_iff]
    intro h
    have hs := h.2.2.1 hhigh.1
    omega
  · simp only [Bool.or_eq_true, decide_eq_true_eq] at hlow
    simp only [Bool.and_eq_true, decide_eq_true_eq, not_and, not_lt] at hhigh
    simp only [Bool.and_eq_true, Bool.or_eq_true, decide_eq_true_eq, beq_iff_eq]
    constructor
    · rintro ⟨⟨hr, hs⟩, hv⟩
      exact ⟨⟨by omega, hr⟩, ⟨by omega, hs⟩, hhigh, hv⟩
    · rintro ⟨hr, hs, -, hv⟩
      exact ⟨⟨hr.2, hs.2⟩, hv⟩

theorem ofNat_sub_27 {i : ℕ} (hi : i < 2) : UInt8.ofNat (27+i)-27 = UInt8.ofNat i := by
  interval_cases i <;> decide

/-- The byte less 27 is 0 or 1, and no bits were cut off to make it. -/
theorem recoverPlain_id {vb : ℤ} (hok : C.recoverPlain h r s vb homestead = .ok account) :
    ∃ i < 2, vb.natAbs = 27+i := by
  obtain ⟨hsize, hvalid, -⟩ := recoverPlain_eq_ok_iff.mp hok
  obtain ⟨-, -, -, hv⟩ := validateSignatureValues_eq_true_iff.mp hvalid
  obtain ⟨n, hn⟩ : ∃ n, n = vb.natAbs := ⟨_, rfl⟩
  rw [← hn] at hv hsize ⊢
  have hnat : UInt8.ofNat n = 27 ∨ UInt8.ofNat n = 28 := by
    rcases hv with hv | hv
    · left
      rw [← UInt8.sub_add_cancel (UInt8.ofNat n) 27, hv]
      rfl
    · right
      rw [← UInt8.sub_add_cancel (UInt8.ofNat n) 27, hv]
      rfl
  have hback : (UInt8.ofNat n).toNat = n :=
    Nat.mod_eq_of_lt hsize
  rcases hnat with hnat | hnat
  · refine ⟨0, by omega, ?_⟩
    rw [← hback, hnat]
    rfl
  · refine ⟨1, by omega, ?_⟩
    rw [← hback, hnat]
    rfl

theorem recoverPlain_natAbs {vb : ℤ} {n : ℕ} (hn : vb.natAbs = n) :
    C.recoverPlain h r s vb homestead = C.recoverPlain h r s n homestead := by
  have habs : ((n : ℕ) : ℤ).natAbs = vb.natAbs := by
    rw [hn, Int.natAbs_natCast]
  unfold recoverPlain
  rw [habs]

end Plain

section Arithmetic

theorem protected_v_iff {chainId v i : ℕ} (hi : i < 2) :
    (deriveChainId v = chainId ∧ (plainV chainId v).natAbs = 27+i) ↔
      v = 2*chainId+163+i ∨ (v = 2*chainId+35+i ∧ chainId ≤ 46) := by
  unfold deriveChainId deriveChainId1 plainV
  simp only [Nat.size_le]
  constructor
  · rintro ⟨hid, habs⟩
    split_ifs at hid habs <;> omega
  · intro h
    split_ifs <;> omega

end Arithmetic

section Sender
variable {C : TxCrypto Hash} {chainId : ℕ} {tx : Transaction} {account : Address}

def SignedOver (C : TxCrypto Hash) (h : Hash) (r s : ℕ) (account : Address) : Prop :=
  ∃ i < 2, C.recoverPlain h r s ((27+i : ℕ) : ℤ) true = .ok account

/-- V 27 and 28 are left to the older signer; any other V is read for its chain id first and for its
recovery id then. -/
theorem sender_eip155_iff :
    C.sender (.eip155 chainId) tx = .ok account ↔ ∃ i < 2,
      (tx.v = 27+i ∧
        C.recoverPlain (C.signerHash .homestead tx) tx.r tx.s ((27+i : ℕ) : ℤ) true = .ok account) ∨
      ((tx.v = 2*chainId+163+i ∨ (tx.v = 2*chainId+35+i ∧ chainId ≤ 46)) ∧
        C.recoverPlain (C.signerHash (.eip155 chainId) tx) tx.r tx.s ((27+i : ℕ) : ℤ) true =
          .ok account) := by
  by_cases hprot : isProtectedV tx.v = false
  · have hv := (isProtectedV_eq_false_iff tx.v).mp hprot
    simp only [sender, if_pos hprot]
    constructor
    · intro hok
      obtain ⟨i, hi, hid⟩ := recoverPlain_id hok
      refine ⟨i, hi, .inl ⟨hid, ?_⟩⟩
      rw [← hid]
      exact hok
    · rintro ⟨i, hi, ⟨hid, hok⟩ | ⟨hid, -⟩⟩
      · rw [hid]
        exact hok
      · omega
  · have hv := mt (isProtectedV_eq_false_iff tx.v).mpr hprot
    simp only [sender, if_neg hprot, throw_eq_error, ite_error_eq_ok, ne_eq, not_not]
    constructor
    · rintro ⟨hchain, hok⟩
      obtain ⟨i, hi, hid⟩ := recoverPlain_id hok
      rw [recoverPlain_natAbs hid] at hok
      exact ⟨i, hi, .inr ⟨(protected_v_iff hi).mp ⟨hchain, hid⟩, hok⟩⟩
    · rintro ⟨i, hi, ⟨hid, -⟩ | ⟨hid, hok⟩⟩
      · omega
      · obtain ⟨hchain, habs⟩ := (protected_v_iff hi).mpr hid
        rw [recoverPlain_natAbs habs]
        exact ⟨hchain, hok⟩

end Sender

section RoundTrip
variable {C : TxCrypto Hash} {Key : Type} {K : C.SigningKeys Key} {signer : Signer}
  {tx : Transaction} {key : Key} {sig : Bytes}

theorem signatureValues_sigBytes {r s : ℕ} {v : UInt8} (hr : r < 256^32) (hs : s < 256^32) :
    signer.signatureValues (sigBytes r s v) = .ok (r, s, signer.signatureV v) := by
  have hrlen := length_fixedBytes hr
  have hslen := length_fixedBytes hs
  have hlen : (sigBytes r s v).length = 65 := by
    rw [sigBytes, length_append, length_append, hrlen, hslen]
    rfl
  have htake : (sigBytes r s v).take 32 = fixedBytes 32 r := by
    rw [sigBytes, append_assoc]
    exact take_left' hrlen
  have hdrop : (sigBytes r s v).drop 32 = fixedBytes 32 s ++ [v] := by
    rw [sigBytes, append_assoc]
    exact drop_left' hrlen
  have hlast : (sigBytes r s v).getD 64 0 = v := by
    have hinit : (fixedBytes 32 r ++ fixedBytes 32 s).length = 64 := by
      rw [length_append, hrlen, hslen]
    rw [sigBytes, getD_eq_getElem?_getD, getElem?_append_right (by omega), hinit]
    rfl
  rw [Signer.signatureValues, if_neg (not_not.mpr hlen), htake, hdrop, take_left' hslen,
    beNat_fixedBytes, beNat_fixedBytes, hlast]
  rfl

theorem withSignature_sigBytes {r s : ℕ} {v : UInt8} (hr : r < 256^32) (hs : s < 256^32) :
    tx.withSignature signer (sigBytes r s v) = .ok { tx with
      v := if 0 < tx.extra.length then signer.signatureV v+128 else signer.signatureV v
      r := r
      s := s } := by
  rw [Transaction.withSignature, signatureValues_sigBytes hr hs]
  rfl

theorem SigningKeys.recovers {h : Hash} (hmade : K.made key h sig) :
    ∃ r s i, r < 256^32 ∧ s < 256^32 ∧ i < 2 ∧ sig = sigBytes r s (UInt8.ofNat i) ∧
      ∀ homestead, C.recoverPlain h r s ((27+i : ℕ) : ℤ) homestead = .ok (K.account key) := by
  obtain ⟨r, s, v, rfl, hvalid⟩ := K.shape key h sig hmade
  obtain ⟨hr, hs, hhalf, hv⟩ := validateSignatureValues_eq_true_iff.mp hvalid
  have hN : secp256k1N < 256^32 := by norm_num [secp256k1N]
  have hid : ∃ i < 2, v = UInt8.ofNat i := by
    rcases hv with rfl | rfl
    · exact ⟨0, by omega, rfl⟩
    · exact ⟨1, by omega, rfl⟩
  obtain ⟨i, hi, rfl⟩ := hid
  refine ⟨r, s, i, by omega, by omega, hi, rfl, ?_⟩
  intro homestead
  refine recoverPlain_eq_ok_iff.mpr ?_
  rw [Int.natAbs_natCast, ofNat_sub_27 hi]
  refine ⟨by omega, ?_, K.pubkey key, K.recover key h _ hmade, K.uncompressed key, rfl⟩
  exact validateSignatureValues_eq_true_iff.mpr ⟨hr, hs, fun _ => hhalf rfl, hv⟩

theorem signatureV_eip155 {chainId i : ℕ} (hid : chainId ≠ 0) (hi : i < 2) :
    (Signer.eip155 chainId).signatureV (UInt8.ofNat i) = 2*chainId+35+i := by
  have hlast : (UInt8.ofNat i+35).toNat = 35+i := by
    interval_cases i <;> rfl
  rw [Signer.signatureV, if_pos hid]
  omega

theorem toNat_ofNat_add_27 {i : ℕ} (hi : i < 2) : (UInt8.ofNat i+27).toNat = 27+i := by
  interval_cases i <;> rfl

def SignRoundTrip (K : C.SigningKeys Key) (signer : Signer) (tx : Transaction) (sig : Bytes)
    (key : Key) : Prop :=
  ∃ signed, tx.withSignature signer sig = .ok signed ∧ C.sender signer signed = .ok (K.account key)

theorem recoverPlain_marked_iff {h : Hash} {r s i : ℕ} {homestead : Bool} {account : Address}
    (hi : i < 2) (hplain : C.recoverPlain h r s ((27+i : ℕ) : ℤ) homestead = .ok account) :
    C.recoverPlain h r s ((if 0 < tx.extra.length then 27+i+128 else 27+i : ℕ) : ℤ) homestead =
      .ok account ↔ tx.extra = [] := by
  constructor
  · intro hok
    obtain ⟨j, hj, habs⟩ := recoverPlain_id hok
    by_contra hne
    rw [if_pos (length_pos_iff.mpr hne)] at habs
    omega
  · intro hnil
    rw [hnil]
    exact hplain

/-- Without the mark V has to stay below 129. -/
theorem sender_marked_iff {r s chainId i : ℕ} {account : Address} (hi : i < 2)
    (hplain : C.recoverPlain (C.signerHash (.eip155 chainId) tx) r s ((27+i : ℕ) : ℤ) true =
      .ok account) :
    C.sender (.eip155 chainId) { tx with
      v := if 0 < tx.extra.length then 2*chainId+35+i+128 else 2*chainId+35+i
      r := r
      s := s } = .ok account ↔ tx.extra ≠ [] ∨ chainId ≤ 46 := by
  rw [sender_eip155_iff]
  dsimp only
  by_cases hnil : tx.extra = []
  · have hlen : ¬ 0 < tx.extra.length := by
      rw [hnil]
      exact Nat.lt_irrefl 0
    rw [if_neg hlen]
    constructor
    · rintro ⟨j, hj, ⟨hv, -⟩ | ⟨hv, -⟩⟩ <;> omega
    · intro h
      have hsmall := h.resolve_left (not_not.mpr hnil)
      exact ⟨i, hi, .inr ⟨.inr ⟨rfl, hsmall⟩, hplain⟩⟩
  · rw [if_pos (length_pos_iff.mpr hnil)]
    constructor
    · intro _
      exact .inl hnil
    · intro _
      exact ⟨i, hi, .inr ⟨.inl (by omega), hplain⟩⟩

/-- The round trip holds exactly for those signers that read the mark back. -/
theorem signRoundTrip_iff (hid : signer ≠ .eip155 0)
    (hmade : K.made key (C.signerHash signer tx) sig) :
    SignRoundTrip K signer tx sig key ↔ signer.ReadsMark tx := by
  obtain ⟨r, s, i, hr, hs, hi, rfl, hplain⟩ := K.recovers hmade
  have hsigned : tx.withSignature signer (sigBytes r s (UInt8.ofNat i)) = .ok { tx with
      v := if 0 < tx.extra.length then signer.signatureV (UInt8.ofNat i)+128
        else signer.signatureV (UInt8.ofNat i)
      r := r
      s := s } := withSignature_sigBytes hr hs
  unfold SignRoundTrip
  simp only [hsigned, Except.ok.injEq, exists_eq_left']
  cases signer with
  | frontier =>
    rw [Signer.signatureV, toNat_ofNat_add_27 hi]
    exact recoverPlain_marked_iff hi (hplain false)
  | homestead =>
    rw [Signer.signatureV, toNat_ofNat_add_27 hi]
    exact recoverPlain_marked_iff hi (hplain true)
  | eip155 chainId =>
    have hpos : chainId ≠ 0 := fun hzero => hid (by rw [hzero])
    rw [signatureV_eip155 hpos hi]
    exact sender_marked_iff hi (hplain true)

def echoCrypto (signed : SigContent → Bool) : TxCrypto SigContent where
  rlpHash := id
  ecrecover := fun h sig =>
    if signed h then .ok [4, sig.getLastD 0] else .error (.error "recovery failed")
  pubAddress := fun pub => BitVec.ofNat 160 (beNat pub)

def echoKeys : (echoCrypto (fun _ => true)).SigningKeys Bool where
  made := fun key _ sig => sig = sigBytes 1 1 key.toUInt8
  pubkey := fun key => [4, key.toUInt8]
  shape := by
    intro key h sig hmade
    refine ⟨1, 1, key.toUInt8, hmade, ?_⟩
    cases key <;> decide +kernel
  recover := by
    intro key h sig hmade
    rw [hmade]
    cases key <;> rfl
  uncompressed := fun _ => rfl

/-- Extra recipients on a large chain id, none on the largest small one, and none with the older
signer. -/
theorem signRoundTrip_where_read :
    SignRoundTrip echoKeys (.eip155 1337) sampleExtendedTx (sigBytes 1 1 1) true ∧
    SignRoundTrip echoKeys (.eip155 46) sampleProtectedTx (sigBytes 1 1 1) true ∧
    SignRoundTrip echoKeys .homestead sampleProtectedTx (sigBytes 1 1 0) false :=
  ⟨(signRoundTrip_iff (by decide) rfl).mpr (.inl (by decide)),
    (signRoundTrip_iff (by decide) rfl).mpr (.inr (by decide)),
    (signRoundTrip_iff (by decide) rfl).mpr rfl⟩

/-- A plain transaction on the chain id of the development configuration, and a transaction with
extra recipients under the older signer, have no sender. -/
theorem signed_without_sender :
    echoKeys.made false
      ((echoCrypto (fun _ => true)).signerHash (.eip155 1337) sampleProtectedTx) (sigBytes 1 1 0) ∧
    ¬ SignRoundTrip echoKeys (.eip155 1337) sampleProtectedTx (sigBytes 1 1 0) false ∧
    echoKeys.made false
      ((echoCrypto (fun _ => true)).signerHash .homestead sampleExtendedTx) (sigBytes 1 1 0) ∧
    ¬ SignRoundTrip echoKeys .homestead sampleExtendedTx (sigBytes 1 1 0) false := by
  refine ⟨rfl, ?_, rfl, ?_⟩
  · rintro ⟨signed, hsigned, hok⟩
    cases hsigned
    exact absurd hok (by decide +kernel)
  · rintro ⟨signed, hsigned, hok⟩
    cases hsigned
    exact absurd hok (by decide +kernel)

end RoundTrip

section Malleability
variable {C : TxCrypto Hash} {chainId : ℕ} {tx : Transaction} {account : Address}

/-- From one hash and one pair R, S the two recovery ids lead to different accounts. -/
def RecoveryIdsDiffer (C : TxCrypto Hash) : Prop :=
  ∀ h rs pub pub', C.ecrecover h (rs ++ [0]) = .ok pub → C.ecrecover h (rs ++ [1]) = .ok pub' →
    C.pubAddress pub ≠ C.pubAddress pub'

def VDetermined (C : TxCrypto Hash) (chainId : ℕ) (tx : Transaction) (account : Address) : Prop :=
  ∀ v v', C.sender (.eip155 chainId) { tx with v := v } = .ok account →
    C.sender (.eip155 chainId) { tx with v := v' } = .ok account → v = v'

theorem recoverPlain_id_unique (hC : C.RecoveryIdsDiffer) {h : Hash} {r s i j : ℕ} (hi : i < 2)
    (hj : j < 2) (hok : C.recoverPlain h r s ((27+i : ℕ) : ℤ) true = .ok account)
    (hok' : C.recoverPlain h r s ((27+j : ℕ) : ℤ) true = .ok account) : i = j := by
  obtain ⟨-, -, pub, hpub, -, ha⟩ := recoverPlain_eq_ok_iff.mp hok
  obtain ⟨-, -, pub', hpub', -, ha'⟩ := recoverPlain_eq_ok_iff.mp hok'
  by_contra hne
  have hcases : (i = 0 ∧ j = 1) ∨ (i = 1 ∧ j = 0) := by omega
  rcases hcases with ⟨rfl, rfl⟩ | ⟨rfl, rfl⟩
  · exact hC h _ pub pub' hpub hpub' (ha.trans ha'.symm)
  · exact hC h _ pub' pub hpub' hpub (ha'.trans ha.symm)

/-- V is determined exactly if R and S are no replay-protected signature of the account, or the
chain id leaves no room for the V without the mark and the older hash is not signed as well. -/
theorem vDetermined_iff (hC : C.RecoveryIdsDiffer) :
    C.VDetermined chainId tx account ↔
      (C.SignedOver (C.signerHash (.eip155 chainId) tx) tx.r tx.s account →
        46 < chainId ∧ ¬ C.SignedOver (C.signerHash .homestead tx) tx.r tx.s account) := by
  constructor
  · rintro hdet ⟨i, hi, hok⟩
    have hmarked : C.sender (.eip155 chainId) { tx with v := 2*chainId+163+i } = .ok account :=
      sender_eip155_iff.mpr ⟨i, hi, .inr ⟨.inl rfl, hok⟩⟩
    constructor
    · by_contra hsmall
      have hplain : C.sender (.eip155 chainId) { tx with v := 2*chainId+35+i } = .ok account :=
        sender_eip155_iff.mpr ⟨i, hi, .inr ⟨.inr ⟨rfl, by omega⟩, hok⟩⟩
      have hsame := hdet _ _ hmarked hplain
      omega
    · rintro ⟨j, hj, hok'⟩
      have hold : C.sender (.eip155 chainId) { tx with v := 27+j } = .ok account :=
        sender_eip155_iff.mpr ⟨j, hj, .inl ⟨rfl, hok'⟩⟩
      have hsame := hdet _ _ hmarked hold
      omega
  · intro hcond v v' hv hv'
    obtain ⟨i, hi, hv⟩ := sender_eip155_iff.mp hv
    obtain ⟨j, hj, hv'⟩ := sender_eip155_iff.mp hv'
    rcases hv with ⟨hvi, hok⟩ | ⟨hvi, hok⟩ <;> rcases hv' with ⟨hvj, hok'⟩ | ⟨hvj, hok'⟩
    · have hid := recoverPlain_id_unique hC hi hj hok hok'
      dsimp only at hvi hvj
      omega
    · exact absurd ⟨i, hi, hok⟩ (hcond ⟨j, hj, hok'⟩).2
    · exact absurd ⟨j, hj, hok'⟩ (hcond ⟨i, hi, hok⟩).2
    · obtain ⟨hlarge, -⟩ := hcond ⟨i, hi, hok⟩
      have hid := recoverPlain_id_unique hC hi hj hok hok'
      dsimp only at hvi hvj
      omega

theorem echoCrypto_ids_differ (signed : SigContent → Bool) :
    (echoCrypto signed).RecoveryIdsDiffer := by
  intro h rs pub pub' hpub hpub'
  have hlast (c : UInt8) : (rs ++ [c]).getLastD 0 = c := getLastD_concat ..
  simp only [echoCrypto, hlast] at hpub hpub'
  split_ifs at hpub hpub'
  cases hpub
  cases hpub'
  change BitVec.ofNat 160 (beNat [4,0]) ≠ BitVec.ofNat 160 (beNat [4,1])
  decide +kernel

/-- On chain id 47 a transaction that is signed for this chain has one V. -/
theorem vDetermined_chain_47 :
    (echoCrypto (· = .eip155 sampleBody 47)).sender (.eip155 47)
      { sampleProtectedTx with v := 257 } = .ok 1024 ∧
    (echoCrypto (· = .eip155 sampleBody 47)).VDetermined 47 sampleProtectedTx 1024 := by
  refine ⟨by decide +kernel, (vDetermined_iff (echoCrypto_ids_differ _)).mpr ?_⟩
  intro _
  refine ⟨by decide, ?_⟩
  rintro ⟨i, hi, hok⟩
  interval_cases i <;> exact absurd hok (by decide +kernel)

/-- On chain id 1 the V of a signed transaction can be raised by 128. -/
theorem v_raised_by_mark :
    (echoCrypto (fun _ => true)).RecoveryIdsDiffer ∧
    (echoCrypto (fun _ => true)).sender (.eip155 1) { sampleProtectedTx with v := 37 } = .ok 1024 ∧
    (echoCrypto (fun _ => true)).sender (.eip155 1) { sampleProtectedTx with v := 165 } = .ok 1024 ∧
    ¬ (echoCrypto (fun _ => true)).VDetermined 1 sampleProtectedTx 1024 := by
  have hplain : (echoCrypto (fun _ => true)).sender (.eip155 1) { sampleProtectedTx with v := 37 } =
      .ok 1024 := by
    decide +kernel
  have hmarked : (echoCrypto (fun _ => true)).sender (.eip155 1)
      { sampleProtectedTx with v := 165 } = .ok 1024 := by
    decide +kernel
  refine ⟨echoCrypto_ids_differ _, hplain, hmarked, ?_⟩
  intro hdet
  exact absurd (hdet 37 165 hplain hmarked) (by decide)

end Malleability

end TxCrypto

end MatrixNode
