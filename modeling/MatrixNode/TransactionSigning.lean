import MatrixNode.CryptoSign

/-! `core/types/transaction.go` and `transaction_signing.go`: transactions with a list
of extra recipients, and the signers that recover a sender from V, R and S. -/
namespace MatrixNode
open GoLib

structure TxTo where
  recipient : Option Address
  amount : ℕ
  payload : Bytes
  deriving DecidableEq

structure MatrixExtra where
  txType : UInt8
  lockHeight : UInt64
  extraTo : List TxTo
  deriving DecidableEq

structure TxBody where
  accountNonce : UInt64
  price : ℕ
  gasLimit : UInt64
  recipient : Option Address
  amount : ℕ
  payload : Bytes
  deriving DecidableEq

structure TxContent extends TxBody where
  extra : List MatrixExtra
  deriving DecidableEq

structure Transaction extends TxContent where
  v : ℕ
  r : ℕ
  s : ℕ
  deriving DecidableEq

/-- The three lists that the signers hash; their lengths 6, 9 and 10 tell them apart. -/
inductive SigContent where
  | frontier (body : TxBody)
  | eip155 (body : TxBody) (chainId : ℕ)
  | eip155Extra (body : TxBody) (extra : List MatrixExtra) (chainId : ℕ)
  deriving DecidableEq

def errInvalidSig : GoError := .error "invalid transaction v, r, s values"

def errInvalidChainId : GoError := .error "invalid chain id for signer"

def secp256k1halfN : ℕ := secp256k1N/2

def isProtectedV (v : ℕ) : Bool :=
  if Nat.size v ≤ 8 then v != 27 && v != 28 else true

def deriveChainId1 (v : ℕ) : ℕ :=
  if Nat.size v ≤ 64 then
    -- The subtraction is one of 64-bit numbers.
    if v = 27 ∨ v = 28 then 0 else (v+2^64-35)%2^64/2
  else (v-35)/2

def deriveChainId (v : ℕ) : ℕ := deriveChainId1 (if 128 < v then v-128 else v)

def validateSignatureValues (v : UInt8) (r s : ℕ) (homestead : Bool) : Bool :=
  if r < 1 || s < 1 then false
  else if homestead && secp256k1halfN < s then false
  else r < secp256k1N && s < secp256k1N && (v == 0 || v == 1)

structure TxCrypto (Hash : Type) where
  rlpHash : SigContent → Hash
  ecrecover : Hash → Bytes → Except GoError Bytes
  pubAddress : Bytes → Address

inductive Signer where
  | frontier
  | homestead
  | eip155 (chainId : ℕ)
  deriving DecidableEq

namespace TxCrypto
variable {Hash : Type} (C : TxCrypto Hash)

def sigContent (tx : Transaction) : Signer → SigContent
  | .frontier | .homestead => .frontier tx.toTxBody
  | .eip155 chainId =>
    if 0 < tx.extra.length then .eip155Extra tx.toTxBody tx.extra chainId
    else .eip155 tx.toTxBody chainId

def signerHash (signer : Signer) (tx : Transaction) : Hash := C.rlpHash (sigContent tx signer)

/-- `Uint64` of a negative number is that of its absolute value. -/
def recoverPlain (sighash : Hash) (r s : ℕ) (vb : ℤ) (homestead : Bool) :
    Except GoError Address := do
  if 8 < Nat.size vb.natAbs then
    throw errInvalidSig
  let v := UInt8.ofNat vb.natAbs-27
  if validateSignatureValues v r s homestead = false then
    throw errInvalidSig
  let pub ← C.ecrecover sighash (fixedBytes 32 r ++ fixedBytes 32 s ++ [v])
  if pub.head? ≠ some 4 then
    throw (.error "invalid public key")
  pure (C.pubAddress pub)

/-- V without the extra mark and the chain id; it can become negative. -/
def plainV (chainId v : ℕ) : ℤ := (if 128 < v then v-128 else v : ℕ)-2*(chainId : ℤ)-8

/-- The signers' `Sender`. An unprotected transaction falls through to the homestead
signer, whatever its extra recipients. -/
def sender (signer : Signer) (tx : Transaction) : Except GoError Address :=
  match signer with
  | .frontier => C.recoverPlain (C.signerHash .frontier tx) tx.r tx.s tx.v false
  | .homestead => C.recoverPlain (C.signerHash .homestead tx) tx.r tx.s tx.v true
  | .eip155 chainId =>
    if isProtectedV tx.v = false then
      -- The hash of this branch leaves out the extra recipients.
      C.recoverPlain (C.signerHash .homestead tx) tx.r tx.s tx.v true
    else if deriveChainId tx.v ≠ chainId then
      throw errInvalidChainId
    else
      C.recoverPlain (C.signerHash (.eip155 chainId) tx) tx.r tx.s (plainV chainId tx.v) true

/-- Distinct signing lists have distinct hashes, and one signature does not recover
one account from two hashes. -/
structure SignatureBinds : Prop where
  rlpHash_injective : Function.Injective C.rlpHash
  recover_binds : ∀ (h h' : Hash) (sig pub pub' : Bytes), C.ecrecover h sig = .ok pub →
    C.ecrecover h' sig = .ok pub' → C.pubAddress pub = C.pubAddress pub' → h = h'

def SignatureFixesContent (signer : Signer) (tx : Transaction) (account : Address) : Prop :=
  ∀ tx' : Transaction, tx'.v = tx.v → tx'.r = tx.r → tx'.s = tx.s →
    C.sender signer tx' = .ok account → tx'.toTxContent = tx.toTxContent

theorem isProtectedV_eq_false_iff (v : ℕ) : isProtectedV v = false ↔ v = 27 ∨ v = 28 := by
  unfold isProtectedV
  split_ifs with hs
  · rw [← Bool.not_eq_true, Bool.and_eq_true, bne_iff_ne, bne_iff_ne]
    omega
  · rw [Nat.size_le] at hs
    simp only [false_iff]
    omega

variable {C}

variable {account : Address} {homestead : Bool}

theorem recoverPlain_eq_ok_iff {sighash : Hash} {r s : ℕ} {vb : ℤ} :
    C.recoverPlain sighash r s vb homestead = .ok account ↔
      vb.natAbs < 256 ∧ validateSignatureValues (UInt8.ofNat vb.natAbs-27) r s homestead = true ∧
      ∃ pub, C.ecrecover sighash
          (fixedBytes 32 r ++ fixedBytes 32 s ++ [UInt8.ofNat vb.natAbs-27]) = .ok pub ∧
        pub.head? = some 4 ∧ C.pubAddress pub = account := by
  have hsize : ¬ 8 < Nat.size vb.natAbs ↔ vb.natAbs < 256 := by
    rw [not_lt, Nat.size_le]
  simp only [recoverPlain, throw_eq_error, error_bind, ite_error_eq_ok, bind_eq_ok_iff, pure_eq_ok,
    Except.ok.injEq, hsize, Bool.not_eq_false, not_not, ne_eq]

theorem recoverPlain_binds (hC : C.SignatureBinds) {h h' : Hash} {r s : ℕ} {vb : ℤ}
    (hok : C.recoverPlain h r s vb homestead = .ok account)
    (hok' : C.recoverPlain h' r s vb homestead = .ok account) : h = h' := by
  obtain ⟨-, -, pub, hpub, -, ha⟩ := recoverPlain_eq_ok_iff.mp hok
  obtain ⟨-, -, pub', hpub', -, ha'⟩ := recoverPlain_eq_ok_iff.mp hok'
  exact hC.recover_binds h h' _ pub pub' hpub hpub' (ha.trans ha'.symm)

theorem content_ext {c c' : TxContent} (hb : c.toTxBody = c'.toTxBody) (he : c.extra = c'.extra) :
    c = c' := by
  cases c
  cases c'
  cases hb
  cases he
  rfl

theorem content_eq_of_sigContent_eq {tx tx' : Transaction} {chainId : ℕ}
    (h : sigContent tx (.eip155 chainId) = sigContent tx' (.eip155 chainId)) :
    tx.toTxContent = tx'.toTxContent := by
  have hnil (t : Transaction) (ht : ¬ 0 < t.extra.length) : t.extra = [] :=
    List.length_eq_zero_iff.mp (by omega)
  simp only [sigContent] at h
  split_ifs at h with h1 h2 h3
  · injection h with hb he
    exact content_ext hb he
  · injection h with hb
    exact content_ext hb ((hnil tx h1).trans (hnil tx' h3).symm)

section EIP155
variable {tx tx' : Transaction} {chainId : ℕ} {account : Address}

theorem sender_protected (hv : isProtectedV tx.v = true)
    (h : C.sender (.eip155 chainId) tx = .ok account) :
    C.recoverPlain (C.signerHash (.eip155 chainId) tx) tx.r tx.s (plainV chainId tx.v) true =
      .ok account := by
  simp only [sender, hv, Bool.true_eq_false, if_false, throw_eq_error, ite_error_eq_ok] at h
  exact h.2

theorem sender_unprotected (hv : isProtectedV tx.v = false) (extra : List MatrixExtra) :
    C.sender (.eip155 chainId) { tx with extra := extra } = C.sender (.eip155 chainId) tx := by
  simp only [sender, hv, if_true]
  rfl

theorem signatureFixesContent_of_protected (hC : C.SignatureBinds)
    (h : C.sender (.eip155 chainId) tx = .ok account) (hv : isProtectedV tx.v = true) :
    C.SignatureFixesContent (.eip155 chainId) tx account := by
  intro tx' hv' hr hs h'
  have hok := sender_protected hv h
  have hok' := sender_protected (by rwa [hv']) h'
  rw [hv', hr, hs] at hok'
  have hhash := recoverPlain_binds hC hok' hok
  exact content_eq_of_sigContent_eq (hC.rlpHash_injective hhash)

/-- A signature fixes what its transaction executes exactly when it is replay
protected: the older hash leaves the extra recipients out. -/
theorem signatureFixesContent_iff (hC : C.SignatureBinds)
    (h : C.sender (.eip155 chainId) tx = .ok account) :
    C.SignatureFixesContent (.eip155 chainId) tx account ↔ tx.v ≠ 27 ∧ tx.v ≠ 28 := by
  have hprot : isProtectedV tx.v = true ↔ tx.v ≠ 27 ∧ tx.v ≠ 28 := by
    rw [← not_or, ← isProtectedV_eq_false_iff, Bool.not_eq_false]
  rw [← hprot]
  constructor
  · intro hfix
    by_contra hv
    rw [Bool.not_eq_true] at hv
    have hsame := hfix { tx with extra := ⟨0, 0, []⟩ :: tx.extra } rfl rfl rfl
      ((sender_unprotected hv _).trans h)
    have hlen := congrArg (fun c : TxContent => c.extra.length) hsame
    simp at hlen
  · exact signatureFixesContent_of_protected hC h

end EIP155

def sampleTxCrypto (signed : SigContent) : TxCrypto SigContent where
  rlpHash := id
  ecrecover := fun h _ => if h = signed then .ok [4] else .error (.error "recovery failed")
  pubAddress := fun _ => 77

theorem sampleTxCrypto_binds (signed : SigContent) : (sampleTxCrypto signed).SignatureBinds := by
  refine ⟨Function.injective_id, fun h h' sig pub pub' hp hp' _ => ?_⟩
  simp only [sampleTxCrypto] at hp hp'
  split_ifs at hp hp' with he he'
  exact he.trans he'.symm

def sampleBody : TxBody := ⟨1, 1, 21000, some 5, 10, []⟩

def sampleProtectedTx : Transaction := { sampleBody with extra := [], v := 37, r := 1, s := 1 }

def sampleUnprotectedTx : Transaction := { sampleBody with extra := [], v := 27, r := 1, s := 1 }

def sampleExtendedTx : Transaction :=
  { sampleUnprotectedTx with extra := [⟨0, 0, [⟨some 6, 1000, []⟩]⟩] }

theorem signatureFixesContent_chain_one :
    (sampleTxCrypto (.eip155 sampleBody 1)).SignatureFixesContent (.eip155 1) sampleProtectedTx 77 := by
  have hok : (sampleTxCrypto (.eip155 sampleBody 1)).sender (.eip155 1) sampleProtectedTx = .ok 77 := by
    decide +kernel
  exact (signatureFixesContent_iff (sampleTxCrypto_binds _) hok).mpr (by decide)

/-- Two accepted transactions share V, R, S and sender, and one of them pays another
account. -/
theorem unprotected_signature_reused :
    (sampleTxCrypto (.frontier sampleBody)).SignatureBinds ∧
    (sampleTxCrypto (.frontier sampleBody)).sender (.eip155 1) sampleUnprotectedTx = .ok 77 ∧
    (sampleTxCrypto (.frontier sampleBody)).sender (.eip155 1) sampleExtendedTx = .ok 77 ∧
    sampleExtendedTx.toTxContent ≠ sampleUnprotectedTx.toTxContent :=
  ⟨sampleTxCrypto_binds _, by decide +kernel, by decide +kernel, by decide⟩

end TxCrypto

end MatrixNode
