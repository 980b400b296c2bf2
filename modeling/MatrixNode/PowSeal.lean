import MatrixNode.BlockGenProcess
import MatrixNode.DposQuorum

/-! `VerifySeal` of `consensus/manash/consensus.go`: a proof of work for the hash of `HashNoNonce`,
which covers every field except `Coinbase`, `MixDigest` and `Nonce`. -/
namespace MatrixNode
open GoLib

def errInvalidPoW : GoError := .error "invalid proof-of-work"

def errInvalidDifficulty : GoError := .error "non-positive difficulty"

def errInvalidMixDigest : GoError := .error "invalid mix digest"

/-- `2^256`, although the source says that it is one less. -/
def maxUint256 : ℕ := 2^256

def mixWords : ℕ := 32

inductive PowMode where
  | normal
  | shared
  | test
  | fake
  | fullFake
  deriving DecidableEq

structure PowHashing (Hash : Type) where
  sealHash : UnsignedHeader Hash → List Signature → Hash
  bytes : Hash → Bytes
  keccak512 : Bytes → Bytes
  slowHashv7 : Bytes → Bytes

namespace PowHashing
variable {Hash : Type} (H : PowHashing Hash)

def hashNoNonce (header : Header Hash) : Hash := H.sealHash header.toUnsignedHeader header.signatures

def fnv (a b : UInt32) : UInt32 := a*0x01000193 ^^^ b

def leUint32 (b : Bytes) (offset : ℕ) : UInt32 :=
  UInt32.ofNat (beNat ((b.drop offset).take 4).reverse)

def lePut (len : ℕ) (n : ℕ) : Bytes := ((fixedBytes len n).take len).reverse

/-- `newPowHash`: the digest and the result of one nonce. The rows that the lookup could give are not
used. -/
def newPowHash (hash : Bytes) (nonce : BlockNonce) : Bytes × Bytes :=
  -- The seed has 40 bytes; the nonce overwrites the last eight.
  let seed := H.keccak512 ((hash ++ List.replicate 32 0).take 32 ++ lePut 8 nonce.toNat)
  let word (i : ℕ) := leUint32 seed (i%16*4)
  -- The words of the mix are folded by four.
  let mix := (List.range (mixWords/4)).map
    (fun i => fnv (fnv (fnv (word (4*i)) (word (4*i+1))) (word (4*i+2))) (word (4*i+3)))
  let digest := mix.flatMap (fun val => lePut 4 val.toNat)
  (digest, H.slowHashv7 (seed ++ digest))

def verifyWork (header : Header Hash) : Except GoError Unit := do
  if header.difficulty = 0 then throw errInvalidDifficulty
  let (digest, result) := H.newPowHash (H.bytes (H.hashNoNonce header)) header.nonce
  if H.bytes header.mixDigest ≠ digest then throw errInvalidMixDigest
  let target := maxUint256/header.difficulty
  if target < beNat result then throw errInvalidPoW

end PowHashing

inductive Ethash where
  | own (powMode : PowMode) (fakeFail : UInt64)
  | sharing (powMode : PowMode) (fakeFail : UInt64) (shared : Ethash)

namespace Ethash
variable {Hash : Type} (H : PowHashing Hash)

/-- A fake engine accepts every seal, but for one height. -/
def fakeSeal (fakeFail : UInt64) (header : Header Hash) : Except GoError Unit :=
  if fakeFail = UInt64.ofNat header.number then throw errInvalidPoW else pure ()

def isFake (powMode : PowMode) : Bool := powMode = .fake ∨ powMode = .fullFake

def verifySeal : Ethash → Header Hash → Except GoError Unit
  | own powMode fakeFail,header =>
    if isFake powMode then fakeSeal fakeFail header else H.verifyWork header
  | sharing powMode fakeFail shared,header =>
    if isFake powMode then fakeSeal fakeFail header else shared.verifySeal header

theorem verifySeal_coinbase (E : Ethash) (header : Header Hash) (coinbase : Address) :
    E.verifySeal H { header with coinbase := coinbase } = E.verifySeal H header := by
  induction E with
  | own powMode fakeFail => rfl
  | sharing powMode fakeFail shared ih =>
    unfold verifySeal
    rw [ih]
    rfl

end Ethash

section Resubmission
variable {Hash : Type} {D : DposEngine Hash} {H : PowHashing Hash} {E : Ethash}

/-- A header that passes both checks passes them under every other `Coinbase`. -/
theorem sealed_header_accepts_any_coinbase {reader : ValidatorReader} {O : DposOrders}
    {header : Header Hash} (hblock : D.verifyBlock reader header O = .ok ())
    (hseal : E.verifySeal H header = .ok ()) (coinbase : Address) :
    D.verifyBlock reader { header with coinbase := coinbase } O = .ok () ∧
      E.verifySeal H { header with coinbase := coinbase } = .ok () := by
  constructor
  · exact hblock
  · rw [E.verifySeal_coinbase, hseal]

end Resubmission

section Sample

/-- Hashes that are nothing but what was hashed. -/
inductive IdealHash where
  | digest (n : ℕ)
  | header (fields : UnsignedHeader IdealHash)
  | work (fields : UnsignedHeader IdealHash) (signatures : List Signature)

def idealEngine : DposEngine IdealHash where
  headerHash := .header
  recover := fun _ sign => some (sign.setWidth 160, true)
  broadCastNodes := []

def idealReader : ValidatorReader :=
  ⟨0, fun _ => .ok ⟨0, [⟨1, 0, .validator, 1, 0⟩, ⟨2, 1, .validator, 1, 0⟩, ⟨3, 2, .validator, 1, 0⟩], 0⟩⟩

def idealHashing : PowHashing IdealHash where
  sealHash := .work
  bytes := fun
    | .digest n => fixedBytes 32 n
    | _ => []
  keccak512 := fun _ => []
  slowHashv7 := fun _ => []

def minedHeader : Header IdealHash :=
  ⟨⟨.digest 0, .digest 0, 1, .digest 0, .digest 0, .digest 0, 0, 1, 1, 0, 0, 0, [], ⟨0, []⟩, [], []⟩,
    9, [1,2,3], .digest 0, 0⟩

theorem minedHeader_verified (O : DposOrders) :
    idealEngine.verifyBlock idealReader minedHeader O = .ok () := by
  rw [DposEngine.verifyBlock_eq_ok_iff (by decide)]
  refine ⟨_, rfl, by decide +kernel, Finset.filter_subset _ _, ?_⟩
  decide +kernel

theorem minedHeader_sealed : (Ethash.own .normal 0).verifySeal idealHashing minedHeader = .ok () := by
  decide +kernel

theorem sealed_header_accepts_coinbase_seven :
    idealEngine.verifyBlock idealReader { minedHeader with coinbase := 7 } default = .ok () ∧
      (Ethash.own .normal 0).verifySeal idealHashing { minedHeader with coinbase := 7 } = .ok () :=
  sealed_header_accepts_any_coinbase (minedHeader_verified default) minedHeader_sealed 7

/-- The work of account 9 is claimed by account 8: both hashes are injective, and neither covers it. -/
theorem mined_by_nine_claimed_by_eight :
    Function.Injective idealEngine.headerHash ∧
    (∀ header header' : Header IdealHash,
      idealHashing.hashNoNonce header = idealHashing.hashNoNonce header' →
        header.toUnsignedHeader = header'.toUnsignedHeader ∧ header.signatures = header'.signatures) ∧
    minedHeader.coinbase = 9 ∧
    idealEngine.verifyBlock idealReader minedHeader default = .ok () ∧
    (Ethash.own .normal 0).verifySeal idealHashing minedHeader = .ok () ∧
    idealEngine.verifyBlock idealReader { minedHeader with coinbase := 8 } default = .ok () ∧
    (Ethash.own .normal 0).verifySeal idealHashing { minedHeader with coinbase := 8 } = .ok () := by
  refine ⟨?_, ?_, rfl, minedHeader_verified default, minedHeader_sealed, minedHeader_verified default,
    by decide +kernel⟩
  · intro fields fields' heq
    exact IdealHash.header.inj heq
  · intro header header' heq
    exact IdealHash.work.inj heq

end Sample

end MatrixNode
