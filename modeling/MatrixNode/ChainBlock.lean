import MatrixNode.ChainTypes

/-! Blocks of `core/types/block.go` and the checks of `core/block_validator.go` that a
block passes on import. -/
namespace MatrixNode
open GoLib

structure Block (Hash Tx : Type) where
  header : Header Hash
  transactions : List Tx
  uncles : List (Header Hash)

/-- Roots and blooms of lists. `DeriveSha` only sees the encodings of its list, and the
bloom of a list is made of those of the logs. -/
structure BlockHashing (Hash Tx Receipt : Type) where
  trieRoot : List Bytes → Hash
  txRlp : Tx → Bytes
  receiptRlp : Receipt → Bytes
  logsBloom : Receipt → Bloom
  calcUncleHash : List (Header Hash) → Hash

namespace BlockHashing
variable {Hash Tx Receipt : Type} (H : BlockHashing Hash Tx Receipt)

def deriveShaTxs (txs : List Tx) : Hash := H.trieRoot (txs.map H.txRlp)

def deriveShaReceipts (receipts : List Receipt) : Hash := H.trieRoot (receipts.map H.receiptRlp)

def createBloom (receipts : List Receipt) : Bloom :=
  receipts.foldl (fun bin receipt => bin ||| H.logsBloom receipt) 0

def emptyRootHash : Hash := H.deriveShaTxs []

def emptyUncleHash : Hash := H.calcUncleHash []

/-- `NewBlock` works on a copy of its header. Without receipts the bloom is left as the
header has it. -/
def newBlock (header : Header Hash) (txs : List Tx) (uncles : List (Header Hash))
    (receipts : List Receipt) : Block Hash Tx :=
  let header := { header with
    txHash := if txs.length = 0 then H.emptyRootHash else H.deriveShaTxs txs }
  let header :=
    if receipts.length = 0 then { header with receiptHash := H.emptyRootHash }
    else { header with
      receiptHash := H.deriveShaReceipts receipts, bloom := H.createBloom receipts }
  let header := { header with
    uncleHash := if uncles.length = 0 then H.emptyUncleHash else H.calcUncleHash uncles }
  ⟨header, txs, uncles⟩

def newBlockWithTxs (header : Header Hash) (txs : List Tx) : Block Hash Tx :=
  ⟨{ header with txHash := if txs.length = 0 then H.emptyRootHash else H.deriveShaTxs txs },
    txs, []⟩

variable [DecidableEq Hash]

def validateTxRoot (block : Block Hash Tx) : Except GoError Unit :=
  if H.deriveShaTxs block.transactions ≠ block.header.txHash then
    .error (.error "transaction root hash mismatch")
  else .ok ()

def validateState (block : Block Hash Tx) (root : Hash) (receipts : List Receipt)
    (usedGas : UInt64) : Except GoError Unit :=
  if block.header.gasUsed ≠ usedGas then
    .error (.error ("invalid gas used (remote: " ++ toString block.header.gasUsed ++ " local: " ++
      toString usedGas ++ ")"))
  else if H.createBloom receipts ≠ block.header.bloom then .error (.error "invalid bloom")
  else if H.deriveShaReceipts receipts ≠ block.header.receiptHash then
    .error (.error "invalid receipt root hash")
  else if block.header.root ≠ root then .error (.error "invalid merkle root")
  else .ok ()

end BlockHashing

namespace BlockHashing
variable {Hash Tx Receipt : Type} (H : BlockHashing Hash Tx Receipt)

theorem newBlockWithTxs_txHash (header : Header Hash) (txs : List Tx) :
    (H.newBlockWithTxs header txs).header.txHash = H.deriveShaTxs txs := by
  cases txs <;> rfl

theorem newBlockWithTxs_header {header : Header Hash} {txs : List Tx}
    (h : header.txHash = H.deriveShaTxs txs) : (H.newBlockWithTxs header txs).header = header := by
  have htx := H.newBlockWithTxs_txHash header txs
  unfold newBlockWithTxs at htx ⊢
  dsimp only at htx ⊢
  rw [htx, ← h]

variable [DecidableEq Hash]

theorem validateTxRoot_eq_ok_iff (block : Block Hash Tx) :
    H.validateTxRoot block = .ok () ↔ block.header.txHash = H.deriveShaTxs block.transactions := by
  unfold validateTxRoot
  rw [ite_error_eq_ok]
  simp [eq_comm]

theorem validateState_eq_ok_iff (block : Block Hash Tx) (root : Hash) (receipts : List Receipt)
    (usedGas : UInt64) :
    H.validateState block root receipts usedGas = .ok () ↔
      block.header.gasUsed = usedGas ∧ block.header.bloom = H.createBloom receipts ∧
      block.header.receiptHash = H.deriveShaReceipts receipts ∧ block.header.root = root := by
  unfold validateState
  simp only [ite_error_eq_ok, not_not, and_true]
  rw [eq_comm (a := H.createBloom receipts), eq_comm (a := H.deriveShaReceipts receipts)]

end BlockHashing

end MatrixNode
