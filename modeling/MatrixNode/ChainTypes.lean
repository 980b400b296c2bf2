import MatrixNode.CommonTypes

/-! Headers of `core/types/block.go` and the topology graph of `mc/msgdef.go`. The
type of hashes is a parameter: what is proved under the assumption that a hash is
injective has a type of hashes for which the assumption can hold. -/
namespace MatrixNode

abbrev Bloom := BitVec 2048

abbrev BlockNonce := BitVec 64

def votePoolCountLimit : ℕ := 5

structure NetTopologyData where
  account : Address
  position : UInt16
  deriving DecidableEq

structure NetTopology where
  type : UInt8
  netTopologyData : List NetTopologyData
  deriving DecidableEq

structure Elect where
  account : Address
  stock : UInt16
  type : UInt8
  deriving DecidableEq

/-- The fields of a header that `HashNoSignsAndNonce` hashes: all but `Coinbase`,
`Signatures`, `MixDigest` and `Nonce`. -/
structure UnsignedHeader (Hash : Type) where
  parentHash : Hash
  uncleHash : Hash
  leader : Address
  root : Hash
  txHash : Hash
  receiptHash : Hash
  bloom : Bloom
  difficulty : ℕ
  number : ℕ
  gasLimit : UInt64
  gasUsed : UInt64
  time : ℕ
  elect : List Elect
  netTopology : NetTopology
  extra : Bytes
  version : Bytes
  deriving DecidableEq

structure Header (Hash : Type) extends UnsignedHeader Hash where
  coinbase : Address
  signatures : List Signature
  mixDigest : Hash
  nonce : BlockNonce
  deriving DecidableEq

/-- What a sample header is that says nothing else. -/
def emptyHeader {Hash : Type} [Zero Hash] : Header Hash where
  parentHash := 0
  uncleHash := 0
  leader := 0
  root := 0
  txHash := 0
  receiptHash := 0
  bloom := 0
  difficulty := 1
  number := 0
  gasLimit := 0
  gasUsed := 0
  time := 0
  elect := []
  netTopology := ⟨0, []⟩
  extra := []
  version := []
  coinbase := 0
  signatures := []
  mixDigest := 0
  nonce := 0

structure TopologyNodeInfo where
  account : Address
  position : UInt16
  type : RoleType
  stock : UInt16
  nodeNumber : UInt8
  deriving DecidableEq

structure TopologyGraph where
  number : ℕ
  nodeList : List TopologyNodeInfo
  curNodeNumber : UInt8
  deriving DecidableEq

structure ValidatorReader where
  getCurrentNumber : ℕ
  getValidatorByNumber : ℕ → Except GoLib.GoError TopologyGraph

end MatrixNode
