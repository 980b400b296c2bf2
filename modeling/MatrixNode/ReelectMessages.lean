import MatrixNode.ChainTypes
import MatrixNode.RlpEncode

/-! The re-election and online-consensus messages of `mc/msgdef.go`, what reflection
shows the RLP encoder of them, and the hashes that votes on them are made over. -/
namespace MatrixNode
open GoLib

structure BlkConsensusReqMsg (Hash : Type) where
  fromAccount : Address
  header : Option (Header Hash)
  consensusTurn : UInt32
  txsCode : List UInt32
  deriving DecidableEq

structure ReelectInquiryReqMsg where
  number : ℕ
  consensusTurn : UInt32
  reelectTurn : UInt32
  timeStamp : ℤ
  master : Address
  fromAccount : Address
  deriving DecidableEq

inductive ReelectRSPType where
  | none
  | pos
  | alreadyRL
  | agree
  | newBlockReady
  deriving DecidableEq

structure ReelectLeaderReqMsg where
  inquiryReq : Option ReelectInquiryReqMsg
  agreeSigns : List Signature
  timeStamp : ℤ
  deriving DecidableEq

structure ReelectLeaderConsensus where
  req : Option ReelectLeaderReqMsg
  votes : List Signature
  timeStamp : ℤ
  deriving DecidableEq

structure ReelectResultBroadcastMsg (Hash : Type) where
  number : ℕ
  type : ReelectRSPType
  posResult : Option (BlkConsensusReqMsg Hash)
  rlResult : Option ReelectLeaderConsensus
  timeStamp : ℤ
  fromAccount : Address
  deriving DecidableEq

structure OnlineConsensusReq where
  leader : Address
  seq : ℕ
  node : Address
  onlineState : ℤ
  deriving DecidableEq

structure BlockPOSFinishedNotify (Hash : Type) where
  number : ℕ
  header : Header Hash
  consensusTurn : UInt32
  txsCode : List UInt32

inductive RecoveryType where
  | pos
  | fullHeader
  deriving DecidableEq

structure RecoveryStateMsg (Hash : Type) where
  type : RecoveryType
  header : Header Hash
  fromAccount : Address
  deriving DecidableEq

section Reflect

def reflectArray (len n : ℕ) : GoVal := .byteArray len (fixedBytes len n)

def reflectBig (n : ℕ) : GoVal := .ptr .bigInt (some (.bigInt n))

def byteArrayType (len : ℕ) : GoType := .array len (.uint 8)

def Elect.reflect (e : Elect) : GoVal :=
  .struct [reflectArray 20 e.account.toNat, .uint 16 e.stock.toNat, .uint 8 e.type.toNat]

def NetTopologyData.reflect (d : NetTopologyData) : GoVal :=
  .struct [reflectArray 20 d.account.toNat, .uint 16 d.position.toNat]

def NetTopology.reflect (t : NetTopology) : GoVal :=
  .struct [.uint 8 t.type.toNat,
    .slice (.struct [byteArrayType 20, .uint 16]) (t.netTopologyData.map NetTopologyData.reflect)]

def reflectSigns (signs : List Signature) : GoVal :=
  .slice (byteArrayType 65) (signs.map fun s => reflectArray 65 s.toNat)

def Header.reflect (h : Header (BitVec 256)) : GoVal :=
  .struct [
    reflectArray 32 h.parentHash.toNat, reflectArray 32 h.uncleHash.toNat,
    reflectArray 20 h.leader.toNat, reflectArray 20 h.coinbase.toNat,
    reflectArray 32 h.root.toNat, reflectArray 32 h.txHash.toNat,
    reflectArray 32 h.receiptHash.toNat, reflectArray 256 h.bloom.toNat,
    reflectBig h.difficulty, reflectBig h.number,
    .uint 64 h.gasLimit.toNat, .uint 64 h.gasUsed.toNat, reflectBig h.time,
    .slice (.struct [byteArrayType 20, .uint 16, .uint 8]) (h.elect.map Elect.reflect),
    h.netTopology.reflect, reflectSigns h.signatures,
    .bytes h.extra, reflectArray 32 h.mixDigest.toNat, reflectArray 8 h.nonce.toNat,
    .bytes h.version]

def headerType : GoType :=
  .struct [
    byteArrayType 32, byteArrayType 32, byteArrayType 20, byteArrayType 20,
    byteArrayType 32, byteArrayType 32, byteArrayType 32, byteArrayType 256,
    .ptr .bigInt, .ptr .bigInt, .uint 64, .uint 64, .ptr .bigInt,
    .slice (.struct [byteArrayType 20, .uint 16, .uint 8]),
    .struct [.uint 8, .slice (.struct [byteArrayType 20, .uint 16])],
    .slice (byteArrayType 65),
    .slice (.uint 8), byteArrayType 32, byteArrayType 8, .slice (.uint 8)]

def BlkConsensusReqMsg.reflect (m : BlkConsensusReqMsg (BitVec 256)) : GoVal :=
  .struct [reflectArray 20 m.fromAccount.toNat, .ptr headerType (m.header.map Header.reflect),
    .uint 32 m.consensusTurn.toNat, .slice (.uint 32) (m.txsCode.map fun c => .uint 32 c.toNat)]

def blkConsensusReqType : GoType :=
  .struct [byteArrayType 20, .ptr headerType, .uint 32, .slice (.uint 32)]

def ReelectInquiryReqMsg.reflect (m : ReelectInquiryReqMsg) : GoVal :=
  .struct [.uint 64 m.number, .uint 32 m.consensusTurn.toNat, .uint 32 m.reelectTurn.toNat,
    .int "int64" m.timeStamp, reflectArray 20 m.master.toNat, reflectArray 20 m.fromAccount.toNat]

def inquiryReqType : GoType :=
  .struct [.uint 64, .uint 32, .uint 32, .int "int64", byteArrayType 20, byteArrayType 20]

def ReelectLeaderReqMsg.reflect (m : ReelectLeaderReqMsg) : GoVal :=
  .struct [.ptr inquiryReqType (m.inquiryReq.map ReelectInquiryReqMsg.reflect),
    reflectSigns m.agreeSigns, .int "int64" m.timeStamp]

def leaderReqType : GoType := .struct [.ptr inquiryReqType, .slice (byteArrayType 65), .int "int64"]

def ReelectLeaderConsensus.reflect (m : ReelectLeaderConsensus) : GoVal :=
  .struct [.ptr leaderReqType (m.req.map ReelectLeaderReqMsg.reflect), reflectSigns m.votes,
    .int "int64" m.timeStamp]

def leaderConsensusType : GoType :=
  .struct [.ptr leaderReqType, .slice (byteArrayType 65), .int "int64"]

def ReelectRSPType.toNat : ReelectRSPType → ℕ
  | .none => 0
  | .pos => 1
  | .alreadyRL => 2
  | .agree => 3
  | .newBlockReady => 4

def ReelectResultBroadcastMsg.reflect (m : ReelectResultBroadcastMsg (BitVec 256)) : GoVal :=
  .struct [.uint 64 m.number, .uint 8 m.type.toNat,
    .ptr blkConsensusReqType (m.posResult.map BlkConsensusReqMsg.reflect),
    .ptr leaderConsensusType (m.rlResult.map ReelectLeaderConsensus.reflect),
    .int "int64" m.timeStamp, reflectArray 20 m.fromAccount.toNat]

def resultBroadcastType : GoType :=
  .struct [.uint 64, .uint 8, .ptr blkConsensusReqType, .ptr leaderConsensusType, .int "int64",
    byteArrayType 20]

def OnlineConsensusReq.reflect (m : OnlineConsensusReq) : GoVal :=
  .struct [reflectArray 20 m.leader.toNat, .uint 64 m.seq, reflectArray 20 m.node.toNat,
    .int "int" m.onlineState]

def onlineConsensusReqType : GoType :=
  .struct [byteArrayType 20, .uint 64, byteArrayType 20, .int "int"]

end Reflect

section Hash
variable {Hash : Type} (keccak256 : Bytes → Hash)

def rlpHashPtr (v : GoVal) : Hash := rlpHash keccak256 (.ptr v.typeOf (some v))

def ReelectInquiryReqMsg.rlpHash (m : ReelectInquiryReqMsg) : Hash := rlpHashPtr keccak256 m.reflect

def ReelectLeaderReqMsg.rlpHash (m : ReelectLeaderReqMsg) : Hash := rlpHashPtr keccak256 m.reflect

def ReelectResultBroadcastMsg.rlpHash (m : ReelectResultBroadcastMsg (BitVec 256)) : Hash :=
  rlpHashPtr keccak256 m.reflect

def OnlineConsensusReq.rlpHash (m : OnlineConsensusReq) : Hash := rlpHashPtr keccak256 m.reflect

theorem rlpHashPtr_of_int_field {v : GoVal} {fields : List GoType} (hv : v.typeOf = .struct fields)
    (name : String) (h : GoType.int name ∈ fields) : rlpHashPtr keccak256 v = keccak256 [] := by
  apply rlpHash_of_not_serializable
  rw [GoVal.typeOf, serializable_ptr_iff, hv, serializable_struct_iff]
  intro hall
  exact not_serializable_int name (hall _ h)

theorem ReelectInquiryReqMsg.rlpHash_eq (m : ReelectInquiryReqMsg) :
    m.rlpHash keccak256 = keccak256 [] := by
  have ht : m.reflect.typeOf = inquiryReqType := rfl
  exact rlpHashPtr_of_int_field keccak256 ht "int64" (by simp)

theorem ReelectLeaderReqMsg.rlpHash_eq (m : ReelectLeaderReqMsg) :
    m.rlpHash keccak256 = keccak256 [] := by
  have ht : m.reflect.typeOf = leaderReqType := rfl
  exact rlpHashPtr_of_int_field keccak256 ht "int64" (by simp)

theorem ReelectResultBroadcastMsg.rlpHash_eq (m : ReelectResultBroadcastMsg (BitVec 256)) :
    m.rlpHash keccak256 = keccak256 [] := by
  have ht : m.reflect.typeOf = resultBroadcastType := rfl
  exact rlpHashPtr_of_int_field keccak256 ht "int64" (by simp)

theorem OnlineConsensusReq.rlpHash_eq (m : OnlineConsensusReq) :
    m.rlpHash keccak256 = keccak256 [] := by
  have ht : m.reflect.typeOf = onlineConsensusReqType := rfl
  exact rlpHashPtr_of_int_field keccak256 ht "int" (by simp)

def HashSeparates {M : Type} (hash : M → Hash) (a b : M) : Prop := hash a = hash b → a = b

theorem hashSeparates_iff_of_const {M : Type} {hash : M → Hash} {h : Hash}
    (hc : ∀ m, hash m = h) (a b : M) : HashSeparates hash a b ↔ a = b :=
  ⟨fun hs => hs ((hc a).trans (hc b).symm), fun hab _ => hab⟩

/-- No two different messages of any of the four types are told apart by their hash,
whatever the hash function. -/
theorem reelect_rlpHash_separates_iff :
    (∀ a b : ReelectInquiryReqMsg,
      HashSeparates (ReelectInquiryReqMsg.rlpHash keccak256) a b ↔ a = b) ∧
    (∀ a b : ReelectLeaderReqMsg,
      HashSeparates (ReelectLeaderReqMsg.rlpHash keccak256) a b ↔ a = b) ∧
    (∀ a b : ReelectResultBroadcastMsg (BitVec 256),
      HashSeparates (ReelectResultBroadcastMsg.rlpHash keccak256) a b ↔ a = b) ∧
    (∀ a b : OnlineConsensusReq,
      HashSeparates (OnlineConsensusReq.rlpHash keccak256) a b ↔ a = b) :=
  ⟨hashSeparates_iff_of_const (ReelectInquiryReqMsg.rlpHash_eq keccak256),
    hashSeparates_iff_of_const (ReelectLeaderReqMsg.rlpHash_eq keccak256),
    hashSeparates_iff_of_const (ReelectResultBroadcastMsg.rlpHash_eq keccak256),
    hashSeparates_iff_of_const (OnlineConsensusReq.rlpHash_eq keccak256)⟩

/-- Under the identity as the hash, two inquiries for different masters at
different heights have one hash. -/
theorem reelect_rlpHash_collision :
    Function.Injective (id : Bytes → Bytes) ∧
    ¬ HashSeparates (ReelectInquiryReqMsg.rlpHash (id : Bytes → Bytes))
      ⟨7, 0, 1, 0, 11, 11⟩ ⟨8, 0, 1, 0, 12, 12⟩ := by
  refine ⟨Function.injective_id, fun h => ?_⟩
  have heq := h (by rw [ReelectInquiryReqMsg.rlpHash_eq, ReelectInquiryReqMsg.rlpHash_eq])
  cases heq

end Hash

end MatrixNode
