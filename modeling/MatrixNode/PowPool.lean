import MatrixNode.ChainTypes
import MatrixNode.GoMap

/-! `blockgenor/pow_pool.go`: the mining results of a height, by block hash, difficulty and
sender, with a limit on how many a sender may have there. -/
namespace MatrixNode
open GoLib

structure MiningRspMsg (Hash : Type) where
  fromAccount : Address
  number : ℕ
  blockHash : Hash
  difficulty : ℤ
  nonce : BlockNonce
  coinbase : Address
  mixDigest : Hash
  signatures : List Signature
  deriving DecidableEq

structure PowPool (Hash : Type) where
  powMap : GoMap Hash (GoMap (BitVec 256) (GoMap Address (MiningRspMsg Hash)))
  countMap : GoMap Address ℕ
  countLimit : ℕ

/-- The key of a difficulty; `big.Int.Bytes` drops the sign. -/
def powDiffHash (diff : ℤ) : BitVec 256 := bytesToHash (beBytes diff.natAbs)

def newPowPool {Hash : Type} : PowPool Hash := ⟨∅, ∅, votePoolCountLimit⟩

namespace PowPool
variable {Hash : Type} (pool : PowPool Hash)

def getFromCount (address : Address) : ℕ := (pool.countMap.lookup address).getD 0

def minusFromCount (address : Address) : PowPool Hash :=
  match pool.countMap.lookup address with
  | none => pool
  | some count => { pool with countMap := pool.countMap.insert address (count-1) }

variable [DecidableEq Hash]

def fromMap (blockHash : Hash) (diff : ℤ) : GoMap Address (MiningRspMsg Hash) :=
  (((pool.powMap.lookup blockHash).getD ∅).lookup (powDiffHash diff)).getD ∅

def setFromMap (blockHash : Hash) (diff : ℤ) (m : GoMap Address (MiningRspMsg Hash)) :
    PowPool Hash :=
  { pool with
    powMap := pool.powMap.insert blockHash
      (((pool.powMap.lookup blockHash).getD ∅).insert (powDiffHash diff) m) }

def addMinerResult (blockHash : Hash) (diff : ℤ) (minerResult : MiningRspMsg Hash) :
    Except GoError (PowPool Hash) :=
  let account := minerResult.fromAccount
  if pool.countLimit ≤ pool.getFromCount account then
    .error (.error "from account had send too much mining result!")
  else if account ∈ pool.fromMap blockHash diff then .error (.error "pow is already exist")
  else
    let count := pool.getFromCount account
    let pool := pool.setFromMap blockHash diff ((pool.fromMap blockHash diff).insert account minerResult)
    .ok { pool with countMap := pool.countMap.insert account (count+1) }

def delOneResult (blockHash : Hash) (diff : ℤ) (account : Address) : PowPool Hash :=
  if account ∈ pool.fromMap blockHash diff then
    (pool.setFromMap blockHash diff ((pool.fromMap blockHash diff).erase account)).minusFromCount
      account
  else pool

/-- The results in the order of one loop over the senders. -/
def getMinerResults (order : GoMap.Ranger Address (MiningRspMsg Hash)) (blockHash : Hash)
    (diff : ℤ) : Except GoError (List (MiningRspMsg Hash)) :=
  if blockHash ∉ pool.powMap then .error (.error "not result in pool, by block hash")
  else if (pool.fromMap blockHash diff).len = 0 then .error (.error "not result in pool, by diff")
  else .ok ((order.order (pool.fromMap blockHash diff)).map Prod.snd)

end PowPool

end MatrixNode
