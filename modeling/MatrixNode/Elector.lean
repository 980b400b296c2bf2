import MatrixNode.NetTopology
import MatrixNode.GoMap
import MatrixNode.MatrixDeposit

/-! `election/election.go`: an election draws nodes at random, weighted by deposit and time online, and
answers with the accounts that were elected. Floating-point numbers and the random numbers of a seed
are parameters. -/
namespace MatrixNode
open GoLib

structure FloatOps (F : Type) where
  lit : ℚ → F
  ofUInt64 : UInt64 → F
  ofInt : ℤ → F
  add : F → F → F
  sub : F → F → F
  mul : F → F → F
  div : F → F → F
  lt : F → F → Bool
  le : F → F → Bool
  toInt : F → ℤ

/-- `vm.DepositDetail` as a request carries it: any of its numbers can be nil. -/
structure ElectNode where
  address : Address
  nodeID : NodeID
  deposit : Option ℤ
  withdrawH : Option ℤ
  onlineTime : Option ℤ

def ElectNode.ofDeposit (detail : MatrixDeposit.DepositDetail) : ElectNode where
  address := detail.address
  nodeID := detail.nodeID
  deposit := some detail.deposit
  withdrawH := some detail.withdrawH
  onlineTime := detail.onlineTime.map Int.ofNat

structure Weighted (F : Type) where
  nodeid : NodeID
  value : F

structure Strallyint where
  nodeid : NodeID
  value : ℤ

structure MasterMinerReElectionReqMsg where
  seqNum : UInt64
  randSeed : ℤ
  minerList : List ElectNode

structure MasterValidatorReElectionReqMsg where
  seqNum : UInt64
  randSeed : ℤ
  validatorList : List ElectNode
  foundationValidatoeList : List ElectNode

structure MasterMinerReElectionRsp where
  seqNum : UInt64
  masterMiner : List TopologyNodeInfo
  backUpMiner : List TopologyNodeInfo

structure MasterValidatorReElectionRsq where
  seqNum : UInt64
  masterValidator : List TopologyNodeInfo
  backUpValidator : List TopologyNodeInfo
  candidateValidator : List TopologyNodeInfo

/-- `uniform seed i` is the random number that the `i`-th draw of an election with that seed gets. -/
structure Elector (F : Type) where
  ops : FloatOps F
  uniform : ℤ → ℕ → F

def maxSample : ℕ := 1000

/-- Numbers that are missing in a list of depositors get defaults. -/
def ElectNode.withDefaults (item : ElectNode) : ElectNode :=
  { item with
    deposit := some (item.deposit.getD 50000)
    withdrawH := some (item.withdrawH.getD 0)
    onlineTime := some (item.onlineTime.getD 300) }

namespace Elector
variable {F : Type} (E : Elector F)

section Value

def tpsPower (tps : ℤ) : F :=
  E.ops.lit (if 16000 ≤ tps then 5 else if 8000 ≤ tps then 4 else if 4000 ≤ tps then 3
    else if 2000 ≤ tps then 2 else if 1000 ≤ tps then 1 else 0)

def lastTime (uptime : ℤ) : F :=
  E.ops.lit (if uptime ≤ 64 then 1/4 else if uptime ≤ 128 then 1/2 else if uptime ≤ 256 then 1
    else if uptime ≤ 512 then 2 else 4)

def depositStake (stk : F) : F :=
  E.ops.lit (if E.ops.le (E.ops.lit 40000) stk then 9/2
    else if E.ops.le (E.ops.lit 20000) stk then 43/20
    else if E.ops.le (E.ops.lit 10000) stk then 1 else 0)

def calcValue (item : ElectNode) : Except GoError (Weighted F) :=
  match item.deposit, item.onlineTime with
  | some deposit, some onlineTime =>
    let stk := E.ops.ofUInt64 (UInt64.ofNat deposit.natAbs)
    let uptime := (UInt64.ofNat onlineTime.natAbs).toInt64.toInt
    .ok ⟨item.nodeID, E.ops.mul (E.lastTime uptime)
      (E.ops.add (E.ops.mul (E.tpsPower 1000) (E.ops.lit (1/5)))
        (E.ops.mul (E.depositStake stk) (E.ops.lit (1/4))))⟩
  | _, _ => .error nilDereference

def calcAllValueFunction (nodelist : List ElectNode) : Except GoError (List (Weighted F)) :=
  nodelist.mapM E.calcValue

def sumValues (values : List F) : F := values.foldl E.ops.add (E.ops.lit 0)

def normalize (probVal : List (Weighted F)) : List (Weighted F) :=
  let total := E.sumValues (probVal.map Weighted.value)
  probVal.map (fun item => ⟨item.nodeid, E.ops.div item.value total⟩)

end Value

section Sampling
variable (probnormalized : List (Weighted F))

def findSample : List (Weighted F) → F → Option NodeID
  | [], _ => none
  | item :: rest, rand01 =>
    let rand01 := E.ops.sub rand01 item.value
    if E.ops.lt rand01 (E.ops.lit 0) then some item.nodeid else findSample rest rand01

def sample1NodesInValNodes (rand01 : F) : Except GoError NodeID :=
  match E.findSample probnormalized rand01, probnormalized with
  | some nodeid, _ => .ok nodeid
  | none, first :: _ => .ok first.nodeid
  | none, [] => .error indexOutOfRange

/-- The draws from the `i`-th on, at most `left` of them, until `limit` different nodes were drawn.
The map counts how often each one was. -/
def sampleNodes (probnormalized : List (Weighted F)) (seed limit : ℤ) :
    ℕ → ℕ → GoMap NodeID ℤ → Except GoError (GoMap NodeID ℤ)
  | 0, _, dict => .ok dict
  | left+1, i, dict => do
    let node ← E.sample1NodesInValNodes probnormalized (E.uniform seed i)
    let dict := dict.insert node ((dict.lookup node).getD 0+1)
    if (GoMap.len dict : ℤ) = limit then .ok dict
    else sampleNodes probnormalized seed limit left (i+1) dict

def calcRemainingNodesVotes (nodes : List Strallyint) : List Strallyint :=
  nodes.map (fun item => { item with value := 1 })

def votesOf (nodes : List Strallyint) : GoMap NodeID ℤ :=
  GoMap.ofEntries (nodes.map (fun item => (item.nodeid, item.value)))

def sortMiners (pricipal bak : List Strallyint) : List Strallyint × List Strallyint :=
  (probnormalized.filterMap (fun item =>
      ((votesOf pricipal).lookup item.nodeid).map (⟨item.nodeid, ·⟩)),
    probnormalized.filterMap (fun item =>
      if item.nodeid ∈ votesOf pricipal then none
      else ((votesOf bak).lookup item.nodeid).map (⟨item.nodeid, ·⟩)))

def sampleMinerNodes (seed : ℤ) (n : ℕ) : Except GoError (List Strallyint × List Strallyint) :=
  if probnormalized.length ≤ n then
    .ok (sortMiners probnormalized (probnormalized.map (fun item =>
      ⟨item.nodeid, E.ops.toInt (E.ops.mul (E.ops.lit 100) item.value)⟩)) [])
  else do
    let dict ← E.sampleNodes probnormalized seed n maxSample 0 ∅
    let pricipal := probnormalized.filterMap (fun item =>
      (dict.lookup item.nodeid).map (⟨item.nodeid, ·⟩))
    let bak := probnormalized.filterMap (fun item =>
      if item.nodeid ∈ dict then none else some ⟨item.nodeid, E.ops.toInt item.value⟩)
    -- Too few were drawn: the first of the others fill up.
    .ok (sortMiners probnormalized (pricipal ++ bak.take (n-pricipal.length))
      (bak.drop (n-pricipal.length)))

def minerNodesSelected (probVal : List (Weighted F)) (seed : ℤ) (ms : ℕ) :
    Except GoError (List Strallyint × List Strallyint) := do
  let (pricipal, bak) ← E.sampleMinerNodes (E.normalize probVal) seed ms
  .ok (pricipal, calcRemainingNodesVotes bak)

/-- `SampleMPlusPNodes`: the nodes drawn and the others. The list of substitutes it also returns is
always empty. -/
def sampleMPlusPNodes (seed quota : ℤ) : Except GoError (List Strallyint × List Strallyint) :=
  if (probnormalized.length : ℤ) ≤ quota then
    .ok (probnormalized.map (fun item =>
      ⟨item.nodeid, E.ops.toInt (E.ops.mul (E.ops.lit 100) item.value)⟩), [])
  else do
    let dict ← E.sampleNodes probnormalized seed quota maxSample 0 ∅
    .ok (probnormalized.filterMap (fun item => (dict.lookup item.nodeid).map (⟨item.nodeid, ·⟩)),
      probnormalized.filterMap (fun item => if item.nodeid ∈ dict then none else some ⟨item.nodeid, 0⟩))

def fillUp (target : ℤ) (nodes : List Strallyint) :
    List Strallyint → List Strallyint × List Strallyint
  | [] => (nodes, [])
  | item :: rest =>
    if (nodes.length : ℤ) < target then fillUp target (nodes ++ [item]) rest
    else (nodes, item :: rest)

/-- `ValNodesSelected`: the validators, their substitutes and the candidates. -/
def valNodesSelected (probVal : List (Weighted F)) (seed m p j : ℤ) :
    Except GoError (List Strallyint × List Strallyint × List Strallyint) := do
  let (pricipal, remaining) ← E.sampleMPlusPNodes (E.normalize probVal) seed (m-j)
  let (pricipal, remaining) := fillUp (m-j) pricipal (calcRemainingNodesVotes remaining)
  let (bak, remaining) := fillUp p [] remaining
  .ok (pricipal, bak, remaining)

end Sampling

section Foundation

/-- The first limit is the upper one. -/
def updownlimit (a ratiouplimit ratiodnlimit : F) : F :=
  let a := if E.ops.lt a ratiodnlimit then ratiodnlimit else a
  if E.ops.lt ratiouplimit a then ratiouplimit else a

/-- `CommbineFundNodesAndPricipal`. The limits that it is given are not the ones it uses. -/
def commbineFundNodesAndPricipal (probVal probFund : List (Weighted F)) (j : ℤ)
    (pricipal : List Strallyint) : List Strallyint :=
  if j = 0 ∨ probFund = [] then pricipal
  else if pricipal = [] then
    (E.normalize probFund).map (fun item =>
      ⟨item.nodeid, E.ops.toInt (E.ops.mul item.value (E.ops.lit 100))⟩)
  else
    let pricipalVoteSum := (pricipal.map Strallyint.value).sum
    let probValMap := GoMap.ofEntries (probVal.map (fun item => (item.nodeid, item.value)))
    let probPricipalSum := E.sumValues (pricipal.map (fun item =>
      (probValMap.lookup item.nodeid).getD (E.ops.lit 0)))
    let probFundSum := E.sumValues (probFund.map Weighted.value)
    let ratio := E.updownlimit (E.ops.div probFundSum probPricipalSum) (E.ops.lit (5/2)) (E.ops.lit 4)
    pricipal ++ probFund.map (fun item => ⟨item.nodeid, E.ops.toInt (E.ops.mul
      (E.ops.mul (E.ops.div item.value probFundSum) ratio) (E.ops.ofInt pricipalVoteSum))⟩)

end Foundation

def electMap (nodes : List ElectNode) : GoMap NodeID ElectNode :=
  GoMap.ofEntries (nodes.map (fun item => (item.nodeID, item)))

/-- The account behind a node id; the zero address if the map does not have it. -/
def accountOf (nodes : List ElectNode) (nodeid : NodeID) : Address :=
  (((electMap nodes).lookup nodeid).map ElectNode.address).getD 0

def topologyNodes (nodes : List ElectNode) (role : RoleType) (elected : List Strallyint) :
    List TopologyNodeInfo :=
  elected.mapIdx (fun index item =>
    ⟨accountOf nodes item.nodeid, UInt16.ofNat index, role, UInt16.ofInt item.value, 0⟩)

def electMiners (req : MasterMinerReElectionReqMsg) : Except GoError MasterMinerReElectionRsp := do
  let value ← E.calcAllValueFunction (req.minerList.map ElectNode.withDefaults)
  let (a, b) ← E.minerNodesSelected value req.randSeed 21
  .ok ⟨req.seqNum, topologyNodes req.minerList .miner a, topologyNodes req.minerList .miner b⟩

/-- What `Listen` answers to a request for validators. The foundation's nodes get no defaults and are
not in the map from node ids to accounts. -/
def electValidators (req : MasterValidatorReElectionReqMsg) :
    Except GoError MasterValidatorReElectionRsq := do
  let value ← E.calcAllValueFunction (req.validatorList.map ElectNode.withDefaults)
  let j : ℤ := req.foundationValidatoeList.length
  let valuefound ← E.calcAllValueFunction req.foundationValidatoeList
  let (a, b, c) ← E.valNodesSelected value req.randSeed 11 5 j
  let a := E.commbineFundNodesAndPricipal value valuefound j a
  .ok ⟨req.seqNum, topologyNodes req.validatorList .validator a,
    topologyNodes req.validatorList .validator b, topologyNodes req.validatorList .validator c⟩

end Elector

end MatrixNode
