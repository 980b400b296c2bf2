import MatrixNode.BlockVerifyProcess
import MatrixNode.PowPool
import MatrixNode.ReelectMessages

/-! `blockgenor/process.go` and its files: from a verified block and the results of miners
to the block that is written to the chain. What the process asks of others and what it
hands to them is recorded in a trace. -/
namespace MatrixNode
open GoLib

def haveNotOKResultError : GoError := .error "have no satisfy miner result"

def haveNoGenBlockError : GoError := .error "have no gen block data"

def hashNoSignNotMatchError : GoError := .error "hash without sign not match"

def minerResultError : GoError := .error "MinerResult Error"

inductive GenState where
  | idle
  | blockBroadcast
  | headerGen
  | minerResultVerify
  | blockInsert
  | done
  deriving DecidableEq

inductive BlockCacheState where
  | localVerified
  | ready
  deriving DecidableEq

structure BlockCacheData (Hash State Tx Receipt : Type) where
  block : BlockLocalVerifyOK Hash State Tx Receipt
  state : BlockCacheState

structure BlockData (Hash Tx : Type) where
  header : Header Hash
  txs : List Tx

structure FullBlockReqMsg (Hash : Type) where
  headerHash : Hash
  number : ℕ

structure ReuseMsg (Hash : Type) where
  msg : FullBlockReqMsg Hash
  useTime : ℤ

inductive GenEffect (Hash Tx : Type) where
  | dposVerified (header : Header Hash)
  | writeBlock (block : Block Hash Tx)
  | chainEvent (block : Block Hash Tx) (canon : Bool)
  | headerGenerateReq (number : ℕ)
  | newBlockReady (header : Header Hash)
  | blockInsertNotify (header : Header Hash)
  | fullBlockReq (msg : FullBlockReqMsg Hash) (target : Address)
  | fullBlockRsp (header : Header Hash) (txs : List Tx) (target : Address)
  | fetcherNotify (hash : Hash) (number : ℕ)

structure GenProcess (Hash State Tx Receipt : Type) where
  curLeader : Address
  nextLeader : Address
  consensusTurn : UInt32
  preBlockHash : Hash
  number : ℕ
  role : RoleType
  state : GenState
  powPool : PowPool Hash
  broadcastRstCache : List (BlockData Hash Tx)
  blockCache : GoMap Address (BlockCacheData Hash State Tx Receipt)
  insertBlockHash : List Hash
  fullBlockReqCache : GoMap Hash (ReuseMsg Hash)
  trace : List (GenEffect Hash Tx)

structure GenNode (Hash Tx Receipt : Type) where
  engine : DposEngine Hash
  hashing : BlockHashing Hash Tx Receipt
  address : Address
  blockHash : Header Hash → Hash

/-- What one handler sees of the world: the chain with its engines, the roles of accounts,
the outcome of generating a header, the clock and map orders. -/
structure GenEnv (Hash State Tx Receipt : Type) where
  chain : WorkChain Hash State Tx Receipt
  reader : ValidatorReader
  getHeaderByNumber : ℕ → Option (Header Hash)
  verifySeal : Header Hash → Except GoError Unit
  verifyHeader : Header Hash → Except GoError Unit
  writeBlockWithState : Block Hash Tx → List Receipt → Option State → Except GoError Bool
  accountRole : Address → ℕ → RoleType
  processHeaderGen : Except GoError Unit
  now : ℤ
  dposOrders : DposOrders
  cacheOrder : GoMap.Ranger Address (BlockCacheData Hash State Tx Receipt)
  resultOrder : GoMap.Ranger Address (MiningRspMsg Hash)

def newGenProcess {Hash State Tx Receipt : Type} [Zero Hash] (number : ℕ) :
    GenProcess Hash State Tx Receipt where
  curLeader := 0
  nextLeader := 0
  consensusTurn := 0
  preBlockHash := 0
  number := number
  role := .nil
  state := .idle
  powPool := newPowPool
  broadcastRstCache := []
  blockCache := ∅
  insertBlockHash := []
  fullBlockReqCache := ∅
  trace := []

def copyHeader {Hash : Type} (header : Header Hash) (minerResult : MiningRspMsg Hash) : Header Hash :=
  { header with
    nonce := minerResult.nonce, coinbase := minerResult.coinbase
    mixDigest := minerResult.mixDigest, signatures := minerResult.signatures }

def bigInt64 (x : ℕ) : ℤ := (BitVec.ofNat 64 x).toInt

namespace GenProcess
variable {Hash State Tx Receipt : Type}

section Cache
variable (env : GenEnv Hash State Tx Receipt) (p : GenProcess Hash State Tx Receipt)

def record (e : GenEffect Hash Tx) : GenProcess Hash State Tx Receipt :=
  { p with trace := p.trace ++ [e] }

/-- The first block of a leader stays. -/
def saveVerifiedBlock (block : BlockLocalVerifyOK Hash State Tx Receipt) :
    GenProcess Hash State Tx Receipt :=
  if block.header.leader ∈ p.blockCache then p
  else { p with blockCache := p.blockCache.insert block.header.leader ⟨block, .localVerified⟩ }

def saveReadyBlock (block : BlockLocalVerifyOK Hash State Tx Receipt) :
    GenProcess Hash State Tx Receipt :=
  { p with blockCache := p.blockCache.insert block.header.leader ⟨block, .ready⟩ }

/-- Times are compared as numbers of 64 bits. -/
def laterBlock (best : Option (Address × BlockCacheData Hash State Tx Receipt) × ℤ)
    (e : Address × BlockCacheData Hash State Tx Receipt) :
    Option (Address × BlockCacheData Hash State Tx Receipt) × ℤ :=
  let blockTime := bigInt64 e.2.block.header.time
  if best.2 < blockTime then (some e, blockTime) else best

def getLastBlockData : Option (Address × BlockCacheData Hash State Tx Receipt) :=
  ((env.cacheOrder.order p.blockCache).foldl laterBlock (none, 0)).1

def workBlockData (leader : Address) : Option (Address × BlockCacheData Hash State Tx Receipt) :=
  if p.role = .broadcast then p.getLastBlockData env
  else (p.blockCache.lookup leader).map fun data => (leader,data)

def getBlockDataByBlockHash [DecidableEq Hash] (hash : Hash) :
    Option (BlockCacheData Hash State Tx Receipt) :=
  ((env.cacheOrder.order p.blockCache).find? fun e => e.2.block.blockHash = hash).map Prod.snd

end Cache

section Insert
variable [DecidableEq Hash] (node : GenNode Hash Tx Receipt) (env : GenEnv Hash State Tx Receipt)
  (p : GenProcess Hash State Tx Receipt)

def insertHeader (cached : Header Hash) : Option (Header Hash) → Except GoError (Header Hash)
  | none => .ok cached
  | some header =>
    if node.engine.hashNoSignsAndNonce header ≠ node.engine.hashNoSignsAndNonce cached then
      .error hashNoSignNotMatchError
    else .ok header

/-- Inserting the cached block (without a header the source says `isSelf`). The block is
rebuilt, with a new `TxHash`, from the header and the cached transactions. -/
def insertAndBcBlock (header : Option (Header Hash)) :
    GenProcess Hash State Tx Receipt × Except GoError Hash :=
  match p.workBlockData env p.curLeader with
  | none => (p, .error haveNoGenBlockError)
  | some (_,data) =>
    if data.state ≠ .ready then (p, .error haveNoGenBlockError)
    else
      match insertHeader node data.block.header header with
      | .error err => (p, .error err)
      | .ok insertHeader =>
        -- Nothing before has compared the transactions with the header's `TxHash`.
        let block := node.hashing.newBlockWithTxs insertHeader data.block.txs
        let p := p.record (.writeBlock block)
        match env.writeBlockWithState block data.block.receipts data.block.state with
        | .error err => (p, .error err)
        | .ok canon =>
          ((p.record (.chainEvent block canon)).record (.headerGenerateReq (p.number+1)),
            .ok (node.blockHash block.header))

/-- The block before a broadcast block is written by the broadcast node, another block by
the next leader. -/
def processBlockInsert : GenProcess Hash State Tx Receipt :=
  let insert :=
    match p.insertAndBcBlock node env none with
    | (p,.error _) => p
    | (p,.ok _) => { p with state := .done }
  match p.state with
  | .idle | .blockBroadcast | .headerGen | .minerResultVerify => p
  | .blockInsert | .done =>
    if isBroadcastNumber (p.number+1) then
      if p.role ≠ .broadcast then p else insert
    else if p.role ≠ .validator then p
    else if p.nextLeader = 0 then p
    else if p.nextLeader ≠ node.address then p
    else insert

def blockReady (header : Header Hash) : GenProcess Hash State Tx Receipt :=
  { p.record (.newBlockReady header) with state := .blockInsert }.processBlockInsert node env

omit [DecidableEq Hash] in
def verifyBlock (header : Header Hash) : GenProcess Hash State Tx Receipt × Except GoError Unit :=
  match node.engine.verifyBlock env.reader header env.dposOrders with
  | .error err => (p, .error err)
  | .ok _ => (p.record (.dposVerified header), .ok ())

def verifyOneResult (rawHeader : Header Hash) (result : MiningRspMsg Hash) :
    GenProcess Hash State Tx Receipt × Except GoError Unit :=
  let header := copyHeader rawHeader result
  if node.engine.hashNoSignsAndNonce header ≠ result.blockHash then (p, .error minerResultError)
  else
    match p.verifyBlock node env header with
    | (p,.error err) => (p, .error err)
    | (p,.ok _) => (p, env.verifySeal header)

/-- The first result that verifies; those before it are deleted from the pool. -/
def pickSatisfyMinerResults (p : GenProcess Hash State Tx Receipt) (header : Header Hash) :
    List (MiningRspMsg Hash) → GenProcess Hash State Tx Receipt × Except GoError (MiningRspMsg Hash)
  | [] => (p, .error haveNotOKResultError)
  | result :: results =>
    match p.verifyOneResult node env header result with
    | (p,.error _) =>
      pickSatisfyMinerResults { p with
        powPool := p.powPool.delOneResult result.blockHash result.difficulty result.fromAccount }
        header results
    | (p,.ok _) => (p, .ok result)

/-- Miner results are looked up under the difficulty cut to 64 bits. -/
def dealMinerResultVerifyCommon (leader : Address) : GenProcess Hash State Tx Receipt :=
  match p.workBlockData env leader with
  | none => p
  | some (key,data) =>
    match data.state with
    | .ready => p.blockReady node env data.block.header
    | .localVerified =>
      match p.powPool.getMinerResults env.resultOrder data.block.blockHash
          (bigInt64 data.block.header.difficulty) with
      | .error _ => p
      | .ok results =>
        match p.pickSatisfyMinerResults node env data.block.header results with
        | (p,.error _) => p
        | (p,.ok satisfyResult) =>
          -- The source updates the cached entry in place, under the key that it has.
          let header := copyHeader data.block.header satisfyResult
          let p := { p with
            blockCache := p.blockCache.insert key ⟨{ data.block with header := header }, .ready⟩ }
          p.blockReady node env header

end Insert

section Broadcast
variable [Zero Hash] (env : GenEnv Hash State Tx Receipt)

def executeBroadcast (result : BlockData Hash Tx) :
    Option (BlockLocalVerifyOK Hash State Tx Receipt) :=
  match env.chain.getBlockByHash result.header.parentHash, env.chain.newWork none result.header with
  | some _,.ok work =>
    let work := env.chain.processBroadcastTransactions work result.txs
    let (header,_) := env.chain.finalize work.header work.state result.txs [] work.receipts
    some ⟨header, 0, result.txs, work.receipts, some work.state⟩
  | _,_ => none

/-- The first result that can be executed, and the list with its header updated. -/
def pickBroadcast : List (BlockData Hash Tx) →
    Option (List (BlockData Hash Tx) × BlockLocalVerifyOK Hash State Tx Receipt)
  | [] => none
  | result :: results =>
    match executeBroadcast env result with
    | some block => some (⟨block.header, result.txs⟩ :: results, block)
    | none => (pickBroadcast results).map fun (l,block) => (result :: l, block)

variable [DecidableEq Hash] (node : GenNode Hash Tx Receipt) (p : GenProcess Hash State Tx Receipt)

def dealMinerResultVerifyBroadcast : GenProcess Hash State Tx Receipt :=
  match pickBroadcast env p.broadcastRstCache with
  | none => p
  | some (results,block) =>
    let p := { p with broadcastRstCache := results }.saveReadyBlock block
    let p := p.record (.newBlockReady block.header)
    let p := if p.state = .minerResultVerify then { p with state := .blockInsert } else p
    p.processBlockInsert node env

def processMinerResultVerify (leader : Address) (checkState : Bool) :
    GenProcess Hash State Tx Receipt :=
  if checkState = true ∧ p.state ≠ .minerResultVerify then p
  else if isBroadcastNumber p.number then p.dealMinerResultVerifyBroadcast env node
  else p.dealMinerResultVerifyCommon node env leader

/-- A node that does not generate the header waits for the results of miners. -/
def toMinerResultVerify : GenProcess Hash State Tx Receipt :=
  { p with state := .minerResultVerify }.processMinerResultVerify env node p.curLeader true

def genHeader : GenProcess Hash State Tx Receipt :=
  match env.processHeaderGen with
  | .error _ => p
  | .ok _ => p.toMinerResultVerify env node

def startHeaderGen : GenProcess Hash State Tx Receipt :=
  if p.state ≠ .headerGen then p
  else
    match p.role with
    | .broadcast =>
      if isBroadcastNumber p.number then p.genHeader env node else p.toMinerResultVerify env node
    | .validator =>
      if isBroadcastNumber p.number then p.toMinerResultVerify env node
      else if p.curLeader = 0 then p
      else if p.curLeader ≠ node.address then p.toMinerResultVerify env node
      else p.genHeader env node
    | _ => p

def canBcBlock : Bool :=
  match p.role with
  | .broadcast => true
  | .validator => p.curLeader ≠ 0
  | _ => false

def startBcBlock : Except GoError (GenProcess Hash State Tx Receipt) :=
  if p.state ≠ .blockBroadcast then .ok p
  else if p.canBcBlock = false then .ok p
  else
    match env.getHeaderByNumber (p.number-1) with
    | none => .error nilDereference
    | some header =>
      let p := if p.number ≠ 1 then p.record (.blockInsertNotify header) else p
      let p := { p with preBlockHash := node.blockHash header, state := .headerGen }
      .ok (p.startHeaderGen env node)

end Broadcast

section Handlers
variable (node : GenNode Hash Tx Receipt) (env : GenEnv Hash State Tx Receipt)
  (p : GenProcess Hash State Tx Receipt)

def preVerifyBroadcastMinerResult (result : BlockData Hash Tx) : Bool :=
  env.accountRole result.header.leader result.header.number = .broadcast &&
  match result.header.signatures with
  | [sign] =>
    isBroadcastNumber result.header.number &&
    match node.engine.recover (node.engine.hashNoSignsAndNonce result.header) sign with
    | none => false
    | some (account,validate) => account = result.header.leader && validate
  | _ => false

section
variable [Zero Hash]

def close : GenProcess Hash State Tx Receipt :=
  { p with state := .idle, curLeader := 0, nextLeader := 0, consensusTurn := 0, preBlockHash := 0 }

def reInit : GenProcess Hash State Tx Receipt :=
  if p.state = .idle then p
  else { p with
    state := .blockBroadcast
    curLeader := 0, nextLeader := 0, consensusTurn := 0, preBlockHash := 0 }

end

variable [DecidableEq Hash]

def setNextLeader (leader : Address) : GenProcess Hash State Tx Receipt :=
  if p.nextLeader = leader then p else { p with nextLeader := leader }.processBlockInsert node env

def insertNotified (header : Header Hash) : GenProcess Hash State Tx Receipt :=
  let blockHash := node.blockHash header
  let p :=
    match p.insertAndBcBlock node env (some header) with
    | (p,.error _) => p.record (.fetcherNotify blockHash p.number)
    | (p,.ok _) => p
  { p with insertBlockHash := p.insertBlockHash ++ [blockHash] }

def startBlockInsert (header : Header Hash) : Except GoError (GenProcess Hash State Tx Receipt) :=
  if node.blockHash header ∈ p.insertBlockHash then .ok p
  else if isBroadcastNumber p.number then
    -- A broadcast block has one signature, which its leader made.
    match header.signatures with
    | [] => .error indexOutOfRange
    | sign :: _ =>
      match node.engine.recover (node.engine.hashNoSignsAndNonce header) sign with
      | none => .ok p
      | some (signAccount,_) =>
        if signAccount ≠ header.leader then .ok p
        else if env.accountRole signAccount (p.number-1) ≠ .broadcast then .ok p
        else .ok (p.insertNotified node env header)
  else
    match p.verifyBlock node env header with
    | (p,.error _) => .ok p
    | (p,.ok _) =>
      match env.verifySeal header with
      | .error _ => .ok p
      | .ok _ => .ok (p.insertNotified node env header)

/-- Asking the sender of a recovery message for the whole block, at most every three
seconds. -/
def requestFullBlock (header : Header Hash) (target : Address) : GenProcess Hash State Tx Receipt :=
  let headerHash := node.engine.hashNoSignsAndNonce header
  match p.fullBlockReqCache.lookup headerHash with
  | some cache =>
    if env.now-cache.useTime < 3 then p
    else { p with fullBlockReqCache :=
      p.fullBlockReqCache.insert headerHash ⟨cache.msg, env.now⟩ }.record
        (.fullBlockReq cache.msg target)
  | none =>
    let msg : FullBlockReqMsg Hash := ⟨headerHash, header.number⟩
    { p with fullBlockReqCache := p.fullBlockReqCache.insert headerHash ⟨msg, env.now⟩ }.record
      (.fullBlockReq msg target)

def processFullBlockReq (headerHash : Hash) (target : Address) : GenProcess Hash State Tx Receipt :=
  match p.getBlockDataByBlockHash env headerHash with
  | none => p
  | some data =>
    if data.state ≠ .ready then p
    else p.record (.fullBlockRsp data.block.header data.block.txs target)

/-- Executing a received block; the hash is compared as in the verification of a proposal. -/
def runTxs (header : Header Hash) (headerHash : Hash) (txs : List Tx) :
    Except GoError (List Receipt × State) :=
  match env.chain.getBlockByHash header.parentHash with
  | none => .error (.error "父区块获取失败!")
  | some _ =>
    match env.chain.newWork none { header with gasUsed := 0 } with
    | .error err => .error (.error ("创建worker错误(" ++ err.text ++ ")"))
    | .ok work =>
      match env.chain.consensusTransactions work txs with
      | .error err => .error (.error ("执行交易错误(" ++ err.text ++ ")"))
      | .ok work =>
        -- The assembled block, with the derived `TxHash`, is dropped.
        let (localHeader,_) := env.chain.finalize work.header work.state txs [] work.receipts
        if node.engine.hashNoSignsAndNonce localHeader ≠ headerHash then
          .error (.error "block hash不匹配.")
        else .ok (work.receipts, work.state)

variable [Zero Hash]

/-- The block is cached under the zero hash. -/
def processFullBlockRsp (header : Header Hash) (txs : List Tx) : GenProcess Hash State Tx Receipt :=
  let headerHash := node.engine.hashNoSignsAndNonce header
  if (p.getBlockDataByBlockHash env headerHash).isSome then p
  else
    match env.verifyHeader header with
    | .error _ => p
    | .ok _ =>
      match p.verifyBlock node env header with
      | (p,.error _) => p
      | (p,.ok _) =>
        match runTxs node env header headerHash txs with
        | .error _ => p
        | .ok (receipts,stateDB) =>
          (p.saveReadyBlock ⟨header, 0, txs, receipts, some stateDB⟩).blockReady node env header

def startRunning (role : RoleType) : Except GoError (GenProcess Hash State Tx Receipt) :=
  let p := { p with role := role }
  let p := if p.state = .idle then { p with state := .blockBroadcast } else p
  p.startBcBlock env node

def setCurLeader (leader : Address) (consensusTurn : UInt32) :
    Except GoError (GenProcess Hash State Tx Receipt) :=
  if p.curLeader = leader ∧ p.consensusTurn = consensusTurn then .ok p
  else
    let p := { p with curLeader := leader, consensusTurn := consensusTurn }
    if p.state = .idle then .ok p
    else { p with state := .blockBroadcast, nextLeader := 0, preBlockHash := 0 }.startBcBlock env node

def addMinerResult (minerResult : MiningRspMsg Hash) : GenProcess Hash State Tx Receipt :=
  match p.powPool.addMinerResult minerResult.blockHash minerResult.difficulty minerResult with
  | .error _ => p
  | .ok powPool =>
    { p with powPool := powPool }.processMinerResultVerify env node p.curLeader true

def addConsensusBlock (block : BlockLocalVerifyOK Hash State Tx Receipt) :
    GenProcess Hash State Tx Receipt :=
  (p.saveVerifiedBlock block).processMinerResultVerify env node p.curLeader true

def addBroadcastMinerResult (result : BlockData Hash Tx) : GenProcess Hash State Tx Receipt :=
  if preVerifyBroadcastMinerResult node env result = false then p
  else { p with broadcastRstCache := p.broadcastRstCache ++ [result] }.processMinerResultVerify
    env node p.curLeader true

def processRecoveryMsg (header : Header Hash) (target : Address) :
    GenProcess Hash State Tx Receipt :=
  let headerHash := node.engine.hashNoSignsAndNonce header
  -- The header of the message stands in for the result of its miner.
  let minerResult : MiningRspMsg Hash := {
    fromAccount := header.coinbase, number := header.number, blockHash := headerHash
    difficulty := header.difficulty, nonce := header.nonce, coinbase := header.coinbase
    mixDigest := header.mixDigest, signatures := header.signatures }
  let p :=
    match p.powPool.addMinerResult headerHash header.difficulty minerResult with
    | .error _ => p
    | .ok powPool => { p with powPool := powPool }
  let p := p.processMinerResultVerify env node header.leader false
  if p.state ≠ .done then p.requestFullBlock node env header target else p

end Handlers

end GenProcess

/-- What the process of a height is told. -/
inductive GenEvent (Hash State Tx Receipt : Type) where
  | startRunning (role : RoleType)
  | close
  | reInit
  | reInitNextLeader
  | setCurLeader (leader : Address) (consensusTurn : UInt32)
  | setNextLeader (leader : Address)
  | blockInsert (header : Header Hash)
  | minerResult (result : MiningRspMsg Hash)
  | consensusBlock (block : BlockLocalVerifyOK Hash State Tx Receipt)
  | broadcastMinerResult (result : BlockData Hash Tx)
  | recovery (msg : RecoveryStateMsg Hash)
  | fullBlockReq (req : FullBlockReqMsg Hash) (target : Address)
  | fullBlockRsp (header : Header Hash) (txs : List Tx)

def GenEvent.height {Hash State Tx Receipt : Type} : GenEvent Hash State Tx Receipt → Option ℕ
  | .blockInsert header => some header.number
  | .minerResult result => some result.number
  | .consensusBlock block => some block.header.number
  | .broadcastMinerResult result => some result.header.number
  | .recovery msg => some msg.header.number
  | .fullBlockReq req _ => some req.number
  | .fullBlockRsp header _ => some header.number
  | _ => none

section Step
variable {Hash State Tx Receipt : Type} [Zero Hash] [DecidableEq Hash]

def GenProcess.handle (node : GenNode Hash Tx Receipt) (env : GenEnv Hash State Tx Receipt)
    (p : GenProcess Hash State Tx Receipt) :
    GenEvent Hash State Tx Receipt → Except GoError (GenProcess Hash State Tx Receipt)
  | .startRunning role => p.startRunning node env role
  | .close => .ok p.close
  | .reInit => .ok p.reInit
  | .reInitNextLeader => .ok { p with nextLeader := 0 }
  | .setCurLeader leader consensusTurn => p.setCurLeader node env leader consensusTurn
  | .setNextLeader leader => .ok (p.setNextLeader node env leader)
  | .blockInsert header => p.startBlockInsert node env header
  | .minerResult result => .ok (p.addMinerResult node env result)
  | .consensusBlock block => .ok (p.addConsensusBlock node env block)
  | .broadcastMinerResult result => .ok (p.addBroadcastMinerResult node env result)
  | .recovery msg =>
    if msg.type ≠ .fullHeader then .ok p
    else .ok (p.processRecoveryMsg node env msg.header msg.fromAccount)
  | .fullBlockReq req target => .ok (p.processFullBlockReq env req.headerHash target)
  | .fullBlockRsp header txs => .ok (p.processFullBlockRsp node env header txs)

/-- A message of another height goes to another process. -/
def genStep (node : GenNode Hash Tx Receipt) (p : GenProcess Hash State Tx Receipt)
    (input : GenEnv Hash State Tx Receipt × GenEvent Hash State Tx Receipt) :
    Except GoError (GenProcess Hash State Tx Receipt) :=
  match input.2.height with
  | some number => if number ≠ p.number then .ok p else p.handle node input.1 input.2
  | none => p.handle node input.1 input.2

end Step

end MatrixNode
