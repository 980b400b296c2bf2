import MatrixNode.ReelectCdc
import MatrixNode.ReqCache

/-! `blkverify/verify_process.go`, `broadcast_process.go` and `req_cache.go` as one state machine. The
requests are objects that the cache and the process point to. Every handler holds the lock of the
process, so handlers that goroutines start run one after another in any order. -/
namespace MatrixNode.BlkVerify
open GoLib

structure TxsAcquire where
  seq : ℤ
  req : ℕ
  txsCode : List UInt32
  leader : Address

/-- What a process does to the outside: what the verification of a request does, and the votes that it
puts into the pool on recovery. -/
inductive ProcessEffect (Hash State Tx Receipt : Type) where
  | effect (e : VerifyEffect Hash State Tx Receipt)
  | addVote (signHash : Hash) (sign : Signature)

/-- `reqCache`. The requests are numbered in the order in which they are made. -/
structure ReqPointers where
  curTurn : UInt32
  leaderReqCache : GoMap Address ℕ
  otherReqCache : List ℕ
  otherReqLimit : ℕ

/-- What a handler sees of the world: the checks of headers return an error or nil. -/
structure World (Hash : Type) extends VerifyEnv Hash where
  verifyHeader : Header Hash → Option GoError
  verifyElection : Header Hash → Option GoError
  verifyNetTopology : Header Hash → Option GoError
  leaderOrder : GoMap.Ranger Address ℕ

section Types
variable {Hash : Type} (D : DposEngine Hash) (State Tx Receipt : Type)

/-- `Process`. The acquisitions that it has started are recorded. -/
structure Process where
  leaderCache : LeaderChangeNotify
  number : ℕ
  role : RoleType
  state : VerifyState
  curProcessReq : Option ℕ
  reqs : List (ReqData D State Tx Receipt)
  reqCache : ReqPointers
  /-- Counts the acquisitions, of which no process starts `2^63`. -/
  txsAcquireSeq : ℤ
  acquisitions : List TxsAcquire
  outbox : List (ProcessEffect Hash State Tx Receipt)

def newProcess (number : ℕ) : Process D State Tx Receipt where
  leaderCache := ⟨false, 0, 0, number, 0, 0, 0, 0⟩
  number := number
  role := .nil
  state := .idle
  curProcessReq := none
  reqs := []
  reqCache := ⟨0, ∅, [], otherReqCountMax⟩
  txsAcquireSeq := 0
  acquisitions := []
  outbox := []

end Types

variable {Hash State Tx Receipt : Type} {D : DposEngine Hash}

namespace ReqPointers
variable (rc : ReqPointers) (reqs : List (ReqData D State Tx Receipt))

def holds (reqs : List (ReqData D State Tx Receipt)) (P : ReqData D State Tx Receipt → Bool) (i : ℕ) :
    Bool :=
  (reqs[i]?).any P

/-- The new request, if it is taken, is the object with the next number. -/
def addReq (req : BlkVerifyConsensusReq Hash) : Except GoError ReqPointers :=
  if req.consensusTurn < rc.curTurn then
    .error (.error ("区块请求消息的轮次高低,消息轮次(" ++ toString req.consensusTurn.toNat ++
      ") < 本地轮次(" ++ toString rc.curTurn.toNat ++ ")"))
  else if req.header.leader = req.fromAccount then
    if (rc.leaderReqCache.lookup req.fromAccount).any
        (holds reqs fun oldReq => req.consensusTurn ≤ oldReq.consensusTurn) then
      .error leaderReqExistErr
    else .ok { rc with
      leaderReqCache := rc.leaderReqCache.insert req.fromAccount reqs.length }
  else if rc.otherReqLimit ≤ rc.otherReqCache.length then
    .ok { rc with otherReqCache := rc.otherReqCache.tail ++ [reqs.length] }
  else .ok { rc with otherReqCache := rc.otherReqCache ++ [reqs.length] }

def addLocalReq (localReq : LocalBlockVerifyConsensusReq Hash State Tx Receipt) : ReqPointers :=
  { rc with
    leaderReqCache :=
      rc.leaderReqCache.insert localReq.blkVerifyConsensusReq.header.leader reqs.length }

def setCurTurn (order : GoMap.Ranger Address ℕ) (consensusTurn : UInt32) : ReqPointers :=
  if consensusTurn ≤ rc.curTurn then rc
  else { rc with
    curTurn := consensusTurn
    leaderReqCache := GoMap.deleteWhere order
      (holds reqs fun req => req.consensusTurn < consensusTurn) rc.leaderReqCache
    otherReqCache :=
      rc.otherReqCache.filter (holds reqs fun req => consensusTurn ≤ req.consensusTurn) }

def getLeaderReq (leader : Address) (consensusTurn : UInt32) : Except GoError ℕ :=
  if leader = 0 then .error paramErr
  else match rc.leaderReqCache.lookup leader with
    | none => .error cantFindErr
    | some i =>
      match reqs[i]? with
      | none => .error nilDereference
      | some req =>
        if req.consensusTurn ≠ consensusTurn then
          .error (.error ("请求轮次不匹配,缓存(" ++ toString req.consensusTurn.toNat ++ ") != 目标(" ++
            toString consensusTurn.toNat ++ ")"))
        else .ok i

def getAllReq (order : GoMap.Ranger Address ℕ) : List ℕ :=
  (order.order rc.leaderReqCache).map Prod.snd ++ rc.otherReqCache

def getLeaderReqByHash [DecidableEq Hash] [Zero Hash] (order : GoMap.Ranger Address ℕ) (hash : Hash) :
    Except GoError ℕ :=
  if hash = 0 then .error paramErr
  else match (rc.getAllReq order).find? (holds reqs fun req => req.hash = hash) with
    | some i => .ok i
    | none => .error cantFindErr

end ReqPointers

def headerTime (header : Header Hash) : ℤ := (BitVec.ofNat 64 header.time).toInt

namespace Process
variable (w : World Hash) (p : Process D State Tx Receipt)

/-- The request that is worked on; following a nil pointer panics. -/
def curReq : Except GoError (ℕ × ReqData D State Tx Receipt) :=
  match p.curProcessReq with
  | none => .error nilDereference
  | some i =>
    match p.reqs[i]? with
    | none => .error nilDereference
    | some req => .ok (i, req)

def view : VerifyProcess D State Tx Receipt where
  number := p.number
  role := p.role
  state := p.state
  curProcessReq := p.curProcessReq.bind fun i => p.reqs[i]?
  txsAcquireSeq := p.txsAcquireSeq
  outbox := []

def absorb (v : VerifyProcess D State Tx Receipt) : Process D State Tx Receipt :=
  { p with
    state := v.state
    reqs :=
      match p.curProcessReq, v.curProcessReq with
      | some i, some req => p.reqs.set i req
      | _, _ => p.reqs
    outbox := p.outbox ++ v.outbox.map .effect }

def startDPOSVerify (lvResult : LocalVerifyResult) : Except GoError (Process D State Tx Receipt) :=
  if p.state = .dposVerify ∨ p.state = .done then .ok p
  else do
    let (_, req) ← p.curReq
    pure (p.absorb (p.view.startDPOSVerify w.toVerifyEnv req lvResult))

def processDPOSOnce : Except GoError (Process D State Tx Receipt) :=
  if p.state ≠ .dposVerify then .ok p
  else do
    let (_, req) ← p.curReq
    pure (p.absorb (p.view.processDPOSOnce w.toVerifyEnv req))

/-- The acquisition gets the next number. -/
def startTxsVerify : Except GoError (Process D State Tx Receipt) :=
  if p.state ≠ .reqVerify then .ok p
  else do
    let (i, req) ← p.curReq
    pure { p with
      state := .txsVerify
      txsAcquireSeq := p.txsAcquireSeq+1
      acquisitions := p.acquisitions ++ [⟨p.txsAcquireSeq+1, i, req.txsCode, req.header.leader⟩] }

def processReqOnce : Except GoError (Process D State Tx Receipt) :=
  if p.state ≠ .reqVerify then .ok p
  else do
    -- The node trusts its own proposal; only the proposals of others are checked.
    let (_, req) ← p.curReq
    if req.localReq then p.startDPOSVerify w .success
    else if headerTime req.header < p.leaderCache.turnBeginTime ∨
        p.leaderCache.turnEndTime < headerTime req.header then p.startDPOSVerify w .stateFailed
    else if (w.verifyHeader req.header).isSome then p.startDPOSVerify w .stateFailed
    else if (w.verifyElection req.header).isSome then p.startDPOSVerify w .stateFailed
    else if (w.verifyNetTopology req.header).isSome then p.startDPOSVerify w .failedButCanRecover
    else p.startTxsVerify

def startReqVerifyCommon : Except GoError (Process D State Tx Receipt) :=
  if p.state ≠ .start then .ok p
  else if p.leaderCache.consensusState = false then .ok p
  else
    match p.reqCache.getLeaderReq p.reqs p.leaderCache.leader p.leaderCache.consensusTurn with
    | .error _ => .ok p
    | .ok i => processReqOnce w { p with curProcessReq := some i, state := .reqVerify }

def bcFinishedProcess (lvResult : LocalVerifyResult) : Except GoError (Process D State Tx Receipt) := do
  let (_, req) ← p.curReq
  pure (p.absorb (p.view.bcFinishedProcess req lvResult))

def bcProcessReqVerify : Except GoError (Process D State Tx Receipt) :=
  if p.state ≠ .reqVerify then .ok p
  else do
    let (_, req) ← p.curReq
    if (w.verifyHeader req.header).isSome then p.bcFinishedProcess .stateFailed
    else p.startTxsVerify

/-- The loop of `startReqVerifyBC`: the requests as it leaves them, and the one that it chose. -/
def bcChoose : List ℕ → List (ReqData D State Tx Receipt) →
    Except GoError (List (ReqData D State Tx Receipt) × Option ℕ)
  | [], reqs => .ok (reqs, none)
  | i :: rest, reqs =>
    match reqs[i]? with
    | none => .error nilDereference
    | some req =>
      if req.localVerifyResult ≠ .processing then bcChoose rest reqs
      else
        match D.verifyBlock w.reader req.header w.orders with
        -- A block that the engine does not accept is marked and not looked at again.
        | .error _ => bcChoose rest (reqs.set i { req with localVerifyResult := .stateFailed })
        | .ok _ => .ok (reqs, some i)

def startReqVerifyBC : Except GoError (Process D State Tx Receipt) :=
  if p.state ≠ .start ∧ p.state ≠ .done then .ok p
  else do
    let (reqs, found) ← bcChoose w (p.reqCache.getAllReq w.leaderOrder) p.reqs
    match found with
    | none => pure { p with reqs := reqs }
    | some i =>
      bcProcessReqVerify w { p with reqs := reqs, curProcessReq := some i, state := .reqVerify }

def startReqVerify : Except GoError (Process D State Tx Receipt) :=
  if p.role = .broadcast then p.startReqVerifyBC w
  else if p.role = .validator then p.startReqVerifyCommon w
  else .ok p

def startRunning (role : RoleType) : Except GoError (Process D State Tx Receipt) :=
  startReqVerify w
    { p with role := role, state := if p.state = .idle then .start else p.state }

def close : Process D State Tx Receipt := { p with state := .idle, curProcessReq := none }

def restart : Process D State Tx Receipt :=
  { p with curProcessReq := none, state := if p.state = .idle then .idle else .start }

def stopProcess : Process D State Tx Receipt :=
  restart { p with
    leaderCache := { p.leaderCache with
      leader := 0, nextLeader := 0, consensusTurn := 0, reelectTurn := 0
      turnBeginTime := 0, turnEndTime := 0 } }

def setLeaderInfo (info : LeaderChangeNotify) : Except GoError (Process D State Tx Receipt) :=
  if info.consensusState = false then
    .ok (stopProcess { p with leaderCache := { p.leaderCache with consensusState := false } })
  else if p.leaderCache.leader = info.leader ∧ p.leaderCache.consensusTurn = info.consensusTurn then
    -- The leader and the turn are known: the work on a request goes on.
    .ok { p with leaderCache := { p.leaderCache with consensusState := info.consensusState } }
  else
    let p := restart { p with
      leaderCache := { info with number := p.leaderCache.number }
      reqCache := p.reqCache.setCurTurn p.reqs w.leaderOrder info.consensusTurn }
    if p.state ≠ .idle ∧ p.role = .validator then p.startReqVerifyCommon w
    else .ok p

def addReq (req : BlkVerifyConsensusReq Hash) : Except GoError (Process D State Tx Receipt) :=
  match p.reqCache.addReq p.reqs req with
  | .error _ => .ok p
  | .ok reqCache =>
    startReqVerify w { p with reqCache := reqCache, reqs := p.reqs ++ [newReqDataOf D req] }

def addLocalReq (localReq : LocalBlockVerifyConsensusReq Hash State Tx Receipt) :
    Except GoError (Process D State Tx Receipt) :=
  startReqVerify w { p with
    reqCache := p.reqCache.addLocalReq p.reqs localReq
    reqs := p.reqs ++ [newReqDataByLocalReq D localReq] }

/-- The votes for the block are replaced by those of the header. -/
def processRecoveryMsg [DecidableEq Hash] [Zero Hash] (header : Header Hash) :
    Except GoError (Process D State Tx Receipt) :=
  match p.reqCache.getLeaderReqByHash p.reqs w.leaderOrder (D.hashNoSignsAndNonce header) with
  | .error _ => .ok p
  | .ok _ =>
    processDPOSOnce w { p with
      outbox := p.outbox ++ .effect (.delVotes (D.hashNoSignsAndNonce header)) ::
        header.signatures.map (.addVote (D.hashNoSignsAndNonce header)) }

def processTxsAcquireTimeOut (seq : ℤ) : Except GoError (Process D State Tx Receipt) :=
  if seq ≠ p.txsAcquireSeq then .ok p
  else if p.state ≠ .txsVerify then .ok p
  else p.startDPOSVerify w .failedButCanRecover

def verifyTxs [DecidableEq Hash] (W : WorkChain Hash State Tx Receipt) (result : RetChan Tx) :
    Except GoError (Process D State Tx Receipt) := do
  let v ← p.view.verifyTxs W w.toVerifyEnv result
  pure (p.absorb v)

end Process

/-- What is delivered to the process of a height. -/
inductive ProcessEvent (Hash State Tx Receipt : Type) where
  | startRunning (role : RoleType)
  | close
  | setLeaderInfo (info : LeaderChangeNotify)
  | addReq (req : BlkVerifyConsensusReq Hash)
  | addLocalReq (localReq : LocalBlockVerifyConsensusReq Hash State Tx Receipt)
  | processDPOSOnce
  | recovery (header : Header Hash)
  | txsResult (result : RetChan Tx)
  | txsTimeOut (seq : ℤ)

namespace Process
variable [DecidableEq Hash] [Zero Hash] (W : WorkChain Hash State Tx Receipt)

def handle (w : World Hash) (p : Process D State Tx Receipt) :
    ProcessEvent Hash State Tx Receipt → Except GoError (Process D State Tx Receipt)
  | .startRunning role => p.startRunning w role
  | .close => .ok p.close
  | .setLeaderInfo info => p.setLeaderInfo w info
  | .addReq req => p.addReq w req
  | .addLocalReq localReq => p.addLocalReq w localReq
  | .processDPOSOnce => p.processDPOSOnce w
  | .recovery header => p.processRecoveryMsg w header
  | .txsResult result => p.verifyTxs w W result
  | .txsTimeOut seq => p.processTxsAcquireTimeOut w seq

def step (p : Process D State Tx Receipt) (input : World Hash × ProcessEvent Hash State Tx Receipt) :
    Except GoError (Process D State Tx Receipt) :=
  p.handle W input.1 input.2

end Process

end MatrixNode.BlkVerify
