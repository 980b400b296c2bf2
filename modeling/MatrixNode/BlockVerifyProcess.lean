import MatrixNode.DposEngine
import MatrixNode.MatrixWork

/-! `blkconsensus/blkverify/verify_process.go`: a validator executes the transactions of a
proposed block, votes for it and counts the votes. -/
namespace MatrixNode
open GoLib

inductive VerifyState where
  | idle
  | start
  | reqVerify
  | txsVerify
  | dposVerify
  | done
  deriving DecidableEq

inductive LocalVerifyResult where
  | processing
  | success
  | failedButCanRecover
  | stateFailed
  deriving DecidableEq

structure BlockLocalVerifyOK (Hash State Tx Receipt : Type) where
  header : Header Hash
  blockHash : Hash
  txs : List Tx
  receipts : List Receipt
  state : Option State

inductive VerifyEffect (Hash State Tx Receipt : Type) where
  | vote (signHash : Hash) (sign : Signature) (validate : Bool) (round : ℕ)
  | verifyConsensusOK (msg : BlockLocalVerifyOK Hash State Tx Receipt)
  | posFinished (number : ℕ) (header : Header Hash) (consensusTurn : UInt32) (txsCode : List UInt32)
  | miningReq (header : Header Hash)
  | posedReq (header : Header Hash)
  | delVotes (hash : Hash)

section Types
variable {Hash : Type} (D : DposEngine Hash) (State Tx Receipt : Type)

/-- `reqData`: a proposal with the hash that its votes are for. -/
structure ReqData where
  fromAccount : Address
  header : Header Hash
  consensusTurn : UInt32
  txsCode : List UInt32
  hash : Hash
  hash_eq : hash = D.hashNoSignsAndNonce header
  txs : List Tx
  receipts : List Receipt
  stateDB : Option State
  localReq : Bool
  localVerifyResult : LocalVerifyResult

structure VerifyProcess where
  number : ℕ
  role : RoleType
  state : VerifyState
  curProcessReq : Option (ReqData D State Tx Receipt)
  txsAcquireSeq : ℤ
  outbox : List (VerifyEffect Hash State Tx Receipt)

end Types

structure RetChan (Tx : Type) where
  rxs : List Tx
  err : Option GoError
  resqe : ℤ

structure VerifyEnv (Hash : Type) where
  signHash : Hash → Bool → Except GoError Signature
  getVotes : Hash → List VerifiedSign
  reader : ValidatorReader
  orders : DposOrders

variable {Hash State Tx Receipt : Type} {D : DposEngine Hash}

def newReqData (D : DposEngine Hash) (fromAccount : Address) (header : Header Hash)
    (consensusTurn : UInt32) (txsCode : List UInt32) : ReqData D State Tx Receipt where
  fromAccount := fromAccount
  header := header
  consensusTurn := consensusTurn
  txsCode := txsCode
  hash := D.hashNoSignsAndNonce header
  hash_eq := rfl
  txs := []
  receipts := []
  stateDB := none
  localReq := false
  localVerifyResult := .processing

/-- The votes are written into the header, which its hash does not see. -/
def ReqData.setSignatures (req : ReqData D State Tx Receipt) (signs : List Signature) :
    ReqData D State Tx Receipt :=
  { req with header := { req.header with signatures := signs }, hash_eq := req.hash_eq }

namespace VerifyProcess
variable (env : VerifyEnv Hash) (p : VerifyProcess D State Tx Receipt)
  (req : ReqData D State Tx Receipt)

def publish (e : VerifyEffect Hash State Tx Receipt) : VerifyProcess D State Tx Receipt :=
  { p with outbox := p.outbox ++ [e] }

def localVerifyOK : BlockLocalVerifyOK Hash State Tx Receipt :=
  ⟨req.header, req.hash, req.txs, req.receipts, req.stateDB⟩

def sendVote (validate : Bool) : VerifyProcess D State Tx Receipt :=
  match env.signHash req.hash validate with
  | .error _ => p
  | .ok sign => (p.publish (.vote req.hash sign validate p.number)).publish
      (.verifyConsensusOK (localVerifyOK req))

def bcFinishedProcess (lvResult : LocalVerifyResult) : VerifyProcess D State Tx Receipt :=
  let req := { req with localVerifyResult := lvResult }
  let p := { p with curProcessReq := some req }
  match lvResult with
  | .processing | .stateFailed => p
  | .success => { p.publish (.verifyConsensusOK (localVerifyOK req)) with state := .done }
  | .failedButCanRecover => { p with state := .done }

def finishedProcess : VerifyProcess D State Tx Receipt :=
  match req.localVerifyResult with
  | .processing | .stateFailed => p
  | .success | .failedButCanRecover =>
    let p :=
      if req.localVerifyResult = .success then
        p.publish (.posFinished p.number req.header req.consensusTurn req.txsCode)
      else p
    let p := (p.publish (.miningReq req.header)).publish (.posedReq req.header)
    { p.publish (.delVotes req.hash) with state := .done }

def processDPOSOnce : VerifyProcess D State Tx Receipt :=
  if p.state ≠ .dposVerify then p
  else
    match DposEngine.verifyHashWithVerifiedSignsAndNumber env.reader (env.getVotes req.hash) p.number
        env.orders with
    | .error _ => p
    | .ok rightSigns =>
      let req := req.setSignatures rightSigns
      { p with curProcessReq := some req }.finishedProcess req

def startDPOSVerify (lvResult : LocalVerifyResult) : VerifyProcess D State Tx Receipt :=
  match p.state with
  | .dposVerify | .done => p
  | .idle | .start | .reqVerify | .txsVerify =>
    if p.role = .broadcast then p.bcFinishedProcess req lvResult
    else
      let p := if lvResult = .success then p.sendVote env req true else p
      let req := { req with localVerifyResult := lvResult }
      { p with curProcessReq := some req, state := .dposVerify }.processDPOSOnce env req

end VerifyProcess

section Verdict
variable [DecidableEq Hash] (W : WorkChain Hash State Tx Receipt)

/-- The body of `VerifyTxs`. The block that `Finalize` assembles is dropped; the header that is
compared has the proposed `TxHash`, `ReceiptHash` and `Bloom`. -/
def txsVerdict (req : ReqData D State Tx Receipt) (result : RetChan Tx) :
    Except GoError (ReqData D State Tx Receipt × LocalVerifyResult) :=
  match result.err with
  | some _ => .ok (req, .failedButCanRecover)
  | none =>
    let req := { req with txs := result.rxs }
    match W.newWork none { req.header with gasUsed := 0 } with
    | .error (.panic msg) => .error (.panic msg)
    | .error (.error _) => .ok (req, .failedButCanRecover)
    | .ok work =>
      match W.consensusTransactions work req.txs with
      | .error (.panic msg) => .error (.panic msg)
      | .error (.error _) => .ok (req, .stateFailed)
      | .ok work =>
        -- Only `GasUsed` and `Root` of the copied header can differ from the proposal.
        let (localHeader,_) := W.finalize work.header work.state req.txs [] work.receipts
        if D.hashNoSignsAndNonce localHeader ≠ req.hash then .ok (req, .stateFailed)
        else .ok ({ req with receipts := work.receipts, stateDB := some work.state }, .success)

/-- The call of `startDPOSVerify` that `VerifyTxs` ends in, if any: results for another
stage or an earlier request are ignored. -/
def VerifyProcess.verdict (p : VerifyProcess D State Tx Receipt) (result : RetChan Tx) :
    Except GoError (Option (ReqData D State Tx Receipt × LocalVerifyResult)) :=
  if p.state ≠ .txsVerify then .ok none
  else if result.resqe ≠ p.txsAcquireSeq then .ok none
  else
    match p.curProcessReq with
    | none => .error nilDereference
    | some req => some <$> txsVerdict W req result

def VerifyProcess.verifyTxs (env : VerifyEnv Hash) (p : VerifyProcess D State Tx Receipt)
    (result : RetChan Tx) : Except GoError (VerifyProcess D State Tx Receipt) := do
  match ← p.verdict W result with
  | none => pure p
  | some (req,lvResult) => pure (p.startDPOSVerify env req lvResult)

end Verdict

end MatrixNode
