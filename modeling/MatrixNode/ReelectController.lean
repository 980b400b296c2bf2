import MatrixNode.ReelectCdc
import MatrixNode.ReelectMessages

/-! `verifier/ctrlReelection.go`: what the controller of a height does with the
broadcast result of a re-election. Publishing and sending are recorded in an outbox. -/
namespace MatrixNode
open GoLib

def errMsgIsNil : GoError := .error "消息为nil"

def errNoMsgInCache : GoError := .error "缓存中没有目标消息"

def errPOSResultIsNil : GoError := .error "POS结果为nil/header为nil"

def errLeaderResultIsNil : GoError := .error "leader共识结果为nil"

structure ReelectInquiryRspMsg (Hash : Type) where
  number : ℕ
  reqHash : Hash
  type : ReelectRSPType
  agreeSign : Signature
  posResult : Option (BlkConsensusReqMsg Hash)
  rlResult : Option ReelectLeaderConsensus
  newBlock : Option (Header Hash)
  fromAccount : Address
  deriving DecidableEq

structure ConsensusVote (Hash : Type) where
  signHash : Hash
  round : ℕ
  sign : Signature
  fromAccount : Address
  deriving DecidableEq

structure ReelectLeaderVoteMsg (Hash : Type) where
  vote : ConsensusVote Hash
  number : ℕ
  deriving DecidableEq

structure ReelectResultRspMsg (Hash : Type) where
  number : ℕ
  resultHash : Hash
  sign : Signature
  deriving DecidableEq

/-- `msgPool`, without the inquiries and the parent block, which are fields of the controller. -/
structure MsgPool (Hash : Type) where
  posNotifyCache : List (BlockPOSFinishedNotify Hash)
  rlConsensusCache : GoMap UInt32 ReelectLeaderConsensus

/-- The source compares each message with itself, so that the first one is returned
whatever its leader and turn. -/
def MsgPool.getPOSNotifyMsg {Hash : Type} (mp : MsgPool Hash) (_leader : Address)
    (_consensusTurn : UInt32) : Except GoError (BlockPOSFinishedNotify Hash) :=
  match mp.posNotifyCache.find? (fun msg =>
      msg.consensusTurn == msg.consensusTurn && msg.header.leader == msg.header.leader) with
  | some msg => .ok msg
  | none => .error errNoMsgInCache

/-- `masterCache`: what a master has collected for its own inquiry. -/
structure MasterCache (Hash : Type) where
  number : ℕ
  inquiryResult : ReelectRSPType
  inquiryHash : Hash
  inquiryMsg : Option ReelectInquiryReqMsg
  inquiryAgreeSignCache : GoMap Address VerifiedSign
  rlReqMsg : Option ReelectLeaderReqMsg
  rlReqHash : Hash
  rlVoteCache : GoMap Address VerifiedSign
  resultBroadcastHash : Hash
  resultBroadcastMsg : Option (ReelectResultBroadcastMsg Hash)
  resultRspCache : GoMap Address VerifiedSign

structure CtrlNode (Hash : Type) where
  engine : DposEngine Hash
  address : Address
  inquiryHash : ReelectInquiryReqMsg → Hash
  leaderReqHash : ReelectLeaderReqMsg → Hash
  resultHash : ReelectResultBroadcastMsg Hash → Hash

/-- What one handler sees of the world: the chain, the clock (read once for the state
of a turn and once for a request), map orders and the signing helper. -/
structure CtrlEnv (Hash : Type) where
  chain : ℕ → Except GoError TopologyGraph
  now : ℤ
  reqTime : ℤ
  orders : DposOrders
  signHash : Hash → Except GoError Signature

inductive CtrlEffect (Hash : Type) where
  | recoveryState (msg : RecoveryStateMsg Hash)
  | leaderChange (msg : LeaderChangeNotify)
  | inquiryReq (req : ReelectInquiryReqMsg)
  | inquiryRsp (rsp : ReelectInquiryRspMsg Hash) (target : Address)
  | leaderReq (req : ReelectLeaderReqMsg)
  | leaderVote (vote : ReelectLeaderVoteMsg Hash) (target : Address)
  | resultBroadcast (msg : ReelectResultBroadcastMsg Hash)
  | resultRsp (rsp : ReelectResultRspMsg Hash) (target : Address)
  | fetcherNotify (hash : Hash) (number : ℕ)
  deriving DecidableEq

/-- A timer is the time it was last set to; zero stops it. -/
structure Controller (Hash : Type) where
  dc : Cdc
  mp : MsgPool Hash
  selfCache : MasterCache Hash
  timer : ℤ
  reelectTimer : ℤ
  outbox : List (CtrlEffect Hash)

def CtrlNode.broadcastNode {Hash : Type} (node : CtrlNode Hash) : Address :=
  node.engine.broadCastNodes.headD 0

section Signs
variable {Hash : Type} (node : CtrlNode Hash)

/-- What the three caches of signatures have in common: one agreeing signature for each account,
made by the account that sent it. -/
def saveAgreeSign (signs : GoMap Address VerifiedSign) (existText : String) (signHash : Hash)
    (sign : Signature) (fromAccount : Address) : Except GoError (GoMap Address VerifiedSign) :=
  if fromAccount ∈ signs then .error (.error existText)
  else
    match node.engine.recover signHash sign with
    | none => .error (.error "签名解析错误")
    | some (signAccount,validate) =>
      if signAccount ≠ fromAccount then .error (.error "签名账户与发送账户不匹配")
      else if validate = false then .error (.error "签名为不同意签名")
      else .ok (signs.insert signAccount ⟨sign, signAccount, validate, 0⟩)

theorem saveAgreeSign_eq_ok {signs signs' : GoMap Address VerifiedSign} {existText : String}
    {signHash : Hash} {sign : Signature} {fromAccount : Address}
    (h : saveAgreeSign node signs existText signHash sign fromAccount = .ok signs') :
    node.engine.recover signHash sign = some (fromAccount,true) ∧
      signs' = signs.insert fromAccount ⟨sign, fromAccount, true, 0⟩ := by
  unfold saveAgreeSign at h
  rw [ite_error_eq_ok] at h
  obtain ⟨-, h⟩ := h
  split at h
  · cases h
  · rename_i signAccount validate hrec
    simp only [ite_error_eq_ok, ne_eq, not_not, Bool.not_eq_false] at h
    obtain ⟨rfl, rfl, h⟩ := h
    cases h
    exact ⟨hrec, rfl⟩

end Signs

namespace MasterCache
variable {Hash : Type} (cache : MasterCache Hash)

def saveInquiryAgreeSign (node : CtrlNode Hash) (reqHash : Hash) (sign : Signature)
    (fromAccount : Address) : Except GoError (MasterCache Hash) := do
  let signs ← saveAgreeSign node cache.inquiryAgreeSignCache "来自的签名已存在!" reqHash sign fromAccount
  pure { cache with inquiryAgreeSignCache := signs }

variable [Zero Hash]

def clearSelfInquiryMsg : MasterCache Hash :=
  { cache with
    inquiryResult := .none, inquiryMsg := none, inquiryHash := 0, inquiryAgreeSignCache := ∅
    rlReqMsg := none, rlReqHash := 0, rlVoteCache := ∅
    resultBroadcastHash := 0, resultBroadcastMsg := none, resultRspCache := ∅ }

def setInquiryReq (node : CtrlNode Hash) (req : ReelectInquiryReqMsg) : MasterCache Hash :=
  { cache.clearSelfInquiryMsg with inquiryMsg := some req, inquiryHash := node.inquiryHash req }

end MasterCache

namespace Controller
variable {Hash : Type} (node : CtrlNode Hash) (env : CtrlEnv Hash) (c : Controller Hash)

def publish (e : CtrlEffect Hash) : Controller Hash := { c with outbox := c.outbox ++ [e] }

def sendLeaderMsg : Controller Hash :=
  match c.dc.prepareLeaderMsg node.broadcastNode with
  | .error _ => c
  | .ok msg => c.publish (.leaderChange msg)

def processPOSState : Controller Hash :=
  if c.dc.state ≠ .stPos then c
  else
    match c.mp.getPOSNotifyMsg c.dc.consensusLeader c.dc.curConsensusTurn with
    | .error _ => c
    | .ok _ => { c with dc := { c.dc with state := .stMining } }

def sendResultBroadcastRsp (req : ReelectResultBroadcastMsg Hash) : Controller Hash :=
  match env.signHash (node.resultHash req) with
  | .error _ => c
  | .ok sign => c.publish (.resultRsp ⟨c.dc.number, node.resultHash req, sign⟩ req.fromAccount)

variable [Zero Hash]

/-- The request stays in the cache even when its own signature could not be made. -/
def sendInquiryReq : Controller Hash :=
  let req : ReelectInquiryReqMsg := {
    number := c.dc.number
    consensusTurn := c.dc.curConsensusTurn
    reelectTurn := c.dc.curReelectTurn
    timeStamp := env.reqTime
    master := node.address
    fromAccount := node.address }
  let c := { c with selfCache := c.selfCache.setInquiryReq node req }
  let reqHash := node.inquiryHash req
  match env.signHash reqHash with
  | .error _ => c
  | .ok selfSign =>
    match c.selfCache.saveInquiryAgreeSign node reqHash selfSign node.address with
    | .error _ => c
    | .ok selfCache => { c with selfCache := selfCache }.publish (.inquiryReq req)

def startReelect (reelectTurn : UInt32) : Controller Hash :=
  if c.dc.state ≠ .stReelect then c
  else if c.dc.curReelectTurn = reelectTurn then c
  else
    match c.dc.setReelectTurn node.broadcastNode reelectTurn with
    | .error _ => c
    | .ok dc =>
      let c := { c with dc := dc }
      let c :=
        if dc.reelectMaster = node.address then
          { c with reelectTimer := lrsReelectInterval }.sendInquiryReq node env
        else { c with reelectTimer := 0 }
      c.sendLeaderMsg node

def finishReelectWithPOS (header : Header Hash) (fromAccount : Address) : Controller Hash :=
  let c := c.publish (.recoveryState ⟨.pos, header, fromAccount⟩)
  let dc := { c.dc with state := .stMining }
  -- The source ignores the error of this call.
  let dc := ((dc.setReelectTurn node.broadcastNode 0).toOption).getD dc
  { c with
    timer := 0, reelectTimer := 0, dc := dc
    selfCache := c.selfCache.clearSelfInquiryMsg }.sendLeaderMsg node

/-- The clock decides how far a turn has come. -/
def resumeTurn (consensusTurn : UInt32) : Controller Hash :=
  let (st,remainTime,reelectTurn) := c.dc.turnTime.calState consensusTurn env.now
  let c := { c with dc := { c.dc with state := st, curReelectTurn := 0 }, timer := remainTime }
  if st = .stPos then c.processPOSState
  else if st = .stReelect then c.startReelect node env reelectTurn
  else c

/-- The turn that was voted for begins at the time of the request. -/
def finishReelectWithRLConsensus (req : ReelectLeaderReqMsg) (inquiryReq : ReelectInquiryReqMsg) :
    Controller Hash :=
  let consensusTurn := inquiryReq.consensusTurn+inquiryReq.reelectTurn
  match c.dc.setConsensusTurn node.broadcastNode consensusTurn with
  | .error _ => c
  | .ok dc =>
    let turnTime := (dc.turnTime.setBeginTime consensusTurn req.timeStamp).1
    let c := { c with
      dc := { dc with turnTime := turnTime }
      selfCache := c.selfCache.clearSelfInquiryMsg
      reelectTimer := 0 }
    (c.resumeTurn node env consensusTurn).sendLeaderMsg node

def processPOSResult (header : Header Hash) (fromAccount : Address) :
    Except GoError (Controller Hash) :=
  if header.leader ≠ c.dc.consensusLeader then
    .error (.error "消息中headerLeader != 本地共识leader")
  else
    match node.engine.verifyBlock (c.dc.reader env.chain) header env.orders with
    | .error err => .error (.error ("POS完成结果中的POS结果验证错误(" ++ err.text ++ ")"))
    | .ok _ => .ok (c.finishReelectWithPOS node header fromAccount)

/-- Neither the height nor the master of the request is looked at. -/
def processRLResult (rlResult : ReelectLeaderConsensus) (req : ReelectLeaderReqMsg)
    (inquiryReq : ReelectInquiryReqMsg) : Except GoError (Controller Hash) :=
  let turn := inquiryReq.consensusTurn+inquiryReq.reelectTurn
  if turn < c.dc.curConsensusTurn then
    .error (.error ("消息轮次(" ++ toString turn ++ ") <= 本地共识轮次(" ++
      toString c.dc.curConsensusTurn ++ ")"))
  else if rlResult.timeStamp < req.timeStamp then
    .error (.error ("时间戳检查异常, 共识完成时间戳(" ++ toString rlResult.timeStamp ++
      ")比共识请求时间戳(" ++ toString req.timeStamp ++ ")早"))
  else
    match node.engine.verifyHashWithNumber (c.dc.reader env.chain) (node.leaderReqHash req)
        rlResult.votes c.dc.number env.orders with
    | .error err => .error (.error ("leader重选完成中的POS结果验证错误(" ++ err.text ++ ")"))
    | .ok _ => .ok (c.finishReelectWithRLConsensus node env req inquiryReq)

def processResultBroadcastMsg (msg : Option (ReelectResultBroadcastMsg Hash)) :
    Except GoError (Controller Hash) :=
  match msg with
  | none => .error errMsgIsNil
  | some msg =>
    match msg.type with
    | .pos =>
      match msg.posResult.bind BlkConsensusReqMsg.header with
      | none => .error errPOSResultIsNil
      | some header => c.processPOSResult node env header msg.fromAccount
    | .agree | .alreadyRL =>
      match msg.rlResult with
      | none => .error errLeaderResultIsNil
      | some rlResult =>
        match rlResult.req with
        | none => .error nilDereference
        | some req =>
          match req.inquiryReq with
          | none => .error nilDereference
          | some inquiryReq => c.processRLResult node env rlResult req inquiryReq
    | .none | .newBlockReady => .error (.error "结果类型错误")

/-- A broadcast that is refused is logged and leaves the controller as it was. -/
def handleResultBroadcastMsg (msg : Option (ReelectResultBroadcastMsg Hash)) :
    Except GoError (Controller Hash) :=
  match msg with
  | none => .ok c
  | some msg =>
    match c.processResultBroadcastMsg node env (some msg) with
    | .error (.error _) => .ok c
    | .error (.panic p) => .error (.panic p)
    | .ok c' => .ok (c'.sendResultBroadcastRsp node env msg)

end Controller

structure Cdc.SameHeight (dc dc' : Cdc) : Prop where
  number : dc'.number = dc.number
  leaderCal : dc'.leaderCal = dc.leaderCal

structure Cdc.SameTurn (dc dc' : Cdc) : Prop extends Cdc.SameHeight dc dc' where
  curConsensusTurn : dc'.curConsensusTurn = dc.curConsensusTurn
  turnTime : dc'.turnTime = dc.turnTime

namespace Cdc

@[simp] theorem SameHeight.refl (dc : Cdc) : SameHeight dc dc := ⟨rfl, rfl⟩

@[simp] theorem SameTurn.refl (dc : Cdc) : SameTurn dc dc := ⟨SameHeight.refl dc, rfl, rfl⟩

theorem SameHeight.trans {dc₁ dc₂ dc₃ : Cdc} (h₁₂ : SameHeight dc₁ dc₂) (h₂₃ : SameHeight dc₂ dc₃) :
    SameHeight dc₁ dc₃ :=
  ⟨h₂₃.number.trans h₁₂.number, h₂₃.leaderCal.trans h₁₂.leaderCal⟩

theorem SameTurn.trans {dc₁ dc₂ dc₃ : Cdc} (h₁₂ : SameTurn dc₁ dc₂) (h₂₃ : SameTurn dc₂ dc₃) :
    SameTurn dc₁ dc₃ :=
  ⟨h₁₂.toSameHeight.trans h₂₃.toSameHeight, h₂₃.curConsensusTurn.trans h₁₂.curConsensusTurn,
    h₂₃.turnTime.trans h₁₂.turnTime⟩

theorem SameHeight.getLeader_eq {dc dc' : Cdc} (h : SameHeight dc dc') (broadcastNode : Address)
    (turn : UInt32) : dc'.getLeader broadcastNode turn = dc.getLeader broadcastNode turn := by
  unfold getLeader
  rw [h.leaderCal]

theorem sameTurn_of_setReelectTurn {dc dc' : Cdc} {broadcastNode : Address} {reelectTurn : UInt32}
    (h : dc.setReelectTurn broadcastNode reelectTurn = .ok dc') : SameTurn dc dc' := by
  unfold setReelectTurn at h
  split_ifs at h
  · cases h
    exact SameTurn.refl dc
  · cases h
    exact ⟨⟨rfl, rfl⟩, rfl, rfl⟩
  · split at h
    · cases h
    · cases h
      exact ⟨⟨rfl, rfl⟩, rfl, rfl⟩

theorem setReelectTurn_zero (dc : Cdc) (broadcastNode : Address) :
    dc.setReelectTurn broadcastNode 0 = .ok { dc with
      reelectMaster := if dc.curReelectTurn = 0 then dc.reelectMaster else 0
      curReelectTurn := 0 } := by
  unfold setReelectTurn
  by_cases hturn : dc.curReelectTurn = 0
  · rw [if_pos hturn, if_pos hturn, ← hturn]
  · rw [if_neg hturn, if_neg hturn, if_pos rfl]

end Cdc

namespace Controller
variable {Hash : Type} (node : CtrlNode Hash) (env : CtrlEnv Hash) (c : Controller Hash)

@[simp] theorem publish_dc (e : CtrlEffect Hash) : (c.publish e).dc = c.dc := rfl

@[simp] theorem sendLeaderMsg_dc : (c.sendLeaderMsg node).dc = c.dc := by
  unfold sendLeaderMsg
  split <;> rfl

@[simp] theorem sendResultBroadcastRsp_dc (req : ReelectResultBroadcastMsg Hash) :
    (c.sendResultBroadcastRsp node env req).dc = c.dc := by
  unfold sendResultBroadcastRsp
  split <;> rfl

theorem processPOSState_sameTurn : c.dc.SameTurn c.processPOSState.dc := by
  unfold processPOSState
  split_ifs
  · exact Cdc.SameTurn.refl _
  · split
    · exact Cdc.SameTurn.refl _
    · exact ⟨⟨rfl, rfl⟩, rfl, rfl⟩

variable [Zero Hash]

@[simp] theorem sendInquiryReq_dc : (c.sendInquiryReq node env).dc = c.dc := by
  unfold sendInquiryReq
  dsimp only
  split
  · rfl
  · split <;> rfl

/-- Whether the node is the master decides about timer and messages only. -/
theorem startReelect_sameTurn (reelectTurn : UInt32) :
    c.dc.SameTurn (c.startReelect node env reelectTurn).dc := by
  unfold startReelect
  split_ifs
  · exact Cdc.SameTurn.refl _
  · exact Cdc.SameTurn.refl _
  · split
    · exact Cdc.SameTurn.refl _
    · rename_i dc hdc
      rw [sendLeaderMsg_dc]
      have hd : (if dc.reelectMaster = node.address then
          { c with dc := dc, reelectTimer := lrsReelectInterval }.sendInquiryReq node env
          else { c with dc := dc, reelectTimer := 0 }).dc = dc := by
        split_ifs
        · exact sendInquiryReq_dc ..
        · rfl
      rw [hd]
      exact Cdc.sameTurn_of_setReelectTurn hdc

theorem finishReelectWithPOS_dc (header : Header Hash) (fromAccount : Address) :
    (c.finishReelectWithPOS node header fromAccount).dc = { c.dc with
        state := .stMining, curReelectTurn := 0
        reelectMaster := if c.dc.curReelectTurn = 0 then c.dc.reelectMaster else 0 } := by
  unfold finishReelectWithPOS
  rw [sendLeaderMsg_dc]
  simp only [publish_dc, Cdc.setReelectTurn_zero, Except.toOption, Option.getD_some]

/-- Both continuations keep the turn that the clock was read for. -/
theorem resumeTurn_sameTurn (consensusTurn : UInt32) :
    c.dc.SameTurn (c.resumeTurn node env consensusTurn).dc := by
  unfold resumeTurn
  dsimp only
  split_ifs
  · refine Cdc.SameTurn.trans ?_ (processPOSState_sameTurn _)
    exact ⟨⟨rfl, rfl⟩, rfl, rfl⟩
  · refine Cdc.SameTurn.trans ?_ (startReelect_sameTurn ..)
    exact ⟨⟨rfl, rfl⟩, rfl, rfl⟩
  · exact ⟨⟨rfl, rfl⟩, rfl, rfl⟩

/-- The controller when the turn that was voted for begins, before the clock is read. -/
def entersTurn (leader : Address) (turn : UInt32) (timeStamp : ℤ) : Controller Hash :=
  { c with
    dc := { c.dc with
      consensusLeader := leader, curConsensusTurn := turn, reelectMaster := 0, curReelectTurn := 0
      turnTime := (c.dc.turnTime.setBeginTime turn timeStamp).1 }
    selfCache := c.selfCache.clearSelfInquiryMsg
    reelectTimer := 0 }

theorem finishReelectWithRLConsensus_frame (req : ReelectLeaderReqMsg)
    (inquiryReq : ReelectInquiryReqMsg) :
    let turn := inquiryReq.consensusTurn+inquiryReq.reelectTurn
    let c' := c.finishReelectWithRLConsensus node env req inquiryReq
    (∃ err, c.dc.getLeader node.broadcastNode turn = .error err ∧ c' = c) ∨
      ∃ leader, c.dc.getLeader node.broadcastNode turn = .ok leader ∧
        c' = ((c.entersTurn leader turn req.timeStamp).resumeTurn node env turn).sendLeaderMsg node := by
  intro turn c'
  dsimp only [c', finishReelectWithRLConsensus, Cdc.setConsensusTurn]
  cases hleader : c.dc.getLeader node.broadcastNode turn with
  | error err => exact Or.inl ⟨err, rfl, rfl⟩
  | ok leader => exact Or.inr ⟨leader, rfl, rfl⟩

theorem finishReelectWithRLConsensus_cases (req : ReelectLeaderReqMsg)
    (inquiryReq : ReelectInquiryReqMsg) :
    let turn := inquiryReq.consensusTurn+inquiryReq.reelectTurn
    let c' := c.finishReelectWithRLConsensus node env req inquiryReq
    (∃ err, c.dc.getLeader node.broadcastNode turn = .error err ∧ c' = c) ∨
      (∃ leader, c.dc.getLeader node.broadcastNode turn = .ok leader ∧
        c.dc.SameHeight c'.dc ∧ c'.dc.curConsensusTurn = turn) := by
  intro turn c'
  rcases finishReelectWithRLConsensus_frame node env c req inquiryReq with
    herr | ⟨leader, hleader, hc'⟩
  · exact Or.inl herr
  · have hsame := resumeTurn_sameTurn node env (c.entersTurn leader turn req.timeStamp) turn
    have hheight : c.dc.SameHeight (c.entersTurn leader turn req.timeStamp).dc := ⟨rfl, rfl⟩
    refine Or.inr ⟨leader, hleader, ?_⟩
    dsimp only [c']
    rw [hc', sendLeaderMsg_dc]
    exact ⟨hheight.trans hsame.toSameHeight, hsame.curConsensusTurn⟩

end Controller

end MatrixNode
