import MatrixNode.ReelectMaster
import MatrixNode.StepRun

/-! `verifier/ctrlHandle.go` and `verifier/ctrlReelection.go`: the controller of a height with all the
messages and timeouts that its loop takes, one after the other. -/
namespace MatrixNode
open GoLib Controller

structure StartControllerMsg (Hash : Type) where
  role : RoleType
  validators : Option (List TopologyNodeInfo)
  parentHeader : Option (Header Hash)

/-- What else a handler sees of the world: the chain's headers, the check of proof of work and the
order in which a cache of signatures is listed. -/
structure HeightEnv (Hash : Type) extends CtrlEnv Hash where
  getHeaderByNumber : ℕ → Option (Header Hash)
  getHeader : Hash → ℕ → Option (Header Hash)
  verifyHeader : Header Hash → Except GoError Unit
  signOrder : GoMap.Ranger Address VerifiedSign

/-- What the loop of a controller receives. A response carries its sender apart, because the codec
sets it. -/
inductive HeightInput (Hash : Type) where
  | start (msg : Option (StartControllerMsg Hash))
  | posFinished (msg : Option (BlockPOSFinishedNotify Hash))
  | inquiryReq (req : Option ReelectInquiryReqMsg)
  | inquiryRsp (rsp : Option (ReelectInquiryRspMsg Hash))
  | leaderReq (req : Option ReelectLeaderReqMsg)
  | leaderVote (msg : Option (ReelectLeaderVoteMsg Hash))
  | resultBroadcast (msg : Option (ReelectResultBroadcastMsg Hash))
  | resultRsp (rsp : Option (ReelectResultRspMsg Hash)) (fromAccount : Address)
  | newBlockReadyRsp (reqHash : Hash) (target : Address) (number : ℕ)
  | timeOut
  | reelectTimeOut

/-- An input with the environment in which it arrives. -/
abbrev HeightEvent (Hash : Type) := HeightEnv Hash × HeightInput Hash

/-- The controller of a height. The last two fields are its history: whether `SetValidators` has
succeeded, and the block results that it verified, with the turns in which it did. -/
structure HeightController (Hash : Type) extends Controller Hash where
  shared : Bool
  parentHeader : Option (Header Hash)
  inquiryReqCache : GoMap Address ReelectInquiryReqMsg
  validatorsSet : Bool
  posResults : List (UInt32 × Header Hash)

namespace Controller
variable {Hash : Type} (node : CtrlNode Hash) (c : Controller Hash)

def handleBlockPOSFinishedNotify (msg : Option (BlockPOSFinishedNotify Hash)) : Controller Hash :=
  match msg with
  | none => c
  | some msg =>
    -- A notification that is not stored still makes the state be looked at.
    let mp := ((c.mp.savePOSNotifyMsg msg).toOption).getD c.mp
    { c with mp := mp }.processPOSState

section Send
variable (env : HeightEnv Hash) (reqHash : Hash) (target : Address) (number : ℕ)

def sendInquiryRspWithPOS : Controller Hash :=
  match c.mp.getPOSNotifyMsg c.dc.consensusLeader c.dc.curConsensusTurn with
  | .error _ => c
  | .ok posMsg => c.publish (.inquiryRsp {
      number := number, reqHash := reqHash, type := .pos, agreeSign := 0
      posResult := some ⟨0, some posMsg.header, 0, posMsg.txsCode⟩
      rlResult := none, newBlock := none, fromAccount := 0 } target)

def sendInquiryRspWithAgree : Controller Hash :=
  match env.signHash reqHash with
  | .error _ => c
  | .ok sign => c.publish (.inquiryRsp {
      number := number, reqHash := reqHash, type := .agree, agreeSign := sign
      posResult := none, rlResult := none, newBlock := none, fromAccount := 0 } target)

/-- The source hands over the account of the leader where a turn is expected; the low bits of the
account stand for it here. -/
def sendInquiryRspWithRLConsensus : Controller Hash :=
  match c.mp.getRLConsensusMsg (UInt32.ofNat c.dc.consensusLeader.toNat) with
  | .error _ => c
  | .ok consensusMsg => c.publish (.inquiryRsp {
      number := number, reqHash := reqHash, type := .alreadyRL, agreeSign := 0
      posResult := none, rlResult := some consensusMsg, newBlock := none, fromAccount := 0 } target)

end Send

def processNewBlockReadyRsp (env : HeightEnv Hash) (header : Option (Header Hash))
    (fromAccount : Address) : Controller Hash :=
  match header with
  | none => c
  | some header =>
    -- The difference is one of `uint64`.
    let parentNumber := (header.number+(2^64-1)) % 2^64
    match env.getHeader header.parentHash parentNumber with
    | none => c.publish (.fetcherNotify header.parentHash parentNumber)
    | some _ =>
      match env.verifyHeader header with
      | .error _ => c
      | .ok _ =>
        match node.engine.verifyBlock (c.dc.reader env.chain) header env.orders with
        | .error _ => c
        | .ok _ => c.publish (.recoveryState ⟨.fullHeader, header, fromAccount⟩)

def checkRLReqMsg (env : HeightEnv Hash) (req : ReelectLeaderReqMsg)
    (inquiryReq : ReelectInquiryReqMsg) : Except GoError Unit :=
  if inquiryReq.consensusTurn ≠ c.dc.curConsensusTurn then
    .error (.error ("共识轮次不匹配, 消息(" ++ toString inquiryReq.consensusTurn ++ ") != 本地(" ++
      toString c.dc.curConsensusTurn ++ ")"))
  else if inquiryReq.reelectTurn ≠ c.dc.curReelectTurn then
    .error (.error ("重选轮次不匹配, 消息(" ++ toString inquiryReq.reelectTurn ++ ") != 本地(" ++
      toString c.dc.curReelectTurn ++ ")"))
  else if inquiryReq.master ≠ inquiryReq.fromAccount then .error (.error "master和from不匹配")
  else if inquiryReq.master ≠ c.dc.reelectMaster then .error (.error "master不匹配")
  else if req.timeStamp < inquiryReq.timeStamp then
    .error (.error ("请求时间戳(" ++ toString req.timeStamp ++ ") < 询问时间戳(" ++
      toString inquiryReq.timeStamp ++ ")"))
  else
    match node.engine.verifyHashWithNumber (c.dc.reader env.chain) (node.inquiryHash inquiryReq)
        req.agreeSigns c.dc.number env.orders with
    | .error err => .error (.error ("请求中的询问同意签名POS未通过(" ++ err.text ++ ")"))
    | .ok _ => .ok ()

/-- The turns of the request are logged before anything is checked. -/
def handleRLReq (env : HeightEnv Hash) (req : Option ReelectLeaderReqMsg) :
    Except GoError (Controller Hash) :=
  match req with
  | none => .error nilDereference
  | some req =>
    match req.inquiryReq with
    | none => .error nilDereference
    | some inquiryReq =>
      if c.dc.state ≠ .stReelect then .ok c
      else
        match c.checkRLReqMsg node env req inquiryReq with
        | .error _ => .ok c
        | .ok _ =>
          match env.signHash (node.leaderReqHash req) with
          | .error _ => .ok c
          | .ok sign => .ok (c.publish (.leaderVote ⟨{
              signHash := node.leaderReqHash req
              round := (c.dc.curReelectTurn+c.dc.curConsensusTurn).toNat
              sign := sign
              fromAccount := 0 }, c.dc.number⟩ inquiryReq.fromAccount))

variable [Zero Hash]

def timeOutHandle (env : CtrlEnv Hash) : Controller Hash :=
  match c.dc.state with
  | .stPos =>
    { c with
      timer := c.dc.turnTime.calRemainTime c.dc.curConsensusTurn 1 env.now
      dc := { c.dc with state := .stReelect } }.startReelect node env 1
  | .stReelect =>
    let reelectTurn := c.dc.curReelectTurn+1
    { c with
      timer := c.dc.turnTime.calRemainTime c.dc.curConsensusTurn reelectTurn env.now }.startReelect
        node env reelectTurn
  | .stIdle | .stMining => c

end Controller

namespace HeightController
variable {Hash : Type} (node : CtrlNode Hash) (env : HeightEnv Hash) (c : HeightController Hash)

def lift (f : Controller Hash → Controller Hash) : HeightController Hash :=
  { c with toController := f c.toController }

def cache : SharedCache Hash := ⟨c.selfCache, c.shared⟩

def setCache (k : SharedCache Hash) : HeightController Hash :=
  { c with selfCache := k.toMasterCache, shared := k.shared }

def sendInquiryRspWithNewBlockReady (reqHash : Hash) (target : Address) (number : ℕ) :
    HeightController Hash :=
  match c.parentHeader with
  | none => c
  | some parentHeader => c.lift fun ctrl => ctrl.publish (.inquiryRsp {
      number := number, reqHash := reqHash, type := .newBlockReady, agreeSign := 0
      posResult := none, rlResult := none, newBlock := some parentHeader, fromAccount := 0 } target)

/-- The sender is logged in the idle state before the message is looked at. -/
def handleInquiryReq (req : Option ReelectInquiryReqMsg) : Except GoError (HeightController Hash) :=
  match req with
  | none => if c.dc.state = .stIdle then .error nilDereference else .ok c
  | some req =>
    if c.dc.state = .stIdle then .ok c
    else if req.master ≠ req.fromAccount then .ok c
    else
      match c.dc.getLeader node.broadcastNode (req.consensusTurn+req.reelectTurn) with
      | .error _ => .ok c
      | .ok master =>
        if master ≠ req.fromAccount then .ok c
        else if c.dc.curConsensusTurn < req.consensusTurn then
          .ok { c with inquiryReqCache := saveInquiryReqMsg c.inquiryReqCache req }
        else if req.consensusTurn = c.dc.curConsensusTurn then
          match c.dc.state with
          | .stMining => .ok (c.lift fun ctrl =>
              ctrl.sendInquiryRspWithPOS (node.inquiryHash req) req.fromAccount req.number)
          | .stReelect =>
            if req.reelectTurn ≠ c.dc.curReelectTurn then .ok c
            else .ok (c.lift fun ctrl =>
              ctrl.sendInquiryRspWithAgree env (node.inquiryHash req) req.fromAccount req.number)
          | .stIdle | .stPos => .ok c
        else .ok (c.lift fun ctrl =>
          ctrl.sendInquiryRspWithRLConsensus (node.inquiryHash req) req.fromAccount req.number)

/-- The block result that an accepted message carries, with the turn in which it is accepted. -/
def acceptedPOS (msg : Option (ReelectResultBroadcastMsg Hash)) : List (UInt32 × Header Hash) :=
  match msg with
  | none => []
  | some msg =>
    if msg.type = .pos then
      (msg.posResult.bind BlkConsensusReqMsg.header).toList.map fun header =>
        (c.dc.curConsensusTurn,header)
    else []

variable [Zero Hash]

/-- Turn 0 begins with the parent block. When that is not new, or another turn is going on, only the
leader is announced; a broadcast height has no turns. -/
def beginHeight (parentHeader : Header Hash) : HeightController Hash :=
  if isBroadcastNumber c.dc.number then
    { c with
      dc := { c.dc with state := .stIdle }
      parentHeader := some parentHeader }.lift fun ctrl => ctrl.sendLeaderMsg node
  else
    let (turnTime,recorded) := c.dc.turnTime.setBeginTime 0 (int64 parentHeader.time)
    let c :=
      if recorded = false then c
      else
        let c := { c with
          dc := { c.dc with turnTime := turnTime }
          parentHeader := some parentHeader }
        if c.dc.curConsensusTurn = 0 then c.lift fun ctrl => ctrl.resumeTurn node env.toCtrlEnv 0
        else c
    c.lift fun ctrl => ctrl.sendLeaderMsg node

/-- A second start message meets the controller in any state. -/
def handleStartMsg (msg : Option (StartControllerMsg Hash)) : HeightController Hash :=
  match msg with
  | none => c
  | some msg =>
    match msg.parentHeader with
    | none => c
    | some parentHeader =>
      if msg.role ≠ .validator then { c with parentHeader := some parentHeader }
      else
        match c.dc.setValidators node.broadcastNode env.getHeaderByNumber parentHeader.leader
            msg.validators with
        | (dc,.error _) => { c with dc := dc }
        | (dc,.ok _) => { c with dc := dc, validatorsSet := true }.beginHeight node env parentHeader

def processResultBroadcastMsg (msg : Option (ReelectResultBroadcastMsg Hash)) :
    Except GoError (HeightController Hash) := do
  let ctrl ← c.toController.processResultBroadcastMsg node env.toCtrlEnv msg
  pure { c with toController := ctrl, posResults := c.acceptedPOS msg ++ c.posResults }

def handleResultBroadcastMsg (msg : Option (ReelectResultBroadcastMsg Hash)) :
    Except GoError (HeightController Hash) :=
  match msg with
  | none => .ok c
  | some msg =>
    match c.processResultBroadcastMsg node env (some msg) with
    | .error (.error _) => .ok c
    | .error (.panic p) => .error (.panic p)
    | .ok c' => .ok (c'.lift fun ctrl => ctrl.sendResultBroadcastRsp node env.toCtrlEnv msg)

variable [DecidableEq Hash]

/-- A request whose own vote could not be made stays stamped in the cache. -/
def sendRLReq : Except GoError (HeightController Hash) :=
  match c.cache.getRLReqMsg node env.reqTime with
  | .error (.error _) => .ok c
  | .error (.panic p) => .error (.panic p)
  | .ok (k,req,reqHash) =>
    let c := c.setCache k
    match env.signHash reqHash with
    | .error _ => .ok c
    | .ok selfSign =>
      match c.selfCache.saveRLVote node reqHash selfSign node.address with
      | .error _ => .ok c
      | .ok selfCache =>
        .ok ({ c with selfCache := selfCache }.lift fun ctrl => ctrl.publish (.leaderReq req))

def sendResultBroadcastMsg : HeightController Hash :=
  match c.selfCache.getResultBroadcastMsg node env.reqTime with
  | .error _ => c
  | .ok (selfCache,msg,msgHash) =>
    let c := { c with selfCache := selfCache }
    match env.signHash msgHash with
    | .error _ => c
    | .ok selfSign =>
      match c.selfCache.saveResultRsp node msgHash selfSign node.address with
      | .error _ => c
      | .ok selfCache =>
        { c with selfCache := selfCache }.lift fun ctrl => ctrl.publish (.resultBroadcast msg)

def resend : Except GoError (HeightController Hash) :=
  match c.selfCache.inquiryResult with
  | .agree => c.sendRLReq node env
  | .pos | .alreadyRL => .ok (c.sendResultBroadcastMsg node env)
  | .none | .newBlockReady => .ok (c.lift fun ctrl => ctrl.sendInquiryReq node env.toCtrlEnv)

def reelectTimeOutHandle : Except GoError (HeightController Hash) :=
  if c.dc.state ≠ .stReelect then .ok c
  else do
    let c ← c.resend node env
    pure { c with reelectTimer := lrsReelectInterval }

def signsOf (signs : GoMap Address VerifiedSign) : List VerifiedSign :=
  (env.signOrder.order signs).map Prod.snd

/-- An agreement to the inquiry; enough of them make the request for a new leader. -/
def handleInquiryAgree (rsp : ReelectInquiryRspMsg Hash) : Except GoError (HeightController Hash) :=
  match c.selfCache.saveInquiryAgreeSign node rsp.reqHash rsp.agreeSign rsp.fromAccount with
  | .error _ => .ok c
  | .ok selfCache =>
    let c := { c with selfCache := selfCache }
    match DposEngine.verifyHashWithVerifiedSignsAndNumber (c.dc.reader env.chain)
        (signsOf env selfCache.inquiryAgreeSignCache) c.dc.number env.orders with
    | .error _ => .ok c
    | .ok rightSigns =>
      match c.cache.setInquiryResultAgree rightSigns with
      | .error _ => .ok c
      | .ok k => (c.setCache k).sendRLReq node env

def handleInquiryRsp (rsp : Option (ReelectInquiryRspMsg Hash)) :
    Except GoError (HeightController Hash) :=
  match rsp with
  | none => .error nilDereference
  | some rsp =>
    if c.selfCache.inquiryResult ≠ .none then .ok c
    else
      match c.selfCache.checkInquiryRspMsg rsp with
      | .error _ => .ok c
      | .ok _ =>
        match rsp.type with
        | .newBlockReady => .ok (c.lift fun ctrl =>
            ctrl.processNewBlockReadyRsp node env rsp.newBlock rsp.fromAccount)
        | .pos | .alreadyRL =>
          match c.cache.setInquiryResultNotAgree node rsp.type rsp with
          | .error _ => .ok c
          | .ok k => .ok ((c.setCache k).sendResultBroadcastMsg node env)
        | .agree => c.handleInquiryAgree node env rsp
        | .none => .ok c

def handleRLVote (msg : Option (ReelectLeaderVoteMsg Hash)) : HeightController Hash :=
  match msg with
  | none => c
  | some msg =>
    match c.selfCache.saveRLVote node msg.vote.signHash msg.vote.sign msg.vote.fromAccount with
    | .error _ => c
    | .ok selfCache =>
      let c := { c with selfCache := selfCache }
      match DposEngine.verifyHashWithVerifiedSignsAndNumber (c.dc.reader env.chain)
          (signsOf env selfCache.rlVoteCache) c.dc.number env.orders with
      | .error _ => c
      | .ok rightSigns =>
        match c.cache.setRLResultBroadcastSuccess node rightSigns env.now with
        | .error _ => c
        | .ok k => (c.setCache k).sendResultBroadcastMsg node env

def handleResultRsp (rsp : Option (ReelectResultRspMsg Hash)) (fromAccount : Address) :
    Except GoError (HeightController Hash) :=
  match rsp with
  | none => .ok c
  | some rsp =>
    match c.selfCache.saveResultRsp node rsp.resultHash rsp.sign fromAccount with
    | .error _ => .ok c
    | .ok selfCache =>
      let c := { c with selfCache := selfCache }
      match DposEngine.verifyHashWithVerifiedSignsAndNumber (c.dc.reader env.chain)
          (signsOf env selfCache.resultRspCache) c.dc.number env.orders with
      | .error _ => .ok c
      | .ok _ =>
        match c.selfCache.getLocalResultMsg with
        | .error _ => .ok c
        | .ok resultMsg =>
          match c.processResultBroadcastMsg node env (some resultMsg) with
          | .error (.error _) => .ok c
          | .error (.panic p) => .error (.panic p)
          | .ok c' => .ok c'

def step (c : HeightController Hash) (input : HeightEvent Hash) :
    Except GoError (HeightController Hash) :=
  let env := input.1
  match input.2 with
  | .start msg => .ok (c.handleStartMsg node env msg)
  | .posFinished msg => .ok (c.lift fun ctrl => ctrl.handleBlockPOSFinishedNotify msg)
  | .inquiryReq req => c.handleInquiryReq node env req
  | .inquiryRsp rsp => c.handleInquiryRsp node env rsp
  | .leaderReq req => do
    let ctrl ← c.toController.handleRLReq node env req
    pure { c with toController := ctrl }
  | .leaderVote msg => .ok (c.handleRLVote node env msg)
  | .resultBroadcast msg => c.handleResultBroadcastMsg node env msg
  | .resultRsp rsp fromAccount => c.handleResultRsp node env rsp fromAccount
  | .newBlockReadyRsp reqHash target number =>
    .ok (c.sendInquiryRspWithNewBlockReady reqHash target number)
  | .timeOut => .ok (c.lift fun ctrl => ctrl.timeOutHandle node env.toCtrlEnv)
  | .reelectTimeOut => c.reelectTimeOutHandle node env

end HeightController

def newController {Hash : Type} [Zero Hash] (number : ℕ) : HeightController Hash where
  dc := newCDC number
  mp := ⟨[], ∅⟩
  selfCache := newMasterCache number
  timer := 0
  reelectTimer := 0
  outbox := []
  shared := false
  parentHeader := none
  inquiryReqCache := ∅
  validatorsSet := false
  posResults := []

section Frames
variable {Hash : Type} (node : CtrlNode Hash)

theorem TurnTimes.calState_state (tt : TurnTimes) (consensusTurn : UInt32) (time : ℤ) :
    ((tt.calState consensusTurn time).1 = .stPos ∧ (tt.calState consensusTurn time).2.2 = 0) ∨
      (tt.calState consensusTurn time).1 = .stReelect := by
  unfold TurnTimes.calState
  by_cases hpass : int64 (time-tt.getBeginTime consensusTurn) < TurnTimes.posTime consensusTurn
  · rw [if_pos hpass]
    exact Or.inl ⟨rfl, rfl⟩
  · rw [if_neg hpass]
    exact Or.inr rfl

theorem Cdc.setValidators_cases (dc : Cdc) (broadcastNode : Address)
    (getHeaderByNumber : ℕ → Option (Header Hash)) (preLeader : Address)
    (validators : Option (List TopologyNodeInfo)) :
    let r := dc.setValidators broadcastNode getHeaderByNumber preLeader validators
    (∃ err, r = (dc,.error err)) ∨ ∃ cal,
      dc.leaderCal.setValidators getHeaderByNumber preLeader validators = .ok cal ∧
      let dc₁ := { dc with leaderCal := cal }
      (∃ err turn, r = (dc₁,.error err) ∧ dc₁.getLeader broadcastNode turn = .error err) ∨
      ∃ leader master, r = ({ dc₁ with consensusLeader := leader, reelectMaster := master },.ok ()) ∧
        dc₁.getLeader broadcastNode dc.curConsensusTurn = .ok leader ∧
        (dc.curReelectTurn = 0 → master = 0) ∧
        (dc.curReelectTurn ≠ 0 →
          dc₁.getLeader broadcastNode (dc.curConsensusTurn+dc.curReelectTurn) = .ok master) := by
  intro r
  cases hcal : dc.leaderCal.setValidators getHeaderByNumber preLeader validators with
  | error err =>
    refine Or.inl ⟨err, ?_⟩
    simp only [r, setValidators, hcal]
  | ok cal =>
    refine Or.inr ⟨cal, rfl, ?_⟩
    simp only [r, setValidators, hcal]
    split
    · rename_i err herr
      exact Or.inl ⟨err, _, rfl, herr⟩
    · rename_i leader hleader
      split_ifs with hturn
      · split
        · rename_i err herr
          exact Or.inl ⟨err, _, rfl, herr⟩
        · rename_i master hmaster
          exact Or.inr ⟨leader, master, rfl, hleader, fun h => absurd h hturn, fun _ => hmaster⟩
      · exact Or.inr ⟨leader, 0, rfl, hleader, fun _ => rfl, fun h => absurd h hturn⟩

theorem Cdc.setReelectTurn_frame (dc : Cdc) (broadcastNode : Address) (reelectTurn : UInt32) :
    ∃ turn master, ((dc.setReelectTurn broadcastNode reelectTurn).toOption).getD dc =
      { dc with curReelectTurn := turn, reelectMaster := master } := by
  unfold Cdc.setReelectTurn
  split_ifs
  · exact ⟨_, _, rfl⟩
  · exact ⟨_, _, rfl⟩
  · split
    · exact ⟨_, _, rfl⟩
    · exact ⟨_, _, rfl⟩

namespace Controller
variable (env : CtrlEnv Hash) (c : Controller Hash)

/-- Nothing but messages has left the controller. -/
structure Published (c c' : Controller Hash) : Prop where
  dc : c'.dc = c.dc
  mp : c'.mp = c.mp
  selfCache : c'.selfCache = c.selfCache
  timer : c'.timer = c.timer

@[simp] theorem Published.refl : Published c c := ⟨rfl, rfl, rfl, rfl⟩

@[simp] theorem published_publish (e : CtrlEffect Hash) : Published c (c.publish e) :=
  ⟨rfl, rfl, rfl, rfl⟩

theorem published_sendLeaderMsg : Published c (c.sendLeaderMsg node) := by
  unfold sendLeaderMsg
  split <;> simp

theorem published_sendResultBroadcastRsp (req : ReelectResultBroadcastMsg Hash) :
    Published c (c.sendResultBroadcastRsp node env req) := by
  unfold sendResultBroadcastRsp
  split <;> simp

theorem published_sendInquiryRspWithPOS (reqHash : Hash) (target : Address) (number : ℕ) :
    Published c (c.sendInquiryRspWithPOS reqHash target number) := by
  unfold sendInquiryRspWithPOS
  split <;> simp

theorem published_sendInquiryRspWithAgree (env : HeightEnv Hash) (reqHash : Hash) (target : Address)
    (number : ℕ) : Published c (c.sendInquiryRspWithAgree env reqHash target number) := by
  unfold sendInquiryRspWithAgree
  split <;> simp

theorem published_sendInquiryRspWithRLConsensus (reqHash : Hash) (target : Address) (number : ℕ) :
    Published c (c.sendInquiryRspWithRLConsensus reqHash target number) := by
  unfold sendInquiryRspWithRLConsensus
  split <;> simp

theorem published_processNewBlockReadyRsp (env : HeightEnv Hash) (header : Option (Header Hash))
    (fromAccount : Address) :
    Published c (c.processNewBlockReadyRsp node env header fromAccount) := by
  unfold processNewBlockReadyRsp
  dsimp only
  repeat' split
  all_goals simp

variable {node c} in
theorem published_of_handleRLReq {env : HeightEnv Hash} {req : Option ReelectLeaderReqMsg}
    {c' : Controller Hash} (h : c.handleRLReq node env req = .ok c') : Published c c' := by
  unfold handleRLReq at h
  repeat' split at h
  all_goals cases h
  all_goals simp

theorem processPOSState_eq :
    c.processPOSState = { c with dc := { c.dc with
        state := if c.dc.state = .stPos ∧ c.mp.posNotifyCache ≠ [] then .stMining
          else c.dc.state } } := by
  unfold processPOSState
  rw [MsgPool.getPOSNotifyMsg_eq]
  by_cases hst : c.dc.state = .stPos
  · cases hcache : c.mp.posNotifyCache with
    | nil =>
      rw [if_neg (not_not.mpr hst), if_neg (fun h => h.2 rfl)]
      rfl
    | cons msg rest => simp [hst]
  · simp [hst]

variable [Zero Hash]

@[simp] theorem sendInquiryReq_mp : (c.sendInquiryReq node env).mp = c.mp := by
  unfold sendInquiryReq
  dsimp only
  split
  · rfl
  · split <;> rfl

@[simp] theorem sendInquiryReq_timer : (c.sendInquiryReq node env).timer = c.timer := by
  unfold sendInquiryReq
  dsimp only
  split
  · rfl
  · split <;> rfl

theorem startReelect_frame (reelectTurn : UInt32) :
    (c.startReelect node env reelectTurn).mp = c.mp ∧
    (c.startReelect node env reelectTurn).dc = if c.dc.state = .stReelect then
        ((c.dc.setReelectTurn node.broadcastNode reelectTurn).toOption).getD c.dc
      else c.dc := by
  unfold startReelect
  by_cases hst : c.dc.state = .stReelect
  · rw [if_neg (not_not.mpr hst), if_pos hst]
    split_ifs with hcur
    · refine ⟨rfl, ?_⟩
      unfold Cdc.setReelectTurn
      rw [if_pos hcur]
      rfl
    · cases c.dc.setReelectTurn node.broadcastNode reelectTurn with
      | error err => exact ⟨rfl, rfl⟩
      | ok dc =>
        rw [(published_sendLeaderMsg node _).mp, sendLeaderMsg_dc]
        split_ifs
        · rw [sendInquiryReq_mp, sendInquiryReq_dc]
          exact ⟨rfl, rfl⟩
        · exact ⟨rfl, rfl⟩
  · rw [if_pos hst, if_neg hst]
    exact ⟨rfl, rfl⟩

theorem resumeTurn_frame (consensusTurn : UInt32) :
    let st := (c.dc.turnTime.calState consensusTurn env.now).1
    let reelectTurn := (c.dc.turnTime.calState consensusTurn env.now).2.2
    let dc := { c.dc with state := st, curReelectTurn := 0 }
    (c.resumeTurn node env consensusTurn).mp = c.mp ∧
    (c.resumeTurn node env consensusTurn).dc = if st = .stPos then
        { dc with state := if c.mp.posNotifyCache ≠ [] then .stMining else .stPos }
      else ((dc.setReelectTurn node.broadcastNode reelectTurn).toOption).getD dc := by
  intro st reelectTurn dc
  unfold resumeTurn
  dsimp only
  rcases c.dc.turnTime.calState_state consensusTurn env.now with ⟨hst, -⟩ | hst
  · have hst' : st = .stPos := hst
    rw [if_pos hst, if_pos hst', processPOSState_eq]
    refine ⟨rfl, ?_⟩
    simp only [dc, hst, true_and]
  · have hpos : (c.dc.turnTime.calState consensusTurn env.now).1 ≠ .stPos := by
      rw [hst]
      decide
    have hpos' : st ≠ .stPos := hpos
    rw [if_neg hpos, if_neg hpos', if_pos hst]
    obtain ⟨hmp, hdc⟩ := startReelect_frame node env
      { c with dc := dc, timer := (c.dc.turnTime.calState consensusTurn env.now).2.1 } reelectTurn
    refine ⟨hmp, hdc.trans ?_⟩
    exact if_pos hst

theorem timeOutHandle_sameTurn : c.dc.SameTurn (c.timeOutHandle node env).dc := by
  unfold timeOutHandle
  split
  · refine Cdc.SameTurn.trans ?_ (startReelect_sameTurn ..)
    exact ⟨⟨rfl, rfl⟩, rfl, rfl⟩
  · refine Cdc.SameTurn.trans ?_ (startReelect_sameTurn ..)
    exact Cdc.SameTurn.refl _
  · exact Cdc.SameTurn.refl _
  · exact Cdc.SameTurn.refl _

end Controller

namespace HeightController
variable {node} {env : HeightEnv Hash} {c c' c'' : HeightController Hash}

structure Unturned (c c' : HeightController Hash) : Prop where
  dc : c'.dc = c.dc
  mp : c'.mp = c.mp
  timer : c'.timer = c.timer
  validatorsSet : c'.validatorsSet = c.validatorsSet
  posResults : c'.posResults = c.posResults

theorem Unturned.refl (c : HeightController Hash) : Unturned c c := ⟨rfl, rfl, rfl, rfl, rfl⟩

theorem Unturned.trans (h₁ : Unturned c c') (h₂ : Unturned c' c'') : Unturned c c'' :=
  ⟨h₂.dc.trans h₁.dc, h₂.mp.trans h₁.mp, h₂.timer.trans h₁.timer,
    h₂.validatorsSet.trans h₁.validatorsSet, h₂.posResults.trans h₁.posResults⟩

theorem unturned_lift {f : Controller Hash → Controller Hash}
    (h : Published c.toController (f c.toController)) : Unturned c (c.lift f) :=
  ⟨h.dc, h.mp, h.timer, rfl, rfl⟩

theorem handleInquiryReq_unturned {req : Option ReelectInquiryReqMsg}
    (h : c.handleInquiryReq node env req = .ok c') : Unturned c c' := by
  unfold handleInquiryReq at h
  repeat' split at h
  all_goals cases h
  all_goals first
    | exact Unturned.refl _
    | exact ⟨rfl, rfl, rfl, rfl, rfl⟩
    | exact unturned_lift (published_sendInquiryRspWithPOS ..)
    | exact unturned_lift (published_sendInquiryRspWithAgree ..)
    | exact unturned_lift (published_sendInquiryRspWithRLConsensus ..)

theorem sendInquiryRspWithNewBlockReady_unturned (reqHash : Hash) (target : Address) (number : ℕ) :
    Unturned c (c.sendInquiryRspWithNewBlockReady reqHash target number) := by
  unfold sendInquiryRspWithNewBlockReady
  split
  · exact Unturned.refl _
  · exact unturned_lift (published_publish ..)

theorem unturned_selfCache (c : HeightController Hash) (selfCache : MasterCache Hash) :
    Unturned c { c with selfCache := selfCache } :=
  ⟨rfl, rfl, rfl, rfl, rfl⟩

theorem unturned_setCache (c : HeightController Hash) (k : SharedCache Hash) :
    Unturned c (c.setCache k) :=
  ⟨rfl, rfl, rfl, rfl, rfl⟩

section BeginHeight
variable [Zero Hash] (node) (env)

theorem beginHeight_frame (c : HeightController Hash) (parentHeader : Header Hash) :
    (c.beginHeight node env parentHeader).mp = c.mp ∧
    (c.beginHeight node env parentHeader).validatorsSet = c.validatorsSet ∧
    (c.beginHeight node env parentHeader).posResults = c.posResults := by
  unfold beginHeight
  split_ifs
  · exact ⟨(published_sendLeaderMsg ..).mp, rfl, rfl⟩
  · dsimp only
    split_ifs
    · exact ⟨(published_sendLeaderMsg ..).mp, rfl, rfl⟩
    · refine ⟨?_, rfl, rfl⟩
      exact (published_sendLeaderMsg ..).mp.trans (resumeTurn_frame ..).1
    · exact ⟨(published_sendLeaderMsg ..).mp, rfl, rfl⟩

/-- The four ways in which a height begins, by what becomes of its turns. -/
theorem beginHeight_dc (c : HeightController Hash) (parentHeader : Header Hash) :
    let dc' := (c.beginHeight node env parentHeader).dc
    let begun := c.dc.turnTime.setBeginTime 0 (int64 parentHeader.time)
    (isBroadcastNumber c.dc.number = true ∧ dc' = { c.dc with state := .stIdle }) ∨
    (isBroadcastNumber c.dc.number = false ∧ begun.2 = false ∧ dc' = c.dc) ∨
    (isBroadcastNumber c.dc.number = false ∧ begun.2 = true ∧ c.dc.curConsensusTurn ≠ 0 ∧
      dc' = { c.dc with turnTime := begun.1 }) ∨
    (isBroadcastNumber c.dc.number = false ∧ begun.2 = true ∧ c.dc.curConsensusTurn = 0 ∧
      dc' = ({ c.toController with dc := { c.dc with turnTime := begun.1 } }.resumeTurn node
        env.toCtrlEnv 0).dc) := by
  unfold beginHeight
  dsimp only
  cases hb : isBroadcastNumber c.dc.number with
  | true =>
    left
    rw [if_pos rfl]
    exact ⟨rfl, sendLeaderMsg_dc ..⟩
  | false =>
    right
    rw [if_neg Bool.false_ne_true]
    cases hbegun : (c.dc.turnTime.setBeginTime 0 (int64 parentHeader.time)).2 with
    | false =>
      left
      rw [if_pos rfl]
      exact ⟨rfl, rfl, sendLeaderMsg_dc ..⟩
    | true =>
      right
      rw [if_neg (by decide)]
      by_cases hturn : c.dc.curConsensusTurn = 0
      · right
        rw [if_pos hturn]
        exact ⟨rfl, rfl, hturn, sendLeaderMsg_dc ..⟩
      · left
        rw [if_neg hturn]
        exact ⟨rfl, rfl, hturn, sendLeaderMsg_dc ..⟩

theorem handleStartMsg_cases (c : HeightController Hash) (msg : StartControllerMsg Hash) :
    (∃ parentHeader,
      c.handleStartMsg node env (some msg) = { c with parentHeader := parentHeader }) ∨
    msg.role = .validator ∧ ∃ parentHeader dc, msg.parentHeader = some parentHeader ∧
      ((∃ err, c.dc.setValidators node.broadcastNode env.getHeaderByNumber parentHeader.leader
          msg.validators = (dc,.error err)) ∧
        c.handleStartMsg node env (some msg) = { c with dc := dc } ∨
      c.dc.setValidators node.broadcastNode env.getHeaderByNumber parentHeader.leader
          msg.validators = (dc,.ok ()) ∧
        c.handleStartMsg node env (some msg) =
          { c with dc := dc, validatorsSet := true }.beginHeight node env parentHeader) := by
  unfold handleStartMsg
  dsimp only
  cases hparent : msg.parentHeader with
  | none => exact Or.inl ⟨c.parentHeader, rfl⟩
  | some parentHeader =>
    dsimp only
    by_cases hrole : msg.role = .validator
    · rw [if_neg (not_not.mpr hrole)]
      right
      refine ⟨hrole, parentHeader, ?_⟩
      split
      · rename_i dc err hset
        exact ⟨dc, rfl, Or.inl ⟨⟨err, hset⟩, rfl⟩⟩
      · rename_i dc _ hset
        exact ⟨dc, rfl, Or.inr ⟨hset, rfl⟩⟩
    · rw [if_pos hrole]
      exact Or.inl ⟨some parentHeader, rfl⟩

end BeginHeight

variable [Zero Hash] [DecidableEq Hash]

theorem sendRLReq_unturned (h : c.sendRLReq node env = .ok c') : Unturned c c' := by
  unfold sendRLReq at h
  split at h
  · cases h
    exact Unturned.refl _
  · cases h
  · dsimp only at h
    split at h
    · cases h
      exact unturned_setCache ..
    · split at h
      · cases h
        exact unturned_setCache ..
      · cases h
        exact ⟨rfl, rfl, rfl, rfl, rfl⟩

theorem sendResultBroadcastMsg_unturned : Unturned c (c.sendResultBroadcastMsg node env) := by
  unfold sendResultBroadcastMsg
  split
  · exact Unturned.refl _
  · dsimp only
    split
    · exact unturned_selfCache ..
    · split
      · exact unturned_selfCache ..
      · exact ⟨rfl, rfl, rfl, rfl, rfl⟩

theorem resend_unturned (h : c.resend node env = .ok c') : Unturned c c' := by
  unfold resend at h
  split at h
  · exact sendRLReq_unturned h
  all_goals cases h
  · exact sendResultBroadcastMsg_unturned
  · exact sendResultBroadcastMsg_unturned
  all_goals exact ⟨sendInquiryReq_dc .., sendInquiryReq_mp .., sendInquiryReq_timer .., rfl, rfl⟩

theorem reelectTimeOutHandle_unturned (h : c.reelectTimeOutHandle node env = .ok c') :
    Unturned c c' := by
  unfold reelectTimeOutHandle at h
  split at h
  · cases h
    exact Unturned.refl _
  · rw [bind_eq_ok_iff] at h
    obtain ⟨c₁, h₁, h⟩ := h
    cases h
    exact (resend_unturned h₁).trans ⟨rfl, rfl, rfl, rfl, rfl⟩

theorem handleInquiryAgree_unturned {rsp : ReelectInquiryRspMsg Hash}
    (h : c.handleInquiryAgree node env rsp = .ok c') : Unturned c c' := by
  unfold handleInquiryAgree at h
  split at h
  · cases h
    exact Unturned.refl _
  · dsimp only at h
    split at h
    · cases h
      exact unturned_selfCache ..
    · split at h
      · cases h
        exact unturned_selfCache ..
      · exact ((unturned_selfCache ..).trans (unturned_setCache ..)).trans (sendRLReq_unturned h)

theorem handleInquiryRsp_unturned {rsp : Option (ReelectInquiryRspMsg Hash)}
    (h : c.handleInquiryRsp node env rsp = .ok c') : Unturned c c' := by
  unfold handleInquiryRsp at h
  repeat' split at h
  all_goals first
    | exact handleInquiryAgree_unturned h
    | cases h
  all_goals first
    | exact Unturned.refl _
    | exact unturned_lift (published_processNewBlockReadyRsp ..)
    | exact (unturned_setCache ..).trans sendResultBroadcastMsg_unturned

theorem handleRLVote_unturned (msg : Option (ReelectLeaderVoteMsg Hash)) :
    Unturned c (c.handleRLVote node env msg) := by
  unfold handleRLVote
  split
  · exact Unturned.refl _
  · split
    · exact Unturned.refl _
    · dsimp only
      split
      · exact unturned_selfCache ..
      · split
        · exact unturned_selfCache ..
        · exact ((unturned_selfCache ..).trans (unturned_setCache ..)).trans
            sendResultBroadcastMsg_unturned

theorem handleResultRsp_cases {rsp : Option (ReelectResultRspMsg Hash)} {fromAccount : Address}
    (h : c.handleResultRsp node env rsp fromAccount = .ok c') :
    Unturned c c' ∨ ∃ msg c₁, c.selfCache.resultBroadcastMsg = some msg ∧ Unturned c c₁ ∧
      c₁.processResultBroadcastMsg node env (some msg) = .ok c' := by
  unfold handleResultRsp at h
  split at h
  · cases h
    exact Or.inl (Unturned.refl _)
  · split at h
    · cases h
      exact Or.inl (Unturned.refl _)
    · rename_i selfCache hsave
      dsimp only at h
      have hkeep : selfCache.resultBroadcastMsg = c.selfCache.resultBroadcastMsg :=
        MasterCache.saveResultRsp_resultBroadcastMsg hsave
      split at h
      · cases h
        exact Or.inl (unturned_selfCache ..)
      · split at h
        · cases h
          exact Or.inl (unturned_selfCache ..)
        · rename_i resultMsg hlocal
          split at h
          · cases h
            exact Or.inl (unturned_selfCache ..)
          · cases h
          · rename_i c₁ hprocess
            cases h
            refine Or.inr ⟨resultMsg, _, ?_, unturned_selfCache c selfCache, hprocess⟩
            rw [← hkeep]
            exact MasterCache.getLocalResultMsg_eq_ok hlocal

/-- How a step can change turns, leaders or the evidence for them. -/
inductive TurnStep (node : CtrlNode Hash) (env : HeightEnv Hash) (c c' : HeightController Hash) :
    HeightInput Hash → Prop
  | quiet {i : HeightInput Hash} (h : Unturned c c') : TurnStep node env c c' i
  | start (msg : StartControllerMsg Hash) (h : c' = c.handleStartMsg node env (some msg)) :
      TurnStep node env c c' (.start (some msg))
  | notified (msg : BlockPOSFinishedNotify Hash)
      (h : c' = c.lift fun ctrl => ctrl.handleBlockPOSFinishedNotify (some msg)) :
      TurnStep node env c c' (.posFinished (some msg))
  | timeOut (h : c' = c.lift fun ctrl => ctrl.timeOutHandle node env.toCtrlEnv) :
      TurnStep node env c c' .timeOut
  | broadcast (msg : ReelectResultBroadcastMsg Hash) (c₁ : HeightController Hash)
      (h : c.processResultBroadcastMsg node env (some msg) = .ok c₁) (h' : Unturned c₁ c') :
      TurnStep node env c c' (.resultBroadcast (some msg))
  | agreed (rsp : Option (ReelectResultRspMsg Hash)) (fromAccount : Address)
      (msg : ReelectResultBroadcastMsg Hash) (c₁ : HeightController Hash)
      (hmsg : c.selfCache.resultBroadcastMsg = some msg) (h : Unturned c c₁)
      (h' : c₁.processResultBroadcastMsg node env (some msg) = .ok c') :
      TurnStep node env c c' (.resultRsp rsp fromAccount)

theorem turnStep_of_step {input : HeightEvent Hash}
    (h : c.step node input = .ok c') : TurnStep node input.1 c c' input.2 := by
  obtain ⟨env, i⟩ := input
  cases i with
  | start msg =>
    cases h
    cases msg with
    | none => exact .quiet (Unturned.refl _)
    | some msg => exact .start msg rfl
  | posFinished msg =>
    cases h
    cases msg with
    | none => exact .quiet (Unturned.refl _)
    | some msg => exact .notified msg rfl
  | inquiryReq req => exact .quiet (handleInquiryReq_unturned h)
  | inquiryRsp rsp => exact .quiet (handleInquiryRsp_unturned h)
  | leaderReq req =>
    obtain ⟨ctrl, hctrl, h⟩ := bind_eq_ok_iff.mp h
    cases h
    have hpub := published_of_handleRLReq hctrl
    exact .quiet ⟨hpub.dc, hpub.mp, hpub.timer, rfl, rfl⟩
  | leaderVote msg =>
    cases h
    exact .quiet (handleRLVote_unturned msg)
  | resultBroadcast msg =>
    change c.handleResultBroadcastMsg node env msg = .ok c' at h
    unfold handleResultBroadcastMsg at h
    split at h
    · cases h
      exact .quiet (Unturned.refl _)
    · split at h
      · cases h
        exact .quiet (Unturned.refl _)
      · cases h
      · rename_i msg _ c₁ hprocess
        cases h
        exact .broadcast msg c₁ hprocess
          (unturned_lift (published_sendResultBroadcastRsp ..))
  | resultRsp rsp fromAccount =>
    rcases handleResultRsp_cases h with hquiet | ⟨msg, c₁, hmsg, hquiet, hprocess⟩
    · exact .quiet hquiet
    · exact .agreed rsp fromAccount msg c₁ hmsg hquiet hprocess
  | newBlockReadyRsp reqHash target number =>
    cases h
    exact .quiet (sendInquiryRspWithNewBlockReady_unturned ..)
  | timeOut =>
    cases h
    exact .timeOut rfl
  | reelectTimeOut => exact .quiet (reelectTimeOutHandle_unturned h)

end HeightController

end Frames

section Sample

abbrev RequestHash := Option ReelectLeaderReqMsg

instance : Zero RequestHash := ⟨none⟩

def RequestHash.stamp : RequestHash → ℕ
  | some req => req.timeStamp.toNat
  | none => 0

def stampSign (account stamp : ℕ) : Signature := BitVec.ofNat 520 (account+stamp*2^160)

def masterNode : CtrlNode RequestHash where
  engine := {
    headerHash := fun _ => some ⟨none, [], 0⟩
    recover := fun signHash sign =>
      let account := sign.setWidth 160
      if sign = stampSign account.toNat signHash.stamp then some (account,true) else none
    broadCastNodes := [100] }
  address := 1
  inquiryHash := fun req => some ⟨some req, [], 0⟩
  leaderReqHash := some
  resultHash := fun msg => some ⟨none, [], msg.timeStamp⟩

def masterEnv (now : ℤ) : HeightEnv RequestHash where
  chain := fun _ => .ok ⟨0, threeValidators, 0⟩
  now := now
  reqTime := now
  orders := ⟨accountOrder, accountOrder⟩
  signHash := fun h => .ok (stampSign 1 h.stamp)
  getHeaderByNumber := fun _ => none
  getHeader := fun _ _ => none
  verifyHeader := fun _ => .ok ()
  signOrder := accountOrder

def sampleHeader (number : ℕ) (leader : Address) (time : ℕ) (signatures : List Signature) :
    Header RequestHash :=
  { emptyHeader with leader := leader, number := number, time := time, signatures := signatures }

def startThree (time : ℕ) : HeightInput RequestHash :=
  .start (some ⟨.validator, some threeValidators, some (sampleHeader 2 2 time [])⟩)

end Sample

end MatrixNode
