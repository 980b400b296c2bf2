import MatrixNode.ReelectController

/-! `verifier/masterCache.go` and `verifier/msgPool.go`: what a controller keeps of the messages of a
re-election. The cache and a stored result may point to one request. -/
namespace MatrixNode
open GoLib

def errMsgExistInCache : GoError := .error "缓存中已存在消息"

def errSelfReqIsNil : GoError := .error "self请求不在缓存中"

def errBroadcastIsNil : GoError := .error "缓存没有广播消息"

def ReelectRSPType.text (t : ReelectRSPType) : String := toString t.toNat

section MsgPool
variable {Hash : Type} (mp : MsgPool Hash)

def MsgPool.savePOSNotifyMsg (msg : BlockPOSFinishedNotify Hash) : Except GoError (MsgPool Hash) :=
  if msg.header.leader = 0 then .error errMsgIsNil
  else if mp.posNotifyCache.any (fun oldMsg =>
      oldMsg.consensusTurn == msg.consensusTurn && oldMsg.header.leader == msg.header.leader) then
    .error errMsgExistInCache
  else .ok { mp with posNotifyCache := mp.posNotifyCache ++ [msg] }

theorem MsgPool.getPOSNotifyMsg_eq (leader : Address) (consensusTurn : UInt32) :
    mp.getPOSNotifyMsg leader consensusTurn = match mp.posNotifyCache.head? with
      | some msg => .ok msg
      | none => .error errNoMsgInCache := by
  unfold MsgPool.getPOSNotifyMsg
  cases mp.posNotifyCache with
  | nil => rfl
  | cons msg rest => simp

def MsgPool.getRLConsensusMsg (consensusTurn : UInt32) : Except GoError ReelectLeaderConsensus :=
  match mp.rlConsensusCache.lookup consensusTurn with
  | none => .error errNoMsgInCache
  | some msg => .ok msg

end MsgPool

/-- A newer inquiry of an account replaces an older one. -/
def saveInquiryReqMsg (cache : GoMap Address ReelectInquiryReqMsg) (msg : ReelectInquiryReqMsg) :
    GoMap Address ReelectInquiryReqMsg :=
  if msg.fromAccount = 0 then cache
  else
    match cache.lookup msg.fromAccount with
    | some old =>
      if msg.timeStamp < old.timeStamp then cache else cache.insert msg.fromAccount msg
    | none => cache.insert msg.fromAccount msg

def newMasterCache {Hash : Type} [Zero Hash] (number : ℕ) : MasterCache Hash :=
  ⟨number, .none, 0, none, ∅, none, 0, ∅, 0, none, ∅⟩

structure SharedCache (Hash : Type) extends MasterCache Hash where
  /-- Whether the request of the stored result and `rlReqMsg` are one object. -/
  shared : Bool

namespace MasterCache
variable {Hash : Type} [Zero Hash] [DecidableEq Hash] (node : CtrlNode Hash)
  (cache : MasterCache Hash)

def checkInquiryRspMsg (rsp : ReelectInquiryRspMsg Hash) : Except GoError Unit :=
  if cache.inquiryHash = 0 then .error errSelfReqIsNil
  else if rsp.reqHash ≠ cache.inquiryHash then .error (.error "reqHash不匹配")
  else .ok ()

def saveRLVote (signHash : Hash) (sign : Signature) (fromAccount : Address) :
    Except GoError (MasterCache Hash) :=
  if cache.rlReqHash = 0 then .error errSelfReqIsNil
  else if signHash ≠ cache.rlReqHash then .error (.error "signHash不匹配")
  else do
    let votes ← saveAgreeSign node cache.rlVoteCache "来自的签名已存在" signHash sign fromAccount
    pure { cache with rlVoteCache := votes }

def saveResultRsp (resultHash : Hash) (sign : Signature) (fromAccount : Address) :
    Except GoError (MasterCache Hash) :=
  if cache.resultBroadcastHash = 0 then .error errBroadcastIsNil
  else if resultHash ≠ cache.resultBroadcastHash then .error (.error "ResultHash不匹配")
  else do
    let rsps ← saveAgreeSign node cache.resultRspCache "响应已存在" resultHash sign fromAccount
    pure { cache with resultRspCache := rsps }

/-- The result is stamped when it is sent. -/
def getResultBroadcastMsg (now : ℤ) :
    Except GoError (MasterCache Hash × ReelectResultBroadcastMsg Hash × Hash) :=
  match cache.resultBroadcastMsg with
  | none => .error (.error "缓存中没有重选结果广播消息")
  | some msg =>
    let msg := { msg with timeStamp := now }
    .ok ({ cache with
      resultBroadcastMsg := some msg, resultBroadcastHash := node.resultHash msg
      resultRspCache := ∅ }, msg, node.resultHash msg)

def getLocalResultMsg : Except GoError (ReelectResultBroadcastMsg Hash) :=
  match cache.resultBroadcastMsg with
  | none => .error (.error "缓存中没有重选结果广播消息")
  | some msg => .ok msg

variable {node cache} {cache' : MasterCache Hash}

theorem saveResultRsp_resultBroadcastMsg {resultHash : Hash} {sign : Signature}
    {fromAccount : Address} (h : cache.saveResultRsp node resultHash sign fromAccount = .ok cache') :
    cache'.resultBroadcastMsg = cache.resultBroadcastMsg := by
  unfold saveResultRsp at h
  simp only [ite_error_eq_ok, bind_eq_ok_iff] at h
  obtain ⟨-, -, rsps, -, h⟩ := h
  cases h
  rfl

omit [Zero Hash] [DecidableEq Hash] in
theorem getLocalResultMsg_eq_ok {msg : ReelectResultBroadcastMsg Hash}
    (h : cache.getLocalResultMsg = .ok msg) : cache.resultBroadcastMsg = some msg := by
  unfold getLocalResultMsg at h
  split at h
  · cases h
  · rename_i hmsg
    cases h
    exact hmsg

end MasterCache

namespace SharedCache
variable {Hash : Type} [Zero Hash] [DecidableEq Hash] (node : CtrlNode Hash)
  (cache : SharedCache Hash)

/-- The request is a new object. -/
def setInquiryResultAgree (rightSign : List Signature) : Except GoError (SharedCache Hash) :=
  if cache.inquiryResult ≠ .none then
    .error (.error ("已存在询问结果(" ++ cache.inquiryResult.text ++ ")"))
  else .ok { cache with
    inquiryResult := .agree
    rlReqMsg := some ⟨cache.inquiryMsg, rightSign, 0⟩
    inquiryMsg := none, inquiryHash := 0, inquiryAgreeSignCache := ∅
    shared := false }

def setInquiryResultNotAgree (result : ReelectRSPType) (rsp : ReelectInquiryRspMsg Hash) :
    Except GoError (SharedCache Hash) :=
  if result ≠ .pos ∧ result ≠ .alreadyRL then
    .error (.error ("设置目标结果类型错误! target result = " ++ result.text))
  else if cache.inquiryResult ≠ .none then
    .error (.error ("已存在询问结果(" ++ cache.inquiryResult.text ++ ")"))
  else .ok { cache with
    inquiryResult := result
    inquiryMsg := none, inquiryHash := 0, inquiryAgreeSignCache := ∅
    rlReqMsg := none
    resultBroadcastMsg := some {
      number := cache.number, type := result
      posResult := rsp.posResult, rlResult := rsp.rlResult
      timeStamp := 0, fromAccount := node.address }
    shared := false }

/-- The result takes over the pointer to the request. -/
def setRLResultBroadcastSuccess (signs : List Signature) (now : ℤ) :
    Except GoError (SharedCache Hash) :=
  if cache.inquiryResult ≠ .agree then
    .error (.error ("当前询问结果(" ++ cache.inquiryResult.text ++ ") != ReelectRSPTypeAgree"))
  else .ok { cache with
    resultBroadcastMsg := some {
      number := cache.number, type := .agree, posResult := none
      rlResult := some ⟨cache.rlReqMsg, signs, now⟩
      timeStamp := 0, fromAccount := node.address }
    shared := true }

/-- Every request that is sent is stamped anew; a result that shares it shows the new stamp. -/
def getRLReqMsg (now : ℤ) : Except GoError (SharedCache Hash × ReelectLeaderReqMsg × Hash) :=
  if cache.inquiryResult ≠ .agree then
    .error (.error ("当前询问结果(" ++ cache.inquiryResult.text ++ ") != ReelectRSPTypeAgree"))
  else
    match cache.rlReqMsg with
    | none => .error nilDereference
    | some req =>
      let req := { req with timeStamp := now }
      let result :=
        if cache.shared then
          cache.resultBroadcastMsg.map fun msg =>
            { msg with rlResult := msg.rlResult.map fun rl => { rl with req := some req } }
        else cache.resultBroadcastMsg
      .ok ({ cache with
        rlReqMsg := some req, rlReqHash := node.leaderReqHash req, rlVoteCache := ∅
        resultBroadcastMsg := result }, req, node.leaderReqHash req)

end SharedCache

end MatrixNode
