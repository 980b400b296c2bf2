import MatrixNode.DposQuorum
import MatrixNode.ReelectController
import MatrixNode.StepRun

/-! What stands behind a controller that changes its state or its turn on the broadcast
result of a re-election: signatures of enough validators of its height, and, when the
broadcast is about that height at all, evidence about it. -/
namespace MatrixNode
open GoLib Controller DposEngine

namespace Controller
variable {Hash : Type} (node : CtrlNode Hash) (env : CtrlEnv Hash)

/-- A block of the controller's height, signed by enough of its validators. -/
def POSEvidence (dc : Cdc) (msg : ReelectResultBroadcastMsg Hash) : Prop :=
  msg.type = .pos ∧ ∃ header, msg.posResult.bind BlkConsensusReqMsg.header = some header ∧
    header.number = dc.number ∧
    node.engine.SignedByQuorum (dc.reader env.chain) dc.number
      (node.engine.hashNoSignsAndNonce header) header.signatures

/-- A request for the controller's height and the given turn, made by the master of that
turn and signed by enough validators of the height. -/
def RLEvidence (dc : Cdc) (turn : UInt32) (msg : ReelectResultBroadcastMsg Hash) : Prop :=
  (msg.type = .agree ∨ msg.type = .alreadyRL) ∧ ∃ rlResult req inquiryReq,
    msg.rlResult = some rlResult ∧ rlResult.req = some req ∧ req.inquiryReq = some inquiryReq ∧
    inquiryReq.consensusTurn+inquiryReq.reelectTurn = turn ∧
    inquiryReq.number = dc.number ∧
    dc.getLeader node.broadcastNode turn = .ok inquiryReq.master ∧
    node.engine.SignedByQuorum (dc.reader env.chain) dc.number
      (node.leaderReqHash req) rlResult.votes

/-- A step that changes state or consensus turn was made on evidence about the height. -/
def BackedChange (c : Controller Hash) (input : CtrlEnv Hash × Option (ReelectResultBroadcastMsg Hash))
    (c' : Controller Hash) : Prop :=
  c'.dc.state ≠ c.dc.state ∨ c'.dc.curConsensusTurn ≠ c.dc.curConsensusTurn →
    ∃ msg, input.2 = some msg ∧ (POSEvidence node input.1 c.dc msg ∨
      RLEvidence node input.1 c.dc c'.dc.curConsensusTurn msg)

/-- The checks that the code leaves out: the result is for the height, and a re-election result
comes from the master of its turn. -/
def AboutHeight (dc : Cdc) (msg : ReelectResultBroadcastMsg Hash) : Prop :=
  match msg.type with
  | .pos => ∀ header, msg.posResult.bind BlkConsensusReqMsg.header = some header →
      header.number = dc.number ∧ isBroadcastNumber dc.number = false
  | .agree | .alreadyRL => ∀ rlResult req inquiryReq,
      msg.rlResult = some rlResult → rlResult.req = some req → req.inquiryReq = some inquiryReq →
      inquiryReq.number = dc.number ∧
        dc.getLeader node.broadcastNode (inquiryReq.consensusTurn+inquiryReq.reelectTurn) =
          .ok inquiryReq.master
  | .none | .newBlockReady => True

variable [Zero Hash]

def resultStep (c : Controller Hash) (input : CtrlEnv Hash × Option (ReelectResultBroadcastMsg Hash)) :
    Except GoError (Controller Hash) :=
  c.handleResultBroadcastMsg node input.1 input.2

variable {node env} {c c' : Controller Hash}

theorem processPOSResult_eq_ok_iff {header : Header Hash} {fromAccount : Address} :
    c.processPOSResult node env header fromAccount = .ok c' ↔
      header.leader = c.dc.consensusLeader ∧
      node.engine.verifyBlock (c.dc.reader env.chain) header env.orders = .ok () ∧
      c' = c.finishReelectWithPOS node header fromAccount := by
  unfold processPOSResult
  rw [ite_error_eq_ok, not_not]
  apply and_congr_right
  intro _
  cases h : node.engine.verifyBlock (c.dc.reader env.chain) header env.orders with
  | error err => simp
  | ok u => simp [eq_comm]

theorem processRLResult_eq_ok_iff {rlResult : ReelectLeaderConsensus} {req : ReelectLeaderReqMsg}
    {inquiryReq : ReelectInquiryReqMsg} :
    c.processRLResult node env rlResult req inquiryReq = .ok c' ↔
      c.dc.curConsensusTurn ≤ inquiryReq.consensusTurn+inquiryReq.reelectTurn ∧
      req.timeStamp ≤ rlResult.timeStamp ∧
      (∃ right, node.engine.verifyHashWithNumber (c.dc.reader env.chain) (node.leaderReqHash req)
        rlResult.votes c.dc.number env.orders = .ok right) ∧
      c' = c.finishReelectWithRLConsensus node env req inquiryReq := by
  unfold processRLResult
  simp only [ite_error_eq_ok, not_lt]
  apply and_congr UInt32.not_lt
  apply and_congr_right
  intro _
  cases node.engine.verifyHashWithNumber (c.dc.reader env.chain) (node.leaderReqHash req)
      rlResult.votes c.dc.number env.orders with
  | error err => simp
  | ok right => simp [eq_comm]

variable {msg : ReelectResultBroadcastMsg Hash}

/-- The two types of a re-election result share one branch. -/
theorem processResultBroadcastMsg_cases
    (h : c.processResultBroadcastMsg node env (some msg) = .ok c') :
    (∃ header, msg.type = .pos ∧ msg.posResult.bind BlkConsensusReqMsg.header = some header ∧
      c.processPOSResult node env header msg.fromAccount = .ok c') ∨
    (∃ rlResult req inquiryReq, (msg.type = .agree ∨ msg.type = .alreadyRL) ∧
      msg.rlResult = some rlResult ∧ rlResult.req = some req ∧ req.inquiryReq = some inquiryReq ∧
      c.processRLResult node env rlResult req inquiryReq = .ok c') := by
  unfold processResultBroadcastMsg at h
  dsimp only at h
  split at h
  · rename_i htype
    split at h
    · cases h
    · rename_i header hheader
      exact Or.inl ⟨header, htype, hheader, h⟩
  iterate 2
    · rename_i htype
      split at h
      · cases h
      · rename_i rlResult hrl
        split at h
        · cases h
        · rename_i req hreq
          split at h
          · cases h
          · rename_i inquiryReq hinq
            exact Or.inr ⟨rlResult, req, inquiryReq, by simp [htype], hrl, hreq, hinq, h⟩
  · cases h
  · cases h

theorem handleResultBroadcastMsg_cases {msg : Option (ReelectResultBroadcastMsg Hash)}
    (h : c.handleResultBroadcastMsg node env msg = .ok c') :
    c'.dc = c.dc ∨ ∃ m c₁, msg = some m ∧
      c.processResultBroadcastMsg node env (some m) = .ok c₁ ∧ c'.dc = c₁.dc := by
  unfold handleResultBroadcastMsg at h
  split at h
  · cases h
    exact Or.inl rfl
  · split at h
    · cases h
      exact Or.inl rfl
    · cases h
    · rename_i m _ c₁ hc₁
      cases h
      exact Or.inr ⟨m, c₁, rfl, hc₁, sendResultBroadcastRsp_dc ..⟩

theorem resultStep_of_process (h : c.processResultBroadcastMsg node env (some msg) = .ok c') :
    c.resultStep node (env, some msg) = .ok (c'.sendResultBroadcastRsp node env msg) := by
  unfold resultStep handleResultBroadcastMsg
  simp only [h]

variable {input : CtrlEnv Hash × Option (ReelectResultBroadcastMsg Hash)}

theorem resultStep_sameHeight (h : c.resultStep node input = .ok c') : c.dc.SameHeight c'.dc := by
  rcases handleResultBroadcastMsg_cases h with hsame | ⟨m, c₁, -, hm, hdc⟩
  · rw [hsame]
    exact Cdc.SameHeight.refl _
  rw [hdc]
  rcases processResultBroadcastMsg_cases hm with
    ⟨header, -, -, hpos⟩ | ⟨rlResult, req, inquiryReq, -, -, -, -, hrl⟩
  · rw [(processPOSResult_eq_ok_iff.mp hpos).2.2]
    rw [finishReelectWithPOS_dc]
    exact ⟨rfl, rfl⟩
  · rw [(processRLResult_eq_ok_iff.mp hrl).2.2.2]
    rcases finishReelectWithRLConsensus_cases node input.1 c req inquiryReq with
      ⟨-, -, hc⟩ | ⟨-, -, hc, -⟩
    · rw [hc]
      exact Cdc.SameHeight.refl _
    · exact hc

/-- A broadcast about the controller's height is evidence when it changes anything: the
signatures were checked against the validators of that height. -/
theorem resultStep_backedChange (habout : ∀ msg, input.2 = some msg → AboutHeight node c.dc msg)
    (h : c.resultStep node input = .ok c') : BackedChange node c input c' := by
  intro hchange
  rcases handleResultBroadcastMsg_cases h with hsame | ⟨m, c₁, hinput, hm, hdc⟩
  · rw [hsame] at hchange
    simp at hchange
  have hm' := habout m hinput
  refine ⟨m, hinput, ?_⟩
  rcases processResultBroadcastMsg_cases hm with
    ⟨header, htype, hheader, hpos⟩ | ⟨rlResult, req, inquiryReq, htype, hrlr, hreq, hinq, hrl⟩
  · left
    simp only [AboutHeight, htype] at hm'
    obtain ⟨hnumber, hb⟩ := hm' header hheader
    obtain ⟨-, hverify, -⟩ := processPOSResult_eq_ok_iff.mp hpos
    have hsigned := (verifyBlock_eq_ok_iff (by rw [hnumber, hb])).mp hverify
    rw [hnumber] at hsigned
    exact ⟨htype, header, hheader, hnumber, hsigned⟩
  · right
    have hm' : inquiryReq.number = c.dc.number ∧ c.dc.getLeader node.broadcastNode
        (inquiryReq.consensusTurn+inquiryReq.reelectTurn) = .ok inquiryReq.master := by
      rcases htype with ht | ht <;> simp only [AboutHeight, ht] at hm' <;>
        exact hm' rlResult req inquiryReq hrlr hreq hinq
    obtain ⟨-, -, hverify, hc₁⟩ := processRLResult_eq_ok_iff.mp hrl
    have hturn : c'.dc.curConsensusTurn = inquiryReq.consensusTurn+inquiryReq.reelectTurn := by
      rcases finishReelectWithRLConsensus_cases node input.1 c req inquiryReq with
        ⟨-, -, hc⟩ | ⟨-, -, -, hc⟩
      · rw [hdc, hc₁, hc] at hchange
        simp at hchange
      · rw [hdc, hc₁, hc]
    rw [hturn]
    exact ⟨htype, rlResult, req, inquiryReq, hrlr, hreq, hinq, rfl, hm'.1, hm'.2,
      verifyHashWithNumber_isOk_iff.mp hverify⟩

omit [Zero Hash] in
theorem AboutHeight.of_sameHeight {dc dc' : Cdc} (hh : dc.SameHeight dc')
    (h : AboutHeight node dc msg) : AboutHeight node dc' msg := by
  unfold AboutHeight at h ⊢
  rw [hh.number]
  simp only [hh.getLeader_eq]
  exact h

/-- In every run on broadcasts about the controller's height, whatever changes its state
or its turn is evidence about that height. -/
theorem resultRun_backedChange (node : CtrlNode Hash) (c : Controller Hash)
    (inputs : List (CtrlEnv Hash × Option (ReelectResultBroadcastMsg Hash)))
    (habout : ∀ input ∈ inputs, ∀ msg, input.2 = some msg → AboutHeight node c.dc msg) :
    EachStep (resultStep node) (BackedChange node) c inputs := by
  have hkeep : ∀ (s : Controller Hash) input s',
      (∀ msg, input.2 = some msg → AboutHeight node c.dc msg) → c.dc.SameHeight s.dc →
      resultStep node s input = .ok s' → c.dc.SameHeight s'.dc := by
    intro s input s' _ hs hstep
    exact hs.trans (resultStep_sameHeight hstep)
  have hback : ∀ (s : Controller Hash) input s',
      (∀ msg, input.2 = some msg → AboutHeight node c.dc msg) → c.dc.SameHeight s.dc →
      resultStep node s input = .ok s' → BackedChange node s input s' := by
    intro s input s' hgood hs hstep
    apply resultStep_backedChange _ hstep
    intro msg hmsg
    exact (hgood msg hmsg).of_sameHeight hs
  exact eachStep_of_preserves hkeep hback habout (Cdc.SameHeight.refl _)

end Controller

section Sample

inductive FreeHash where
  | zero
  | header (h : UnsignedHeader FreeHash)
  | inquiry (req : ReelectInquiryReqMsg)
  | leaderReq (req : ReelectLeaderReqMsg)
  | result (msg : ReelectResultBroadcastMsg FreeHash)

instance : Zero FreeHash := ⟨.zero⟩

def FreeHash.height : FreeHash → ℕ
  | .header h => h.number
  | .leaderReq ⟨some inquiryReq,_,_⟩ => inquiryReq.number
  | _ => 0

def heightSign (account number : ℕ) : Signature := BitVec.ofNat 520 (account+number*2^160)

def replayNode : CtrlNode FreeHash where
  engine := {
    headerHash := .header
    recover := fun signHash sign =>
      let account := sign.setWidth 160
      if sign = heightSign account.toNat signHash.height then some (account,true) else none
    broadCastNodes := [100] }
  address := 1
  inquiryHash := .inquiry
  leaderReqHash := .leaderReq
  resultHash := .result

def replayGraph : TopologyGraph :=
  ⟨0, [1,2,3,4].map fun account => ⟨account, 0, .validator, 1, 0⟩, 0⟩

def replayController : Controller FreeHash where
  dc := { newCDC 3 with
    state := .stReelect, consensusLeader := 2
    leaderCal := ⟨3, 1, [2,3,4,1], replayGraph.nodeList⟩ }
  mp := ⟨[], ∅⟩
  selfCache := ⟨3, .none, 0, none, ∅, none, 0, ∅, 0, none, ∅⟩
  timer := 0
  reelectTimer := 0
  outbox := []

noncomputable def replayEnv : CtrlEnv FreeHash where
  chain := fun _ => .ok replayGraph
  now := 100
  reqTime := 100
  orders := default
  signHash := fun _ => .error (.error "no key")

def replayBlock (number : ℕ) : Header FreeHash :=
  { emptyHeader with
    leader := 2, number := number
    signatures := [1,2,3,4].map fun account => heightSign account number }

def replayPOSResult (number : ℕ) : ReelectResultBroadcastMsg FreeHash :=
  ⟨number, .pos, some ⟨2, some (replayBlock number), 0, []⟩, none, 0, 2⟩

def replayRLResult (number : ℕ) (master : Address) : ReelectResultBroadcastMsg FreeHash :=
  ⟨number, .agree, none, some ⟨some ⟨some ⟨number, 0, 1, 0, master, master⟩, [], 90⟩,
    [1,2,3,4].map fun account => heightSign account number, 95⟩, 0, master⟩

variable {number : ℕ}

theorem replay_signedByQuorum (hn : number < 4) {signHash : FreeHash} {height : ℕ}
    (hh : signHash.height = height) (hheight : height < 4) :
    replayNode.engine.SignedByQuorum (replayController.dc.reader replayEnv.chain) number signHash
      ([1,2,3,4].map fun account => heightSign account height) := by
  have hstocks : getValidatorStocks (replayController.dc.reader replayEnv.chain) number =
      .ok (graph2ValidatorStocks replayGraph) := by
    have hlow : ¬ replayController.dc.number ≤ number-1 := by
      change ¬ 3 ≤ number-1
      omega
    change (replayController.dc.getValidatorByNumber replayEnv.chain (number-1) >>= _) = _
    unfold Cdc.getValidatorByNumber
    rw [if_neg hlow]
    rfl
  have hrecover : ([1,2,3,4].map fun account => heightSign account height).map
      (replayNode.engine.recover signHash) = [1,2,3,4].map fun account => some (account,true) := by
    unfold replayNode
    simp only [hh]
    interval_cases height <;> decide +kernel
  refine ⟨_, hstocks, by decide +kernel, Finset.filter_subset _ _, ?_⟩
  unfold agreeAccounts
  rw [hrecover]
  decide +kernel

theorem replayPOSResult_accepted (h : number = 2 ∨ number = 3) :
    ∃ c', resultStep replayNode replayController
      (replayEnv, some (replayPOSResult number)) = .ok c' ∧ c'.dc.state = .stMining := by
  have hb : isBroadcastNumber (replayBlock number).number = false := by
    rcases h with rfl | rfl <;> decide
  have hverify : replayNode.engine.verifyBlock (replayController.dc.reader replayEnv.chain)
      (replayBlock number) replayEnv.orders = .ok () :=
    (verifyBlock_eq_ok_iff hb).mpr (replay_signedByQuorum (by
      change number < 4
      omega) rfl (by omega))
  have hpos : replayController.processResultBroadcastMsg replayNode replayEnv
      (some (replayPOSResult number)) = .ok (replayController.finishReelectWithPOS replayNode
        (replayBlock number) 2) :=
    processPOSResult_eq_ok_iff.mpr ⟨rfl, hverify, rfl⟩
  refine ⟨_, resultStep_of_process hpos, ?_⟩
  rw [sendResultBroadcastRsp_dc, finishReelectWithPOS_dc]

/-- The signers are checked against the validators of height 3, whatever height the request names.
-/
theorem replayRLResult_accepted (h : number = 2 ∨ number = 3) (master : Address) :
    ∃ c', resultStep replayNode replayController
      (replayEnv, some (replayRLResult number master)) = .ok c' ∧ c'.dc.curConsensusTurn = 1 := by
  let inquiryReq : ReelectInquiryReqMsg := ⟨number, 0, 1, 0, master, master⟩
  let req : ReelectLeaderReqMsg := ⟨some inquiryReq, [], 90⟩
  let votes := [1,2,3,4].map fun account => heightSign account number
  have hverify : ∃ right, replayNode.engine.verifyHashWithNumber
      (replayController.dc.reader replayEnv.chain) (replayNode.leaderReqHash req) votes 3
      replayEnv.orders = .ok right :=
    verifyHashWithNumber_isOk_iff.mpr
      (replay_signedByQuorum (by decide) rfl (by omega))
  have hrl : replayController.processResultBroadcastMsg replayNode replayEnv
      (some (replayRLResult number master)) = .ok
        (replayController.finishReelectWithRLConsensus replayNode replayEnv req inquiryReq) := by
    change replayController.processRLResult replayNode replayEnv ⟨some req, votes, 95⟩ req
      inquiryReq = _
    refine processRLResult_eq_ok_iff.mpr ⟨?_, ?_, hverify, rfl⟩
    · change (0 : UInt32) ≤ 0+1
      decide
    · change (90 : ℤ) ≤ 95
      decide
  refine ⟨_, resultStep_of_process hrl, ?_⟩
  rcases finishReelectWithRLConsensus_cases replayNode replayEnv replayController req
    inquiryReq with ⟨err, herr, -⟩ | ⟨-, -, -, hturn⟩
  · cases herr
  · exact hturn

/-- A block and a re-election request of height 2 are replayed at height 3. -/
theorem replayed_results_not_backed :
    Function.Injective replayNode.engine.headerHash ∧
      Function.Injective replayNode.leaderReqHash ∧
      ¬ EachStep (resultStep replayNode) (BackedChange replayNode)
        replayController [(replayEnv, some (replayPOSResult 2))] ∧
      ¬ EachStep (resultStep replayNode) (BackedChange replayNode)
        replayController [(replayEnv, some (replayRLResult 2 9))] := by
  refine ⟨fun h h' => FreeHash.header.inj, fun r r' => FreeHash.leaderReq.inj, ?_, ?_⟩
  · intro hall
    obtain ⟨c', hc', hstate⟩ := replayPOSResult_accepted (Or.inl rfl)
    have hchange : c'.dc.state ≠ replayController.dc.state := by
      rw [hstate]
      decide
    obtain ⟨msg, hmsg, hpos | hrl⟩ := (hall c' hc').1 (Or.inl hchange)
    · cases hmsg
      obtain ⟨-, header, hheader, hnumber, -⟩ := hpos
      cases hheader
      exact absurd hnumber (by decide)
    · cases hmsg
      rcases hrl.1 with htype | htype <;> cases htype
  · intro hall
    obtain ⟨c', hc', hturn⟩ := replayRLResult_accepted (Or.inl rfl) 9
    have hchange : c'.dc.curConsensusTurn ≠ replayController.dc.curConsensusTurn := by
      rw [hturn]
      decide
    obtain ⟨msg, hmsg, hpos | hrl⟩ := (hall c' hc').1 (Or.inr hchange)
    · cases hmsg
      cases hpos.1
    · cases hmsg
      obtain ⟨-, rlResult, req, inquiryReq, hrlr, hreq, hinq, -, hnumber, -⟩ := hrl
      cases hrlr
      cases hreq
      cases hinq
      exact absurd hnumber (by decide)

/-- The block of height 3 itself is evidence, and so is a request of the master of turn 1. -/
theorem resultRun_backedChange_height_three :
    ∃ c', resultStep replayNode replayController
        (replayEnv, some (replayRLResult 3 3)) = .ok c' ∧ c'.dc.curConsensusTurn = 1 ∧
      BackedChange replayNode replayController
        (replayEnv, some (replayRLResult 3 3)) c' ∧
      EachStep (resultStep replayNode) (BackedChange replayNode) c'
        [(replayEnv, some (replayPOSResult 3))] := by
  have habout : ∀ input ∈ [(replayEnv, some (replayRLResult 3 3)),
      (replayEnv, some (replayPOSResult 3))], ∀ msg, input.2 = some msg →
      AboutHeight replayNode replayController.dc msg := by
    intro input hinput msg hmsg
    rcases List.mem_pair.mp hinput with rfl | rfl
    · cases hmsg
      intro rlResult req inquiryReq hrl hreq hinq
      cases hrl
      cases hreq
      cases hinq
      exact ⟨rfl, rfl⟩
    · cases hmsg
      intro header hheader
      cases hheader
      exact ⟨rfl, by decide⟩
  obtain ⟨c', hc', hturn⟩ := replayRLResult_accepted (Or.inr rfl) 3
  obtain ⟨hback, hrest⟩ := resultRun_backedChange replayNode replayController _ habout c' hc'
  exact ⟨c', hc', hturn, hback, hrest⟩

end Sample

end MatrixNode
