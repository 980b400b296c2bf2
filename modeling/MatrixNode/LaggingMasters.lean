import MatrixNode.ReelectResults

/-! Inquiries of masters that have missed a re-election. -/
namespace MatrixNode
open GoLib Controller HeightController

section Pool
variable {Hash : Type}

theorem MsgPool.getRLConsensusMsg_of_empty {mp : MsgPool Hash} (h : mp.rlConsensusCache = ∅)
    (consensusTurn : UInt32) : mp.getRLConsensusMsg consensusTurn = .error errNoMsgInCache := by
  unfold MsgPool.getRLConsensusMsg
  rw [h, Finmap.lookup_empty]

theorem MsgPool.savePOSNotifyMsg_rlConsensusCache (mp : MsgPool Hash)
    (msg : BlockPOSFinishedNotify Hash) :
    (((mp.savePOSNotifyMsg msg).toOption).getD mp).rlConsensusCache = mp.rlConsensusCache := by
  unfold MsgPool.savePOSNotifyMsg
  split_ifs <;> rfl

end Pool

namespace Controller
variable {Hash : Type} {node : CtrlNode Hash} {env : CtrlEnv Hash} {c c' : Controller Hash}

theorem sendInquiryRspWithRLConsensus_of_empty (h : c.mp.rlConsensusCache = ∅) (reqHash : Hash)
    (target : Address) (number : ℕ) :
    c.sendInquiryRspWithRLConsensus reqHash target number = c := by
  unfold sendInquiryRspWithRLConsensus
  rw [MsgPool.getRLConsensusMsg_of_empty h]

variable [Zero Hash]

theorem timeOutHandle_mp : (c.timeOutHandle node env).mp = c.mp := by
  unfold timeOutHandle
  split
  · exact (startReelect_frame ..).1
  · exact (startReelect_frame ..).1
  · rfl
  · rfl

theorem processResultBroadcastMsg_mp {msg : ReelectResultBroadcastMsg Hash}
    (h : c.processResultBroadcastMsg node env (some msg) = .ok c') : c'.mp = c.mp := by
  rcases processResultBroadcastMsg_cases h with
    ⟨header, -, -, hpos⟩ | ⟨rlResult, req, inquiryReq, -, -, -, -, hrl⟩
  · rw [(processPOSResult_eq_ok_iff.mp hpos).2.2]
    exact (published_sendLeaderMsg node _).mp
  · rw [(processRLResult_eq_ok_iff.mp hrl).2.2.2]
    rcases finishReelectWithRLConsensus_enters node env c req inquiryReq with
      ⟨-, hsame⟩ | ⟨-, -, hmp, -⟩
    · rw [hsame]
    · exact hmp

end Controller

namespace HeightController
variable {Hash : Type} [Zero Hash] {node : CtrlNode Hash} {env : HeightEnv Hash}
  {c c' : HeightController Hash}

theorem handleStartMsg_mp (msg : StartControllerMsg Hash) :
    (c.handleStartMsg node env (some msg)).mp = c.mp := by
  rcases handleStartMsg_cases node env c msg with
    ⟨parent, hc⟩ | ⟨-, parentHeader, dc, -, ⟨-, hc⟩ | ⟨-, hc⟩⟩ <;> rw [hc]
  exact (beginHeight_frame ..).1

theorem processResultBroadcastMsg_mp {msg : ReelectResultBroadcastMsg Hash}
    (h : c.processResultBroadcastMsg node env (some msg) = .ok c') : c'.mp = c.mp := by
  obtain ⟨ctrl, hctrl, hc'⟩ := bind_eq_ok_iff.mp h
  cases hc'
  exact processResultBroadcastMsg_mp hctrl

variable [DecidableEq Hash] {input : HeightEvent Hash}

theorem step_rlConsensusCache (h : c.step node input = .ok c') :
    c'.mp.rlConsensusCache = c.mp.rlConsensusCache := by
  obtain ⟨env, i⟩ := input
  have hturn : TurnStep node env c c' i := turnStep_of_step h
  cases hturn with
  | quiet hc => rw [hc.mp]
  | start msg hc => rw [hc, handleStartMsg_mp]
  | notified msg hc =>
    subst hc
    have hmp : (c.lift fun ctrl => ctrl.handleBlockPOSFinishedNotify (some msg)).mp =
        ((c.mp.savePOSNotifyMsg msg).toOption).getD c.mp := by
      unfold lift handleBlockPOSFinishedNotify
      simp only [processPOSState_eq]
    rw [hmp]
    exact MsgPool.savePOSNotifyMsg_rlConsensusCache ..
  | timeOut hc =>
    subst hc
    exact congrArg MsgPool.rlConsensusCache timeOutHandle_mp
  | broadcast msg c₁ hprocess hc => rw [hc.mp, processResultBroadcastMsg_mp hprocess]
  | agreed rsp fromAccount msg c₁ hmsg hc hprocess =>
    rw [processResultBroadcastMsg_mp hprocess, hc.mp]

/-- The turn moves by an applied result only, and to the turn that the result is for. -/
theorem step_turn (h : c.step node input = .ok c') :
    c'.dc.curConsensusTurn = c.dc.curConsensusTurn ∨
      ∃ result, appliedResult node c input = some result ∧
        result.turn = some c'.dc.curConsensusTurn := by
  cases hdue : dueResult node c input with
  | none =>
    left
    rcases step_of_not_due hdue h with hquiet | ⟨msg, -, rfl⟩ | ⟨msg, -, rfl⟩ | ⟨-, rfl⟩
    · rw [hquiet.dc]
    · exact (handleStartMsg_advances msg).2
    · exact (processPOSState_sameTurn { c.toController with
        mp := ((c.mp.savePOSNotifyMsg msg).toOption).getD c.mp }).curConsensusTurn
    · exact (timeOutHandle_sameTurn ..).curConsensusTurn
  | some due =>
    obtain ⟨c₁, msg⟩ := due
    obtain ⟨hc₁, ⟨-, hquiet⟩ | ⟨c₂, hprocess, hquiet⟩⟩ := step_of_due hdue h
    · exact Or.inl (by rw [hquiet.dc, hc₁.dc])
    obtain ⟨ctrl, hctrl, hc₂⟩ := bind_eq_ok_iff.mp hprocess
    rcases processResultBroadcastMsg_cases hctrl with
      ⟨header, -, -, hpos⟩ | ⟨result, req, inquiryReq, htype, hrl, hreq, hinq, hrun⟩
    · left
      cases hc₂
      rw [hquiet.dc, ← hc₁.dc]
      rw [(processPOSResult_eq_ok_iff.mp hpos).2.2, finishReelectWithPOS_dc]
    · have hfinish := (processRLResult_eq_ok_iff.mp hrun).2.2.2
      rcases finishReelectWithRLConsensus_cases node input.1.toCtrlEnv c₁.toController req
        inquiryReq with ⟨err, -, hsame⟩ | ⟨leader, hleader, -, hturn⟩
      · left
        cases hc₂
        rw [hquiet.dc, ← hc₁.dc]
        rw [hfinish, hsame]
      · right
        refine ⟨result, ?_, ?_⟩
        · unfold appliedResult ReelectResultBroadcastMsg.reelected ReelectLeaderConsensus.turn
          simp only [hdue, Option.bind_some, htype, if_true, hrl, hreq, hinq, Option.map_some,
            hprocess, hleader]
        · unfold ReelectLeaderConsensus.turn
          rw [hreq, Option.bind_some, hinq, Option.map_some, hquiet.dc]
          cases hc₂
          rw [hfinish, hturn]

/-- What an inquiry is checked for: the controller takes part in its height, and the inquiry was sent by
the master of its turns. -/
structure ValidInquiry (node : CtrlNode Hash) (c : HeightController Hash)
    (req : ReelectInquiryReqMsg) : Prop where
  active : c.dc.state ≠ .stIdle
  sender : req.master = req.fromAccount
  master : c.dc.getLeader node.broadcastNode (req.consensusTurn+req.reelectTurn) =
    .ok req.fromAccount

/-- Of the three comparisons of turns the last branch is left, which reads the cache. -/
theorem step_of_lagging {req : ReelectInquiryReqMsg} (hcache : c.mp.rlConsensusCache = ∅)
    (hi : input.2 = .inquiryReq (some req)) (hvalid : ValidInquiry node c req)
    (hlags : req.consensusTurn < c.dc.curConsensusTurn) : c.step node input = .ok c := by
  have hlater : ¬ c.dc.curConsensusTurn < req.consensusTurn := by
    intro hlt
    exact UInt32.lt_irrefl _ (UInt32.lt_trans hlags hlt)
  have hother : req.consensusTurn ≠ c.dc.curConsensusTurn := UInt32.ne_of_lt hlags
  have hquiet := sendInquiryRspWithRLConsensus_of_empty hcache (node.inquiryHash req)
    req.fromAccount req.number
  unfold step
  rw [hi]
  unfold handleInquiryReq
  dsimp only
  rw [if_neg hvalid.active, if_neg (not_not.mpr hvalid.sender), hvalid.master]
  dsimp only
  rw [if_neg (not_not.mpr rfl), if_neg hlater, if_neg hother]
  simp only [lift, hquiet]

end HeightController

namespace ResultHistory
variable {Hash : Type} [Zero Hash] [DecidableEq Hash]

/-- If the controller has been moved to a turn by a result, an inquiry of an earlier turn that is valid
is answered with a result for its turn. -/
def AnswersLagging (node : CtrlNode Hash) (h : ResultHistory Hash)
    (input : HeightEvent Hash) (h' : ResultHistory Hash) : Prop :=
  ∀ req turn, h.dc.curConsensusTurn = turn → 0 < turn →
    (∃ old ∈ h.applied, old.1.turn = some turn) →
    input.2 = .inquiryReq (some req) →
    ValidInquiry node h.toHeightController req → req.consensusTurn < turn →
    ∃ rsp result, CtrlEffect.inquiryRsp rsp req.fromAccount ∈ h'.outbox.drop h.outbox.length ∧
      rsp.reqHash = node.inquiryHash req ∧ rsp.rlResult = some result ∧ result.turn = some turn

def NoneLags (node : CtrlNode Hash) (h : ResultHistory Hash) (input : HeightEvent Hash) : Prop :=
  ∀ req, input.2 = .inquiryReq (some req) →
    ValidInquiry node h.toHeightController req →
    h.dc.curConsensusTurn ≤ req.consensusTurn

/-- What every run keeps: there is nothing to answer with, and a turn after the first was brought by a
result. -/
structure Unserved (h : ResultHistory Hash) : Prop where
  cache : h.mp.rlConsensusCache = ∅
  moved : h.dc.curConsensusTurn ≠ 0 → ∃ old ∈ h.applied, old.1.turn = some h.dc.curConsensusTurn

variable {node : CtrlNode Hash} {h h' : ResultHistory Hash}
  {input : HeightEvent Hash}

theorem Unserved.step (hu : h.Unserved) (hstep : h.step node input = .ok h') : h'.Unserved := by
  obtain ⟨c, hctrl, hstep⟩ := bind_eq_ok_iff.mp hstep
  cases hstep
  refine ⟨(step_rlConsensusCache hctrl).trans hu.cache, ?_⟩
  intro hne
  rcases step_turn hctrl with hsame | ⟨result, happlied, hturn⟩
  · obtain ⟨old, hold, hturn⟩ := hu.moved (by rw [← hsame]; exact hne)
    refine ⟨old, List.mem_append_right _ hold, ?_⟩
    rw [hturn]
    exact congrArg some hsame.symm
  · refine ⟨(result,input.1.now), ?_, hturn⟩
    apply List.mem_append_left
    rw [happlied]
    exact List.mem_singleton_self _

/-- The step leaves the controller as it was, so nothing was sent in it. -/
theorem Unserved.answersLagging_iff (hu : h.Unserved) (hstep : h.step node input = .ok h') :
    AnswersLagging node h input h' ↔ NoneLags node h input := by
  constructor
  · intro hanswers req hi hvalid
    by_contra hlags
    rw [UInt32.not_le] at hlags
    have hne : h.dc.curConsensusTurn ≠ 0 := by
      intro hzero
      rw [hzero] at hlags
      exact UInt32.not_lt_zero hlags
    obtain ⟨rsp, result, hsent, -⟩ := hanswers req _ rfl (UInt32.pos_iff_ne_zero.mpr hne)
      (hu.moved hne) hi hvalid hlags
    have hsame : h'.toHeightController = h.toHeightController := by
      have hctrl := (step_eq_ok hstep).1
      rw [step_of_lagging hu.cache hi hvalid hlags] at hctrl
      exact (Except.ok.inj hctrl).symm
    rw [hsame, List.drop_length] at hsent
    cases hsent
  · intro hnone req turn hturn _ _ hi hvalid hlags
    rw [← hturn] at hlags
    exact absurd hlags (UInt32.not_lt.mpr (hnone req hi hvalid))

/-- In every run, a controller that was moved to a turn by a result answers the valid inquiries of
earlier turns exactly if there are none. -/
theorem lagging_answered_iff (node : CtrlNode Hash) (number : ℕ)
    (inputs : List (HeightEvent Hash)) :
    EachStep (step node) (AnswersLagging node) (init number) inputs ↔
      EachBefore (step node) (NoneLags node) (init number) inputs := by
  have hreturns (h : ResultHistory Hash) (input : HeightEvent Hash)
      (hu : h.Unserved) (hlags : ¬ NoneLags node h input) : ∃ h', h.step node input = .ok h' := by
    by_contra hpanics
    apply hlags
    intro req hi hvalid
    by_contra hlt
    have hstep := step_of_lagging hu.cache hi hvalid (UInt32.not_le.mp hlt)
    exact hpanics ⟨_, bind_eq_ok_iff.mpr ⟨_, hstep, rfl⟩⟩
  have hinit : (init number : ResultHistory Hash).Unserved := ⟨rfl, fun hne => absurd rfl hne⟩
  exact eachStep_iff_eachBefore hreturns (fun _ _ _ hu hstep => hu.answersLagging_iff hstep)
    (fun _ _ _ hu _ hstep => hu.step hstep) hinit

def latecomer : ReelectInquiryReqMsg := ⟨3, 0, 2, 1050, 2, 2⟩

/-- Turn 1 was voted for, and account 2 has missed it. Its inquiry is valid, and nothing is sent. -/
theorem lagging_master_unanswered :
    ∃ h h', run (step masterNode) (init 3) turnOneInputs = .ok h ∧
      h.step masterNode (masterEnv 1050,.inquiryReq (some latecomer)) = .ok h' ∧
      h.applied = [(turnOneResult,1050)] ∧ h.dc.curConsensusTurn = 1 ∧
      ValidInquiry masterNode h.toHeightController latecomer ∧
      h'.outbox = h.outbox ∧
      ¬ AnswersLagging masterNode h (masterEnv 1050,.inquiryReq (some latecomer)) h' := by
  have hbefore : (run (step masterNode) (init 3) turnOneInputs).toOption.map
      (fun h => (h.applied,h.dc.curConsensusTurn,h.dc.state,
        (h.dc.getLeader masterNode.broadcastNode 2).toOption.map id)) =
      some ([(turnOneResult,1050)],1,.stPos,some 2) := by
    decide +kernel
  have hafter : (run (step masterNode) (init 3) turnOneInputs >>= fun h =>
      h.step masterNode (masterEnv 1050,.inquiryReq (some latecomer))).toOption.map
        (fun h => h.outbox) =
      (run (step masterNode) (init 3) turnOneInputs).toOption.map fun h => h.outbox := by
    decide +kernel
  obtain ⟨h, hrun, hend⟩ := exists_ok_of_map_toOption hbefore
  simp only [Prod.mk.injEq] at hend
  obtain ⟨happlied, hturn, hstate, hmaster⟩ := hend
  rw [hrun] at hafter
  obtain ⟨h', hstep, hout⟩ := exists_ok_of_map_toOption hafter
  have hvalid : ValidInquiry masterNode h.toHeightController latecomer := by
    refine ⟨?_, rfl, ?_⟩
    · rw [hstate]
      decide
    · obtain ⟨master, hleader, hid⟩ := exists_ok_of_map_toOption hmaster
      cases hid
      exact hleader
  refine ⟨h, h', hrun, hstep, happlied, hturn, hvalid, hout, ?_⟩
  intro hanswers
  have hmoved : ∃ old ∈ h.applied, old.1.turn = some 1 := by
    rw [happlied]
    exact ⟨_, List.mem_singleton_self _, rfl⟩
  obtain ⟨rsp, result, hsent, -⟩ := hanswers latecomer 1 hturn (by decide) hmoved rfl hvalid (by decide)
  rw [hout, List.drop_length] at hsent
  cases hsent

end ResultHistory

end MatrixNode
