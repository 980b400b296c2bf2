import MatrixNode.HeightController
import MatrixNode.ReelectEvidence

/-! What a controller that waits for the miners has in hand: a notification that the POS phase of its
turn is finished, or a verified block of its leader. -/
namespace MatrixNode
open GoLib Controller

section Fits
variable {Hash : Type}

def FirstFits (cache : List (BlockPOSFinishedNotify Hash)) (leader : Address) (turn : UInt32) : Prop :=
  ∀ msg, cache.head? = some msg → msg.header.leader = leader ∧ msg.consensusTurn = turn

def Notified (cache : List (BlockPOSFinishedNotify Hash)) (leader : Address) (turn : UInt32) : Prop :=
  ∃ msg ∈ cache, msg.header.leader = leader ∧ msg.consensusTurn = turn

theorem FirstFits.notified {cache : List (BlockPOSFinishedNotify Hash)} {leader : Address}
    {turn : UInt32} (h : FirstFits cache leader turn) (hne : cache ≠ []) :
    Notified cache leader turn := by
  cases cache with
  | nil => exact absurd rfl hne
  | cons msg rest => exact ⟨msg, List.mem_cons_self, h msg rfl⟩

end Fits

namespace Controller
variable {Hash : Type} [Zero Hash] {node : CtrlNode Hash} (env : CtrlEnv Hash) (c : Controller Hash)

theorem resumeTurn_outcome (node : CtrlNode Hash) (env : CtrlEnv Hash) (c : Controller Hash)
    (consensusTurn : UInt32) :
    (c.resumeTurn node env consensusTurn).dc.consensusLeader = c.dc.consensusLeader ∧
    ((c.resumeTurn node env consensusTurn).dc.state = .stMining → c.mp.posNotifyCache ≠ []) := by
  rw [(resumeTurn_frame node env c consensusTurn).2]
  rcases c.dc.turnTime.calState_state consensusTurn env.now with ⟨hst, -⟩ | hst
  · rw [if_pos hst]
    refine ⟨rfl, fun h hempty => ?_⟩
    rw [if_neg (not_not.mpr hempty)] at h
    cases h
  · rw [if_neg (by rw [hst]; decide)]
    obtain ⟨turn, master, hset⟩ := Cdc.setReelectTurn_frame { c.dc with
      state := (c.dc.turnTime.calState consensusTurn env.now).1, curReelectTurn := 0 }
      node.broadcastNode (c.dc.turnTime.calState consensusTurn env.now).2.2
    rw [hset]
    exact ⟨rfl, fun h => absurd (hst.symm.trans h) (by decide)⟩

variable {c} in
theorem resumeTurn_notified
    (hfits : FirstFits c.mp.posNotifyCache c.dc.consensusLeader c.dc.curConsensusTurn)
    (consensusTurn : UInt32)
    (h : (c.resumeTurn node env consensusTurn).dc.state = .stMining) :
    Notified c.mp.posNotifyCache (c.resumeTurn node env consensusTurn).dc.consensusLeader
      (c.resumeTurn node env consensusTurn).dc.curConsensusTurn := by
  obtain ⟨hleader, hne⟩ := resumeTurn_outcome node env c consensusTurn
  rw [hleader, (resumeTurn_sameTurn node env c consensusTurn).curConsensusTurn]
  exact hfits.notified (hne h)

theorem timeOutHandle_mining (h : (c.timeOutHandle node env).dc.state = .stMining) :
    c.timeOutHandle node env = c := by
  unfold timeOutHandle at h ⊢
  split at h
  · rw [(startReelect_frame node env _ 1).2, if_pos rfl] at h
    obtain ⟨turn, master, hset⟩ := Cdc.setReelectTurn_frame { c.dc with state := .stReelect }
      node.broadcastNode 1
    rw [hset] at h
    cases h
  · rename_i hst
    rw [(startReelect_frame node env _ _).2, if_pos hst] at h
    obtain ⟨turn, master, hset⟩ := Cdc.setReelectTurn_frame c.dc node.broadcastNode
      (c.dc.curReelectTurn+1)
    rw [hset] at h
    exact absurd (hst.symm.trans h) (by decide)
  · rfl
  · rfl

end Controller

namespace HeightController
variable {Hash : Type} (node : CtrlNode Hash) (c : HeightController Hash)

/-- In the mining state there is a notification for leader and turn, or a verified block of the
leader that was accepted in this turn. -/
def MiningBacked : Prop :=
  c.dc.state = .stMining →
    Notified c.mp.posNotifyCache c.dc.consensusLeader c.dc.curConsensusTurn ∨
    ∃ result ∈ c.posResults, result.1 = c.dc.curConsensusTurn ∧
      result.2.leader = c.dc.consensusLeader

/-- A re-election result that may be accepted finds a fitting notification, or none. -/
def ResultFits (msg : ReelectResultBroadcastMsg Hash) : Prop :=
  ∀ rlResult req inquiryReq leader, msg.type = .agree ∨ msg.type = .alreadyRL →
    msg.rlResult = some rlResult → rlResult.req = some req → req.inquiryReq = some inquiryReq →
    c.dc.getLeader node.broadcastNode (inquiryReq.consensusTurn+inquiryReq.reelectTurn) = .ok leader →
    FirstFits c.mp.posNotifyCache leader (inquiryReq.consensusTurn+inquiryReq.reelectTurn)

/-- The validators of a start message give the turn the leader that it has while the controller is
mining, and turn 0 one that the first notification is for. -/
def StartFits (env : HeightEnv Hash) (msg : StartControllerMsg Hash) : Prop :=
  ∀ parentHeader cal leaders, msg.role = .validator → msg.parentHeader = some parentHeader →
    c.dc.leaderCal.setValidators env.getHeaderByNumber parentHeader.leader msg.validators = .ok cal →
    cal.getLeader node.broadcastNode c.dc.curConsensusTurn = .ok leaders →
    (c.dc.state = .stMining → leaders.leader = c.dc.consensusLeader) ∧
    (c.dc.curConsensusTurn = 0 → FirstFits c.mp.posNotifyCache leaders.leader 0)

/-- The condition on an input: wherever notifications are looked up, the oldest one fits. -/
def NotifiesFit (c : HeightController Hash) (input : HeightEvent Hash) : Prop :=
  match input.2 with
  | .start (some msg) => c.StartFits node input.1 msg
  | .posFinished (some msg) => c.dc.state = .stPos →
      FirstFits (((c.mp.savePOSNotifyMsg msg).toOption).getD c.mp).posNotifyCache
        c.dc.consensusLeader c.dc.curConsensusTurn
  | .resultBroadcast (some msg) => c.ResultFits node msg
  | .resultRsp _ _ => ∀ msg, c.selfCache.resultBroadcastMsg = some msg → c.ResultFits node msg
  | _ => True

variable {node c} {env : HeightEnv Hash} {c' : HeightController Hash}

theorem MiningBacked.unturned (h : c.MiningBacked) (hc : Unturned c c') : c'.MiningBacked := by
  unfold MiningBacked at h ⊢
  rw [hc.dc, hc.mp, hc.posResults]
  exact h

variable {msg : ReelectResultBroadcastMsg Hash}

theorem ResultFits.unturned (h : c.ResultFits node msg)
    (hc : Unturned c c') : c'.ResultFits node msg := by
  unfold ResultFits at h ⊢
  rw [hc.dc, hc.mp]
  exact h

/-- Saving keeps the notifications that are there. -/
theorem MiningBacked.of_notify (h : c.MiningBacked) (msg : BlockPOSFinishedNotify Hash)
    (hfits : c.dc.state = .stPos →
      FirstFits (((c.mp.savePOSNotifyMsg msg).toOption).getD c.mp).posNotifyCache
        c.dc.consensusLeader c.dc.curConsensusTurn) :
    (c.lift fun ctrl => ctrl.handleBlockPOSFinishedNotify (some msg)).MiningBacked := by
  intro hmining
  unfold lift handleBlockPOSFinishedNotify at hmining ⊢
  simp only [processPOSState_eq] at hmining ⊢
  split_ifs at hmining with hpos
  · exact Or.inl ((hfits hpos.1).notified hpos.2)
  · rcases h hmining with ⟨old, hold, hfit⟩ | hresult
    · refine Or.inl ⟨old, ?_, hfit⟩
      cases hsave : c.mp.savePOSNotifyMsg msg with
      | error err => exact hold
      | ok mp =>
        unfold MsgPool.savePOSNotifyMsg at hsave
        simp only [ite_error_eq_ok] at hsave
        cases hsave.2.2
        exact List.mem_append_left _ hold
    · exact Or.inr hresult

variable [Zero Hash]

/-- The block that was verified is recorded with the turn. -/
theorem MiningBacked.of_result (h : c.MiningBacked) (hfits : c.ResultFits node msg)
    (hprocess : c.processResultBroadcastMsg node env (some msg) = .ok c') : c'.MiningBacked := by
  obtain ⟨ctrl, hctrl, hc'⟩ := bind_eq_ok_iff.mp hprocess
  cases hc'
  rcases processResultBroadcastMsg_cases hctrl with
    ⟨header, htype, hheader, hpos⟩ | ⟨rlResult, req, inquiryReq, htype, hrlr, hreq, hinq, hrl⟩
  · obtain ⟨hleader, -, rfl⟩ := processPOSResult_eq_ok_iff.mp hpos
    intro _
    right
    refine ⟨(c.dc.curConsensusTurn,header), ?_, ?_, ?_⟩
    · apply List.mem_append_left
      simp only [acceptedPOS, htype, if_true, hheader, Option.toList_some, List.map_cons,
        List.map_nil, List.mem_singleton]
    · rw [finishReelectWithPOS_dc]
    · rw [finishReelectWithPOS_dc]
      exact hleader
  · obtain ⟨-, -, -, rfl⟩ := processRLResult_eq_ok_iff.mp hrl
    intro hmining
    rcases finishReelectWithRLConsensus_frame node env.toCtrlEnv c.toController req
      inquiryReq with ⟨-, -, hsame⟩ | ⟨leader, hleader, hctrl'⟩
    · rw [hsame] at hmining ⊢
      rcases h hmining with hnote | ⟨result, hmem, hresult⟩
      · exact Or.inl hnote
      · exact Or.inr ⟨result, List.mem_append_right _ hmem, hresult⟩
    · left
      have hfirst := hfits rlResult req inquiryReq leader htype hrlr hreq hinq hleader
      rw [hctrl'] at hmining ⊢
      set turn := inquiryReq.consensusTurn+inquiryReq.reelectTurn
      have hsent := published_sendLeaderMsg node
        ((c.toController.entersTurn leader turn req.timeStamp).resumeTurn node env.toCtrlEnv turn)
      rw [hsent.dc] at hmining ⊢
      rw [hsent.mp, (resumeTurn_frame ..).1]
      exact resumeTurn_notified env.toCtrlEnv hfirst _ hmining

theorem MiningBacked.of_begin (h : c.MiningBacked) (parentHeader : Header Hash)
    (hfirst : c.dc.curConsensusTurn = 0 → FirstFits c.mp.posNotifyCache c.dc.consensusLeader 0) :
    (c.beginHeight node env parentHeader).MiningBacked := by
  have hdc := beginHeight_dc node env c parentHeader
  obtain ⟨hmp, -, hresults⟩ := beginHeight_frame node env c parentHeader
  unfold MiningBacked at h ⊢
  rw [hmp, hresults]
  rcases hdc with ⟨-, hdc⟩ | ⟨-, -, hdc⟩ | ⟨-, -, -, hdc⟩ | ⟨-, -, hturn, hdc⟩ <;> rw [hdc]
  · intro hidle
    cases hidle
  · exact h
  · exact h
  · intro hmining
    left
    refine resumeTurn_notified env.toCtrlEnv ?_ 0 hmining
    rw [hturn]
    exact hfirst hturn

omit [Zero Hash] in
theorem exists_leaders {cal : LeaderCalculator} {turn : UInt32} {leader : Address}
    (h : { c.dc with leaderCal := cal }.getLeader node.broadcastNode turn = .ok leader) :
    ∃ leaders, cal.getLeader node.broadcastNode turn = .ok leaders ∧ leaders.leader = leader := by
  unfold Cdc.getLeader at h
  cases hcal : cal.getLeader node.broadcastNode turn with
  | error err =>
    rw [hcal] at h
    cases h
  | ok leaders =>
    rw [hcal] at h
    exact ⟨leaders, rfl, Except.ok.inj h⟩

/-- A failure leaves turn, leader and state as they were. -/
theorem MiningBacked.of_start (h : c.MiningBacked) (msg : StartControllerMsg Hash)
    (hfits : c.StartFits node env msg) : (c.handleStartMsg node env (some msg)).MiningBacked := by
  rcases handleStartMsg_cases node env c msg with
    ⟨parent, hc⟩ | ⟨hrole, parentHeader, dc, hparent, hset⟩
  · rw [hc]
    exact h
  have hcases := c.dc.setValidators_cases node.broadcastNode env.getHeaderByNumber
    parentHeader.leader msg.validators
  rcases hset with ⟨⟨err, hr⟩, hc⟩ | ⟨hr, hc⟩
  · rw [hc]
    rcases hcases with ⟨err', hr'⟩ | ⟨cal, hcal, ⟨err', turn, hr', -⟩ | ⟨leader, master, hr', -⟩⟩
    · cases hr.symm.trans hr'
      exact h
    · cases hr.symm.trans hr'
      exact h
    · cases hr.symm.trans hr'
  · rw [hc]
    rcases hcases with ⟨err', hr'⟩ | ⟨cal, hcal, ⟨err', turn, hr', -⟩ |
      ⟨leader, master, hr', hleader, -⟩⟩
    · cases hr.symm.trans hr'
    · cases hr.symm.trans hr'
    · cases hr.symm.trans hr'
      obtain ⟨leaders, hleaders, rfl⟩ := exists_leaders hleader
      obtain ⟨hsame, hfirst⟩ := hfits parentHeader cal leaders hrole hparent hcal hleaders
      apply MiningBacked.of_begin
      · intro hmining
        rw [hsame hmining]
        exact h hmining
      · exact hfirst

theorem step_miningBacked [DecidableEq Hash] {input : HeightEvent Hash}
    (h : c.MiningBacked) (hfits : NotifiesFit node c input) (hstep : c.step node input = .ok c') :
    c'.MiningBacked := by
  obtain ⟨env, i⟩ := input
  have hturn : TurnStep node env c c' i := turnStep_of_step hstep
  cases hturn with
  | quiet hc => exact h.unturned hc
  | start msg hc =>
    subst hc
    exact h.of_start msg hfits
  | notified msg hc =>
    subst hc
    exact h.of_notify msg hfits
  | timeOut hc =>
    subst hc
    intro hmining
    have hsame : (c.lift fun ctrl => ctrl.timeOutHandle node env.toCtrlEnv) = c := by
      have hctrl := timeOutHandle_mining env.toCtrlEnv c.toController hmining
      simp only [lift, hctrl]
    rw [hsame] at hmining ⊢
    exact h hmining
  | broadcast msg c₁ hprocess hc => exact (h.of_result hfits hprocess).unturned hc
  | agreed rsp fromAccount msg c₁ hmsg hc hprocess =>
    exact (h.unturned hc).of_result ((hfits msg hmsg).unturned hc) hprocess

/-- In every run whose inputs all find fitting notifications, a controller in the mining state has
evidence for its turn and its leader. -/
theorem run_miningBacked [DecidableEq Hash] (node : CtrlNode Hash) (number : ℕ)
    (inputs : List (HeightEvent Hash))
    (hfits : EachBefore (step node) (NotifiesFit node) (newController number) inputs)
    (hrun : run (step node) (newController number) inputs = .ok c') : c'.MiningBacked := by
  have hinit : (newController number : HeightController Hash).MiningBacked := by
    intro hmining
    cases hmining
  exact run_preserves_of_eachBefore (fun s i s' hs hi hstep => step_miningBacked hs hi hstep) hinit
    hfits hrun

def strayNotify : BlockPOSFinishedNotify RequestHash := ⟨3, sampleHeader 3 2 1001 [], 7, []⟩

/-- Height 3 is in turn 0, led by account 3, when a block of account 2 for turn 7 is reported: the
controller takes it for its own. -/
theorem stray_notify_mines :
    ∃ c', run (step masterNode) (newController 3)
        [(masterEnv 1010,startThree 1000), (masterEnv 1011,.posFinished (some strayNotify))] =
          .ok c' ∧
      c'.dc.state = .stMining ∧ c'.dc.consensusLeader = 3 ∧ c'.dc.curConsensusTurn = 0 ∧
      ¬ c'.MiningBacked := by
  have hend : (run (step masterNode) (newController 3)
      [(masterEnv 1010,startThree 1000), (masterEnv 1011,.posFinished (some strayNotify))]).toOption.map
      (fun c => (c.dc.state,c.dc.consensusLeader,c.dc.curConsensusTurn,
        c.mp.posNotifyCache.map BlockPOSFinishedNotify.consensusTurn,c.posResults.length)) =
      some (.stMining,3,0,[7],0) := by
    decide +kernel
  obtain ⟨c', hrun, hend⟩ := exists_ok_of_map_toOption hend
  simp only [Prod.mk.injEq] at hend
  obtain ⟨hstate, hleader, hturn, hcache, hresults⟩ := hend
  refine ⟨c', hrun, hstate, hleader, hturn, ?_⟩
  intro hbacked
  rcases hbacked hstate with ⟨msg, hmem, -, hfit⟩ | ⟨result, hmem, -⟩
  · have hseven : msg.consensusTurn ∈ [7] := by
      rw [← hcache]
      exact List.mem_map_of_mem hmem
    rw [hfit, hturn] at hseven
    exact absurd hseven (by decide)
  · rw [List.length_eq_zero_iff.mp hresults] at hmem
    cases hmem

/-- A notification for the leader of turn 0 is evidence. -/
theorem run_miningBacked_own_notify :
    ∃ c', run (step masterNode) (newController 3)
        [(masterEnv 1010,startThree 1000),
          (masterEnv 1011,.posFinished (some ⟨3, sampleHeader 3 3 1001 [], 0, []⟩))] = .ok c' ∧
      c'.dc.state = .stMining ∧ c'.MiningBacked := by
  have hend : (run (step masterNode) (newController 3)
      [(masterEnv 1010,startThree 1000),
        (masterEnv 1011,.posFinished (some ⟨3, sampleHeader 3 3 1001 [], 0, []⟩))]).toOption.map
      (fun c => c.dc.state) = some .stMining := by
    decide +kernel
  obtain ⟨c', hrun, hstate⟩ := exists_ok_of_map_toOption hend
  refine ⟨c', hrun, hstate, ?_⟩
  refine run_miningBacked masterNode 3 _ ?_ hrun
  constructor
  · intro parentHeader cal leaders _ _ _ _
    refine ⟨fun hmining => absurd hmining (by decide), fun _ msg hmsg => ?_⟩
    cases hmsg
  · intro s' hs'
    constructor
    · have hfirst : (((newController 3).step masterNode
          (masterEnv 1010,startThree 1000)).toOption.map fun c =>
          (c.mp.posNotifyCache.length,c.dc.consensusLeader,c.dc.curConsensusTurn)) =
          some (0,3,0) := by
        decide +kernel
      rw [hs'] at hfirst
      simp only [Except.toOption, Option.map_some, Option.some.injEq, Prod.mk.injEq] at hfirst
      obtain ⟨hcache, hleader, hturn⟩ := hfirst
      intro _ msg hmsg
      rw [hleader, hturn]
      have hmp : s'.mp = ⟨[], s'.mp.rlConsensusCache⟩ := by
        cases hpool : s'.mp with
        | mk cache results =>
          rw [hpool] at hcache
          exact congrArg (MsgPool.mk · results) (List.length_eq_zero_iff.mp hcache)
      rw [hmp] at hmsg
      cases hmsg
      exact ⟨rfl, rfl⟩
    · intro _ _
      trivial

end HeightController

end MatrixNode
