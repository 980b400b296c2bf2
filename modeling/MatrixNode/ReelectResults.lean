import MatrixNode.TurnLeaders
import MatrixNode.VotedRequest

/-! Results of a re-election that come again. -/
namespace MatrixNode
open GoLib Controller HeightController Option

def ReelectLeaderConsensus.turn (result : ReelectLeaderConsensus) : Option UInt32 :=
  (result.req.bind ReelectLeaderReqMsg.inquiryReq).map fun inquiryReq =>
    inquiryReq.consensusTurn+inquiryReq.reelectTurn

def ReelectResultBroadcastMsg.reelected {Hash : Type} (msg : ReelectResultBroadcastMsg Hash) :
    Option ReelectLeaderConsensus :=
  if msg.type = .agree ∨ msg.type = .alreadyRL then msg.rlResult else none

namespace TurnTimes
variable {tt : TurnTimes} {turn : UInt32} {time : ℤ}

def Begun (tt : TurnTimes) (turn : UInt32) (time : ℤ) : Prop :=
  ∃ beginTime, tt.beginTimes.lookup turn = some beginTime ∧ time ≤ beginTime

theorem begun_setBeginTime (tt : TurnTimes) (turn : UInt32) (time : ℤ) :
    (tt.setBeginTime turn time).1.Begun turn time := by
  unfold setBeginTime
  split
  · rename_i oldTime hold
    split_ifs with hle
    · exact ⟨oldTime, hold, hle⟩
    · exact ⟨time, Finmap.lookup_insert _, le_rfl⟩
  · exact ⟨time, Finmap.lookup_insert _, le_rfl⟩

theorem Begun.setBeginTime (h : tt.Begun turn time) (turn' : UInt32) (time' : ℤ) :
    (tt.setBeginTime turn' time').1.Begun turn time := by
  obtain ⟨beginTime, hbegin, hle⟩ := h
  by_cases hsame : turn = turn'
  · subst hsame
    unfold TurnTimes.setBeginTime
    rw [hbegin]
    dsimp only
    split_ifs with hold
    · exact ⟨beginTime, hbegin, hle⟩
    · exact ⟨time', Finmap.lookup_insert _, by omega⟩
  · refine ⟨beginTime, ?_, hle⟩
    unfold TurnTimes.setBeginTime
    split
    · split_ifs
      · exact hbegin
      · rwa [Finmap.lookup_insert_of_ne _ hsame]
    · rwa [Finmap.lookup_insert_of_ne _ hsame]

theorem Begun.setBeginTime_eq (h : tt.Begun turn time) : (tt.setBeginTime turn time).1 = tt := by
  obtain ⟨beginTime, hbegin, hle⟩ := h
  unfold TurnTimes.setBeginTime
  rw [hbegin]
  dsimp only
  rw [if_pos hle]

theorem calState_setBeginTime_of_ne (tt : TurnTimes) {turn turn' : UInt32} (hne : turn ≠ turn')
    (time now : ℤ) :
    (tt.setBeginTime turn' time).1.calState turn now = tt.calState turn now := by
  have hbegin : (tt.setBeginTime turn' time).1.getBeginTime turn = tt.getBeginTime turn := by
    unfold setBeginTime getBeginTime
    split
    · split_ifs
      · rfl
      · rw [Finmap.lookup_insert_of_ne _ hne]
    · rw [Finmap.lookup_insert_of_ne _ hne]
  unfold calState
  rw [hbegin]

end TurnTimes

variable {broadcastNode : Address}

theorem Cdc.setReelectTurn_eq_ok {dc : Cdc} {turn : UInt32} {leader : Address}
    (h : dc.getLeader broadcastNode turn = .ok leader) (reelectTurn : UInt32) :
    ∃ master, dc.setReelectTurn broadcastNode reelectTurn =
      .ok { dc with curReelectTurn := reelectTurn, reelectMaster := master } := by
  obtain ⟨master, hmaster⟩ := Cdc.getLeader_isOk h (dc.curConsensusTurn+reelectTurn)
  unfold Cdc.setReelectTurn
  split_ifs with hcur hzero
  · exact ⟨dc.reelectMaster, by rw [← hcur]⟩
  · exact ⟨0, by rw [hzero]⟩
  · rw [hmaster]
    exact ⟨master, rfl⟩

theorem Cdc.setValidators_frame {Hash : Type} {dc dc' : Cdc}
    {getHeaderByNumber : ℕ → Option (Header Hash)} {preLeader : Address}
    {validators : Option (List TopologyNodeInfo)} {r : Except GoError Unit}
    (h : dc.setValidators broadcastNode getHeaderByNumber preLeader validators = (dc',r)) :
    dc' = { dc with
        leaderCal := dc'.leaderCal, consensusLeader := dc'.consensusLeader
        reelectMaster := dc'.reelectMaster } ∧
      (r = .ok () → ∃ leader, dc'.getLeader broadcastNode dc.curConsensusTurn = .ok leader) := by
  have hcases := dc.setValidators_cases broadcastNode getHeaderByNumber preLeader validators
  rw [h] at hcases
  rcases hcases with ⟨err, hr⟩ | ⟨cal, -, ⟨err, turn, hr, -⟩ | ⟨leader, master, hr, hleader, -⟩⟩
  · cases hr
    exact ⟨rfl, nofun⟩
  · cases hr
    exact ⟨rfl, nofun⟩
  · cases hr
    exact ⟨rfl, fun _ => ⟨leader, hleader⟩⟩

namespace Controller
variable {Hash : Type} {node : CtrlNode Hash} {env : CtrlEnv Hash} {c c' : Controller Hash} {now : ℤ}

def standing (c : Controller Hash) : CtrlState × UInt32 × UInt32 × ℤ :=
  (c.dc.state,c.dc.curConsensusTurn,c.dc.curReelectTurn,c.timer)

/-- The controller stands where the clock puts its turn. -/
structure AtClock (c : Controller Hash) (now : ℤ) : Prop where
  state : c.dc.state =
    if (c.dc.turnTime.calState c.dc.curConsensusTurn now).1 = .stPos ∧ c.mp.posNotifyCache ≠ [] then
      .stMining
    else (c.dc.turnTime.calState c.dc.curConsensusTurn now).1
  reelectTurn : c.dc.curReelectTurn = (c.dc.turnTime.calState c.dc.curConsensusTurn now).2.2
  timer : c.timer = (c.dc.turnTime.calState c.dc.curConsensusTurn now).2.1

theorem AtClock.standing_eq (h : c.AtClock now) (h' : c'.AtClock now)
    (hturn : c'.dc.curConsensusTurn = c.dc.curConsensusTurn)
    (htime : c'.dc.turnTime = c.dc.turnTime) (hmp : c'.mp = c.mp) : c'.standing = c.standing := by
  unfold standing
  rw [h'.state, h'.reelectTurn, h'.timer, h.state, h.reelectTurn, h.timer, hturn, htime, hmp]

theorem AtClock.congr (h : c.AtClock now) (hstanding : c'.standing = c.standing)
    (htime : c'.dc.turnTime.calState c.dc.curConsensusTurn now =
      c.dc.turnTime.calState c.dc.curConsensusTurn now)
    (hmp : c'.mp = c.mp) : c'.AtClock now := by
  unfold standing at hstanding
  simp only [Prod.mk.injEq] at hstanding
  obtain ⟨hstate, hturn, hreelect, htimer⟩ := hstanding
  constructor
  · rw [hstate, hturn, htime, hmp]
    exact h.state
  · rw [hreelect, hturn, htime]
    exact h.reelectTurn
  · rw [htimer, hturn, htime]
    exact h.timer

theorem Published.standing (h : Published c c') : c'.standing = c.standing := by
  unfold Controller.standing
  rw [h.dc, h.timer]

/-- The pool only grows: a notification that is refused leaves it as it was. -/
theorem AtClock.notified (h : c.AtClock now) (msg : BlockPOSFinishedNotify Hash) :
    (c.handleBlockPOSFinishedNotify (some msg)).AtClock now := by
  have hgrows : c.mp.posNotifyCache ≠ [] →
      (((c.mp.savePOSNotifyMsg msg).toOption).getD c.mp).posNotifyCache ≠ [] := by
    intro hne
    cases hsave : c.mp.savePOSNotifyMsg msg with
    | error err => exact hne
    | ok mp =>
      unfold MsgPool.savePOSNotifyMsg at hsave
      simp only [ite_error_eq_ok] at hsave
      cases hsave.2.2
      exact List.append_ne_nil_of_left_ne_nil hne _
  unfold handleBlockPOSFinishedNotify
  dsimp only
  rw [processPOSState_eq]
  refine ⟨?_, h.reelectTurn, h.timer⟩
  have hstate := h.state
  rcases c.dc.turnTime.calState_state c.dc.curConsensusTurn now with ⟨hst, -⟩ | hst
  · simp only [hst, true_and] at hstate ⊢
    by_cases hne : c.mp.posNotifyCache = []
    · rw [if_neg (not_not.mpr hne)] at hstate
      simp only [hstate, true_and]
    · rw [if_pos hne] at hstate
      simp only [hstate, reduceCtorEq, false_and, if_false]
      rw [if_pos (hgrows hne)]
  · simp only [hst, reduceCtorEq, false_and, if_false] at hstate ⊢
    simp only [hstate, reduceCtorEq, false_and, if_false]

variable [Zero Hash]

theorem startReelect_timer (reelectTurn : UInt32) :
    (c.startReelect node env reelectTurn).timer = c.timer := by
  unfold startReelect
  split_ifs
  · rfl
  · rfl
  · split
    · rfl
    · rw [(published_sendLeaderMsg node _).timer]
      split_ifs
      · exact sendInquiryReq_timer ..
      · rfl

theorem resumeTurn_timer (consensusTurn : UInt32) :
    (c.resumeTurn node env consensusTurn).timer =
      (c.dc.turnTime.calState consensusTurn env.now).2.1 := by
  unfold resumeTurn
  dsimp only
  split_ifs
  · rw [processPOSState_eq]
  · exact startReelect_timer _
  · rfl

/-- In the POS phase a notification in the pool ends the phase; past it the master of the
re-election turn is looked up, which needs leaders. -/
theorem resumeTurn_atClock {consensusTurn turn : UInt32} {leader : Address}
    (hturn : c.dc.curConsensusTurn = consensusTurn)
    (hleader : c.dc.getLeader node.broadcastNode turn = .ok leader) :
    (c.resumeTurn node env consensusTurn).AtClock env.now := by
  subst hturn
  have hsame := resumeTurn_sameTurn node env c c.dc.curConsensusTurn
  obtain ⟨hmp, hdc⟩ := resumeTurn_frame node env c c.dc.curConsensusTurn
  have htimer : (c.resumeTurn node env c.dc.curConsensusTurn).timer = _ := resumeTurn_timer _
  generalize c.resumeTurn node env c.dc.curConsensusTurn = c' at hsame hmp hdc htimer ⊢
  have hcal : c'.dc.turnTime.calState c'.dc.curConsensusTurn env.now =
      c.dc.turnTime.calState c.dc.curConsensusTurn env.now := by
    rw [hsame.turnTime, hsame.curConsensusTurn]
  rcases c.dc.turnTime.calState_state c.dc.curConsensusTurn env.now with ⟨hst, hzero⟩ | hst
  · rw [if_pos hst] at hdc
    refine ⟨?_, ?_, ?_⟩ <;> rw [hcal]
    · rw [hdc, hst, hmp]
      simp only [true_and]
    · rw [hdc, hzero]
    · exact htimer
  · rw [if_neg (by rw [hst]; decide)] at hdc
    have hleader' : { c.dc with
        state := (c.dc.turnTime.calState c.dc.curConsensusTurn env.now).1
        curReelectTurn := 0 }.getLeader node.broadcastNode turn = .ok leader := hleader
    obtain ⟨master, hset⟩ := Cdc.setReelectTurn_eq_ok hleader'
      (c.dc.turnTime.calState c.dc.curConsensusTurn env.now).2.2
    rw [hset, Except.toOption, getD_some] at hdc
    refine ⟨?_, ?_, ?_⟩ <;> rw [hcal]
    · rw [hdc, hst, if_neg (fun h => by cases h.1)]
    · rw [hdc]
    · exact htimer

/-- Without a leader for its turn a result changes nothing. -/
theorem finishReelectWithRLConsensus_enters (node : CtrlNode Hash) (env : CtrlEnv Hash)
    (c : Controller Hash) (req : ReelectLeaderReqMsg) (inquiryReq : ReelectInquiryReqMsg) :
    let turn := inquiryReq.consensusTurn+inquiryReq.reelectTurn
    let c' := c.finishReelectWithRLConsensus node env req inquiryReq
    (∃ err, c.dc.getLeader node.broadcastNode turn = .error err) ∧ c' = c ∨
    c'.dc.curConsensusTurn = turn ∧
      c'.dc.turnTime = (c.dc.turnTime.setBeginTime turn req.timeStamp).1 ∧ c'.mp = c.mp ∧
      c'.AtClock env.now := by
  intro turn c'
  obtain ⟨err, herr, hsame⟩ | ⟨leader, hleader, hc'⟩ :=
    finishReelectWithRLConsensus_frame node env c req inquiryReq
  · exact .inl ⟨⟨err, herr⟩, hsame⟩
  let c₁ := c.entersTurn leader turn req.timeStamp
  have hsent := published_sendLeaderMsg node (c₁.resumeTurn node env turn)
  have hsame := resumeTurn_sameTurn node env c₁ turn
  have hclock : (c₁.resumeTurn node env turn).AtClock env.now := resumeTurn_atClock rfl hleader
  dsimp only [c']
  rw [hc']
  refine .inr ⟨?_, ?_, ?_, ?_⟩
  · rw [hsent.dc, hsame.curConsensusTurn]
    rfl
  · rw [hsent.dc, hsame.turnTime]
    rfl
  · rw [hsent.mp, (resumeTurn_frame node env c₁ _).1]
    rfl
  · exact hclock.congr hsent.standing (by rw [hsent.dc]) hsent.mp

end Controller

namespace HeightController
variable {Hash : Type} [Zero Hash] [DecidableEq Hash]

/-- The result that an input makes the controller process, with the controller that processes it: a
broadcast, or the controller's own result once enough responses have come. -/
def dueResult (node : CtrlNode Hash) (c : HeightController Hash) (input : HeightEvent Hash) :
    Option (HeightController Hash × ReelectResultBroadcastMsg Hash) :=
  match input.2 with
  | .resultBroadcast msg => msg.map fun msg => (c,msg)
  | .resultRsp none _ => none
  | .resultRsp (some rsp) fromAccount =>
    match c.selfCache.saveResultRsp node rsp.resultHash rsp.sign fromAccount with
    | .error _ => none
    | .ok selfCache =>
      match DposEngine.verifyHashWithVerifiedSignsAndNumber (c.dc.reader input.1.chain)
          (signsOf input.1 selfCache.resultRspCache) c.dc.number input.1.orders with
      | .error _ => none
      | .ok _ =>
        match selfCache.getLocalResultMsg with
        | .error _ => none
        | .ok msg => some ({ c with selfCache := selfCache },msg)
  | _ => none

/-- The result of a re-election that a step applies: its message is accepted, and its turn has a
leader. -/
def appliedResult (node : CtrlNode Hash) (c : HeightController Hash)
    (input : HeightEvent Hash) : Option ReelectLeaderConsensus :=
  (dueResult node c input).bind fun due => due.2.reelected.bind fun result =>
    result.turn.bind fun turn =>
      match due.1.processResultBroadcastMsg node input.1 (some due.2),
        due.1.dc.getLeader node.broadcastNode turn with
      | .ok _,.ok _ => some result
      | _,_ => none

variable {node : CtrlNode Hash} {c c₁ c' : HeightController Hash}
  {input : HeightEvent Hash} {msg : ReelectResultBroadcastMsg Hash}

omit [Zero Hash] [DecidableEq Hash] in
theorem Unturned.standing (h : Unturned c c') :
    c'.toController.standing = c.toController.standing := by
  unfold Controller.standing
  rw [h.dc, h.timer]

omit [Zero Hash] [DecidableEq Hash] in
theorem Unturned.atClock (h : Unturned c c') {now : ℤ} (hc : c.toController.AtClock now) :
    c'.toController.AtClock now :=
  hc.congr h.standing (by rw [h.dc]) h.mp

/-- Processing a result from `c₁` on ends in `c'`: it is refused, or accepted, and what follows only
sends messages. -/
def Processed (node : CtrlNode Hash) (env : HeightEnv Hash) (msg : ReelectResultBroadcastMsg Hash)
    (c₁ c' : HeightController Hash) : Prop :=
  (∃ err, c₁.processResultBroadcastMsg node env (some msg) = .error err) ∧ Unturned c₁ c' ∨
    ∃ c₂, c₁.processResultBroadcastMsg node env (some msg) = .ok c₂ ∧ Unturned c₂ c'

variable {env : HeightEnv Hash}

omit [DecidableEq Hash] in
theorem handleResultBroadcastMsg_processed
    (h : c.handleResultBroadcastMsg node env (some msg) = .ok c') :
    Processed node env msg c c' := by
  unfold handleResultBroadcastMsg at h
  dsimp only at h
  split at h
  · rename_i err herr
    cases h
    exact Or.inl ⟨⟨_, herr⟩, Unturned.refl _⟩
  · cases h
  · rename_i c₂ hprocess
    cases h
    exact Or.inr ⟨c₂, hprocess, unturned_lift (published_sendResultBroadcastRsp ..)⟩

variable {rsp : Option (ReelectResultRspMsg Hash)} {fromAccount : Address}

/-- `dueResult` repeats the tests of the handler. -/
theorem handleResultRsp_due_cases (h : c.handleResultRsp node env rsp fromAccount = .ok c') :
    dueResult node c (env,.resultRsp rsp fromAccount) = none ∧ Unturned c c' ∨
    ∃ c₁ msg, dueResult node c (env,.resultRsp rsp fromAccount) = some (c₁,msg) ∧
      Unturned c c₁ ∧ Processed node env msg c₁ c' := by
  unfold handleResultRsp at h
  cases rsp with
  | none =>
    cases h
    exact .inl ⟨rfl, Unturned.refl c⟩
  | some rsp =>
    dsimp only at h
    split at h
    · rename_i err hsave
      cases h
      exact .inl ⟨by simp only [dueResult, hsave], Unturned.refl c⟩
    · rename_i selfCache hsave
      split at h
      · rename_i err hverify
        cases h
        exact .inl ⟨by simp only [dueResult, hsave, hverify], unturned_selfCache c selfCache⟩
      · rename_i right hverify
        split at h
        · rename_i err hlocal
          cases h
          exact .inl ⟨by simp only [dueResult, hsave, hverify, hlocal], unturned_selfCache c selfCache⟩
        · rename_i msg hlocal
          refine .inr ⟨_, msg, by simp only [dueResult, hsave, hverify, hlocal],
            unturned_selfCache c selfCache, ?_⟩
          split at h
          · rename_i err herr
            cases h
            exact .inl ⟨⟨_, herr⟩, Unturned.refl _⟩
          · cases h
          · rename_i hprocess
            cases h
            exact .inr ⟨_, hprocess, Unturned.refl _⟩

theorem step_of_due (hdue : dueResult node c input = some (c₁,msg))
    (h : c.step node input = .ok c') : Unturned c c₁ ∧ Processed node input.1 msg c₁ c' := by
  obtain ⟨env, i⟩ := input
  cases i with
  | resultBroadcast m =>
    obtain ⟨m, rfl, hpair⟩ := map_eq_some_iff.mp hdue
    cases hpair
    exact ⟨Unturned.refl c, handleResultBroadcastMsg_processed h⟩
  | resultRsp rsp fromAccount =>
    rcases handleResultRsp_due_cases h with ⟨hnone, -⟩ | ⟨c₂, m, hdue', hprocessed⟩
    · cases hdue.symm.trans hnone
    · cases hdue.symm.trans hdue'
      exact hprocessed
  | _ => cases hdue

/-- A broadcast is always due; a response only when enough have come. -/
theorem step_of_not_due (hdue : dueResult node c input = none) (h : c.step node input = .ok c') :
    Unturned c c' ∨
      (∃ msg, input.2 = .start (some msg) ∧ c' = c.handleStartMsg node input.1 (some msg)) ∨
      (∃ msg, input.2 = .posFinished (some msg) ∧
        c' = c.lift fun ctrl => ctrl.handleBlockPOSFinishedNotify (some msg)) ∨
      input.2 = .timeOut ∧ c' = c.lift fun ctrl => ctrl.timeOutHandle node input.1.toCtrlEnv := by
  obtain ⟨env, i⟩ := input
  have hturn : TurnStep node env c c' i := turnStep_of_step h
  cases hturn with
  | quiet hc => exact Or.inl hc
  | start msg hc => exact Or.inr (Or.inl ⟨msg, rfl, hc⟩)
  | notified msg hc => exact Or.inr (Or.inr (Or.inl ⟨msg, rfl, hc⟩))
  | timeOut hc => exact Or.inr (Or.inr (Or.inr ⟨rfl, hc⟩))
  | broadcast msg c₁ hprocess hc => cases hdue
  | agreed rsp fromAccount msg c₁ hmsg hc hprocess =>
    rcases handleResultRsp_due_cases h with ⟨-, hquiet⟩ | ⟨c₂, m, hdue', -⟩
    · exact Or.inl hquiet
    · cases hdue.symm.trans hdue'

variable {result : ReelectLeaderConsensus}

omit [DecidableEq Hash] in
/-- A block result does not carry the result of a re-election. -/
theorem processResultBroadcastMsg_reelected {env : HeightEnv Hash}
    (hresult : msg.reelected = some result)
    (h : c.processResultBroadcastMsg node env (some msg) = .ok c') :
    ∃ req inquiryReq, result.req = some req ∧ req.inquiryReq = some inquiryReq ∧
      c.dc.curConsensusTurn ≤ inquiryReq.consensusTurn+inquiryReq.reelectTurn ∧
      c'.toController =
        c.toController.finishReelectWithRLConsensus node env.toCtrlEnv req inquiryReq := by
  obtain ⟨ctrl, hctrl, hc'⟩ := bind_eq_ok_iff.mp h
  cases hc'
  unfold ReelectResultBroadcastMsg.reelected at hresult
  split_ifs at hresult with htype
  rcases processResultBroadcastMsg_cases hctrl with
    ⟨header, hpos, -⟩ | ⟨rlResult, req, inquiryReq, -, hrl, hreq, hinq, hrun⟩
  · rcases htype with htype | htype <;> cases hpos.symm.trans htype
  · cases hrl.symm.trans hresult
    obtain ⟨hle, -, -, rfl⟩ := processRLResult_eq_ok_iff.mp hrun
    exact ⟨req, inquiryReq, hreq, hinq, hle, rfl⟩

theorem appliedResult_eq_some (happlied : appliedResult node c input = some result)
    (h : c.step node input = .ok c') :
    ∃ (c₁ : HeightController Hash) (req : ReelectLeaderReqMsg) (inquiryReq : ReelectInquiryReqMsg)
      (leader : Address),
      Unturned c c₁ ∧ result.req = some req ∧ req.inquiryReq = some inquiryReq ∧
      c.dc.curConsensusTurn ≤ inquiryReq.consensusTurn+inquiryReq.reelectTurn ∧
      c₁.dc.getLeader node.broadcastNode (inquiryReq.consensusTurn+inquiryReq.reelectTurn) =
        .ok leader ∧
      ∃ c₂, c₂.toController =
          c₁.toController.finishReelectWithRLConsensus node input.1.toCtrlEnv req inquiryReq ∧
        Unturned c₂ c' := by
  unfold appliedResult at happlied
  simp only [bind_eq_some_iff] at happlied
  obtain ⟨⟨c₁, msg⟩, hdue, result', hresult, turn, hturn, hmatch⟩ := happlied
  split at hmatch
  · rename_i c₂ leader hprocess hleader
    cases hmatch
    obtain ⟨hc₁, hcases⟩ := step_of_due hdue h
    rcases hcases with ⟨⟨err, herr⟩, -⟩ | ⟨c₂', hprocess', hc'⟩
    · rw [hprocess] at herr
      cases herr
    · cases hprocess.symm.trans hprocess'
      obtain ⟨req, inquiryReq, hreq, hinq, hle, hc₂⟩ :=
        processResultBroadcastMsg_reelected hresult hprocess
      have hturn' : turn = inquiryReq.consensusTurn+inquiryReq.reelectTurn := by
        unfold ReelectLeaderConsensus.turn at hturn
        rw [hreq, bind_some, hinq] at hturn
        exact (some.inj hturn).symm
      rw [hturn'] at hleader
      rw [hc₁.dc] at hle
      exact ⟨c₁, req, inquiryReq, leader, hc₁, hreq, hinq, hle, hleader, c₂, hc₂, hc'⟩
  · cases hmatch

end HeightController

/-- The turn does not fall, and what has begun stays begun. -/
structure Cdc.Advances (dc dc' : Cdc) : Prop where
  turn : dc.curConsensusTurn ≤ dc'.curConsensusTurn
  begun : ∀ turn time, dc.turnTime.Begun turn time → dc'.turnTime.Begun turn time

namespace Cdc
variable {dc dc' dc'' : Cdc}

theorem Advances.of_eq (hturn : dc'.curConsensusTurn = dc.curConsensusTurn)
    (htime : dc'.turnTime = dc.turnTime) : Advances dc dc' := by
  refine ⟨?_, fun turn time hbegun => ?_⟩
  · rw [hturn]
    exact UInt32.le_refl _
  · rw [htime]
    exact hbegun

theorem SameTurn.advances (h : SameTurn dc dc') : Advances dc dc' :=
  .of_eq h.curConsensusTurn h.turnTime

theorem Advances.trans (h : Advances dc dc') (h' : Advances dc' dc'') : Advances dc dc'' :=
  ⟨UInt32.le_trans h.turn h'.turn, fun turn time hbegun =>
    h'.begun turn time (h.begun turn time hbegun)⟩

theorem advances_setBeginTime (dc : Cdc) (turn : UInt32) (time : ℤ) :
    Advances dc { dc with turnTime := (dc.turnTime.setBeginTime turn time).1 } :=
  ⟨UInt32.le_refl _, fun _ _ hbegun => hbegun.setBeginTime turn time⟩

end Cdc

namespace HeightController
variable {Hash : Type} [Zero Hash] {node : CtrlNode Hash} {env : HeightEnv Hash}
  {c c' : HeightController Hash}

variable {msg : ReelectResultBroadcastMsg Hash}

theorem processResultBroadcastMsg_advances
    (h : c.processResultBroadcastMsg node env (some msg) = .ok c') : c.dc.Advances c'.dc := by
  obtain ⟨ctrl, hctrl, hc'⟩ := bind_eq_ok_iff.mp h
  cases hc'
  rcases processResultBroadcastMsg_cases hctrl with
    ⟨header, -, -, hpos⟩ | ⟨rlResult, req, inquiryReq, -, -, -, -, hrl⟩
  · rw [(processPOSResult_eq_ok_iff.mp hpos).2.2, finishReelectWithPOS_dc]
    exact .of_eq rfl rfl
  · obtain ⟨hle, -, -, rfl⟩ := processRLResult_eq_ok_iff.mp hrl
    rcases finishReelectWithRLConsensus_enters node env.toCtrlEnv c.toController req inquiryReq with
      ⟨-, hsame⟩ | ⟨hturn, htime, -, -⟩
    · rw [hsame]
      exact .of_eq rfl rfl
    · refine ⟨?_, fun turn time hbegun => ?_⟩
      · rw [hturn]
        exact hle
      · rw [htime]
        exact hbegun.setBeginTime _ _

/-- A broadcast height, an old begin time, another turn than 0, or a restart of turn 0. -/
theorem beginHeight_advances (c : HeightController Hash) (parentHeader : Header Hash) :
    c.dc.Advances (c.beginHeight node env parentHeader).dc ∧
      (c.beginHeight node env parentHeader).dc.curConsensusTurn = c.dc.curConsensusTurn := by
  have hbegin := beginHeight_dc node env c parentHeader
  dsimp only at hbegin
  rcases hbegin with ⟨-, hdc⟩ | ⟨-, -, hdc⟩ | ⟨-, -, -, hdc⟩ | ⟨-, -, -, hdc⟩ <;> rw [hdc]
  · exact ⟨.of_eq rfl rfl, rfl⟩
  · exact ⟨.of_eq rfl rfl, rfl⟩
  · exact ⟨c.dc.advances_setBeginTime _ _, rfl⟩
  · have hsame := resumeTurn_sameTurn node env.toCtrlEnv { c.toController with
      dc := { c.dc with turnTime := (c.dc.turnTime.setBeginTime 0 (int64 parentHeader.time)).1 } } 0
    exact ⟨(c.dc.advances_setBeginTime _ _).trans hsame.advances, hsame.curConsensusTurn⟩

theorem handleStartMsg_advances (msg : StartControllerMsg Hash) :
    c.dc.Advances (c.handleStartMsg node env (some msg)).dc ∧
      (c.handleStartMsg node env (some msg)).dc.curConsensusTurn = c.dc.curConsensusTurn := by
  rcases handleStartMsg_cases node env c msg with
    ⟨parent, hc⟩ | ⟨-, parentHeader, dc, -, hset⟩
  · rw [hc]
    exact ⟨.of_eq rfl rfl, rfl⟩
  have hdc : dc.curConsensusTurn = c.dc.curConsensusTurn ∧ dc.turnTime = c.dc.turnTime := by
    rcases hset with ⟨⟨err, hset⟩, -⟩ | ⟨hset, -⟩ <;> rw [(Cdc.setValidators_frame hset).1] <;>
      exact ⟨rfl, rfl⟩
  rcases hset with ⟨-, hc⟩ | ⟨-, hc⟩ <;> rw [hc]
  · exact ⟨.of_eq hdc.1 hdc.2, hdc.1⟩
  · obtain ⟨hbegin, hturn⟩ := @beginHeight_advances _ _ node env
      { c with dc := dc, validatorsSet := true } parentHeader
    exact ⟨(Cdc.Advances.of_eq hdc.1 hdc.2).trans hbegin, hturn.trans hdc.1⟩

variable [DecidableEq Hash] {input : HeightEvent Hash}

theorem step_advances (h : c.step node input = .ok c') : c.dc.Advances c'.dc := by
  obtain ⟨env, i⟩ := input
  have hturn : TurnStep node env c c' i := turnStep_of_step h
  cases hturn with
  | quiet hc => exact .of_eq (by rw [hc.dc]) (by rw [hc.dc])
  | start msg hc =>
    subst hc
    exact (handleStartMsg_advances msg).1
  | notified msg hc =>
    subst hc
    have hsame := processPOSState_sameTurn { c.toController with
      mp := ((c.mp.savePOSNotifyMsg msg).toOption).getD c.mp }
    exact hsame.advances
  | timeOut hc =>
    subst hc
    exact (timeOutHandle_sameTurn ..).advances
  | broadcast msg c₁ hprocess hc =>
    rw [hc.dc]
    exact processResultBroadcastMsg_advances hprocess
  | agreed rsp fromAccount msg c₁ hmsg hc hprocess =>
    rw [← hc.dc]
    exact processResultBroadcastMsg_advances hprocess

/-- What does not take a turn from where the clock put it. -/
structure LeavesTurn (node : CtrlNode Hash) (c : HeightController Hash)
    (input : HeightEvent Hash) : Prop where
  timeOut : input.2 = .timeOut → c.dc.state = .stMining
  start : ∀ msg, input.2 = .start (some msg) → msg.role = .validator →
    isBroadcastNumber c.dc.number = false
  result : ∀ c₁ msg c₂, dueResult node c input = some (c₁,msg) →
    c₁.processResultBroadcastMsg node input.1 (some msg) = .ok c₂ → msg.type ≠ .pos

theorem leavesTurn_of_result (node : CtrlNode Hash) (env : HeightEnv Hash)
    (c : HeightController Hash) (htype : msg.type ≠ .pos) :
    LeavesTurn node c (env,.resultBroadcast (some msg)) := by
  refine ⟨?_, ?_, ?_⟩
  · intro hi
    cases hi
  · intro msg' hi
    cases hi
  · intro c₁ msg' c₂ hdue _
    cases hdue
    exact htype

omit [DecidableEq Hash] in
theorem processResultBroadcastMsg_atClock (hc : c.toController.AtClock env.now)
    (htype : msg.type ≠ .pos) (h : c.processResultBroadcastMsg node env (some msg) = .ok c') :
    c'.toController.AtClock env.now := by
  obtain ⟨ctrl, hctrl, hc'⟩ := bind_eq_ok_iff.mp h
  cases hc'
  rcases processResultBroadcastMsg_cases hctrl with
    ⟨header, hpos, -⟩ | ⟨rlResult, req, inquiryReq, -, -, -, -, hrl⟩
  · exact absurd hpos htype
  · obtain ⟨-, -, -, rfl⟩ := processRLResult_eq_ok_iff.mp hrl
    rcases finishReelectWithRLConsensus_enters node env.toCtrlEnv c.toController req inquiryReq with
      ⟨-, hsame⟩ | ⟨-, -, -, hclock⟩
    · rw [hsame]
      exact hc
    · exact hclock

omit [DecidableEq Hash] in
/-- The begin time that is set is that of turn 0, which matters to no other turn. -/
theorem beginHeight_atClock (c : HeightController Hash) (parentHeader : Header Hash)
    (hc : c.toController.AtClock env.now) (hheight : isBroadcastNumber c.dc.number = false)
    {turn : UInt32} {leader : Address}
    (hleader : c.dc.getLeader node.broadcastNode turn = .ok leader) :
    (c.beginHeight node env parentHeader).toController.AtClock env.now := by
  have hsent (ctrl : Controller Hash) (h : ctrl.AtClock env.now) :
      (ctrl.sendLeaderMsg node).AtClock env.now := by
    have hpub := published_sendLeaderMsg node ctrl
    exact h.congr hpub.standing (by rw [hpub.dc]) hpub.mp
  unfold beginHeight
  rw [if_neg (by rw [hheight]; exact Bool.false_ne_true)]
  apply hsent
  dsimp only
  split_ifs with hold hturn
  · exact hc
  · exact resumeTurn_atClock hturn hleader
  · exact hc.congr rfl (TurnTimes.calState_setBeginTime_of_ne _ hturn _ _) rfl

omit [DecidableEq Hash] in
/-- The clock gives the turn the same place whatever list and leader are. -/
theorem handleStartMsg_atClock (msg : StartControllerMsg Hash) (hc : c.toController.AtClock env.now)
    (hheight : msg.role = .validator → isBroadcastNumber c.dc.number = false) :
    (c.handleStartMsg node env (some msg)).toController.AtClock env.now := by
  rcases handleStartMsg_cases node env c msg with
    ⟨parent, hc'⟩ | ⟨hrole, parentHeader, dc, -, hset⟩
  · rw [hc']
    exact hc
  have hdc : (dc' : Cdc) → dc' = { c.dc with
      leaderCal := dc'.leaderCal, consensusLeader := dc'.consensusLeader
      reelectMaster := dc'.reelectMaster } → { c.toController with dc := dc' }.AtClock env.now := by
    intro dc' hdc'
    rw [hdc']
    exact hc.congr rfl rfl rfl
  rcases hset with ⟨⟨err, hset⟩, hc'⟩ | ⟨hset, hc'⟩ <;> rw [hc']
  · exact hdc dc (Cdc.setValidators_frame hset).1
  · obtain ⟨hframe, hleaders⟩ := Cdc.setValidators_frame hset
    obtain ⟨leader, hleader⟩ := hleaders rfl
    refine beginHeight_atClock _ parentHeader (hdc dc hframe) ?_ hleader
    rw [hframe]
    exact hheight hrole

/-- Waiting for the miners, the handler of the timer does nothing. -/
theorem step_atClock (hc : c.toController.AtClock input.1.now) (hleaves : LeavesTurn node c input)
    (h : c.step node input = .ok c') : c'.toController.AtClock input.1.now := by
  cases hdue : dueResult node c input with
  | none =>
    rcases step_of_not_due hdue h with hquiet | ⟨msg, hi, rfl⟩ | ⟨msg, hi, rfl⟩ | ⟨hi, rfl⟩
    · exact hquiet.atClock hc
    · exact handleStartMsg_atClock msg hc (hleaves.start msg hi)
    · exact hc.notified msg
    · have hsame : c.toController.timeOutHandle node input.1.toCtrlEnv = c.toController := by
        unfold timeOutHandle
        rw [hleaves.timeOut hi]
      simp only [lift, hsame]
      exact hc
  | some due =>
    obtain ⟨c₁, msg⟩ := due
    obtain ⟨hc₁, ⟨-, hquiet⟩ | ⟨c₂, hprocess, hquiet⟩⟩ := step_of_due hdue h
    · exact hquiet.atClock (hc₁.atClock hc)
    · have htype := hleaves.result c₁ msg c₂ hdue hprocess
      exact hquiet.atClock (processResultBroadcastMsg_atClock (hc₁.atClock hc) htype hprocess)

end HeightController

/-- A controller with the results of re-elections that it applied, each with the clock at which it did,
and the last reading of that clock. -/
structure ResultHistory (Hash : Type) extends HeightController Hash where
  applied : List (ReelectLeaderConsensus × ℤ)
  clock : Option ℤ

namespace ResultHistory
variable {Hash : Type} [Zero Hash] [DecidableEq Hash]

def init (number : ℕ) : ResultHistory Hash := ⟨newController number, [], none⟩

def step (node : CtrlNode Hash) (h : ResultHistory Hash)
    (input : HeightEvent Hash) : Except GoError (ResultHistory Hash) := do
  let c ← h.toHeightController.step node input
  let new := (appliedResult node h.toHeightController input).toList
  pure ⟨c, new.map (fun result => (result,input.1.now)) ++ h.applied, some input.1.now⟩

/-- A step with a result that was applied at the same clock, for the same request and with the same
votes, leaves state, turns and timer as they were. -/
def KeepsStanding (node : CtrlNode Hash) (h : ResultHistory Hash)
    (input : HeightEvent Hash) (h' : ResultHistory Hash) : Prop :=
  ∀ c msg result, dueResult node h.toHeightController input = some (c,msg) →
    msg.reelected = some result →
    (∃ old ∈ h.applied, old.1.req = result.req ∧ old.1.votes = result.votes ∧
      old.2 = input.1.now) →
    h'.toController.standing = h.toController.standing

/-- A result whose request was applied before, at whatever clock, is refused, or the turn stays and the
clock puts it in place again. -/
def ResumesTurn (node : CtrlNode Hash) (h : ResultHistory Hash)
    (input : HeightEvent Hash) (h' : ResultHistory Hash) : Prop :=
  ∀ c msg result, dueResult node h.toHeightController input = some (c,msg) →
    msg.reelected = some result → (∃ old ∈ h.applied, old.1.req = result.req) →
    h'.toController.standing = h.toController.standing ∨
      h'.dc.curConsensusTurn = h.dc.curConsensusTurn ∧ h'.toController.AtClock input.1.now

/-- The clock does not go back, and once a result was applied for the current turn, nothing moves the
turn before the clock goes on. -/
structure Undisturbed (node : CtrlNode Hash) (h : ResultHistory Hash)
    (input : HeightEvent Hash) : Prop where
  clock : ∀ time, h.clock = some time → time ≤ input.1.now
  leaves : (∃ old ∈ h.applied, old.1.turn = some h.dc.curConsensusTurn ∧ old.2 = input.1.now) →
    LeavesTurn node h.toHeightController input

variable {node : CtrlNode Hash} {h h' : ResultHistory Hash}
  {input : HeightEvent Hash}

theorem step_eq_ok (hstep : h.step node input = .ok h') :
    h.toHeightController.step node input = .ok h'.toHeightController ∧
      h'.clock = some input.1.now ∧
      ∀ entry ∈ h'.applied, entry ∈ h.applied ∨ entry.2 = input.1.now ∧
        appliedResult node h.toHeightController input = some entry.1 := by
  obtain ⟨c, hc, hstep⟩ := bind_eq_ok_iff.mp hstep
  cases hstep
  refine ⟨hc, rfl, ?_⟩
  intro entry hentry
  rcases List.mem_append.mp hentry with hnew | hold
  · right
    obtain ⟨result, hresult, rfl⟩ := List.mem_map.mp hnew
    exact ⟨rfl, mem_toList.mp hresult⟩
  · exact Or.inl hold

omit [Zero Hash] [DecidableEq Hash] in
def Entered (c : HeightController Hash) (result : ReelectLeaderConsensus) : Prop :=
  ∃ req inquiryReq, result.req = some req ∧ req.inquiryReq = some inquiryReq ∧
    inquiryReq.consensusTurn+inquiryReq.reelectTurn ≤ c.dc.curConsensusTurn ∧
    c.dc.turnTime.Begun (inquiryReq.consensusTurn+inquiryReq.reelectTurn) req.timeStamp

variable {result : ReelectLeaderConsensus}

omit [Zero Hash] [DecidableEq Hash] in
theorem Entered.advances {c c' : HeightController Hash} (h : Entered c result)
    (hc : c.dc.Advances c'.dc) : Entered c' result := by
  obtain ⟨req, inquiryReq, hreq, hinq, hle, hbegun⟩ := h
  exact ⟨req, inquiryReq, hreq, hinq, UInt32.le_trans hle hc.turn, hc.begun _ _ hbegun⟩

/-- What a run keeps: applied results have been entered, and those of the last reading of the clock
left the turn where it puts it. -/
structure Standing (h : ResultHistory Hash) : Prop where
  past : ∀ entry ∈ h.applied, ∃ time, h.clock = some time ∧ entry.2 ≤ time
  entered : ∀ entry ∈ h.applied, Entered h.toHeightController entry.1
  atClock : ∀ entry ∈ h.applied, h.clock = some entry.2 →
    entry.1.turn = some h.dc.curConsensusTurn → h.toController.AtClock entry.2

theorem entered_of_applied {c c' : HeightController Hash}
    (happlied : appliedResult node c input = some result) (hstep : c.step node input = .ok c') :
    Entered c' result ∧ c'.toController.AtClock input.1.now := by
  obtain ⟨c₁, req, inquiryReq, leader, -, hreq, hinq, -, hleader, c₂, hc₂, hquiet⟩ :=
    appliedResult_eq_some happlied hstep
  obtain ⟨⟨err, herr⟩, -⟩ | ⟨hturn, htime, -, hclock⟩ :=
    finishReelectWithRLConsensus_enters node input.1.toCtrlEnv c₁.toController req inquiryReq
  · cases hleader.symm.trans herr
  rw [← hc₂] at hturn htime hclock
  refine ⟨⟨req, inquiryReq, hreq, hinq, ?_, ?_⟩, hquiet.atClock hclock⟩
  · rw [hquiet.dc, hturn]
    exact UInt32.le_refl _
  · rw [hquiet.dc, htime]
    exact TurnTimes.begun_setBeginTime ..

omit [Zero Hash] [DecidableEq Hash] in
theorem Standing.clock_eq (hs : h.Standing) {entry : ReelectLeaderConsensus × ℤ}
    (hentry : entry ∈ h.applied) (hclock : ∀ time, h.clock = some time → time ≤ entry.2) :
    h.clock = some entry.2 := by
  obtain ⟨time, htime, hle⟩ := hs.past entry hentry
  rw [htime, le_antisymm (hclock time htime) hle]

omit [Zero Hash] [DecidableEq Hash] in
theorem Entered.turn_le {c : HeightController Hash} (h : Entered c result) {turn : UInt32}
    (hturn : result.turn = some turn) : turn ≤ c.dc.curConsensusTurn := by
  obtain ⟨req, inquiryReq, hreq, hinq, hle, -⟩ := h
  unfold ReelectLeaderConsensus.turn at hturn
  rw [hreq, bind_some, hinq] at hturn
  cases hturn
  exact hle

theorem entered_step (hentered : ∀ entry ∈ h.applied, Entered h.toHeightController entry.1)
    (hstep : h.step node input = .ok h') :
    ∀ entry ∈ h'.applied, Entered h'.toHeightController entry.1 := by
  obtain ⟨hctrl, -, happlied⟩ := step_eq_ok hstep
  intro entry hentry
  rcases happlied entry hentry with hold | ⟨-, hnew⟩
  · exact (hentered entry hold).advances (step_advances hctrl)
  · exact (entered_of_applied hnew hctrl).1

/-- A result whose request was applied before is refused, or its turn is the current one, which has
begun, so that only the clock can move it. -/
theorem resumed_of_entered (hentered : ∀ entry ∈ h.applied, Entered h.toHeightController entry.1)
    (hstep : h.step node input = .ok h') {c : HeightController Hash}
    {msg : ReelectResultBroadcastMsg Hash}
    (hdue : dueResult node h.toHeightController input = some (c,msg))
    (hresult : msg.reelected = some result) {old : ReelectLeaderConsensus × ℤ}
    (hold : old ∈ h.applied) (hreq : old.1.req = result.req) :
    h'.toController.standing = h.toController.standing ∨
      old.1.turn = some h.dc.curConsensusTurn ∧ h'.dc.curConsensusTurn = h.dc.curConsensusTurn ∧
      h'.dc.turnTime = h.dc.turnTime ∧ h'.mp = h.mp ∧ h'.toController.AtClock input.1.now := by
  obtain ⟨hc, ⟨-, hquiet⟩ | ⟨c₂, hprocess, hquiet⟩⟩ := step_of_due hdue (step_eq_ok hstep).1
  · exact .inl (hquiet.standing.trans hc.standing)
  obtain ⟨req, inquiryReq, hreq', hinq, hle, hfinish⟩ :=
    processResultBroadcastMsg_reelected hresult hprocess
  obtain ⟨req₁, inquiryReq₁, hreq₁, hinq₁, hle₁, hbegun⟩ := hentered old hold
  cases (hreq₁.symm.trans hreq).trans hreq'
  cases hinq₁.symm.trans hinq
  rw [hc.dc] at hle
  have hsame := UInt32.le_antisymm hle₁ hle
  rcases finishReelectWithRLConsensus_enters node input.1.toCtrlEnv c.toController req inquiryReq with
    ⟨-, hrefused⟩ | ⟨hturn, htime, hmp, hclock⟩
  · left
    rw [hquiet.standing, hfinish, hrefused, hc.standing]
  · right
    rw [← hfinish] at hturn htime hmp hclock
    refine ⟨?_, ?_, ?_, ?_, hquiet.atClock hclock⟩
    · unfold ReelectLeaderConsensus.turn
      rw [hreq₁, bind_some, hinq₁, map_some, hsame]
    · rw [hquiet.dc, hturn, hsame]
    · rw [hquiet.dc, htime, hc.dc, hbegun.setBeginTime_eq]
    · rw [hquiet.mp, hmp, hc.mp]

/-- The clock has not gone on since, and neither has the turn. -/
theorem Standing.step (hs : h.Standing) (hundisturbed : Undisturbed node h input)
    (hstep : h.step node input = .ok h') : h'.Standing := by
  obtain ⟨hctrl, hclock, happlied⟩ := step_eq_ok hstep
  have hadvances := step_advances hctrl
  constructor
  · intro entry hentry
    refine ⟨input.1.now, hclock, ?_⟩
    rcases happlied entry hentry with hold | ⟨htime, -⟩
    · obtain ⟨time, htime, hle⟩ := hs.past entry hold
      exact hle.trans (hundisturbed.clock time htime)
    · exact htime.le
  · exact entered_step hs.entered hstep
  · intro entry hentry htime hturn
    rw [hclock] at htime
    have hnow : input.1.now = entry.2 := some.inj htime
    rcases happlied entry hentry with hold | ⟨-, hnew⟩
    · have hold' : h.clock = some entry.2 := by
        apply hs.clock_eq hold
        intro time ht
        rw [← hnow]
        exact hundisturbed.clock time ht
      have hsame : h.dc.curConsensusTurn = h'.dc.curConsensusTurn :=
        UInt32.le_antisymm hadvances.turn ((hs.entered entry hold).turn_le hturn)
      rw [← hsame] at hturn
      have hbefore := hs.atClock entry hold hold' hturn
      rw [← hnow] at hbefore ⊢
      exact step_atClock hbefore
        (hundisturbed.leaves ⟨entry, hold, hturn, hnow.symm⟩) hctrl
    · rw [← hnow]
      exact (entered_of_applied hnew hctrl).2

/-- A result that was applied before at this clock is refused, or it puts the turn where it is. -/
theorem Standing.keepsStanding (hs : h.Standing) (hundisturbed : Undisturbed node h input)
    (hstep : h.step node input = .ok h') : KeepsStanding node h input h' := by
  rintro c msg result hdue hresult ⟨old, hold, hreq, -, hnow⟩
  rcases resumed_of_entered hs.entered hstep hdue hresult hold hreq with
    hsame | ⟨hown, hturn, htime, hmp, hclock'⟩
  · exact hsame
  have hclock : h.clock = some old.2 := by
    apply hs.clock_eq hold
    rw [hnow]
    exact hundisturbed.clock
  have hat := hs.atClock old hold hclock hown
  rw [hnow] at hat
  exact hat.standing_eq hclock' hturn htime hmp

omit [Zero Hash] [DecidableEq Hash] in
theorem standing_init [Zero Hash] (number : ℕ) : (init number : ResultHistory Hash).Standing := by
  refine ⟨?_, ?_, ?_⟩ <;> intro entry hentry <;> cases hentry

/-- The turn does not decrease, an applied result that comes again resumes its turn, and in an
undisturbed run it changes nothing at the same clock. -/
theorem reapplied_result_keeps_standing (node : CtrlNode Hash) (number : ℕ)
    (inputs : List (HeightEvent Hash)) :
    EachStep (step node) (fun h _ h' => h.dc.curConsensusTurn ≤ h'.dc.curConsensusTurn)
        (init number) inputs ∧
      EachStep (step node) (ResumesTurn node) (init number) inputs ∧
      (EachBefore (step node) (Undisturbed node) (init number) inputs →
        EachStep (step node) (KeepsStanding node) (init number) inputs) := by
  refine ⟨?_, ?_, ?_⟩
  · have hturn (h : ResultHistory Hash) (input : HeightEvent Hash)
        (h' : ResultHistory Hash) (hstep : h.step node input = .ok h') :
        h.dc.curConsensusTurn ≤ h'.dc.curConsensusTurn :=
      (step_advances (step_eq_ok hstep).1).turn
    exact eachStep_of_preserves (fun _ _ _ (_ : True) (_ : True) _ => trivial)
      (fun h input h' _ _ hstep => hturn h input h' hstep) (fun _ _ => trivial) trivial
  · refine eachStep_of_preserves (fun _ _ _ (_ : True) hentered hstep => entered_step hentered hstep)
      ?_ (fun _ _ => trivial) (standing_init number).entered
    rintro h input h' - hentered hstep c msg result hdue hresult ⟨old, hold, hreq⟩
    rcases resumed_of_entered hentered hstep hdue hresult hold hreq with
      hsame | ⟨-, hturn, -, -, hclock⟩
    · exact .inl hsame
    · exact .inr ⟨hturn, hclock⟩
  · intro hundisturbed
    exact eachStep_of_eachBefore (fun _ _ _ hs hi hstep => hs.step hi hstep)
      (fun _ _ _ hs hi hstep => hs.keepsStanding hi hstep) (standing_init number) hundisturbed

def turnOneResult : ReelectLeaderConsensus := ⟨some (sampleRequest 1045), threeVotes 1045, 1045⟩

def turnOneMsg : ReelectResultBroadcastMsg RequestHash :=
  ⟨3, .agree, none, some turnOneResult, 1045, 1⟩

def turnOneBlock : ReelectResultBroadcastMsg RequestHash :=
  ⟨3, .pos, some ⟨0, some (sampleHeader 3 1 1046 (threeVotes 0)), 1, []⟩, none, 1050, 1⟩

def turnOneInputs : List (HeightEvent RequestHash) :=
  [(masterEnv 1050,startThree 1000), (masterEnv 1050,.resultBroadcast (some turnOneMsg))]

def againInput : HeightEvent RequestHash :=
  (masterEnv 1050,.resultBroadcast (some turnOneMsg))

/-- The result of turn 1 comes again after the inputs. -/
theorem exists_again {inputs : List (HeightEvent RequestHash)}
    {standing standing' : CtrlState × UInt32 × UInt32 × ℤ}
    (hbefore : (run (step masterNode) (init 3) inputs).toOption.map
      (fun h => (h.applied,h.toController.standing)) = some ([(turnOneResult,1050)],standing))
    (hafter : (run (step masterNode) (init 3) inputs >>= fun h =>
      h.step masterNode againInput).toOption.map (fun h => h.toController.standing) = some standing') :
    ∃ h h', run (step masterNode) (init 3) inputs = .ok h ∧
      h.step masterNode againInput = .ok h' ∧
      h.applied = [(turnOneResult,1050)] ∧ h.toController.standing = standing ∧
      h'.toController.standing = standing' ∧
      ∃ old ∈ h.applied, old.1.req = turnOneResult.req ∧ old.1.votes = turnOneResult.votes ∧
        old.2 = againInput.1.now := by
  obtain ⟨h, hrun, hend⟩ := exists_ok_of_map_toOption hbefore
  obtain ⟨happlied, hstanding⟩ := Prod.mk.inj hend
  obtain ⟨h', hstep, hstanding'⟩ := exists_ok_of_map_toOption hafter
  rw [hrun] at hstep
  refine ⟨h, h', hrun, hstep, happlied, hstanding, hstanding', (turnOneResult,1050), ?_⟩
  rw [happlied]
  exact ⟨List.mem_singleton_self _, rfl, rfl, rfl⟩

/-- The result of turn 1 comes twice and is applied once: the second time changes nothing. -/
theorem reapplied_result_keeps_standing_twice :
    ∃ h h', run (step masterNode) (init 3) turnOneInputs = .ok h ∧
      h.step masterNode (masterEnv 1050,.resultBroadcast (some turnOneMsg)) = .ok h' ∧
      h.applied = [(turnOneResult,1050)] ∧
      h.toController.standing = (.stPos,1,0,15) ∧ h'.toController.standing = (.stPos,1,0,15) := by
  obtain ⟨h, h', hrun, hstep, happlied, hstanding, -, hagain⟩ :=
    @exists_again turnOneInputs (.stPos,1,0,15) (.stPos,1,0,15) (by decide +kernel) (by decide +kernel)
  refine ⟨h, h', hrun, hstep, happlied, hstanding, ?_⟩
  have hresult (s : ResultHistory RequestHash) (htime : s.clock = some 1050) :
      Undisturbed masterNode s againInput := by
    refine ⟨?_, fun _ => leavesTurn_of_result _ _ _ (by decide)⟩
    intro time ht
    exact (some.inj (ht.symm.trans htime)).le
  have hundisturbed : EachBefore (step masterNode) (Undisturbed masterNode) (init 3)
      (turnOneInputs ++ [againInput]) := by
    refine ⟨⟨nofun, ?_⟩, ?_⟩
    · rintro ⟨old, hold, -⟩
      cases hold
    · intro s₁ h₁
      refine ⟨hresult s₁ (step_eq_ok h₁).2.1, ?_⟩
      intro s₂ h₂
      exact ⟨hresult s₂ (step_eq_ok h₂).2.1, fun _ _ => trivial⟩
  have heach := (reapplied_result_keeps_standing masterNode 3 _).2.2 hundisturbed
  have hkeeps := (heach.eachBefore.of_append hrun).1 h' hstep
  rw [← hstanding]
  exact hkeeps h.toHeightController turnOneMsg turnOneResult rfl rfl hagain

/-- When the result of the vote comes again, the controller that waited for the miners is back in
the POS phase. -/
theorem reapplied_result_stops_mining :
    ∃ h h', run (step masterNode) (init 3)
        (turnOneInputs ++ [(masterEnv 1050,.resultBroadcast (some turnOneBlock))]) = .ok h ∧
      h.step masterNode (masterEnv 1050,.resultBroadcast (some turnOneMsg)) = .ok h' ∧
      h.toController.standing = (.stMining,1,0,0) ∧ h'.toController.standing = (.stPos,1,0,15) ∧
      ¬ KeepsStanding masterNode h (masterEnv 1050,.resultBroadcast (some turnOneMsg)) h' := by
  obtain ⟨h, h', hrun, hstep, -, hstanding, hstanding', hagain⟩ :=
    @exists_again (turnOneInputs ++ [(masterEnv 1050,.resultBroadcast (some turnOneBlock))])
      (.stMining,1,0,0) (.stPos,1,0,15) (by decide +kernel) (by decide +kernel)
  refine ⟨h, h', hrun, hstep, hstanding, hstanding', ?_⟩
  intro hkeeps
  have hsame := hkeeps h.toHeightController turnOneMsg turnOneResult rfl rfl hagain
  rw [hstanding, hstanding'] at hsame
  cases hsame

end ResultHistory

end MatrixNode
