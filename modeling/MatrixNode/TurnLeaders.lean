import MatrixNode.HeightController
import MatrixNode.ReelectEvidence

/-! The leader of a consensus turn and the master of a re-election turn are the ones that the list of
turns gives. -/
namespace MatrixNode
open GoLib Controller LeaderCalculator

namespace Cdc
variable (broadcastNode : Address) (dc : Cdc)

structure Led : Prop where
  leader : dc.getLeader broadcastNode dc.curConsensusTurn = .ok dc.consensusLeader
  master_zero : dc.reelectMaster = 0 ↔ dc.curReelectTurn = 0
  master : dc.curReelectTurn ≠ 0 →
    dc.getLeader broadcastNode (dc.curConsensusTurn+dc.curReelectTurn) = .ok dc.reelectMaster

def LeadersNonzero : Prop :=
  ∀ turn leader, dc.getLeader broadcastNode turn = .ok leader → leader ≠ 0

variable {broadcastNode dc} {dc' : Cdc}

theorem getLeader_isOk {turn : UInt32} {leader : Address}
    (h : dc.getLeader broadcastNode turn = .ok leader) (turn' : UInt32) :
    ∃ leader', dc.getLeader broadcastNode turn' = .ok leader' := by
  have hlist : 0 < dc.leaderCal.leaderList.length := by
    by_contra hempty
    unfold getLeader LeaderCalculator.getLeader at h
    rw [if_pos (by omega)] at h
    cases h
  unfold getLeader
  rw [getLeader_eq hlist]
  exact ⟨_, rfl⟩

theorem Led.congr (h : Led broadcastNode dc) (hcal : dc'.leaderCal = dc.leaderCal)
    (hturn : dc'.curConsensusTurn = dc.curConsensusTurn)
    (hleader : dc'.consensusLeader = dc.consensusLeader)
    (hreelect : dc'.curReelectTurn = dc.curReelectTurn)
    (hmaster : dc'.reelectMaster = dc.reelectMaster) : Led broadcastNode dc' := by
  have hget (turn : UInt32) :
      dc'.getLeader broadcastNode turn = dc.getLeader broadcastNode turn := by
    unfold getLeader
    rw [hcal]
  constructor
  · rw [hget, hturn, hleader]
    exact h.leader
  · rw [hmaster, hreelect]
    exact h.master_zero
  · rw [hget, hturn, hreelect, hmaster]
    exact h.master

theorem LeadersNonzero.congr (h : LeadersNonzero broadcastNode dc)
    (hcal : dc'.leaderCal = dc.leaderCal) : LeadersNonzero broadcastNode dc' := by
  intro turn leader hleader
  apply h turn leader
  unfold getLeader at hleader ⊢
  rwa [hcal] at hleader

theorem led_of_zero (hleader : dc.getLeader broadcastNode dc.curConsensusTurn = .ok dc.consensusLeader)
    (hturn : dc.curReelectTurn = 0) (hmaster : dc.reelectMaster = 0) : Led broadcastNode dc :=
  ⟨hleader, iff_of_true hmaster hturn, fun h => absurd hturn h⟩

theorem led_of_setReelectTurn (hnonzero : LeadersNonzero broadcastNode dc)
    (hleader : dc.getLeader broadcastNode dc.curConsensusTurn = .ok dc.consensusLeader)
    {reelectTurn : UInt32} (hne : dc.curReelectTurn ≠ reelectTurn)
    (h : dc.setReelectTurn broadcastNode reelectTurn = .ok dc') : Led broadcastNode dc' := by
  unfold setReelectTurn at h
  rw [if_neg hne] at h
  split_ifs at h with hzero
  · cases h
    exact led_of_zero hleader rfl rfl
  · split at h
    · cases h
    · rename_i master hmaster
      cases h
      refine ⟨hleader, ?_, fun _ => hmaster⟩
      exact iff_of_false (hnonzero _ _ hmaster) hzero

theorem Led.setReelectTurn (h : Led broadcastNode dc) (hnonzero : LeadersNonzero broadcastNode dc)
    (reelectTurn : UInt32) :
    Led broadcastNode (((dc.setReelectTurn broadcastNode reelectTurn).toOption).getD dc) := by
  cases hset : dc.setReelectTurn broadcastNode reelectTurn with
  | error err => exact h
  | ok dc' =>
    by_cases hne : dc.curReelectTurn = reelectTurn
    · unfold Cdc.setReelectTurn at hset
      rw [if_pos hne] at hset
      cases hset
      exact h
    · exact led_of_setReelectTurn hnonzero h.leader hne hset

theorem leadersNonzero_of_list (hb : broadcastNode ≠ 0)
    (h : ∀ account ∈ dc.leaderCal.leaderList, account ≠ 0) : LeadersNonzero broadcastNode dc := by
  intro turn leader hleader
  rcases Nat.eq_zero_or_pos dc.leaderCal.leaderList.length with hempty | hlist
  · unfold getLeader LeaderCalculator.getLeader at hleader
    rw [if_pos hempty] at hleader
    cases hleader
  have hdue (k : ℕ) : dc.leaderCal.leaderList.getD (k%dc.leaderCal.leaderList.length) 0 ≠ 0 := by
    have hk : k%dc.leaderCal.leaderList.length < dc.leaderCal.leaderList.length :=
      Nat.mod_lt _ hlist
    rw [List.getD_eq_getElem _ _ hk]
    exact h _ (List.getElem_mem hk)
  unfold getLeader at hleader
  rw [getLeader_eq hlist] at hleader
  split_ifs at hleader
  · cases hleader
    exact hb
  · cases hleader
    exact hdue _
  · cases hleader
    exact hdue _

end Cdc

variable {validators : List TopologyNodeInfo} {preLeader : Address} {list : List Address}

theorem mem_of_calLeaderList {number : ℕ} (h : calLeaderList preLeader validators number = .ok list)
    {account : Address} (hmem : account ∈ list) : ∃ v ∈ validators, v.account = account := by
  rw [calLeaderList_eq] at h
  split at h
  · cases h
    exact List.mem_map.mp (List.mem_rotate.mp hmem)
  · cases h

theorem calLeaderList_ne_nil {number : ℕ} (h : calLeaderList preLeader validators number = .ok list)
    (hne : isReElectionNumber number = true → validators ≠ []) : list ≠ [] := by
  rw [calLeaderList_eq] at h
  split at h
  · rename_i startPos hstart
    cases h
    intro hnil
    have hempty : validators = [] := by
      simpa using hnil
    subst hempty
    unfold startPosition at hstart
    split_ifs at hstart with hr
    · exact hne hr rfl
    · rename_i hmem
      cases hmem
  · cases h

namespace Controller
variable {Hash : Type} [Zero Hash] {node : CtrlNode Hash} (env : CtrlEnv Hash) (c : Controller Hash)

/-- The clock starts a turn anew. It writes the re-election turn past the setter, which is
harmless if there was no master, or if a re-election turn is set right after. -/
theorem resumeTurn_led (hnonzero : c.dc.LeadersNonzero node.broadcastNode) (consensusTurn : UInt32)
    (hleader : c.dc.getLeader node.broadcastNode c.dc.curConsensusTurn = .ok c.dc.consensusLeader)
    (hmaster : c.dc.reelectMaster = 0 ∨ (c.dc.turnTime.calState consensusTurn env.now).2.2 ≠ 0) :
    (c.resumeTurn node env consensusTurn).dc.Led node.broadcastNode := by
  rw [(resumeTurn_frame node env c consensusTurn).2]
  rcases c.dc.turnTime.calState_state consensusTurn env.now with ⟨hst, hturn⟩ | hst
  · rw [if_pos hst]
    exact Cdc.led_of_zero hleader rfl (hmaster.resolve_right (not_not.mpr hturn))
  · rw [if_neg (by rw [hst]; decide)]
    generalize hdc : ({ c.dc with
      state := (c.dc.turnTime.calState consensusTurn env.now).1, curReelectTurn := 0 } : Cdc) = dc
    have hleader' : dc.getLeader node.broadcastNode dc.curConsensusTurn = .ok dc.consensusLeader := by
      rw [← hdc]
      exact hleader
    have hnonzero' : dc.LeadersNonzero node.broadcastNode := hnonzero.congr (by rw [← hdc])
    have hzero : dc.curReelectTurn = 0 := by rw [← hdc]
    by_cases hturn : (c.dc.turnTime.calState consensusTurn env.now).2.2 = 0
    · rw [hturn]
      refine Cdc.Led.setReelectTurn (Cdc.led_of_zero hleader' hzero ?_) hnonzero' 0
      rw [← hdc]
      exact hmaster.resolve_right (not_not.mpr hturn)
    · cases hset : dc.setReelectTurn node.broadcastNode
        (c.dc.turnTime.calState consensusTurn env.now).2.2 with
      | error err =>
        obtain ⟨master, hm⟩ := Cdc.getLeader_isOk hleader'
          (dc.curConsensusTurn+(c.dc.turnTime.calState consensusTurn env.now).2.2)
        unfold Cdc.setReelectTurn at hset
        rw [if_neg (by rw [hzero]; exact Ne.symm hturn), if_neg hturn, hm] at hset
        cases hset
      | ok dc' =>
        exact Cdc.led_of_setReelectTurn hnonzero' hleader' (by rw [hzero]; exact Ne.symm hturn) hset

variable {c}

theorem timeOutHandle_led (hnonzero : c.dc.LeadersNonzero node.broadcastNode)
    (h : c.dc.Led node.broadcastNode) :
    (c.timeOutHandle node env).dc.Led node.broadcastNode := by
  unfold timeOutHandle
  split
  · rw [(startReelect_frame node env _ 1).2, if_pos rfl]
    apply Cdc.Led.setReelectTurn
    · exact h.congr rfl rfl rfl rfl rfl
    · exact hnonzero.congr rfl
  · rename_i hst
    rw [(startReelect_frame node env _ _).2, if_pos hst]
    exact h.setReelectTurn hnonzero _
  · exact h
  · exact h

variable {msg : ReelectResultBroadcastMsg Hash} {c' : Controller Hash}

theorem processResultBroadcastMsg_led (hnonzero : c.dc.LeadersNonzero node.broadcastNode)
    (hled : c.dc.Led node.broadcastNode)
    (h : c.processResultBroadcastMsg node env (some msg) = .ok c') :
    c'.dc.Led node.broadcastNode := by
  rcases processResultBroadcastMsg_cases h with
    ⟨header, -, -, hpos⟩ | ⟨rlResult, req, inquiryReq, -, -, -, -, hrl⟩
  · rw [(processPOSResult_eq_ok_iff.mp hpos).2.2, finishReelectWithPOS_dc]
    refine Cdc.led_of_zero hled.leader rfl ?_
    split_ifs with hzero
    · exact hled.master_zero.mpr hzero
    · rfl
  · rw [(processRLResult_eq_ok_iff.mp hrl).2.2.2]
    rcases finishReelectWithRLConsensus_frame node env c req inquiryReq with
      ⟨-, -, hsame⟩ | ⟨leader, hleader, hc'⟩
    · rw [hsame]
      exact hled
    · rw [hc', sendLeaderMsg_dc]
      exact resumeTurn_led env (c.entersTurn leader _ req.timeStamp) (hnonzero.congr rfl) _ hleader
        (Or.inl rfl)

theorem processResultBroadcastMsg_leaderCal
    (h : c.processResultBroadcastMsg node env (some msg) = .ok c') : c.dc.SameHeight c'.dc := by
  have hstep := resultStep_sameHeight (resultStep_of_process h)
  rwa [sendResultBroadcastRsp_dc] at hstep

end Controller

namespace HeightController
variable {Hash : Type} (node : CtrlNode Hash) (env : HeightEnv Hash) (c : HeightController Hash)

/-- What keeps a start message from separating master and turn. -/
structure StartKeepsTurns (msg : StartControllerMsg Hash) : Prop where
  nonempty : isReElectionNumber c.dc.number = true → msg.validators ≠ some []
  accounts : ∀ validators, msg.validators = some validators → ∀ v ∈ validators, v.account ≠ 0
  restart : ∀ parentHeader, msg.parentHeader = some parentHeader →
    isBroadcastNumber c.dc.number = false →
    c.dc.curConsensusTurn = 0 → c.dc.curReelectTurn ≠ 0 →
    (c.dc.turnTime.setBeginTime 0 (int64 parentHeader.time)).2 = true →
    ((c.dc.turnTime.setBeginTime 0 (int64 parentHeader.time)).1.calState 0 env.now).2.2 ≠ 0

/-- The condition on an input: start messages to a validator keep the turns. -/
def KeepsTurns (c : HeightController Hash) (input : HeightEvent Hash) : Prop :=
  ∀ msg, input.2 = .start (some msg) → msg.role = .validator → StartKeepsTurns input.1 c msg

structure TurnInv : Prop where
  number : c.dc.leaderCal.number = c.dc.number
  nonzero : c.dc.LeadersNonzero node.broadcastNode
  led : c.validatorsSet = true → c.dc.Led node.broadcastNode

variable {node env c} {c' : HeightController Hash}

theorem TurnInv.unturned (h : TurnInv node c) (hc : Unturned c c') : TurnInv node c' := by
  constructor
  · rw [hc.dc]
    exact h.number
  · rw [hc.dc]
    exact h.nonzero
  · rw [hc.dc, hc.validatorsSet]
    exact h.led

theorem TurnInv.of_result (h : TurnInv node c) {msg : ReelectResultBroadcastMsg Hash} [Zero Hash]
    (hprocess : c.processResultBroadcastMsg node env (some msg) = .ok c') : TurnInv node c' := by
  obtain ⟨ctrl, hctrl, hc'⟩ := bind_eq_ok_iff.mp hprocess
  cases hc'
  have hheight := processResultBroadcastMsg_leaderCal env.toCtrlEnv hctrl
  refine ⟨?_, h.nonzero.congr hheight.leaderCal, fun hset => ?_⟩
  · rw [hheight.leaderCal, hheight.number]
    exact h.number
  · exact processResultBroadcastMsg_led env.toCtrlEnv h.nonzero (h.led hset) hctrl

variable {msg : StartControllerMsg Hash}

/-- The list has a leader for every turn. -/
theorem setValidators_turnInv (hb : node.broadcastNode ≠ 0) (h : TurnInv node c)
    (hkeeps : StartKeepsTurns env c msg) (preLeader : Address) :
    let r := c.dc.setValidators node.broadcastNode env.getHeaderByNumber preLeader msg.validators
    (∃ err, r = (c.dc,.error err)) ∨ ∃ dc, r = (dc,.ok ()) ∧
      dc.leaderCal.number = dc.number ∧ dc.LeadersNonzero node.broadcastNode ∧
      dc.Led node.broadcastNode ∧ dc.number = c.dc.number ∧
      dc.curConsensusTurn = c.dc.curConsensusTurn ∧ dc.curReelectTurn = c.dc.curReelectTurn ∧
      dc.turnTime = c.dc.turnTime := by
  rcases c.dc.setValidators_cases node.broadcastNode env.getHeaderByNumber preLeader msg.validators
    with hsame | ⟨cal, hcal, hrest⟩
  · exact Or.inl hsame
  obtain ⟨vs, preLeader', hvs, hlist, hnumber⟩ := setValidators_eq_ok hcal
  have hne : cal.leaderList ≠ [] := by
    apply calLeaderList_ne_nil hlist
    intro hr hempty
    rw [h.number] at hr
    exact hkeeps.nonempty hr (by rw [hvs, hempty])
  have hnonzero : Cdc.LeadersNonzero node.broadcastNode { c.dc with leaderCal := cal } := by
    apply Cdc.leadersNonzero_of_list hb
    intro account haccount
    obtain ⟨v, hv, rfl⟩ := mem_of_calLeaderList hlist haccount
    exact hkeeps.accounts vs hvs v hv
  rcases hrest with ⟨err, turn, -, herr⟩ | ⟨leader, master, hr, hleader, hzero, hmaster⟩
  · unfold Cdc.getLeader at herr
    rw [getLeader_eq (List.length_pos_of_ne_nil hne)] at herr
    cases herr
  · refine Or.inr ⟨_, hr, hnumber.trans h.number, hnonzero.congr rfl, ⟨hleader, ?_, hmaster⟩,
      rfl, rfl, rfl, rfl⟩
    by_cases hturn : c.dc.curReelectTurn = 0
    · exact iff_of_true (hzero hturn) hturn
    · exact iff_of_false (hnonzero _ _ (hmaster hturn)) hturn

variable [Zero Hash]

/-- A master is left over exactly from a re-election turn. -/
theorem beginHeight_turnInv {dc : Cdc} (hnumber : dc.leaderCal.number = dc.number)
    (hnonzero : dc.LeadersNonzero node.broadcastNode) (hled : dc.Led node.broadcastNode)
    (hkeeps : StartKeepsTurns env c msg) {parentHeader : Header Hash}
    (hparent : msg.parentHeader = some parentHeader) (hn : dc.number = c.dc.number)
    (hct : dc.curConsensusTurn = c.dc.curConsensusTurn)
    (hrt : dc.curReelectTurn = c.dc.curReelectTurn) (htt : dc.turnTime = c.dc.turnTime) :
    TurnInv node ({ c with dc := dc, validatorsSet := true }.beginHeight node env parentHeader) := by
  have hbegin := beginHeight_dc node env { c with dc := dc, validatorsSet := true } parentHeader
  generalize ({ c with dc := dc, validatorsSet := true }.beginHeight node env parentHeader) = c'
    at hbegin ⊢
  rcases hbegin with ⟨-, hdc⟩ | ⟨-, -, hdc⟩ | ⟨-, -, -, hdc⟩ | ⟨hbroadcast, hbegun, hturn, hdc⟩
  · refine ⟨?_, ?_, fun _ => ?_⟩ <;> rw [hdc]
    · exact hnumber
    · exact hnonzero.congr rfl
    · exact hled.congr rfl rfl rfl rfl rfl
  · exact ⟨by rw [hdc]; exact hnumber, by rw [hdc]; exact hnonzero, fun _ => by rw [hdc]; exact hled⟩
  · refine ⟨?_, ?_, fun _ => ?_⟩ <;> rw [hdc]
    · exact hnumber
    · exact hnonzero.congr rfl
    · exact hled.congr rfl rfl rfl rfl rfl
  · have hsame := resumeTurn_sameTurn node env.toCtrlEnv { c.toController with
      dc := { dc with turnTime := (dc.turnTime.setBeginTime 0 (int64 parentHeader.time)).1 } } 0
    refine ⟨?_, ?_, fun _ => ?_⟩ <;> rw [hdc]
    · rw [hsame.leaderCal, hsame.number]
      exact hnumber
    · exact hnonzero.congr hsame.leaderCal
    · apply resumeTurn_led
      · exact hnonzero.congr rfl
      · exact hled.leader
      · by_cases hreelect : dc.curReelectTurn = 0
        · exact Or.inl (hled.master_zero.mpr hreelect)
        · right
          rw [htt] at hbegun ⊢
          rw [hn] at hbroadcast
          rw [hct] at hturn
          rw [hrt] at hreelect
          exact hkeeps.restart parentHeader hparent hbroadcast hturn hreelect hbegun

theorem handleStartMsg_turnInv (hb : node.broadcastNode ≠ 0) (h : TurnInv node c)
    (msg : StartControllerMsg Hash) (hkeeps : msg.role = .validator → StartKeepsTurns env c msg) :
    TurnInv node (c.handleStartMsg node env (some msg)) := by
  rcases handleStartMsg_cases node env c msg with
    ⟨parent, hc⟩ | ⟨hrole, parentHeader, dc, hparent, hset⟩
  · rw [hc]
    exact h.unturned ⟨rfl, rfl, rfl, rfl, rfl⟩
  have hsets := setValidators_turnInv hb h (hkeeps hrole) parentHeader.leader
  rcases hset with ⟨⟨err, hr⟩, hc⟩ | ⟨hr, hc⟩
  · rw [hc]
    rcases hsets with ⟨err', hsame⟩ | ⟨dc', hok, -⟩
    · cases hr.symm.trans hsame
      exact h
    · cases hr.symm.trans hok
  · rw [hc]
    rcases hsets with ⟨err', hsame⟩ | ⟨dc', hok, hnumber, hnonzero, hled, hn, hct, hrt, htt⟩
    · cases hr.symm.trans hsame
    · cases hr.symm.trans hok
      exact beginHeight_turnInv hnumber hnonzero hled (hkeeps hrole) hparent hn hct hrt htt

theorem step_turnInv [DecidableEq Hash] (hb : node.broadcastNode ≠ 0)
    {input : HeightEvent Hash} (h : TurnInv node c) (hkeeps : KeepsTurns c input)
    (hstep : c.step node input = .ok c') : TurnInv node c' := by
  obtain ⟨env, i⟩ := input
  have hturn : TurnStep node env c c' i := turnStep_of_step hstep
  cases hturn with
  | quiet hc => exact h.unturned hc
  | start msg hc =>
    subst hc
    exact handleStartMsg_turnInv hb h msg (hkeeps msg rfl)
  | notified msg hc =>
    subst hc
    have hdc : (c.lift fun ctrl => ctrl.handleBlockPOSFinishedNotify (some msg)).dc =
        { c.dc with state :=
          (c.lift fun ctrl => ctrl.handleBlockPOSFinishedNotify (some msg)).dc.state } := by
      unfold lift handleBlockPOSFinishedNotify
      simp only [processPOSState_eq]
    refine ⟨?_, ?_, fun hset => ?_⟩ <;> rw [hdc]
    · exact h.number
    · exact h.nonzero.congr rfl
    · exact (h.led hset).congr rfl rfl rfl rfl rfl
  | timeOut hc =>
    subst hc
    have hsame := timeOutHandle_sameTurn node env.toCtrlEnv c.toController
    refine ⟨?_, h.nonzero.congr hsame.leaderCal, fun hset => ?_⟩
    · exact (congrArg number hsame.leaderCal).trans
        (h.number.trans hsame.number.symm)
    · exact timeOutHandle_led env.toCtrlEnv h.nonzero (h.led hset)
  | broadcast msg c₁ hprocess hc => exact (h.of_result hprocess).unturned hc
  | agreed rsp fromAccount msg c₁ hmsg hc hprocess => exact (h.unturned hc).of_result hprocess

/-- In every run whose start messages keep the turns, leader and master are those of the turns as
soon as `SetValidators` has succeeded. -/
theorem run_led [DecidableEq Hash] (node : CtrlNode Hash) (number : ℕ)
    (inputs : List (HeightEvent Hash)) (hb : node.broadcastNode ≠ 0)
    (hkeeps : EachBefore (step node) KeepsTurns (newController number) inputs)
    (hrun : run (step node) (newController number) inputs = .ok c') (hset : c'.validatorsSet = true) :
    c'.dc.Led node.broadcastNode := by
  have hinit : TurnInv node (newController number) := by
    refine ⟨rfl, ?_, fun h => by cases h⟩
    intro turn leader hleader
    cases hleader
  have hinv := run_preserves_of_eachBefore (fun s i s' hs hi hstep => step_turnInv hb hs hi hstep)
    hinit hkeeps hrun
  exact hinv.led hset

/-- Height 3 is in its first re-election turn when it is started again with a later parent block: the
master of that turn is left over in the POS phase. -/
theorem restart_leaves_master :
    ∃ c', run (step masterNode) (newController 3)
        [(masterEnv 1050,startThree 1000), (masterEnv 1050,startThree 1040)] = .ok c' ∧
      c'.validatorsSet = true ∧ c'.dc.curReelectTurn = 0 ∧ c'.dc.reelectMaster = 1 ∧
      ¬ c'.dc.Led masterNode.broadcastNode := by
  have hend : (run (step masterNode) (newController 3)
      [(masterEnv 1050,startThree 1000), (masterEnv 1050,startThree 1040)]).toOption.map
      (fun c => (c.validatorsSet,c.dc.curReelectTurn,c.dc.reelectMaster)) = some (true,0,1) := by
    decide +kernel
  obtain ⟨c', hrun, hend⟩ := exists_ok_of_map_toOption hend
  simp only [Prod.mk.injEq] at hend
  obtain ⟨hset, hturn, hmaster⟩ := hend
  refine ⟨c', hrun, hset, hturn, hmaster, ?_⟩
  intro hled
  have hzero := hled.master_zero.mpr hturn
  rw [hmaster] at hzero
  exact absurd hzero (by decide)

/-- Height 3 in its second re-election turn, which account 2 is the master of. -/
theorem run_led_second_turn :
    ∃ c', run (step masterNode) (newController 3)
        [(masterEnv 1050,startThree 1000), (masterEnv 1090,.timeOut)] = .ok c' ∧
      c'.dc.curReelectTurn = 2 ∧ c'.dc.reelectMaster = 2 ∧ c'.dc.Led masterNode.broadcastNode := by
  have hend : (run (step masterNode) (newController 3)
      [(masterEnv 1050,startThree 1000), (masterEnv 1090,.timeOut)]).toOption.map
      (fun c => (c.validatorsSet,c.dc.curReelectTurn,c.dc.reelectMaster)) = some (true,2,2) := by
    decide +kernel
  obtain ⟨c', hrun, hend⟩ := exists_ok_of_map_toOption hend
  simp only [Prod.mk.injEq] at hend
  obtain ⟨hset, hturn, hmaster⟩ := hend
  refine ⟨c', hrun, hturn, hmaster, ?_⟩
  refine run_led masterNode 3 _ (by decide) ?_ hrun hset
  constructor
  · intro msg hmsg _
    cases hmsg
    refine ⟨fun h => absurd h (by decide), ?_, fun _ _ _ _ hne => absurd rfl hne⟩
    intro validators hvalidators
    cases hvalidators
    decide
  · intro s' _
    constructor
    · intro msg hmsg
      cases hmsg
    · intro _ _
      trivial

end HeightController

end MatrixNode
