import MatrixNode.GenProgress

/-! The blocks that a generating process inserts by itself. -/
namespace MatrixNode
open GoLib GenProcess

def GenEvent.isInsertNotify {Hash State Tx Receipt : Type} : GenEvent Hash State Tx Receipt → Bool
  | .blockInsert _ => true
  | _ => false

def GenEvent.bringsReadyBlock {Hash State Tx Receipt : Type} : GenEvent Hash State Tx Receipt → Bool
  | .broadcastMinerResult _ => true
  | .fullBlockRsp _ _ => true
  | _ => false

namespace GenProcess
variable {Hash State Tx Receipt : Type}

section Handlers
variable [DecidableEq Hash] {node : GenNode Hash Tx Receipt} {env : GenEnv Hash State Tx Receipt}
  {p q : GenProcess Hash State Tx Receipt}

/-- A broadcast block is inserted at once, any other block is verified first. -/
theorem startBlockInsert_continues {header : Header Hash}
    (h : p.startBlockInsert node env header = .ok q) :
    ∃ hashes, Continues { p with insertBlockHash := hashes } q := by
  have hsame : ∃ hashes, Continues { p with insertBlockHash := hashes } p :=
    ⟨p.insertBlockHash, .refl p⟩
  unfold startBlockInsert at h
  split_ifs at h
  · cases h
    exact hsame
  · split at h
    · cases h
    split at h
    · cases h
      exact hsame
    split_ifs at h
    · cases h
      exact hsame
    · cases h
      exact hsame
    · cases h
      exact ⟨_, insertNotified_continues node env p header⟩
  · obtain ⟨effects, hverify⟩ := verifyBlock_continues node env p header
    revert hverify h
    rcases p.verifyBlock node env header with ⟨r, err | ok⟩
    · rintro h rfl
      cases h
      exact ⟨p.insertBlockHash, effects, rfl⟩
    · rintro h rfl
      dsimp only at h
      split at h
      · cases h
        exact ⟨p.insertBlockHash, effects, rfl⟩
      · cases h
        obtain ⟨effects', hins⟩ :=
          insertNotified_continues node env { p with trace := p.trace ++ effects } header
        refine ⟨p.insertBlockHash ++ [node.blockHash header], effects ++ effects', hins.trans ?_⟩
        dsimp only
        rw [List.append_assoc]

variable [Zero Hash]

omit [Zero Hash] in
theorem requestFullBlock_silent (header : Header Hash) (target : Address) :
    Silent p (p.requestFullBlock node env header target) := by
  have hask (cache : GoMap Hash (ReuseMsg Hash)) (msg : FullBlockReqMsg Hash) :
      Silent p ({ p with fullBlockReqCache := cache }.record (.fullBlockReq msg target)) := by
    have hset : Silent p { p with fullBlockReqCache := cache } := ⟨rfl, rfl, rfl⟩
    exact hset.trans (silent_record rfl)
  unfold requestFullBlock
  dsimp only
  split
  · split_ifs
    · exact ⟨rfl, rfl, rfl⟩
    · exact hask _ _
  · exact hask _ _

omit [Zero Hash] in
theorem processFullBlockReq_silent (headerHash : Hash) (target : Address) :
    Silent p (p.processFullBlockReq env headerHash target) ∧
      (p.processFullBlockReq env headerHash target).state = p.state := by
  unfold processFullBlockReq
  split
  · exact ⟨⟨rfl, rfl, rfl⟩, rfl⟩
  · split_ifs
    · exact ⟨⟨rfl, rfl, rfl⟩, rfl⟩
    · exact ⟨silent_record rfl, rfl⟩

theorem startRunning_works {role : RoleType} (h : p.startRunning node env role = .ok q) : Works p q := by
  unfold startRunning at h
  dsimp only at h
  split_ifs at h
  · exact (startBcBlock_works h).of_eq rfl rfl rfl
  · exact (startBcBlock_works h).of_eq rfl rfl rfl

theorem setCurLeader_works {leader : Address} {consensusTurn : UInt32}
    (h : p.setCurLeader node env leader consensusTurn = .ok q) : Works p q := by
  unfold setCurLeader at h
  dsimp only at h
  split_ifs at h
  · cases h
    exact .refl p
  · cases h
    exact Silent.works ⟨rfl, rfl, rfl⟩
  · exact (startBcBlock_works h).of_eq rfl rfl rfl

omit [Zero Hash] in
theorem setNextLeader_works (leader : Address) : Works p (p.setNextLeader node env leader) := by
  unfold setNextLeader
  split_ifs
  · exact .refl p
  · exact processBlockInsert_works.of_eq rfl rfl rfl

theorem addMinerResult_works (minerResult : MiningRspMsg Hash) :
    Works p (p.addMinerResult node env minerResult) := by
  unfold addMinerResult
  split
  · exact .refl p
  · exact (processMinerResultVerify_works _ _).of_eq rfl rfl rfl

/-- An insertion ends in the end state, so that here there was none. -/
theorem processRecoveryMsg_works (header : Header Hash) (target : Address) :
    Works p (p.processRecoveryMsg node env header target) := by
  have htail (r : GenProcess Hash State Tx Receipt) (hworks : Works p r) :
      Works p (if r.state ≠ .done then r.requestFullBlock node env header target else r) := by
    split_ifs with hdone
    · have hreq : Silent r (r.requestFullBlock node env header target) := requestFullBlock_silent _ _
      constructor
      · left
        rw [hreq.announced]
        exact hworks.announced.resolve_right (fun hend => hdone hend.2)
      · intro hnil
        obtain ⟨hresults, hkept⟩ := hworks.kept hnil
        exact ⟨hreq.results.trans hresults, hkept.trans (.of_eq hreq.blockCache)⟩
    · exact hworks
  unfold processRecoveryMsg
  apply htail
  split
  · exact processMinerResultVerify_works _ _
  · exact (processMinerResultVerify_works _ _).of_eq rfl rfl rfl

omit [Zero Hash] [DecidableEq Hash] in
theorem announced_saveVerifiedBlock (block : BlockLocalVerifyOK Hash State Tx Receipt) :
    (p.saveVerifiedBlock block).announced = p.announced ∧
      (p.saveVerifiedBlock block).state = p.state := by
  unfold saveVerifiedBlock
  split_ifs <;> exact ⟨rfl, rfl⟩

omit [Zero Hash] [DecidableEq Hash] in
/-- The block goes to a leader that had none. -/
theorem saveVerifiedBlock_kept (block : BlockLocalVerifyOK Hash State Tx Receipt) :
    (p.saveVerifiedBlock block).broadcastRstCache = p.broadcastRstCache ∧
      HashesKept p (p.saveVerifiedBlock block) := by
  unfold saveVerifiedBlock
  split_ifs with hold
  · exact ⟨rfl, .of_eq rfl⟩
  · refine ⟨rfl, ?_⟩
    intro leader data hdata
    have hne : leader ≠ block.header.leader := by
      rintro rfl
      exact hold (Finmap.mem_of_lookup_eq_some hdata)
    exact ⟨data, (Finmap.lookup_insert_of_ne _ hne).trans hdata, rfl⟩

theorem addConsensusBlock_works (block : BlockLocalVerifyOK Hash State Tx Receipt) :
    Works p (p.addConsensusBlock node env block) := by
  obtain ⟨hresults, hkept⟩ := saveVerifiedBlock_kept (p := p) block
  exact .of_kept (announced_saveVerifiedBlock block).1 (fun hnil => ⟨hresults.trans hnil, hkept⟩)
    (processMinerResultVerify_works _ _)

variable {event : GenEvent Hash State Tx Receipt}

theorem handle_works (hown : event.isInsertNotify = false) (hnew : event.bringsReadyBlock = false)
    (h : p.handle node env event = .ok q) : Works p q := by
  cases event with
  | startRunning role => exact startRunning_works h
  | close =>
    cases h
    exact Silent.works ⟨rfl, rfl, rfl⟩
  | reInit =>
    cases h
    unfold reInit
    split_ifs
    · exact .refl p
    · exact Silent.works ⟨rfl, rfl, rfl⟩
  | reInitNextLeader =>
    cases h
    exact Silent.works ⟨rfl, rfl, rfl⟩
  | setCurLeader leader consensusTurn => exact setCurLeader_works h
  | setNextLeader leader =>
    cases h
    exact setNextLeader_works leader
  | blockInsert header => cases hown
  | minerResult result =>
    cases h
    exact addMinerResult_works result
  | consensusBlock block =>
    cases h
    exact addConsensusBlock_works block
  | broadcastMinerResult result => cases hnew
  | recovery msg =>
    dsimp only [handle] at h
    split_ifs at h
    · cases h
      exact .refl p
    · cases h
      exact processRecoveryMsg_works _ _
  | fullBlockReq req target =>
    cases h
    exact (processFullBlockReq_silent _ _).1.works
  | fullBlockRsp header txs => cases hnew

/-- A block that is refused leads to no insertion. -/
theorem handle_announced (hown : event.isInsertNotify = false)
    (h : p.handle node env event = .ok q) :
    q.announced = p.announced ∨ (q.announced = p.announced+1 ∧ q.state = .done) := by
  cases event with
  | broadcastMinerResult result =>
    cases h
    unfold addBroadcastMinerResult
    split_ifs
    · exact .inl rfl
    · exact (processMinerResultVerify_works (p := { p with
        broadcastRstCache := p.broadcastRstCache ++ [result] }) _ _).announced
  | fullBlockRsp header txs =>
    cases h
    by_cases haccepts : AcceptsFullBlock node env p header txs
    · obtain ⟨⟨receipts,stateDB⟩, hrun⟩ := haccepts.executed
      rw [haccepts.processFullBlockRsp_eq hrun]
      have hsame : ((p.record (.dposVerified header)).saveReadyBlock
          ⟨header, 0, txs, receipts, some stateDB⟩).announced = p.announced :=
        (silent_record rfl).announced
      rw [← hsame]
      exact (blockReady_works header).announced
    · exact .inl (processFullBlockRsp_of_not_accepts haccepts).1.announced
  | _ => exact (handle_works hown rfl h).announced

theorem state_handle_of_insertNotify
    (hnotify : event.isInsertNotify = true) (h : p.handle node env event = .ok q) :
    q.state = p.state := by
  cases event with
  | blockInsert header =>
    obtain ⟨hashes, effects, rfl⟩ := startBlockInsert_continues h
    rfl
  | _ => cases hnotify

def Resting (p : GenProcess Hash State Tx Receipt) : Prop := p.state = .done ∨ p.state = .idle

/-- The message neither restarts a process that rests nor makes it insert. -/
def StaysQuiet (node : GenNode Hash Tx Receipt) (env : GenEnv Hash State Tx Receipt)
    (p : GenProcess Hash State Tx Receipt) : GenEvent Hash State Tx Receipt → Prop
  | .startRunning _ => p.state ≠ .idle
  | .reInit => p.state = .idle
  | .setCurLeader leader consensusTurn =>
    p.state = .idle ∨ (p.curLeader = leader ∧ p.consensusTurn = consensusTurn)
  | .setNextLeader leader =>
    p.state = .idle ∨ p.nextLeader = leader ∨ ¬ Inserts node { p with nextLeader := leader }
  | .recovery msg => msg.type ≠ .fullHeader
  | .fullBlockRsp header txs => ¬ AcceptsFullBlock node env p header txs
  | _ => True

omit [Zero Hash] [DecidableEq Hash] in
theorem Resting.ne_minerResultVerify (h : p.Resting) : p.state ≠ .minerResultVerify := by
  rcases h with h | h
  · rw [h]
    decide
  · rw [h]
    decide

omit [Zero Hash] [DecidableEq Hash] in
theorem Resting.ne_blockBroadcast (h : p.Resting) : p.state ≠ .blockBroadcast := by
  rcases h with h | h
  · rw [h]
    decide
  · rw [h]
    decide

omit [Zero Hash] in
theorem processBlockInsert_of_idle (h : p.state = .idle) : p.processBlockInsert node env = p := by
  rw [processBlockInsert_eq, if_neg]
  rintro ⟨hstate, -⟩
  rw [h] at hstate
  simp at hstate

/-- Nearly all messages leave the state and the announcements as they are. -/
theorem Resting.handle (hrest : p.Resting)
    (hquiet : p.StaysQuiet node env event) (h : p.handle node env event = .ok q) :
    q.Resting ∧ (event.isInsertNotify = false → q.announced = p.announced) := by
  have hsame (q : GenProcess Hash State Tx Receipt) (hstate : q.state = p.state)
      (hann : q.announced = p.announced) :
      q.Resting ∧ (event.isInsertNotify = false → q.announced = p.announced) := by
    unfold Resting
    rw [hstate]
    exact ⟨hrest, fun _ => hann⟩
  cases event with
  | startRunning role =>
    have hnot : ¬ p.state = .idle := hquiet
    dsimp only [GenProcess.handle, startRunning] at h
    rw [if_neg hnot, startBcBlock_of_state] at h
    · cases h
      exact hsame _ rfl rfl
    · exact hrest.ne_blockBroadcast
  | close =>
    cases h
    exact ⟨.inr rfl, fun _ => rfl⟩
  | reInit =>
    have hidle : p.state = .idle := hquiet
    cases h
    rw [reInit, if_pos hidle]
    exact hsame p rfl rfl
  | reInitNextLeader =>
    cases h
    exact hsame _ rfl rfl
  | setCurLeader leader consensusTurn =>
    dsimp only [GenProcess.handle, setCurLeader] at h
    rcases hquiet with hidle | hleader
    · split_ifs at h
      · cases h
        exact hsame _ rfl rfl
      · cases h
        exact hsame _ rfl rfl
    · rw [if_pos hleader] at h
      cases h
      exact hsame _ rfl rfl
  | setNextLeader leader =>
    cases h
    unfold setNextLeader
    split_ifs with hnext
    · exact hsame p rfl rfl
    · rcases hquiet with hidle | hleader | hnot
      · rw [processBlockInsert_of_idle]
        · exact hsame _ rfl rfl
        · exact hidle
      · exact absurd hleader hnext
      · rw [processBlockInsert_of_not_inserts hnot]
        exact hsame _ rfl rfl
  | blockInsert header =>
    obtain ⟨hashes, effects, rfl⟩ := startBlockInsert_continues h
    refine ⟨hrest, ?_⟩
    intro hnotify
    cases hnotify
  | minerResult result =>
    cases h
    unfold addMinerResult
    split
    · exact hsame p rfl rfl
    · rw [processMinerResultVerify_of_state]
      · exact hsame _ rfl rfl
      · exact hrest.ne_minerResultVerify
  | consensusBlock block =>
    cases h
    obtain ⟨hann, hstate⟩ := announced_saveVerifiedBlock (p := p) block
    have hwait : (p.saveVerifiedBlock block).state ≠ .minerResultVerify := by
      rw [hstate]
      exact hrest.ne_minerResultVerify
    rw [addConsensusBlock, processMinerResultVerify_of_state _ hwait]
    exact hsame _ hstate hann
  | broadcastMinerResult result =>
    cases h
    unfold addBroadcastMinerResult
    split_ifs
    · exact hsame p rfl rfl
    · rw [processMinerResultVerify_of_state]
      · exact hsame _ rfl rfl
      · exact hrest.ne_minerResultVerify
  | recovery msg =>
    have htype : msg.type ≠ .fullHeader := hquiet
    dsimp only [GenProcess.handle] at h
    rw [if_pos htype] at h
    cases h
    exact hsame p rfl rfl
  | fullBlockReq req target =>
    cases h
    obtain ⟨hsilent, hstate⟩ := processFullBlockReq_silent (p := p) req.headerHash target
    exact hsame _ hstate hsilent.announced
  | fullBlockRsp header txs =>
    cases h
    have hrsp := processFullBlockRsp_of_not_accepts hquiet
    exact hsame _ hrsp.2 hrsp.1.announced

end Handlers

end GenProcess

structure OwnHistory (Hash State Tx Receipt : Type) where
  process : GenProcess Hash State Tx Receipt
  own : ℕ

section History
variable {Hash State Tx Receipt : Type} [Zero Hash] [DecidableEq Hash]

/-- What is announced for another node's insertion is not counted. -/
def ownStep (node : GenNode Hash Tx Receipt) (s : OwnHistory Hash State Tx Receipt)
    (input : GenEnv Hash State Tx Receipt × GenEvent Hash State Tx Receipt) :
    Except GoError (OwnHistory Hash State Tx Receipt) := do
  let q ← genStep node s.process input
  pure ⟨q, s.own + if input.2.isInsertNotify = true then 0 else q.announced-s.process.announced⟩

/-- After an announcement of its own the process is left alone. Messages of other heights do not come
to it. -/
def LeftAlone (node : GenNode Hash Tx Receipt) (s : OwnHistory Hash State Tx Receipt)
    (input : GenEnv Hash State Tx Receipt × GenEvent Hash State Tx Receipt) : Prop :=
  s.own = 0 ∨ (∃ number, input.2.height = some number ∧ number ≠ s.process.number) ∨
    s.process.StaysQuiet node input.1 input.2

def OwnHistory.new (Hash State Tx Receipt : Type) [Zero Hash] (number : ℕ) :
    OwnHistory Hash State Tx Receipt := ⟨newGenProcess number, 0⟩

def OwnHistory.Once (s : OwnHistory Hash State Tx Receipt) : Prop :=
  s.own = 0 ∨ (s.own = 1 ∧ s.process.Resting)

variable {node : GenNode Hash Tx Receipt} {s s' : OwnHistory Hash State Tx Receipt}
  {input : GenEnv Hash State Tx Receipt × GenEvent Hash State Tx Receipt}

theorem genStep_cases {p q : GenProcess Hash State Tx Receipt} (h : genStep node p input = .ok q) :
    ((∃ number, input.2.height = some number ∧ number ≠ p.number) ∧ q = p) ∨
    ((∀ number, input.2.height = some number → number = p.number) ∧
      p.handle node input.1 input.2 = .ok q) := by
  unfold genStep at h
  rcases hheight : input.2.height with _ | number
  · rw [hheight] at h
    exact .inr ⟨nofun, h⟩
  · rw [hheight] at h
    dsimp only at h
    split_ifs at h with hnumber
    · cases h
      exact .inl ⟨⟨number, rfl, hnumber⟩, rfl⟩
    · refine .inr ⟨?_, h⟩
      intro number' heq
      cases heq
      exact not_not.mp hnumber

theorem OwnHistory.Once.step (h : s.Once) (halone : LeftAlone node s input)
    (hstep : ownStep node s input = .ok s') : s'.Once := by
  obtain ⟨q, hgen, heq⟩ := bind_eq_ok_iff.mp hstep
  cases heq
  rcases genStep_cases hgen with ⟨-, rfl⟩ | ⟨hheight, hhandle⟩
  · simpa [OwnHistory.Once] using h
  rcases hnotify : input.2.isInsertNotify with _ | _
  · rw [if_neg Bool.false_ne_true]
    rcases h with hnone | ⟨hone, hrest⟩
    · rcases handle_announced hnotify hhandle with hsame | ⟨hmore, hdone⟩
      · left
        dsimp only
        omega
      · right
        refine ⟨?_, .inl hdone⟩
        dsimp only
        omega
    · have hquiet : s.process.StaysQuiet node input.1 input.2 := by
        rcases halone with hzero | ⟨number, hnumber, hother⟩ | hquiet
        · omega
        · exact absurd (hheight number hnumber) hother
        · exact hquiet
      obtain ⟨hrest', hsame⟩ := hrest.handle hquiet hhandle
      right
      refine ⟨?_, hrest'⟩
      have hann := hsame hnotify
      dsimp only
      omega
  · rcases h with hnone | ⟨hone, hrest⟩
    · exact .inl hnone
    · right
      refine ⟨hone, ?_⟩
      unfold Resting
      rw [state_handle_of_insertNotify hnotify hhandle]
      exact hrest

/-- A process that is left alone after its first own announcement has announced at most one own block,
whatever messages come in whatever order. -/
theorem announces_once_of_leftAlone {node : GenNode Hash Tx Receipt} {number : ℕ}
    {inputs : List (GenEnv Hash State Tx Receipt × GenEvent Hash State Tx Receipt)}
    {s : OwnHistory Hash State Tx Receipt}
    (halone : EachBefore (ownStep node) (LeftAlone node) (.new Hash State Tx Receipt number) inputs)
    (hrun : run (ownStep node) (.new Hash State Tx Receipt number) inputs = .ok s) : s.own ≤ 1 := by
  have honce : s.Once :=
    run_preserves_of_eachBefore (fun s input s' h hbefore hstep => h.step hbefore hstep) (.inl rfl)
      halone hrun
  rcases honce with hnone | ⟨hone, -⟩
  · omega
  · omega

end History

section Sample
open GenProcess

def twoTxInserted : GenProcess ℕ ℕ ℕ ℕ :=
  { twoTxWaiting with
    state := .done
    blockCache := (∅ : GoMap Address (BlockCacheData ℕ ℕ ℕ ℕ)).insert 1
      ⟨⟨twoTxHeader, 0, [1,2], [1,2], some 8⟩, .ready⟩
    trace := [.blockInsertNotify twoTxHeader, .dposVerified twoTxHeader, .newBlockReady twoTxHeader,
      .writeBlock (twoTxNode.hashing.newBlockWithTxs twoTxHeader [1,2]),
      .chainEvent (twoTxNode.hashing.newBlockWithTxs twoTxHeader [1,2]) true, .headerGenerateReq 3] }

theorem twoTxWaiting_inserts :
    twoTxWaiting.processFullBlockRsp twoTxNode twoTxEnv twoTxHeader [1,2] = twoTxInserted := by
  rw [(twoTxWaiting_accepts (.inl rfl)).processFullBlockRsp_eq (twoTxHeader_runTxs _ (.inl rfl)), blockReady,
    processBlockInsert_eq, if_pos ⟨.inl rfl, by decide⟩]
  rfl

theorem twoTxWaiting_ownStep :
    ownStep twoTxNode ⟨twoTxWaiting, 0⟩ (twoTxEnv,.fullBlockRsp twoTxHeader [1,2]) =
      .ok ⟨twoTxInserted, 1⟩ := by
  have hstep : ownStep twoTxNode ⟨twoTxWaiting, 0⟩ (twoTxEnv,.fullBlockRsp twoTxHeader [1,2]) =
      .ok ⟨twoTxWaiting.processFullBlockRsp twoTxNode twoTxEnv twoTxHeader [1,2],
        0+((twoTxWaiting.processFullBlockRsp twoTxNode twoTxEnv twoTxHeader [1,2]).announced-0)⟩ := rfl
  rw [hstep, twoTxWaiting_inserts]
  rfl

theorem twoTxRun_own : run (ownStep twoTxNode) (.new ℕ ℕ ℕ ℕ 2) (twoTxRun [1,2]) =
    .ok ⟨twoTxInserted, 1⟩ := by
  have hlast : run (ownStep twoTxNode) (.new ℕ ℕ ℕ ℕ 2) (twoTxRun [1,2]) =
      ownStep twoTxNode ⟨twoTxWaiting, 0⟩ (twoTxEnv,.fullBlockRsp twoTxHeader [1,2]) >>= pure := rfl
  rw [hlast, twoTxWaiting_ownStep]
  rfl

noncomputable def leaderReturns : List (GenEnv ℕ ℕ ℕ ℕ × GenEvent ℕ ℕ ℕ ℕ) :=
  [(twoTxEnv,.setNextLeader 3), (twoTxEnv,.setNextLeader 2)]

/-- Node 2 inserts and announces its block twice. -/
theorem own_block_twice : ∃ s, run (ownStep twoTxNode) (.new ℕ ℕ ℕ ℕ 2)
    (twoTxRun [1,2] ++ leaderReturns) = .ok s ∧ s.own = 2 := by
  have hstep (s : OwnHistory ℕ ℕ ℕ ℕ) (leader : Address) :
      ownStep twoTxNode s (twoTxEnv,.setNextLeader leader) =
        .ok ⟨s.process.setNextLeader twoTxNode twoTxEnv leader,
          s.own+((s.process.setNextLeader twoTxNode twoTxEnv leader).announced-s.process.announced)⟩ := rfl
  have hother : twoTxInserted.setNextLeader twoTxNode twoTxEnv 3 =
      { twoTxInserted with nextLeader := 3 } := by
    rw [setNextLeader, if_neg (by decide), processBlockInsert_of_not_inserts]
    decide
  have hagain : ({ twoTxInserted with nextLeader := 3 }.setNextLeader twoTxNode twoTxEnv 2).announced =
      2 := by
    rfl
  refine ⟨⟨{ twoTxInserted with nextLeader := 3 }.setNextLeader twoTxNode twoTxEnv 2, 2⟩, ?_, rfl⟩
  rw [run_append, twoTxRun_own, ok_bind, leaderReturns, run_cons, hstep, hother, ok_bind, run_cons, hstep,
    hagain]
  rfl

/-- If node 3 stays the next leader, and the process is closed, its block is announced once. -/
theorem announces_once_of_leftAlone_other_leader :
    ∃ s, run (ownStep twoTxNode) (.new ℕ ℕ ℕ ℕ 2)
      (twoTxRun [1,2] ++ [(twoTxEnv,.setNextLeader 3), (twoTxEnv,.close)]) = .ok s ∧ s.own ≤ 1 := by
  have halone : EachBefore (ownStep twoTxNode) (LeftAlone twoTxNode) (.new ℕ ℕ ℕ ℕ 2)
      (twoTxRun [1,2] ++ [(twoTxEnv,.setNextLeader 3), (twoTxEnv,.close)]) := by
    refine ⟨.inl rfl, ?_⟩
    rintro _ ⟨⟩
    refine ⟨.inl rfl, ?_⟩
    rintro _ ⟨⟩
    refine ⟨.inl rfl, ?_⟩
    rintro _ ⟨⟩
    refine ⟨.inl rfl, ?_⟩
    intro s hs
    obtain rfl : s = ⟨twoTxInserted, 1⟩ := Except.ok.inj (hs.symm.trans twoTxWaiting_ownStep)
    refine ⟨.inr (.inr (.inr (.inr (by decide)))), ?_⟩
    intro s _
    exact ⟨.inr (.inr trivial), fun _ _ => trivial⟩
  obtain ⟨s, hrun⟩ : ∃ s, run (ownStep twoTxNode) (.new ℕ ℕ ℕ ℕ 2)
      (twoTxRun [1,2] ++ [(twoTxEnv,.setNextLeader 3), (twoTxEnv,.close)]) = .ok s :=
    ⟨_, rfl⟩
  exact ⟨s, hrun, announces_once_of_leftAlone halone hrun⟩

end Sample

end MatrixNode
