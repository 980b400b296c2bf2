import MatrixNode.OwnBlocks

/-! `blockgenor/blockCache.go`: the blocks of a height, one for each leader. -/
namespace MatrixNode
open GoLib List

namespace GenProcess
variable {Hash State Tx Receipt : Type}

def getBlockData (p : GenProcess Hash State Tx Receipt) (leader : Address) :
    Option (BlockCacheData Hash State Tx Receipt) :=
  p.blockCache.lookup leader

section ByHash
variable [DecidableEq Hash] {env : GenEnv Hash State Tx Receipt} {p : GenProcess Hash State Tx Receipt}
  {hash : Hash}

theorem getBlockDataByBlockHash_mem {data : BlockCacheData Hash State Tx Receipt}
    (h : p.getBlockDataByBlockHash env hash = some data) :
    ∃ leader, p.blockCache.lookup leader = some data ∧ data.block.blockHash = hash := by
  obtain ⟨⟨leader,found⟩, hfind, rfl⟩ := Option.map_eq_some_iff.mp h
  have hmem := mem_of_find?_eq_some hfind
  have hhash := find?_some hfind
  exact ⟨leader, ((env.cacheOrder.isRange _).mem_iff _ _).mp hmem, of_decide_eq_true hhash⟩

theorem getBlockDataByBlockHash_eq_none_iff :
    p.getBlockDataByBlockHash env hash = none ↔
      ∀ leader data, p.blockCache.lookup leader = some data → data.block.blockHash ≠ hash := by
  unfold getBlockDataByBlockHash
  rw [Option.map_eq_none_iff, find?_eq_none]
  constructor
  · intro h leader data hdata heq
    have hmem := ((env.cacheOrder.isRange p.blockCache).mem_iff leader data).mpr hdata
    exact h _ hmem (decide_eq_true heq)
  · rintro h ⟨leader,data⟩ hmem heq
    have hdata := ((env.cacheOrder.isRange p.blockCache).mem_iff leader data).mp hmem
    exact h leader data hdata (of_decide_eq_true heq)

end ByHash

section FullBlock
variable [Zero Hash] [DecidableEq Hash] {node : GenNode Hash Tx Receipt}
  {env : GenEnv Hash State Tx Receipt} {p : GenProcess Hash State Tx Receipt} {header : Header Hash}
  {txs : List Tx}

/-- The block can be found by its hash, it is sent to whoever asks for it, and to get it once more
changes nothing. -/
structure KeepsFullBlock (node : GenNode Hash Tx Receipt) (p : GenProcess Hash State Tx Receipt)
    (header : Header Hash) (txs : List Tx) : Prop where
  found : ∀ env, ∃ data, p.getBlockDataByBlockHash env (node.engine.hashNoSignsAndNonce header) =
    some data ∧ data.block.header = header ∧ data.block.txs = txs
  answered : ∀ env target, p.processFullBlockReq env (node.engine.hashNoSignsAndNonce header) target =
    p.record (.fullBlockRsp header txs target)
  again : ∀ env, p.processFullBlockRsp node env header txs = p

theorem AcceptsFullBlock.blockCache (h : AcceptsFullBlock node env p header txs) :
    ∃ receipts stateDB, (p.processFullBlockRsp node env header txs).blockCache =
      p.blockCache.insert header.leader ⟨⟨header, 0, txs, receipts, some stateDB⟩, .ready⟩ := by
  obtain ⟨⟨receipts,stateDB⟩, hrun⟩ := h.executed
  refine ⟨receipts, stateDB, ?_⟩
  rw [h.processFullBlockRsp_eq hrun, blockReady, blockCache_processBlockInsert]
  rfl

/-- A block that was there before would have been found before. -/
theorem AcceptsFullBlock.of_found (h : AcceptsFullBlock node env p header txs)
    {env' : GenEnv Hash State Tx Receipt} {data : BlockCacheData Hash State Tx Receipt}
    (hfound : (p.processFullBlockRsp node env header txs).getBlockDataByBlockHash env'
      (node.engine.hashNoSignsAndNonce header) = some data) :
    node.engine.hashNoSignsAndNonce header = 0 ∧ data.block.header = header ∧ data.block.txs = txs ∧
      data.state = .ready := by
  obtain ⟨receipts, stateDB, hcache⟩ := h.blockCache
  obtain ⟨leader, hdata, hhash⟩ := getBlockDataByBlockHash_mem hfound
  rw [hcache] at hdata
  rcases GoMap.lookup_insert_cases hdata with ⟨-, rfl⟩ | ⟨-, hold⟩
  · exact ⟨hhash.symm, rfl, rfl, rfl⟩
  · exact absurd hhash (getBlockDataByBlockHash_eq_none_iff.mp h.unknown leader data hold)

/-- A full block that is taken can be found, sent on and recognised exactly if its hash is zero. -/
theorem keepsFullBlock_iff (h : AcceptsFullBlock node env p header txs) :
    KeepsFullBlock node (p.processFullBlockRsp node env header txs) header txs ↔
      node.engine.hashNoSignsAndNonce header = 0 := by
  constructor
  · intro hkeeps
    obtain ⟨data, hfound, -⟩ := hkeeps.found env
    exact (h.of_found hfound).1
  · intro hzero
    have hfound (env' : GenEnv Hash State Tx Receipt) :
        ∃ data, (p.processFullBlockRsp node env header txs).getBlockDataByBlockHash env'
          (node.engine.hashNoSignsAndNonce header) = some data := by
      obtain ⟨receipts, stateDB, hcache⟩ := h.blockCache
      apply Option.ne_none_iff_exists'.mp
      intro hnone
      refine getBlockDataByBlockHash_eq_none_iff.mp hnone header.leader
        ⟨⟨header, 0, txs, receipts, some stateDB⟩, .ready⟩ ?_ hzero.symm
      rw [hcache]
      exact Finmap.lookup_insert _
    constructor
    · intro env'
      obtain ⟨data, hdata⟩ := hfound env'
      obtain ⟨-, hheader, htxs, -⟩ := h.of_found hdata
      exact ⟨data, hdata, hheader, htxs⟩
    · intro env' target
      obtain ⟨data, hdata⟩ := hfound env'
      obtain ⟨-, hheader, htxs, hready⟩ := h.of_found hdata
      rw [processFullBlockReq, hdata]
      dsimp only
      rw [if_neg (not_not.mpr hready), hheader, htxs]
    · intro env'
      obtain ⟨data, hdata⟩ := hfound env'
      generalize p.processFullBlockRsp node env header txs = q at hdata ⊢
      have hknown : (q.getBlockDataByBlockHash env'
          (node.engine.hashNoSignsAndNonce header)).isSome = true := by
        rw [hdata]
        rfl
      exact if_pos hknown

end FullBlock

end GenProcess

section FullBlockSample
open GenProcess

def zeroHashNode : GenNode ℕ ℕ ℕ :=
  { twoTxNode with
    engine := {
      headerHash := fun _ => 0
      recover := fun _ sign => some (sign.setWidth 160, true)
      broadCastNodes := [100] } }

theorem zeroHashNode_accepts : AcceptsFullBlock zeroHashNode twoTxEnv twoTxWaiting twoTxHeader [1,2] where
  unknown := getBlockDataByBlockHash_empty rfl _
  sealed := rfl
  agreed := by
    rw [DposEngine.verifyBlock_eq_ok_iff (by decide)]
    refine ⟨DposEngine.graph2ValidatorStocks twoTxGraph, rfl, by decide +kernel,
      Finset.filter_subset _ _, ?_⟩
    decide +kernel
  executed := ⟨_, twoTxHeader_runTxs _ (.inl rfl)⟩

theorem keepsFullBlock_iff_zero_hash : KeepsFullBlock zeroHashNode
    (twoTxWaiting.processFullBlockRsp zeroHashNode twoTxEnv twoTxHeader [1,2]) twoTxHeader [1,2] :=
  (keepsFullBlock_iff zeroHashNode_accepts).mpr rfl

/-- The block that node 2 has taken and inserted is not found under its hash 1, a request for it is not
answered, and if it comes again it is inserted again. -/
theorem full_block_not_found :
    AcceptsFullBlock twoTxNode twoTxEnv twoTxWaiting twoTxHeader [1,2] ∧
    twoTxWaiting.processFullBlockRsp twoTxNode twoTxEnv twoTxHeader [1,2] = twoTxInserted ∧
    twoTxInserted.getBlockDataByBlockHash twoTxEnv (twoTxNode.engine.hashNoSignsAndNonce twoTxHeader) =
      none ∧
    twoTxInserted.processFullBlockReq twoTxEnv (twoTxNode.engine.hashNoSignsAndNonce twoTxHeader) 3 =
      twoTxInserted ∧
    twoTxInserted.processFullBlockRsp twoTxNode twoTxEnv twoTxHeader [1,2] ≠ twoTxInserted := by
  have hone : twoTxNode.engine.hashNoSignsAndNonce twoTxHeader = 1 := by decide +kernel
  have hnone : twoTxInserted.getBlockDataByBlockHash twoTxEnv
      (twoTxNode.engine.hashNoSignsAndNonce twoTxHeader) = none := by
    apply getBlockDataByBlockHash_eq_none_iff.mpr
    intro leader data hdata
    rcases GoMap.lookup_insert_cases hdata with ⟨-, rfl⟩ | ⟨-, hold⟩
    · rw [hone]
      decide
    · cases hold
  refine ⟨twoTxWaiting_accepts (.inl rfl), twoTxWaiting_inserts, hnone, ?_, ?_⟩
  · rw [processFullBlockReq, hnone]
  · have haccepts : AcceptsFullBlock twoTxNode twoTxEnv twoTxInserted twoTxHeader [1,2] :=
      ⟨hnone, rfl, twoTxHeader_verified, _, twoTxHeader_runTxs _ (.inl rfl)⟩
    intro heq
    have hann := congrArg GenProcess.announced heq
    rw [haccepts.processFullBlockRsp_eq (twoTxHeader_runTxs _ (.inl rfl)), blockReady,
      processBlockInsert_eq, if_pos ⟨.inl rfl, by decide⟩] at hann
    exact absurd hann (by decide)

end FullBlockSample

/-! ### The block of a turn -/

structure TurnHistory (Hash State Tx Receipt : Type) where
  process : GenProcess Hash State Tx Receipt
  verified : List (UInt32 × BlockLocalVerifyOK Hash State Tx Receipt)

def GenEvent.verifiedBlock {Hash State Tx Receipt : Type} (number : ℕ) :
    GenEvent Hash State Tx Receipt → Option (BlockLocalVerifyOK Hash State Tx Receipt)
  | .consensusBlock block => if block.header.number = number then some block else none
  | _ => none

theorem GenEvent.verifiedBlock_eq_some_iff {Hash State Tx Receipt : Type} {number : ℕ}
    {event : GenEvent Hash State Tx Receipt} {block : BlockLocalVerifyOK Hash State Tx Receipt} :
    event.verifiedBlock number = some block ↔
      event = .consensusBlock block ∧ block.header.number = number := by
  cases event with
  | consensusBlock b =>
    show (if b.header.number = number then some b else none) = some block ↔ _
    split_ifs with hnumber
    · constructor
      · intro heq
        cases heq
        exact ⟨rfl, hnumber⟩
      · rintro ⟨heq, -⟩
        cases heq
        rfl
    · refine iff_of_false nofun ?_
      rintro ⟨heq, hnumber'⟩
      cases heq
      exact hnumber hnumber'
  | _ => exact iff_of_false nofun (fun h => nomatch h.1)

section Turns
variable {Hash State Tx Receipt : Type} [Zero Hash] [DecidableEq Hash]

/-- A message comes with the turn that its block was verified for, which the source does not send. -/
def turnStep (node : GenNode Hash Tx Receipt) (s : TurnHistory Hash State Tx Receipt)
    (input : GenEnv Hash State Tx Receipt × GenEvent Hash State Tx Receipt × UInt32) :
    Except GoError (TurnHistory Hash State Tx Receipt) := do
  let q ← genStep node s.process (input.1,input.2.1)
  pure ⟨q, s.verified ++
    (input.2.1.verifiedBlock s.process.number).toList.map (fun block => (input.2.2,block))⟩

omit [Zero Hash] [DecidableEq Hash] in
def ServesTurn (s : TurnHistory Hash State Tx Receipt) : Prop :=
  ∀ block, (s.process.consensusTurn,block) ∈ s.verified → block.header.leader = s.process.curLeader →
    ∃ data, s.process.getBlockData s.process.curLeader = some data ∧
      data.block.blockHash = block.blockHash

/-- A verified block does not come while the cache has another block of its leader. -/
def OneBlockEach (s : TurnHistory Hash State Tx Receipt)
    (input : GenEnv Hash State Tx Receipt × GenEvent Hash State Tx Receipt × UInt32) : Prop :=
  ∀ block, input.2.1.verifiedBlock s.process.number = some block →
    ∀ data, s.process.getBlockData block.header.leader = some data →
      data.block.blockHash = block.blockHash

structure HoldsVerified (s : TurnHistory Hash State Tx Receipt) : Prop where
  results : s.process.broadcastRstCache = []
  held : ∀ turn block, (turn,block) ∈ s.verified →
    ∃ data, s.process.blockCache.lookup block.header.leader = some data ∧
      data.block.blockHash = block.blockHash

namespace GenProcess
variable {node : GenNode Hash Tx Receipt} {env : GenEnv Hash State Tx Receipt}
  {p q : GenProcess Hash State Tx Receipt}

variable {block : BlockLocalVerifyOK Hash State Tx Receipt}

omit [Zero Hash] [DecidableEq Hash] in
/-- The first block of a leader is never replaced. -/
theorem lookup_saveVerifiedBlock
    (h : ∀ data, p.getBlockData block.header.leader = some data →
      data.block.blockHash = block.blockHash) :
    ∃ data, (p.saveVerifiedBlock block).blockCache.lookup block.header.leader = some data ∧
      data.block.blockHash = block.blockHash := by
  unfold saveVerifiedBlock
  split_ifs with hold
  · obtain ⟨data, hdata⟩ := Finmap.mem_iff.mp hold
    exact ⟨data, hdata, h data hdata⟩
  · exact ⟨_, Finmap.lookup_insert _, rfl⟩

theorem handle_kept {event : GenEvent Hash State Tx Receipt} (hnew : event.bringsReadyBlock = false)
    (hnil : p.broadcastRstCache = []) (h : p.handle node env event = .ok q) :
    q.broadcastRstCache = [] ∧ HashesKept p q := by
  cases event with
  | blockInsert header =>
    obtain ⟨hashes, effects, rfl⟩ := startBlockInsert_continues h
    exact ⟨hnil, .of_eq rfl⟩
  | _ => exact (handle_works rfl hnew h).kept hnil

theorem handle_verifiedBlock
    (hone : ∀ data, p.getBlockData block.header.leader = some data →
      data.block.blockHash = block.blockHash) (hnil : p.broadcastRstCache = [])
    (h : p.handle node env (.consensusBlock block) = .ok q) :
    ∃ data, q.blockCache.lookup block.header.leader = some data ∧
      data.block.blockHash = block.blockHash := by
  cases h
  obtain ⟨data, hdata, hhash⟩ := lookup_saveVerifiedBlock hone
  have hresults := (saveVerifiedBlock_kept (p := p) block).1
  have hworks : Works (p.saveVerifiedBlock block) (p.addConsensusBlock node env block) :=
    processMinerResultVerify_works _ _
  obtain ⟨data', hdata', hhash'⟩ := (hworks.kept (hresults.trans hnil)).2 _ data hdata
  exact ⟨data', hdata', hhash'.trans hhash⟩

end GenProcess

variable {node : GenNode Hash Tx Receipt} {s s' : TurnHistory Hash State Tx Receipt}
  {input : GenEnv Hash State Tx Receipt × GenEvent Hash State Tx Receipt × UInt32}

omit [Zero Hash] [DecidableEq Hash] in
theorem oneBlockEach_of_none (h : input.2.1.verifiedBlock s.process.number = none) :
    OneBlockEach s input := by
  intro block hblock
  rw [h] at hblock
  cases hblock

omit [Zero Hash] [DecidableEq Hash] in
theorem HoldsVerified.servesTurn (h : HoldsVerified s) : ServesTurn s := by
  intro block hblock hleader
  obtain ⟨data, hdata, hhash⟩ := h.held _ block hblock
  rw [hleader] at hdata
  exact ⟨data, hdata, hhash⟩

/-- Blocks that were verified before keep their hash; the new one is in its place. -/
theorem HoldsVerified.step (h : HoldsVerified s) (hnew : input.2.1.bringsReadyBlock = false)
    (hone : OneBlockEach s input) (hstep : turnStep node s input = .ok s') : HoldsVerified s' := by
  obtain ⟨q, hgen, heq⟩ := bind_eq_ok_iff.mp hstep
  cases heq
  obtain ⟨env, event, turn⟩ := input
  rcases genStep_cases hgen with ⟨⟨number, hheight, hother⟩, rfl⟩ | ⟨hheight, hhandle⟩
  · have hnone : event.verifiedBlock s.process.number = none := by
      apply Option.eq_none_iff_forall_ne_some.mpr
      intro block hblock
      obtain ⟨rfl, hnumber⟩ := GenEvent.verifiedBlock_eq_some_iff.mp hblock
      cases hheight
      exact hother hnumber
    rw [hnone, Option.toList_none, map_nil, append_nil]
    exact h
  obtain ⟨hresults, hkept⟩ := GenProcess.handle_kept hnew h.results hhandle
  refine ⟨hresults, ?_⟩
  intro turn' block hmem
  rcases mem_append.mp hmem with hold | hadded
  · obtain ⟨data, hdata, hhash⟩ := h.held turn' block hold
    obtain ⟨data', hdata', hhash'⟩ := hkept _ data hdata
    exact ⟨data', hdata', hhash'.trans hhash⟩
  · obtain ⟨new, hin, hpair⟩ := mem_map.mp hadded
    cases hpair
    have hblock := Option.mem_toList.mp hin
    obtain ⟨rfl, -⟩ := GenEvent.verifiedBlock_eq_some_iff.mp hblock
    exact GenProcess.handle_verifiedBlock (hone block hblock) h.results hhandle

/-- If no block comes while the cache has another one of its leader, the block of the current leader
is the one that was verified for the current turn. -/
theorem servesTurn_of_oneBlockEach {number : ℕ}
    {inputs : List (GenEnv Hash State Tx Receipt × GenEvent Hash State Tx Receipt × UInt32)}
    (hnew : ∀ input ∈ inputs, input.2.1.bringsReadyBlock = false)
    (hone : EachBefore (turnStep node) OneBlockEach ⟨newGenProcess number, []⟩ inputs)
    (hrun : run (turnStep node) ⟨newGenProcess number, []⟩ inputs = .ok s) : ServesTurn s := by
  have hstart : HoldsVerified (⟨newGenProcess number, []⟩ : TurnHistory Hash State Tx Receipt) :=
    ⟨rfl, fun _ _ hmem => absurd hmem not_mem_nil⟩
  have hend : HoldsVerified s :=
    run_preserves_of_eachBefore (fun s input s' h hboth hstep => h.step hboth.2 hboth.1 hstep) hstart
      (hone.and (eachBefore_of_forall hnew _)) hrun
  exact hend.servesTurn

end Turns

section TurnSample

def turnBlock (leader : Address) (hash : ℕ) : BlockLocalVerifyOK ℕ ℕ ℕ ℕ :=
  ⟨{ twoTxHeader with leader := leader }, hash, [], [], none⟩

noncomputable def rotation (last : GenEvent ℕ ℕ ℕ ℕ) :
    List (GenEnv ℕ ℕ ℕ ℕ × GenEvent ℕ ℕ ℕ ℕ × UInt32) :=
  [(.startRunning .validator,0), (.setCurLeader 1 0,0), (.consensusBlock (turnBlock 1 10),0),
    (.setCurLeader 3 1,0), (.consensusBlock (turnBlock 3 30),1), (.setCurLeader 1 2,0), (last,2)].map
    fun input => (twoTxEnv,input)

def rotated (block : BlockLocalVerifyOK ℕ ℕ ℕ ℕ) : TurnHistory ℕ ℕ ℕ ℕ where
  process := { (newGenProcess 2 : GenProcess ℕ ℕ ℕ ℕ) with
    curLeader := 1, consensusTurn := 2, role := .validator, state := .minerResultVerify
    blockCache := ((∅ : GoMap Address (BlockCacheData ℕ ℕ ℕ ℕ)).insert 1
      ⟨turnBlock 1 10, .localVerified⟩).insert 3 ⟨turnBlock 3 30, .localVerified⟩
    trace := replicate 3 (.blockInsertNotify twoTxHeader) }
  verified := [(0,turnBlock 1 10), (1,turnBlock 3 30), (2,block)]

/-- In turn 2 the block of leader 1 is still its proposal of turn 0. -/
theorem old_proposal_served :
    run (turnStep twoTxNode) ⟨newGenProcess 2, []⟩ (rotation (.consensusBlock (turnBlock 1 20))) =
      .ok (rotated (turnBlock 1 20)) ∧
    (rotated (turnBlock 1 20)).process.getBlockData 1 = some ⟨turnBlock 1 10, .localVerified⟩ ∧
    ¬ ServesTurn (rotated (turnBlock 1 20)) := by
  have hold : (rotated (turnBlock 1 20)).process.getBlockData 1 =
      some ⟨turnBlock 1 10, .localVerified⟩ := rfl
  refine ⟨rfl, hold, ?_⟩
  intro hserves
  have hlast : ((2 : UInt32),turnBlock 1 20) ∈ (rotated (turnBlock 1 20)).verified :=
    mem_cons_of_mem _ (mem_cons_of_mem _ mem_cons_self)
  obtain ⟨data, hdata, hhash⟩ := hserves (turnBlock 1 20) hlast rfl
  have hsame := hold.symm.trans hdata
  cases hsame
  exact absurd hhash (by decide)

/-- If leader 1 has its first block verified again, that is the block of turn 2 as well. -/
theorem servesTurn_of_oneBlockEach_rotated :
    run (turnStep twoTxNode) ⟨newGenProcess 2, []⟩ (rotation (.consensusBlock (turnBlock 1 10))) =
      .ok (rotated (turnBlock 1 10)) ∧ ServesTurn (rotated (turnBlock 1 10)) := by
  have hrun : run (turnStep twoTxNode) ⟨newGenProcess 2, []⟩
      (rotation (.consensusBlock (turnBlock 1 10))) = .ok (rotated (turnBlock 1 10)) := rfl
  refine ⟨hrun, servesTurn_of_oneBlockEach ?_ ?_ hrun⟩
  · simp [rotation, GenEvent.bringsReadyBlock]
  · refine ⟨oneBlockEach_of_none rfl, ?_⟩
    rintro _ ⟨⟩
    refine ⟨oneBlockEach_of_none rfl, ?_⟩
    rintro _ ⟨⟩
    refine ⟨?_, ?_⟩
    · rintro _ ⟨⟩ data hdata
      cases hdata
    rintro _ ⟨⟩
    refine ⟨oneBlockEach_of_none rfl, ?_⟩
    rintro _ ⟨⟩
    refine ⟨?_, ?_⟩
    · rintro _ ⟨⟩ data hdata
      cases hdata
    rintro _ ⟨⟩
    refine ⟨oneBlockEach_of_none rfl, ?_⟩
    rintro _ ⟨⟩
    refine ⟨?_, fun _ _ => trivial⟩
    rintro _ ⟨⟩ data hdata
    cases hdata
    rfl

end TurnSample

end MatrixNode
