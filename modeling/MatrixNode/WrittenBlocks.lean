import MatrixNode.BlockGenSafety

/-! What two generators can write at one height, whatever each of them has received and in whatever
order. -/
namespace MatrixNode
open GoLib

namespace GenProcess
variable {Hash State Tx Receipt : Type} [Zero Hash] [DecidableEq Hash]

/-- A process of the height whose chain has always had the same validators, and whose blocks have
come with their own transactions. -/
def ReachedWith (node : GenNode Hash Tx Receipt) (height : ℕ) (stocks : GoMap Address UInt16)
    (p : GenProcess Hash State Tx Receipt) : Prop :=
  ∃ inputs, (∀ input ∈ inputs, input.2.TxsMatch node.hashing ∧
      DposEngine.getValidatorStocks input.1.reader height = .ok stocks) ∧
    run (genStep node) (newGenProcess height) inputs = .ok p

variable {node node' : GenNode Hash Tx Receipt} {height : ℕ} {stocks : GoMap Address UInt16}
  {p p' : GenProcess Hash State Tx Receipt} {block block' : Block Hash Tx}

/-- What was accepted for this height is signed by a quorum of its validators. -/
theorem ReachedWith.quorum (h : p.ReachedWith node height stocks)
    (hsep : node.engine.SeparatesTxHash) (hb : isBroadcastNumber height = false)
    (hwritten : .writeBlock block ∈ p.trace) :
    3 ≤ stocks.len ∧ ∃ header, .dposVerified header ∈ p.trace ∧
      IsQuorum stocks.keys (DposEngine.targetSignCount stocks.len)
        (node.engine.agreeAccounts (node.engine.hashNoSignsAndNonce block.header) header.signatures
          stocks) := by
  obtain ⟨inputs, hinputs, hrun⟩ := h
  let Agreed (header : Header Hash) : Prop := header.number = height → 3 ≤ stocks.len ∧
    IsQuorum stocks.keys (DposEngine.targetSignCount stocks.len) (node.engine.agreeAccounts
      (node.engine.hashNoSignsAndNonce header) header.signatures stocks)
  have hsound : Sound node Agreed height p := by
    refine run_preserves ?_ hinputs newGenProcess_sound hrun
    rintro q ⟨env, event⟩ q' ⟨htxs, hstocks⟩ hq hq'
    refine genStep_sound ⟨hb, ?_, hsep⟩ hq htxs hq'
    intro header hok hnumber
    obtain ⟨found, hfound, hlen, hquorum⟩ :=
      (DposEngine.verifyBlock_eq_ok_iff (hnumber ▸ hb)).mp hok
    rw [hnumber, hstocks] at hfound
    cases hfound
    exact ⟨hlen, hquorum⟩
  obtain ⟨header, hverified, hnumber, hhash⟩ := hsound.written block hwritten
  obtain ⟨hlen, hquorum⟩ := hsound.accepted header hverified hnumber
  rw [hhash] at hquorum
  exact ⟨hlen, header, hverified, hquorum⟩

/-- Two nodes that write two blocks at one height have accepted signatures for both from more than a
third of the validators. -/
theorem written_blocks_share_signers (hengine : node'.engine = node.engine)
    (hsep : node.engine.SeparatesTxHash) (hb : isBroadcastNumber height = false)
    (h : p.ReachedWith node height stocks) (h' : p'.ReachedWith node' height stocks)
    (hwritten : .writeBlock block ∈ p.trace) (hwritten' : .writeBlock block' ∈ p'.trace) :
    ∃ header header', .dposVerified header ∈ p.trace ∧ .dposVerified header' ∈ p'.trace ∧
      stocks.len < 3*(node.engine.agreeAccounts (node.engine.hashNoSignsAndNonce block.header)
          header.signatures stocks ∩
        node.engine.agreeAccounts (node.engine.hashNoSignsAndNonce block'.header)
          header'.signatures stocks).card := by
  obtain ⟨hlen, header, hverified, hquorum⟩ := h.quorum hsep hb hwritten
  obtain ⟨-, header', hverified', hquorum'⟩ := h'.quorum (hengine ▸ hsep) hb hwritten'
  rw [hengine] at hquorum'
  have hinter := hquorum.card_inter hquorum'
  have htarget := DposEngine.two_mul_lt_targetSignCount (n := stocks.len) (by omega)
  change 2*DposEngine.targetSignCount stocks.len ≤ stocks.len+_ at hinter
  exact ⟨header, header', hverified, hverified', by omega⟩

end GenProcess

section Sample

/-- Its validators sign whatever they are asked to. -/
def signingNode : GenNode ℕ ℕ ℕ :=
  { twoTxNode with
    engine := ⟨UnsignedHeader.txHash, fun _ sign => some (sign.setWidth 160, true), [100]⟩ }

def orderedHeader (txs : List ℕ) : Header ℕ :=
  { twoTxHeader with
    txHash := addingChain.deriveShaTxs txs, receiptHash := addingChain.deriveShaReceipts txs }

noncomputable def orderedRun (txs : List ℕ) : List (GenEnv ℕ ℕ ℕ ℕ × GenEvent ℕ ℕ ℕ ℕ) :=
  [.setCurLeader 1 0, .startRunning .validator, .setNextLeader 2,
    .fullBlockRsp (orderedHeader txs) txs].map fun event => (twoTxEnv,event)

theorem orderedRun_writes {txs : List ℕ} (h : txs = [1,2] ∨ txs = [2,1]) :
    ∃ p : GenProcess ℕ ℕ ℕ ℕ,
      p.ReachedWith signingNode 2 (DposEngine.graph2ValidatorStocks twoTxGraph) ∧
      .writeBlock (signingNode.hashing.newBlockWithTxs (orderedHeader txs) txs) ∈ p.trace := by
  have hverified : signingNode.engine.verifyBlock twoTxEnv.reader (orderedHeader txs)
      twoTxEnv.dposOrders = .ok () := by
    rw [DposEngine.verifyBlock_eq_ok_iff rfl]
    refine ⟨DposEngine.graph2ValidatorStocks twoTxGraph, rfl, by decide +kernel,
      Finset.filter_subset _ _, ?_⟩
    rcases h with rfl | rfl <;> decide +kernel
  have hexec : GenProcess.runTxs signingNode twoTxEnv (orderedHeader txs)
      (signingNode.engine.hashNoSignsAndNonce (orderedHeader txs)) txs = .ok (txs,8) := by
    rcases h with rfl | rfl
    · rfl
    · rfl
  have haccepts : GenProcess.AcceptsFullBlock signingNode twoTxEnv twoTxWaiting (orderedHeader txs) txs :=
    ⟨GenProcess.getBlockDataByBlockHash_empty rfl _, rfl, hverified, _, hexec⟩
  refine ⟨twoTxWaiting.processFullBlockRsp signingNode twoTxEnv (orderedHeader txs) txs,
    ⟨orderedRun txs, fun input hinput => ⟨?_, ?_⟩, rfl⟩, ?_⟩
  · revert input
    simp [orderedRun, GenEvent.TxsMatch, orderedHeader, signingNode, twoTxNode]
  · obtain ⟨event, -, rfl⟩ := List.mem_map.mp hinput
    rfl
  · rw [haccepts.processFullBlockRsp_eq hexec]
    change _ ∈ [_, _, _, _, _, _]
    simp

/-- The same four validators have signed both orders of the transactions. -/
theorem written_blocks_share_signers_two_orders :
    let D := signingNode.engine
    let stocks := DposEngine.graph2ValidatorStocks twoTxGraph
    let block := signingNode.hashing.newBlockWithTxs (orderedHeader [1,2]) [1,2]
    let block' := signingNode.hashing.newBlockWithTxs (orderedHeader [2,1]) [2,1]
    block.transactions ≠ block'.transactions ∧ ∃ signs signs', stocks.len <
      3*(D.agreeAccounts (D.hashNoSignsAndNonce block.header) signs stocks ∩
        D.agreeAccounts (D.hashNoSignsAndNonce block'.header) signs' stocks).card := by
  obtain ⟨p, hreached, hwritten⟩ := orderedRun_writes (.inl rfl)
  obtain ⟨p', hreached', hwritten'⟩ := orderedRun_writes (.inr rfl)
  have hsep : signingNode.engine.SeparatesTxHash := fun _ _ h => h
  obtain ⟨header, header', -, -, hshare⟩ := GenProcess.written_blocks_share_signers rfl hsep
    (by decide) hreached hreached' hwritten hwritten'
  exact ⟨by decide, _, _, hshare⟩

end Sample

end MatrixNode
