import MatrixNode.BlockGenSafety

/-! What the handlers of a generating process can do to its cache and how often they announce a
block. -/
namespace MatrixNode
open GoLib

def GenEffect.isChainEvent {Hash Tx : Type} : GenEffect Hash Tx → Bool
  | .chainEvent _ _ => true
  | _ => false

namespace GenProcess
variable {Hash State Tx Receipt : Type}

def announced (p : GenProcess Hash State Tx Receipt) : ℕ := p.trace.countP GenEffect.isChainEvent

def HashesKept (p q : GenProcess Hash State Tx Receipt) : Prop :=
  ∀ leader data, p.blockCache.lookup leader = some data →
    ∃ data', q.blockCache.lookup leader = some data' ∧ data'.block.blockHash = data.block.blockHash

structure Silent (p q : GenProcess Hash State Tx Receipt) : Prop where
  announced : q.announced = p.announced
  blockCache : q.blockCache = p.blockCache
  results : q.broadcastRstCache = p.broadcastRstCache

/-- At most one block is announced, as the last thing. The blocks of the cache stay, unless a broadcast
block takes the place of one. -/
structure Works (p q : GenProcess Hash State Tx Receipt) : Prop where
  announced : q.announced = p.announced ∨ (q.announced = p.announced+1 ∧ q.state = .done)
  kept : p.broadcastRstCache = [] → q.broadcastRstCache = [] ∧ HashesKept p q

section Relations
variable {p q r : GenProcess Hash State Tx Receipt}

theorem HashesKept.of_eq (h : q.blockCache = p.blockCache) : HashesKept p q := by
  intro leader data hdata
  exact ⟨data, h ▸ hdata, rfl⟩

theorem HashesKept.trans (h : HashesKept p q) (h' : HashesKept q r) : HashesKept p r := by
  intro leader data hdata
  obtain ⟨data', hdata', hhash⟩ := h leader data hdata
  obtain ⟨data'', hdata'', hhash'⟩ := h' leader data' hdata'
  exact ⟨data'', hdata'', hhash'.trans hhash⟩

theorem Silent.trans (h : Silent p q) (h' : Silent q r) : Silent p r :=
  ⟨h'.announced.trans h.announced, h'.blockCache.trans h.blockCache, h'.results.trans h.results⟩

theorem Silent.works (h : Silent p q) : Works p q :=
  ⟨.inl h.announced, fun hnil => ⟨h.results.trans hnil, .of_eq h.blockCache⟩⟩

theorem Works.refl (p : GenProcess Hash State Tx Receipt) : Works p p :=
  Silent.works ⟨rfl, rfl, rfl⟩

theorem Works.of_kept (hann : q.announced = p.announced)
    (hkept : p.broadcastRstCache = [] → q.broadcastRstCache = [] ∧ HashesKept p q) (h : Works q r) :
    Works p r := by
  constructor
  · rw [← hann]
    exact h.announced
  · intro hnil
    obtain ⟨hnil', hsame⟩ := hkept hnil
    obtain ⟨hnil'', hsame'⟩ := h.kept hnil'
    exact ⟨hnil'', hsame.trans hsame'⟩

theorem Works.of_silent (h : Silent p q) (h' : Works q r) : Works p r :=
  .of_kept h.announced h.works.kept h'

theorem Works.of_eq (h : Works q r) (htrace : q.trace = p.trace) (hcache : q.blockCache = p.blockCache)
    (hresults : q.broadcastRstCache = p.broadcastRstCache) : Works p r := by
  refine .of_silent ⟨?_, hcache, hresults⟩ h
  unfold GenProcess.announced
  rw [htrace]

theorem announced_record (p : GenProcess Hash State Tx Receipt) (e : GenEffect Hash Tx) :
    (p.record e).announced = p.announced + if e.isChainEvent = true then 1 else 0 := by
  show (p.trace ++ [e]).countP _ = _
  rw [List.countP_append, List.countP_singleton]
  rfl

theorem silent_record {e : GenEffect Hash Tx} (he : e.isChainEvent = false) :
    Silent p (p.record e) := by
  refine ⟨?_, rfl, rfl⟩
  rw [announced_record, he]
  rfl

end Relations

section Stages
variable [DecidableEq Hash] {node : GenNode Hash Tx Receipt} {env : GenEnv Hash State Tx Receipt}
  {p q : GenProcess Hash State Tx Receipt}

/-- The block was handed to the chain, which refused it. -/
theorem insertAndBcBlock_error {header : Option (Header Hash)} {err : GoError}
    (h : p.insertAndBcBlock node env header = (q,.error err)) : Silent p q := by
  unfold insertAndBcBlock at h
  split at h
  · cases h
    exact ⟨rfl, rfl, rfl⟩
  split_ifs at h
  · cases h
    exact ⟨rfl, rfl, rfl⟩
  split at h
  · cases h
    exact ⟨rfl, rfl, rfl⟩
  dsimp only at h
  split at h
  · cases h
    exact silent_record rfl
  · cases h

theorem insertAndBcBlock_ok {header : Option (Header Hash)} {hash : Hash}
    (h : p.insertAndBcBlock node env header = (q,.ok hash)) :
    q.announced = p.announced+1 ∧ q.blockCache = p.blockCache ∧
      q.broadcastRstCache = p.broadcastRstCache := by
  unfold insertAndBcBlock at h
  split at h
  · cases h
  split_ifs at h
  · cases h
  split at h
  · cases h
  dsimp only at h
  split at h
  · cases h
  · cases h
    refine ⟨?_, rfl, rfl⟩
    rw [announced_record, announced_record, announced_record]
    rfl

def Inserts (node : GenNode Hash Tx Receipt) (p : GenProcess Hash State Tx Receipt) : Prop :=
  if isBroadcastNumber (p.number+1) = true then p.role = .broadcast
  else p.role = .validator ∧ p.nextLeader ≠ 0 ∧ p.nextLeader = node.address

instance : Decidable (Inserts node p) := by
  unfold Inserts
  infer_instance

def afterInsert (node : GenNode Hash Tx Receipt) (env : GenEnv Hash State Tx Receipt)
    (p : GenProcess Hash State Tx Receipt) : GenProcess Hash State Tx Receipt :=
  match p.insertAndBcBlock node env none with
  | (p,.error _) => p
  | (p,.ok _) => { p with state := .done }

/-- The guards of the source, one after the other, are those of `Inserts`. -/
theorem processBlockInsert_eq (node : GenNode Hash Tx Receipt) (env : GenEnv Hash State Tx Receipt)
    (p : GenProcess Hash State Tx Receipt) :
    p.processBlockInsert node env =
      if (p.state = .blockInsert ∨ p.state = .done) ∧ p.Inserts node then p.afterInsert node env
      else p := by
  have hguards : (if isBroadcastNumber (p.number+1) then
        if p.role ≠ .broadcast then p else p.afterInsert node env
      else if p.role ≠ .validator then p
      else if p.nextLeader = 0 then p
      else if p.nextLeader ≠ node.address then p
      else p.afterInsert node env) = if p.Inserts node then p.afterInsert node env else p := by
    unfold Inserts
    split_ifs <;> simp_all
  unfold processBlockInsert
  cases hstate : p.state with
  | blockInsert =>
    refine Eq.trans hguards ?_
    simp
  | done =>
    refine Eq.trans hguards ?_
    simp
  | _ => simp

theorem processBlockInsert_of_not_inserts (h : ¬ p.Inserts node) : p.processBlockInsert node env = p := by
  rw [processBlockInsert_eq, if_neg (fun hboth => h hboth.2)]

theorem afterInsert_spec (node : GenNode Hash Tx Receipt) (env : GenEnv Hash State Tx Receipt)
    (p : GenProcess Hash State Tx Receipt) :
    Silent p (p.afterInsert node env) ∨ ((p.afterInsert node env).announced = p.announced+1 ∧
      (p.afterInsert node env).state = .done ∧ (p.afterInsert node env).blockCache = p.blockCache ∧
      (p.afterInsert node env).broadcastRstCache = p.broadcastRstCache) := by
  unfold afterInsert
  rcases hins : p.insertAndBcBlock node env none with ⟨q, err | hash⟩
  · exact .inl (insertAndBcBlock_error hins)
  · obtain ⟨hann, hcache, hresults⟩ := insertAndBcBlock_ok hins
    exact .inr ⟨hann, rfl, hcache, hresults⟩

theorem blockCache_processBlockInsert : (p.processBlockInsert node env).blockCache = p.blockCache := by
  rw [processBlockInsert_eq]
  split_ifs
  · rcases afterInsert_spec node env p with hsilent | ⟨-, -, hcache, -⟩
    · exact hsilent.blockCache
    · exact hcache
  · rfl

theorem processBlockInsert_works : Works p (p.processBlockInsert node env) := by
  rw [processBlockInsert_eq]
  split_ifs
  · rcases afterInsert_spec node env p with
      hsilent | ⟨hann, hdone, hcache, hresults⟩
    · exact hsilent.works
    · exact ⟨.inr ⟨hann, hdone⟩, fun hnil => ⟨hresults.trans hnil, .of_eq hcache⟩⟩
  · exact .refl p

theorem blockReady_works (header : Header Hash) : Works p (p.blockReady node env header) := by
  have hready : Silent p { p.record (.newBlockReady header) with state := .blockInsert } :=
    (silent_record rfl).trans ⟨rfl, rfl, rfl⟩
  exact .of_silent hready processBlockInsert_works

omit [DecidableEq Hash] in
theorem verifyBlock_silent (header : Header Hash) : Silent p (p.verifyBlock node env header).1 := by
  unfold verifyBlock
  split
  · exact ⟨rfl, rfl, rfl⟩
  · exact silent_record rfl

theorem verifyOneResult_silent (rawHeader : Header Hash) (result : MiningRspMsg Hash) :
    Silent p (p.verifyOneResult node env rawHeader result).1 := by
  have hverify : Silent p (p.verifyBlock node env (copyHeader rawHeader result)).1 :=
    verifyBlock_silent _
  unfold verifyOneResult
  dsimp only
  split_ifs
  · exact ⟨rfl, rfl, rfl⟩
  · revert hverify
    rcases p.verifyBlock node env (copyHeader rawHeader result) with ⟨q, err | ok⟩
    · exact id
    · exact id

/-- A result that fails is deleted from the pool before the next one is tried. -/
theorem pickSatisfyMinerResults_silent (header : Header Hash) (results : List (MiningRspMsg Hash)) :
    Silent p (p.pickSatisfyMinerResults node env header results).1 := by
  induction results generalizing p with
  | nil => exact ⟨rfl, rfl, rfl⟩
  | cons result results ih =>
    have hone : Silent p (p.verifyOneResult node env header result).1 := verifyOneResult_silent _ _
    unfold pickSatisfyMinerResults
    revert hone
    rcases p.verifyOneResult node env header result with ⟨q, err | ok⟩
    · intro hone
      have hdel : Silent q { q with
          powPool := q.powPool.delOneResult result.blockHash result.difficulty result.fromAccount } :=
        ⟨rfl, rfl, rfl⟩
      exact (hone.trans hdel).trans ih
    · exact id

/-- The entry gets the header that the miner completed; the hash it is filed with stays. -/
theorem dealMinerResultVerifyCommon_works (leader : Address) :
    Works p (p.dealMinerResultVerifyCommon node env leader) := by
  unfold dealMinerResultVerifyCommon
  split
  · exact .refl p
  rename_i key data hdata
  split
  · exact blockReady_works _
  split
  · exact .refl p
  rename_i results hresults
  have hpick : Silent p (p.pickSatisfyMinerResults node env data.block.header results).1 :=
    pickSatisfyMinerResults_silent _ _
  revert hpick
  rcases p.pickSatisfyMinerResults node env data.block.header results with ⟨q, err | satisfyResult⟩
  · intro hpick
    exact hpick.works
  · intro hpick
    apply Works.of_silent hpick
    refine Works.of_kept ?_ ?_ (blockReady_works _)
    · rfl
    intro hnil
    refine ⟨hnil, ?_⟩
    intro leader' data' hdata'
    by_cases hkey : leader' = key
    · subst hkey
      rw [hpick.blockCache, workBlockData_mem hdata] at hdata'
      cases hdata'
      exact ⟨_, Finmap.lookup_insert _, rfl⟩
    · exact ⟨data', (Finmap.lookup_insert_of_ne _ hkey).trans hdata', rfl⟩

variable [Zero Hash]

/-- A result was picked, so there was one; the cache may then get another block. -/
theorem dealMinerResultVerifyBroadcast_works :
    Works p (p.dealMinerResultVerifyBroadcast env node) := by
  unfold dealMinerResultVerifyBroadcast
  split
  · exact .refl p
  rename_i results block hpick
  have hnot : p.broadcastRstCache ≠ [] := by
    intro hnil
    rw [hnil] at hpick
    cases hpick
  have hsave : Silent ({ p with broadcastRstCache := results }.saveReadyBlock block)
      (({ p with broadcastRstCache := results }.saveReadyBlock block).record
        (.newBlockReady block.header)) := silent_record rfl
  refine Works.of_kept hsave.announced (fun hnil => absurd hnil hnot) ?_
  dsimp only
  split_ifs
  · apply Works.of_silent _ processBlockInsert_works
    exact ⟨rfl, rfl, rfl⟩
  · exact processBlockInsert_works

theorem processMinerResultVerify_works (leader : Address) (checkState : Bool) :
    Works p (p.processMinerResultVerify env node leader checkState) := by
  unfold processMinerResultVerify
  split_ifs
  · exact .refl p
  · exact dealMinerResultVerifyBroadcast_works
  · exact dealMinerResultVerifyCommon_works leader

theorem processMinerResultVerify_of_state (leader : Address) (h : p.state ≠ .minerResultVerify) :
    p.processMinerResultVerify env node leader true = p := by
  unfold processMinerResultVerify
  rw [if_pos ⟨rfl, h⟩]

theorem toMinerResultVerify_works : Works p (p.toMinerResultVerify env node) := by
  have hstate : Silent p { p with state := .minerResultVerify } := ⟨rfl, rfl, rfl⟩
  exact .of_silent hstate (processMinerResultVerify_works _ _)

theorem genHeader_works : Works p (p.genHeader env node) := by
  unfold genHeader
  split
  · exact .refl p
  · exact toMinerResultVerify_works

theorem startHeaderGen_works : Works p (p.startHeaderGen env node) := by
  have hgen : Works p (p.genHeader env node) := genHeader_works
  have hto : Works p (p.toMinerResultVerify env node) := toMinerResultVerify_works
  have hsame : Works p p := .refl p
  unfold startHeaderGen
  by_cases hstate : p.state ≠ .headerGen
  · rw [if_pos hstate]
    exact hsame
  rw [if_neg hstate]
  split
  · split_ifs <;> assumption
  · split_ifs <;> assumption
  · exact hsame

theorem startBcBlock_works {q : GenProcess Hash State Tx Receipt} (h : p.startBcBlock env node = .ok q) :
    Works p q := by
  unfold startBcBlock at h
  split_ifs at h
  · cases h
    exact .refl p
  · cases h
    exact .refl p
  · split at h <;> cases h
    apply Works.of_silent _ startHeaderGen_works
    exact (silent_record rfl).trans ⟨rfl, rfl, rfl⟩
  · split at h <;> cases h
    apply Works.of_silent _ startHeaderGen_works
    exact ⟨rfl, rfl, rfl⟩

theorem startBcBlock_of_state (h : p.state ≠ .blockBroadcast) : p.startBcBlock env node = .ok p := by
  unfold startBcBlock
  rw [if_pos h]

/-- All guards are passed, and so it was accepted. -/
theorem processFullBlockRsp_of_not_accepts {header : Header Hash} {txs : List Tx}
    (h : ¬ AcceptsFullBlock node env p header txs) :
    Silent p (p.processFullBlockRsp node env header txs) ∧
      (p.processFullBlockRsp node env header txs).state = p.state := by
  unfold processFullBlockRsp
  dsimp only
  split_ifs with hknown
  · exact ⟨⟨rfl, rfl, rfl⟩, rfl⟩
  split
  · exact ⟨⟨rfl, rfl, rfl⟩, rfl⟩
  rename_i hheader
  unfold verifyBlock
  rcases hagreed : node.engine.verifyBlock env.reader header env.dposOrders with err | ok
  · exact ⟨⟨rfl, rfl, rfl⟩, rfl⟩
  rcases hrun : runTxs node env header (node.engine.hashNoSignsAndNonce header) txs with err | result
  · exact ⟨silent_record rfl, rfl⟩
  · exact absurd ⟨Option.not_isSome_iff_eq_none.mp hknown, hheader, hagreed, result, hrun⟩ h

end Stages

end GenProcess

end MatrixNode
