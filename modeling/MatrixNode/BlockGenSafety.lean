import MatrixNode.BlockGenProcess
import MatrixNode.DposQuorum
import MatrixNode.TxsVerification

/-! What the process of an ordinary height writes to the chain: a header that `VerifyBlock` accepted,
as long as the transactions it is cached with are those of its `TxHash`. -/
namespace MatrixNode
open GoLib List

def DposEngine.SeparatesTxHash {Hash : Type} (D : DposEngine Hash) : Prop :=
  ∀ h h' : UnsignedHeader Hash, D.headerHash h = D.headerHash h' → h.txHash = h'.txHash

def GenEvent.TxsMatch {Hash State Tx Receipt : Type} (hashing : BlockHashing Hash Tx Receipt) :
    GenEvent Hash State Tx Receipt → Prop
  | .consensusBlock block => block.header.txHash = hashing.deriveShaTxs block.txs
  | .fullBlockRsp header txs => header.txHash = hashing.deriveShaTxs txs
  | _ => True

namespace GenProcess
variable {Hash State Tx Receipt : Type}

structure CachedSound (node : GenNode Hash Tx Receipt) (height : ℕ)
    (p : GenProcess Hash State Tx Receipt) (data : BlockCacheData Hash State Tx Receipt) : Prop where
  number : data.block.header.number = height
  txHash : data.block.header.txHash = node.hashing.deriveShaTxs data.block.txs
  verified : data.state = .ready → .dposVerified data.block.header ∈ p.trace

/-- Every block handed to the chain has the hash of a header of the height that verified. -/
def WritesVerified (node : GenNode Hash Tx Receipt) (height : ℕ)
    (p : GenProcess Hash State Tx Receipt) : Prop :=
  ∀ block, .writeBlock block ∈ p.trace → ∃ header, .dposVerified header ∈ p.trace ∧
    header.number = height ∧
    node.engine.hashNoSignsAndNonce header = node.engine.hashNoSignsAndNonce block.header

/-- The invariant of a run at a height, where `Accepted` are the headers that the engine
accepts at some step of it. -/
structure Sound (node : GenNode Hash Tx Receipt) (Accepted : Header Hash → Prop) (height : ℕ)
    (p : GenProcess Hash State Tx Receipt) : Prop where
  number : p.number = height
  accepted : ∀ header, .dposVerified header ∈ p.trace → Accepted header
  cache : ∀ leader data, p.blockCache.lookup leader = some data → CachedSound node height p data
  written : WritesVerified node height p

section Sound
variable {node : GenNode Hash Tx Receipt} {Accepted : Header Hash → Prop} {height : ℕ}
  {p p' : GenProcess Hash State Tx Receipt}

theorem Sound.of_eq (h : Sound node Accepted height p)
    (heq : (p'.number, p'.blockCache, p'.trace) = (p.number, p.blockCache, p.trace)) :
    Sound node Accepted height p' := by
  cases p'
  cases heq
  obtain ⟨hn, haccepted, hcache, hwritten⟩ := h
  refine ⟨hn, haccepted, ?_, hwritten⟩
  intro leader data hdata
  obtain ⟨hnumber, htx, hready⟩ := hcache leader data hdata
  exact ⟨hnumber, htx, hready⟩

/-- A block that was written has its verified header in the old trace, whichever entry is new. -/
theorem Sound.record (h : Sound node Accepted height p) {e : GenEffect Hash Tx}
    (haccepted : ∀ header, e = .dposVerified header → Accepted header)
    (hwritten : ∀ block, e = .writeBlock block → ∃ header, .dposVerified header ∈ p.trace ∧
      header.number = height ∧
      node.engine.hashNoSignsAndNonce header = node.engine.hashNoSignsAndNonce block.header) :
    Sound node Accepted height (p.record e) where
  number := h.number
  accepted := by
    intro header hmem
    rcases mem_append.mp hmem with hold | hnew
    · exact h.accepted header hold
    · exact haccepted header (mem_singleton.mp hnew).symm
  cache := by
    intro leader data hdata
    obtain ⟨hnumber, htx, hready⟩ := h.cache leader data hdata
    exact ⟨hnumber, htx, fun hr => mem_append_left _ (hready hr)⟩
  written := by
    intro block hmem
    have hverified := (mem_append.mp hmem).elim (h.written block)
      (fun hnew => hwritten block (mem_singleton.mp hnew).symm)
    obtain ⟨header, hheader, hnumber, hhash⟩ := hverified
    exact ⟨header, mem_append_left _ hheader, hnumber, hhash⟩

theorem Sound.insert (h : Sound node Accepted height p) {key : Address}
    {data : BlockCacheData Hash State Tx Receipt} (hdata : CachedSound node height p data) :
    Sound node Accepted height { p with blockCache := p.blockCache.insert key data } where
  number := h.number
  accepted := h.accepted
  cache := by
    intro leader data' hdata'
    rcases GoMap.lookup_insert_cases hdata' with ⟨rfl, rfl⟩ | ⟨-, hdata'⟩
    · exact ⟨hdata.number, hdata.txHash, hdata.verified⟩
    · obtain ⟨hnumber, htx, hready⟩ := h.cache leader data' hdata'
      exact ⟨hnumber, htx, hready⟩
  written := h.written

end Sound

section WorkBlock
variable {env : GenEnv Hash State Tx Receipt} {p : GenProcess Hash State Tx Receipt}

theorem foldl_laterBlock_mem {l : List (Address × BlockCacheData Hash State Tx Receipt)}
    {best : Option (Address × BlockCacheData Hash State Tx Receipt) × ℤ}
    {e : Address × BlockCacheData Hash State Tx Receipt} (h : (l.foldl laterBlock best).1 = some e) :
    best.1 = some e ∨ e ∈ l := by
  induction l generalizing best with
  | nil => exact Or.inl h
  | cons x xs ih =>
    rcases ih h with hbest | hmem
    · unfold laterBlock at hbest
      dsimp only at hbest
      split_ifs at hbest
      · cases hbest
        exact Or.inr (mem_cons_self ..)
      · exact Or.inl hbest
    · exact Or.inr (mem_cons_of_mem _ hmem)

variable {data : BlockCacheData Hash State Tx Receipt}

theorem getLastBlockData_mem {key : Address} (h : p.getLastBlockData env = some (key, data)) :
    p.blockCache.lookup key = some data := by
  rcases foldl_laterBlock_mem h with hnone | hmem
  · cases hnone
  · exact ((env.cacheOrder.isRange p.blockCache).mem_iff key data).mp hmem

theorem workBlockData_mem {leader key : Address} (h : p.workBlockData env leader = some (key, data)) :
    p.blockCache.lookup key = some data := by
  unfold workBlockData at h
  split_ifs at h
  · exact getLastBlockData_mem h
  · obtain ⟨data', hdata', heq⟩ := Option.map_eq_some_iff.mp h
    cases heq
    exact hdata'

end WorkBlock

/-- What a step of an ordinary height can rely on. -/
structure OrdinaryStep (node : GenNode Hash Tx Receipt) (env : GenEnv Hash State Tx Receipt)
    (Accepted : Header Hash → Prop) (height : ℕ) : Prop where
  ordinary : isBroadcastNumber height = false
  accepts : ∀ header, node.engine.verifyBlock env.reader header env.dposOrders = .ok () →
    Accepted header
  separates : node.engine.SeparatesTxHash

/-- The process has only recorded more of what it did. -/
def Continues (p q : GenProcess Hash State Tx Receipt) : Prop :=
  ∃ effects, q = { p with trace := p.trace ++ effects }

section Continues
variable {p q : GenProcess Hash State Tx Receipt}

theorem Continues.refl (p : GenProcess Hash State Tx Receipt) : Continues p p :=
  ⟨[], by rw [append_nil]⟩

theorem Continues.record (h : Continues p q) (e : GenEffect Hash Tx) : Continues p (q.record e) := by
  obtain ⟨effects, rfl⟩ := h
  refine ⟨effects ++ [e], ?_⟩
  rw [GenProcess.record, append_assoc]

variable (node : GenNode Hash Tx Receipt) (env : GenEnv Hash State Tx Receipt)
  (p : GenProcess Hash State Tx Receipt) (header : Header Hash)

theorem verifyBlock_continues : Continues p (p.verifyBlock node env header).1 := by
  unfold verifyBlock
  split
  · exact .refl p
  · exact (Continues.refl p).record _

variable [DecidableEq Hash]

theorem insertAndBcBlock_continues (header : Option (Header Hash)) :
    Continues p (p.insertAndBcBlock node env header).1 := by
  unfold insertAndBcBlock
  split
  · exact .refl p
  split_ifs
  · exact .refl p
  split
  · exact .refl p
  have hwrite (block : Block Hash Tx) : Continues p (p.record (.writeBlock block)) :=
    (Continues.refl p).record _
  dsimp only
  split
  · exact hwrite _
  · exact ((hwrite _).record _).record _

theorem insertNotified_continues :
    Continues { p with insertBlockHash := p.insertBlockHash ++ [node.blockHash header] }
      (p.insertNotified node env header) := by
  obtain ⟨effects, hins⟩ := insertAndBcBlock_continues node env p (some header)
  unfold insertNotified
  revert hins
  rcases p.insertAndBcBlock node env (some header) with ⟨q, err | hash⟩
  · rintro rfl
    refine ⟨effects ++ [.fetcherNotify (node.blockHash header) p.number], ?_⟩
    dsimp only [GenProcess.record]
    rw [append_assoc]
  · rintro rfl
    exact ⟨effects, rfl⟩

end Continues

section Step
variable [DecidableEq Hash] {node : GenNode Hash Tx Receipt} {env : GenEnv Hash State Tx Receipt}
  {Accepted : Header Hash → Prop} {height : ℕ} {p : GenProcess Hash State Tx Receipt}

variable {header : Option (Header Hash)}

theorem insertHeader_verified (H : OrdinaryStep node env Accepted height)
    {data : BlockCacheData Hash State Tx Receipt} (hdata : CachedSound node height p data)
    (hready : data.state = .ready) {hins : Header Hash}
    (hheader : ∀ h, header = some h → .dposVerified h ∈ p.trace ∧ h.number = height)
    (h : insertHeader node data.block.header header = .ok hins) :
    .dposVerified hins ∈ p.trace ∧ hins.number = height ∧
      hins.txHash = node.hashing.deriveShaTxs data.block.txs := by
  cases header with
  | none =>
    cases h
    exact ⟨hdata.verified hready, hdata.number, hdata.txHash⟩
  | some given =>
    unfold insertHeader at h
    rw [ite_error_eq_ok, not_not] at h
    obtain ⟨hhash, heq⟩ := h
    cases heq
    obtain ⟨hverified, hnumber⟩ := hheader _ rfl
    refine ⟨hverified, hnumber, ?_⟩
    rw [H.separates _ _ hhash]
    exact hdata.txHash

/-- The rebuilt block has the header's own `TxHash`, and with it the verified hash. -/
theorem insertAndBcBlock_sound (H : OrdinaryStep node env Accepted height)
    (h : Sound node Accepted height p)
    (hheader : ∀ h, header = some h → .dposVerified h ∈ p.trace ∧ h.number = height) :
    Sound node Accepted height (p.insertAndBcBlock node env header).1 := by
  unfold insertAndBcBlock
  split
  · exact h
  rename_i key data hdata
  split_ifs with hstate
  · exact h
  rw [not_not] at hstate
  split
  · exact h
  rename_i hins hinsert
  have hcached := h.cache key data (workBlockData_mem hdata)
  obtain ⟨hverified, hnumber, htx⟩ := insertHeader_verified H hcached hstate hheader hinsert
  have hwrite : Sound node Accepted height
      (p.record (.writeBlock (node.hashing.newBlockWithTxs hins data.block.txs))) := by
    apply h.record
    · intro hd heq
      cases heq
    · intro block heq
      cases heq
      refine ⟨hins, hverified, hnumber, ?_⟩
      rw [node.hashing.newBlockWithTxs_header htx]
  dsimp only
  split
  · exact hwrite
  · have hevent := hwrite.record (e := .chainEvent
      (node.hashing.newBlockWithTxs hins data.block.txs) ‹Bool›) (by simp) (by simp)
    exact hevent.record (by simp) (by simp)

variable (H : OrdinaryStep node env Accepted height) (h : Sound node Accepted height p)
include H h

theorem processBlockInsert_sound : Sound node Accepted height (p.processBlockInsert node env) := by
  have hins : Sound node Accepted height (p.insertAndBcBlock node env none).1 :=
    insertAndBcBlock_sound H h (by simp)
  unfold processBlockInsert
  revert hins
  rcases p.insertAndBcBlock node env none with ⟨q, _ | _⟩
  · intro hins
    dsimp only
    split <;> first | exact h | (split_ifs <;> assumption)
  · intro hins
    have hdone : Sound node Accepted height { q with state := .done } := hins.of_eq rfl
    dsimp only
    split <;> first | exact h | (split_ifs <;> assumption)

theorem blockReady_sound (header : Header Hash) :
    Sound node Accepted height (p.blockReady node env header) := by
  apply processBlockInsert_sound H
  have hrec : Sound node Accepted height (p.record (.newBlockReady header)) :=
    h.record (by simp) (by simp)
  exact hrec.of_eq rfl

omit [DecidableEq Hash] in
theorem verifyBlock_sound (header : Header Hash) :
    Sound node Accepted height (p.verifyBlock node env header).1 ∧
      ((p.verifyBlock node env header).2 = .ok () →
        .dposVerified header ∈ (p.verifyBlock node env header).1.trace) := by
  unfold verifyBlock
  split
  · exact ⟨h, nofun⟩
  · rename_i hok
    refine ⟨h.record ?_ (by simp), fun _ => mem_append_right _ (mem_singleton_self _)⟩
    intro header' heq
    cases heq
    exact H.accepts header hok

theorem verifyOneResult_sound (rawHeader : Header Hash) (result : MiningRspMsg Hash) :
    Sound node Accepted height (p.verifyOneResult node env rawHeader result).1 ∧
      ((p.verifyOneResult node env rawHeader result).2 = .ok () →
        .dposVerified (copyHeader rawHeader result) ∈
          (p.verifyOneResult node env rawHeader result).1.trace) := by
  obtain ⟨hsound, hmem⟩ := verifyBlock_sound H h (copyHeader rawHeader result)
  unfold verifyOneResult
  dsimp only
  split_ifs
  · exact ⟨h, nofun⟩
  · revert hsound hmem
    rcases p.verifyBlock node env (copyHeader rawHeader result) with ⟨p', _ | _⟩
    · exact fun hsound _ => ⟨hsound, nofun⟩
    · exact fun hsound hmem => ⟨hsound, fun _ => hmem rfl⟩

/-- A result that fails only leaves the pool. -/
theorem pickSatisfyMinerResults_sound (header : Header Hash) (results : List (MiningRspMsg Hash)) :
    Sound node Accepted height (pickSatisfyMinerResults node env p header results).1 ∧
      ∀ result, (pickSatisfyMinerResults node env p header results).2 = .ok result →
        .dposVerified (copyHeader header result) ∈
          (pickSatisfyMinerResults node env p header results).1.trace := by
  induction results generalizing p with
  | nil => exact ⟨h, nofun⟩
  | cons result results ih =>
    obtain ⟨hsound, hmem⟩ := verifyOneResult_sound H h header result
    rw [pickSatisfyMinerResults]
    revert hsound hmem
    rcases p.verifyOneResult node env header result with ⟨p', _ | _⟩
    · intro hsound _
      exact ih (hsound.of_eq rfl)
    · intro hsound hmem
      refine ⟨hsound, ?_⟩
      intro picked hpicked
      cases hpicked
      exact hmem rfl

/-- The miner's result changes neither the number nor the transaction root. -/
theorem dealMinerResultVerifyCommon_sound (leader : Address) :
    Sound node Accepted height (p.dealMinerResultVerifyCommon node env leader) := by
  unfold dealMinerResultVerifyCommon
  split
  · exact h
  rename_i key data hdata
  have hcached := h.cache key data (workBlockData_mem hdata)
  split
  · exact blockReady_sound H h _
  split
  · exact h
  rename_i results hresults
  obtain ⟨hsound, hmem⟩ := pickSatisfyMinerResults_sound H h data.block.header results
  revert hsound hmem
  rcases pickSatisfyMinerResults node env p data.block.header results with ⟨p', _ | result⟩
  · exact fun hsound _ => hsound
  · intro hsound hmem
    apply blockReady_sound H
    exact hsound.insert ⟨hcached.number, hcached.txHash, fun _ => hmem result rfl⟩

variable [Zero Hash]

theorem processMinerResultVerify_sound (leader : Address) (checkState : Bool) :
    Sound node Accepted height (p.processMinerResultVerify env node leader checkState) := by
  unfold processMinerResultVerify
  rw [h.number, H.ordinary]
  split_ifs
  · exact h
  · contradiction
  · exact dealMinerResultVerifyCommon_sound H h leader

theorem toMinerResultVerify_sound :
    Sound node Accepted height (p.toMinerResultVerify env node) := by
  apply processMinerResultVerify_sound H
  exact h.of_eq rfl

theorem genHeader_sound : Sound node Accepted height (p.genHeader env node) := by
  unfold genHeader
  split
  · exact h
  · exact toMinerResultVerify_sound H h

theorem startHeaderGen_sound : Sound node Accepted height (p.startHeaderGen env node) := by
  have hgen := genHeader_sound H h
  have hto := toMinerResultVerify_sound H h
  unfold startHeaderGen
  rw [h.number, H.ordinary]
  by_cases hstate : p.state ≠ .headerGen
  · rw [if_pos hstate]
    exact h
  rw [if_neg hstate]
  split
  · exact hto
  · split_ifs <;> assumption
  · exact h

variable {p' : GenProcess Hash State Tx Receipt}

theorem startBcBlock_sound (hp : p.startBcBlock env node = .ok p') :
    Sound node Accepted height p' := by
  unfold startBcBlock at hp
  split_ifs at hp with hstate hbc hnumber
  · cases hp
    exact h
  · cases hp
    exact h
  · split at hp <;> cases hp
    apply startHeaderGen_sound H
    have hrec := h.record (e := .blockInsertNotify ‹Header Hash›) (by simp) (by simp)
    exact hrec.of_eq rfl
  · split at hp <;> cases hp
    apply startHeaderGen_sound H
    exact h.of_eq rfl

variable {header : Header Hash}

omit [Zero Hash] in
theorem insertNotified_sound (hverified : .dposVerified header ∈ p.trace)
    (hnumber : header.number = height) :
    Sound node Accepted height (p.insertNotified node env header) := by
  have hins : Sound node Accepted height (p.insertAndBcBlock node env (some header)).1 := by
    apply insertAndBcBlock_sound H h
    intro given hgiven
    cases hgiven
    exact ⟨hverified, hnumber⟩
  unfold insertNotified
  revert hins
  rcases p.insertAndBcBlock node env (some header) with ⟨p', _ | _⟩
  · intro hins
    have hfetch : Sound node Accepted height
        (p'.record (.fetcherNotify (node.blockHash header) p'.number)) :=
      hins.record (by simp) (by simp)
    exact hfetch.of_eq rfl
  · intro hins
    exact hins.of_eq rfl

omit [Zero Hash] in
theorem startBlockInsert_sound (hnumber : header.number = height)
    (hp : p.startBlockInsert node env header = .ok p') : Sound node Accepted height p' := by
  unfold startBlockInsert at hp
  rw [h.number, H.ordinary] at hp
  by_cases hseen : node.blockHash header ∈ p.insertBlockHash
  · rw [if_pos hseen] at hp
    cases hp
    exact h
  rw [if_neg hseen, if_neg (by decide)] at hp
  obtain ⟨hsound, hmem⟩ := verifyBlock_sound H h header
  revert hsound hmem hp
  rcases p.verifyBlock node env header with ⟨q, _ | _⟩
  · intro hp hsound _
    cases hp
    exact hsound
  · intro hp hsound hmem
    dsimp only at hp
    split at hp <;> cases hp
    · exact hsound
    · exact insertNotified_sound H hsound (hmem rfl) hnumber

omit H [Zero Hash] in
theorem requestFullBlock_sound (header : Header Hash) (target : Address) :
    Sound node Accepted height (p.requestFullBlock node env header target) := by
  unfold requestFullBlock
  dsimp only
  split
  · split_ifs
    · exact h
    · apply Sound.record _ (by simp) (by simp)
      exact h.of_eq rfl
  · apply Sound.record _ (by simp) (by simp)
    exact h.of_eq rfl

omit H [Zero Hash] in
theorem processFullBlockReq_sound (headerHash : Hash) (target : Address) :
    Sound node Accepted height (p.processFullBlockReq env headerHash target) := by
  unfold processFullBlockReq
  split
  · exact h
  · split_ifs
    · exact h
    · exact h.record (by simp) (by simp)

theorem processFullBlockRsp_sound {header : Header Hash} (hnumber : header.number = height)
    {txs : List Tx} (htx : header.txHash = node.hashing.deriveShaTxs txs) :
    Sound node Accepted height (p.processFullBlockRsp node env header txs) := by
  unfold processFullBlockRsp
  by_cases hcached : (p.getBlockDataByBlockHash env
      (node.engine.hashNoSignsAndNonce header)).isSome = true
  · rw [if_pos hcached]
    exact h
  rw [if_neg hcached]
  split
  · exact h
  obtain ⟨hsound, hmem⟩ := verifyBlock_sound H h header
  revert hsound hmem
  rcases p.verifyBlock node env header with ⟨q, _ | _⟩
  · exact fun hsound _ => hsound
  · intro hsound hmem
    dsimp only
    split
    · exact hsound
    · apply blockReady_sound H
      exact hsound.insert ⟨hnumber, htx, fun _ => hmem rfl⟩

theorem addConsensusBlock_sound {block : BlockLocalVerifyOK Hash State Tx Receipt}
    (hnumber : block.header.number = height)
    (htx : block.header.txHash = node.hashing.deriveShaTxs block.txs) :
    Sound node Accepted height (p.addConsensusBlock node env block) := by
  apply processMinerResultVerify_sound H
  unfold saveVerifiedBlock
  split_ifs
  · exact h
  · exact h.insert ⟨hnumber, htx, nofun⟩

theorem addMinerResult_sound (result : MiningRspMsg Hash) :
    Sound node Accepted height (p.addMinerResult node env result) := by
  unfold addMinerResult
  split
  · exact h
  · apply processMinerResultVerify_sound H
    exact h.of_eq rfl

theorem processRecoveryMsg_sound (header : Header Hash) (target : Address) :
    Sound node Accepted height (p.processRecoveryMsg node env header target) := by
  unfold processRecoveryMsg
  extract_lets headerHash minerResult pooled picked
  have hpooled : Sound node Accepted height pooled := by
    unfold pooled
    split
    · exact h
    · exact h.of_eq rfl
  have hpicked : Sound node Accepted height picked := processMinerResultVerify_sound H hpooled _ _
  split_ifs
  · exact requestFullBlock_sound hpicked header target
  · exact hpicked

theorem startRunning_sound {role : RoleType} (hp : p.startRunning node env role = .ok p') :
    Sound node Accepted height p' := by
  refine startBcBlock_sound H ?_ hp
  split_ifs
  · exact h.of_eq rfl
  · exact h.of_eq rfl

theorem setCurLeader_sound {leader : Address} {consensusTurn : UInt32}
    (hp : p.setCurLeader node env leader consensusTurn = .ok p') :
    Sound node Accepted height p' := by
  unfold setCurLeader at hp
  dsimp only at hp
  split_ifs at hp
  · cases hp
    exact h
  · cases hp
    exact h.of_eq rfl
  · refine startBcBlock_sound H ?_ hp
    exact h.of_eq rfl

variable {event : GenEvent Hash State Tx Receipt}

/-- One case for each message; only two of them bring transactions. -/
theorem handle_sound (hheight : ∀ n, event.height = some n → n = height)
    (htx : event.TxsMatch node.hashing) (hp : p.handle node env event = .ok p') :
    Sound node Accepted height p' := by
  cases event with
  | startRunning role => exact startRunning_sound H h hp
  | close =>
    cases hp
    exact h.of_eq rfl
  | reInit =>
    cases hp
    unfold reInit
    split_ifs
    · exact h
    · exact h.of_eq rfl
  | reInitNextLeader =>
    cases hp
    exact h.of_eq rfl
  | setCurLeader leader consensusTurn => exact setCurLeader_sound H h hp
  | setNextLeader leader =>
    cases hp
    unfold setNextLeader
    split_ifs
    · exact h
    · exact processBlockInsert_sound H (h.of_eq rfl)
  | blockInsert header => exact startBlockInsert_sound H h (hheight _ rfl) hp
  | minerResult result =>
    cases hp
    exact addMinerResult_sound H h result
  | consensusBlock block =>
    cases hp
    exact addConsensusBlock_sound H h (hheight _ rfl) htx
  | broadcastMinerResult result =>
    cases hp
    unfold addBroadcastMinerResult
    split_ifs
    · exact h
    · apply processMinerResultVerify_sound H
      exact h.of_eq rfl
  | recovery msg =>
    unfold handle at hp
    dsimp only at hp
    split_ifs at hp <;> cases hp
    · exact h
    · exact processRecoveryMsg_sound H h msg.header msg.fromAccount
  | fullBlockReq req target =>
    cases hp
    exact processFullBlockReq_sound h req.headerHash target
  | fullBlockRsp header txs =>
    cases hp
    exact processFullBlockRsp_sound H h (hheight _ rfl) htx

theorem genStep_sound (htx : event.TxsMatch node.hashing) (hp : genStep node p (env,event) = .ok p') :
    Sound node Accepted height p' := by
  unfold genStep at hp
  split at hp
  · rename_i number hnumber
    split_ifs at hp with hother
    · cases hp
      exact h
    · refine handle_sound H h ?_ htx hp
      intro n hn
      rw [hnumber] at hn
      cases hn
      rw [← h.number]
      exact not_not.mp hother
  · rename_i hnone
    exact handle_sound H h (by simp [hnone]) htx hp

omit [DecidableEq Hash] H h in
theorem newGenProcess_sound :
    Sound node Accepted height (newGenProcess height : GenProcess Hash State Tx Receipt) where
  number := rfl
  accepted := by simp [newGenProcess]
  cache := by simp [newGenProcess]
  written := by simp [WritesVerified, newGenProcess]

end Step

/-- A process writes blocks only with the hash of a header that `VerifyBlock` accepted, if
transactions come only with their own header. -/
theorem genRun_writesVerified {Hash State Tx Receipt : Type} [Zero Hash] [DecidableEq Hash]
    (node : GenNode Hash Tx Receipt) (hsep : node.engine.SeparatesTxHash) {height : ℕ}
    (hb : isBroadcastNumber height = false)
    {inputs : List (GenEnv Hash State Tx Receipt × GenEvent Hash State Tx Receipt)}
    (htxs : ∀ input ∈ inputs, input.2.TxsMatch node.hashing)
    {p : GenProcess Hash State Tx Receipt}
    (hrun : run (genStep node) (newGenProcess height) inputs = .ok p) :
    p.WritesVerified node height ∧ ∀ header, .dposVerified header ∈ p.trace →
      ∃ input ∈ inputs,
        node.engine.verifyBlock input.1.reader header input.1.dposOrders = .ok () := by
  let Accepted : Header Hash → Prop := fun header => ∃ input ∈ inputs,
    node.engine.verifyBlock input.1.reader header input.1.dposOrders = .ok ()
  have hstep : ∀ (q : GenProcess Hash State Tx Receipt)
      (input : GenEnv Hash State Tx Receipt × GenEvent Hash State Tx Receipt)
      (q' : GenProcess Hash State Tx Receipt), (input ∈ inputs ∧ input.2.TxsMatch node.hashing) →
      Sound node Accepted height q → genStep node q input = .ok q' →
      Sound node Accepted height q' := by
    intro q input q' hinput hq hq'
    have H : OrdinaryStep node input.1 Accepted height :=
      ⟨hb, fun header hok => ⟨input, hinput.1, hok⟩, hsep⟩
    exact genStep_sound H hq hinput.2 hq'
  have hp : Sound node Accepted height p :=
    run_preserves hstep (fun input hinput => ⟨hinput, htxs input hinput⟩) newGenProcess_sound hrun
  exact ⟨hp.written, hp.accepted⟩

section Written
variable {Hash State Tx Receipt : Type} [Zero Hash] [DecidableEq Hash]
  {node : GenNode Hash Tx Receipt} {env : GenEnv Hash State Tx Receipt}
  {p : GenProcess Hash State Tx Receipt}

omit [Zero Hash] in
/-- A full block that is not known by its hash and passes the checks. -/
structure AcceptsFullBlock (node : GenNode Hash Tx Receipt) (env : GenEnv Hash State Tx Receipt)
    (p : GenProcess Hash State Tx Receipt) (header : Header Hash) (txs : List Tx) : Prop where
  unknown : p.getBlockDataByBlockHash env (node.engine.hashNoSignsAndNonce header) = none
  sealed : env.verifyHeader header = .ok ()
  agreed : node.engine.verifyBlock env.reader header env.dposOrders = .ok ()
  executed : ∃ result, runTxs node env header (node.engine.hashNoSignsAndNonce header) txs = .ok result

theorem AcceptsFullBlock.processFullBlockRsp_eq {header : Header Hash} {txs : List Tx}
    (h : AcceptsFullBlock node env p header txs) {receipts : List Receipt} {stateDB : State}
    (hrun : runTxs node env header (node.engine.hashNoSignsAndNonce header) txs =
      .ok (receipts,stateDB)) :
    p.processFullBlockRsp node env header txs = ((p.record (.dposVerified header)).saveReadyBlock
        ⟨header, 0, txs, receipts, some stateDB⟩).blockReady node env header := by
  have hverify : p.verifyBlock node env header = (p.record (.dposVerified header), .ok ()) := by
    unfold verifyBlock
    rw [h.agreed]
  unfold processFullBlockRsp
  simp only [h.unknown, h.sealed, hverify, hrun]
  rfl

omit [Zero Hash] in
theorem getBlockDataByBlockHash_empty (hcache : p.blockCache = ∅) (blockHash : Hash) :
    p.getBlockDataByBlockHash env blockHash = none := by
  have hrange := env.cacheOrder.isRange p.blockCache
  unfold getBlockDataByBlockHash
  rw [hcache, GoMap.IsRange.nil_iff] at hrange
  rw [hcache, hrange]
  rfl

end Written

end GenProcess

section Sample

def twoTxHeader : Header ℕ :=
  { addingProposal (addingChain.deriveShaTxs [1,2]) (addingChain.deriveShaReceipts [1,2]) 3 with
    root := 8, gasUsed := 0+21000+21000, signatures := [1,2,3,4] }

def twoTxNode : GenNode ℕ ℕ ℕ where
  engine := {
    headerHash := fun h => if h = twoTxHeader.toUnsignedHeader then 1 else h.txHash+2
    recover := fun signHash sign => if signHash = 1 then some (sign.setWidth 160, true) else none
    broadCastNodes := [100] }
  hashing := addingChain.toBlockHashing
  address := 2
  blockHash := Header.mixDigest

def twoTxGraph : TopologyGraph :=
  ⟨1, [1,2,3,4].map fun account => ⟨account, 0, .validator, 1, 0⟩, 0⟩

noncomputable def twoTxEnv : GenEnv ℕ ℕ ℕ ℕ where
  chain := addingChain
  reader := ⟨1, fun _ => .ok twoTxGraph⟩
  getHeaderByNumber := fun _ => some twoTxHeader
  verifySeal := fun _ => .ok ()
  verifyHeader := fun _ => .ok ()
  writeBlockWithState := fun _ _ _ => .ok true
  accountRole := fun _ _ => .validator
  processHeaderGen := .ok ()
  now := 0
  dposOrders := default
  cacheOrder := default
  resultOrder := default

noncomputable def twoTxRun (txs : List ℕ) : List (GenEnv ℕ ℕ ℕ ℕ × GenEvent ℕ ℕ ℕ ℕ) :=
  [.setCurLeader 1 0, .startRunning .validator, .setNextLeader 2, .fullBlockRsp twoTxHeader txs].map
    fun event => (twoTxEnv,event)

theorem twoTxNode_separatesTxHash : twoTxNode.engine.SeparatesTxHash := by
  intro h h' heq
  change (if h = twoTxHeader.toUnsignedHeader then 1 else h.txHash+2) =
    (if h' = twoTxHeader.toUnsignedHeader then 1 else h'.txHash+2) at heq
  split_ifs at heq with h₁ h₂ h₂
  · rw [h₁, h₂]
  · omega
  · omega
  · omega

theorem twoTxHeader_verified : twoTxNode.engine.verifyBlock twoTxEnv.reader twoTxHeader
    twoTxEnv.dposOrders = .ok () := by
  rw [DposEngine.verifyBlock_eq_ok_iff (by decide)]
  refine ⟨DposEngine.graph2ValidatorStocks twoTxGraph, rfl, by decide +kernel,
    Finset.filter_subset _ _, ?_⟩
  decide +kernel

def twoTxWaiting : GenProcess ℕ ℕ ℕ ℕ :=
  { newGenProcess 2 with
    curLeader := 1, nextLeader := 2, role := .validator, state := .minerResultVerify
    preBlockHash := 0, trace := [.blockInsertNotify twoTxHeader] }

variable {txs : List ℕ}

theorem twoTxHeader_runTxs (node : GenNode ℕ ℕ ℕ) (h : txs = [1,2] ∨ txs = [2,1]) :
    GenProcess.runTxs node twoTxEnv twoTxHeader (node.engine.hashNoSignsAndNonce twoTxHeader) txs =
      .ok (txs,8) := by
  rcases h with rfl | rfl
  · exact if_neg (not_not.mpr rfl)
  · exact if_neg (not_not.mpr rfl)

theorem twoTxWaiting_accepts (h : txs = [1,2] ∨ txs = [2,1]) :
    GenProcess.AcceptsFullBlock twoTxNode twoTxEnv twoTxWaiting twoTxHeader txs where
  unknown := GenProcess.getBlockDataByBlockHash_empty rfl _
  sealed := rfl
  agreed := twoTxHeader_verified
  executed := ⟨_, twoTxHeader_runTxs _ h⟩

theorem twoTxRun_trace (h : txs = [1,2] ∨ txs = [2,1]) :
    ∃ p, run (genStep twoTxNode) (newGenProcess 2) (twoTxRun txs) = .ok p ∧
      p.trace = [.blockInsertNotify twoTxHeader, .dposVerified twoTxHeader,
        .newBlockReady twoTxHeader, .writeBlock (twoTxNode.hashing.newBlockWithTxs twoTxHeader txs),
        .chainEvent (twoTxNode.hashing.newBlockWithTxs twoTxHeader txs) true,
        .headerGenerateReq 3] := by
  refine ⟨twoTxWaiting.processFullBlockRsp twoTxNode twoTxEnv twoTxHeader txs, rfl, ?_⟩
  rw [(twoTxWaiting_accepts h).processFullBlockRsp_eq (twoTxHeader_runTxs _ h)]
  rfl

/-- The signed block with its transactions swapped is written under a hash that nobody
signed. -/
theorem swapped_txs_written :
    twoTxNode.engine.SeparatesTxHash ∧ isBroadcastNumber 2 = false ∧
      ∃ p, run (genStep twoTxNode) (newGenProcess 2) (twoTxRun [2,1]) = .ok p ∧
        ¬ p.WritesVerified twoTxNode 2 := by
  obtain ⟨p, hrun, htrace⟩ := twoTxRun_trace (Or.inr rfl)
  refine ⟨twoTxNode_separatesTxHash, by decide, p, hrun, ?_⟩
  intro hwrites
  obtain ⟨header, hverified, -, hhash⟩ :=
    hwrites (twoTxNode.hashing.newBlockWithTxs twoTxHeader [2,1]) (by simp [htrace])
  have hheader : header = twoTxHeader := by simpa [htrace] using hverified
  have htx := twoTxNode_separatesTxHash _ _ hhash
  rw [hheader] at htx
  exact absurd htx (by decide)

/-- In its own order the block is written as it was signed. -/
theorem genRun_writesVerified_in_order :
    ∃ p, run (genStep twoTxNode) (newGenProcess 2) (twoTxRun [1,2]) = .ok p ∧
      .writeBlock (twoTxNode.hashing.newBlockWithTxs twoTxHeader [1,2]) ∈ p.trace ∧
      p.WritesVerified twoTxNode 2 := by
  obtain ⟨p, hrun, htrace⟩ := twoTxRun_trace (Or.inl rfl)
  have htxs : ∀ input ∈ twoTxRun [1,2], input.2.TxsMatch twoTxNode.hashing := by
    simp [twoTxRun, GenEvent.TxsMatch, twoTxHeader, twoTxNode, addingProposal]
  have hwrites :=
    GenProcess.genRun_writesVerified twoTxNode twoTxNode_separatesTxHash (by decide) htxs hrun
  exact ⟨p, hrun, by simp [htrace], hwrites.1⟩

end Sample

end MatrixNode
