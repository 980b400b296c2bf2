import MatrixNode.BlockGenSafety

/-! `blockgenor/pow_pool.go` over whole sequences of calls: what the pool holds, what its counters
say of it, and which of the results the block generation finds again. -/
namespace MatrixNode
open GoLib GoMap Finmap PowPool Option Finset

abbrev BlockPowCache (Hash : Type) := GoMap (BitVec 256) (GoMap Address (MiningRspMsg Hash))

namespace BlockPowCache
variable {Hash : Type} (bpc : BlockPowCache Hash)

/-- The map of a difficulty is made before its senders are looked at. -/
def addPow (diff : ℤ) (minerResult : MiningRspMsg Hash) :
    BlockPowCache Hash × Except GoError Unit :=
  let diffHash := powDiffHash diff
  let bpc := if diffHash ∈ bpc then bpc else bpc.insert diffHash ∅
  let fromMap := (bpc.lookup diffHash).getD ∅
  if minerResult.fromAccount ∈ fromMap then (bpc,.error (.error "pow is already exist"))
  else (bpc.insert diffHash (fromMap.insert minerResult.fromAccount minerResult),.ok ())

/-- Whether something was deleted is read off the length of the map. -/
def delPow (diff : ℤ) (account : Address) : BlockPowCache Hash × Bool :=
  let diffHash := powDiffHash diff
  match bpc.lookup diffHash with
  | none => (bpc,false)
  | some fromMap =>
    let beforeLen := len fromMap
    let fromMap := fromMap.erase account
    (bpc.insert diffHash fromMap,beforeLen != len fromMap)

/-- The map that was just made is empty, so that the result is not refused. -/
theorem addPow_eq (diff : ℤ) (minerResult : MiningRspMsg Hash) :
    bpc.addPow diff minerResult =
      if minerResult.fromAccount ∈ (bpc.lookup (powDiffHash diff)).getD ∅ then
        (bpc,.error (.error "pow is already exist"))
      else
        (bpc.insert (powDiffHash diff) (((bpc.lookup (powDiffHash diff)).getD ∅).insert
          minerResult.fromAccount minerResult),.ok ()) := by
  unfold addPow
  by_cases hmem : powDiffHash diff ∈ bpc
  · simp only [if_pos hmem]
  · have hnone := lookup_eq_none.mpr hmem
    have hempty : minerResult.fromAccount ∉ (∅ : GoMap Address (MiningRspMsg Hash)) := notMem_empty
    simp only [if_neg hmem, lookup_insert, hnone, getD_some, getD_none,
      if_neg hempty, insert_insert]

theorem delPow_eq (diff : ℤ) (account : Address) :
    bpc.delPow diff account = if account ∈ (bpc.lookup (powDiffHash diff)).getD ∅ then
        (bpc.insert (powDiffHash diff) (((bpc.lookup (powDiffHash diff)).getD ∅).erase account),true)
      else (bpc,false) := by
  unfold delPow
  dsimp only
  cases hlookup : bpc.lookup (powDiffHash diff) with
  | none =>
    have hempty : account ∉ (∅ : GoMap Address (MiningRspMsg Hash)) := notMem_empty
    rw [getD_none, if_neg hempty]
  | some fromMap =>
    rw [getD_some]
    dsimp only
    split_ifs with hmem
    · have hlen : len fromMap ≠ len (fromMap.erase account) := by
        have hkeys : account ∈ fromMap.keys := mem_keys.mpr hmem
        have hcard := card_erase_lt_of_mem hkeys
        rw [len, len, keys_erase]
        exact ne_of_gt hcard
      rw [bne_iff_ne.mpr hlen]
    · have herase : fromMap.erase account = fromMap := by
        apply ext_lookup
        intro a
        by_cases ha : a = account
        · rw [ha, lookup_erase, lookup_eq_none.mpr hmem]
        · exact lookup_erase_ne ha
      rw [herase, insert_eq_self hlookup, bne_self_eq_false]

end BlockPowCache

namespace PowPool
variable {Hash : Type} (pool : PowPool Hash)

def plusFromCount (address : Address) : PowPool Hash :=
  match pool.countMap.lookup address with
  | none => { pool with countMap := pool.countMap.insert address 1 }
  | some count => { pool with countMap := pool.countMap.insert address (count+1) }

theorem plusFromCount_eq (address : Address) :
    pool.plusFromCount address =
      { pool with countMap := pool.countMap.insert address (pool.getFromCount address+1) } := by
  unfold plusFromCount getFromCount
  cases pool.countMap.lookup address with
  | none => rfl
  | some count => rfl

variable [DecidableEq Hash]

namespace InPlace

/-- `AddMinerResult`: the pool it leaves, also where it fails. -/
def addMinerResult (blockHash : Hash) (diff : ℤ) (minerResult : MiningRspMsg Hash) :
    PowPool Hash × Except GoError Unit :=
  if pool.countLimit ≤ pool.getFromCount minerResult.fromAccount then
    (pool,.error (.error "from account had send too much mining result!"))
  else
    let pool := if blockHash ∈ pool.powMap then pool
      else { pool with powMap := pool.powMap.insert blockHash ∅ }
    let (blockCache,err) :=
      BlockPowCache.addPow ((pool.powMap.lookup blockHash).getD ∅) diff minerResult
    let pool := { pool with powMap := pool.powMap.insert blockHash blockCache }
    match err with
    | .error e => (pool,.error e)
    | .ok _ => (pool.plusFromCount minerResult.fromAccount,.ok ())

def delOneResult (blockHash : Hash) (diff : ℤ) (account : Address) : PowPool Hash :=
  match pool.powMap.lookup blockHash with
  | none => pool
  | some blockCache =>
    let (blockCache,success) := BlockPowCache.delPow blockCache diff account
    let pool := { pool with powMap := pool.powMap.insert blockHash blockCache }
    if success then pool.minusFromCount account else pool

/-- A refused result leaves no new map behind: the limit is checked before any map is made, and a
sender who is there already has its maps. -/
theorem addMinerResult_eq (blockHash : Hash) (diff : ℤ) (minerResult : MiningRspMsg Hash) :
    addMinerResult pool blockHash diff minerResult =
      ((pool.addMinerResult blockHash diff minerResult).toOption.getD pool,
        (pool.addMinerResult blockHash diff minerResult).map fun _ => ()) := by
  unfold addMinerResult PowPool.addMinerResult
  dsimp only
  split_ifs with hlimit hblock hexists hexists
  · rfl
  · obtain ⟨blockCache, hcache⟩ := mem_iff.mp hblock
    rw [fromMap, hcache, getD_some] at hexists
    rw [hcache, getD_some, BlockPowCache.addPow_eq, if_pos hexists]
    rw [insert_eq_self hcache]
    rfl
  · rw [fromMap] at hexists
    rw [BlockPowCache.addPow_eq, if_neg hexists]
    rw [plusFromCount_eq]
    rfl
  · rw [fromMap, lookup_eq_none.mpr hblock] at hexists
    exact absurd hexists notMem_empty
  · have hnone := lookup_eq_none.mpr hblock
    rw [fromMap, hnone, getD_none] at hexists
    rw [lookup_insert, getD_some, BlockPowCache.addPow_eq]
    rw [plusFromCount_eq, insert_insert]
    unfold setFromMap fromMap
    rw [hnone]
    rfl

theorem delOneResult_eq (blockHash : Hash) (diff : ℤ) (account : Address) :
    delOneResult pool blockHash diff account = pool.delOneResult blockHash diff account := by
  unfold delOneResult PowPool.delOneResult
  cases hcache : pool.powMap.lookup blockHash with
  | none =>
    have hempty : account ∉ pool.fromMap blockHash diff := by
      rw [fromMap, hcache]
      exact notMem_empty
    rw [if_neg hempty]
  | some blockCache =>
    have hfrom : pool.fromMap blockHash diff = (blockCache.lookup (powDiffHash diff)).getD ∅ := by
      rw [fromMap, hcache, getD_some]
    dsimp only
    rw [BlockPowCache.delPow_eq, ← hfrom]
    by_cases hmem : account ∈ pool.fromMap blockHash diff
    · rw [if_pos hmem, if_pos rfl, if_pos hmem]
      unfold setFromMap
      rw [hcache, getD_some]
    · rw [if_neg hmem, if_neg Bool.false_ne_true, if_neg hmem]
      rw [insert_eq_self hcache]

end InPlace

def resultAt (place : Hash × BitVec 256 × Address) : Option (MiningRspMsg Hash) :=
  ((((pool.powMap.lookup place.1).getD ∅).lookup place.2.1).getD ∅).lookup place.2.2

def places : Finset (Hash × BitVec 256 × Address) :=
  pool.powMap.keys.biUnion fun h =>
    ((pool.powMap.lookup h).getD ∅).keys.biUnion fun k =>
      ((((pool.powMap.lookup h).getD ∅).lookup k).getD ∅).keys.image fun a => (h,k,a)

def resultsFrom (account : Address) : Finset (Hash × BitVec 256 × Address) :=
  pool.places.filter fun place => (pool.resultAt place).any fun r => r.fromAccount = account

theorem mem_of_lookup_getD {K V W : Type} [DecidableEq K] [DecidableEq V] {m : GoMap K (GoMap V W)}
    {k : K} {v : V} {w : W} (h : ((m.lookup k).getD ∅).lookup v = some w) : k ∈ m.keys := by
  cases hk : m.lookup k with
  | none =>
    rw [hk, getD_none] at h
    cases h
  | some m' => exact mem_keys.mpr (mem_iff.mpr ⟨m', hk⟩)

variable {pool}

variable {place : Hash × BitVec 256 × Address}

theorem mem_places : place ∈ pool.places ↔ ∃ r, pool.resultAt place = some r := by
  obtain ⟨h, k, a⟩ := place
  simp only [places, mem_biUnion, mem_image, Prod.mk.injEq]
  constructor
  · rintro ⟨_, -, _, -, _, ha, rfl, rfl, rfl⟩
    exact mem_iff.mp (mem_keys.mp ha)
  · rintro ⟨r, hr⟩
    have hk := mem_of_lookup_getD hr
    obtain ⟨m, hm⟩ := mem_iff.mp (mem_keys.mp hk)
    have ha : a ∈ ((((pool.powMap.lookup h).getD ∅).lookup k).getD ∅).keys :=
      mem_keys.mpr (mem_iff.mpr ⟨r, hr⟩)
    exact ⟨h, mem_of_lookup_getD hm, k, hk, a, ha, rfl, rfl, rfl⟩

theorem mem_resultsFrom {account : Address} :
    place ∈ pool.resultsFrom account ↔
      ∃ r, pool.resultAt place = some r ∧ r.fromAccount = account := by
  rw [resultsFrom, mem_filter, mem_places, any_eq_true]
  constructor
  · rintro ⟨-, r, hr, haccount⟩
    exact ⟨r, hr, of_decide_eq_true haccount⟩
  · rintro ⟨r, hr, haccount⟩
    exact ⟨⟨r, hr⟩, r, hr, decide_eq_true haccount⟩

variable (pool)

theorem lookup_fromMap (blockHash : Hash) (diff : ℤ) (account : Address) :
    (pool.fromMap blockHash diff).lookup account =
      pool.resultAt (blockHash,powDiffHash diff,account) := rfl

theorem resultAt_setFromMap (blockHash : Hash) (diff : ℤ) (m : GoMap Address (MiningRspMsg Hash))
    (place : Hash × BitVec 256 × Address) :
    (pool.setFromMap blockHash diff m).resultAt place =
      if place.1 = blockHash ∧ place.2.1 = powDiffHash diff then m.lookup place.2.2
      else pool.resultAt place := by
  obtain ⟨h, k, a⟩ := place
  unfold resultAt setFromMap
  by_cases hh : h = blockHash
  · subst hh
    rw [lookup_insert, getD_some]
    by_cases hk : k = powDiffHash diff
    · rw [hk, lookup_insert, if_pos ⟨rfl, rfl⟩, getD_some]
    · rw [lookup_insert_of_ne _ hk, if_neg (fun hc => hk hc.2)]
  · rw [lookup_insert_of_ne _ hh, if_neg (fun hc => hh hc.1)]

theorem resultAt_setFromMap_of_lookup {blockHash : Hash} {diff : ℤ} {account : Address}
    {m : GoMap Address (MiningRspMsg Hash)}
    (hm : ∀ a, a ≠ account → m.lookup a = (pool.fromMap blockHash diff).lookup a)
    (place : Hash × BitVec 256 × Address) :
    (pool.setFromMap blockHash diff m).resultAt place =
      if place = (blockHash,powDiffHash diff,account) then m.lookup account
      else pool.resultAt place := by
  obtain ⟨h, k, a⟩ := place
  rw [resultAt_setFromMap]
  by_cases hplace : h = blockHash ∧ k = powDiffHash diff
  · obtain ⟨rfl, rfl⟩ := hplace
    rw [if_pos ⟨rfl, rfl⟩]
    by_cases ha : a = account
    · rw [if_pos (by rw [ha]), ha]
    · rw [if_neg (fun hc => ha (congrArg (fun e => e.2.2) hc))]
      exact hm a ha
  · rw [if_neg hplace, if_neg]
    rintro hc
    cases hc
    exact hplace ⟨rfl, rfl⟩

@[simp] theorem resultAt_minusFromCount (account : Address) (place : Hash × BitVec 256 × Address) :
    (pool.minusFromCount account).resultAt place = pool.resultAt place := by
  unfold minusFromCount
  cases pool.countMap.lookup account with
  | none => rfl
  | some count => rfl

omit [DecidableEq Hash] in
theorem getFromCount_minusFromCount (account a : Address) :
    (pool.minusFromCount account).getFromCount a =
      if a = account then pool.getFromCount a-1 else pool.getFromCount a := by
  unfold minusFromCount getFromCount
  cases hcount : pool.countMap.lookup account with
  | none =>
    split_ifs with ha
    · rw [ha, hcount]
      rfl
    · rfl
  | some count =>
    split_ifs with ha
    · rw [ha, lookup_insert, hcount]
      rfl
    · rw [lookup_insert_of_ne _ ha]

structure Accepts (pool pool' : PowPool Hash) (blockHash : Hash) (diff : ℤ)
    (minerResult : MiningRspMsg Hash) : Prop where
  below : pool.getFromCount minerResult.fromAccount < pool.countLimit
  free : pool.resultAt (blockHash,powDiffHash diff,minerResult.fromAccount) = none
  resultAt_eq : ∀ place, pool'.resultAt place =
    if place = (blockHash,powDiffHash diff,minerResult.fromAccount) then some minerResult
    else pool.resultAt place
  count_eq : ∀ a, pool'.getFromCount a =
    if a = minerResult.fromAccount then pool.getFromCount a+1 else pool.getFromCount a
  limit_eq : pool'.countLimit = pool.countLimit

structure Deletes (pool pool' : PowPool Hash) (blockHash : Hash) (diff : ℤ) (account : Address) :
    Prop where
  found : ∃ r, pool.resultAt (blockHash,powDiffHash diff,account) = some r
  resultAt_eq : ∀ place, pool'.resultAt place =
    if place = (blockHash,powDiffHash diff,account) then none else pool.resultAt place
  count_eq : ∀ a, pool'.getFromCount a =
    if a = account then pool.getFromCount a-1 else pool.getFromCount a
  limit_eq : pool'.countLimit = pool.countLimit

variable {pool}

theorem accepts_of_addMinerResult {pool' : PowPool Hash} {blockHash : Hash} {diff : ℤ}
    {minerResult : MiningRspMsg Hash}
    (h : pool.addMinerResult blockHash diff minerResult = .ok pool') :
    Accepts pool pool' blockHash diff minerResult := by
  unfold PowPool.addMinerResult at h
  dsimp only at h
  split_ifs at h with hlimit hexists
  cases h
  refine ⟨not_le.mp hlimit, lookup_eq_none.mpr hexists, ?_, ?_, rfl⟩
  · intro place
    have hframe : ∀ a, a ≠ minerResult.fromAccount →
        ((pool.fromMap blockHash diff).insert minerResult.fromAccount minerResult).lookup a =
          (pool.fromMap blockHash diff).lookup a :=
      fun a ha => lookup_insert_of_ne _ ha
    have hset := resultAt_setFromMap_of_lookup pool hframe place
    rw [lookup_insert] at hset
    exact hset
  · intro a
    unfold getFromCount setFromMap
    split_ifs with ha
    · rw [ha, lookup_insert]
      rfl
    · rw [lookup_insert_of_ne _ ha]

variable (pool) in
theorem delOneResult_cases (blockHash : Hash) (diff : ℤ) (account : Address) :
    pool.delOneResult blockHash diff account = pool ∨
      Deletes pool (pool.delOneResult blockHash diff account) blockHash diff account := by
  unfold PowPool.delOneResult
  split_ifs with hmem
  · right
    refine ⟨mem_iff.mp hmem, ?_, ?_, ?_⟩
    · intro place
      have hframe : ∀ a, a ≠ account → ((pool.fromMap blockHash diff).erase account).lookup a =
          (pool.fromMap blockHash diff).lookup a :=
        fun a ha => lookup_erase_ne ha
      rw [resultAt_minusFromCount, resultAt_setFromMap_of_lookup pool hframe, lookup_erase]
    · intro a
      rw [getFromCount_minusFromCount]
      rfl
    · unfold minusFromCount
      cases (pool.setFromMap blockHash diff
        ((pool.fromMap blockHash diff).erase account)).countMap.lookup account with
      | none => rfl
      | some count => rfl
  · exact Or.inl rfl

inductive Call (Hash : Type)
  | addMinerResult (blockHash : Hash) (diff : ℤ) (minerResult : MiningRspMsg Hash)
  | delOneResult (blockHash : Hash) (diff : ℤ) (account : Address)

def call (pool : PowPool Hash) : Call Hash → PowPool Hash
  | .addMinerResult blockHash diff minerResult =>
    (InPlace.addMinerResult pool blockHash diff minerResult).1
  | .delOneResult blockHash diff account => InPlace.delOneResult pool blockHash diff account

inductive Calls (pool pool' : PowPool Hash) : Call Hash → Prop
  | nothing {c : Call Hash} (h : pool' = pool) : Calls pool pool' c
  | accepts {blockHash : Hash} {diff : ℤ} {minerResult : MiningRspMsg Hash}
      (h : Accepts pool pool' blockHash diff minerResult) :
      Calls pool pool' (.addMinerResult blockHash diff minerResult)
  | deletes {blockHash : Hash} {diff : ℤ} {account : Address}
      (h : Deletes pool pool' blockHash diff account) :
      Calls pool pool' (.delOneResult blockHash diff account)

variable (pool) in
theorem calls_call (c : Call Hash) : Calls pool (pool.call c) c := by
  cases c with
  | addMinerResult blockHash diff minerResult =>
    rw [call, InPlace.addMinerResult_eq]
    cases hadd : pool.addMinerResult blockHash diff minerResult with
    | error e => exact .nothing rfl
    | ok pool' => exact .accepts (accepts_of_addMinerResult hadd)
  | delOneResult blockHash diff account =>
    rw [call, InPlace.delOneResult_eq]
    rcases delOneResult_cases pool blockHash diff account with hnothing | hdel
    · exact .nothing hnothing
    · exact .deletes hdel

structure Counted (pool : PowPool Hash) : Prop where
  sender : ∀ place r, pool.resultAt place = some r → r.fromAccount = place.2.2
  count_eq : ∀ account, pool.getFromCount account = (pool.resultsFrom account).card
  count_le : ∀ account, pool.getFromCount account ≤ pool.countLimit
  limit_eq : pool.countLimit = votePoolCountLimit

theorem counted_newPowPool : Counted (newPowPool : PowPool Hash) where
  sender place r hr := by
    cases hr
  count_eq account := by
    have hempty : (newPowPool : PowPool Hash).resultsFrom account = ∅ := by
      apply eq_empty_of_forall_notMem
      intro place hplace
      obtain ⟨r, hr, -⟩ := mem_resultsFrom.mp hplace
      cases hr
    rfl
  count_le account := Nat.zero_le _
  limit_eq := rfl

section Accepted
variable {pool' : PowPool Hash} {blockHash : Hash} {diff : ℤ} {minerResult : MiningRspMsg Hash}

/-- At the new place nothing was stored before. -/
theorem Accepts.resultsFrom_eq (h : Accepts pool pool' blockHash diff minerResult)
    (account : Address) :
    pool'.resultsFrom account = if account = minerResult.fromAccount then
        insert (blockHash,powDiffHash diff,minerResult.fromAccount) (pool.resultsFrom account)
      else pool.resultsFrom account := by
  ext place
  by_cases hplace : place = (blockHash,powDiffHash diff,minerResult.fromAccount)
  · have hold : place ∉ pool.resultsFrom account := by
      rw [mem_resultsFrom, hplace, h.free]
      rintro ⟨r, hr, -⟩
      cases hr
    have hnew : place ∈ pool'.resultsFrom account ↔ minerResult.fromAccount = account := by
      rw [mem_resultsFrom, h.resultAt_eq, if_pos hplace]
      simp
    rw [hnew]
    split_ifs with haccount
    · exact iff_of_true haccount.symm (hplace ▸ mem_insert_self ..)
    · exact iff_of_false (fun hc => haccount hc.symm) hold
  · have hframe : place ∈ pool'.resultsFrom account ↔ place ∈ pool.resultsFrom account := by
      rw [mem_resultsFrom, mem_resultsFrom, h.resultAt_eq, if_neg hplace]
    rw [hframe]
    split_ifs
    · rw [Finset.mem_insert, or_iff_right hplace]
    · rfl

theorem Accepts.counted (h : Accepts pool pool' blockHash diff minerResult) (hpool : Counted pool) :
    Counted pool' := by
  refine ⟨?_, ?_, ?_, h.limit_eq.trans hpool.limit_eq⟩
  · intro place r hr
    rw [h.resultAt_eq] at hr
    split_ifs at hr with hplace
    · cases hr
      rw [hplace]
    · exact hpool.sender place r hr
  · intro account
    rw [h.count_eq, h.resultsFrom_eq, hpool.count_eq]
    split_ifs with haccount
    · rw [card_insert_of_notMem]
      rw [mem_resultsFrom, h.free]
      rintro ⟨r, hr, -⟩
      cases hr
    · rfl
  · intro account
    rw [h.count_eq, h.limit_eq]
    split_ifs with haccount
    · rw [haccount]
      exact h.below
    · exact hpool.count_le account

end Accepted

section Deleted
variable {pool' : PowPool Hash} {blockHash : Hash} {diff : ℤ} {account : Address}

theorem Deletes.resultsFrom_eq (h : Deletes pool pool' blockHash diff account) (a : Address) :
    pool'.resultsFrom a = (pool.resultsFrom a).erase (blockHash,powDiffHash diff,account) := by
  ext place
  rw [Finset.mem_erase, mem_resultsFrom, mem_resultsFrom, h.resultAt_eq]
  split_ifs with hplace
  · simp [hplace]
  · simp [hplace]

/-- A result of another account is not at the place that was cleared. -/
theorem Deletes.counted (h : Deletes pool pool' blockHash diff account) (hpool : Counted pool) :
    Counted pool' := by
  obtain ⟨r, hr⟩ := h.found
  have hsender : r.fromAccount = account := hpool.sender _ r hr
  have hcount : ∀ a, pool'.getFromCount a ≤ pool.getFromCount a := by
    intro a
    rw [h.count_eq]
    split_ifs
    · exact Nat.sub_le _ _
    · exact le_rfl
  refine ⟨?_, ?_, ?_, h.limit_eq.trans hpool.limit_eq⟩
  · intro place r' hr'
    rw [h.resultAt_eq] at hr'
    split_ifs at hr'
    exact hpool.sender place r' hr'
  · intro a
    rw [h.count_eq, h.resultsFrom_eq, hpool.count_eq]
    split_ifs with ha
    · rw [card_erase_of_mem]
      exact mem_resultsFrom.mpr ⟨r, hr, hsender.trans ha.symm⟩
    · rw [erase_eq_of_notMem]
      intro hmem
      obtain ⟨r', hr', ha'⟩ := mem_resultsFrom.mp hmem
      rw [hr] at hr'
      cases hr'
      exact ha (ha'.symm.trans hsender)
  · intro a
    rw [h.limit_eq]
    exact (hcount a).trans (hpool.count_le a)

end Deleted

theorem Counted.call (hpool : Counted pool) (c : Call Hash) : Counted (pool.call c) := by
  cases calls_call pool c with
  | nothing h => rwa [h]
  | accepts h => exact h.counted hpool
  | deletes h => exact h.counted hpool

theorem counted_calls (calls : List (Call Hash)) : Counted (calls.foldl call newPowPool) :=
  List.foldlRecOn calls call counted_newPowPool fun _ hpool c _ => hpool.call c

/-- After any calls the counter of an account is the number of its stored results, within the limit;
a refused result leaves the pool as it was. -/
theorem getFromCount_eq_card_resultsFrom (calls : List (Call Hash)) :
    (∀ account,
      (calls.foldl call newPowPool).getFromCount account =
          ((calls.foldl call newPowPool).resultsFrom account).card ∧
        (calls.foldl call newPowPool).getFromCount account ≤ votePoolCountLimit) ∧
      ∀ blockHash diff (minerResult : MiningRspMsg Hash),
        (InPlace.addMinerResult (calls.foldl call newPowPool) blockHash diff
            minerResult).2 = .ok () ∨
          (InPlace.addMinerResult (calls.foldl call newPowPool) blockHash diff
            minerResult).1 = calls.foldl call newPowPool := by
  have hpool := counted_calls calls
  refine ⟨?_, ?_⟩
  · intro account
    have hle := hpool.count_le account
    rw [hpool.limit_eq] at hle
    exact ⟨hpool.count_eq account, hle⟩
  · intro blockHash diff minerResult
    rw [InPlace.addMinerResult_eq]
    cases (calls.foldl call newPowPool).addMinerResult blockHash diff minerResult with
    | error e => exact Or.inr rfl
    | ok pool' => exact Or.inl rfl

/-- Both callers of `AddMinerResult` pass the block and the difficulty of the result itself. -/
def Call.Own : Call Hash → Prop
  | .addMinerResult blockHash diff minerResult =>
    minerResult.blockHash = blockHash ∧ minerResult.difficulty = diff
  | .delOneResult _ _ _ => True

def Stored (pool : PowPool Hash) (r : MiningRspMsg Hash) : Prop :=
  ∃ place, pool.resultAt place = some r

def Filed (pool : PowPool Hash) : Prop :=
  ∀ place r, pool.resultAt place = some r →
    place = (r.blockHash,powDiffHash r.difficulty,r.fromAccount)

theorem Filed.call (hpool : Filed pool) {c : Call Hash} (hc : c.Own) : Filed (pool.call c) := by
  intro place r hr
  cases calls_call pool c with
  | nothing h =>
    rw [h] at hr
    exact hpool place r hr
  | accepts h =>
    rw [h.resultAt_eq] at hr
    split_ifs at hr with hplace
    · cases hr
      rw [hplace, hc.1, hc.2]
    · exact hpool place r hr
  | deletes h =>
    rw [h.resultAt_eq] at hr
    split_ifs at hr
    exact hpool place r hr

theorem filed_calls (calls : List (Call Hash)) (hcalls : ∀ c ∈ calls, c.Own) :
    Filed (calls.foldl call newPowPool) := by
  refine List.foldlRecOn (motive := Filed) calls call ?_ ?_
  · intro place r hr
    cases hr
  · intro pool hpool c hc
    exact hpool.call (hcalls c hc)

/-- Nothing is stored that was not delivered. -/
theorem stored_of_calls {calls : List (Call Hash)} {r : MiningRspMsg Hash}
    (h : (calls.foldl call newPowPool).Stored r) :
    ∃ blockHash diff, Call.addMinerResult blockHash diff r ∈ calls := by
  revert r
  refine List.foldlRecOn (motive := fun pool => ∀ {r}, pool.Stored r →
    ∃ blockHash diff, Call.addMinerResult blockHash diff r ∈ calls) calls call ?_ ?_
  · rintro r ⟨place, hr⟩
    cases hr
  · rintro pool hpool c hc r ⟨place, hr⟩
    cases calls_call pool c with
    | nothing h =>
      rw [h] at hr
      exact hpool ⟨place, hr⟩
    | accepts h =>
      rw [h.resultAt_eq] at hr
      split_ifs at hr
      · cases hr
        exact ⟨_, _, hc⟩
      · exact hpool ⟨place, hr⟩
    | deletes h =>
      rw [h.resultAt_eq] at hr
      split_ifs at hr
      exact hpool ⟨place, hr⟩

/-- The results that `dealMinerResultVerifyCommon` has to choose from for a block with a header of
the given difficulty. -/
def retrieved (pool : PowPool Hash) (order : Ranger Address (MiningRspMsg Hash))
    (blockHash : Hash) (difficulty : ℕ) : List (MiningRspMsg Hash) :=
  (pool.getMinerResults order blockHash (bigInt64 difficulty)).toOption.getD []

theorem mem_retrieved (order : Ranger Address (MiningRspMsg Hash)) (blockHash : Hash)
    (difficulty : ℕ) (r : MiningRspMsg Hash) :
    r ∈ pool.retrieved order blockHash difficulty ↔
      ∃ a, pool.resultAt (blockHash,powDiffHash (bigInt64 difficulty),a) = some r := by
  unfold retrieved getMinerResults
  have hrange := order.isRange (pool.fromMap blockHash (bigInt64 difficulty))
  by_cases hblock : blockHash ∈ pool.powMap
  · split_ifs with hlen
    · have hempty := eq_empty_of_len_eq_zero (Nat.not_lt.mpr (le_of_eq hlen))
      simp [Except.toOption, ← lookup_fromMap, hempty]
    · simp [Except.toOption, ← lookup_fromMap, hrange.mem_iff]
  · have hempty : pool.fromMap blockHash (bigInt64 difficulty) = ∅ := by
      rw [fromMap, lookup_eq_none.mpr hblock]
      rfl
    rw [if_pos hblock]
    simp [Except.toOption, ← lookup_fromMap, hempty]

def RetrievesExactly (pool : PowPool Hash) (order : Ranger Address (MiningRspMsg Hash))
    (blockHash : Hash) (difficulty : ℕ) : Prop :=
  ∀ r, r ∈ pool.retrieved order blockHash difficulty ↔
    pool.Stored r ∧ r.blockHash = blockHash ∧ r.difficulty = difficulty

end PowPool

theorem powDiffHash_eq_iff (d d' : ℤ) :
    powDiffHash d = powDiffHash d' ↔ d.natAbs % 2^256 = d'.natAbs % 2^256 := by
  unfold powDiffHash
  rw [← BitVec.toNat_inj, bytesToHash_toNat, bytesToHash_toNat, beNat_beBytes, beNat_beBytes]

theorem natAbs_bigInt64_le (d : ℕ) : (bigInt64 d).natAbs ≤ 2^63 := by
  have hlt := BitVec.two_mul_toInt_lt (x := BitVec.ofNat 64 d)
  have hge := BitVec.le_two_mul_toInt (x := BitVec.ofNat 64 d)
  unfold bigInt64
  omega

theorem natAbs_bigInt64_eq_iff (d : ℕ) : (bigInt64 d).natAbs = d ↔ d ≤ 2^63 := by
  constructor
  · intro h
    have hle := natAbs_bigInt64_le d
    omega
  · intro h
    unfold bigInt64
    rw [BitVec.toInt_eq_toNat_cond, BitVec.toNat_ofNat]
    split_ifs <;> omega

namespace PowPool
variable {Hash : Type} [DecidableEq Hash] {pool : PowPool Hash}

theorem Filed.mem_retrieved_iff (hpool : Filed pool)
    (order : Ranger Address (MiningRspMsg Hash)) (blockHash : Hash) (difficulty : ℕ)
    (r : MiningRspMsg Hash) :
    r ∈ pool.retrieved order blockHash difficulty ↔
      pool.Stored r ∧ r.blockHash = blockHash ∧
        r.difficulty.natAbs % 2^256 = (bigInt64 difficulty).natAbs := by
  have hsmall : (bigInt64 difficulty).natAbs % 2^256 = (bigInt64 difficulty).natAbs := by
    have hle := natAbs_bigInt64_le difficulty
    apply Nat.mod_eq_of_lt
    omega
  rw [mem_retrieved, ← hsmall, ← powDiffHash_eq_iff]
  constructor
  · rintro ⟨a, ha⟩
    have hplace := hpool _ r ha
    simp only [Prod.mk.injEq] at hplace
    exact ⟨⟨_, ha⟩, hplace.1.symm, hplace.2.1.symm⟩
  · rintro ⟨⟨place, hr⟩, hblock, hkey⟩
    have hplace := hpool place r hr
    rw [hplace, hblock, hkey] at hr
    exact ⟨r.fromAccount, hr⟩

/-- Up to `2^63` the header's difficulty is not cut, and only another number with its last 256 bits
can get in the way. Above that every result with it is missed, and those with what the cut leaves are
found. -/
def KeepsDifficulty (pool : PowPool Hash) (blockHash : Hash) (difficulty : ℕ) : Prop :=
  ∀ r, pool.Stored r → r.blockHash = blockHash →
    if difficulty ≤ 2^63 then r.difficulty.natAbs % 2^256 = difficulty → r.difficulty = difficulty
    else r.difficulty ≠ difficulty ∧ r.difficulty.natAbs % 2^256 ≠ (bigInt64 difficulty).natAbs

theorem Filed.retrievesExactly_iff (hpool : Filed pool) (order : Ranger Address (MiningRspMsg Hash))
    (blockHash : Hash) {difficulty : ℕ} (hd : difficulty < 2^256) :
    pool.RetrievesExactly order blockHash difficulty ↔ pool.KeepsDifficulty blockHash difficulty := by
  have hexact : pool.RetrievesExactly order blockHash difficulty ↔
      ∀ r, pool.Stored r → r.blockHash = blockHash →
        (r.difficulty.natAbs % 2^256 = (bigInt64 difficulty).natAbs ↔ r.difficulty = difficulty) := by
    unfold RetrievesExactly
    simp only [hpool.mem_retrieved_iff, and_congr_right_iff]
  have hown_key : ∀ r : MiningRspMsg Hash, r.difficulty = difficulty →
      r.difficulty.natAbs % 2^256 = difficulty := by
    intro r hown
    rw [hown, Int.natAbs_natCast, Nat.mod_eq_of_lt hd]
  rw [hexact]
  refine forall₃_congr (fun r _ _ => ?_)
  by_cases hsmall : difficulty ≤ 2^63
  · rw [if_pos hsmall, (natAbs_bigInt64_eq_iff difficulty).mpr hsmall]
    exact ⟨Iff.mp, fun h => ⟨h, hown_key r⟩⟩
  · rw [if_neg hsmall]
    constructor
    · intro hr
      have hother : r.difficulty ≠ difficulty := by
        intro hown
        apply hsmall
        rw [← natAbs_bigInt64_eq_iff, ← hr.mpr hown, hown_key r hown]
      exact ⟨hother, fun hkey => hother (hr.mp hkey)⟩
    · intro hr
      exact iff_of_false hr.2 hr.1

end PowPool

namespace GenProcess
variable {Hash State Tx Receipt : Type} [DecidableEq Hash] (node : GenNode Hash Tx Receipt)
  (env : GenEnv Hash State Tx Receipt) (p : GenProcess Hash State Tx Receipt)

/-- What `dealMinerResultVerifyCommon` does with the results that it got. -/
def dealResults (key : Address) (data : BlockCacheData Hash State Tx Receipt)
    (results : List (MiningRspMsg Hash)) : GenProcess Hash State Tx Receipt :=
  match p.pickSatisfyMinerResults node env data.block.header results with
  | (p,.error _) => p
  | (p,.ok satisfyResult) =>
    let header := copyHeader data.block.header satisfyResult
    let p := { p with
      blockCache := p.blockCache.insert key ⟨{ data.block with header := header }, .ready⟩ }
    p.blockReady node env header

theorem dealMinerResultVerifyCommon_eq {leader key : Address}
    {data : BlockCacheData Hash State Tx Receipt} (hdata : p.workBlockData env leader = some (key,data))
    (hstate : data.state = .localVerified) :
    p.dealMinerResultVerifyCommon node env leader =
      p.dealResults node env key data (p.powPool.retrieved env.resultOrder data.block.blockHash
        data.block.header.difficulty) := by
  unfold dealMinerResultVerifyCommon retrieved
  rw [hdata]
  dsimp only
  rw [hstate]
  cases p.powPool.getMinerResults env.resultOrder data.block.blockHash
      (bigInt64 data.block.header.difficulty) with
  | error e => rfl
  | ok results => rfl

/-- After any calls on its pool the handler works on the results of `retrieved`, and these are exactly
the results for the block and its difficulty under the condition on what is stored. -/
theorem dealMinerResultVerifyCommon_retrieves_iff {calls : List (Call Hash)}
    (hcalls : ∀ c ∈ calls, c.Own) (hpool : p.powPool = calls.foldl call newPowPool)
    {leader key : Address} {data : BlockCacheData Hash State Tx Receipt}
    (hdata : p.workBlockData env leader = some (key,data)) (hstate : data.state = .localVerified)
    (hd : data.block.header.difficulty < 2^256) :
    p.dealMinerResultVerifyCommon node env leader = p.dealResults node env key data
      (p.powPool.retrieved env.resultOrder data.block.blockHash data.block.header.difficulty) ∧
    (p.powPool.RetrievesExactly env.resultOrder data.block.blockHash data.block.header.difficulty ↔
      p.powPool.KeepsDifficulty data.block.blockHash data.block.header.difficulty) := by
  refine ⟨p.dealMinerResultVerifyCommon_eq node env hdata hstate, ?_⟩
  have hfiled : Filed p.powPool := by
    rw [hpool]
    exact filed_calls calls hcalls
  exact hfiled.retrievesExactly_iff env.resultOrder data.block.blockHash hd

end GenProcess

namespace PowPool

def resultOfSeven (account : Address) (difficulty : ℤ) : MiningRspMsg ℕ :=
  ⟨account, 5, 7, difficulty, 0, 1, 0, []⟩

/-- One result of each account for the block 7. -/
def callsOfSeven (difficulties : List (Address × ℤ)) : List (Call ℕ) :=
  difficulties.map fun d => .addMinerResult 7 d.2 (resultOfSeven d.1 d.2)

def poolOfSeven (difficulties : List (Address × ℤ)) : PowPool ℕ :=
  (callsOfSeven difficulties).foldl call newPowPool

theorem own_callsOfSeven (difficulties : List (Address × ℤ)) :
    ∀ c ∈ callsOfSeven difficulties, c.Own := by
  intro c hc
  obtain ⟨d, -, rfl⟩ := List.mem_map.mp hc
  exact ⟨rfl, rfl⟩

theorem filed_poolOfSeven (difficulties : List (Address × ℤ)) : Filed (poolOfSeven difficulties) :=
  filed_calls _ (own_callsOfSeven difficulties)

theorem stored_poolOfSeven {difficulties : List (Address × ℤ)} {r : MiningRspMsg ℕ}
    (h : (poolOfSeven difficulties).Stored r) : ∃ d ∈ difficulties, r = resultOfSeven d.1 d.2 := by
  obtain ⟨blockHash, diff, hcall⟩ := stored_of_calls h
  simp only [callsOfSeven, List.mem_map, Call.addMinerResult.injEq] at hcall
  obtain ⟨d, hd, -, -, hr⟩ := hcall
  exact ⟨d, hd, hr.symm⟩

/-- A result with the difficulty `2^63+1` of the header is not found for the block, and one with the
difficulty `2^256+5` is found for the difficulty 5. -/
theorem retrieved_of_large_difficulty :
    ((poolOfSeven [(1,2^63+1)]).Stored (resultOfSeven 1 (2^63+1)) ∧
      (poolOfSeven [(1,2^63+1)]).retrieved accountOrder 7 (2^63+1) = []) ∧
    ((poolOfSeven [(1,2^256+5)]).Stored (resultOfSeven 1 (2^256+5)) ∧
      resultOfSeven 1 (2^256+5) ∈ (poolOfSeven [(1,2^256+5)]).retrieved accountOrder 7 5) := by
  have hlarge : (poolOfSeven [(1,2^256+5)]).Stored (resultOfSeven 1 (2^256+5)) :=
    ⟨(7,5,1), by decide +kernel⟩
  refine ⟨⟨⟨(7,2^63+1,1), by decide +kernel⟩, ?_⟩, hlarge, ?_⟩
  · apply List.eq_nil_iff_forall_not_mem.mpr
    intro r hr
    rw [(filed_poolOfSeven _).mem_retrieved_iff] at hr
    obtain ⟨hr, -, hkey⟩ := hr
    obtain ⟨d, hd, rfl⟩ := stored_poolOfSeven hr
    rw [List.mem_singleton.mp hd] at hkey
    exact absurd hkey (by decide +kernel)
  · rw [(filed_poolOfSeven _).mem_retrieved_iff]
    exact ⟨hlarge, rfl, by decide +kernel⟩

/-- A process with the block 7 of difficulty `2^63`, and with two results for it. -/
def processOfSeven : GenProcess ℕ ℕ ℕ ℕ :=
  let header : Header ℕ := { twoTxHeader with difficulty := 2^63 }
  { twoTxWaiting with
    powPool := poolOfSeven [(1,2^63),(2,5)]
    blockCache := (∅ : GoMap Address _).insert 1 ⟨⟨header, 7, [], [], none⟩, .localVerified⟩ }

theorem processOfSeven_retrieves :
    resultOfSeven 1 (2^63) ∈ processOfSeven.powPool.retrieved twoTxEnv.resultOrder 7 (2^63) ∧
    resultOfSeven 2 5 ∉ processOfSeven.powPool.retrieved twoTxEnv.resultOrder 7 (2^63) := by
  have hdata : processOfSeven.workBlockData twoTxEnv 1 = some (1,_) := rfl
  have hexact := (processOfSeven.dealMinerResultVerifyCommon_retrieves_iff twoTxNode twoTxEnv
    (own_callsOfSeven [(1,2^63),(2,5)]) rfl hdata rfl (by decide)).2.mpr (by
    intro r hr _
    obtain ⟨d, hd, rfl⟩ := stored_poolOfSeven hr
    rw [if_pos (by decide)]
    rcases List.mem_pair.mp hd with rfl | rfl <;> decide +kernel)
  refine ⟨(hexact _).mpr ⟨⟨(7,2^63,1), by decide +kernel⟩, rfl, rfl⟩, fun h => ?_⟩
  exact absurd ((hexact _).mp h).2.2 (by decide)

end PowPool

end MatrixNode
