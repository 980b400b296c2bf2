import Mathlib.Data.List.ReduceOption
import MatrixNode.BlockVerifyProcess
import MatrixNode.TxJson

/-! `txpoolCache/middle.go`: the proposals of a leader, kept with their transactions until their height
is reached. -/
namespace MatrixNode
open GoLib NumberedTxs List

structure TxCaChe (Hash : Type) extends TxCache where
  headHash : Hash

/-- Of transactions with the same first number the last one is kept. -/
def ntxOf (txs : List (Transaction × List UInt32)) : GoMap UInt32 Transaction :=
  txs.foldl (fun ntx tx =>
    match tx.2 with
    | [] => ntx
    | n :: _ => ntx.insert n tx.1) ∅

namespace TxCaChe
variable {Hash : Type} [DecidableEq Hash]

def makeStruck (list : List (TxCaChe Hash)) (txs : List (Transaction × List UInt32)) (hash : Hash)
    (h : ℕ) : List (TxCaChe Hash) :=
  list ++ [⟨⟨ntxOf txs, h⟩, hash⟩]

/-- What `DeleteTxCache` looks for. -/
def stale (hash : Hash) (h : ℕ) (c : TxCaChe Hash) : Bool :=
  c.height < h || (c.headHash ≠ hash && c.height = h)

/-- The list is cut in front of the first stale entry, which stays. -/
def deleteTxCache (list : List (TxCaChe Hash)) (hash : Hash) (h : ℕ) : List (TxCaChe Hash) :=
  match list.findIdx? (stale hash h) with
  | some i => list.drop i
  | none => list

inductive Call (Hash : Type) where
  | makeStruck (txs : List (Transaction × List UInt32)) (hash : Hash) (h : ℕ)
  | deleteTxCache (hash : Hash) (h : ℕ)

def Call.apply (list : List (TxCaChe Hash)) : Call Hash → List (TxCaChe Hash)
  | .makeStruck txs hash h => TxCaChe.makeStruck list txs hash h
  | .deleteTxCache hash h => TxCaChe.deleteTxCache list hash h

variable {list : List (TxCaChe Hash)} {hash : Hash} {h : ℕ}

theorem exists_stale_deleteTxCache (hstale : ∃ c ∈ list, stale hash h c = true) :
    ∃ c ∈ deleteTxCache list hash h, stale hash h c = true := by
  unfold deleteTxCache
  cases hfind : list.findIdx? (stale hash h) with
  | none => exact hstale
  | some i =>
    obtain ⟨hi, hc, -⟩ := findIdx?_eq_some_iff_getElem.mp hfind
    exact ⟨list[i], mem_drop_iff_getElem.mpr ⟨0, by simpa using hi, by simp⟩, hc⟩

theorem deleteTxCache_of_forall (hnone : ∀ c ∈ list, stale hash h c = false) :
    deleteTxCache list hash h = list := by
  rw [deleteTxCache, findIdx?_eq_none_iff.mpr hnone]

theorem stale_eq_false_iff {c : TxCaChe Hash} :
    stale hash h c = false ↔ (c.height = h ∧ c.headHash = hash) ∨ h < c.height := by
  simp only [stale, Bool.or_eq_false_iff, Bool.and_eq_false_iff, decide_eq_false_iff_not]
  grind

/-- The deletion does what it is for exactly if there is nothing to delete. -/
theorem deleteTxCache_correct_iff (list : List (TxCaChe Hash)) (hash : Hash) (h : ℕ) :
    (deleteTxCache list hash h = list.filter (fun c => !stale hash h c) ↔
      ∀ c ∈ list, stale hash h c = false) ∧
    ((∀ c ∈ deleteTxCache list hash h, (c.height = h ∧ c.headHash = hash) ∨ h < c.height) ↔
      ∀ c ∈ list, stale hash h c = false) := by
  simp only [← stale_eq_false_iff]
  by_cases hnone : ∀ c ∈ list, stale hash h c = false
  · rw [deleteTxCache_of_forall hnone]
    refine ⟨iff_of_true ?_ hnone, Iff.rfl⟩
    exact (filter_eq_self.mpr fun c hc => by simp [hnone c hc]).symm
  · obtain ⟨c, hc, hstale⟩ := exists_stale_deleteTxCache (by simpa using hnone)
    refine ⟨iff_of_false ?_ hnone, iff_of_false ?_ hnone⟩
    · intro heq
      rw [heq] at hc
      simpa [hstale] using of_mem_filter hc
    · intro hall
      rw [hall c hc] at hstale
      cases hstale

/-- The proposal of height 1 is still there after block 2. -/
theorem old_proposal_stays :
    let c : TxCaChe ℕ := ⟨⟨∅, 1⟩, 7⟩
    deleteTxCache [c] 8 2 = [c] ∧ [c].filter (fun c => !stale 8 2 c) = [] :=
  ⟨rfl, rfl⟩

/-- A request for codes of the proposal at the height before it gets the proposal's transactions. -/
def Serves (list : List (TxCaChe Hash)) (txs : List (Transaction × List UInt32)) (height : ℕ) : Prop :=
  ∀ listN, ∀ tx ∈ txs, ∀ n ∈ tx.2.head?, n ∈ listN →
    ∃ ntx, getTxByNCache (list.map toTxCache) listN height = some ntx ∧ ntx.lookup n = some tx.1

variable {txs : List (Transaction × List UInt32)}

omit [DecidableEq Hash] in
theorem serves_iff_of_find {height : ℕ} {c : TxCaChe Hash}
    (hfind : list.find? (fun c => c.height = height+1) = some c) :
    Serves list txs height ↔ ∀ tx ∈ txs, ∀ n ∈ tx.2.head?, c.ntx.lookup n = some tx.1 := by
  have hcache (listN : List UInt32) : getTxByNCache (list.map toTxCache) listN height =
      some (collect c.ntx.lookup listN ∅) := by
    rw [getTxByNCache, find?_map]
    exact congrArg _ (congrArg _ hfind)
  unfold Serves
  simp only [hcache, Option.some.injEq, exists_eq_left']
  constructor
  · intro hserves tx htx n hn
    simpa [lookup_collect] using hserves [n] tx htx n hn (by simp)
  · intro hall listN tx htx n hn hmem
    rw [lookup_collect, if_pos hmem, hall tx htx n hn]
    rfl

theorem exists_lookup_ntxOf {tx : Transaction × List UInt32} (htx : tx ∈ txs) {n : UInt32}
    (hn : n ∈ tx.2.head?) : ∃ tx' ∈ txs, n ∈ tx'.2.head? ∧ (ntxOf txs).lookup n = some tx'.1 := by
  induction txs using reverseRecOn with
  | nil => cases htx
  | append_singleton txs last ih =>
    have hconcat : ntxOf (txs ++ [last]) = match last.2 with
        | [] => ntxOf txs
        | n :: _ => (ntxOf txs).insert n last.1 := foldl_concat ..
    by_cases hlast : n ∈ last.2.head?
    · refine ⟨last, by simp, hlast, ?_⟩
      obtain ⟨rest, hrest⟩ := head?_eq_some_iff.mp hlast
      rw [hconcat, hrest]
      exact Finmap.lookup_insert _
    · have hold : tx ∈ txs := by
        rcases mem_append.mp htx with hold | hnew
        · exact hold
        · rw [mem_singleton.mp hnew] at hn
          exact absurd hn hlast
      obtain ⟨tx', htx', hn', hlookup⟩ := ih hold
      refine ⟨tx', mem_append_left _ htx', hn', ?_⟩
      rw [hconcat]
      split
      · exact hlookup
      · rename_i k rest hrest
        rw [Finmap.lookup_insert_of_ne, hlookup]
        rintro rfl
        simp [hrest] at hlast

/-- The latest proposal of a height is served exactly if the first one in the cache has all of it, or if
it is the first one and none of its numbers stands for two transactions. -/
theorem serves_latest_iff (calls : List (Call Hash)) (txs : List (Transaction × List UInt32))
    (hash : Hash) (height : ℕ) :
    Serves (makeStruck (calls.foldl Call.apply []) txs hash (height+1)) txs height ↔
      match (calls.foldl Call.apply []).find? (fun c => c.height = height+1) with
      | some c => ∀ tx ∈ txs, ∀ n ∈ tx.2.head?, c.ntx.lookup n = some tx.1
      | none => ∀ tx ∈ txs, ∀ tx' ∈ txs, ∀ n ∈ tx.2.head?, n ∈ tx'.2.head? → tx.1 = tx'.1 := by
  generalize calls.foldl Call.apply [] = list
  cases hfind : list.find? (fun c => c.height = height+1) with
  | some c =>
    apply serves_iff_of_find
    rw [makeStruck, find?_append, hfind]
    rfl
  | none =>
    rw [serves_iff_of_find (c := ⟨⟨ntxOf txs, height+1⟩, hash⟩)
      (by rw [makeStruck, find?_append, hfind]; simp)]
    constructor
    · intro hall tx htx tx' htx' n hn hn'
      exact Option.some.inj ((hall tx htx n hn).symm.trans (hall tx' htx' n hn'))
    · intro hsame tx htx n hn
      obtain ⟨tx', htx', hn', hlookup⟩ := exists_lookup_ntxOf htx hn
      rw [hlookup, hsame tx htx tx' htx' n hn hn']

/-- After a re-election the transaction of the first proposal of height 5 is sent for code 1. -/
theorem earlier_proposal_served :
    let first := [Call.makeStruck [(TxCrypto.sampleProtectedTx, [1])] 7 5].foldl Call.apply []
    let list := makeStruck first [(TxCrypto.sampleUnprotectedTx, [1])] 8 5
    (∃ ntx, getTxByNCache (list.map toTxCache) [1] 4 = some ntx ∧
      ntx.lookup 1 = some TxCrypto.sampleProtectedTx) ∧
    ¬ Serves list [(TxCrypto.sampleUnprotectedTx, [1])] 4 := by
  refine ⟨⟨_, rfl, by decide⟩, ?_⟩
  intro hserves
  obtain ⟨ntx, hcache, hlookup⟩ := hserves [1] _ (mem_singleton_self _) 1 rfl (by decide)
  cases hcache
  exact absurd hlookup (by decide)

end TxCaChe

section Requested
variable {Tx : Type} (nContainer : ℕ → GoMap UInt32 Tx)

/-- `getTxbyN` for one code after the other. `NContainer` may change before each read; it is counted
from the start of the call. -/
def reads (t : ℕ) (ns : List UInt32) : List (Option Tx) :=
  (ns.zipIdx t).map fun e => (nContainer e.2).lookup e.1

def missing (t : ℕ) (ns : List UInt32) : List UInt32 :=
  ((ns.zipIdx t).filter fun e => ((nContainer e.2).lookup e.1).isNone).map Prod.fst

/-- The codes still missing when the timer runs out after so many polls, and the reads made. -/
def poll : ℕ → ℕ → List UInt32 → List UInt32 × ℕ
  | 0, t, ns => (ns, t)
  | polls+1, t, ns =>
    let tmpns := missing nContainer t ns
    if tmpns.length = 0 then (tmpns, t+ns.length)
    else poll polls (t+ns.length) tmpns

/-- What is sent to `retch`; `nid` is the node asked. A list of numbers always has a JSON text. -/
def returnAllTxsByN {NodeId : Type} (polls : ℕ) (nid : Except GoError NodeId) (listN : List UInt32)
    (resqe : ℤ) : RetChan Tx :=
  if listN.length ≤ 0 then ⟨[], none, resqe⟩
  else
    let ns := missing nContainer 0 listN
    if 0 < ns.length then
      match nid with
      | .error err1 => ⟨[], some err1, resqe⟩
      | .ok _ =>
        let (ns, t) := poll nContainer polls listN.length ns
        if 0 < ns.length then ⟨[], some (.error "loss tx"), resqe⟩
        else if (reads nContainer t listN).all Option.isSome then
          ⟨(reads nContainer t listN).reduceOption, none, resqe⟩
        else ⟨[], some (.error "loss tx"), resqe⟩
    else ⟨(reads nContainer 0 listN).reduceOption, none, resqe⟩

theorem map_some_reduceOption {l : List (Option Tx)} (h : ∀ r ∈ l, r.isSome) :
    l.reduceOption.map some = l := by
  induction l with
  | nil => rfl
  | cons r l ih =>
    obtain ⟨hr, hl⟩ := forall_mem_cons.mp h
    obtain ⟨tx, rfl⟩ := Option.isSome_iff_exists.mp hr
    rw [reduceOption_cons_of_some, map_cons, ih hl]

theorem isSome_reads_of_missing {t : ℕ} {ns : List UInt32} (h : missing nContainer t ns = []) :
    ∀ r ∈ reads nContainer t ns, r.isSome := by
  rw [missing, map_eq_nil_iff, filter_eq_nil_iff] at h
  rw [reads, forall_mem_map]
  intro e he
  simpa [Option.isSome_iff_ne_none] using h e he

/-- Every list delivered is one pass of reads, a transaction for each code; an error comes alone. -/
theorem returnAllTxsByN_all_or_none {NodeId : Type} (polls : ℕ) (nid : Except GoError NodeId)
    (listN : List UInt32) (resqe : ℤ) :
    let ret := returnAllTxsByN nContainer polls nid listN resqe
    (ret.err = none → ∃ t ∈ [0, (poll nContainer polls listN.length (missing nContainer 0 listN)).2],
      ret.rxs.map some = reads nContainer t listN) ∧
    (ret.err ≠ none → ret.rxs = []) := by
  unfold returnAllTxsByN
  dsimp only
  by_cases hempty : listN.length ≤ 0
  · rw [if_pos hempty]
    obtain rfl := eq_nil_of_length_eq_zero (Nat.le_zero.mp hempty)
    exact ⟨fun _ => ⟨0, mem_cons_self .., rfl⟩, fun h => absurd rfl h⟩
  rw [if_neg hempty]
  by_cases hmissing : 0 < (missing nContainer 0 listN).length
  · rw [if_pos hmissing]
    cases nid with
    | error err1 => exact ⟨nofun, fun _ => rfl⟩
    | ok nid =>
      dsimp only
      split_ifs with hlost hall
      · exact ⟨nofun, fun _ => rfl⟩
      · refine ⟨fun _ => ⟨_, mem_cons_of_mem _ (mem_singleton_self _), ?_⟩, ?_⟩
        · exact map_some_reduceOption (all_eq_true.mp hall)
        · exact fun h => absurd rfl h
      · exact ⟨nofun, fun _ => rfl⟩
  · rw [if_neg hmissing]
    refine ⟨fun _ => ⟨0, mem_cons_self .., ?_⟩, fun h => absurd rfl h⟩
    have hnone := eq_nil_of_length_eq_zero (Nat.le_zero.mp (not_lt.mp hmissing))
    exact map_some_reduceOption (isSome_reads_of_missing nContainer hnone)

end Requested

end MatrixNode
