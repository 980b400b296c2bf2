import MatrixNode.GoMap
import MatrixNode.NetTopology

/-! `core/topology_store.go`: the topology graph of a header is made from the graph of the height
below it and the elections at earlier heights, both found through the canonical chain. -/
namespace MatrixNode
open GoLib

def verifyNetChangeUpTime : ℕ := 6

def minerNetChangeUpTime : ℕ := 4

def getLastReElectionNumber (number : ℕ) : ℕ :=
  if isReElectionNumber number then number else number/reelectionInterval*reelectionInterval

def errHeaderNotExit : GoError := .error "header not exit in chain"

def errGraphNotExitInDb : GoError := .error "topology graph not exit in db"

/-- The database of a chain. Headers, total difficulties and graphs are filed under number and
hash; the canonical chain is a map from numbers to hashes. -/
structure ChainDb (Hash : Type) where
  canonicalHash : GoMap ℕ Hash
  headers : GoMap (ℕ × Hash) (Header Hash)
  tds : GoMap (ℕ × Hash) ℕ
  graphs : GoMap (ℕ × Hash) TopologyGraph
  currentHeader : Header Hash

def newGenesisTopologyGraph {Hash : Type} (genesisHeader : Header Hash) : Except GoError TopologyGraph :=
  if genesisHeader.number ≠ 0 then throw (.error "输入错误，创世区块高度不为0")
  else if genesisHeader.netTopology.type ≠ netTopoTypeAll then
    throw (.error "输入错误，创世区块拓扑类型不是全拓扑")
  else
    pure (genesisHeader.netTopology.netTopologyData.foldl
      (TopologyGraph.addNode genesisHeader.elect) ⟨0, [], 99⟩)

def electNumbers (number : ℕ) : List ℕ :=
  let lastElectNumber := getLastReElectionNumber (number+1)
  if lastElectNumber = 0 then [0]
  else [lastElectNumber-verifyNetChangeUpTime, lastElectNumber-minerNetChangeUpTime]

/-- The body of `GetOriginalElect`, with a way to find the header of a height. Validators and
miners are elected at different heights. -/
def originalElect {Hash : Type} (headerAt : ℕ → Option (Header Hash)) (number : ℕ) :
    Except GoError (List Elect) :=
  let lastElectNumber := getLastReElectionNumber (number+1)
  if lastElectNumber = 0 then
    match headerAt 0 with
    | none => throw nilDereference
    | some header => pure header.elect
  else
    let minerElectNumber := lastElectNumber-minerNetChangeUpTime
    let validatorElectNumber := lastElectNumber-verifyNetChangeUpTime
    match headerAt validatorElectNumber with
    | none => throw (.error ("get validator header err, header = nil. validator number = " ++
        toString validatorElectNumber ++ ", input number = " ++ toString number))
    | some vHeader =>
      match headerAt minerElectNumber with
      | none => throw (.error ("get miner header err, header = nil. miner number = " ++
          toString minerElectNumber ++ ", input number = " ++ toString number))
      | some mHeader => pure (vHeader.elect ++ mHeader.elect)

def TopologyGraph.validatorsOnly (graph : TopologyGraph) : TopologyGraph :=
  { graph with nodeList := graph.nodeList.filter (fun node => node.type = .validator) }

namespace ChainDb
variable {Hash : Type} [DecidableEq Hash] (hash : Header Hash → Hash) (db : ChainDb Hash)

def getHeader (h : Hash) (number : ℕ) : Option (Header Hash) := db.headers.lookup (number,h)

def getHeaderByNumber (number : ℕ) : Option (Header Hash) :=
  (db.canonicalHash.lookup number).bind (fun h => db.getHeader h number)

def getTopologyGraphByNumber (number : ℕ) : Except GoError TopologyGraph :=
  match db.getHeaderByNumber number with
  | none => throw errHeaderNotExit
  | some header =>
    match db.graphs.lookup (header.number,hash header) with
    | none => throw errGraphNotExitInDb
    | some graph => pure graph

def getOriginalElect (number : ℕ) : Except GoError (List Elect) :=
  originalElect db.getHeaderByNumber number

/-- A returned error with a text in front of it; a panic goes through. -/
def annotate {α : Type} (text : String) : Except GoError α → Except GoError α
  | .ok a => .ok a
  | .error (.error msg) => .error (.error (text ++ msg))
  | .error (.panic msg) => .error (.panic msg)

def newTopologyGraph (header : Header Hash) : Except GoError TopologyGraph :=
  if header.number = 0 then newGenesisTopologyGraph header
  else do
    let preGraph ← annotate "获取父拓扑图失败:" (db.getTopologyGraphByNumber hash (header.number-1))
    let electList ← annotate "获取选举信息失败:" (db.getOriginalElect header.number)
    preGraph.transfer2NextGraph electList header.number header.netTopology

/-- A graph that is there already stays. -/
def writeTopologyGraph (header : Header Hash) : Except GoError (ChainDb Hash) :=
  if (header.number,hash header) ∈ db.graphs then pure db
  else do
    let newGraph ← db.newTopologyGraph hash header
    pure { db with graphs := db.graphs.insert (header.number,hash header) newGraph }

def getValidatorByNumber (number : ℕ) : Except GoError TopologyGraph := do
  let tg ← db.getTopologyGraphByNumber hash number
  pure tg.validatorsOnly

def reader : ValidatorReader where
  getCurrentNumber := db.currentHeader.number
  getValidatorByNumber := db.getValidatorByNumber hash

section Spec
variable {hash db}

theorem annotate_eq_ok {α : Type} {text : String} {x : Except GoError α} {a : α} :
    annotate text x = .ok a ↔ x = .ok a := by
  unfold annotate
  split <;> simp

variable {graph : TopologyGraph}

theorem getTopologyGraphByNumber_eq_ok {number : ℕ} :
    db.getTopologyGraphByNumber hash number = .ok graph ↔
      ∃ header, db.getHeaderByNumber number = some header ∧
        db.graphs.lookup (header.number,hash header) = some graph := by
  unfold getTopologyGraphByNumber
  cases hheader : db.getHeaderByNumber number with
  | none => simp
  | some header =>
    cases hgraph : db.graphs.lookup (header.number,hash header) <;> simp [hgraph]

theorem newTopologyGraph_eq_ok {header : Header Hash} (hpos : header.number ≠ 0) :
    db.newTopologyGraph hash header = .ok graph ↔
      ∃ preGraph electList, db.getTopologyGraphByNumber hash (header.number-1) = .ok preGraph ∧
        db.getOriginalElect header.number = .ok electList ∧
        preGraph.transfer2NextGraph electList header.number header.netTopology = .ok graph := by
  unfold newTopologyGraph
  rw [if_neg hpos]
  simp only [bind_eq_ok_iff, annotate_eq_ok]
  constructor
  · rintro ⟨preGraph, hpre, electList, helect, hgraph⟩
    exact ⟨preGraph, electList, hpre, helect, hgraph⟩
  · rintro ⟨preGraph, electList, hpre, helect, hgraph⟩
    exact ⟨preGraph, hpre, electList, helect, hgraph⟩

end Spec

end ChainDb

section Elections

theorem getLastReElectionNumber_le (number : ℕ) : getLastReElectionNumber number ≤ number := by
  unfold getLastReElectionNumber
  split_ifs
  · exact le_rfl
  · exact Nat.div_mul_le_self _ _

theorem getLastReElectionNumber_dvd (number : ℕ) : 60 ∣ getLastReElectionNumber number := by
  unfold getLastReElectionNumber
  split_ifs with h
  · exact (isReElectionNumber_iff number).mp h
  · exact Dvd.intro_left _ rfl

theorem electNumbers_lt {number k : ℕ} (hpos : number ≠ 0) (hk : k ∈ electNumbers number) :
    k < number := by
  have hle := getLastReElectionNumber_le (number+1)
  have hdvd := getLastReElectionNumber_dvd (number+1)
  unfold electNumbers at hk
  dsimp only at hk
  split_ifs at hk with hzero
  · rw [List.mem_singleton.mp hk]
    omega
  · simp only [verifyNetChangeUpTime, minerNetChangeUpTime, List.mem_cons, List.not_mem_nil,
      or_false] at hk
    omega

variable {Hash : Type} {headerAt headerAt' : ℕ → Option (Header Hash)} {number : ℕ}

theorem originalElect_isOk (h : ∀ k ∈ electNumbers number, (headerAt k).isSome) :
    ∃ electList, originalElect headerAt number = .ok electList := by
  unfold electNumbers at h
  unfold originalElect
  dsimp only at h ⊢
  split_ifs at h ⊢ with hzero
  · obtain ⟨header, hheader⟩ := Option.isSome_iff_exists.mp (h 0 List.mem_cons_self)
    rw [hheader]
    exact ⟨_, rfl⟩
  · obtain ⟨vHeader, hv⟩ := Option.isSome_iff_exists.mp (h _ List.mem_cons_self)
    obtain ⟨mHeader, hm⟩ := Option.isSome_iff_exists.mp (h _ (List.mem_cons_of_mem _ List.mem_cons_self))
    rw [hv, hm]
    exact ⟨_, rfl⟩

theorem originalElect_congr (h : ∀ k ∈ electNumbers number, headerAt k = headerAt' k) :
    originalElect headerAt number = originalElect headerAt' number := by
  unfold electNumbers at h
  unfold originalElect
  dsimp only at h ⊢
  split_ifs at h ⊢ with hzero
  · rw [h 0 List.mem_cons_self]
  · rw [h _ List.mem_cons_self, h _ (List.mem_cons_of_mem _ List.mem_cons_self)]

theorem originalElect_mono {electList : List Elect} (h : ∀ k a, headerAt k = some a → headerAt' k = some a)
    (helect : originalElect headerAt number = .ok electList) :
    originalElect headerAt' number = .ok electList := by
  unfold originalElect at helect ⊢
  dsimp only at helect ⊢
  split_ifs at helect ⊢ with hzero
  · split at helect
    · cases helect
    · rename_i genesis hgenesis
      rw [h 0 genesis hgenesis]
      exact helect
  · split at helect
    · cases helect
    · rename_i vHeader hv
      split at helect
      · cases helect
      · rename_i mHeader hm
        rw [h _ vHeader hv, h _ mHeader hm]
        exact helect

end Elections

end MatrixNode
