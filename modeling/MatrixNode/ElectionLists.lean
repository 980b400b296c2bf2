import Mathlib.Order.Bounds.Basic
import MatrixNode.TopologyAgreement

/-! Elections on the chain. -/
namespace MatrixNode
open GoLib ReElection List

theorem isGreatest_getLastReElectionNumber (number : ℕ) :
    IsGreatest { k | isReElectionNumber k = true ∧ k ≤ number } (getLastReElectionNumber number) := by
  constructor
  · exact ⟨(isReElectionNumber_iff _).mpr (getLastReElectionNumber_dvd number),
      getLastReElectionNumber_le number⟩
  · rintro k ⟨hk, hle⟩
    have hdvd := (isReElectionNumber_iff k).mp hk
    unfold getLastReElectionNumber
    split_ifs
    · exact hle
    · simp only [reelectionInterval]
      omega

namespace ReElection
variable (R : ReElection)

def validatorsFor (number : ℕ) : Except GoError (List Elect) := do
  let (master, backUp) ← R.readElectValidator number
  pure (electNodes electRoleValidator master ++ electNodes electRoleValidatorBackUp backUp)

def minersFor (number : ℕ) : Except GoError (List Elect) := do
  let (master, backUp) ← R.readElectMiner number
  pure (electNodes electRoleMiner master ++ electNodes electRoleMinerBackUp backUp)

variable {R}

theorem getElection_validators {number : ℕ} (hdvd : 60 ∣ number) (hpos : number ≠ 0) :
    (R.getElection (number-verifyNetChangeUpTime)).map transferToElectionStu = R.validatorsFor number := by
  have hminer : isReElectionNumber (number-verifyNetChangeUpTime+minerNetChangeUpTime) = false := by
    apply eq_false_of_ne_true
    intro hre
    have hdvd' := (isReElectionNumber_iff _).mp hre
    simp only [verifyNetChangeUpTime, minerNetChangeUpTime] at hdvd'
    omega
  have hnumber : number-verifyNetChangeUpTime+verifyNetChangeUpTime = number := by
    simp only [verifyNetChangeUpTime]
    omega
  unfold getElection validatorsFor
  rw [hminer, hnumber, if_pos ((isReElectionNumber_iff number).mpr hdvd)]
  cases R.readElectValidator number with
  | error e => rfl
  | ok lists =>
    simp [Except.map, transferToElectionStu, electNodes, bind, Except.bind, pure, Except.pure]

theorem getElection_miners {number : ℕ} (hdvd : 60 ∣ number) (hpos : number ≠ 0) :
    (R.getElection (number-minerNetChangeUpTime)).map transferToElectionStu = R.minersFor number := by
  have hnumber : number-minerNetChangeUpTime+minerNetChangeUpTime = number := by
    simp only [minerNetChangeUpTime]
    omega
  unfold getElection minersFor
  rw [hnumber, if_pos ((isReElectionNumber_iff number).mpr hdvd)]
  cases R.readElectMiner number with
  | error e => rfl
  | ok lists =>
    simp [Except.map, transferToElectionStu, electNodes, bind, Except.bind, pure, Except.pure]

end ReElection

/-- The elections of the header at `electNumber`, if the chain is that high. -/
def announcedElect {Hash : Type} (headerAt : ℕ → Option (Header Hash)) (text : String)
    (electNumber number curNumber : ℕ) : Except GoError (List Elect) :=
  if electNumber ≤ curNumber then
    match headerAt electNumber with
    | none => throw (.error ("get " ++ text ++ " header err, header = nil. " ++ text ++ " number(" ++
        toString electNumber ++ "), input number(" ++ toString number ++ "), current number(" ++
        toString curNumber ++ ")"))
    | some header => pure header.elect
  else pure []

/-- The body of `GetNextElect`, with a way to find the header of a height and the height of the
chain. -/
def nextElect {Hash : Type} (headerAt : ℕ → Option (Header Hash)) (curNumber number : ℕ) :
    Except GoError (List Elect) := do
  let nextElectNumber := getLastReElectionNumber (number+1)+reelectionInterval
  let minerElectNumber := nextElectNumber-minerNetChangeUpTime
  let validatorElectNumber := nextElectNumber-verifyNetChangeUpTime
  let validators ← announcedElect headerAt "validator" validatorElectNumber number curNumber
  let miners ← announcedElect headerAt "miner" minerElectNumber number curNumber
  pure (validators ++ miners)

namespace ChainDb
variable {Hash : Type} [DecidableEq Hash] (db : ChainDb Hash)

def getNextElect (number : ℕ) : Except GoError (List Elect) :=
  nextElect db.getHeaderByNumber db.currentHeader.number number

/-- The chain has a header at every height up to its own, and each but the first carries the elections
that the database yields for its height. -/
structure CarriesElections (R : ReElection) : Prop where
  present : ∀ k ≤ db.currentHeader.number, ∃ header, db.getHeaderByNumber k = some header
  absent : ∀ k, db.currentHeader.number < k → db.getHeaderByNumber k = none
  elect_eq : ∀ k header, 0 < k → db.getHeaderByNumber k = some header →
    (R.getElection k).map transferToElectionStu = .ok header.elect

variable {db} {R : ReElection}

section
variable (h : db.CarriesElections R)
include h

theorem CarriesElections.announces {number ahead : ℕ} {elected : Except GoError (List Elect)}
    (hdvd : 60 ∣ number) (hpos : number ≠ 0) (hahead : ahead ≤ 6)
    (helected : (R.getElection (number-ahead)).map transferToElectionStu = elected)
    (hle : number-ahead ≤ db.currentHeader.number) :
    ∃ header, db.getHeaderByNumber (number-ahead) = some header ∧ elected = .ok header.elect := by
  obtain ⟨header, hheader⟩ := h.present _ hle
  refine ⟨header, hheader, ?_⟩
  rw [← helected]
  exact h.elect_eq _ header (by omega) hheader

theorem CarriesElections.getOriginalElect_first {n : ℕ}
    (hlast : getLastReElectionNumber (n+1) = 0) :
    ∃ genesis, db.getHeaderByNumber 0 = some genesis ∧ db.getOriginalElect n = .ok genesis.elect := by
  obtain ⟨genesis, hgenesis⟩ := h.present 0 (Nat.zero_le _)
  refine ⟨genesis, hgenesis, ?_⟩
  unfold getOriginalElect originalElect
  rw [if_pos hlast, hgenesis]
  rfl

variable {n last : ℕ} (hlast : getLastReElectionNumber (n+1) = last)
include hlast

theorem CarriesElections.getOriginalElect_later (hpos : last ≠ 0)
    (hle : last-minerNetChangeUpTime ≤ db.currentHeader.number) :
    ∃ validators miners, R.validatorsFor last = .ok validators ∧ R.minersFor last = .ok miners ∧
      db.getOriginalElect n = .ok (validators ++ miners) := by
  have hdvd : 60 ∣ last := hlast ▸ getLastReElectionNumber_dvd (n+1)
  have hle' : last-verifyNetChangeUpTime ≤ db.currentHeader.number := by
    simp only [verifyNetChangeUpTime, minerNetChangeUpTime] at hle ⊢
    omega
  obtain ⟨vHeader, hv, hvalidators⟩ :=
    h.announces hdvd hpos (by decide) (getElection_validators hdvd hpos) hle'
  obtain ⟨mHeader, hm, hminers⟩ :=
    h.announces hdvd hpos (by decide) (getElection_miners hdvd hpos) hle
  refine ⟨vHeader.elect, mHeader.elect, hvalidators, hminers, ?_⟩
  unfold getOriginalElect originalElect
  dsimp only
  rw [hlast, if_neg hpos, hv, hm]
  rfl

theorem CarriesElections.getOriginalElect_missing
    (hlt : db.currentHeader.number < last-minerNetChangeUpTime) :
    ∃ e, db.getOriginalElect n = .error e := by
  have hpos : last ≠ 0 := by omega
  unfold getOriginalElect originalElect
  dsimp only
  rw [hlast, if_neg hpos, h.absent _ hlt]
  cases db.getHeaderByNumber (last-verifyNetChangeUpTime) with
  | none => exact ⟨_, rfl⟩
  | some vHeader => exact ⟨_, rfl⟩

end

theorem announcedElect_cases (text : String) (number : ℕ) {period ahead : ℕ}
    {elected : Except GoError (List Elect)}
    (hfound : period-ahead ≤ db.currentHeader.number →
      ∃ header, db.getHeaderByNumber (period-ahead) = some header ∧ elected = .ok header.elect) :
    ∃ list, announcedElect db.getHeaderByNumber text (period-ahead) number db.currentHeader.number =
        .ok list ∧
      if period ≤ db.currentHeader.number+ahead then elected = .ok list else list = [] := by
  unfold announcedElect
  split_ifs with hnum hle hle
  · obtain ⟨header, hheader, helect⟩ := hfound hnum
    rw [hheader]
    exact ⟨_, rfl, helect⟩
  · omega
  · omega
  · exact ⟨[], rfl, rfl⟩

theorem CarriesElections.getNextElect_eq (h : db.CarriesElections R) {n last : ℕ}
    (hlast : getLastReElectionNumber (n+1) = last) :
    ∃ validators miners, db.getNextElect n = .ok (validators ++ miners) ∧
      (if last+60 ≤ db.currentHeader.number+6 then R.validatorsFor (last+60) = .ok validators
        else validators = []) ∧
      (if last+60 ≤ db.currentHeader.number+4 then R.minersFor (last+60) = .ok miners
        else miners = []) := by
  have hdvd : 60 ∣ last+60 :=
    Nat.dvd_add (hlast ▸ getLastReElectionNumber_dvd (n+1)) (dvd_refl 60)
  have hpos : last+60 ≠ 0 := by omega
  obtain ⟨validators, hvalidators, hv⟩ := announcedElect_cases "validator" n
    (h.announces hdvd hpos (by decide) (getElection_validators hdvd hpos))
  obtain ⟨miners, hminers, hm⟩ := announcedElect_cases "miner" n
    (h.announces hdvd hpos (by decide) (getElection_miners hdvd hpos))
  refine ⟨validators, miners, ?_, hv, hm⟩
  unfold getNextElect nextElect
  dsimp only [reelectionInterval]
  rw [hlast, hvalidators, hminers]
  rfl

end ChainDb

section Stocks
variable {electList : List Elect}

theorem foldl_addNode_stocks (electList : List Elect) (data : List NetTopologyData)
    (graph : TopologyGraph) :
    (data.foldl (TopologyGraph.addNode electList) graph).nodeList.map
        (fun node => (node.account,node.stock)) =
      graph.nodeList.map (fun node => (node.account,node.stock)) ++
        data.map fun d => (d.account,getNodeStock d.account electList) := by
  induction data generalizing graph with
  | nil => exact (append_nil _).symm
  | cons d rest ih =>
    rw [foldl_cons, ih]
    simp [TopologyGraph.addNode]

theorem placeNodes_account (role : UInt8) (nodes : List TopologyNodeInfo) :
    (placeNodes role nodes).map NetTopologyData.account = nodes.map TopologyNodeInfo.account := by
  unfold placeNodes
  rw [mapIdx_eq_zipIdx_map, map_map]
  conv_rhs => rw [← zipIdx_map_fst 0 nodes, map_map]
  rfl

theorem transferToNetTopologyAllStu_account (info : ElectReturnInfo) :
    (transferToNetTopologyAllStu info).netTopologyData.map NetTopologyData.account =
      (transferToElectionStu info).map Elect.account := by
  unfold transferToNetTopologyAllStu transferToElectionStu electNodes
  simp only [map_append, placeNodes_account, map_map]
  rfl

theorem getNodeStock_eq {e : Elect} (he : e ∈ electList)
    (hsame : ∀ e' ∈ electList, e'.account = e.account → e'.stock = e.stock) :
    getNodeStock e.account electList = e.stock := by
  unfold getNodeStock
  cases hfind : electList.find? (fun e' => e'.account = e.account) with
  | none =>
    have hnone := find?_eq_none.mp hfind e he
    simp at hnone
  | some first =>
    have hfirst := find?_some hfind
    exact hsame first (mem_of_find?_eq_some hfind) (of_decide_eq_true hfirst)

theorem stocks_of_full_topology (preGraph : TopologyGraph) (info : ElectReturnInfo) {n : ℕ}
    (hnum : preGraph.number+1 = n) :
    ∃ graph, preGraph.transfer2NextGraph (transferToElectionStu info) n
        (transferToNetTopologyAllStu info) = .ok graph ∧
      graph.nodeList.map (fun node => (node.account,node.stock)) =
        (transferToElectionStu info).map fun e =>
          (e.account,getNodeStock e.account (transferToElectionStu info)) := by
  refine ⟨_, TopologyGraph.transfer2NextGraph_all _ hnum rfl, ?_⟩
  have haccounts := congrArg
    (map fun a => (a,getNodeStock a (transferToElectionStu info)))
    (transferToNetTopologyAllStu_account info)
  rw [map_map, map_map] at haccounts
  rw [foldl_addNode_stocks]
  exact haccounts

end Stocks

namespace ChainDb
variable {Hash : Type} [DecidableEq Hash] {db : ChainDb Hash} {R : ReElection}

theorem CarriesElections.getNetTopologyAll_eq (h : db.CarriesElections R) {n : ℕ}
    (hre : isReElectionNumber (n+1) = true) (hle : n ≤ db.currentHeader.number+3) :
    ∃ info, R.getNetTopologyAll n = .ok info ∧
      db.getOriginalElect n = .ok (transferToElectionStu info) := by
  have hle' : n+1-minerNetChangeUpTime ≤ db.currentHeader.number := by
    simp only [minerNetChangeUpTime]
    omega
  obtain ⟨validators, miners, hv, hm, horiginal⟩ :=
    h.getOriginalElect_later (if_pos hre) (Nat.succ_ne_zero n) hle'
  obtain ⟨⟨masterV, backUpV⟩, hreadV, hv⟩ := bind_eq_ok_iff.mp hv
  obtain ⟨⟨masterM, backUpM⟩, hreadM, hm⟩ := bind_eq_ok_iff.mp hm
  refine ⟨⟨masterM, backUpM, masterV, backUpV⟩, ?_, ?_⟩
  · unfold getNetTopologyAll
    rw [if_pos hre, hreadM, hreadV]
    rfl
  · cases hv
    cases hm
    rw [horiginal]
    simp [transferToElectionStu]

/-- The elections found on the chain are those of the database, and the stocks of a full topology
those of the first entries. -/
theorem elections_found_on_chain (h : db.CarriesElections R) (n : ℕ) :
    IsGreatest { k | isReElectionNumber k = true ∧ k ≤ n+1 } (getLastReElectionNumber (n+1)) ∧
    (getLastReElectionNumber (n+1) = 0 →
      ∃ genesis, db.getHeaderByNumber 0 = some genesis ∧ db.getOriginalElect n = .ok genesis.elect) ∧
    (getLastReElectionNumber (n+1) ≠ 0 →
      getLastReElectionNumber (n+1)-minerNetChangeUpTime ≤ db.currentHeader.number →
      ∃ validators miners, R.validatorsFor (getLastReElectionNumber (n+1)) = .ok validators ∧
        R.minersFor (getLastReElectionNumber (n+1)) = .ok miners ∧
        db.getOriginalElect n = .ok (validators ++ miners)) ∧
    (db.currentHeader.number < getLastReElectionNumber (n+1)-minerNetChangeUpTime →
      ∃ e, db.getOriginalElect n = .error e) ∧
    (∃ validators miners, db.getNextElect n = .ok (validators ++ miners) ∧
      (if getLastReElectionNumber (n+1)+60 ≤ db.currentHeader.number+6 then
        R.validatorsFor (getLastReElectionNumber (n+1)+60) = .ok validators else validators = []) ∧
      (if getLastReElectionNumber (n+1)+60 ≤ db.currentHeader.number+4 then
        R.minersFor (getLastReElectionNumber (n+1)+60) = .ok miners else miners = [])) ∧
    (isReElectionNumber (n+1) = true → n ≤ db.currentHeader.number+3 →
      ∀ preGraph : TopologyGraph, preGraph.number+1 = n → ∃ info elected graph,
        R.getNetTopologyAll n = .ok info ∧ db.getOriginalElect n = .ok elected ∧
        preGraph.transfer2NextGraph elected n (transferToNetTopologyAllStu info) = .ok graph ∧
        graph.nodeList.map (fun node => (node.account,node.stock)) =
          elected.map (fun e => (e.account,getNodeStock e.account elected)) ∧
        ∀ e ∈ elected, (∀ e' ∈ elected, e'.account = e.account → e'.stock = e.stock) →
          getNodeStock e.account elected = e.stock) := by
  refine ⟨isGreatest_getLastReElectionNumber (n+1), h.getOriginalElect_first,
    h.getOriginalElect_later rfl, h.getOriginalElect_missing rfl, h.getNextElect_eq rfl, ?_⟩
  intro hre hle preGraph hnum
  obtain ⟨info, hinfo, horiginal⟩ := h.getNetTopologyAll_eq hre hle
  obtain ⟨graph, hgraph, hstocks⟩ := stocks_of_full_topology preGraph info hnum
  exact ⟨info, _, graph, hinfo, horiginal, hgraph, hstocks, fun e he => getNodeStock_eq he⟩

section Sample

def fixedElections (validator miner : TopologyNodeInfo) : ReElection where
  readElectMiner := fun _ => .ok ([miner], [])
  readElectValidator := fun _ => .ok ([validator], [])

def electHeader (R : ReElection) (number : ℕ) : Header ℕ :=
  { emptyHeader with
    parentHash := number-1, number := number, time := number
    elect := ((R.getElection number).map transferToElectionStu).toOption.getD []
    netTopology := ⟨netTopoTypeChange, []⟩ }

def chainWith (R : ReElection) (height : ℕ) : ChainDb ℕ where
  canonicalHash := GoMap.ofEntries ((range (height+1)).map fun k => (k,k))
  headers := GoMap.ofEntries ((range (height+1)).map fun k => ((k,k),electHeader R k))
  tds := ∅
  graphs := ∅
  currentHeader := electHeader R height

theorem getHeaderByNumber_chainWith (R : ReElection) (height k : ℕ) :
    (chainWith R height).getHeaderByNumber k =
      if k ≤ height then some (electHeader R k) else none := by
  have hhash : ((range (height+1)).map fun k => (k,k)).map Prod.fst = range (height+1) := by
    rw [map_map]
    exact map_id _
  have hkeys : (((range (height+1)).map fun k => ((k,k),electHeader R k)).map Prod.fst).Nodup := by
    rw [map_map]
    exact nodup_range.map fun a b hab => (Prod.mk.inj hab).1
  unfold getHeaderByNumber getHeader chainWith
  split_ifs with hk
  · have hmem : k ∈ range (height+1) := mem_range.mpr (Nat.lt_succ_of_le hk)
    have hcanonical := GoMap.lookup_ofEntries (hhash.symm ▸ nodup_range)
      (mem_map_of_mem (f := fun k => (k,k)) hmem)
    have hheader := GoMap.lookup_ofEntries hkeys
      (mem_map_of_mem (f := fun k => ((k,k),electHeader R k)) hmem)
    rw [hcanonical]
    exact hheader
  · have hnot : k ∉ GoMap.ofEntries ((range (height+1)).map fun k => (k,k)) := by
      rw [GoMap.mem_ofEntries, hhash, mem_range]
      omega
    rw [Finmap.lookup_eq_none.mpr hnot]
    rfl

theorem carriesElections_chainWith {R : ReElection} (height : ℕ)
    (hR : ∀ k, ∃ info, R.getElection k = .ok info) : (chainWith R height).CarriesElections R where
  present k hk := by
    refine ⟨electHeader R k, ?_⟩
    rw [getHeaderByNumber_chainWith]
    exact if_pos hk
  absent k hk := by
    rw [getHeaderByNumber_chainWith]
    exact if_neg (Nat.not_le.mpr hk)
  elect_eq k header _ hheader := by
    rw [getHeaderByNumber_chainWith] at hheader
    split_ifs at hheader
    cases hheader
    obtain ⟨info, hinfo⟩ := hR k
    rw [electHeader, hinfo]
    rfl

theorem getElection_fixedElections (validator miner : TopologyNodeInfo) (k : ℕ) :
    ∃ info, (fixedElections validator miner).getElection k = .ok info := by
  unfold getElection
  split_ifs
  · exact ⟨_, rfl⟩
  · exact ⟨_, rfl⟩
  · exact ⟨_, rfl⟩

theorem elections_found_at_59 :
    ∃ e, (chainWith (fixedElections ⟨7, 0, .validator, 5, 0⟩ ⟨8, 0, .miner, 9, 0⟩) 58).getOriginalElect
      59 = .ok e := by
  have h := carriesElections_chainWith 58
    (getElection_fixedElections ⟨7, 0, .validator, 5, 0⟩ ⟨8, 0, .miner, 9, 0⟩)
  obtain ⟨validators, miners, -, -, hok⟩ := (elections_found_on_chain h 59).2.2.1 (by decide) (by decide)
  exact ⟨_, hok⟩

def electedTwice : ReElection := fixedElections ⟨7, 0, .validator, 5, 0⟩ ⟨7, 0, .miner, 9, 0⟩

/-- In the graph of the full topology at height 59 the miner has the stock of the validator. -/
theorem miner_gets_stock_of_validator :
    (chainWith electedTwice 58).CarriesElections electedTwice ∧
      electedTwice.minersFor 60 = .ok [⟨7, 9, electRoleMiner⟩] ∧
      ∃ info elected graph, electedTwice.getNetTopologyAll 59 = .ok info ∧
        (chainWith electedTwice 58).getOriginalElect 59 = .ok elected ∧
        TopologyGraph.transfer2NextGraph elected ⟨58, [], 0⟩ 59
          (transferToNetTopologyAllStu info) = .ok graph ∧
        graph.nodeList.map (fun node => (node.account,node.type,node.stock)) =
          [(7,.validator,5),(7,.miner,5)] := by
  have h : (chainWith electedTwice 58).CarriesElections electedTwice :=
    carriesElections_chainWith 58 (getElection_fixedElections _ _)
  obtain ⟨info, hinfo, horiginal⟩ := h.getNetTopologyAll_eq (n := 59) (by decide) (by decide)
  have hinfo' : info = ⟨[⟨7, 0, .miner, 9, 0⟩], [], [⟨7, 0, .validator, 5, 0⟩], []⟩ := by
    cases hinfo
    rfl
  subst hinfo'
  exact ⟨h, rfl, _, _, _, hinfo, horiginal, rfl, by decide⟩

end Sample

end ChainDb

end MatrixNode
