import MatrixNode.NetTopology
import MatrixNode.GoMap

/-! `reelection/cal.go` and the two `election_topology.go`: the topology that a leader writes into a
header goes by the height, the check that the validators make of it by the type in the header. -/
namespace MatrixNode
open GoLib TopologyGraph

inductive OnlineState where
  | online
  | offline
  deriving DecidableEq

structure Alternative where
  a : Address
  b : Address
  position : UInt16

structure ElectReturnInfo where
  masterMiner : List TopologyNodeInfo
  backUpMiner : List TopologyNodeInfo
  masterValidator : List TopologyNodeInfo
  backUpValidator : List TopologyNodeInfo

structure ReElection where
  readElectMiner : ℕ → Except GoError (List TopologyNodeInfo × List TopologyNodeInfo)
  readElectValidator : ℕ → Except GoError (List TopologyNodeInfo × List TopologyNodeInfo)

namespace ReElection
variable (R : ReElection)

def getNetTopologyAll (height : ℕ) : Except GoError ElectReturnInfo :=
  if isReElectionNumber (height+1) then do
    let (masterMiner, backUpMiner) ← R.readElectMiner (height+1)
    let (masterValidator, backUpValidator) ← R.readElectValidator (height+1)
    pure ⟨masterMiner, backUpMiner, masterValidator, backUpValidator⟩
  else pure ⟨[], [], [], []⟩

def checkInGraph (top : TopologyGraph) (pos : UInt16) : Address :=
  ((top.nodeList.find? (·.position = pos)).map TopologyNodeInfo.account).getD 0

def checkInDiff (diff : NetTopology) (add : Address) : Bool :=
  diff.netTopologyData.any (·.account = add)

def parseTopNodeOffline (topologyChg : NetTopology) (prevTopology : TopologyGraph) : List Address :=
  if topologyChg.type ≠ netTopoTypeChange then []
  else topologyChg.netTopologyData.filterMap (fun v =>
    if v.position = posOffline ∨ v.position = posOnline then none
    else
      let account := checkInGraph prevTopology v.position
      if checkInDiff topologyChg account then none else some account)

/-- The nodes that came online and those that went offline. -/
def parsePrimaryTopNodeState (topologyChg : NetTopology) : List Address × List Address :=
  if topologyChg.type ≠ netTopoTypeChange then ([], [])
  else ((topologyChg.netTopologyData.filter (·.position = posOnline)).map NetTopologyData.account,
    (topologyChg.netTopologyData.filter (·.position = posOffline)).map NetTopologyData.account)

def placeNodes (role : UInt8) (nodes : List TopologyNodeInfo) : List NetTopologyData :=
  nodes.mapIdx (fun i node => ⟨node.account, generatePosition (UInt16.ofNat i) role⟩)

def transferToNetTopologyAllStu (info : ElectReturnInfo) : NetTopology :=
  ⟨netTopoTypeAll, placeNodes electRoleValidator info.masterValidator ++
    placeNodes electRoleValidatorBackUp info.backUpValidator ++
    placeNodes electRoleMiner info.masterMiner ++
    placeNodes electRoleMinerBackUp info.backUpMiner⟩

def transferToNetTopologyChgStu (alterInfo : List Alternative)
    (onlinePrimaryNods offlinePrimaryNodes : List Address) : NetTopology :=
  ⟨netTopoTypeChange, alterInfo.map (fun alter => ⟨alter.a, alter.position⟩) ++
    onlinePrimaryNods.map (⟨·, posOnline⟩) ++ offlinePrimaryNodes.map (⟨·, posOffline⟩)⟩

/-- `GetTopoChange` returns before it looks at anything. -/
def getTopoChange (_height : ℕ) (_offline : List Address) : Except GoError (List Alternative) := .ok []

end ReElection

structure ConsensusOnlineState where
  curTopNodeState : GoMap Address OnlineState
  primaryNodeState : GoMap Address OnlineState

/-- `GetConsensusOnlineState`: both maps are nil. -/
def getConsensusOnlineState : ConsensusOnlineState := ⟨∅, ∅⟩

def checkStateByConsensus (offlineNodes onlineNodes : List Address)
    (stateMap : GoMap Address OnlineState) : Bool :=
  offlineNodes.all (fun node => stateMap.lookup node = some .offline) &&
    onlineNodes.all (fun node => stateMap.lookup node = some .online)

def errTopoSize : GoError := .error "topology count not match"

def errTopoInfo : GoError := .error "topology info not match"

def errTopNodeState : GoError := .error "cur top node consensus state not match"

def errPrimaryNodeState : GoError := .error "primary node consensus state not match"

structure TopologyNode (Hash : Type) where
  reElection : ReElection
  number : ℕ
  getTopologyByNumber : ℕ → Except GoError TopologyGraph
  rlpHash : NetTopology → Hash

namespace TopologyNode
variable {Hash : Type} [DecidableEq Hash] (P : TopologyNode Hash)

def compareTopology (topology netTopology : NetTopology) : Except GoError Unit :=
  if netTopology.netTopologyData.length ≠ topology.netTopologyData.length then throw errTopoSize
  else if P.rlpHash topology ≠ P.rlpHash netTopology then throw errTopoInfo
  else pure ()

def verifyAllNetTopology (number : ℕ) (topology : NetTopology) : Except GoError Unit := do
  let info ← P.reElection.getNetTopologyAll number
  P.compareTopology topology (ReElection.transferToNetTopologyAllStu info)

/-- `verifyChgNetTopology` for a node that keeps online states. -/
def verifyChgNetTopologyOn (S : ConsensusOnlineState) (topology : NetTopology) : Except GoError Unit :=
  if topology.netTopologyData = [] then pure ()
  else do
    let prevTopology ← P.getTopologyByNumber (P.number-1)
    let offlineTopNodes := ReElection.parseTopNodeOffline topology prevTopology
    let (onlinePrimaryNods, offlinePrimaryNodes) := ReElection.parsePrimaryTopNodeState topology
    if checkStateByConsensus offlineTopNodes [] S.curTopNodeState = false then throw errTopNodeState
    else if checkStateByConsensus offlinePrimaryNodes onlinePrimaryNods S.primaryNodeState = false then
      throw errPrimaryNodeState
    else do
      let alterInfo ← ReElection.getTopoChange P.number offlineTopNodes
      P.compareTopology topology
        (ReElection.transferToNetTopologyChgStu alterInfo onlinePrimaryNods offlinePrimaryNodes)

def verifyChgNetTopology (topology : NetTopology) : Except GoError Unit :=
  P.verifyChgNetTopologyOn getConsensusOnlineState topology

def verifyNetTopology (number : ℕ) (topology : NetTopology) : Except GoError Unit :=
  if topology.type = netTopoTypeAll then P.verifyAllNetTopology number topology
  else P.verifyChgNetTopology topology

/-- `getNetTopology` of the leader; `current` is the topology of the parent's header. What fails is
nil. -/
def getNetTopology (current : NetTopology) (num : ℕ) : Option NetTopology :=
  if isReElectionNumber (num+1) then
    (P.reElection.getNetTopologyAll num).toOption.map ReElection.transferToNetTopologyAllStu
  else (P.getTopologyByNumber (num-1)).toOption.bind (fun prevTopology =>
    let offlineTopNodes := ReElection.parseTopNodeOffline current prevTopology
    let (onlinePrimaryNods, offlinePrimaryNodes) := ReElection.parsePrimaryTopNodeState current
    (ReElection.getTopoChange num offlineTopNodes).toOption.map (fun alterInfo =>
      ReElection.transferToNetTopologyChgStu alterInfo onlinePrimaryNods offlinePrimaryNodes))

def proposedTopology (current : NetTopology) (num : ℕ) : NetTopology :=
  (P.getNetTopology current num).getD ⟨netTopoTypeChange, []⟩

section Accepted
variable {P} {number : ℕ} {topology : NetTopology}

theorem compareTopology_ok_iff (hinj : Function.Injective P.rlpHash) {netTopology : NetTopology} :
    P.compareTopology topology netTopology = .ok () ↔ topology = netTopology := by
  unfold compareTopology
  simp only [throw_eq_error, ite_error_eq_ok, not_not, pure_eq_ok, and_true]
  constructor
  · exact fun h => hinj h.2
  · rintro rfl
    exact ⟨rfl, rfl⟩

theorem checkStateByConsensus_empty {offlineNodes onlineNodes : List Address}
    (h : checkStateByConsensus offlineNodes onlineNodes ∅ = true) :
    offlineNodes = [] ∧ onlineNodes = [] := by
  have hnone (nodes : List Address) (state : OnlineState)
      (hall : nodes.all (fun node => (∅ : GoMap Address OnlineState).lookup node = some state) = true) :
      nodes = [] := by
    apply List.eq_nil_iff_forall_not_mem.mpr
    intro node hmem
    have hnode := List.all_eq_true.mp hall node hmem
    cases hnode
  have hboth := Bool.and_eq_true_iff.mp h
  exact ⟨hnone _ _ hboth.1, hnone _ _ hboth.2⟩

theorem verifyChgNetTopology_ok_iff (hinj : Function.Injective P.rlpHash) :
    P.verifyChgNetTopology topology = .ok () ↔ topology.netTopologyData = [] := by
  unfold verifyChgNetTopology verifyChgNetTopologyOn
  by_cases hnil : topology.netTopologyData = []
  · rw [if_pos hnil]
    exact iff_of_true rfl hnil
  · rw [if_neg hnil]
    refine iff_of_false ?_ hnil
    intro h
    obtain ⟨prev, -, h⟩ := bind_eq_ok_iff.mp h
    rcases hprimary : ReElection.parsePrimaryTopNodeState topology with ⟨online, offline⟩
    simp only [throw_eq_error, ite_error_eq_ok, Bool.not_eq_false] at h
    obtain ⟨-, hstate, h⟩ := h
    obtain ⟨hoffline, honline⟩ := checkStateByConsensus_empty hstate
    obtain ⟨alterInfo, halter, h⟩ := bind_eq_ok_iff.mp h
    cases halter
    have hsame := (compareTopology_ok_iff hinj).mp h
    rw [hoffline, honline] at hsame
    exact hnil (congrArg NetTopology.netTopologyData hsame)

theorem verifyNetTopology_ok_iff (hinj : Function.Injective P.rlpHash) :
    P.verifyNetTopology number topology = .ok () ↔
      (∃ info, P.reElection.getNetTopologyAll number = .ok info ∧
        topology = ReElection.transferToNetTopologyAllStu info) ∨
      (topology.type ≠ netTopoTypeAll ∧ topology.netTopologyData = []) := by
  unfold verifyNetTopology
  by_cases hall : topology.type = netTopoTypeAll
  · rw [if_pos hall, verifyAllNetTopology, bind_eq_ok_iff]
    simp only [compareTopology_ok_iff hinj, hall, ne_eq, not_true_eq_false, false_and, or_false]
  · rw [if_neg hall, verifyChgNetTopology_ok_iff hinj]
    constructor
    · exact fun h => .inr ⟨hall, h⟩
    · rintro (⟨info, -, rfl⟩ | h)
      · exact absurd rfl hall
      · exact h.2

end Accepted

/-- At the height before a re-election the topology is the elected one, at every other height it
changes the graph of the parent; and it leaves a validator if there was one. -/
structure FollowsElection (number : ℕ) (topology : NetTopology) (parent : TopologyGraph)
    (electList : List Elect) : Prop where
  all_iff : topology.type = netTopoTypeAll ↔ isReElectionNumber (number+1) = true
  elected : isReElectionNumber (number+1) = true → ∃ info next,
    P.reElection.getNetTopologyAll number = .ok info ∧
    topology = ReElection.transferToNetTopologyAllStu info ∧
    parent.transfer2NextGraph electList number topology = .ok next ∧
    next.nodeList.map (fun node => (node.account, node.position, node.type)) =
      topology.netTopologyData.map
        (fun d => (d.account, d.position, getRoleTypeFromPosition d.position))
  kept : isReElectionNumber (number+1) = false →
    ∃ next, parent.transfer2NextGraph electList number topology = .ok next ∧
      ∀ node ∈ parent.nodeList, node ∈ next.nodeList ∨
        ∃ chgInfo ∈ topology.netTopologyData, chgInfo.Displaces node
  staffed : parent.HasValidator → ∃ next,
    parent.transfer2NextGraph electList number topology = .ok next ∧ next.HasValidator

/-- The type of the topology is the one for the height, and before a re-election the list names a
validator if the parent has one. -/
def FitsHeight (number : ℕ) (topology : NetTopology) (parent : TopologyGraph) : Prop :=
  if isReElectionNumber (number+1) = true then
    topology.type = netTopoTypeAll ∧ (parent.HasValidator →
      ∃ d ∈ topology.netTopologyData, getRoleTypeFromPosition d.position = .validator)
  else topology.type = netTopoTypeChange

section Follows
variable {P} {number : ℕ} {topology : NetTopology} {parent : TopologyGraph} {electList : List Elect}

omit [DecidableEq Hash] in
theorem FollowsElection.fitsHeight (hnum : parent.number+1 = number)
    (h : P.FollowsElection number topology parent electList) : FitsHeight number topology parent := by
  unfold FitsHeight
  split_ifs with hre
  · have hall := h.all_iff.mpr hre
    refine ⟨hall, ?_⟩
    intro hparent
    obtain ⟨next, hnext, hvalidator⟩ := h.staffed hparent
    rw [transfer2NextGraph_all electList hnum hall] at hnext
    cases hnext
    exact (hasValidator_foldl_addNode ..).mp hvalidator
  · obtain ⟨next, hnext, -⟩ := h.kept (Bool.eq_false_iff.mpr hre)
    have hall : topology.type ≠ netTopoTypeAll := fun hall => hre (h.all_iff.mp hall)
    exact (transfer2NextGraph_type electList hnext).resolve_left hall

/-- An accepted topology of any other type is empty, so it takes nobody away. -/
theorem FitsHeight.followsElection (hinj : Function.Injective P.rlpHash)
    (hnum : parent.number+1 = number) (haccepted : P.verifyNetTopology number topology = .ok ())
    (h : FitsHeight number topology parent) : P.FollowsElection number topology parent electList := by
  rw [verifyNetTopology_ok_iff hinj] at haccepted
  unfold FitsHeight at h
  split_ifs at h with hre
  · obtain ⟨hall, hvalidator⟩ := h
    have hnext := transfer2NextGraph_all electList hnum hall
    obtain ⟨info, hinfo, htopology⟩ := haccepted.resolve_right (fun hother => hother.1 hall)
    refine ⟨iff_of_true hall hre, fun _ => ⟨info, _, hinfo, htopology, hnext, ?_⟩, ?_, ?_⟩
    · rw [foldl_addNode_places]
      rfl
    · intro hno
      rw [hre] at hno
      cases hno
    · intro hparent
      exact ⟨_, hnext, (hasValidator_foldl_addNode ..).mpr (hvalidator hparent)⟩
  · have hall : topology.type ≠ netTopoTypeAll := by
      rw [h]
      decide
    have hnext := transfer2NextGraph_change electList hnum h
    have hnil : topology.netTopologyData = [] := by
      rcases haccepted with ⟨info, -, rfl⟩ | hother
      · exact absurd rfl hall
      · exact hother.2
    refine ⟨iff_of_false hall hre, fun h => absurd h hre, fun _ => ⟨_, hnext, ?_⟩, ?_⟩
    · intro node hmem
      exact mem_foldl_change electList _ hmem
    · intro hparent
      rw [hnil] at hnext
      exact ⟨_, hnext, hparent⟩

/-- The check accepts a topology whatever its type; what it accepts does its work exactly if the type
fits the height. -/
theorem followsElection_iff (hinj : Function.Injective P.rlpHash) (hnum : parent.number+1 = number)
    (h : P.verifyNetTopology number topology = .ok ()) :
    P.FollowsElection number topology parent electList ↔ FitsHeight number topology parent :=
  ⟨FollowsElection.fitsHeight hnum, FitsHeight.followsElection hinj hnum h⟩

end Follows

section Sample

/-- A node with an elected validator and an elected miner, whose database may have been lost. -/
def electedNode (readable : Bool) : TopologyNode NetTopology where
  reElection :=
    { readElectMiner := fun _ => .ok ([⟨8, 0, .miner, 1, 0⟩], [])
      readElectValidator := fun _ =>
        if readable then .ok ([⟨7, 0, .validator, 1, 0⟩], []) else .error (.error "leveldb: not found") }
  number := 59
  getTopologyByNumber := fun _ => .error errTopoInfo
  rlpHash := id

def validatorGraph (number : ℕ) : TopologyGraph := ⟨number, [⟨5, 0x2000, .validator, 1, 0⟩], 0⟩

theorem electedNode_follows :
    (electedNode true).FollowsElection 59 ⟨netTopoTypeAll, [⟨7, 0x2000⟩, ⟨8, 0⟩]⟩ (validatorGraph 58) [] := by
  have haccepted : (electedNode true).verifyNetTopology 59
      ⟨netTopoTypeAll, [⟨7, 0x2000⟩, ⟨8, 0⟩]⟩ = .ok () := by
    decide +kernel
  have hnum : (validatorGraph 58).number+1 = 59 := rfl
  refine (followsElection_iff Function.injective_id hnum haccepted).mpr ?_
  exact ⟨rfl, fun _ => ⟨_, List.mem_cons_self, by decide⟩⟩

/-- An empty full list leaves no validator at height 5; an empty change leaves the old one at height
59. -/
theorem unfit_types_accepted :
    (electedNode true).verifyNetTopology 5 ⟨netTopoTypeAll, []⟩ = .ok () ∧
    (validatorGraph 4).transfer2NextGraph [] 5 ⟨netTopoTypeAll, []⟩ = .ok ⟨5, [], 0⟩ ∧
    isReElectionNumber (59+1) = true ∧
    (electedNode false).proposedTopology ⟨netTopoTypeChange, []⟩ 59 = ⟨netTopoTypeChange, []⟩ ∧
    (electedNode true).verifyNetTopology 59 ⟨netTopoTypeChange, []⟩ = .ok () ∧
    (validatorGraph 58).transfer2NextGraph [] 59 ⟨netTopoTypeChange, []⟩ = .ok (validatorGraph 59) :=
  ⟨by decide +kernel, rfl, by decide, by decide +kernel, by decide +kernel, rfl⟩

end Sample

/-- `P` gives the node as it is at each height. -/
theorem run_hasValidator {P : ℕ → TopologyNode Hash} (hinj : ∀ n, Function.Injective (P n).rlpHash)
    (electList : ℕ → List Elect) {headers : List (ℕ × NetTopology)} {graph last : TopologyGraph}
    (hgood : ∀ header ∈ headers, (P header.1).verifyNetTopology header.1 header.2 = .ok () ∧
      ∀ parent, FitsHeight header.1 header.2 parent)
    (hgraph : graph.HasValidator)
    (hrun : run (fun graph header => graph.transfer2NextGraph (electList header.1) header.1 header.2)
      graph headers = .ok last) : last.HasValidator := by
  refine run_preserves ?_ hgood hgraph hrun
  rintro s ⟨number, topology⟩ s' ⟨haccepted, hfits⟩ hs hnext
  have hnum := transfer2NextGraph_number _ hnext
  have hfollows : (P number).FollowsElection number topology s (electList number) :=
    (hfits s).followsElection (hinj number) hnum haccepted
  obtain ⟨next, hok, hvalidator⟩ := hfollows.staffed hs
  have hsame : next = s' := Except.ok.inj (hok.symm.trans hnext)
  rwa [← hsame]

/-- A change at height 58, and the full list at 59. -/
theorem run_hasValidator_to_re_election : ∃ last,
    run (fun graph header => graph.transfer2NextGraph [] header.1 header.2) (validatorGraph 57)
      [(58,⟨netTopoTypeChange, []⟩), (59,⟨netTopoTypeAll, [⟨7, 0x2000⟩, ⟨8, 0⟩]⟩)] = .ok last ∧
    last.HasValidator := by
  have hrun : run (fun graph header => graph.transfer2NextGraph [] header.1 header.2)
      (validatorGraph 57) [(58,⟨netTopoTypeChange, []⟩),
        (59,⟨netTopoTypeAll, [⟨7, 0x2000⟩, ⟨8, 0⟩]⟩)] = .ok _ := rfl
  refine ⟨_, hrun, ?_⟩
  apply run_hasValidator (P := fun number => { electedNode true with number := number })
    (fun _ => Function.injective_id) (fun _ => []) ?_ ?_ hrun
  · intro header hmem
    fin_cases hmem
    · exact ⟨by decide +kernel, fun _ => rfl⟩
    · exact ⟨by decide +kernel, fun _ => ⟨rfl, fun _ => ⟨_, List.mem_cons_self, by decide⟩⟩⟩
  · exact ⟨_, List.mem_cons_self, rfl⟩

end TopologyNode

end MatrixNode
