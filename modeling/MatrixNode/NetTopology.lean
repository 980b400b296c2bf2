import MatrixNode.ChainTypes
import MatrixNode.StepRun

/-! `mc/funcdef.go` and the positions of `common/matrix.go`: how the topology that a header carries
turns the graph of its parent into its own. -/
namespace MatrixNode
open GoLib List

def posOffline : UInt16 := 0xF000

def posOnline : UInt16 := 0xF001

def netTopoTypeAll : UInt8 := 0

def netTopoTypeChange : UInt8 := 1

def electRoleMiner : UInt8 := 0

def electRoleMinerBackUp : UInt8 := 1

def electRoleValidator : UInt8 := 2

def electRoleValidatorBackUp : UInt8 := 3

def transfer2CommonRole (ert : UInt8) : RoleType :=
  if ert = electRoleMiner then .miner
  else if ert = electRoleMinerBackUp then .backupMiner
  else if ert = electRoleValidator then .validator
  else if ert = electRoleValidatorBackUp then .backupValidator
  else .nil

/-- The role is in the upper four bits of a position. -/
def getRoleTypeFromPosition (position : UInt16) : RoleType :=
  transfer2CommonRole (position >>> 12).toUInt8

def generatePosition (index : UInt16) (electRole : UInt8) : UInt16 :=
  (electRole.toUInt16 <<< 12)+index

/-- A node that was not elected counts for 1. -/
def getNodeStock (addr : Address) (electList : List Elect) : UInt16 :=
  ((electList.find? (·.account = addr)).map Elect.stock).getD 1

def increaseNodeNumber (curNodeNumber : UInt8) : UInt8 :=
  if 99 ≤ curNodeNumber then 0 else curNodeNumber+1

def NetTopologyData.Displaces (chgInfo : NetTopologyData) (node : TopologyNodeInfo) : Prop :=
  chgInfo.position = node.position ∨
    (chgInfo.position = posOffline ∧ chgInfo.account = node.account)

namespace TopologyGraph
variable (electList : List Elect) (graph : TopologyGraph)

def addNode (topNode : NetTopologyData) : TopologyGraph :=
  let nodeNumber := increaseNodeNumber graph.curNodeNumber
  { graph with
    nodeList := graph.nodeList ++ [⟨topNode.account, topNode.position,
      getRoleTypeFromPosition topNode.position, getNodeStock topNode.account electList, nodeNumber⟩]
    curNodeNumber := nodeNumber }

/-- The search for the node that an entry of a change is about, with the last node number given
out. The first node that fits is replaced or, if it went offline, removed. -/
def changeNode (chgInfo : NetTopologyData) (curNodeNumber : UInt8) :
    List TopologyNodeInfo → List TopologyNodeInfo × UInt8
  | [] => ([], curNodeNumber)
  | topNode :: rest =>
    if chgInfo.position = topNode.position then
      let nodeNumber := increaseNodeNumber curNodeNumber
      ({ topNode with
        account := chgInfo.account
        stock := getNodeStock chgInfo.account electList
        nodeNumber := nodeNumber } :: rest, nodeNumber)
    else if chgInfo.position = posOffline ∧ chgInfo.account = topNode.account then
      (rest, curNodeNumber)
    else
      let (rest, curNodeNumber) := changeNode chgInfo curNodeNumber rest
      (topNode :: rest, curNodeNumber)

def change (chgInfo : NetTopologyData) : TopologyGraph :=
  let (nodeList, curNodeNumber) := changeNode electList chgInfo graph.curNodeNumber graph.nodeList
  { graph with nodeList := nodeList, curNodeNumber := curNodeNumber }

def transfer2NextGraph (number : ℕ) (blockTopology : NetTopology) : Except GoError TopologyGraph :=
  if graph.number+1 ≠ number then
    throw (.error ("高度不匹配,current(" ++ toString graph.number ++ ") + 1 != target(" ++
      toString number ++ ")"))
  else if blockTopology.type = netTopoTypeAll then
    pure (blockTopology.netTopologyData.foldl (addNode electList)
      { graph with number := number, nodeList := [] })
  else if blockTopology.type = netTopoTypeChange then
    pure (blockTopology.netTopologyData.foldl (change electList) { graph with number := number })
  else
    throw (.error ("生成验证者列表错误, 输入区块拓扑类型(" ++ toString blockTopology.type.toNat ++ ")错误!"))

def HasValidator : Prop := ∃ node ∈ graph.nodeList, node.type = .validator

section Spec
variable {graph next : TopologyGraph} {number : ℕ} {topology : NetTopology}

theorem transfer2NextGraph_all (hnum : graph.number+1 = number) (htype : topology.type = netTopoTypeAll) :
    graph.transfer2NextGraph electList number topology =
      .ok (topology.netTopologyData.foldl (addNode electList)
        { graph with number := number, nodeList := [] }) := by
  unfold transfer2NextGraph
  rw [if_neg (not_not.mpr hnum), if_pos htype]
  rfl

theorem transfer2NextGraph_change (hnum : graph.number+1 = number)
    (htype : topology.type = netTopoTypeChange) :
    graph.transfer2NextGraph electList number topology =
      .ok (topology.netTopologyData.foldl (change electList) { graph with number := number }) := by
  have hall : topology.type ≠ netTopoTypeAll := by
    rw [htype]
    decide
  unfold transfer2NextGraph
  rw [if_neg (not_not.mpr hnum), if_neg hall, if_pos htype]
  rfl

theorem transfer2NextGraph_number (h : graph.transfer2NextGraph electList number topology = .ok next) :
    graph.number+1 = number := by
  unfold transfer2NextGraph at h
  rw [throw_eq_error, ite_error_eq_ok] at h
  exact not_not.mp h.1

theorem transfer2NextGraph_type (h : graph.transfer2NextGraph electList number topology = .ok next) :
    topology.type = netTopoTypeAll ∨ topology.type = netTopoTypeChange := by
  unfold transfer2NextGraph at h
  split_ifs at h with hnum hall hchange
  · exact .inl hall
  · exact .inr hchange

variable {node : TopologyNodeInfo}

theorem mem_changeNode (chgInfo : NetTopologyData) {nodes : List TopologyNodeInfo}
    (curNodeNumber : UInt8) (h : node ∈ nodes) :
    node ∈ (changeNode electList chgInfo curNodeNumber nodes).1 ∨ chgInfo.Displaces node := by
  induction nodes with
  | nil => exact .inl h
  | cons first rest ih =>
    unfold changeNode
    split_ifs with hpos hoff
    · rcases mem_cons.mp h with rfl | h
      · exact .inr (.inl hpos)
      · exact .inl (mem_cons_of_mem _ h)
    · rcases mem_cons.mp h with rfl | h
      · exact .inr (.inr hoff)
      · exact .inl h
    · rcases mem_cons.mp h with rfl | h
      · exact .inl mem_cons_self
      · exact (ih h).imp_left (mem_cons_of_mem _)

variable (data : List NetTopologyData)

theorem mem_foldl_change (h : node ∈ graph.nodeList) :
    node ∈ (data.foldl (change electList) graph).nodeList ∨
      ∃ chgInfo ∈ data, chgInfo.Displaces node := by
  induction data generalizing graph with
  | nil => exact .inl h
  | cons chgInfo rest ih =>
    rcases mem_changeNode electList chgInfo graph.curNodeNumber h with hkept | hdisplaced
    · have hchanged : node ∈ (graph.change electList chgInfo).nodeList := hkept
      rcases ih hchanged with hkept | ⟨other, hmem, hother⟩
      · exact .inl hkept
      · exact .inr ⟨other, mem_cons_of_mem _ hmem, hother⟩
    · exact .inr ⟨chgInfo, mem_cons_self, hdisplaced⟩

theorem foldl_addNode_places (graph : TopologyGraph) :
    (data.foldl (addNode electList) graph).nodeList.map
        (fun node => (node.account, node.position, node.type)) =
      graph.nodeList.map (fun node => (node.account, node.position, node.type)) ++
        data.map (fun d => (d.account, d.position, getRoleTypeFromPosition d.position)) := by
  induction data generalizing graph with
  | nil => exact (append_nil _).symm
  | cons d rest ih =>
    rw [foldl_cons, ih]
    simp [addNode]

theorem hasValidator_foldl_addNode (number : ℕ) (curNodeNumber : UInt8) :
    (data.foldl (addNode electList) ⟨number, [], curNodeNumber⟩).HasValidator ↔
      ∃ d ∈ data, getRoleTypeFromPosition d.position = .validator := by
  have hplaces := foldl_addNode_places electList data ⟨number, [], curNodeNumber⟩
  obtain ⟨nodes, hnodes⟩ : ∃ nodes, nodes =
    (data.foldl (addNode electList) ⟨number, [], curNodeNumber⟩).nodeList := ⟨_, rfl⟩
  unfold HasValidator
  have htypes := congrArg (map (fun place => place.2.2)) hplaces
  simp only [map_nil, nil_append, map_map, Function.comp_def] at htypes
  constructor
  · rintro ⟨node, hmem, htype⟩
    have hin := mem_map_of_mem (f := TopologyNodeInfo.type) hmem
    rw [htypes, htype] at hin
    exact mem_map.mp hin
  · rintro ⟨d, hmem, htype⟩
    have hin := mem_map_of_mem (f := fun d : NetTopologyData => getRoleTypeFromPosition d.position) hmem
    rw [← htypes, htype] at hin
    exact mem_map.mp hin

end Spec

end TopologyGraph

end MatrixNode
