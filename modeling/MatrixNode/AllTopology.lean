import MatrixNode.ElectionLists

/-! A full topology read back. -/
namespace MatrixNode
open GoLib ReElection List TopologyNodeInfo

def positionsPerRole : ℕ := 4096

def NetTopologyData.toNode (data : NetTopologyData) : TopologyNodeInfo :=
  ⟨data.account, data.position, getRoleTypeFromPosition data.position, 0, 0⟩

namespace ReElection

/-- The miners, their substitutes, the validators and their substitutes. Entries with any other role
are left out. -/
def paraseNetTopology (topo : NetTopology) :
    Except GoError (List TopologyNodeInfo × List TopologyNodeInfo × List TopologyNodeInfo ×
      List TopologyNodeInfo) :=
  if topo.type ≠ netTopoTypeAll then throw (.error "Net Topology is not all data")
  else
    let nodes := topo.netTopologyData.map NetTopologyData.toNode
    pure (nodes.filter (·.type = .miner), nodes.filter (·.type = .backupMiner),
      nodes.filter (·.type = .validator), nodes.filter (·.type = .backupValidator))

end ReElection

section Positions
variable {role : UInt8} {i : ℕ}

theorem toNat_generatePosition (hrole : role.toNat ≤ 3) (hi : i < positionsPerRole) :
    (generatePosition (UInt16.ofNat i) role).toNat = role.toNat*4096+i := by
  have hi' : i < 4096 := hi
  have hshift : (role.toUInt16 <<< 12).toNat = role.toNat*4096 := by
    rw [UInt16.toNat_shiftLeft, UInt8.toNat_toUInt16, Nat.shiftLeft_eq]
    have htwelve : 2^((12 : UInt16).toNat % 16) = 4096 := by decide
    rw [htwelve]
    exact Nat.mod_eq_of_lt (by omega)
  rw [generatePosition, UInt16.toNat_add, UInt16.toNat_ofNat']
  omega

theorem getRoleTypeFromPosition_generatePosition (hrole : role.toNat ≤ 3) (hi : i < positionsPerRole) :
    getRoleTypeFromPosition (generatePosition (UInt16.ofNat i) role) = transfer2CommonRole role := by
  have hi' : i < 4096 := hi
  have hbits : (generatePosition (UInt16.ofNat i) role >>> 12).toUInt8 = role := by
    apply UInt8.toNat_inj.mp
    rw [UInt16.toNat_toUInt8, UInt16.toNat_shiftRight, toNat_generatePosition hrole hi,
      Nat.shiftRight_eq_div_pow]
    have htwelve : 2^((12 : UInt16).toNat % 16) = 4096 := by decide
    rw [htwelve]
    omega
  rw [getRoleTypeFromPosition, hbits]

theorem getRoleTypeFromPosition_overflow (hrole : role.toNat ≤ 3) :
    getRoleTypeFromPosition (generatePosition (UInt16.ofNat positionsPerRole) role) ≠
      transfer2CommonRole role := by
  have hcases : role = 0 ∨ role = 1 ∨ role = 2 ∨ role = 3 := by
    simp only [← UInt8.toNat_inj]
    have h : role.toNat = 0 ∨ role.toNat = 1 ∨ role.toNat = 2 ∨ role.toNat = 3 := by omega
    exact h
  rcases hcases with rfl | rfl | rfl | rfl <;> decide

end Positions

section Lists
variable {role : UInt8} {nodes : List TopologyNodeInfo}

variable {d : NetTopologyData}

theorem mem_placeNodes (hd : d ∈ placeNodes role nodes) :
    ∃ i < nodes.length, d.position = generatePosition (UInt16.ofNat i) role := by
  obtain ⟨i, hi, rfl⟩ := mem_mapIdx.mp hd
  exact ⟨i, hi, rfl⟩

section
variable (hrole : role.toNat ≤ 3) (hlen : nodes.length ≤ positionsPerRole)
include hrole hlen

theorem toNat_position_placeNodes (hd : d ∈ placeNodes role nodes) :
    role.toNat*4096 ≤ d.position.toNat ∧ d.position.toNat < (role.toNat+1)*4096 := by
  obtain ⟨i, hi, hpos⟩ := mem_placeNodes hd
  have hi' : i < 4096 := hi.trans_le hlen
  rw [hpos, toNat_generatePosition hrole hi']
  omega

theorem type_placeNodes (hd : d ∈ placeNodes role nodes) :
    getRoleTypeFromPosition d.position = transfer2CommonRole role := by
  obtain ⟨i, hi, hpos⟩ := mem_placeNodes hd
  rw [hpos, getRoleTypeFromPosition_generatePosition hrole (hi.trans_le hlen)]

theorem nodup_placeNodes : ((placeNodes role nodes).map NetTopologyData.position).Nodup := by
  have hlength : (placeNodes role nodes).length = nodes.length := length_mapIdx
  have hget (i : ℕ) (hi : i < (placeNodes role nodes).length) :
      ((placeNodes role nodes)[i]).position.toNat = role.toNat*4096+i := by
    have hlt : i < positionsPerRole := (hlength ▸ hi).trans_le hlen
    rw [← toNat_generatePosition hrole hlt]
    simp [placeNodes]
  rw [nodup_iff_injective_getElem]
  intro i j hij
  have hi : i.val < (placeNodes role nodes).length := by simpa using i.isLt
  have hj : j.val < (placeNodes role nodes).length := by simpa using j.isLt
  dsimp only at hij
  rw [getElem_map, getElem_map] at hij
  have hnat := congrArg UInt16.toNat hij
  rw [hget i hi, hget j hj] at hnat
  exact Fin.ext (by omega)

end

/-- The entry after the last position of the role has another one. -/
theorem placeNodes_types_iff (nodes : List TopologyNodeInfo) (hrole : role.toNat ≤ 3) :
    (placeNodes role nodes).map
        (fun d => (d.account,getRoleTypeFromPosition d.position)) =
      nodes.map (fun node => (node.account,transfer2CommonRole role)) ↔
    nodes.length ≤ positionsPerRole := by
  constructor
  · intro h
    by_contra hlen
    have hlt : positionsPerRole < nodes.length := Nat.lt_of_not_le hlen
    have hget := congrArg (fun l => (l[positionsPerRole]?).map Prod.snd) h
    simp only [placeNodes, getElem?_map, getElem?_mapIdx,
      getElem?_eq_getElem hlt, Option.map_some, Option.some.injEq] at hget
    exact getRoleTypeFromPosition_overflow hrole hget
  · intro hlen
    have hmap : (placeNodes role nodes).map
        (fun d => (d.account,getRoleTypeFromPosition d.position)) =
        ((placeNodes role nodes).map NetTopologyData.account).map
          (fun a => (a,transfer2CommonRole role)) := by
      rw [map_map]
      apply map_congr_left
      intro d hd
      rw [type_placeNodes hrole hlen hd]
      rfl
    rw [hmap, placeNodes_account, map_map]
    rfl

theorem filter_placeNodes (hrole : role.toNat ≤ 3) (hlen : nodes.length ≤ positionsPerRole)
    (type : RoleType) :
    (((placeNodes role nodes).map NetTopologyData.toNode).filter (·.type = type)).map
        account =
      if transfer2CommonRole role = type then nodes.map account else [] := by
  have htype : ∀ node ∈ (placeNodes role nodes).map NetTopologyData.toNode,
      node.type = transfer2CommonRole role := by
    intro node hnode
    obtain ⟨d, hd, rfl⟩ := mem_map.mp hnode
    exact type_placeNodes hrole hlen hd
  split_ifs with hsame
  · have hall : ((placeNodes role nodes).map NetTopologyData.toNode).filter
        (·.type = type) = (placeNodes role nodes).map NetTopologyData.toNode := by
      apply filter_eq_self.mpr
      intro node hnode
      exact decide_eq_true ((htype node hnode).trans hsame)
    rw [hall, map_map, ← placeNodes_account role nodes]
    rfl
  · have hnone : ((placeNodes role nodes).map NetTopologyData.toNode).filter
        (·.type = type) = [] := by
      apply filter_eq_nil_iff.mpr
      intro node hnode heq
      exact hsame ((htype node hnode).symm.trans (of_decide_eq_true heq))
    rw [hnone]
    rfl

end Lists

namespace ElectReturnInfo
variable (info : ElectReturnInfo)

def places : List (Address × RoleType) :=
  info.masterValidator.map (fun node => (node.account,.validator)) ++
    info.backUpValidator.map (fun node => (node.account,.backupValidator)) ++
    info.masterMiner.map (fun node => (node.account,.miner)) ++
    info.backUpMiner.map (fun node => (node.account,.backupMiner))

def Fits : Prop :=
  info.masterValidator.length ≤ positionsPerRole ∧ info.backUpValidator.length ≤ positionsPerRole ∧
    info.masterMiner.length ≤ positionsPerRole ∧ info.backUpMiner.length ≤ positionsPerRole

/-- The full topology of an election gives the election back. -/
structure ReadsBack : Prop where
  parsed : ∃ masterMiner backUpMiner masterValidator backUpValidator,
    paraseNetTopology (transferToNetTopologyAllStu info) =
      .ok (masterMiner,backUpMiner,masterValidator,backUpValidator) ∧
    masterMiner.map account = info.masterMiner.map account ∧
    backUpMiner.map account = info.backUpMiner.map account ∧
    masterValidator.map account = info.masterValidator.map account ∧
    backUpValidator.map account = info.backUpValidator.map account
  graph : ∀ (electList : List Elect) (preGraph : TopologyGraph), ∃ next,
    preGraph.transfer2NextGraph electList (preGraph.number+1)
      (transferToNetTopologyAllStu info) = .ok next ∧
    next.nodeList.map (fun node => (node.account,node.type)) = info.places
  distinct : ((transferToNetTopologyAllStu info).netTopologyData.map
    NetTopologyData.position).Nodup
  unreserved : ∀ d ∈ (transferToNetTopologyAllStu info).netTopologyData,
    d.position ≠ posOnline ∧ d.position ≠ posOffline

variable {info}

theorem graph_places (info : ElectReturnInfo) (electList : List Elect) (preGraph : TopologyGraph) :
    ∃ next, preGraph.transfer2NextGraph electList (preGraph.number+1)
        (transferToNetTopologyAllStu info) = .ok next ∧
      next.nodeList.map (fun node => (node.account,node.type)) =
        (transferToNetTopologyAllStu info).netTopologyData.map
          (fun d => (d.account,getRoleTypeFromPosition d.position)) := by
  refine ⟨_, TopologyGraph.transfer2NextGraph_all _ rfl rfl, ?_⟩
  have hplaces := congrArg (map fun place : Address × UInt16 × RoleType => (place.1,place.2.2))
    (TopologyGraph.foldl_addNode_places electList
      (transferToNetTopologyAllStu info).netTopologyData
      { preGraph with number := preGraph.number+1, nodeList := [] })
  simpa [Function.comp_def] using hplaces

theorem places_eq_iff_fits :
    (transferToNetTopologyAllStu info).netTopologyData.map
        (fun d => (d.account,getRoleTypeFromPosition d.position)) = info.places ↔ info.Fits := by
  have hlength (role : UInt8) (nodes : List TopologyNodeInfo) (t : RoleType) :
      ((placeNodes role nodes).map
        (fun d => (d.account,getRoleTypeFromPosition d.position))).length =
        (nodes.map (fun node => (node.account,t))).length := by
    rw [length_map, length_map]
    exact length_mapIdx
  have hrole (role : UInt8) (hle : role.toNat ≤ 3) (nodes : List TopologyNodeInfo) :=
    placeNodes_types_iff nodes hle
  unfold places Fits transferToNetTopologyAllStu
  simp only [map_append]
  constructor
  · intro h
    obtain ⟨h, hbackM⟩ := append_inj' h (hlength _ _ _)
    obtain ⟨h, hmasterM⟩ := append_inj' h (hlength _ _ _)
    obtain ⟨hmasterV, hbackV⟩ := append_inj' h (hlength _ _ _)
    exact ⟨(hrole electRoleValidator (by decide) _).mp hmasterV,
      (hrole electRoleValidatorBackUp (by decide) _).mp hbackV,
      (hrole electRoleMiner (by decide) _).mp hmasterM,
      (hrole electRoleMinerBackUp (by decide) _).mp hbackM⟩
  · rintro ⟨hmasterV, hbackV, hmasterM, hbackM⟩
    rw [(hrole electRoleValidator (by decide) _).mpr hmasterV,
      (hrole electRoleValidatorBackUp (by decide) _).mpr hbackV,
      (hrole electRoleMiner (by decide) _).mpr hmasterM,
      (hrole electRoleMinerBackUp (by decide) _).mpr hbackM]
    rfl

theorem Fits.accounts (h : info.Fits) (type : RoleType) :
    (((transferToNetTopologyAllStu info).netTopologyData.map
      NetTopologyData.toNode).filter (·.type = type)).map account =
    (if RoleType.validator = type then info.masterValidator.map account else []) ++
    (if RoleType.backupValidator = type then info.backUpValidator.map account
      else []) ++
    (if RoleType.miner = type then info.masterMiner.map account else []) ++
    (if RoleType.backupMiner = type then info.backUpMiner.map account else []) := by
  obtain ⟨hmasterV, hbackV, hmasterM, hbackM⟩ := h
  unfold transferToNetTopologyAllStu
  simp only [map_append, filter_append]
  rw [filter_placeNodes (by decide) hmasterV, filter_placeNodes (by decide) hbackV,
    filter_placeNodes (by decide) hmasterM, filter_placeNodes (by decide) hbackM]
  rfl

theorem Fits.range (h : info.Fits) {d : NetTopologyData}
    (hd : d ∈ (transferToNetTopologyAllStu info).netTopologyData) :
    d.position.toNat < 4*4096 := by
  obtain ⟨hmasterV, hbackV, hmasterM, hbackM⟩ := h
  rcases mem_append.mp hd with hd | hd
  · rcases mem_append.mp hd with hd | hd
    · rcases mem_append.mp hd with hd | hd
      · exact (toNat_position_placeNodes (by decide) hmasterV hd).2.trans (by decide)
      · exact (toNat_position_placeNodes (by decide) hbackV hd).2
    · exact (toNat_position_placeNodes (by decide) hmasterM hd).2.trans (by decide)
  · exact (toNat_position_placeNodes (by decide) hbackM hd).2.trans (by decide)

theorem disjoint_placeNodes {role role' : UInt8} {nodes nodes' : List TopologyNodeInfo}
    (hroles : role.toNat ≤ 3 ∧ role'.toNat ≤ 3 ∧ role.toNat ≠ role'.toNat)
    (hlen : nodes.length ≤ positionsPerRole) (hlen' : nodes'.length ≤ positionsPerRole) :
    ((placeNodes role nodes).map NetTopologyData.position).Disjoint
      ((placeNodes role' nodes').map NetTopologyData.position) := by
  intro p hp hp'
  obtain ⟨d, hd, rfl⟩ := mem_map.mp hp
  obtain ⟨d', hd', heq⟩ := mem_map.mp hp'
  have hbounds := toNat_position_placeNodes hroles.1 hlen hd
  have hbounds' := toNat_position_placeNodes hroles.2.1 hlen' hd'
  rw [heq] at hbounds'
  omega

theorem Fits.distinct (h : info.Fits) :
    ((transferToNetTopologyAllStu info).netTopologyData.map
      NetTopologyData.position).Nodup := by
  obtain ⟨hmasterV, hbackV, hmasterM, hbackM⟩ := h
  unfold transferToNetTopologyAllStu
  simp only [map_append, nodup_append', disjoint_append_left]
  refine ⟨⟨⟨nodup_placeNodes (by decide) hmasterV, nodup_placeNodes (by decide) hbackV, ?_⟩,
    nodup_placeNodes (by decide) hmasterM, ?_, ?_⟩, nodup_placeNodes (by decide) hbackM,
    ⟨?_, ?_⟩, ?_⟩
  · exact disjoint_placeNodes (by decide) hmasterV hbackV
  · exact disjoint_placeNodes (by decide) hmasterV hmasterM
  · exact disjoint_placeNodes (by decide) hbackV hmasterM
  · exact disjoint_placeNodes (by decide) hmasterV hbackM
  · exact disjoint_placeNodes (by decide) hbackV hbackM
  · exact disjoint_placeNodes (by decide) hmasterM hbackM

variable (info) in
/-- A full topology is read back as the election it was made of exactly if no list has more than
4096 nodes. -/
theorem readsBack_iff_fits : info.ReadsBack ↔ info.Fits := by
  constructor
  · intro h
    obtain ⟨next, hnext, hread⟩ := h.graph [] ⟨0, [], 0⟩
    obtain ⟨next', hnext', hplaces⟩ := graph_places info [] ⟨0, [], 0⟩
    rw [hnext] at hnext'
    cases hnext'
    exact places_eq_iff_fits.mp (hplaces.symm.trans hread)
  · intro h
    refine ⟨⟨_, _, _, _, rfl, ?_, ?_, ?_, ?_⟩, ?_, h.distinct, ?_⟩
    · rw [h.accounts]
      simp
    · rw [h.accounts]
      simp
    · rw [h.accounts]
      simp
    · rw [h.accounts]
      simp
    · intro electList preGraph
      obtain ⟨next, hnext, hplaces⟩ := graph_places info electList preGraph
      exact ⟨next, hnext, hplaces.trans (places_eq_iff_fits.mpr h)⟩
    · intro d hd
      have hlt := h.range hd
      constructor
      · intro heq
        rw [heq] at hlt
        exact absurd hlt (by decide)
      · intro heq
        rw [heq] at hlt
        exact absurd hlt (by decide)

def tooManyBackUpMiners : ElectReturnInfo :=
  ⟨[], replicate (positionsPerRole+1) ⟨7, 0, .miner, 1, 0⟩, [], []⟩

theorem tooManyBackUpMiners_not_readsBack :
    tooManyBackUpMiners.backUpMiner.length = 4097 ∧ tooManyBackUpMiners.masterMiner = [] ∧
      tooManyBackUpMiners.masterValidator = [] ∧ tooManyBackUpMiners.backUpValidator = [] ∧
      ∀ (electList : List Elect) (preGraph next : TopologyGraph),
        preGraph.transfer2NextGraph electList (preGraph.number+1)
            (transferToNetTopologyAllStu tooManyBackUpMiners) = .ok next →
          next.nodeList.map (fun node => (node.account,node.type)) ≠ tooManyBackUpMiners.places := by
  have hlength : tooManyBackUpMiners.backUpMiner.length = 4097 := length_replicate
  refine ⟨hlength, rfl, rfl, rfl, ?_⟩
  intro electList preGraph next hnext hread
  obtain ⟨next', hnext', hplaces⟩ := graph_places tooManyBackUpMiners electList preGraph
  rw [hnext] at hnext'
  cases hnext'
  have hfits := places_eq_iff_fits.mp (hplaces.symm.trans hread)
  have hle : tooManyBackUpMiners.backUpMiner.length ≤ 4096 := hfits.2.2.2
  omega

end ElectReturnInfo

end MatrixNode
