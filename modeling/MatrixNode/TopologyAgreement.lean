import MatrixNode.TopologyStore
import MatrixNode.TopologyVerification

/-! What a leader puts into its header about elections and topology, and what the validators check:
`blockgenor/gen_election_topology.go` and `blkverify/verify_election_topology.go`. -/
namespace MatrixNode
open GoLib ReElection List

def errGetElection : GoError := .error "get election info err"

def errElectionSize : GoError := .error "election count not match"

def errElectionInfo : GoError := .error "election info not match"

namespace ReElection

/-- The miners are announced four blocks before a re-election and the validators six blocks before. -/
def getElection (R : ReElection) (height : ℕ) : Except GoError ElectReturnInfo :=
  if isReElectionNumber (height+minerNetChangeUpTime) then do
    let (masterMiner, backUpMiner) ← R.readElectMiner (height+minerNetChangeUpTime)
    pure ⟨masterMiner, backUpMiner, [], []⟩
  else if isReElectionNumber (height+verifyNetChangeUpTime) then do
    let (masterValidator, backUpValidator) ← R.readElectValidator (height+verifyNetChangeUpTime)
    pure ⟨[], [], masterValidator, backUpValidator⟩
  else pure ⟨[], [], [], []⟩

def electNodes (role : UInt8) (nodes : List TopologyNodeInfo) : List Elect :=
  nodes.map (fun node => ⟨node.account, node.stock, role⟩)

def transferToElectionStu (info : ElectReturnInfo) : List Elect :=
  electNodes electRoleValidator info.masterValidator ++
    electNodes electRoleValidatorBackUp info.backUpValidator ++
    electNodes electRoleMiner info.masterMiner ++ electNodes electRoleMinerBackUp info.backUpMiner

section FixedPoint
variable (online offline : List Address)

/-- Each of the two filters keeps the entries of its own position and none of the other. -/
theorem parsePrimaryTopNodeState_transfer :
    parsePrimaryTopNodeState (transferToNetTopologyChgStu [] online offline) = (online, offline) := by
  have hkeep (pos : UInt16) (nodes : List Address) :
      ((nodes.map (fun a => (⟨a, pos⟩ : NetTopologyData))).filter (·.position = pos)).map
        NetTopologyData.account = nodes := by
    simp [filter_map, Function.comp_def]
  have hdrop {pos pos' : UInt16} (hne : pos' ≠ pos) (nodes : List Address) :
      (nodes.map (fun a => (⟨a, pos'⟩ : NetTopologyData))).filter (·.position = pos) = [] := by
    simp [hne]
  have hne : posOffline ≠ posOnline := by decide
  have htype : (transferToNetTopologyChgStu [] online offline).type = netTopoTypeChange := rfl
  unfold parsePrimaryTopNodeState
  rw [if_neg (not_not.mpr htype)]
  simp only [transferToNetTopologyChgStu, map_nil, nil_append, filter_append,
    hdrop hne, hdrop hne.symm, append_nil, hkeep]

theorem parseTopNodeOffline_transfer (prevTopology : TopologyGraph) :
    parseTopNodeOffline (transferToNetTopologyChgStu [] online offline) prevTopology = [] := by
  have hskip : ∀ v ∈ (transferToNetTopologyChgStu [] online offline).netTopologyData,
      v.position = posOffline ∨ v.position = posOnline := by
    intro v hv
    simp only [transferToNetTopologyChgStu, map_nil, nil_append, mem_append, mem_map] at hv
    rcases hv with ⟨a, -, rfl⟩ | ⟨a, -, rfl⟩
    · exact .inr rfl
    · exact .inl rfl
  unfold parseTopNodeOffline
  split_ifs
  · rfl
  · apply filterMap_eq_nil_iff.mpr
    intro v hv
    rw [if_pos (hskip v hv)]

end FixedPoint

end ReElection

namespace ConsensusOnlineState

/-- The nodes agreed on every change that the topology lists. -/
def Matches (S : ConsensusOnlineState) (topology : NetTopology) : Prop :=
  topology.type = netTopoTypeChange → ∀ d ∈ topology.netTopologyData,
    (d.position = posOnline → S.primaryNodeState.lookup d.account = some .online) ∧
    (d.position = posOffline → S.primaryNodeState.lookup d.account = some .offline)

theorem Matches.check {S : ConsensusOnlineState} {topology : NetTopology} (h : S.Matches topology) :
    checkStateByConsensus (parsePrimaryTopNodeState topology).2
      (parsePrimaryTopNodeState topology).1 S.primaryNodeState = true := by
  unfold parsePrimaryTopNodeState
  split_ifs with htype
  · rfl
  · have hentries := h (not_not.mp htype)
    apply Bool.and_eq_true_iff.mpr
    constructor
    · apply all_eq_true.mpr
      intro node hnode
      obtain ⟨d, hd, rfl⟩ := mem_map.mp hnode
      obtain ⟨hmem, hpos⟩ := mem_filter.mp hd
      exact decide_eq_true ((hentries d hmem).2 (of_decide_eq_true hpos))
    · apply all_eq_true.mpr
      intro node hnode
      obtain ⟨d, hd, rfl⟩ := mem_map.mp hnode
      obtain ⟨hmem, hpos⟩ := mem_filter.mp hd
      exact decide_eq_true ((hentries d hmem).1 (of_decide_eq_true hpos))

end ConsensusOnlineState

namespace TopologyNode
variable {Hash : Type} [DecidableEq Hash] (P : TopologyNode Hash)

omit [DecidableEq Hash] in
/-- What fails is nil. -/
def genElection (num : ℕ) : List Elect :=
  ((P.reElection.getElection num).toOption.map transferToElectionStu).getD []

def verifyElection (electHash : List Elect → Hash) (elect : List Elect) : Except GoError Unit :=
  match P.reElection.getElection P.number with
  | .error _ => .error errGetElection
  | .ok info =>
    let electInfo := transferToElectionStu info
    if electInfo.length ≠ elect.length then .error errElectionSize
    else if electInfo.length = 0 then .ok ()
    else if electHash elect ≠ electHash electInfo then .error errElectionInfo
    else .ok ()

def verifyNetTopologyOn (S : ConsensusOnlineState) (number : ℕ) (topology : NetTopology) :
    Except GoError Unit :=
  if topology.type = netTopoTypeAll then P.verifyAllNetTopology number topology
  else P.verifyChgNetTopologyOn S topology

theorem compareTopology_self (topology : NetTopology) : P.compareTopology topology topology = .ok () := by
  simp [compareTopology]

theorem verifyChgNetTopologyOn_transfer {S : ConsensusOnlineState} {prevTopology : TopologyGraph}
    {online offline : List Address} (hprev : P.getTopologyByNumber (P.number-1) = .ok prevTopology)
    (hstate : checkStateByConsensus offline online S.primaryNodeState = true) :
    P.verifyChgNetTopologyOn S (transferToNetTopologyChgStu [] online offline) = .ok () := by
  unfold verifyChgNetTopologyOn
  split_ifs with hnil
  · rfl
  · rw [hprev, ok_bind, parseTopNodeOffline_transfer, parsePrimaryTopNodeState_transfer]
    dsimp only
    rw [hstate, if_neg (by simp [checkStateByConsensus])]
    exact P.compareTopology_self _

omit [DecidableEq Hash] in
theorem getNetTopology_eq_some {current topology : NetTopology} {num : ℕ}
    (h : P.getNetTopology current num = some topology) :
    (∃ info, P.reElection.getNetTopologyAll num = .ok info ∧
      topology = transferToNetTopologyAllStu info) ∨
    ∃ prevTopology, P.getTopologyByNumber (num-1) = .ok prevTopology ∧
      topology = transferToNetTopologyChgStu []
        (parsePrimaryTopNodeState current).1
        (parsePrimaryTopNodeState current).2 := by
  unfold getNetTopology at h
  split_ifs at h with helection
  · rcases hinfo : P.reElection.getNetTopologyAll num with err | info
    · rw [hinfo] at h
      cases h
    · rw [hinfo] at h
      exact .inl ⟨info, rfl, (Option.some.inj h).symm⟩
  · rcases hprev : P.getTopologyByNumber (num-1) with err | prevTopology
    · rw [hprev] at h
      cases h
    · rw [hprev] at h
      exact .inr ⟨prevTopology, rfl, (Option.some.inj h).symm⟩

/-- What a leader writes is what a validator computes, if both read the same elections, graph and
entries. -/
theorem leader_header_accepted {leader validator : TopologyNode Hash} {S : ConsensusOnlineState}
    {current topology : NetTopology} {info : ElectReturnInfo} (electHash : List Elect → Hash)
    (hdatabase : validator.reElection = leader.reElection)
    (hnumber : validator.number = leader.number)
    (hgraph : validator.getTopologyByNumber (validator.number-1) =
      leader.getTopologyByNumber (leader.number-1))
    (helection : leader.reElection.getElection leader.number = .ok info)
    (htopology : leader.getNetTopology current leader.number = some topology)
    (hstates : S.Matches current) :
    validator.verifyElection electHash (leader.genElection leader.number) = .ok () ∧
      validator.verifyNetTopologyOn S leader.number
        (leader.proposedTopology current leader.number) = .ok () := by
  constructor
  · have hgen : leader.genElection leader.number = transferToElectionStu info := by
      rw [genElection, helection]
      rfl
    unfold verifyElection
    rw [hdatabase, hnumber, helection, hgen]
    simp
  · rw [proposedTopology, htopology, Option.getD_some]
    rcases leader.getNetTopology_eq_some htopology with
      ⟨elected, hall, rfl⟩ | ⟨prevTopology, hprev, rfl⟩
    · have hverify : validator.verifyAllNetTopology leader.number
          (transferToNetTopologyAllStu elected) = .ok () := by
        rw [verifyAllNetTopology, hdatabase, hall]
        exact validator.compareTopology_self _
      exact hverify
    · exact validator.verifyChgNetTopologyOn_transfer (hgraph.trans hprev) hstates.check

section Sample

def quietNode : TopologyNode NetTopology where
  reElection := (electedNode true).reElection
  number := 3
  getTopologyByNumber := fun number => .ok (validatorGraph number)
  rlpHash := id

def switchedTopology : NetTopology := ⟨netTopoTypeChange, [⟨5, posOffline⟩, ⟨6, posOnline⟩]⟩

def switchedStates : ConsensusOnlineState :=
  ⟨∅, ((∅ : GoMap Address OnlineState).insert 5 .offline).insert 6 .online⟩

theorem leader_header_accepted_switched :
    quietNode.verifyElection (fun _ => switchedTopology) (quietNode.genElection 3) = .ok () ∧
      quietNode.verifyNetTopologyOn switchedStates 3 (quietNode.proposedTopology switchedTopology 3) =
        .ok () := by
  apply leader_header_accepted (fun _ => switchedTopology) rfl rfl rfl rfl rfl
  intro _
  decide

end Sample

end TopologyNode

end MatrixNode
