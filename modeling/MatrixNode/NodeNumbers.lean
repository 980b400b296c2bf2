import MatrixNode.GraphProvenance

/-! Node numbers and the transaction codes made from them. A graph numbers its nodes from one counter
that starts again after 99; `core/tx_pool.go` puts the number in the lower seven bits of a code. -/
namespace MatrixNode
open GoLib TopologyGraph UInt32 List

structure ByteNumber where
  maxNum : UInt32
  num : UInt32

namespace ByteNumber

def getNum (b3 : ByteNumber) : UInt32 × ByteNumber :=
  let num := if b3.num < b3.maxNum then b3.num+1 else 0
  (num, { b3 with num := num })

def catNumber (b3 : ByteNumber) (nodeNum : UInt32) : UInt32 × ByteNumber :=
  let (num, b3) := b3.getNum
  ((num <<< 7)+nodeNum, b3)

theorem catNumber_mod (b3 : ByteNumber) {nodeNum : UInt32} (h : nodeNum.toNat < 128) :
    (b3.catNumber nodeNum).1.toNat%128 = nodeNum.toNat := by
  have hcode : (b3.catNumber nodeNum).1 = (b3.getNum.1 <<< 7)+nodeNum := rfl
  rw [hcode, UInt32.toNat_add, UInt32.toNat_shiftLeft]
  have hseven : (7 : UInt32).toNat%32 = 7 := rfl
  rw [hseven]
  omega

end ByteNumber

def byte4Number : ByteNumber := ⟨0x1ffffff, 0⟩

namespace ByteNumber

/-- The 4-byte counter after `i` calls of `catNumber`. -/
def after (nodeNums : ℕ → UInt32) : ℕ → ByteNumber
  | 0 => byte4Number
  | i+1 => ((after nodeNums i).catNumber (nodeNums i)).2

def code (nodeNums : ℕ → UInt32) (i : ℕ) : UInt32 := ((after nodeNums i).catNumber (nodeNums i)).1

theorem getNum_wrap (i : ℕ) :
    getNum ⟨0x1ffffff, ofNat (i%2^25)⟩ = (ofNat ((i+1)%2^25), ⟨0x1ffffff, ofNat ((i+1)%2^25)⟩) := by
  have hnum : (if ofNat (i%2^25) < 0x1ffffff then ofNat (i%2^25)+1 else 0) =
      ofNat ((i+1)%2^25) := by
    have hmax : (0x1ffffff : UInt32).toNat = 2^25-1 := rfl
    have hone : (1 : UInt32).toNat = 1 := rfl
    have hzero : (0 : UInt32).toNat = 0 := rfl
    apply UInt32.toNat_inj.mp
    split_ifs with hlt
    · rw [lt_iff_toNat_lt, UInt32.toNat_ofNat', hmax] at hlt
      rw [UInt32.toNat_add, UInt32.toNat_ofNat', UInt32.toNat_ofNat', hone]
      omega
    · rw [lt_iff_toNat_lt, UInt32.toNat_ofNat', hmax] at hlt
      rw [UInt32.toNat_ofNat', hzero]
      omega
  unfold getNum
  rw [hnum]

variable {nodeNums nodeNums' : ℕ → UInt32}

theorem after_eq (i : ℕ) : after nodeNums i = ⟨0x1ffffff, ofNat (i%2^25)⟩ := by
  induction i with
  | zero => rfl
  | succ i ih => rw [after, ih, catNumber, getNum_wrap]

theorem toNat_code {i : ℕ} (h : (nodeNums i).toNat < 128) :
    (code nodeNums i).toNat = (i+1)%2^25*128+(nodeNums i).toNat := by
  have hcode : code nodeNums i = (ofNat ((i+1)%2^25) <<< 7)+nodeNums i := by
    rw [code, after_eq, catNumber, getNum_wrap]
  have hseven : (7 : UInt32).toNat%32 = 7 := rfl
  rw [hcode, UInt32.toNat_add, UInt32.toNat_shiftLeft, UInt32.toNat_ofNat', hseven, Nat.shiftLeft_eq]
  omega

/-- The node with number 0 makes the code 0 each time the counter starts again. -/
theorem codes_distinct_zero_iff (h : ∀ i, (nodeNums i).toNat < 128)
    (h' : ∀ i, (nodeNums' i).toNat < 128) :
    (∀ i j, i < j → j < i+2^25 → code nodeNums i ≠ code nodeNums j) ∧
    (∀ i j, nodeNums i ≠ nodeNums' j → code nodeNums i ≠ code nodeNums' j) ∧
    ∀ i, code nodeNums i = 0 ↔ nodeNums i = 0 ∧ 2^25 ∣ i+1 := by
  refine ⟨?_, ?_, ?_⟩
  · intro i j hij hwindow heq
    rw [← UInt32.toNat_inj, toNat_code (h i), toNat_code (h j)] at heq
    have hi := h i
    have hj := h j
    omega
  · intro i j hne heq
    rw [← UInt32.toNat_inj, toNat_code (h i), toNat_code (h' j)] at heq
    apply hne
    apply UInt32.toNat_inj.mp
    have hi := h i
    have hj := h' j
    omega
  · intro i
    rw [← UInt32.toNat_inj, toNat_code (h i), ← UInt32.toNat_inj]
    change _ = 0 ↔ _ = 0 ∧ _
    omega

theorem codes_of_node_five :
    code (fun _ => 5) 7 ≠ code (fun _ => 5) 8 ∧ code (fun _ => 5) 7 ≠ 0 := by
  have h (_ : ℕ) : (5 : UInt32).toNat < 128 := by decide
  obtain ⟨hdistinct, -, hzero⟩ := codes_distinct_zero_iff h h
  exact ⟨hdistinct 7 8 (by norm_num) (by norm_num), fun h7 => absurd ((hzero 7).mp h7).1 (by decide)⟩

theorem code_zero_after_wrap : code (fun _ => 0) (2^25-1) = 0 := by
  apply UInt32.toNat_inj.mp
  rw [toNat_code (by decide)]
  rfl

end ByteNumber

/-- `ca.GetNodeNumber` for the account of the node. A node that is not in the graph gets 0 and an
error. -/
def TopologyGraph.getNodeNumber (graph : TopologyGraph) (addr : Address) : UInt32 × Option GoError :=
  match graph.nodeList.find? (fun n => n.account = addr) with
  | some n => (n.nodeNumber.toUInt32, none)
  | none => (0, some (.error "No current node number. "))

def TopologyGraph.txCode (graph : TopologyGraph) (addr : Address) (counter : ByteNumber) : UInt32 :=
  (counter.catNumber (graph.getNodeNumber addr).1).1

def TopologyGraph.NumbersDistinct (graph : TopologyGraph) : Prop :=
  (graph.nodeList.map TopologyNodeInfo.nodeNumber).Nodup

instance (graph : TopologyGraph) : Decidable graph.NumbersDistinct :=
  inferInstanceAs (Decidable (Nodup _))

section Codes
variable {graph : TopologyGraph} {addr : Address}

theorem TopologyGraph.getNodeNumber_eq (h : ∃ node ∈ graph.nodeList, node.account = addr) :
    ∃ node ∈ graph.nodeList, node.account = addr ∧
      (graph.getNodeNumber addr).1 = node.nodeNumber.toUInt32 := by
  obtain ⟨node, hmem, haccount⟩ := h
  have hsome : (graph.nodeList.find? (fun n => n.account = addr)).isSome := by
    rw [find?_isSome]
    exact ⟨node, hmem, decide_eq_true haccount⟩
  obtain ⟨found, hfound⟩ := Option.isSome_iff_exists.mp hsome
  refine ⟨found, mem_of_find?_eq_some hfound, ?_, ?_⟩
  · have haddr := find?_some hfound
    exact of_decide_eq_true haddr
  · unfold getNodeNumber
    rw [hfound]

theorem TopologyGraph.txCode_ne {other : Address}
    (hlt : ∀ node ∈ graph.nodeList, node.nodeNumber.toNat < 100) (hdistinct : graph.NumbersDistinct)
    (haddr : ∃ node ∈ graph.nodeList, node.account = addr)
    (hother : ∃ node ∈ graph.nodeList, node.account = other) (hne : addr ≠ other)
    (counter counter' : ByteNumber) : graph.txCode addr counter ≠ graph.txCode other counter' := by
  obtain ⟨a, ha, haccount, hanum⟩ := getNodeNumber_eq haddr
  obtain ⟨b, hb, hbccount, hbnum⟩ := getNodeNumber_eq hother
  intro hcode
  have hmod := congrArg (fun code : UInt32 => code.toNat%128) hcode
  have ha100 := hlt a ha
  have hb100 := hlt b hb
  have ha128 : a.nodeNumber.toUInt32.toNat < 128 := by
    rw [UInt8.toNat_toUInt32]
    omega
  have hb128 : b.nodeNumber.toUInt32.toNat < 128 := by
    rw [UInt8.toNat_toUInt32]
    omega
  unfold txCode at hmod
  rw [hanum, hbnum] at hmod
  simp only [ByteNumber.catNumber_mod _ ha128, ByteNumber.catNumber_mod _ hb128,
    UInt8.toNat_toUInt32] at hmod
  have hsame : a.nodeNumber = b.nodeNumber := UInt8.toNat_inj.mp hmod
  have hab : a = b := inj_on_of_nodup_map hdistinct ha hb hsame
  apply hne
  rw [← haccount, ← hbccount, hab]

end Codes

/-! ### Serial numbers
The counter without its wrap: every number given out is a new natural number. -/

def nodeNumberOf (serial : ℕ) : UInt8 := UInt8.ofNat (serial%100)

theorem toNat_nodeNumberOf (serial : ℕ) : (nodeNumberOf serial).toNat = serial%100 := by
  have h := Nat.mod_lt serial (show 0 < 100 by decide)
  unfold nodeNumberOf
  rw [UInt8.toNat_ofNat']
  omega

theorem nodeNumberOf_eq_iff {a b : ℕ} : nodeNumberOf a = nodeNumberOf b ↔ a%100 = b%100 := by
  rw [← UInt8.toNat_inj, toNat_nodeNumberOf, toNat_nodeNumberOf]

theorem increaseNodeNumber_nodeNumberOf (given : ℕ) :
    increaseNodeNumber (nodeNumberOf (given+99)) = nodeNumberOf given := by
  have hwrap : ∀ r < 100, increaseNodeNumber (UInt8.ofNat ((r+99)%100)) = UInt8.ofNat r := by decide
  have h := hwrap (given%100) (Nat.mod_lt _ (by decide))
  have hmod : (given%100+99)%100 = (given+99)%100 := by omega
  rw [hmod] at h
  exact h

structure SerialNode where
  info : TopologyNodeInfo
  serial : ℕ
  number_eq : info.nodeNumber = nodeNumberOf serial

namespace SerialNode
variable (electList : List Elect)

/-- `TopologyGraph.changeNode` with serial numbers; `given` numbers were given out before. -/
def changeNode (chgInfo : NetTopologyData) (given : ℕ) : List SerialNode → List SerialNode × ℕ
  | [] => ([], given)
  | topNode :: rest =>
    if chgInfo.position = topNode.info.position then
      (⟨{ topNode.info with
        account := chgInfo.account
        stock := getNodeStock chgInfo.account electList
        nodeNumber := nodeNumberOf given }, given, rfl⟩ :: rest, given+1)
    else if chgInfo.position = posOffline ∧ chgInfo.account = topNode.info.account then
      (rest, given)
    else
      let (rest, given) := changeNode chgInfo given rest
      (topNode :: rest, given)

variable (chgInfo : NetTopologyData) (given : ℕ) (nodes : List SerialNode)

/-- The number just given out is the one the counter shows from now on. -/
theorem changeNode_info :
    TopologyGraph.changeNode electList chgInfo (nodeNumberOf (given+99)) (nodes.map info) =
      ((changeNode electList chgInfo given nodes).1.map info,
        nodeNumberOf ((changeNode electList chgInfo given nodes).2+99)) := by
  induction nodes with
  | nil => rfl
  | cons topNode rest ih =>
    have hshown : nodeNumberOf (given+1+99) = nodeNumberOf given :=
      nodeNumberOf_eq_iff.mpr (by omega)
    simp only [map_cons, TopologyGraph.changeNode, changeNode]
    by_cases hpos : chgInfo.position = topNode.info.position
    · simp only [if_pos hpos, increaseNodeNumber_nodeNumberOf, map_cons, hshown]
    · by_cases hoff : chgInfo.position = posOffline ∧ chgInfo.account = topNode.info.account
      · simp only [if_neg hpos, if_pos hoff]
      · simp only [if_neg hpos, if_neg hoff, ih, map_cons]

end SerialNode

/-- A topology graph whose counter never starts again. -/
structure SerialGraph where
  number : ℕ
  nodeList : List SerialNode
  given : ℕ

structure GraphTransfer where
  number : ℕ
  blockTopology : NetTopology
  electList : List Elect

namespace TopologyGraph

def transfer (graph : TopologyGraph) (t : GraphTransfer) : Except GoError TopologyGraph :=
  graph.transfer2NextGraph t.electList t.number t.blockTopology

def chain {Hash : Type} (genesisHeader : Header Hash) (transfers : List GraphTransfer) :
    Except GoError TopologyGraph :=
  newGenesisTopologyGraph genesisHeader >>= fun genesis => run transfer genesis transfers

end TopologyGraph

namespace SerialGraph
variable (s : SerialGraph)

def graph : TopologyGraph := ⟨s.number, s.nodeList.map SerialNode.info, nodeNumberOf (s.given+99)⟩

def addNode (electList : List Elect) (s : SerialGraph) (topNode : NetTopologyData) : SerialGraph where
  number := s.number
  nodeList := s.nodeList ++ [⟨⟨topNode.account, topNode.position,
    getRoleTypeFromPosition topNode.position, getNodeStock topNode.account electList,
    nodeNumberOf s.given⟩, s.given, rfl⟩]
  given := s.given+1
def change (electList : List Elect) (s : SerialGraph) (chgInfo : NetTopologyData) : SerialGraph where
  number := s.number
  nodeList := (SerialNode.changeNode electList chgInfo s.given s.nodeList).1
  given := (SerialNode.changeNode electList chgInfo s.given s.nodeList).2

def cleared (number : ℕ) : SerialGraph := ⟨number, [], s.given⟩

def raised (number : ℕ) : SerialGraph := ⟨number, s.nodeList, s.given⟩

def next (t : GraphTransfer) : SerialGraph :=
  if t.blockTopology.type = netTopoTypeAll then
    t.blockTopology.netTopologyData.foldl (addNode t.electList) (s.cleared t.number)
  else t.blockTopology.netTopologyData.foldl (change t.electList) (s.raised t.number)

/-- It follows the transfer of the source where that succeeds. -/
def transfer (s : SerialGraph) (t : GraphTransfer) : Except GoError SerialGraph :=
  s.graph.transfer t >>= fun _ => pure (s.next t)

def genesis {Hash : Type} (genesisHeader : Header Hash) : SerialGraph :=
  genesisHeader.netTopology.netTopologyData.foldl (addNode genesisHeader.elect) ⟨0, [], 0⟩

def chain {Hash : Type} (genesisHeader : Header Hash) (transfers : List GraphTransfer) :
    Except GoError SerialGraph :=
  run transfer (genesis genesisHeader) transfers

def NoneHundredApart : Prop := s.nodeList.Pairwise (fun a b => ¬ a.serial ≡ b.serial [MOD 100])

instance (s : SerialGraph) : Decidable s.NoneHundredApart :=
  inferInstanceAs (Decidable (Pairwise _ _))

section Refinement
variable (electList : List Elect) (s : SerialGraph)

theorem addNode_graph (topNode : NetTopologyData) :
    (s.addNode electList topNode).graph = s.graph.addNode electList topNode := by
  have hshown : nodeNumberOf (s.given+1+99) = nodeNumberOf s.given :=
    nodeNumberOf_eq_iff.mpr (by omega)
  simp [graph, addNode, TopologyGraph.addNode, increaseNodeNumber_nodeNumberOf, hshown]

theorem change_graph (chgInfo : NetTopologyData) :
    (s.change electList chgInfo).graph = s.graph.change electList chgInfo := by
  simp [graph, change, TopologyGraph.change, SerialNode.changeNode_info]

theorem foldl_addNode_graph (data : List NetTopologyData) :
    (data.foldl (addNode electList) s).graph = data.foldl (TopologyGraph.addNode electList) s.graph := by
  induction data generalizing s with
  | nil => rfl
  | cons d rest ih => rw [foldl_cons, foldl_cons, ih, addNode_graph]

theorem foldl_change_graph (data : List NetTopologyData) :
    (data.foldl (change electList) s).graph = data.foldl (TopologyGraph.change electList) s.graph := by
  induction data generalizing s with
  | nil => rfl
  | cons d rest ih => rw [foldl_cons, foldl_cons, ih, change_graph]

variable {g : TopologyGraph}

theorem next_graph {t : GraphTransfer} (h : s.graph.transfer t = .ok g) : (s.next t).graph = g := by
  unfold TopologyGraph.transfer at h
  have hnumber := transfer2NextGraph_number t.electList h
  unfold next
  rcases transfer2NextGraph_type t.electList h with hall | hchange
  · rw [transfer2NextGraph_all t.electList hnumber hall] at h
    rw [if_pos hall, foldl_addNode_graph]
    exact Except.ok.inj h
  · have hne : t.blockTopology.type ≠ netTopoTypeAll := by
      rw [hchange]
      decide
    rw [transfer2NextGraph_change t.electList hnumber hchange] at h
    rw [if_neg hne, foldl_change_graph]
    exact Except.ok.inj h

theorem transfer_eq {t : GraphTransfer} (h : s.graph.transfer t = .ok g) :
    s.transfer t = .ok (s.next t) := by
  unfold transfer
  rw [h]
  rfl

theorem genesis_graph {Hash : Type} {genesisHeader : Header Hash}
    (h : newGenesisTopologyGraph genesisHeader = .ok g) : (genesis genesisHeader).graph = g := by
  unfold newGenesisTopologyGraph at h
  rw [throw_eq_error, ite_error_eq_ok, throw_eq_error, ite_error_eq_ok] at h
  unfold genesis
  rw [foldl_addNode_graph]
  exact Except.ok.inj h.2.2

variable {transfers : List GraphTransfer}

theorem run_graph {s : SerialGraph} (hrun : run TopologyGraph.transfer s.graph transfers = .ok g) :
    ∃ s', run transfer s transfers = .ok s' ∧ s'.graph = g := by
  induction transfers generalizing s with
  | nil => exact ⟨s, rfl, Except.ok.inj hrun⟩
  | cons t transfers ih =>
    rw [run_cons, bind_eq_ok_iff] at hrun
    obtain ⟨g₁, h₁, hrun⟩ := hrun
    rw [← next_graph s h₁] at hrun
    obtain ⟨s', hs', hgraph⟩ := ih hrun
    refine ⟨s', ?_, hgraph⟩
    rw [run_cons, transfer_eq s h₁]
    exact hs'

theorem chain_graph {Hash : Type} {genesisHeader : Header Hash}
    (h : TopologyGraph.chain genesisHeader transfers = .ok g) :
    ∃ s, chain genesisHeader transfers = .ok s ∧ s.graph = g := by
  unfold TopologyGraph.chain at h
  rw [bind_eq_ok_iff] at h
  obtain ⟨first, hfirst, hrun⟩ := h
  rw [← genesis_graph hfirst] at hrun
  exact run_graph hrun

end Refinement

section Distinct
variable (s : SerialGraph)

theorem nodeNumber_lt {node : TopologyNodeInfo} (h : node ∈ s.graph.nodeList) :
    node.nodeNumber.toNat < 100 := by
  obtain ⟨serialNode, -, rfl⟩ := mem_map.mp h
  rw [serialNode.number_eq, toNat_nodeNumberOf]
  exact Nat.mod_lt _ (by decide)

theorem numbersDistinct_iff : s.graph.NumbersDistinct ↔ s.NoneHundredApart := by
  have hne (a b : SerialNode) : a.info.nodeNumber ≠ b.info.nodeNumber ↔
      ¬ a.serial ≡ b.serial [MOD 100] := by
    rw [a.number_eq, b.number_eq, Ne, nodeNumberOf_eq_iff]
    rfl
  unfold NumbersDistinct NoneHundredApart
  rw [nodup_iff_pairwise_ne, pairwise_map]
  unfold graph
  rw [pairwise_map]
  simp only [hne]

end Distinct

/-- Numbers are distinct exactly if no two nodes got theirs a multiple of 100 numbers apart, and
then no two make the same code. -/
theorem numbers_and_codes_distinct {Hash : Type} {genesisHeader : Header Hash} {g : TopologyGraph}
    {transfers : List GraphTransfer} (h : TopologyGraph.chain genesisHeader transfers = .ok g) :
    ∃ s, chain genesisHeader transfers = .ok s ∧ s.graph = g ∧
      (∀ node ∈ g.nodeList, node.nodeNumber.toNat < 100) ∧
      (g.NumbersDistinct ↔ s.NoneHundredApart) ∧
      (g.NumbersDistinct → ∀ addr other, (∃ node ∈ g.nodeList, node.account = addr) →
        (∃ node ∈ g.nodeList, node.account = other) → addr ≠ other →
        ∀ counter counter', g.txCode addr counter ≠ g.txCode other counter') := by
  obtain ⟨s, hs, rfl⟩ := chain_graph h
  have hlt : ∀ node ∈ s.graph.nodeList, node.nodeNumber.toNat < 100 :=
    fun node hmem => s.nodeNumber_lt hmem
  refine ⟨s, hs, rfl, hlt, s.numbersDistinct_iff, ?_⟩
  intro hdistinct addr other haddr hother hne counter counter'
  exact txCode_ne hlt hdistinct haddr hother hne counter counter'

section Sample

def twoNodeGenesis : Header ℕ :=
  BlockChain.forkHeader 0 0 0 1 ⟨netTopoTypeAll, [⟨1, 0x2000⟩,⟨2, 0x2001⟩]⟩

def replacements (n : ℕ) : List GraphTransfer :=
  (range n).map (fun k => ⟨k+1, ⟨netTopoTypeChange, [⟨3+k%2, 0x2001⟩]⟩, []⟩)

theorem numbers_distinct_after_three :
    ∃ g, TopologyGraph.chain twoNodeGenesis (replacements 3) = .ok g ∧ g.NumbersDistinct := by
  have h : ∃ g, TopologyGraph.chain twoNodeGenesis (replacements 3) = .ok g := ⟨_, rfl⟩
  obtain ⟨g, hg⟩ := h
  obtain ⟨s, hs, -, -, hiff, -⟩ := numbers_and_codes_distinct hg
  refine ⟨g, hg, hiff.mpr ?_⟩
  cases hs
  decide

/-- After 99 replacements both validators have the number 0, and the first code of each is the same. -/
theorem same_number_after_99_replacements :
    ∃ g, TopologyGraph.chain twoNodeGenesis (replacements 99) = .ok g ∧
      g.nodeList.map (fun node => (node.account,node.position,node.nodeNumber)) =
        [(1,0x2000,0),(3,0x2001,0)] ∧
      ¬ g.NumbersDistinct ∧ g.txCode 1 byte4Number = g.txCode 3 byte4Number := by
  refine ⟨⟨99, [⟨1, 0x2000, .validator, 1, 0⟩,⟨3, 0x2001, .validator, 1, 0⟩], 0⟩, ?_, ?_, ?_, ?_⟩
  · decide +kernel
  · rfl
  · decide
  · rfl

end Sample

end SerialGraph

end MatrixNode
