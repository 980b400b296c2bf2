import MatrixNode.Elector

/-! Who is in the response of an election. -/
namespace MatrixNode
open GoLib ElectNode List Weighted

namespace Elector
variable {F : Type} {E : Elector F}

section Value

theorem calcAllValueFunction_cons (item : ElectNode) (rest : List ElectNode) :
    E.calcAllValueFunction (item :: rest) = (E.calcValue item >>= fun value =>
      E.calcAllValueFunction rest >>= fun values => pure (value :: values)) :=
  mapM_cons

theorem calcValue_nodeid {item : ElectNode} {value : Weighted F} (h : E.calcValue item = .ok value) :
    value.nodeid = item.nodeID := by
  unfold calcValue at h
  split at h
  · cases h
    rfl
  · cases h

theorem calcAllValueFunction_nodeid {nodes : List ElectNode} {values : List (Weighted F)}
    (h : E.calcAllValueFunction nodes = .ok values) :
    values.map nodeid = nodes.map nodeID := by
  induction nodes generalizing values with
  | nil =>
    cases h
    rfl
  | cons item rest ih =>
    rw [calcAllValueFunction_cons] at h
    obtain ⟨value, hvalue, h⟩ := bind_eq_ok_iff.mp h
    obtain ⟨tail, htail, h⟩ := bind_eq_ok_iff.mp h
    cases h
    rw [map_cons, map_cons, calcValue_nodeid hvalue, ih htail]

theorem calcAllValueFunction_withDefaults (nodes : List ElectNode) :
    ∃ values, E.calcAllValueFunction (nodes.map withDefaults) = .ok values := by
  induction nodes with
  | nil => exact ⟨[], rfl⟩
  | cons item rest ih =>
    obtain ⟨values, hvalues⟩ := ih
    rw [map_cons, calcAllValueFunction_cons, hvalues]
    exact ⟨_, rfl⟩

theorem nodeID_withDefaults (nodes : List ElectNode) :
    (nodes.map withDefaults).map nodeID = nodes.map nodeID := by
  rw [map_map]
  rfl

theorem normalize_nodeid (probVal : List (Weighted F)) :
    (E.normalize probVal).map nodeid = probVal.map nodeid := by
  unfold normalize
  rw [map_map]
  rfl

end Value

section Sampling
variable {prob : List (Weighted F)} {seed : ℤ}

theorem sampleNodes_isOk (hprob : prob ≠ []) (seed limit : ℤ) (left i : ℕ) (dict : GoMap NodeID ℤ) :
    ∃ dict', E.sampleNodes prob seed limit left i dict = .ok dict' := by
  have hsample (rand01 : F) : ∃ node, E.sample1NodesInValNodes prob rand01 = .ok node := by
    obtain ⟨first, rest, rfl⟩ := exists_cons_of_ne_nil hprob
    unfold sample1NodesInValNodes
    rcases E.findSample (first :: rest) rand01 with _ | node
    · exact ⟨_, rfl⟩
    · exact ⟨_, rfl⟩
  induction left generalizing i dict with
  | zero => exact ⟨dict, rfl⟩
  | succ left ih =>
    obtain ⟨node, hnode⟩ := hsample (E.uniform seed i)
    rw [sampleNodes, hnode, ok_bind]
    dsimp only
    split_ifs
    · exact ⟨_, rfl⟩
    · exact ih _ _

theorem mem_votesOf (nodes : List Strallyint) (nodeid : NodeID) :
    nodeid ∈ votesOf nodes ↔ nodeid ∈ nodes.map Strallyint.nodeid := by
  unfold votesOf
  rw [GoMap.mem_ofEntries, map_map]
  rfl

theorem nodeid_perm_of_split {f g : Weighted F → Option Strallyint}
    (hsplit : ∀ item ∈ prob, ∃ tally : Strallyint, tally.nodeid = item.nodeid ∧
      ((f item = some tally ∧ g item = none) ∨ (f item = none ∧ g item = some tally))) :
    ((prob.filterMap f ++ prob.filterMap g).map Strallyint.nodeid).Perm
      (prob.map nodeid) := by
  induction prob with
  | nil => exact Perm.refl _
  | cons item rest ih =>
    have hrest := ih (fun x hx => hsplit x (mem_cons_of_mem _ hx))
    obtain ⟨tally, hid, ⟨hf, hg⟩ | ⟨hf, hg⟩⟩ := hsplit item mem_cons_self
    · rw [filterMap_cons_some hf, filterMap_cons_none hg, cons_append, map_cons, map_cons, hid]
      exact hrest.cons _
    · rw [filterMap_cons_none hf, filterMap_cons_some hg, map_append, map_cons, map_cons, hid]
      rw [map_append] at hrest
      exact perm_middle.trans (hrest.cons _)

theorem nodeid_perm_of_drawn (dict : GoMap NodeID ℤ) (value : Weighted F → ℤ)
    (prob : List (Weighted F)) :
    ((prob.filterMap (fun item : Weighted F =>
        (dict.lookup item.nodeid).map (Strallyint.mk item.nodeid)) ++
      prob.filterMap (fun item : Weighted F =>
        if item.nodeid ∈ dict then none else some (Strallyint.mk item.nodeid (value item)))).map
      Strallyint.nodeid).Perm (prob.map nodeid) := by
  apply nodeid_perm_of_split
  intro item _
  rcases hl : dict.lookup item.nodeid with _ | votes
  · exact ⟨⟨item.nodeid, value item⟩, rfl, .inr ⟨rfl, if_neg (Finmap.lookup_eq_none.mp hl)⟩⟩
  · exact ⟨⟨item.nodeid, votes⟩, rfl, .inl ⟨rfl, if_pos (Finmap.mem_of_lookup_eq_some hl)⟩⟩

theorem sortMiners_nodeid {pricipal bak : List Strallyint}
    (hall : ((pricipal ++ bak).map Strallyint.nodeid).Perm (prob.map nodeid)) :
    (((sortMiners prob pricipal bak).1 ++ (sortMiners prob pricipal bak).2).map
      Strallyint.nodeid).Perm (prob.map nodeid) := by
  apply nodeid_perm_of_split
  intro item hitem
  rcases hl : (votesOf pricipal).lookup item.nodeid with _ | votes
  · have hno : item.nodeid ∉ votesOf pricipal := Finmap.lookup_eq_none.mp hl
    have hbak : item.nodeid ∈ votesOf bak := by
      have hmem := hall.mem_iff.mpr (mem_map_of_mem hitem)
      rw [map_append, mem_append, ← mem_votesOf, ← mem_votesOf] at hmem
      exact hmem.resolve_left hno
    obtain ⟨votes, hvotes⟩ := Finmap.mem_iff.mp hbak
    refine ⟨⟨item.nodeid, votes⟩, rfl, .inr ⟨rfl, ?_⟩⟩
    rw [if_neg hno, hvotes]
    rfl
  · exact ⟨⟨item.nodeid, votes⟩, rfl, .inl ⟨rfl, if_pos (Finmap.mem_of_lookup_eq_some hl)⟩⟩

theorem sampleMinerNodes_nodeid (prob : List (Weighted F)) (seed : ℤ) (n : ℕ) :
    ∃ a b, E.sampleMinerNodes prob seed n = .ok (a, b) ∧
      ((a ++ b).map Strallyint.nodeid).Perm (prob.map nodeid) := by
  unfold sampleMinerNodes
  split_ifs with hn
  · refine ⟨_, _, rfl, sortMiners_nodeid ?_⟩
    rw [append_nil, map_map]
    exact Perm.refl _
  · have hprob : prob ≠ [] := by
      rintro rfl
      exact hn (Nat.zero_le n)
    obtain ⟨dict, hdict⟩ := sampleNodes_isOk (E := E) hprob seed n maxSample 0 ∅
    rw [hdict]
    refine ⟨_, _, rfl, sortMiners_nodeid ?_⟩
    rw [append_assoc, take_append_drop]
    exact nodeid_perm_of_drawn dict _ prob

theorem calcRemainingNodesVotes_nodeid (nodes : List Strallyint) :
    (calcRemainingNodesVotes nodes).map Strallyint.nodeid = nodes.map Strallyint.nodeid := by
  unfold calcRemainingNodesVotes
  rw [map_map]
  rfl

variable (probVal : List (Weighted F))

theorem minerNodesSelected_nodeid (seed : ℤ) (n : ℕ) :
    ∃ a b, E.minerNodesSelected probVal seed n = .ok (a, b) ∧
      ((a ++ b).map Strallyint.nodeid).Perm (probVal.map nodeid) := by
  obtain ⟨a, b, hab, hperm⟩ := sampleMinerNodes_nodeid (E := E) (E.normalize probVal) seed n
  refine ⟨a, calcRemainingNodesVotes b, ?_, ?_⟩
  · unfold minerNodesSelected
    rw [hab]
    rfl
  · rw [map_append, calcRemainingNodesVotes_nodeid, ← map_append, ← normalize_nodeid]
    exact hperm

theorem sampleMPlusPNodes_nodeid {quota : ℤ} {a rest : List Strallyint}
    (h : E.sampleMPlusPNodes prob seed quota = .ok (a, rest)) :
    ((a ++ rest).map Strallyint.nodeid).Perm (prob.map nodeid) := by
  unfold sampleMPlusPNodes at h
  split_ifs at h
  · cases h
    rw [append_nil, map_map]
    exact Perm.refl _
  · obtain ⟨dict, -, h⟩ := bind_eq_ok_iff.mp h
    cases h
    exact nodeid_perm_of_drawn dict _ prob

theorem fillUp_append (target : ℤ) (nodes rest : List Strallyint) :
    (fillUp target nodes rest).1 ++ (fillUp target nodes rest).2 = nodes ++ rest := by
  induction rest generalizing nodes with
  | nil => rfl
  | cons item rest ih =>
    unfold fillUp
    split_ifs
    · rw [ih, append_assoc]
      rfl
    · rfl

theorem valNodesSelected_nodeid {probVal : List (Weighted F)} {m p j : ℤ} {a b c : List Strallyint}
    (h : E.valNodesSelected probVal seed m p j = .ok (a, b, c)) :
    ((a ++ b ++ c).map Strallyint.nodeid).Perm (probVal.map nodeid) := by
  obtain ⟨⟨pricipal, remaining⟩, hsample, h⟩ := bind_eq_ok_iff.mp h
  cases h
  have hlist : (fillUp (m-j) pricipal (calcRemainingNodesVotes remaining)).1 ++
      (fillUp p [] (fillUp (m-j) pricipal (calcRemainingNodesVotes remaining)).2).1 ++
      (fillUp p [] (fillUp (m-j) pricipal (calcRemainingNodesVotes remaining)).2).2 =
      pricipal ++ calcRemainingNodesVotes remaining := by
    rw [append_assoc, fillUp_append, nil_append, fillUp_append]
  rw [hlist, map_append, calcRemainingNodesVotes_nodeid, ← map_append, ← normalize_nodeid]
  exact sampleMPlusPNodes_nodeid hsample

theorem sampleMPlusPNodes_isOk (prob : List (Weighted F)) (seed : ℤ) {quota : ℤ} (hquota : 0 ≤ quota) :
    ∃ s, E.sampleMPlusPNodes prob seed quota = .ok s := by
  unfold sampleMPlusPNodes
  split_ifs with hn
  · exact ⟨_, rfl⟩
  · have hprob : prob ≠ [] := by
      rintro rfl
      exact hn hquota
    obtain ⟨dict, hdict⟩ := sampleNodes_isOk (E := E) hprob seed quota maxSample 0 ∅
    rw [hdict]
    exact ⟨_, rfl⟩

theorem valNodesSelected_isOk (seed p : ℤ) {m : ℤ} (hm : 0 ≤ m) :
    ∃ selected, E.valNodesSelected probVal seed m p 0 = .ok selected := by
  have hquota : 0 ≤ m-0 := by omega
  obtain ⟨s, hs⟩ := sampleMPlusPNodes_isOk (E := E) (E.normalize probVal) seed hquota
  unfold valNodesSelected
  rw [hs]
  exact ⟨_, rfl⟩

theorem commbineFundNodesAndPricipal_nodeid (probFund : List (Weighted F))
    (pricipal : List Strallyint) :
    (E.commbineFundNodesAndPricipal probVal probFund probFund.length pricipal).map Strallyint.nodeid =
      pricipal.map Strallyint.nodeid ++ probFund.map nodeid := by
  unfold commbineFundNodesAndPricipal
  split_ifs with hnone hempty
  · have hnil : probFund = [] := by
      rcases hnone with h | h
      · exact length_eq_zero_iff.mp (Int.ofNat_eq_zero.mp h)
      · exact h
    rw [hnil, map_nil, append_nil]
  · rw [hempty, map_map, ← normalize_nodeid (E := E) probFund]
    rfl
  · rw [map_append, map_map]
    rfl

end Sampling

end Elector

def MasterMinerReElectionRsp.accounts (rsp : MasterMinerReElectionRsp) : List Address :=
  (rsp.masterMiner ++ rsp.backUpMiner).map TopologyNodeInfo.account

def MasterValidatorReElectionRsq.accounts (rsp : MasterValidatorReElectionRsq) : List Address :=
  (rsp.masterValidator ++ rsp.backUpValidator ++ rsp.candidateValidator).map TopologyNodeInfo.account

structure NamesDepositors (accounts : List Address) (request : List ElectNode) : Prop where
  mem : ∀ a ∈ accounts, a ∈ request.map address
  nodup : accounts.Nodup

namespace Elector
variable {F : Type} {E : Elector F}

section Accounts
variable {nodes : List ElectNode}

theorem topologyNodes_account (nodes : List ElectNode) (role : RoleType) (elected : List Strallyint) :
    (topologyNodes nodes role elected).map TopologyNodeInfo.account =
      (elected.map Strallyint.nodeid).map (accountOf nodes) := by
  unfold topologyNodes
  rw [mapIdx_eq_zipIdx_map, map_map, map_map]
  conv_rhs => rw [← zipIdx_map_fst 0 elected, map_map]
  rfl

theorem nodeID_entries (nodes : List ElectNode) :
    (nodes.map (fun item => (item.nodeID, item))).map Prod.fst = nodes.map nodeID := by
  rw [map_map]
  rfl

theorem map_accountOf (h : (nodes.map nodeID).Nodup) :
    (nodes.map nodeID).map (accountOf nodes) = nodes.map address := by
  rw [map_map]
  apply map_congr_left
  intro item hitem
  rw [← nodeID_entries] at h
  have hlookup := GoMap.lookup_ofEntries h
    (mem_map_of_mem (f := fun item => (item.nodeID, item)) hitem)
  unfold Function.comp accountOf electMap
  rw [hlookup]
  rfl

theorem accountOf_of_notMem {nodeid : NodeID} (h : nodeid ∉ nodes.map nodeID) :
    accountOf nodes nodeid = 0 := by
  rw [← nodeID_entries, ← GoMap.mem_ofEntries] at h
  unfold accountOf electMap
  rw [Finmap.lookup_eq_none.mpr h]
  rfl

/-- The exact condition under which looking up the node ids of depositors and of the foundation in
the map of the depositors alone gives their accounts. -/
theorem namesDepositors_iff {accounts : List Address} {foundation : List ElectNode}
    (haddr : ((nodes ++ foundation).map address).Nodup)
    (hperm : accounts.Perm ((nodes.map nodeID ++ foundation.map nodeID).map
      (accountOf nodes))) :
    NamesDepositors accounts (nodes ++ foundation) ↔ (nodes.map nodeID).Nodup ∧
      (foundation = [] ∨ ∃ f, foundation = [f] ∧ f.address = 0 ∧ f.nodeID ∉ nodes.map nodeID) := by
  rw [map_append] at haddr
  constructor
  · rintro ⟨hmem, hnodup⟩
    have hids := (hperm.nodup_iff.mp hnodup).of_map
    obtain ⟨hnodes, -, hapart⟩ := nodup_append.mp hids
    refine ⟨hnodes, ?_⟩
    have hzero (f : ElectNode) (hf : f ∈ foundation) : accountOf nodes f.nodeID = 0 :=
      accountOf_of_notMem (fun hin => hapart _ hin _ (mem_map_of_mem hf) rfl)
    rcases foundation with _ | ⟨f, _ | ⟨g, rest⟩⟩
    · exact .inl rfl
    · right
      have hf := hzero f mem_cons_self
      refine ⟨f, rfl, ?_, fun hin => hapart _ hin _ mem_cons_self rfl⟩
      have haccounts : accounts.Perm (nodes.map address ++ [0]) := by
        rwa [map_append, map_accountOf hnodes, map_singleton, map_singleton, hf] at hperm
      have hnew := nodup_append.mp (haccounts.nodup_iff.mp hnodup)
      have hin := hmem 0 (haccounts.mem_iff.mpr (mem_append_right _ mem_cons_self))
      rw [map_append, mem_append] at hin
      rcases hin with hin | hin
      · exact absurd rfl (hnew.2.2 _ hin _ mem_cons_self)
      · exact (mem_singleton.mp hin).symm
    · exfalso
      have htwice := nodup_append.mp ((map_append ▸ hperm).nodup_iff.mp hnodup)
      have htail := htwice.2.1
      rw [map_cons, map_cons, map_cons, map_cons, hzero f mem_cons_self,
        hzero g (mem_cons_of_mem _ mem_cons_self)] at htail
      exact (nodup_cons.mp htail).1 mem_cons_self
  · rintro ⟨hnodes, hfoundation⟩
    have haccounts : accounts.Perm ((nodes ++ foundation).map address) := by
      rw [map_append, map_accountOf hnodes] at hperm
      rw [map_append]
      rcases hfoundation with rfl | ⟨f, rfl, hf, hnew⟩
      · exact hperm
      · rwa [map_singleton, map_singleton, accountOf_of_notMem hnew, ← hf] at hperm
    refine ⟨fun a ha => haccounts.mem_iff.mp ha, haccounts.nodup_iff.mpr ?_⟩
    rwa [map_append]

end Accounts

theorem electMiners_accounts (E : Elector F) (req : MasterMinerReElectionReqMsg) :
    ∃ rsp, E.electMiners req = .ok rsp ∧ rsp.accounts.Perm
      ((req.minerList.map nodeID).map (accountOf req.minerList)) := by
  obtain ⟨value, hvalue⟩ := calcAllValueFunction_withDefaults (E := E) req.minerList
  obtain ⟨a, b, hab, hperm⟩ := minerNodesSelected_nodeid (E := E) value req.randSeed 21
  rw [calcAllValueFunction_nodeid hvalue, nodeID_withDefaults] at hperm
  refine ⟨⟨req.seqNum, topologyNodes req.minerList .miner a, topologyNodes req.minerList .miner b⟩,
    ?_, ?_⟩
  · unfold electMiners
    rw [hvalue, ok_bind, hab]
    rfl
  · unfold MasterMinerReElectionRsp.accounts
    rw [map_append, topologyNodes_account, topologyNodes_account, ← map_append, ← map_append]
    exact hperm.map _

variable {req : MasterValidatorReElectionReqMsg}

/-- The foundation's part moves behind the substitutes and the candidates. -/
theorem electValidators_accounts {rsp : MasterValidatorReElectionRsq}
    (h : E.electValidators req = .ok rsp) :
    rsp.accounts.Perm ((req.validatorList.map nodeID ++
      req.foundationValidatoeList.map nodeID).map (accountOf req.validatorList)) := by
  obtain ⟨value, hvalue, h⟩ := bind_eq_ok_iff.mp h
  obtain ⟨valuefound, hfound, h⟩ := bind_eq_ok_iff.mp h
  obtain ⟨⟨a, b, c⟩, habc, h⟩ := bind_eq_ok_iff.mp h
  cases h
  have hids := calcAllValueFunction_nodeid hvalue
  have hfund := calcAllValueFunction_nodeid hfound
  have hlength : req.foundationValidatoeList.length = valuefound.length := by
    have hlen := congrArg length hfund
    rwa [length_map, length_map, eq_comm] at hlen
  have hperm := valNodesSelected_nodeid habc
  rw [hids, nodeID_withDefaults] at hperm
  unfold MasterValidatorReElectionRsq.accounts
  rw [map_append, map_append, topologyNodes_account, topologyNodes_account,
    topologyNodes_account, ← map_append, ← map_append, hlength,
    commbineFundNodesAndPricipal_nodeid, hfund]
  refine Perm.map _ ?_
  have hmove : (a.map Strallyint.nodeid ++ req.foundationValidatoeList.map nodeID ++
      b.map Strallyint.nodeid ++ c.map Strallyint.nodeid).Perm
      (a.map Strallyint.nodeid ++ b.map Strallyint.nodeid ++ c.map Strallyint.nodeid ++
        req.foundationValidatoeList.map nodeID) := by
    simp only [append_assoc]
    refine Perm.append_left _ ?_
    rw [← append_assoc (b.map Strallyint.nodeid)]
    exact perm_append_comm
  refine hmove.trans (Perm.append_right _ ?_)
  rwa [map_append, map_append] at hperm

theorem electValidators_isOk (E : Elector F) (h : req.foundationValidatoeList = []) :
    ∃ rsp, E.electValidators req = .ok rsp := by
  obtain ⟨value, hvalue⟩ := calcAllValueFunction_withDefaults (E := E) req.validatorList
  obtain ⟨selected, hselected⟩ :=
    valNodesSelected_isOk (E := E) value req.randSeed 5 (m := 11) (by decide)
  have hfound : E.calcAllValueFunction req.foundationValidatoeList = .ok [] := by
    rw [h]
    rfl
  have hj : (req.foundationValidatoeList.length : ℤ) = 0 := by
    rw [h]
    rfl
  unfold electValidators
  rw [hvalue, ok_bind, hfound, ok_bind]
  rw [hj, hselected]
  exact ⟨_, rfl⟩

/-- An election answers with the accounts of the request, each once, exactly if the node ids are
distinct and the foundation takes no part, or takes part with the zero address. -/
theorem election_namesDepositors_iff (E : Elector F) :
    (∀ req : MasterMinerReElectionReqMsg, (req.minerList.map address).Nodup →
      ∃ rsp, E.electMiners req = .ok rsp ∧
        (NamesDepositors rsp.accounts req.minerList ↔ (req.minerList.map nodeID).Nodup)) ∧
    ∀ req : MasterValidatorReElectionReqMsg,
      ((req.validatorList ++ req.foundationValidatoeList).map address).Nodup →
      (req.foundationValidatoeList = [] → ∃ rsp, E.electValidators req = .ok rsp) ∧
      ∀ rsp, E.electValidators req = .ok rsp →
        (NamesDepositors rsp.accounts (req.validatorList ++ req.foundationValidatoeList) ↔
          (req.validatorList.map nodeID).Nodup ∧
          (req.foundationValidatoeList = [] ∨ ∃ f, req.foundationValidatoeList = [f] ∧
            f.address = 0 ∧ f.nodeID ∉ req.validatorList.map nodeID)) := by
  refine ⟨?_, ?_⟩
  · intro req haddr
    obtain ⟨rsp, hrsp, hperm⟩ := electMiners_accounts E req
    refine ⟨rsp, hrsp, ?_⟩
    have hall : rsp.accounts.Perm ((req.minerList.map nodeID ++
        ([] : List ElectNode).map nodeID).map (accountOf req.minerList)) := by
      rwa [map_nil, append_nil]
    have hiff := namesDepositors_iff (by rwa [append_nil]) hall
    rw [append_nil] at hiff
    exact hiff.trans ⟨And.left, fun h => ⟨h, .inl rfl⟩⟩
  · intro req haddr
    refine ⟨electValidators_isOk E, ?_⟩
    intro rsp hrsp
    exact namesDepositors_iff haddr (electValidators_accounts hrsp)

section Sample

def rationalOps : FloatOps ℚ where
  lit := id
  ofUInt64 := fun n => n.toNat
  ofInt := fun n => n
  add := (· + ·)
  sub := (· - ·)
  mul := (· * ·)
  div := (· / ·)
  lt := fun x y => x < y
  le := fun x y => x ≤ y
  toInt := Int.floor

def sampleElector : Elector ℚ := ⟨rationalOps, fun _ _ => 1/2⟩

def twoValidators (firstID secondID : NodeID) : MasterValidatorReElectionReqMsg where
  seqNum := 60
  randSeed := 1
  validatorList := [.ofDeposit ⟨1, firstID, 10000, 0, some 300⟩, .ofDeposit ⟨2, secondID, 10000, 0, none⟩]
  foundationValidatoeList := []

theorem distinct_nodeIDs_elected : ∃ rsp, sampleElector.electValidators (twoValidators 8 9) = .ok rsp ∧
    NamesDepositors rsp.accounts (twoValidators 8 9).validatorList := by
  obtain ⟨hanswers, hiff⟩ := (election_namesDepositors_iff sampleElector).2 (twoValidators 8 9)
    (by decide +kernel)
  obtain ⟨rsp, hrsp⟩ := hanswers rfl
  exact ⟨rsp, hrsp, (hiff rsp hrsp).mpr ⟨by decide +kernel, .inl rfl⟩⟩

/-- Both depositors gave the node id 9: the account of the second is elected twice. -/
theorem shared_nodeID_elected_twice :
    ((twoValidators 9 9).validatorList.map address).Nodup ∧
    ∃ rsp, sampleElector.electValidators (twoValidators 9 9) = .ok rsp ∧ rsp.accounts = [2, 2] := by
  have hnone : (twoValidators 9 9).foundationValidatoeList = [] := rfl
  obtain ⟨rsp, hrsp⟩ := electValidators_isOk sampleElector hnone
  have hsecond : ((twoValidators 9 9).validatorList.map nodeID).map
      (accountOf (twoValidators 9 9).validatorList) = replicate 2 2 := by
    decide +kernel
  have hperm := electValidators_accounts hrsp
  rw [hnone, map_nil, append_nil, hsecond] at hperm
  exact ⟨by decide, rsp, hrsp, perm_replicate.mp hperm⟩

end Sample

end Elector

end MatrixNode
