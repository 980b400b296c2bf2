import MatrixNode.ElectorResponse

/-! How many nodes an election selects. -/
namespace MatrixNode
open GoLib List

namespace Elector
variable {F : Type} {E : Elector F} {prob : List (Weighted F)} {seed : ℤ}

section Drawing

theorem len_insert_le (dict : GoMap NodeID ℤ) (node : NodeID) (votes : ℤ) :
    GoMap.len (dict.insert node votes) ≤ GoMap.len dict+1 := by
  have hkeys : (dict.insert node votes).keys ⊆ insert node dict.keys := by
    intro k hk
    rw [Finmap.mem_keys, Finmap.mem_insert] at hk
    rwa [Finset.mem_insert]
  exact (Finset.card_le_card hkeys).trans (Finset.card_insert_le _ _)

theorem len_sampleNodes_le {limit : ℤ} {left i : ℕ} {dict dict' : GoMap NodeID ℤ}
    (hdict : (GoMap.len dict : ℤ) < limit)
    (h : E.sampleNodes prob seed limit left i dict = .ok dict') : (GoMap.len dict' : ℤ) ≤ limit := by
  induction left generalizing i dict with
  | zero =>
    cases h
    exact hdict.le
  | succ left ih =>
    obtain ⟨node, -, h⟩ := bind_eq_ok_iff.mp h
    have hle := len_insert_le dict node ((dict.lookup node).getD 0+1)
    dsimp only at h
    split_ifs at h with hfull
    · cases h
      exact hfull.le
    · exact ih (by omega) h

theorem length_drawn_le (hnodup : (prob.map Weighted.nodeid).Nodup) (dict : GoMap NodeID ℤ) :
    (prob.filterMap fun item : Weighted F =>
      (dict.lookup item.nodeid).map (Strallyint.mk item.nodeid)).length ≤ GoMap.len dict := by
  have hids : ((prob.filterMap fun item : Weighted F =>
      (dict.lookup item.nodeid).map (Strallyint.mk item.nodeid)).map Strallyint.nodeid).Nodup := by
    have hperm := nodeid_perm_of_drawn dict (fun _ => 0) prob
    have hall := hperm.nodup_iff.mpr hnodup
    rw [map_append] at hall
    exact (nodup_append.mp hall).1
  rw [← length_map (f := Strallyint.nodeid), ← toFinset_card_of_nodup hids]
  apply Finset.card_le_card
  intro nodeid hmem
  simp only [mem_toFinset, mem_map, mem_filterMap, Option.map_eq_some_iff] at hmem
  obtain ⟨_, ⟨item, -, votes, hvotes, rfl⟩, rfl⟩ := hmem
  exact Finmap.mem_keys.mpr (Finmap.mem_iff.mpr ⟨votes, hvotes⟩)

end Drawing

section Filling

theorem length_fillUp {target : ℤ} {nodes : List Strallyint} (rest : List Strallyint)
    (hnodes : (nodes.length : ℤ) ≤ target) :
    ((fillUp target nodes rest).1.length : ℤ) = min target (nodes.length+rest.length) := by
  induction rest generalizing nodes with
  | nil =>
    unfold fillUp
    rw [length_nil, Nat.cast_zero, add_zero, min_eq_right hnodes]
  | cons item rest ih =>
    unfold fillUp
    split_ifs with hlt
    · have hlen : ((nodes ++ [item]).length : ℤ) = nodes.length+1 := by
        rw [length_append]
        rfl
      rw [ih (by omega), length_cons]
      omega
    · rw [min_eq_left (by omega)]
      exact le_antisymm hnodes (not_lt.mp hlt)

theorem length_fillUp_add (target : ℤ) (nodes rest : List Strallyint) :
    (fillUp target nodes rest).1.length+(fillUp target nodes rest).2.length =
      nodes.length+rest.length := by
  have happend := congrArg length (fillUp_append target nodes rest)
  rwa [length_append, length_append] at happend

end Filling

section Validators

theorem length_sampleMPlusPNodes {quota : ℤ} {a rest : List Strallyint}
    (hnodup : (prob.map Weighted.nodeid).Nodup) (hquota : 0 < quota)
    (h : E.sampleMPlusPNodes prob seed quota = .ok (a, rest)) : (a.length : ℤ) ≤ quota := by
  unfold sampleMPlusPNodes at h
  split_ifs at h with hn
  · cases h
    rw [length_map]
    exact hn
  · obtain ⟨dict, hdict, h⟩ := bind_eq_ok_iff.mp h
    cases h
    have hnone : (GoMap.len (∅ : GoMap NodeID ℤ) : ℤ) < quota := hquota
    have hlen := len_sampleNodes_le hnone hdict
    have hdrawn : _ ≤ (GoMap.len dict : ℤ) := Int.ofNat_le.mpr (length_drawn_le hnodup dict)
    exact hdrawn.trans hlen

theorem length_valNodesSelected {probVal : List (Weighted F)} {m p j : ℤ} {a b c : List Strallyint}
    (hnodup : (probVal.map Weighted.nodeid).Nodup) (hm : j < m) (hp : 0 ≤ p)
    (h : E.valNodesSelected probVal seed m p j = .ok (a, b, c)) :
    (a.length : ℤ) = min (m-j) probVal.length ∧ (b.length : ℤ) = min p (probVal.length-a.length) := by
  have htotal := (valNodesSelected_nodeid h).length_eq
  unfold valNodesSelected at h
  obtain ⟨⟨pricipal, remaining⟩, hsample, h⟩ := bind_eq_ok_iff.mp h
  rw [← normalize_nodeid (E := E)] at hnodup
  have hdrawn := length_sampleMPlusPNodes hnodup (by omega) hsample
  cases h
  have hrest : (calcRemainingNodesVotes remaining).length = remaining.length := length_map ..
  have hall := (sampleMPlusPNodes_nodeid hsample).length_eq
  have hnorm : (E.normalize probVal).length = probVal.length := length_map ..
  rw [length_map, length_append, length_map, hnorm] at hall
  have hfirst := length_fillUp (calcRemainingNodesVotes remaining) hdrawn
  have hsplit := length_fillUp_add (m-j) pricipal (calcRemainingNodesVotes remaining)
  have hnone : (([] : List Strallyint).length : ℤ) ≤ p := hp
  have hsecond := length_fillUp (fillUp (m-j) pricipal (calcRemainingNodesVotes remaining)).2 hnone
  rw [length_nil] at hsecond
  omega

end Validators

section Miners

theorem length_sortMiners {pricipal bak : List Strallyint} (hnodup : (prob.map Weighted.nodeid).Nodup)
    (hall : ((pricipal ++ bak).map Strallyint.nodeid).Perm (prob.map Weighted.nodeid)) :
    (sortMiners prob pricipal bak).1.length = pricipal.length := by
  have hsorted := (sortMiners_nodeid hall).nodup_iff.mpr hnodup
  have hgiven := hall.nodup_iff.mpr hnodup
  rw [map_append] at hsorted hgiven
  have hperm : ((sortMiners prob pricipal bak).1.map Strallyint.nodeid).Perm
      (pricipal.map Strallyint.nodeid) := by
    rw [perm_ext_iff_of_nodup (nodup_append.mp hsorted).1 (nodup_append.mp hgiven).1]
    intro nodeid
    simp only [sortMiners, mem_map, mem_filterMap, Option.map_eq_some_iff]
    constructor
    · rintro ⟨_, ⟨item, -, votes, hvotes, rfl⟩, rfl⟩
      have hmem := (mem_votesOf pricipal item.nodeid).mp (Finmap.mem_iff.mpr ⟨votes, hvotes⟩)
      exact mem_map.mp hmem
    · intro hmem
      have hid : nodeid ∈ pricipal.map Strallyint.nodeid := mem_map.mpr hmem
      have hprob : nodeid ∈ prob.map Weighted.nodeid := by
        apply hall.mem_iff.mp
        rw [map_append]
        exact mem_append_left _ hid
      obtain ⟨item, hitem, rfl⟩ := mem_map.mp hprob
      obtain ⟨votes, hvotes⟩ := Finmap.mem_iff.mp ((mem_votesOf pricipal item.nodeid).mpr hid)
      exact ⟨⟨item.nodeid, votes⟩, ⟨item, hitem, votes, hvotes, rfl⟩, rfl⟩
  have hlen := hperm.length_eq
  rwa [length_map, length_map] at hlen

theorem length_append_take {pricipal bak : List Strallyint} {n : ℕ} (hle : pricipal.length ≤ n)
    (hge : n ≤ (pricipal ++ bak).length) :
    (pricipal ++ bak.take (n-pricipal.length)).length = n := by
  rw [length_append] at hge
  rw [length_append, length_take]
  omega

theorem length_sampleMinerNodes {n : ℕ} {a b : List Strallyint}
    (hnodup : (prob.map Weighted.nodeid).Nodup) (hn : 1 ≤ n)
    (h : E.sampleMinerNodes prob seed n = .ok (a, b)) : a.length = min n prob.length := by
  unfold sampleMinerNodes at h
  split_ifs at h with hle
  · have hall : (((prob.map fun item : Weighted F => (⟨item.nodeid,
        E.ops.toInt (E.ops.mul (E.ops.lit 100) item.value)⟩ : Strallyint)) ++ []).map
          Strallyint.nodeid).Perm (prob.map Weighted.nodeid) := by
      rw [append_nil, map_map]
      exact Perm.refl _
    have hsort := length_sortMiners hnodup hall
    have ha := congrArg Prod.fst (Except.ok.inj h)
    dsimp only at ha
    rw [← ha, hsort, length_map, min_eq_right hle]
  · obtain ⟨dict, hdict, h⟩ := bind_eq_ok_iff.mp h
    have hnone : (GoMap.len (∅ : GoMap NodeID ℤ) : ℤ) < n := by exact_mod_cast hn
    have hlen := len_sampleNodes_le hnone hdict
    have hdrawn := (length_drawn_le hnodup dict).trans (Int.ofNat_le.mp hlen)
    have hperm := nodeid_perm_of_drawn dict (fun item => E.ops.toInt item.value) prob
    have hall := hperm.length_eq
    rw [length_map, length_map] at hall
    have ha := congrArg Prod.fst (Except.ok.inj h)
    dsimp only at ha
    rw [← ha, length_sortMiners hnodup, min_eq_left (by omega)]
    · exact length_append_take hdrawn (hall.ge.trans' (by omega))
    · rw [append_assoc, take_append_drop]
      exact hperm

theorem length_minerNodesSelected {probVal : List (Weighted F)} {n : ℕ} {a b : List Strallyint}
    (hnodup : (probVal.map Weighted.nodeid).Nodup) (hn : 1 ≤ n)
    (h : E.minerNodesSelected probVal seed n = .ok (a, b)) : a.length = min n probVal.length := by
  obtain ⟨⟨pricipal, bak⟩, hsample, h⟩ := bind_eq_ok_iff.mp h
  cases h
  rw [← normalize_nodeid (E := E)] at hnodup
  have hlen := length_sampleMinerNodes hnodup hn hsample
  have hnorm : (E.normalize probVal).length = probVal.length := length_map ..
  rwa [hnorm] at hlen

end Miners

def Partitions (lists : List (List Strallyint)) (candidates : List (Weighted F)) : Prop :=
  lists.Pairwise (fun l l' => (l.map Strallyint.nodeid).Disjoint (l'.map Strallyint.nodeid)) ∧
    (lists.flatten.map Strallyint.nodeid).Perm (candidates.map Weighted.nodeid)

theorem partitions_of_perm {lists : List (List Strallyint)} {candidates : List (Weighted F)}
    (hnodup : (candidates.map Weighted.nodeid).Nodup)
    (hperm : (lists.flatten.map Strallyint.nodeid).Perm (candidates.map Weighted.nodeid)) :
    Partitions lists candidates := by
  refine ⟨?_, hperm⟩
  have hall := hperm.nodup_iff.mpr hnodup
  rw [map_flatten, nodup_flatten, pairwise_map] at hall
  exact hall.2

/-- For candidates with distinct node ids the lists partition them, and every list has as many nodes
as it has places, as far as there are nodes. -/
theorem selected_partition_counts (E : Elector F) (probVal : List (Weighted F))
    (hnodup : (probVal.map Weighted.nodeid).Nodup) (seed : ℤ) :
    (∀ m p j : ℤ, 0 ≤ j → j < m → 0 ≤ p → ∃ a b c,
      E.valNodesSelected probVal seed m p j = .ok (a, b, c) ∧ Partitions [a,b,c] probVal ∧
        (a.length : ℤ) = min (m-j) probVal.length ∧
        (b.length : ℤ) = min p (probVal.length-a.length)) ∧
    ∀ ms : ℕ, 1 ≤ ms → ∃ a b,
      E.minerNodesSelected probVal seed ms = .ok (a, b) ∧ Partitions [a,b] probVal ∧
        a.length = min ms probVal.length := by
  refine ⟨?_, ?_⟩
  · intro m p j _ hm hp
    obtain ⟨s, hs⟩ := sampleMPlusPNodes_isOk (E := E) (E.normalize probVal) seed
      (show 0 ≤ m-j by omega)
    have hok : ∃ a b c, E.valNodesSelected probVal seed m p j = .ok (a, b, c) := by
      unfold valNodesSelected
      rw [hs]
      exact ⟨_, _, _, rfl⟩
    obtain ⟨a, b, c, habc⟩ := hok
    have hperm := valNodesSelected_nodeid habc
    refine ⟨a, b, c, habc, partitions_of_perm hnodup ?_, length_valNodesSelected hnodup hm hp habc⟩
    simpa using hperm
  · intro ms hms
    obtain ⟨a, b, hab, hperm⟩ := minerNodesSelected_nodeid (E := E) probVal seed ms
    refine ⟨a, b, hab, partitions_of_perm hnodup ?_, length_minerNodesSelected hnodup hms hab⟩
    simpa using hperm

def threeCandidates : List (Weighted ℚ) := [⟨7, 1⟩, ⟨8, 1⟩, ⟨9, 2⟩]

/-- With three places for validators, one of them the foundation's, and one for a substitute. -/
theorem selected_threeCandidates :
    ∃ a b c, sampleElector.valNodesSelected threeCandidates 1 3 1 1 = .ok (a, b, c) ∧
      Partitions [a,b,c] threeCandidates ∧ a.length = 2 ∧ b.length = 1 := by
  have hcounts := (selected_partition_counts sampleElector threeCandidates (by decide +kernel) 1).1
  obtain ⟨a, b, c, habc, hpart, ha, hb⟩ := hcounts 3 1 1 (by decide) (by decide) (by decide)
  have hlen : threeCandidates.length = 3 := rfl
  exact ⟨a, b, c, habc, hpart, by omega, by omega⟩

end Elector

end MatrixNode
