import Mathlib.Data.List.Perm.Basic
import MatrixNode.DepositHistory

/-! The list of depositors. -/
namespace MatrixNode
namespace MatrixDeposit
open GoLib Function List

theorem cons_set_perm {α : Type} {init : List α} {x c : α} {i : ℕ}
    (h : (init ++ [x])[i]? = some c) : (c :: init.set i x).Perm (init ++ [x]) := by
  have hsnoc : (init ++ [x]).Perm (x :: init) := perm_append_singleton x init
  by_cases hi : i < init.length
  · have hc : init[i] = c := by
      rw [List.getElem?_append_left hi, List.getElem?_eq_getElem hi] at h
      exact Option.some.inj h
    have hset := (set_perm_cons_eraseIdx hi x).cons c
    have hget := (getElem_cons_eraseIdx_perm hi).cons x
    rw [hc] at hget
    exact (hset.trans (.swap x c _)).trans (hget.trans hsnoc.symm)
  · have hlen : i = init.length := by
      have hlt := (List.getElem?_eq_some_iff.mp h).1
      rw [length_append, length_singleton] at hlt
      omega
    rw [hlen, List.getElem?_concat_length] at h
    rw [← Option.some.inj h, set_eq_of_length_le (by omega)]
    exact hsnoc.symm

structure ListAt (b : Book) (l : List Depositor) : Prop where
  num : b.num = l.length
  small : l.length ≤ 2^64
  item : ∀ (i : ℕ) (c : Depositor), l[i]? = some c → b.item (UInt64.ofNat i) = c

theorem ofNat_ne {i j : ℕ} (hi : i < 2^64) (hj : j < 2^64) (h : i ≠ j) :
    UInt64.ofNat i ≠ UInt64.ofNat j := by
  intro he
  have hn := congrArg UInt64.toNat he
  rw [UInt64.toNat_ofNat_of_lt' hi, UInt64.toNat_ofNat_of_lt' hj] at hn
  exact h hn

section ListAt
variable {b : Book} {l : List Depositor} {c : Depositor}

theorem ListAt.insert (h : ListAt b l) (hlt : l.length < 2^64) : ListAt (b.insert c) (l ++ [c]) := by
  refine ⟨?_, ?_, ?_⟩
  · change (b.num+1)%2^256 = _
    rw [h.num, length_append, length_singleton, Nat.mod_eq_of_lt (by omega)]
  · rw [length_append, length_singleton]
    omega
  · intro i x hx
    change update b.item (UInt64.ofNat b.num) c (UInt64.ofNat i) = x
    rw [h.num]
    by_cases hi : i < l.length
    · rw [List.getElem?_append_left hi] at hx
      rw [update_of_ne (ofNat_ne (by omega) hlt (by omega)), h.item i x hx]
    · have hlen := (List.getElem?_eq_some_iff.mp hx).1
      rw [length_append, length_singleton] at hlen
      obtain rfl : i = l.length := by omega
      rw [List.getElem?_concat_length] at hx
      rw [update_self, Option.some.inj hx]

theorem ListAt.find (h : ListAt b l) (hlt : l.length < 2^64) (hnodup : l.Nodup) {i : ℕ}
    (hi : l[i]? = some c) :
    (listIndices b.num).find? (fun j => b.item j = c) = some (UInt64.ofNat i) := by
  obtain ⟨hil, hic⟩ := List.getElem?_eq_some_iff.mp hi
  have hrange : (range l.length).find?
      ((fun j => decide (b.item j = c)) ∘ UInt64.ofNat) = some i := by
    rw [find?_range_eq_some]
    refine ⟨by simp [h.item i c hi], mem_range.mpr hil, ?_⟩
    intro j hj
    have hjl : j < l.length := hj.trans hil
    rw [comp_apply, h.item j l[j] (List.getElem?_eq_getElem hjl)]
    have hne : l[j] ≠ c := by
      rw [← hic]
      exact fun he => absurd ((hnodup.getElem_inj_iff).mp he) (by omega)
    simp [Subtype.ext_iff.ne.mp hne]
  rw [listIndices, h.num, UInt64.toNat_ofNat_of_lt' hlt, find?_map, hrange]
  rfl

/-- The last entry is moved to the place of the one that leaves. -/
theorem ListAt.remove {init : List Depositor} {x : Depositor} (h : ListAt b (init ++ [x]))
    (hlt : (init ++ [x]).length < 2^64) (hnodup : (init ++ [x]).Nodup) {i : ℕ}
    (hi : (init ++ [x])[i]? = some c) : ListAt (b.remove c) (init.set i x) := by
  have hlen : (init ++ [x]).length = init.length+1 := by
    rw [length_append, length_singleton]
  have hil := (List.getElem?_eq_some_iff.mp hi).1
  have hlast : b.item (UInt64.ofNat b.num-1) = x := by
    have hsub : UInt64.ofNat b.num-1 = UInt64.ofNat init.length := by
      rw [h.num, hlen, UInt64.ofNat_add]
      exact UInt64.add_sub_cancel _ _
    rw [hsub]
    exact h.item init.length x List.getElem?_concat_length
  have hremove : b.remove c = ⟨b.deposit, b.withdrawHeight, b.num-1,
      update b.item (UInt64.ofNat i) x⟩ := by
    unfold Book.remove
    rw [h.find hlt hnodup hi, hlast]
  rw [hremove]
  refine ⟨?_, ?_, ?_⟩
  · rw [h.num, hlen, length_set, Nat.add_sub_cancel]
  · rw [length_set]
    omega
  · intro j y hy
    change update b.item (UInt64.ofNat i) x (UInt64.ofNat j) = y
    have hj : j < init.length := by
      rw [← length_set]
      exact (List.getElem?_eq_some_iff.mp hy).1
    by_cases hji : j = i
    · subst hji
      rw [List.getElem?_set_self hj] at hy
      rw [update_self, Option.some.inj hy]
    · rw [List.getElem?_set_ne (Ne.symm hji)] at hy
      rw [update_of_ne (ofNat_ne (by omega) (by omega) hji)]
      exact h.item j y (by rwa [List.getElem?_append_left hj])

end ListAt

structure Registered (b : Book) (l : List Depositor) : Prop extends ListAt b l where
  nodup : l.Nodup
  mem : ∀ c, c ∈ l ↔ b.deposit c ≠ 0
  enough : ∀ c ∈ l, minerThreshold ≤ b.deposit c

def depositorCount (b : Book) : ℕ := (Finset.univ.filter (fun c => b.deposit c ≠ 0)).card

section Registered
variable {b : Book} {l : List Depositor} {c : Depositor} {v : ℕ}

theorem Registered.length_eq (h : Registered b l) : l.length = depositorCount b := by
  have hset : l.toFinset = Finset.univ.filter (fun c => b.deposit c ≠ 0) := by
    ext c
    simp [h.mem]
  rw [depositorCount, ← hset, toFinset_card_of_nodup h.nodup]

/-- The account goes to the end of the list. -/
theorem Registered.enter (h : Registered b l) (hlt : l.length < 2^64) (h0 : b.deposit c = 0)
    (hv : minerThreshold ≤ v) (hfit : v < 2^256) : Registered (b.pay c v) (l ++ [c]) := by
  have hc : c ∉ l := fun hmem => (h.mem c).mp hmem h0
  have hpos := minerThreshold_pos
  have hlist : ListAt ⟨update b.deposit c v, b.withdrawHeight, b.num, b.item⟩ l :=
    ⟨h.num, h.small, h.item⟩
  have hdeposit (x : Depositor) : (b.pay c v).deposit x = if x = c then v else b.deposit x := by
    rw [Book.pay_deposit b c (by omega), h0, Nat.zero_add, update_apply]
  refine ⟨?_, ?_, ?_, ?_⟩
  · rw [Book.pay_new b c h0 hfit]
    exact hlist.insert hlt
  · rw [nodup_append]
    refine ⟨h.nodup, nodup_singleton c, ?_⟩
    intro x hx y hy hxy
    rw [mem_singleton] at hy
    exact hc (hy ▸ hxy ▸ hx)
  · intro x
    rw [mem_append, mem_singleton, h.mem, hdeposit]
    split_ifs with hx
    · simp only [hx, or_true, true_iff]
      omega
    · simp [hx]
  · intro x hx
    rw [hdeposit]
    split_ifs with hxc
    · exact hv
    · rw [mem_append, mem_singleton] at hx
      exact h.enough x (hx.resolve_right hxc)

/-- A sum that does not fit into a cell is not written. -/
theorem Registered.increase (h : Registered b l) (h0 : b.deposit c ≠ 0) :
    Registered (b.pay c v) l := by
  by_cases hfit : b.deposit c+v < 2^256
  · have hdeposit (x : Depositor) : (b.pay c v).deposit x =
        if x = c then b.deposit c+v else b.deposit x := by
      rw [Book.pay_deposit b c hfit, update_apply]
    refine ⟨?_, h.nodup, ?_, ?_⟩
    · rw [Book.pay, if_pos hfit, if_neg h0]
      exact ⟨h.num, h.small, h.item⟩
    · intro x
      rw [h.mem, hdeposit]
      split_ifs with hx
      · subst hx
        omega
      · rfl
    · intro x hx
      have hle := h.enough x hx
      rw [hdeposit]
      split_ifs with hxc
      · subst hxc
        omega
      · exact hle
  · rw [Book.pay, if_neg hfit]
    exact h

/-- The list without `c`, up to the order of its entries. -/
theorem Registered.leave (h : Registered b l) (hlt : l.length < 2^64) (h0 : b.deposit c ≠ 0) :
    ∃ l', Registered (b.close c) l' := by
  have hc : c ∈ l := (h.mem c).mpr h0
  obtain ⟨i, hi⟩ := mem_iff_getElem?.mp hc
  rcases eq_nil_or_concat' l with rfl | ⟨init, x, rfl⟩
  · cases hc
  have hlist : ListAt ⟨update b.deposit c 0, update b.withdrawHeight c 0, b.num,
      b.item⟩ (init ++ [x]) := ⟨h.num, h.small, h.item⟩
  have hperm := cons_set_perm hi
  have hnodup : (c :: init.set i x).Nodup := hperm.nodup_iff.mpr h.nodup
  have hmem (y : Depositor) : y ∈ init.set i x ↔ y ∈ init ++ [x] ∧ y ≠ c := by
    rw [← hperm.mem_iff, mem_cons]
    constructor
    · intro hy
      refine ⟨.inr hy, ?_⟩
      rintro rfl
      exact (nodup_cons.mp hnodup).1 hy
    · rintro ⟨hy, hne⟩
      exact hy.resolve_left hne
  refine ⟨init.set i x, hlist.remove hlt h.nodup hi, (nodup_cons.mp hnodup).2, ?_, ?_⟩
  · intro y
    rw [Book.close_deposit, hmem, h.mem, update_apply]
    split_ifs with hy
    · simp [hy]
    · simp [hy]
  · intro y hy
    obtain ⟨hyl, hyc⟩ := (hmem y).mp hy
    rw [Book.close_deposit, update_of_ne hyc]
    exact h.enough y hyl

end Registered

theorem minerThreshold_le_of_action {input : Bytes} {threshold : ℕ}
    (h : action input = .deposit threshold) : minerThreshold ≤ threshold := by
  unfold action at h
  split_ifs at h <;> cases h <;> decide

theorem Registered.step {c : Depositor} {v n : ℕ} {input : Bytes} {ok : Bool} {s s' : Vault}
    {l : List Depositor} (h : Registered s.book l) (hlt : l.length < 2^64)
    (hstep : VaultStep c v n (action input) ok s s') : ∃ l', Registered s'.book l' := by
  generalize ha : action input = a at hstep
  cases hstep with
  | failed => exact ⟨l, h⟩
  | read hv => exact ⟨l, h⟩
  | withdraw hv hd => exact ⟨l, ⟨h.num, h.small, h.item⟩, h.nodup, h.mem, h.enough⟩
  | @deposit threshold _ hv hw ht =>
    have hle := minerThreshold_le_of_action ha
    by_cases h0 : s.book.deposit c = 0
    · rw [h0, Nat.zero_add] at ht
      by_cases hfit : v < 2^256
      · exact ⟨l ++ [c], h.enter hlt h0 (hle.trans ht) hfit⟩
      · refine ⟨l, ?_⟩
        rw [Book.pay, if_neg (by omega)]
        exact h
    · exact ⟨l, h.increase h0⟩
  | refund hv hd hw hn hb => exact h.leave hlt hd

variable {db : StateDB}

theorem registered_runCalls (hempty : ∀ key, db.getState depositAddress key = 0)
    (calls : List DepositCall) (hcallers : ∀ k ∈ calls, 2^80 ≤ k.caller.toNat)
    (hfew : ∀ earlier, earlier <+: calls → depositorCount (book (runCalls db earlier).1) < 2^64) :
    ∃ l, Registered (book (runCalls db calls).1) l := by
  induction calls using reverseRecOn with
  | nil =>
    have hzero (c : Cell) : (cells db c).toNat = 0 := congrArg BitVec.toNat (hempty _)
    refine ⟨[], ⟨hzero _, by simp, nofun⟩, nodup_nil, ?_, nofun⟩
    intro c
    simp only [not_mem_nil, false_iff, not_not]
    exact hzero _
  | append_singleton calls k ih =>
    obtain ⟨l, hl⟩ := ih (fun k' hk => hcallers k' (mem_append_left _ hk))
      (fun earlier h => hfew earlier (h.trans (prefix_append calls [k])))
    have hk : k ∈ calls ++ [k] := mem_append_right _ (mem_singleton_self k)
    have hlt : l.length < 2^64 := hl.length_eq ▸ hfew calls (prefix_append calls [k])
    rw [runCalls_append]
    exact hl.step hlt (invoke_step (c := ⟨k.caller, hcallers k hk⟩) k rfl _)

section Readers
variable {contract : Contract} {db : StateDB} {l : List Depositor}

def detailOf (contract : Contract) (db : StateDB) (addr : Address) : DepositDetail :=
  ⟨addr, getNodeID contract db addr, getDeposit contract db addr, getWithdrawHeight contract db addr,
    getOnlineTime contract db addr⟩

theorem getDepositDetail_of_ne {addr : Address} (h : getDeposit contract db addr ≠ 0) :
    getDepositDetail addr contract db = .ok (detailOf contract db addr) :=
  if_neg h

theorem depositListWhere_eq (p : DepositDetail → Bool)
    (h : ∀ a ∈ listedAddresses contract db, getDeposit contract db a ≠ 0) :
    depositListWhere contract db (fun d => d.withdrawH == 0 && p d) =
      (getAllDepositList contract db false).filter p := by
  unfold depositListWhere getAllDepositList
  generalize listedAddresses contract db = addrs at h
  induction addrs with
  | nil => rfl
  | cons a addrs ih =>
    have ha := getDepositDetail_of_ne (h a (mem_cons_self ..))
    have hrest := ih (fun x hx => h x (mem_cons_of_mem _ hx))
    rw [filterMap_cons, detailsUntilEmpty, ha, hrest]
    by_cases hopen : (detailOf contract db a).withdrawH = 0
    · by_cases hp : p (detailOf contract db a) = true
      · simp [Except.toOption, Option.filter, hopen, hp]
      · simp [Except.toOption, Option.filter, hopen, hp]
    · simp [Except.toOption, Option.filter, hopen]

theorem getAllDepositList_eq (h : ∀ a ∈ listedAddresses contract db, getDeposit contract db a ≠ 0) :
    getAllDepositList contract db false =
      ((listedAddresses contract db).map (detailOf contract db)).filter (·.withdrawH == 0) := by
  unfold getAllDepositList
  generalize listedAddresses contract db = addrs at h
  induction addrs with
  | nil => rfl
  | cons a addrs ih =>
    have ha := getDepositDetail_of_ne (h a (mem_cons_self ..))
    have hrest := ih (fun x hx => h x (mem_cons_of_mem _ hx))
    rw [detailsUntilEmpty, ha, map_cons, filter_cons, ← hrest]
    simp

theorem Registered.listedAddresses_eq (h : Registered (book db) l) (hlt : l.length < 2^64)
    (ha : contract.address = depositAddress) :
    listedAddresses contract db = l.map Subtype.val := by
  have hcell (c : Cell) : cell contract db c = cells db c := by
    rw [cell, ha]
    rfl
  have hitem (i : UInt64) : getDepositListItem contract db i = (book db).item i := by
    rw [getDepositListItem, hcell]
    rfl
  have hnum : (cell contract db .listNum).toNat = l.length := by
    rw [hcell]
    exact h.num
  unfold listedAddresses listIndices
  rw [hnum, UInt64.toNat_ofNat_of_lt' hlt, map_map]
  apply ext_getElem
  · simp
  · intro i hi hi'
    have hil : i < l.length := by simpa using hi'
    rw [getElem_map, getElem_map, getElem_range, comp_apply, hitem]
    exact h.item i l[i] (List.getElem?_eq_getElem hil)

end Readers

/-- What the readers of the registry return in a state. -/
structure RegistryCorrect (contract : Contract) (db : StateDB) : Prop where
  nodup : (listedAddresses contract db).Nodup
  exact : ∀ a, a ∈ listedAddresses contract db ↔ 2^80 ≤ a.toNat ∧ getDeposit contract db a ≠ 0
  enough : ∀ a ∈ listedAddresses contract db, minerThreshold ≤ getDeposit contract db a
  listOrder : (getAllDepositList contract db false).map DepositDetail.address =
    (listedAddresses contract db).filter (fun a => getWithdrawHeight contract db a = 0)
  validators : getValidatorDepositList contract db =
    (getAllDepositList contract db false).filter (fun d => validatorThreshold ≤ d.deposit)
  miners : getMinerDepositList contract db =
    (getAllDepositList contract db false).filter (fun d => d.deposit < validatorThreshold)
  disjoint : ((getValidatorDepositList contract db).map DepositDetail.address).Disjoint
    ((getMinerDepositList contract db).map DepositDetail.address)

/-- An entry is determined by its address. -/
theorem Registered.registryCorrect {contract : Contract} {l : List Depositor}
    (h : Registered (book db) l) (hlt : l.length < 2^64) (ha : contract.address = depositAddress) :
    RegistryCorrect contract db := by
  have hlisted := h.listedAddresses_eq hlt ha
  have hdeposit (c : Depositor) : getDeposit contract db c = (book db).deposit c := by
    rw [getDeposit, cell, ha]
    rfl
  have hmem (a : Address) : a ∈ listedAddresses contract db ↔
      2^80 ≤ a.toNat ∧ getDeposit contract db a ≠ 0 := by
    rw [hlisted, mem_map]
    constructor
    · rintro ⟨c, hc, rfl⟩
      exact ⟨c.2, (hdeposit c).trans_ne ((h.mem c).mp hc)⟩
    · rintro ⟨hlow, hne⟩
      exact ⟨⟨a, hlow⟩, (h.mem _).mpr ((hdeposit ⟨a, hlow⟩).symm.trans_ne hne), rfl⟩
  have hne : ∀ a ∈ listedAddresses contract db, getDeposit contract db a ≠ 0 :=
    fun a hmema => ((hmem a).mp hmema).2
  have hall := getAllDepositList_eq hne
  have hvalidators : getValidatorDepositList contract db =
      (getAllDepositList contract db false).filter (fun d => validatorThreshold ≤ d.deposit) :=
    depositListWhere_eq _ hne
  have hminers : getMinerDepositList contract db =
      (getAllDepositList contract db false).filter (fun d => d.deposit < validatorThreshold) :=
    depositListWhere_eq _ hne
  have hentry : ∀ d ∈ getAllDepositList contract db false, d = detailOf contract db d.address := by
    intro d hd
    rw [hall, mem_filter, mem_map] at hd
    obtain ⟨⟨a, -, rfl⟩, -⟩ := hd
    rfl
  refine ⟨?_, hmem, ?_, ?_, hvalidators, hminers, ?_⟩
  · rw [hlisted]
    exact h.nodup.map Subtype.val_injective
  · intro a hmema
    obtain ⟨hlow, hnea⟩ := (hmem a).mp hmema
    rw [hdeposit ⟨a, hlow⟩] at hnea ⊢
    exact h.enough _ ((h.mem _).mpr hnea)
  · rw [hall, filter_map, map_map]
    exact map_id'' (fun _ => rfl) _
  · rw [hvalidators, hminers]
    intro a hv hm
    obtain ⟨d, hd, rfl⟩ := mem_map.mp hv
    obtain ⟨d', hd', haddr⟩ := mem_map.mp hm
    rw [mem_filter, decide_eq_true_eq] at hd hd'
    have hsame : d'.deposit = d.deposit := by
      rw [hentry d hd.1, hentry d' hd'.1, haddr]
    omega

/-- Over every sequence of calls from empty storage in which never `2^64` accounts have a deposit
at a time, the registry is in order. -/
theorem registry_after_calls {db : StateDB} (hempty : ∀ key, db.getState depositAddress key = 0)
    (calls : List DepositCall) (hcallers : ∀ k ∈ calls, 2^80 ≤ k.caller.toNat)
    (hfew : ∀ earlier, earlier <+: calls → depositorCount (book (runCalls db earlier).1) < 2^64)
    (contract : Contract) (haddr : contract.address = depositAddress) :
    RegistryCorrect contract (runCalls db calls).1 := by
  obtain ⟨l, hl⟩ := registered_runCalls hempty calls hcallers hfew
  have hlt : l.length < 2^64 := hl.length_eq ▸ hfew calls prefix_rfl
  exact hl.registryCorrect hlt haddr

/-- A call enters its own caller at most. -/
theorem depositorCount_step {c : Depositor} {v n : ℕ} {a : Action} {ok : Bool} {s s' : Vault}
    (hstep : VaultStep c v n a ok s s') : depositorCount s'.book ≤ depositorCount s.book+1 := by
  have hothers (x : Depositor) (hx : x ≠ c) : s'.book.deposit x = s.book.deposit x := by
    cases hstep with
    | failed => rfl
    | read hv => rfl
    | withdraw hv hd => rfl
    | deposit hv hw ht =>
      unfold Book.pay Book.insert
      dsimp only
      split_ifs
      · exact update_of_ne hx _ _
      · exact update_of_ne hx _ _
      · rfl
    | refund hv hd hw hn hb =>
      rw [Book.close_deposit]
      exact update_of_ne hx _ _
  refine (Finset.card_le_card ?_).trans (Finset.card_insert_le c _)
  intro x hx
  rw [Finset.mem_insert, Finset.mem_filter]
  by_cases hc : x = c
  · exact .inl hc
  · exact .inr ⟨Finset.mem_univ x, hothers x hc ▸ (Finset.mem_filter.mp hx).2⟩

theorem depositorCount_le_length {db : StateDB} (hempty : ∀ key, db.getState depositAddress key = 0)
    (calls : List DepositCall) (hcallers : ∀ k ∈ calls, 2^80 ≤ k.caller.toNat) :
    depositorCount (book (runCalls db calls).1) ≤ calls.length := by
  induction calls using reverseRecOn with
  | nil =>
    have hzero (c : Depositor) : (book db).deposit c = 0 := congrArg BitVec.toNat (hempty _)
    simp [depositorCount, runCalls, hzero]
  | append_singleton calls k ih =>
    have hbefore := ih (fun k' hk => hcallers k' (mem_append_left _ hk))
    have hk : k ∈ calls ++ [k] := mem_append_right _ (mem_singleton_self k)
    rw [runCalls_append, length_append]
    exact (depositorCount_step (invoke_step (c := ⟨k.caller, hcallers k hk⟩) k rfl _)).trans
      (Nat.succ_le_succ hbefore)

/-- Two accounts deposit, and the first one withdraws. -/
def refundingCalls : List DepositCall :=
  [sampleCall firstDepositor minerDepositInput minerThreshold 1,
    sampleCall (BitVec.ofNat 160 (2^80+1)) minerDepositInput minerThreshold 1,
    sampleCall firstDepositor withdrawIdArr 0 1, sampleCall firstDepositor refundIdArr 0 2]

/-- The second account takes the place of the first in the list. -/
theorem registry_after_refund : RegistryCorrect ownContract (runCalls richState refundingCalls).1 ∧
    listedAddresses ownContract (runCalls richState refundingCalls).1 =
      [BitVec.ofNat 160 (2^80+1)] := by
  have hcallers : ∀ k ∈ refundingCalls, 2^80 ≤ k.caller.toNat := by decide +kernel
  refine ⟨registry_after_calls getState_richState refundingCalls hcallers ?_ ownContract rfl,
    by decide +kernel⟩
  intro earlier hpre
  have hcount := depositorCount_le_length getState_richState earlier
    (fun k hk => hcallers k (hpre.subset hk))
  have hlength : earlier.length ≤ 4 := hpre.length_le
  omega

theorem listedAddresses_full (h : (book db).num = 2^64) : listedAddresses ownContract db = [] := by
  have hnum : (cell ownContract db .listNum).toNat = 2^64 := h
  rw [listedAddresses, hnum]
  rfl

/-- The length of the list is kept in a word, but read as a 64-bit number: with `2^64` accounts in
it the list is empty for every reader. -/
theorem registry_full_reads_empty :
    ¬ RegistryCorrect ownContract (runCalls richState (depositingCalls (2^64))).1 := by
  have hstart : Filled richState 0 0 richState :=
    ⟨rfl, nofun, nofun, fun _ _ _ => ⟨rfl, le_rfl⟩, fun _ => rfl, fun _ _ _ => rfl, le_rfl⟩
  have hfull := filled_runCalls hstart (2^64) (by norm_num)
  generalize (runCalls richState (depositingCalls (2^64))).1 = db at hfull ⊢
  intro h
  have hdeposit := hfull.paid 0 (by norm_num)
  have hmem := (h.exact (nthDepositor 0)).mpr
    ⟨(nthDepositor 0).2, hdeposit.trans_ne minerThreshold_pos.ne'⟩
  rw [listedAddresses_full (hfull.num.trans (Nat.zero_add _))] at hmem
  cases hmem

end MatrixDeposit
end MatrixNode
