import MatrixNode.DposEngine

/-! What an accepted signature list proves: more than two thirds of the validators
of the stock map signed agreement, so two accepted lists share more than a third. -/
namespace MatrixNode
open GoLib Finmap List

namespace DposEngine

section Tally
variable {target : DposTarget} {l : List (Address × VerifiedSign)} {t t' : DposTally}

theorem foldl_add_counts (l : List (Address × VerifiedSign)) (t : DposTally) :
    (l.foldl (fun t e => t.add e.2) t).agreeCount =
        t.agreeCount+l.countP (fun e => e.2.validate) ∧
      (l.foldl (fun t e => t.add e.2) t).disagreeCount =
        t.disagreeCount+l.countP (fun e => !e.2.validate) ∧
      (l.foldl (fun t e => t.add e.2) t).agreeStock =
        t.agreeStock+(l.map fun e => if e.2.validate then e.2.stock.toNat else 0).sum ∧
      (l.foldl (fun t e => t.add e.2) t).disagreeStock =
        t.disagreeStock+(l.map fun e => if e.2.validate then 0 else e.2.stock.toNat).sum := by
  induction l generalizing t with
  | nil => exact ⟨rfl, rfl, rfl, rfl⟩
  | cons e l ih =>
    obtain ⟨hagree, hdisagree, hagreeStock, hdisagreeStock⟩ := ih (t.add e.2)
    rw [foldl_cons, hagree, hdisagree, hagreeStock, hdisagreeStock, DposTally.add]
    cases he : e.2.validate
    · simp [he]
      omega
    · simp [he]
      omega

/-- Disagreement only grows, so the limits hold at every turn of the loop when they
hold at its end. -/
theorem foldlM_count_eq_ok_iff (hc : t.disagreeCount ≤ target.maxDisagreeCount)
    (hs : t.disagreeStock ≤ target.maxDisagreeStock) :
    l.foldlM (fun t e => DposTally.count target t e.2) t = .ok t' ↔
      t' = l.foldl (fun t e => t.add e.2) t ∧
      t'.disagreeCount ≤ target.maxDisagreeCount ∧ t'.disagreeStock ≤ target.maxDisagreeStock := by
  induction l generalizing t with
  | nil =>
    rw [foldlM_nil, pure_eq_ok, Except.ok.injEq]
    constructor
    · rintro rfl
      exact ⟨rfl, hc, hs⟩
    · rintro ⟨rfl, -⟩
      rfl
  | cons e l ih =>
    rw [foldlM_cons, foldl_cons, DposTally.count]
    obtain ⟨-, hcount, -, hstock⟩ := foldl_add_counts l (t.add e.2)
    split_ifs with hv hcx hsx
    · rw [pure_eq_ok, ok_bind, ih (by simpa [DposTally.add, hv] using hc)
        (by simpa [DposTally.add, hv] using hs)]
    · simp only [throw_eq_error, error_bind, reduceCtorEq, false_iff]
      rintro ⟨rfl, hle, -⟩
      omega
    · simp only [throw_eq_error, error_bind, reduceCtorEq, false_iff]
      rintro ⟨rfl, -, hle⟩
      omega
    · rw [pure_eq_ok, ok_bind, ih (by omega) (by omega)]

/-- The counts that one order of the loop ends with when nothing stops it. -/
def tallySigns (order : List (Address × VerifiedSign)) : DposTally :=
  order.foldl (fun t e => t.add e.2) {}

theorem verifyDPOS_eq_ok_iff {signs : GoMap Address VerifiedSign} {O : DposOrders}
    {right : List Signature} :
    verifyDPOS signs target O = .ok right ↔
      ∃ t : DposTally, t = tallySigns (O.signs.order signs) ∧
        t.disagreeCount ≤ target.maxDisagreeCount ∧ t.disagreeStock ≤ target.maxDisagreeStock ∧
        target.targetCount ≤ t.agreeCount ∧ target.targetStock ≤ t.agreeStock ∧
        right = t.rightSigns := by
  simp only [verifyDPOS, tallySigns, bind_eq_ok_iff, throw_eq_error, error_bind, ite_error_eq_ok,
    pure_eq_ok, Except.ok.injEq, not_lt, eq_comm (b := right),
    foldlM_count_eq_ok_iff (t := {}) (Nat.zero_le _) (Nat.zero_le _), and_assoc]

/-- Either the last entry agrees and is the signature, or the entries before it hold it. -/
theorem mem_tallySigns_rightSigns {order : List (Address × VerifiedSign)} {sign : Signature}
    (h : sign ∈ (tallySigns order).rightSigns) :
    ∃ e ∈ order, e.2.validate = true ∧ e.2.sign = sign := by
  induction order using reverseRecOn with
  | nil => cases h
  | append_singleton order e ih =>
    unfold tallySigns at h
    rw [foldl_concat, DposTally.add] at h
    split_ifs at h with hv
    · rcases mem_append.mp h with hold | hnew
      · obtain ⟨e', he', hsign⟩ := ih hold
        exact ⟨e', mem_append_left _ he', hsign⟩
      · exact ⟨e, mem_concat_self, hv, (mem_singleton.mp hnew).symm⟩
    · obtain ⟨e', he', hsign⟩ := ih h
      exact ⟨e', mem_append_left _ he', hsign⟩

end Tally

theorem two_mul_lt_targetSignCount {n : ℕ} (hn : 0 < n) : 2*n < 3*targetSignCount n := by
  unfold targetSignCount
  split_ifs with h
  · omega
  · have hceil := Nat.le_ceil ((n : ℚ)*dposTargetSignCountRatio)
    have hpos : (0 : ℚ) < n := by exact_mod_cast hn
    have hq : (2 : ℚ)*n < 3*⌈(n : ℚ)*dposTargetSignCountRatio⌉₊ := by
      unfold dposTargetSignCountRatio at hceil ⊢
      linarith
    exact_mod_cast hq

section Signs
variable {stocks : GoMap Address UInt16} {P : Signature → Address → Bool → Prop}
  {m : GoMap Address VerifiedSign}

def SignsBacked (stocks : GoMap Address UInt16) (P : Signature → Address → Bool → Prop)
    (m : GoMap Address VerifiedSign) : Prop :=
  ∀ a s, m.lookup a = some s → s.account = a ∧ stocks.lookup a = some s.stock ∧ P s.sign a s.validate

theorem SignsBacked.insert (hm : SignsBacked stocks P m) {s : VerifiedSign}
    (hstock : stocks.lookup s.account = some s.stock) (hs : P s.sign s.account s.validate) :
    SignsBacked stocks P (m.insert s.account s) := by
  intro a s' h
  rcases GoMap.lookup_insert_cases h with ⟨rfl, rfl⟩ | ⟨-, h⟩
  · exact ⟨rfl, hstock, hs⟩
  · exact hm a s' h

variable {account : Address} {sign : Signature}

theorem SignsBacked.addSign (hm : SignsBacked stocks P m) {validate : Bool}
    (hs : P sign account validate) :
    SignsBacked stocks P (addSign stocks m sign account validate) := by
  unfold DposEngine.addSign
  split
  · exact hm
  · rename_i stock hstock
    have hins := hm.insert (s := ⟨sign, account, validate, stock⟩) hstock hs
    unfold mergeSign
    split
    · split_ifs
      · exact hins
      · exact hm
    · exact hins

variable {Hash : Type} {D : DposEngine Hash} {signHash : Hash} {signs : List Signature}

theorem verifySigns_backed :
    SignsBacked stocks (fun sign a ok => sign ∈ signs ∧ D.recover signHash sign = some (a,ok))
      (D.verifySigns signHash signs stocks) := by
  apply foldlRecOn
  · intro a s h
    cases h
  · intro m hm sign hsign
    split
    · exact hm
    · rename_i account validate hrec
      exact hm.addSign ⟨hsign, hrec⟩

def agreeAccounts (D : DposEngine Hash) (signHash : Hash) (signs : List Signature)
    (stocks : GoMap Address UInt16) : Finset Address :=
  stocks.keys.filter fun a => some (a,true) ∈ signs.map (D.recover signHash)

def AgreesIn (m : GoMap Address VerifiedSign) (a : Address) : Prop :=
  ∃ s, m.lookup a = some s ∧ s.validate = true

theorem AgreesIn.addSign {a : Address} (h : AgreesIn m a) (sign : Signature) (account : Address)
    (validate : Bool) : AgreesIn (addSign stocks m sign account validate) a := by
  obtain ⟨s, hs, hv⟩ := h
  have hins (s' : VerifiedSign) (ha : a ≠ s'.account) : AgreesIn (m.insert s'.account s') a :=
    ⟨s, by rwa [lookup_insert_of_ne _ ha], hv⟩
  unfold DposEngine.addSign
  split
  · exact ⟨s, hs, hv⟩
  · unfold mergeSign
    by_cases ha : a = account
    · subst ha
      exact ⟨s, by simp [hs, hv], hv⟩
    · split
      · split_ifs
        · exact hins _ ha
        · exact ⟨s, hs, hv⟩
      · exact hins _ ha

theorem agreesIn_addSign (h : account ∈ stocks) :
    AgreesIn (addSign stocks m sign account true) account := by
  obtain ⟨stock, hstock⟩ := mem_iff.mp h
  simp only [DposEngine.addSign, hstock, mergeSign]
  split
  · rename_i e he
    split_ifs with hv
    · exact ⟨_, lookup_insert _, rfl⟩
    · exact ⟨e, he, by simpa using hv⟩
  · exact ⟨_, lookup_insert _, rfl⟩

theorem mem_agreeAccounts_iff {a : Address} :
    a ∈ D.agreeAccounts signHash signs stocks ↔ AgreesIn (D.verifySigns signHash signs stocks) a := by
  constructor
  · intro ha
    obtain ⟨hk, hsigned⟩ := Finset.mem_filter.mp ha
    obtain ⟨sign, hmem, hrec⟩ := mem_map.mp hsigned
    obtain ⟨before, after, rfl⟩ := append_of_mem hmem
    rw [verifySigns, foldl_append, foldl_cons, hrec]
    apply foldlRecOn (motive := fun m => AgreesIn m a)
    · exact agreesIn_addSign (mem_keys.mp hk)
    · intro m hm sign' _
      split
      · exact hm
      · exact hm.addSign _ _ _
  · rintro ⟨s, hs, hv⟩
    obtain ⟨-, hstock, hmem, hrec⟩ := verifySigns_backed a s hs
    rw [hv] at hrec
    refine Finset.mem_filter.mpr ⟨?_, mem_map.mpr ⟨s.sign, hmem, hrec⟩⟩
    exact mem_keys.mpr (mem_of_lookup_eq_some hstock)

theorem agreeAccounts_subset_verifySigns :
    D.agreeAccounts signHash signs stocks ⊆ (D.verifySigns signHash signs stocks).keys := by
  intro a ha
  obtain ⟨s, hs, -⟩ := mem_agreeAccounts_iff.mp ha
  exact mem_keys.mpr (mem_of_lookup_eq_some hs)

theorem agreeAccounts_card_le_length :
    (D.agreeAccounts signHash signs stocks).card ≤ signs.length := by
  have hsub : D.agreeAccounts signHash signs stocks ⊆
      (signs.map fun sign => ((D.recover signHash sign).map Prod.fst).getD 0).toFinset := by
    intro a ha
    obtain ⟨sign, hmem, hrec⟩ := mem_map.mp (Finset.mem_filter.mp ha).2
    exact mem_toFinset.mpr (mem_map.mpr ⟨sign, hmem, by simp [hrec]⟩)
  calc
    _ ≤ _ := Finset.card_le_card hsub
    _ ≤ _ := toFinset_card_le _
    _ = _ := length_map _

/-- The stock of an account, zero without an entry. -/
def stockOf (stocks : GoMap Address UInt16) (a : Address) : ℕ :=
  ((stocks.lookup a).map UInt16.toNat).getD 0

theorem verifySigns_keys_subset (D : DposEngine Hash) (signHash : Hash) (signs : List Signature)
    (stocks : GoMap Address UInt16) :
    (D.verifySigns signHash signs stocks).keys ⊆ stocks.keys := by
  intro a ha
  obtain ⟨s, hs⟩ := mem_iff.mp (mem_keys.mp ha)
  exact mem_keys.mpr (mem_of_lookup_eq_some (verifySigns_backed a s hs).2.1)

section Count
variable (D signHash signs stocks) (O : DposOrders)

theorem tallySigns_agreeCount :
    (tallySigns (O.signs.order (D.verifySigns signHash signs stocks))).agreeCount =
      (D.agreeAccounts signHash signs stocks).card := by
  rw [tallySigns, (foldl_add_counts ..).1, Nat.zero_add, O.signs.countP_order _ VerifiedSign.validate]
  refine congrArg Finset.card (Finset.ext fun a => ?_)
  rw [Finset.mem_filter, mem_agreeAccounts_iff]
  exact ⟨fun h => h.2, fun h => ⟨agreeAccounts_subset_verifySigns (mem_agreeAccounts_iff.mpr h), h⟩⟩

theorem tallySigns_count_le :
    (tallySigns (O.signs.order (D.verifySigns signHash signs stocks))).agreeCount+
      (tallySigns (O.signs.order (D.verifySigns signHash signs stocks))).disagreeCount ≤
      stocks.len := by
  have hlen := (O.signs.isRange (D.verifySigns signHash signs stocks)).length_eq
  rw [length_eq_countP_add_countP (fun e : Address × VerifiedSign => e.2.validate)] at hlen
  have hcard := Finset.card_le_card (D.verifySigns_keys_subset signHash signs stocks)
  rw [tallySigns, (foldl_add_counts ..).1, (foldl_add_counts ..).2.1, Nat.zero_add]
  simp only [GoMap.len, Bool.not_eq_true, Bool.decide_eq_false] at hlen ⊢
  omega

theorem tallySigns_agreeStock :
    (tallySigns (O.signs.order (D.verifySigns signHash signs stocks))).agreeStock =
      ∑ a ∈ D.agreeAccounts signHash signs stocks, stockOf stocks a := by
  rw [tallySigns, (foldl_add_counts ..).2.2.1, Nat.zero_add,
    (O.signs.isRange _).sum_map fun s => if s.validate then s.stock.toNat else 0]
  symm
  apply Finset.sum_subset_zero_on_sdiff agreeAccounts_subset_verifySigns
  · intro a ha
    obtain ⟨hk, hn⟩ := Finset.mem_sdiff.mp ha
    obtain ⟨s, hs⟩ := mem_iff.mp (mem_keys.mp hk)
    have hv : s.validate = false := by
      by_contra hv
      exact hn (mem_agreeAccounts_iff.mpr ⟨s, hs, by simpa using hv⟩)
    simp [hs, hv]
  · intro a ha
    obtain ⟨s, hs, hv⟩ := mem_agreeAccounts_iff.mp ha
    simp [stockOf, hs, hv, (verifySigns_backed a s hs).2.1]

theorem tallySigns_stock_le :
    (tallySigns (O.signs.order (D.verifySigns signHash signs stocks))).agreeStock+
      (tallySigns (O.signs.order (D.verifySigns signHash signs stocks))).disagreeStock ≤
      ∑ a ∈ stocks.keys, stockOf stocks a := by
  rw [tallySigns, (foldl_add_counts ..).2.2.1, (foldl_add_counts ..).2.2.2, Nat.zero_add, Nat.zero_add,
    (O.signs.isRange _).sum_map fun s => if s.validate then s.stock.toNat else 0,
    (O.signs.isRange _).sum_map fun s => if s.validate then 0 else s.stock.toNat,
    ← Finset.sum_add_distrib]
  refine le_trans (le_of_eq (Finset.sum_congr rfl fun a ha => ?_))
    (Finset.sum_le_sum_of_subset (D.verifySigns_keys_subset signHash signs stocks))
  obtain ⟨s, hs⟩ := mem_iff.mp (mem_keys.mp ha)
  cases hv : s.validate <;> simp [stockOf, hs, hv, (verifySigns_backed a s hs).2.1]

theorem totalStock_eq :
    (O.stocks.order stocks).foldl (fun n e => n+e.2.toNat) 0 =
      ∑ a ∈ stocks.keys, stockOf stocks a := by
  have hsum := (O.stocks.isRange stocks).sum_map UInt16.toNat
  rw [sum_eq_foldl, foldl_map] at hsum
  exact hsum

end Count

theorem targetStock_le_agreeStock
    (hq : IsQuorum stocks.keys (targetSignCount stocks.len) (D.agreeAccounts signHash signs stocks)) :
    (if stocks.len ≤ dposFullSignThreshold then ∑ a ∈ stocks.keys, stockOf stocks a
      else ⌈((∑ a ∈ stocks.keys, stockOf stocks a : ℕ) : ℚ)*dposTargetStockRatio⌉₊) ≤
      ∑ a ∈ D.agreeAccounts signHash signs stocks, stockOf stocks a := by
  split_ifs with hfull
  · have hcard := hq.threshold_le
    rw [targetSignCount, if_pos hfull] at hcard
    rw [Finset.eq_of_subset_of_card_le hq.subset hcard]
  · simp [dposTargetStockRatio]

/-- The whole check is a quorum of agreeing accounts: the limits on disagreement
and the stock decide nothing that it leaves open, and no order matters. -/
theorem verifyHashWithStocks_isOk_iff {O : DposOrders} :
    (∃ right, D.verifyHashWithStocks signHash signs stocks O = .ok right) ↔
      3 ≤ stocks.len ∧
      IsQuorum stocks.keys (targetSignCount stocks.len) (D.agreeAccounts signHash signs stocks) := by
  have hagree := tallySigns_agreeCount stocks D signHash signs O
  simp only [verifyHashWithStocks, calculateDPOSTarget, bind_eq_ok_iff, throw_eq_error, error_bind,
    ite_error_eq_ok, pure_eq_ok, Except.ok.injEq, not_lt, verifyDPOS_eq_ok_iff]
  constructor
  · rintro ⟨right, target, ⟨hlen, rfl⟩, -, -, t, rfl, -, -, hcount, -⟩
    rw [hagree] at hcount
    exact ⟨hlen, Finset.filter_subset _ _, hcount⟩
  · rintro ⟨hlen, hq⟩
    have hcard := hq.threshold_le
    have hcount := tallySigns_count_le stocks D signHash signs O
    have hstock := tallySigns_stock_le stocks D signHash signs O
    have htarget := targetStock_le_agreeStock hq
    rw [← tallySigns_agreeStock stocks D signHash signs O] at htarget
    refine ⟨_, _, ⟨hlen, rfl⟩, ?_, ?_, _, rfl, ?_, ?_, ?_, ?_, rfl⟩
    · exact hcard.trans agreeAccounts_card_le_length
    · exact hcard.trans (Finset.card_le_card agreeAccounts_subset_verifySigns)
    · dsimp only
      omega
    · dsimp only
      rw [totalStock_eq]
      omega
    · rw [hagree]
      exact hcard
    · rw [totalStock_eq]
      exact htarget

/-- Quorum intersection: two accepted lists share more than a third of the
validators as agreeing signers. -/
theorem agreeAccounts_inter_card {signHash' : Hash} {signs' : List Signature} {O O' : DposOrders}
    {right right' : List Signature}
    (h : D.verifyHashWithStocks signHash signs stocks O = .ok right)
    (h' : D.verifyHashWithStocks signHash' signs' stocks O' = .ok right') :
    stocks.len < 3*(D.agreeAccounts signHash signs stocks ∩
      D.agreeAccounts signHash' signs' stocks).card := by
  obtain ⟨hlen, hq⟩ := verifyHashWithStocks_isOk_iff.mp ⟨_, h⟩
  obtain ⟨-, hq'⟩ := verifyHashWithStocks_isOk_iff.mp ⟨_, h'⟩
  have hinter := hq.card_inter hq'
  have htarget := two_mul_lt_targetSignCount (n := stocks.len) (by omega)
  change 2*targetSignCount stocks.len ≤ stocks.len+_ at hinter
  omega

section Exact
variable (D signHash)

def Accepts (signs : List Signature) (stocks : GoMap Address UInt16) (O : DposOrders) : Prop :=
  ∃ right, D.verifyHashWithStocks signHash signs stocks O = .ok right

theorem accepts_iff_card (hlen : 3 ≤ stocks.len) (O : DposOrders) :
    D.Accepts signHash signs stocks O ↔
      targetSignCount stocks.len ≤ (D.agreeAccounts signHash signs stocks).card := by
  unfold Accepts
  rw [verifyHashWithStocks_isOk_iff]
  constructor
  · intro h
    exact h.2.threshold_le
  · intro h
    exact ⟨hlen, Finset.filter_subset _ _, h⟩

theorem mem_agreeAccounts {a : Address} :
    a ∈ D.agreeAccounts signHash signs stocks ↔
      a ∈ stocks.keys ∧ ∃ sign ∈ signs, D.recover signHash sign = some (a,true) := by
  unfold agreeAccounts
  rw [Finset.mem_filter, mem_map]

theorem agreeAccounts_mono {signs' : List Signature} (h : signs ⊆ signs') :
    D.agreeAccounts signHash signs stocks ⊆ D.agreeAccounts signHash signs' stocks := by
  intro a ha
  rw [mem_agreeAccounts] at ha ⊢
  obtain ⟨hk, sign, hmem, hrec⟩ := ha
  exact ⟨hk, sign, h hmem, hrec⟩

theorem agreeAccounts_append_disagree {extra : List Signature}
    (h : ∀ sign ∈ extra, ∃ a, D.recover signHash sign = some (a,false)) :
    D.agreeAccounts signHash (signs ++ extra) stocks = D.agreeAccounts signHash signs stocks := by
  apply Finset.Subset.antisymm
  · intro a ha
    rw [mem_agreeAccounts] at ha ⊢
    obtain ⟨hk, sign, hmem, hrec⟩ := ha
    rcases mem_append.mp hmem with hmem | hmem
    · exact ⟨hk, sign, hmem, hrec⟩
    · obtain ⟨b, hb⟩ := h sign hmem
      rw [hb] at hrec
      cases hrec
  · exact agreeAccounts_mono D signHash (subset_append_left _ _)

/-- With at least three accounts in the stock map, the engine accepts exactly when enough accounts
have an agreeing signature; orders, repetitions and disagreement do not matter. -/
theorem verifyHashWithStocks_exact (signs : List Signature) (hlen : 3 ≤ stocks.len) (O : DposOrders) :
    (∃ target, calculateDPOSTarget stocks O = .ok target ∧
      target.targetCount = targetSignCount stocks.len ∧
      (D.Accepts signHash signs stocks O ↔
        target.targetCount ≤ (D.agreeAccounts signHash signs stocks).card)) ∧
    (∀ signs' O', signs.Perm signs' →
      (D.Accepts signHash signs stocks O ↔ D.Accepts signHash signs' stocks O')) ∧
    (∀ signs' O', (∀ sign, sign ∈ signs ↔ sign ∈ signs') →
      (D.Accepts signHash signs stocks O ↔ D.Accepts signHash signs' stocks O')) ∧
    (∀ extra O', (∀ sign ∈ extra, ∃ a ∈ D.agreeAccounts signHash signs stocks,
        D.recover signHash sign = some (a,false)) →
      (D.Accepts signHash signs stocks O ↔ D.Accepts signHash (signs ++ extra) stocks O')) ∧
    ∀ signs' O', signs ⊆ signs' →
      D.Accepts signHash signs stocks O → D.Accepts signHash signs' stocks O' := by
  have hset (signs' : List Signature) (O' : DposOrders) (h : ∀ sign, sign ∈ signs ↔ sign ∈ signs') :
      D.Accepts signHash signs stocks O ↔ D.Accepts signHash signs' stocks O' := by
    have hagree : D.agreeAccounts signHash signs stocks = D.agreeAccounts signHash signs' stocks :=
      Finset.Subset.antisymm (agreeAccounts_mono D signHash (fun sign hs => (h sign).mp hs))
        (agreeAccounts_mono D signHash (fun sign hs => (h sign).mpr hs))
    rw [accepts_iff_card D signHash hlen, accepts_iff_card D signHash hlen, hagree]
  refine ⟨?_, ?_, hset, ?_, ?_⟩
  · have htarget : ∃ target, calculateDPOSTarget stocks O = .ok target ∧
        target.targetCount = targetSignCount stocks.len := by
      have hmin : ¬ stocks.len < dposMinStockCount := Nat.not_lt.mpr hlen
      unfold calculateDPOSTarget
      rw [if_neg hmin]
      exact ⟨_, rfl, rfl⟩
    obtain ⟨target, htarget, hcount⟩ := htarget
    refine ⟨target, htarget, hcount, ?_⟩
    rw [hcount]
    exact accepts_iff_card D signHash hlen O
  · intro signs' O' hperm
    exact hset signs' O' (fun _ => hperm.mem_iff)
  · intro extra O' hextra
    have hdisagree : ∀ sign ∈ extra, ∃ a, D.recover signHash sign = some (a,false) := by
      intro sign hsign
      obtain ⟨a, -, ha⟩ := hextra sign hsign
      exact ⟨a, ha⟩
    rw [accepts_iff_card D signHash hlen, accepts_iff_card D signHash hlen,
      agreeAccounts_append_disagree D signHash hdisagree]
  · intro signs' O' hsub h
    rw [accepts_iff_card D signHash hlen] at h ⊢
    exact h.trans (Finset.card_le_card (agreeAccounts_mono D signHash hsub))

end Exact

end Signs

section Signed
variable {Hash : Type} (D : DposEngine Hash)

/-- Enough validators of a height, which has at least three, signed agreement with a hash. -/
def SignedByQuorum (reader : ValidatorReader) (number : ℕ) (signHash : Hash)
    (signs : List Signature) : Prop :=
  ∃ stocks, getValidatorStocks reader number = .ok stocks ∧ 3 ≤ stocks.len ∧
    IsQuorum stocks.keys (targetSignCount stocks.len) (D.agreeAccounts signHash signs stocks)

variable {D}

variable {reader : ValidatorReader} {signHash : Hash} {signs : List Signature} {O : DposOrders}

variable {number : ℕ}

theorem verifyHashWithNumber_isOk_iff :
    (∃ right, D.verifyHashWithNumber reader signHash signs number O = .ok right) ↔
      D.SignedByQuorum reader number signHash signs := by
  unfold verifyHashWithNumber SignedByQuorum
  simp only [bind_eq_ok_iff]
  rw [exists_comm]
  apply exists_congr
  intro stocks
  rw [exists_and_left, D.verifyHashWithStocks_isOk_iff]

theorem recover_of_verifyHashWithNumber {right : List Signature}
    (h : D.verifyHashWithNumber reader signHash signs number O = .ok right) {sign : Signature}
    (hsign : sign ∈ right) : ∃ account, D.recover signHash sign = some (account,true) := by
  obtain ⟨stocks, -, h⟩ := bind_eq_ok_iff.mp h
  simp only [verifyHashWithStocks, bind_eq_ok_iff, throw_eq_error, error_bind, ite_error_eq_ok,
    verifyDPOS_eq_ok_iff] at h
  obtain ⟨target, -, -, -, t, rfl, -, -, -, -, rfl⟩ := h
  obtain ⟨⟨account,s⟩, he, hv, rfl⟩ := mem_tallySigns_rightSigns hsign
  have hlookup := ((O.signs.isRange _).mem_iff account s).mp he
  obtain ⟨-, -, -, hrec⟩ := verifySigns_backed account s hlookup
  rw [hv] at hrec
  exact ⟨account, hrec⟩

theorem signedByQuorum_iff_card :
    D.SignedByQuorum reader number signHash signs ↔
      ∃ stocks, getValidatorStocks reader number = .ok stocks ∧ 3 ≤ stocks.len ∧
        targetSignCount stocks.len ≤ (D.agreeAccounts signHash signs stocks).card := by
  apply exists_congr
  intro stocks
  constructor
  · rintro ⟨hstocks, hlen, hquorum⟩
    exact ⟨hstocks, hlen, hquorum.threshold_le⟩
  · rintro ⟨hstocks, hlen, hcard⟩
    exact ⟨hstocks, hlen, Finset.filter_subset _ _, hcard⟩

theorem parseVerifiedSigns_eq {signs : List VerifiedSign}
    (hrec : ∀ s ∈ signs, D.recover signHash s.sign = some (s.account,s.validate))
    (stocks : GoMap Address UInt16) :
    parseVerifiedSigns signs stocks = D.verifySigns signHash (signs.map VerifiedSign.sign) stocks := by
  unfold parseVerifiedSigns verifySigns
  rw [foldl_map]
  apply foldl_ext
  intro m s hs
  rw [hrec s hs]

theorem verifyHashWithVerifiedSignsAndNumber_eq {signs : List VerifiedSign}
    (hrec : ∀ s ∈ signs, D.recover signHash s.sign = some (s.account,s.validate))
    (reader : ValidatorReader) (number : ℕ) (O : DposOrders) :
    verifyHashWithVerifiedSignsAndNumber reader signs number O =
      D.verifyHashWithNumber reader signHash (signs.map VerifiedSign.sign) number O := by
  unfold verifyHashWithVerifiedSignsAndNumber verifyHashWithNumber verifyHashWithStocks
  simp only [parseVerifiedSigns_eq hrec, length_map]

theorem verifyBlock_eq_ok_iff {header : Header Hash}
    (hb : isBroadcastNumber header.number = false) :
    D.verifyBlock reader header O = .ok () ↔
      D.SignedByQuorum reader header.number (D.hashNoSignsAndNonce header) header.signatures := by
  unfold verifyBlock SignedByQuorum
  rw [if_neg (by simp [hb]), bind_eq_ok_iff]
  apply exists_congr
  intro stocks
  apply and_congr_right
  intro _
  rw [bind_eq_ok_iff, ← D.verifyHashWithStocks_isOk_iff (O := O)]
  simp

end Signed

def sampleEngine : DposEngine ℕ where
  headerHash := fun h => h.number
  recover := fun _ sign => some (sign.setWidth 160, true)
  broadCastNodes := [100]

def sampleStocks : GoMap Address UInt16 :=
  (range 8).foldl (fun m i => m.insert (BitVec.ofNat 160 i) 1) ∅

theorem sampleEngine_accepts (signHash : ℕ) (signs : List Signature)
    (h : 6 ≤ (sampleEngine.agreeAccounts signHash signs sampleStocks).card) :
    ∃ right, sampleEngine.verifyHashWithStocks signHash signs sampleStocks default = .ok right := by
  have hlen : sampleStocks.len = 8 := by decide +kernel
  have htarget : targetSignCount 8 = 6 := by
    norm_num [targetSignCount, dposFullSignThreshold, dposTargetSignCountRatio, Nat.ceil_eq_iff]
  rw [verifyHashWithStocks_isOk_iff, hlen, htarget]
  exact ⟨by norm_num, Finset.filter_subset _ _, h⟩

/-- Six of eight validators sign each of two hashes. -/
theorem agreeAccounts_inter_card_six_of_eight :
    sampleStocks.len < 3*(sampleEngine.agreeAccounts 1 [0,1,2,3,4,5] sampleStocks ∩
      sampleEngine.agreeAccounts 2 [2,3,4,5,6,7] sampleStocks).card := by
  obtain ⟨right, h⟩ := sampleEngine_accepts 1 [0,1,2,3,4,5] (by decide +kernel)
  obtain ⟨right', h'⟩ := sampleEngine_accepts 2 [2,3,4,5,6,7] (by decide +kernel)
  exact agreeAccounts_inter_card h h'

/-- Six of eight validators are enough, and a seventh signature does no harm. -/
theorem verifyHashWithStocks_exact_six_of_eight :
    3 ≤ sampleStocks.len ∧ sampleEngine.Accepts 1 ([0,1,2,3,4,5] ++ [6]) sampleStocks default := by
  have hlen : 3 ≤ sampleStocks.len := by decide +kernel
  obtain ⟨-, -, -, -, hmore⟩ := sampleEngine.verifyHashWithStocks_exact 1 [0,1,2,3,4,5] hlen default
  have hsix := sampleEngine_accepts 1 [0,1,2,3,4,5] (by decide +kernel)
  exact ⟨hlen, hmore _ default (subset_append_left _ _) hsix⟩

end DposEngine

end MatrixNode
