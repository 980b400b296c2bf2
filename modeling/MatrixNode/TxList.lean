import MatrixNode.TxPool

/-! `core/tx_list.go`: the transactions of one account in the order of their nonces, with the highest
cost and the highest gas limit among them. -/
namespace MatrixNode
open GoLib List

def putByNonce (tx : Transaction) : List Transaction → List Transaction
  | [] => [tx]
  | t :: rest =>
    if tx.accountNonce < t.accountNonce then tx :: t :: rest
    else if tx.accountNonce = t.accountNonce then tx :: rest
    else t :: putByNonce tx rest

section Put
variable {tx t : Transaction} {txs : List Transaction}

theorem mem_putByNonce (h : t ∈ putByNonce tx txs) : t = tx ∨ t ∈ txs := by
  induction txs with
  | nil => exact .inl (mem_singleton.mp h)
  | cons u rest ih =>
    unfold putByNonce at h
    split_ifs at h with hlt heq
    · exact mem_cons.mp h
    · rcases mem_cons.mp h with h | h
      · exact .inl h
      · exact .inr (mem_cons_of_mem _ h)
    · rcases mem_cons.mp h with rfl | h
      · exact .inr (mem_cons_self ..)
      · exact (ih h).imp_right (mem_cons_of_mem _)

theorem pairwise_putByNonce (h : txs.Pairwise (fun a b => a.accountNonce < b.accountNonce)) :
    (putByNonce tx txs).Pairwise (fun a b => a.accountNonce < b.accountNonce) := by
  induction txs with
  | nil => exact pairwise_singleton ..
  | cons u rest ih =>
    obtain ⟨hu, hrest⟩ := pairwise_cons.mp h
    unfold putByNonce
    split_ifs with hlt heq
    · refine pairwise_cons.mpr ⟨?_, h⟩
      intro t ht
      rcases mem_cons.mp ht with rfl | ht
      · exact hlt
      · exact UInt64.lt_trans hlt (hu t ht)
    · refine pairwise_cons.mpr ⟨?_, hrest⟩
      intro t ht
      rw [heq]
      exact hu t ht
    · refine pairwise_cons.mpr ⟨?_, ih hrest⟩
      intro t ht
      rcases mem_putByNonce ht with rfl | ht
      · exact UInt64.lt_of_le_of_ne (UInt64.not_lt.mp hlt) (Ne.symm heq)
      · exact hu t ht

end Put

/-- `txList`. Its caps are at least as high as what each transaction costs, the extra recipients
apart, and as its gas limit. -/
structure TxList where
  strict : Bool
  txs : List Transaction
  costcap : ℕ
  gascap : UInt64
  sorted : txs.Pairwise (fun a b => a.accountNonce < b.accountNonce)
  capped : ∀ tx ∈ txs, tx.cost ≤ costcap ∧ tx.gasLimit ≤ gascap

def newTxList (strict : Bool) : TxList where
  strict := strict
  txs := []
  costcap := 0
  gascap := 0
  sorted := .nil
  capped := fun _ h => absurd h not_mem_nil

namespace TxList
variable (l : TxList)

def len : ℕ := l.txs.length

def empty : Bool := l.txs.isEmpty

def get (nonce : UInt64) : Option Transaction := l.txs.find? (fun tx => tx.accountNonce = nonce)

def overlaps (tx : Transaction) : Bool := (l.get tx.accountNonce).isSome

/-- The list without the transactions that are filtered out. The caps stay. -/
def keep (p : Transaction → Bool) : TxList where
  strict := l.strict
  txs := l.txs.filter p
  costcap := l.costcap
  gascap := l.gascap
  sorted := l.sorted.filter p
  capped := fun tx h => l.capped tx (mem_of_mem_filter h)

def put (tx : Transaction) : TxList where
  strict := l.strict
  txs := putByNonce tx l.txs
  costcap := if l.costcap < tx.cost then tx.cost else l.costcap
  gascap := if l.gascap < tx.gasLimit then tx.gasLimit else l.gascap
  sorted := pairwise_putByNonce l.sorted
  capped := by
    intro t ht
    have hown : tx.cost ≤ (if l.costcap < tx.cost then tx.cost else l.costcap) ∧
        tx.gasLimit ≤ (if l.gascap < tx.gasLimit then tx.gasLimit else l.gascap) := by
      constructor
      · split_ifs <;> omega
      · split_ifs with h
        · exact UInt64.le_refl _
        · exact UInt64.not_lt.mp h
    have hup : l.costcap ≤ (if l.costcap < tx.cost then tx.cost else l.costcap) ∧
        l.gascap ≤ (if l.gascap < tx.gasLimit then tx.gasLimit else l.gascap) := by
      constructor
      · split_ifs <;> omega
      · split_ifs with h
        · exact UInt64.le_of_lt h
        · exact UInt64.le_refl _
    rcases mem_putByNonce ht with rfl | ht
    · exact hown
    · obtain ⟨hcost, hgas⟩ := l.capped t ht
      exact ⟨hcost.trans hup.1, UInt64.le_trans hgas hup.2⟩

/-- An older transaction with the same nonce is better, unless the price is bumped. -/
def outbids (old tx : Transaction) (priceBump : ℕ) : Bool :=
  tx.price ≤ old.price || tx.price < old.price*(100+priceBump)/100

def add (tx : Transaction) (priceBump : ℕ) : TxList × Option (Option Transaction) :=
  match l.get tx.accountNonce with
  | some old => if outbids old tx priceBump then (l, none) else (l.put tx, some (some old))
  | none => (l.put tx, some none)

def forward (threshold : UInt64) : TxList × List Transaction :=
  (l.keep (fun tx => !(tx.accountNonce < threshold)),
    l.txs.filter (fun tx => tx.accountNonce < threshold))

def exceeds (costLimit : ℕ) (gasLimit : UInt64) (tx : Transaction) : Bool :=
  costLimit < tx.cost || gasLimit < tx.gasLimit

def lower (costLimit : ℕ) (gasLimit : UInt64) : TxList where
  strict := l.strict
  txs := l.txs.filter (fun tx => !exceeds costLimit gasLimit tx)
  costcap := costLimit
  gascap := gasLimit
  sorted := l.sorted.filter _
  capped := by
    intro tx h
    have hkept := (mem_filter.mp h).2
    simpa [exceeds] using hkept

def lowestNonce (txs : List Transaction) : UInt64 :=
  txs.foldl (fun lowest tx => if tx.accountNonce < lowest then tx.accountNonce else lowest)
    0xffffffffffffffff

/-- `Filter`: the list, the transactions above the thresholds, and in a strict list those behind
them. -/
def filter (costLimit : ℕ) (gasLimit : UInt64) : TxList × List Transaction × List Transaction :=
  if l.costcap ≤ costLimit ∧ l.gascap ≤ gasLimit then (l, [], [])
  else
    let removed := l.txs.filter (exceeds costLimit gasLimit)
    let lowered := l.lower costLimit gasLimit
    if l.strict = true ∧ removed ≠ [] then
      (lowered.keep (fun tx => !(lowestNonce removed < tx.accountNonce)), removed,
        lowered.txs.filter (fun tx => lowestNonce removed < tx.accountNonce))
    else (lowered, removed, [])

def cap (threshold : ℕ) : TxList × List Transaction :=
  ({ l with
      txs := l.txs.take threshold
      sorted := l.sorted.sublist (take_sublist ..)
      capped := fun tx h => l.capped tx (mem_of_mem_take h) },
    (l.txs.drop threshold).reverse)

/-- `Remove`, if the nonce is there: the list, and in a strict list the transactions behind it. -/
def remove (tx : Transaction) : Option (TxList × List Transaction) :=
  match l.get tx.accountNonce with
  | none => none
  | some _ =>
    let rest := l.keep (fun t => t.accountNonce ≠ tx.accountNonce)
    if l.strict then
      some (rest.keep (fun t => !(tx.accountNonce < t.accountNonce)),
        rest.txs.filter (fun t => tx.accountNonce < t.accountNonce))
    else some (rest, [])

/-- `Ready`: all transactions, whatever the nonces are. Both branches of its loop take the lowest. -/
def ready : TxList × List Transaction := (l.keep (fun _ => false), l.txs)

section Members
variable {l} {tx : Transaction} {Q : Transaction → Prop}

theorem forall_add (h : ∀ t ∈ l.txs, Q t) (hq : Q tx) (priceBump : ℕ) :
    ∀ t ∈ (l.add tx priceBump).1.txs, Q t := by
  have hput : ∀ t ∈ (l.put tx).txs, Q t := by
    intro t ht
    rcases mem_putByNonce ht with rfl | ht
    · exact hq
    · exact h t ht
  unfold add
  split
  · split_ifs
    · exact h
    · exact hput
  · exact hput

theorem forall_keep {p : Transaction → Bool} (h : ∀ t ∈ l.txs, Q t) : ∀ t ∈ (l.keep p).txs, Q t :=
  fun t ht => h t (mem_of_mem_filter ht)

/-- The short cut is right for what the caps are about. -/
theorem forall_filter (costLimit : ℕ) (gasLimit : UInt64) (h : ∀ t ∈ l.txs, Q t) :
    (∀ t ∈ (l.filter costLimit gasLimit).1.txs,
      Q t ∧ t.cost ≤ costLimit ∧ t.gasLimit ≤ gasLimit) ∧
    ∀ t ∈ (l.filter costLimit gasLimit).2.2, Q t ∧ t.cost ≤ costLimit ∧ t.gasLimit ≤ gasLimit := by
  have hlowered : ∀ t ∈ (l.lower costLimit gasLimit).txs,
      Q t ∧ t.cost ≤ costLimit ∧ t.gasLimit ≤ gasLimit :=
    fun t ht => ⟨h t (mem_of_mem_filter ht), (l.lower costLimit gasLimit).capped t ht⟩
  unfold filter
  by_cases hcaps : l.costcap ≤ costLimit ∧ l.gascap ≤ gasLimit
  · rw [if_pos hcaps]
    refine ⟨?_, fun t ht => absurd ht not_mem_nil⟩
    intro t ht
    obtain ⟨hcost, hgas⟩ := l.capped t ht
    exact ⟨h t ht, hcost.trans hcaps.1, UInt64.le_trans hgas hcaps.2⟩
  · dsimp only
    split_ifs
    · exact ⟨forall_keep hlowered, fun t ht => hlowered t (mem_of_mem_filter ht)⟩
    · exact ⟨hlowered, fun t ht => absurd ht not_mem_nil⟩

theorem forall_remove {rest : TxList} {invalids : List Transaction}
    (h : ∀ t ∈ l.txs, Q t) (hremove : l.remove tx = some (rest, invalids)) :
    (∀ t ∈ rest.txs, Q t) ∧ ∀ t ∈ invalids, Q t := by
  unfold remove at hremove
  split at hremove
  · cases hremove
  · split_ifs at hremove
    · cases hremove
      exact ⟨forall_keep (forall_keep h), fun t ht => forall_keep h t (mem_of_mem_filter ht)⟩
    · cases hremove
      exact ⟨forall_keep h, fun t ht => absurd ht not_mem_nil⟩

theorem ready_txs : l.ready.1.txs = [] :=
  filter_false l.txs

end Members

end TxList

end MatrixNode
