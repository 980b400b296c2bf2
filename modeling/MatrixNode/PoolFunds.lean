import MatrixNode.PoolLists
import MatrixNode.SenderNonces

/-! What the transactions in the lists of the pool can cost. -/
namespace MatrixNode
open GoLib PoolLists TxList List

def txsAt (m : GoMap Address TxList) (addr : Address) : List Transaction :=
  ((m.lookup addr).map txs).getD []

section TxsAt
variable {m : GoMap Address TxList} {addr a : Address} {l : TxList}

theorem txsAt_of_lookup (h : m.lookup addr = some l) : txsAt m addr = l.txs := by
  unfold txsAt
  rw [h]
  rfl

theorem txsAt_insert : txsAt (m.insert addr l) a = if a = addr then l.txs else txsAt m a := by
  split_ifs with ha
  · subst ha
    exact txsAt_of_lookup (Finmap.lookup_insert _)
  · unfold txsAt
    rw [Finmap.lookup_insert_of_ne _ ha]

theorem txsAt_storeList : txsAt (storeList m addr l) a = if a = addr then l.txs else txsAt m a := by
  unfold storeList
  split_ifs with hempty ha
  · subst ha
    have hnil : l.txs = [] := isEmpty_iff.mp hempty
    unfold txsAt
    rw [Finmap.lookup_erase, hnil]
    rfl
  · unfold txsAt
    rw [Finmap.lookup_erase_ne ha]
  all_goals
    rw [txsAt_insert]
    simp [*]

theorem txs_getD (strict : Bool) :
    ((m.lookup addr).getD (newTxList strict)).txs = txsAt m addr := by
  unfold txsAt
  rcases m.lookup addr with _ | l
  · rfl
  · rfl

end TxsAt

def ListsMeet {Hash : Type} (C : TxCrypto Hash) (pool : TxPool) (Q : Transaction → Prop)
    (m : GoMap Address TxList) : Prop :=
  ∀ addr, ∀ tx ∈ txsAt m addr, pool.account C tx = addr ∧ Q tx

section ListsMeet
variable {Hash : Type} {C : TxCrypto Hash} {pool : TxPool} {Q : Transaction → Prop}
  {m : GoMap Address TxList} {addr : Address} {l : TxList}

variable (h : ListsMeet C pool Q m)
include h

theorem ListsMeet.of_lookup (hl : m.lookup addr = some l) :
    ∀ tx ∈ l.txs, pool.account C tx = addr ∧ Q tx := by
  rw [← txsAt_of_lookup hl]
  exact h addr

theorem ListsMeet.store (hl : ∀ tx ∈ l.txs, pool.account C tx = addr ∧ Q tx) :
    ListsMeet C pool Q (storeList m addr l) := by
  intro a tx htx
  rw [txsAt_storeList] at htx
  split_ifs at htx with ha
  · rw [ha]
    exact hl tx htx
  · exact h a tx htx

theorem ListsMeet.insert (hl : ∀ tx ∈ l.txs, pool.account C tx = addr ∧ Q tx) :
    ListsMeet C pool Q (m.insert addr l) := by
  intro a
  rw [txsAt_insert, ← txsAt_storeList]
  exact h.store hl a

theorem ListsMeet.mono {R : Transaction → Prop} (hR : ∀ tx, Q tx → R tx) : ListsMeet C pool R m :=
  fun addr tx htx => ⟨(h addr tx htx).1, hR tx (h addr tx htx).2⟩

theorem ListsMeet.add {tx : Transaction} (hsender : pool.account C tx = addr) (hQ : Q tx)
    (strict : Bool) (priceBump : ℕ) :
    ListsMeet C pool Q (m.insert addr
      (((m.lookup addr).getD (newTxList strict)).add tx priceBump).1) := by
  refine h.insert (forall_add ?_ ⟨hsender, hQ⟩ priceBump)
  rw [txs_getD]
  exact h addr

end ListsMeet

namespace PoolLists
variable {Hash : Type} {C : TxCrypto Hash} {pool : TxPool} {Q R : Transaction → Prop}
  {p : PoolLists} {tx : Transaction} {addr : Address}

structure Meets (C : TxCrypto Hash) (pool : TxPool) (Q R : Transaction → Prop) (p : PoolLists) :
    Prop where
  head : p.toTxPool = pool
  pending : ListsMeet C pool Q p.pending
  queue : ListsMeet C pool R p.queue

section Calls
variable (h : Meets C pool Q R p)
include h

theorem Meets.sender_eq (tx : Transaction) : p.sender C tx = pool.account C tx := by
  rw [sender, h.head]

theorem Meets.forget (txs : List Transaction) : Meets C pool Q R (p.forget txs) :=
  ⟨h.head, h.pending, h.queue⟩

theorem Meets.enqueueTx (hR : R tx) : Meets C pool Q R (p.enqueueTx C tx).1 := by
  have hqueue := h.queue.add (h.sender_eq tx).symm hR false p.config.priceBump
  unfold PoolLists.enqueueTx
  dsimp only
  split
  next l hadd =>
    rw [hadd] at hqueue
    exact ⟨h.head, h.pending, hqueue⟩
  next l old hadd =>
    rw [hadd] at hqueue
    exact ⟨h.head, h.pending, hqueue⟩

theorem Meets.promoteTx (hsender : pool.account C tx = addr) (hQ : Q tx) :
    Meets C pool Q R (p.promoteTx addr tx) := by
  have hpending := h.pending.add hsender hQ true p.config.priceBump
  unfold PoolLists.promoteTx
  split
  next l hadd =>
    rw [hadd] at hpending
    exact ⟨h.head, hpending, h.queue⟩
  next l old hadd =>
    rw [hadd] at hpending
    exact ⟨h.head, hpending, h.queue⟩

theorem Meets.foldl {α : Type} {f : PoolLists → α → PoolLists} {items : List α}
    (hf : ∀ p, Meets C pool Q R p → ∀ a ∈ items, Meets C pool Q R (f p a)) :
    Meets C pool Q R (items.foldl f p) := by
  induction items generalizing p with
  | nil => exact h
  | cons a rest ih =>
    exact ih (hf p h a (mem_cons_self ..)) (fun p hp b hb => hf p hp b (mem_cons_of_mem _ hb))

theorem Meets.enqueueAll {txs : List Transaction} (hR : ∀ t ∈ txs, R t) :
    Meets C pool Q R (p.enqueueAll C txs) :=
  h.foldl (fun _ hp t ht => hp.enqueueTx (hR t ht))

theorem Meets.removeQueued : Meets C pool Q R (p.removeQueued addr tx) := by
  unfold PoolLists.removeQueued
  split
  · exact h
  next future hfuture =>
    have hall := h.queue.of_lookup hfuture
    split
    · exact ⟨h.head, h.pending, h.queue.store hall⟩
    next l _ hremove =>
      exact ⟨h.head, h.pending, h.queue.store (forall_remove hall hremove).1⟩

theorem Meets.removeTx (hQR : ∀ t, Q t → R t) :
    Meets C pool Q R (p.removeTx C tx) := by
  unfold PoolLists.removeTx
  by_cases hunknown : tx ∉ p.all
  · rw [if_pos hunknown]
    exact h
  · have hforget := h.forget [tx]
    rw [if_neg hunknown]
    dsimp only
    split
    next l invalids hremove =>
      obtain ⟨pendingList, hlist, hremove⟩ := Option.bind_eq_some_iff.mp hremove
      have hall := forall_remove (hforget.pending.of_lookup hlist) hremove
      have hstored : Meets C pool Q R { p.forget [tx] with
          pending := storeList (p.forget [tx]).pending (p.sender C tx) l } :=
        ⟨h.head, hforget.pending.store hall.1, h.queue⟩
      exact hstored.enqueueAll (fun t ht => hQR t (hall.2 t ht).2)
    · exact hforget.removeQueued

theorem Meets.removeAll (hQR : ∀ t, Q t → R t) (txs : List Transaction) :
    Meets C pool Q R (p.removeAll C txs) :=
  h.foldl (fun _ hp _ _ => hp.removeTx hQR)

theorem Meets.capPending : Meets C pool Q R (p.capPending addr) := by
  unfold PoolLists.capPending
  split
  · exact h
  next l hl =>
    exact ⟨h.head, h.pending.insert fun t ht => h.pending.of_lookup hl t (mem_of_mem_take ht), h.queue⟩

theorem Meets.capEach (offenders : List Address) : Meets C pool Q R (p.capEach offenders) :=
  h.foldl (fun _ hp _ _ => hp.capPending)

theorem Meets.capWhile {offenders : List Address} {threshold fuel pending : ℕ} :
    Meets C pool Q R (capWhile offenders addr threshold fuel pending p).1 := by
  induction fuel generalizing pending p with
  | zero => exact h
  | succ fuel ih =>
    unfold capWhile
    split_ifs
    · exact ih (h.capEach offenders)
    · exact h

theorem Meets.equalize {spammers offenders : List Address} {pending : ℕ} :
    Meets C pool Q R (equalize offenders spammers pending p).1 := by
  induction spammers generalizing offenders pending p with
  | nil => exact h
  | cons offender rest ih =>
    unfold equalize
    split_ifs
    · dsimp only
      split
      · exact ih h
      · exact ih h.capWhile
    · exact h

theorem Meets.limitPending (spammers : List Address) :
    Meets C pool Q R (p.limitPending spammers) := by
  unfold PoolLists.limitPending
  dsimp only
  split_ifs
  · split
    · exact h.equalize
    · exact h.equalize.capWhile
  · exact h

theorem Meets.dropQueued {addrs : List Address} {drop : ℕ} (hQR : ∀ t, Q t → R t) :
    Meets C pool Q R (dropQueued C addrs drop p) := by
  induction addrs generalizing drop p with
  | nil => exact h
  | cons addr rest ih =>
    unfold dropQueued
    dsimp only
    split_ifs
    · exact h
    · exact ih (h.removeAll hQR _)
    · exact h.removeAll hQR _

theorem Meets.limitQueue (hQR : ∀ t, Q t → R t) (heartbeats : List Address) :
    Meets C pool Q R (p.limitQueue C heartbeats) := by
  unfold PoolLists.limitQueue
  split_ifs
  · exact h.dropQueued hQR
  · exact h

end Calls

end PoolLists

def Transaction.UnpaidExtras (tx : Transaction) : Prop := ∀ ex ∈ tx.extraTo, ex.amount = 0

instance (tx : Transaction) : Decidable tx.UnpaidExtras :=
  inferInstanceAs (Decidable (∀ ex ∈ tx.extraTo, ex.amount = 0))

theorem Transaction.UnpaidExtras.costAll_eq {tx : Transaction} (h : tx.UnpaidExtras) :
    tx.costAll = tx.cost := by
  have hsum : (tx.extraTo.map TxTo.amount).sum = 0 := by
    apply sum_eq_zero
    intro n hn
    obtain ⟨ex, hex, rfl⟩ := mem_map.mp hn
    exact h ex hex
  rw [costAll, hsum, Nat.add_zero]

namespace TxPool
variable {Hash : Type} (C : TxCrypto Hash) (pool : TxPool)

/-- The sender can pay for the transaction without its extra recipients, of which none is paid. -/
structure Payable (tx : Transaction) : Prop where
  unpaid : tx.UnpaidExtras
  cost : tx.cost ≤ pool.currentState.getBalance (pool.account C tx)
  gas : tx.gasLimit ≤ pool.currentMaxGas

def PayableFor (known : Address → Prop) (tx : Transaction) : Prop :=
  tx.UnpaidExtras ∧ (known (pool.account C tx) → pool.Payable C tx)

variable {C pool}

variable {tx : Transaction}

theorem PayableFor.payable {known : Address → Prop} (h : pool.PayableFor C known tx)
    (hknown : known (pool.account C tx)) : pool.Payable C tx :=
  h.2 hknown

theorem Payable.payableFor (h : pool.Payable C tx) (known : Address → Prop) :
    pool.PayableFor C known tx := ⟨h.unpaid, fun _ => h⟩

theorem payable_of_validateTx (hunpaid : tx.UnpaidExtras) (h : pool.validateTx C tx = .ok ()) :
    pool.Payable C tx := by
  obtain ⟨account, hsender, -, hfunds, -⟩ := validateTx_ok h
  have haccount : pool.account C tx = account := by
    unfold TxPool.account
    rw [hsender]
    rfl
  refine ⟨hunpaid, ?_, ?_⟩
  · rw [haccount]
    unfold checkFunds at hfunds
    rw [throw_eq_error, ite_error_eq_ok, hunpaid.costAll_eq, ite_self, not_lt] at hfunds
    exact hfunds.1
  · obtain ⟨_, -, hrest⟩ := bind_eq_ok_iff.mp h
    rw [throw_eq_error, ite_error_eq_ok] at hrest
    exact UInt64.not_lt.mp hrest.1

end TxPool

namespace PoolLists
variable {Hash : Type} {C : TxCrypto Hash} {pool : TxPool} {p p' : PoolLists} {addr : Address}
  {known : Address → Prop}

/-- Every transaction of the pool can be paid for by its sender, extra recipients included, it fits
into a block, and the cap of its list is not below its cost. -/
def Affordable (C : TxCrypto Hash) (p : PoolLists) : Prop :=
  ∀ addr l, p.pending.lookup addr = some l ∨ p.queue.lookup addr = some l → ∀ tx ∈ l.txs,
    tx.costAll ≤ p.currentState.getBalance (p.sender C tx) ∧ tx.gasLimit ≤ p.currentMaxGas ∧
      tx.costAll ≤ l.costcap

abbrev AllPayable (C : TxCrypto Hash) (pool : TxPool) : PoolLists → Prop :=
  Meets C pool (pool.Payable C) (pool.Payable C)

theorem Meets.affordable (h : AllPayable C pool p) : p.Affordable C := by
  intro addr l hl tx htx
  have hpayable : pool.Payable C tx := by
    rcases hl with hl | hl
    · exact (h.pending.of_lookup hl tx htx).2
    · exact (h.queue.of_lookup hl tx htx).2
  rw [hpayable.unpaid.costAll_eq, h.sender_eq, h.head]
  exact ⟨hpayable.cost, hpayable.gas, (l.capped tx htx).1⟩

theorem payable_of_filter {l : TxList}
    (h : ∀ tx ∈ l.txs, pool.account C tx = addr ∧ tx.UnpaidExtras) :
    (∀ tx ∈ (l.filter (pool.currentState.getBalance addr) pool.currentMaxGas).1.txs,
      pool.account C tx = addr ∧ pool.Payable C tx) ∧
    ∀ tx ∈ (l.filter (pool.currentState.getBalance addr) pool.currentMaxGas).2.2,
      pool.account C tx = addr ∧ pool.Payable C tx := by
  have hpayable {tx : Transaction} (htx : (pool.account C tx = addr ∧ tx.UnpaidExtras) ∧
      tx.cost ≤ pool.currentState.getBalance addr ∧ tx.gasLimit ≤ pool.currentMaxGas) :
      pool.account C tx = addr ∧ pool.Payable C tx := by
    obtain ⟨⟨haccount, hunpaid⟩, hcost, hgas⟩ := htx
    exact ⟨haccount, hunpaid, by rwa [haccount], hgas⟩
  obtain ⟨hkept, hinvalid⟩ := forall_filter (pool.currentState.getBalance addr)
    pool.currentMaxGas h
  exact ⟨fun tx htx => hpayable (hkept tx htx), fun tx htx => hpayable (hinvalid tx htx)⟩

variable {m : GoMap Address TxList}

section
variable (h : ListsMeet C pool (pool.PayableFor C known) m)
include h

theorem payableFor_of_ne {a : Address} (ha : a ≠ addr) :
    ∀ tx ∈ txsAt m a,
      pool.account C tx = a ∧ pool.PayableFor C (fun a => known a ∨ a = addr) tx := by
  intro tx htx
  obtain ⟨haccount, hpayable⟩ := h a tx htx
  refine ⟨haccount, hpayable.1, ?_⟩
  rintro (hknown | heq)
  · exact hpayable.2 hknown
  · exact absurd (haccount.symm.trans heq) ha

theorem listsMeet_storeList {l : TxList}
    (hl : ∀ tx ∈ l.txs, pool.account C tx = addr ∧ pool.Payable C tx) :
    ListsMeet C pool (pool.PayableFor C (fun a => known a ∨ a = addr)) (storeList m addr l) := by
  intro a tx htx
  rw [txsAt_storeList] at htx
  split_ifs at htx with ha
  · rw [ha]
    exact ⟨(hl tx htx).1, (hl tx htx).2.payableFor _⟩
  · exact payableFor_of_ne h ha tx htx

theorem listsMeet_of_lookup_none (hnone : m.lookup addr = none) :
    ListsMeet C pool (pool.PayableFor C (fun a => known a ∨ a = addr)) m := by
  intro a tx htx
  by_cases ha : a = addr
  · rw [ha, txsAt, hnone] at htx
    cases htx
  · exact payableFor_of_ne h ha tx htx

theorem payable_of_lookup {l : TxList} (hl : m.lookup addr = some l) (nonce : UInt64) :
    (∀ tx ∈ ((l.forward nonce).1.filter (pool.currentState.getBalance addr)
        pool.currentMaxGas).1.txs, pool.account C tx = addr ∧ pool.Payable C tx) ∧
    ∀ tx ∈ ((l.forward nonce).1.filter (pool.currentState.getBalance addr)
        pool.currentMaxGas).2.2, pool.account C tx = addr ∧ pool.Payable C tx := by
  have hall : ∀ tx ∈ (l.forward nonce).1.txs, pool.account C tx = addr ∧ tx.UnpaidExtras :=
    forall_keep (fun tx htx => (h.of_lookup hl tx htx).imp_right And.left)
  exact payable_of_filter hall

end

theorem Meets.demoteAccount (h : Meets C pool (pool.PayableFor C known) (pool.Payable C) p)
    (addr : Address) :
    Meets C pool (pool.PayableFor C (fun a => known a ∨ a = addr)) (pool.Payable C)
      (p.demoteAccount C addr) := by
  obtain ⟨rfl, hpending, hqueue⟩ := h
  unfold demoteAccount
  split
  next hnone => exact ⟨rfl, listsMeet_of_lookup_none hpending hnone, hqueue⟩
  next l hl =>
    obtain ⟨hkept, hinvalid⟩ := payable_of_lookup hpending hl (p.currentState.getNonce addr)
    dsimp only
    generalize (l.forward (p.currentState.getNonce addr)).1.filter
      (p.currentState.getBalance addr) p.currentMaxGas = filtered at hkept hinvalid ⊢
    have hstored : Meets C p.toTxPool (p.toTxPool.PayableFor C (fun a => known a ∨ a = addr))
        (p.toTxPool.Payable C) { p with pending := storeList p.pending addr filtered.1 } :=
      ⟨rfl, listsMeet_storeList hpending hkept, hqueue⟩
    exact (hstored.forget _).enqueueAll (fun tx htx => (hinvalid tx htx).2)

theorem Meets.foldl_known {Q R : (Address → Prop) → Transaction → Prop}
    {f : PoolLists → Address → PoolLists}
    (hf : ∀ known p addr, Meets C pool (Q known) (R known) p →
      Meets C pool (Q (fun a => known a ∨ a = addr)) (R (fun a => known a ∨ a = addr)) (f p addr))
    (order : List Address) (h : Meets C pool (Q known) (R known) p) :
    Meets C pool (Q (fun a => known a ∨ a ∈ order)) (R (fun a => known a ∨ a ∈ order))
      (order.foldl f p) := by
  induction order generalizing known p with
  | nil => simpa using h
  | cons addr rest ih =>
    have hrest := ih (hf known p addr h)
    simpa only [mem_cons, or_assoc, foldl_cons] using hrest

variable {order : List Address}

theorem checkRange_eq_ok {keys : Finset Address} (h : checkRange keys order = .ok ()) :
    ∀ a, a ∈ order ↔ a ∈ keys := by
  unfold checkRange at h
  split_ifs at h with hrange
  intro a
  rw [← hrange.2, mem_toFinset]

theorem not_mem_txsAt (h : addr ∉ m.keys) (tx : Transaction) : tx ∉ txsAt m addr := by
  have hnone : m.lookup addr = none := by
    rwa [Finmap.lookup_eq_none]
  unfold txsAt
  rw [hnone]
  exact not_mem_nil

theorem listsMeet_of_keys (h : ListsMeet C pool Transaction.UnpaidExtras m) :
    ListsMeet C pool (pool.PayableFor C (fun a => a ∉ m.keys)) m := by
  intro addr tx htx
  obtain ⟨haccount, hunpaid⟩ := h addr tx htx
  refine ⟨haccount, hunpaid, ?_⟩
  intro hkeys
  rw [haccount] at hkeys
  exact absurd htx (not_mem_txsAt hkeys tx)

/-- The loop makes the transactions of all accounts that it visits payable. -/
theorem demoteUnexecutables_meets (h : Meets C pool Transaction.UnpaidExtras (pool.Payable C) p)
    (hdemote : p.demoteUnexecutables C order = .ok p') :
    AllPayable C pool p' := by
  obtain ⟨_, hrange, hfold⟩ := bind_eq_ok_iff.mp hdemote
  cases hfold
  have hstart : Meets C pool (pool.PayableFor C (fun a => a ∉ p.pending.keys)) (pool.Payable C) p :=
    ⟨h.head, listsMeet_of_keys h.pending, h.queue⟩
  have hend := Meets.foldl_known (Q := fun known => pool.PayableFor C known)
    (R := fun _ => pool.Payable C) (fun _ _ addr h => h.demoteAccount addr) order hstart
  refine ⟨hend.head, hend.pending.mono ?_, hend.queue⟩
  intro tx hpayable
  apply hpayable.payable
  rw [checkRange_eq_ok hrange]
  exact (em _).symm

/-- All that passed the filter becomes pending, and nothing is left of the list. -/
theorem Meets.promoteAccount (h : Meets C pool (pool.Payable C) (pool.PayableFor C known) p)
    (addr : Address) :
    Meets C pool (pool.Payable C) (pool.PayableFor C (fun a => known a ∨ a = addr))
      (p.promoteAccount addr) := by
  have hforget := fun txs => h.forget (C := C) txs
  obtain ⟨rfl, hpending, hqueue⟩ := h
  unfold promoteAccount
  split
  next hnone => exact ⟨rfl, hpending, listsMeet_of_lookup_none hqueue hnone⟩
  next l hl =>
    obtain ⟨hkept, -⟩ := payable_of_lookup hqueue hl (p.currentState.getNonce addr)
    dsimp only
    generalize (l.forward (p.currentState.getNonce addr)).1.filter
      (p.currentState.getBalance addr) p.currentMaxGas = filtered at hkept ⊢
    have hready : Meets C p.toTxPool (p.toTxPool.Payable C) (p.toTxPool.PayableFor C known)
        (filtered.1.ready.2.foldl (fun p tx => p.promoteTx addr tx)
          (p.forget ((l.forward (p.currentState.getNonce addr)).2 ++ filtered.2.1))) :=
      (hforget _).foldl (fun p' hp' tx htx => hp'.promoteTx (hkept tx htx).1 (hkept tx htx).2)
    generalize filtered.1.ready.2.foldl (fun p tx => p.promoteTx addr tx)
      (p.forget ((l.forward (p.currentState.getNonce addr)).2 ++ filtered.2.1)) = p₁ at hready ⊢
    apply Meets.forget
    refine ⟨hready.head, hready.pending, listsMeet_storeList hready.queue ?_⟩
    intro tx htx
    exfalso
    split_ifs at htx
    · rw [ready_txs] at htx
      cases htx
    · have hcap := mem_of_mem_take htx
      rw [ready_txs] at hcap
      cases hcap

theorem promoteExecutables_meets {accounts : Option (Finset Address)} {orders : LoopOrders}
    (h : Meets C pool (pool.Payable C) (pool.PayableFor C known) p)
    (hknown : ∀ a, known a ∨ a ∈ accounts.getD p.queue.keys)
    (hpromote : p.promoteExecutables C accounts orders = .ok p') :
    AllPayable C pool p' := by
  obtain ⟨_, hrange, hfold⟩ := bind_eq_ok_iff.mp hpromote
  cases hfold
  have hend := Meets.foldl_known (Q := fun _ => pool.Payable C)
    (R := fun known => pool.PayableFor C known) (fun _ _ addr h => h.promoteAccount addr)
    orders.accounts h
  have hpayable : AllPayable C pool
      (orders.accounts.foldl (fun p addr => p.promoteAccount addr) p) := by
    refine ⟨hend.head, hend.pending, hend.queue.mono ?_⟩
    intro tx htx
    apply htx.payable
    rw [checkRange_eq_ok hrange]
    exact hknown _
  exact (hpayable.limitPending _).limitQueue (fun _ ht => ht) _

section Add
variable {arrival : Arrival} {Q R : Transaction → Prop}

theorem Meets.queueTx (h : Meets C pool Q R p) (htx : R arrival.tx) :
    Meets C pool Q R (p.queueTx C arrival).1 := by
  have henqueued := h.enqueueTx htx
  unfold PoolLists.queueTx
  split
  next q hq =>
    rw [hq] at henqueued
    exact henqueued
  next q replaced hq =>
    rw [hq] at henqueued
    exact ⟨henqueued.head, henqueued.pending, henqueued.queue⟩

theorem Meets.insertTx (h : Meets C pool Q R p) (hQ : Q arrival.tx) (hR : R arrival.tx) :
    Meets C pool Q R (p.insertTx C arrival).1 := by
  unfold PoolLists.insertTx
  dsimp only
  split
  · exact h.queueTx hR
  next l hl =>
    split_ifs
    · split
      · exact h
      next l' old hadd =>
        have hall := forall_add (h.pending.of_lookup hl)
          ⟨(h.sender_eq arrival.tx).symm, hQ⟩ p.config.priceBump
        rw [hadd] at hall
        exact ⟨h.head, h.pending.insert hall, h.queue⟩
    · exact h.queueTx hR

theorem Meets.add (h : AllPayable C pool p) (hunpaid : arrival.tx.UnpaidExtras) :
    AllPayable C pool (p.add C arrival).1 := by
  unfold PoolLists.add
  split_ifs
  · exact h
  · exact h
  · split
    · exact h
    next hvalid =>
      rw [h.head] at hvalid
      have htx := TxPool.payable_of_validateTx hunpaid hvalid
      unfold makeRoom
      split
      · exact h
      next q hroom =>
        have hq : AllPayable C pool q := by
          split_ifs at hroom
          · cases hroom
            exact h.removeAll (fun _ ht => ht) _
          · cases hroom
            exact h
        exact hq.insertTx htx htx

theorem Meets.addEach {arrivals : List Arrival} (h : AllPayable C pool p)
    (hunpaid : ∀ arrival ∈ arrivals, arrival.tx.UnpaidExtras) :
    AllPayable C pool (p.addEach C arrivals).1 := by
  unfold PoolLists.addEach
  generalize (∅ : Finset Address) = dirty
  induction arrivals generalizing p dirty with
  | nil => exact h
  | cons arrival rest ih =>
    exact ih (h.add (hunpaid arrival (mem_cons_self ..)))
      (fun a ha => hunpaid a (mem_cons_of_mem _ ha)) _

end Add

end PoolLists

namespace PoolRun
variable {Hash : Type} (C : TxCrypto Hash)

def PayableIn (pool : TxPool) (m : GoMap Address TxList) : Prop :=
  ∀ addr ∈ m.keys, ∀ tx ∈ txsAt m addr,
    tx.cost ≤ pool.currentState.getBalance (pool.account C tx) ∧ tx.gasLimit ≤ pool.currentMaxGas

instance (pool : TxPool) (m : GoMap Address TxList) : Decidable (PayableIn C pool m) :=
  Finset.decidableDforallFinset

/-- No transaction pays extra recipients, and the state of a new head pays for the queued ones and
for those that come back. -/
def Plain (r : PoolRun) : PoolInput → Prop
  | .addTxs arrivals _ => ∀ arrival ∈ arrivals, arrival.tx.UnpaidExtras
  | .reset state maxGas reinject _ _ _ =>
    (∀ arrival ∈ reinject, arrival.tx.UnpaidExtras) ∧
    PayableIn C (r.pool.setHead state maxGas).toTxPool r.pool.queue ∧
    (reinject = [] ∨ PayableIn C (r.pool.setHead state maxGas).toTxPool r.pool.pending)
  | .removeTxs _ => True

instance (r : PoolRun) : ∀ input, Decidable (Plain C r input)
  | .addTxs arrivals _ => inferInstanceAs (Decidable (∀ arrival ∈ arrivals, _))
  | .reset .. => inferInstanceAs (Decidable (_ ∧ _ ∧ _))
  | .removeTxs _ => inferInstanceAs (Decidable True)

structure FundsInv (r : PoolRun) : Prop where
  now : r.pool.Meets C r.pool.toTxPool (r.pool.toTxPool.Payable C) (r.pool.toTxPool.Payable C)
  sorted : ∀ p ∈ r.sorted, p.Affordable C

variable {C} {r r' : PoolRun}

theorem FundsInv.record {pool : TxPool} {p : PoolLists} (hsorted : ∀ p ∈ r.sorted, p.Affordable C)
    (h : p.AllPayable C pool) : FundsInv C (r.record p) := by
  have hnow := h
  rw [← h.head] at hnow
  refine ⟨hnow, ?_⟩
  intro q hq
  rcases mem_append.mp hq with hq | hq
  · exact hsorted q hq
  · rw [mem_singleton.mp hq]
    exact h.affordable

theorem addTxsLocked_fundsInv {arrivals : List Arrival} {orders : LoopOrders} (h : FundsInv C r)
    (hunpaid : ∀ arrival ∈ arrivals, arrival.tx.UnpaidExtras)
    (hadd : r.addTxsLocked C arrivals orders = .ok r') : FundsInv C r' := by
  have hadded := h.now.addEach hunpaid
  unfold addTxsLocked at hadd
  dsimp only at hadd
  split_ifs at hadd
  · cases hadd
    rw [← hadded.head] at hadded
    exact ⟨hadded, h.sorted⟩
  · obtain ⟨p, hpromote, hrecord⟩ := bind_eq_ok_iff.mp hadd
    cases hrecord
    have hknown : ∀ a : Address, True ∨ a ∈ (some (r.pool.addEach C arrivals).2).getD
        (r.pool.addEach C arrivals).1.queue.keys := fun _ => .inl trivial
    have hstart : (r.pool.addEach C arrivals).1.Meets C r.pool.toTxPool
        (r.pool.toTxPool.Payable C) (r.pool.toTxPool.PayableFor C (fun _ => True)) :=
      ⟨hadded.head, hadded.pending, hadded.queue.mono (fun tx ht => ht.payableFor _)⟩
    exact .record h.sorted (promoteExecutables_meets hstart hknown hpromote)

variable {m : GoMap Address TxList}

theorem listsMeet_setHead {Q : Transaction → Prop} (state : StateDB) (maxGas : UInt64)
    (h : ListsMeet C r.pool.toTxPool Q m) :
    ListsMeet C (r.pool.setHead state maxGas).toTxPool Q m := h

theorem listsMeet_of_payableIn {pool : TxPool} (h : ListsMeet C pool Transaction.UnpaidExtras m)
    (hpays : PayableIn C pool m) : ListsMeet C pool (pool.Payable C) m := by
  intro addr tx htx
  obtain ⟨haccount, hunpaid⟩ := h addr tx htx
  have hkey : addr ∈ m.keys := by
    by_contra hkey
    exact not_mem_txsAt hkey tx htx
  obtain ⟨hcost, hgas⟩ := hpays addr hkey tx htx
  exact ⟨haccount, hunpaid, hcost, hgas⟩

variable {reinject : List Arrival} {state : StateDB} {maxGas : UInt64}

/-- Nothing comes back, and nothing has been promoted yet. -/
theorem added_of_reset {added : LoopOrders} {r₁ : PoolRun} (h : FundsInv C r)
    (hunpaid : ∀ arrival ∈ reinject, arrival.tx.UnpaidExtras)
    (hqueue : PayableIn C (r.pool.setHead state maxGas).toTxPool r.pool.queue)
    (hpending : reinject = [] ∨ PayableIn C (r.pool.setHead state maxGas).toTxPool r.pool.pending)
    (hadd : ({ r with pool := r.pool.setHead state maxGas }).addTxsLocked C reinject added = .ok r₁) :
    r₁.pool.Meets C r₁.pool.toTxPool Transaction.UnpaidExtras (r₁.pool.toTxPool.Payable C) ∧
      ∀ p ∈ r₁.sorted, p.Affordable C := by
  have hqueued := listsMeet_of_payableIn
    (listsMeet_setHead state maxGas (h.now.queue.mono (fun _ ht => ht.unpaid))) hqueue
  have hunpaidPending := listsMeet_setHead state maxGas (h.now.pending.mono (fun _ ht => ht.unpaid))
  rcases hpending with rfl | hpending
  · cases hadd
    exact ⟨⟨rfl, hunpaidPending, hqueued⟩, h.sorted⟩
  · have hhead : FundsInv C { r with pool := r.pool.setHead state maxGas } :=
      ⟨⟨rfl, listsMeet_of_payableIn hunpaidPending hpending, hqueued⟩, h.sorted⟩
    have hadded := addTxsLocked_fundsInv hhead hunpaid hadd
    exact ⟨⟨rfl, hadded.now.pending.mono (fun _ ht => ht.unpaid), hadded.now.queue⟩, hadded.sorted⟩

/-- All that is queued is looked at again. -/
theorem reset_fundsInv {added demoted promoted : LoopOrders} (h : FundsInv C r)
    (hplain : Plain C r (.reset state maxGas reinject added demoted promoted))
    (hreset : r.reset C state maxGas reinject added demoted promoted = .ok r') : FundsInv C r' := by
  obtain ⟨hunpaid, hqueue, hpending⟩ := hplain
  obtain ⟨r₁, hadd, hrest⟩ := bind_eq_ok_iff.mp hreset
  obtain ⟨p₂, hdemote, hrest⟩ := bind_eq_ok_iff.mp hrest
  obtain ⟨p₃, hpromote, hrest⟩ := bind_eq_ok_iff.mp hrest
  cases hrest
  obtain ⟨hmeets, hsorted⟩ := added_of_reset h hunpaid hqueue hpending hadd
  have hdemoted := demoteUnexecutables_meets hmeets hdemote
  have hrecorded : FundsInv C (r₁.record p₂) := .record hsorted hdemoted
  have hstart : p₂.Meets C r₁.pool.toTxPool (r₁.pool.toTxPool.Payable C)
      (r₁.pool.toTxPool.PayableFor C (fun a => a ∉ p₂.queue.keys)) :=
    ⟨hdemoted.head, hdemoted.pending, hdemoted.queue.mono (fun _ ht => ht.payableFor _)⟩
  have hknown : ∀ a, a ∉ p₂.queue.keys ∨ a ∈ (none : Option (Finset Address)).getD p₂.queue.keys :=
    fun a => (em _).symm
  exact .record hrecorded.sorted (promoteExecutables_meets hstart hknown hpromote)

theorem step_fundsInv {input : PoolInput} (h : FundsInv C r) (hplain : Plain C r input)
    (hstep : step C r input = .ok r') : FundsInv C r' := by
  cases input with
  | addTxs arrivals orders => exact addTxsLocked_fundsInv h hplain hstep
  | reset state maxGas reinject added demoted promoted => exact reset_fundsInv h hplain hstep
  | removeTxs txs =>
    cases hstep
    have hnow := h.now.removeAll (fun _ ht => ht) txs
    rw [← hnow.head] at hnow
    exact ⟨hnow, h.sorted⟩

/-- In a pool without extra recipients whose queue every new head could pay for, all transactions
are affordable whenever the lists have been sorted. -/
theorem run_affordable {pool : TxPool} {config : TxPoolConfig} {inputs : List PoolInput}
    (hplain : EachBefore (step C) (Plain C) ⟨newTxPool pool config, []⟩ inputs)
    (hrun : run (step C) ⟨newTxPool pool config, []⟩ inputs = .ok r) :
    ∀ p ∈ r.sorted, p.Affordable C := by
  have hinit : FundsInv C ⟨newTxPool pool config, []⟩ := by
    refine ⟨⟨rfl, ?_, ?_⟩, fun p hp => absurd hp not_mem_nil⟩
    all_goals
      intro addr tx htx
      exact absurd htx (not_mem_txsAt (Finset.notMem_empty addr) tx)
  have hstep : ∀ r input r', FundsInv C r → Plain C r input → step C r input = .ok r' →
      FundsInv C r' := fun _ _ _ h hp hs => step_fundsInv h hp hs
  exact (run_preserves_of_eachBefore hstep hinit hplain hrun).sorted

def headWith (balance : ℕ) : TxPool where
  signer := .eip155 1
  currentMaxGas := 1000000
  gasPrice := 1
  currentState :=
    ⟨fun addr => if addr = 77 then some { newObject with balance := balance } else none, 0⟩
  homestead := true

def samplePool : PoolRun := ⟨newTxPool (headWith 1000000) ⟨10, 16, 4096, 64, 1024⟩, []⟩

def spendingInputs (tx : Transaction) (balance : ℕ) : List PoolInput :=
  [.addTxs [⟨tx, false, false, []⟩] ⟨[77], [], []⟩,
    .reset (headWith balance).currentState 1000000 [] ⟨[], [], []⟩ ⟨[77], [], []⟩ ⟨[], [], []⟩]

def extraPayment : Transaction :=
  AppliedTxs.samplePayment nonceAddOne [⟨0, 0, [⟨some 6, 50000, []⟩]⟩]

def pendingView (tx : Transaction) (p : PoolLists) : List Transaction × Option ℕ × ℕ :=
  (txsAt p.pending 77, (p.pending.lookup 77).map costcap,
    p.currentState.getBalance (p.sender AppliedTxs.oneSigner tx))

/-- The balance falls below the cost of the transaction, but not below the cap of its list, which
leaves the extra recipient out: the transaction stays. -/
theorem extra_payment_stays : ∃ r,
    run (step AppliedTxs.oneSigner) samplePool (spendingInputs extraPayment 220000) = .ok r ∧
    r.sorted.map (pendingView extraPayment) = [([extraPayment], some 200010, 1000000),
      ([extraPayment], some 200010, 220000), ([extraPayment], some 200010, 220000)] ∧
    extraPayment.costAll = 250010 ∧ ¬ ∀ p ∈ r.sorted, p.Affordable AppliedTxs.oneSigner := by
  obtain ⟨r, hrun, hview⟩ := exists_ok_of_map_toOption
    (x := run (step AppliedTxs.oneSigner) samplePool (spendingInputs extraPayment 220000))
    (f := fun r => r.sorted.map (pendingView extraPayment))
    (b := [([extraPayment], some 200010, 1000000), ([extraPayment], some 200010, 220000),
      ([extraPayment], some 200010, 220000)]) (by decide +kernel)
  refine ⟨r, hrun, hview, by decide, ?_⟩
  intro hall
  have hlast : ([extraPayment], some 200010, 220000) ∈ r.sorted.map (pendingView extraPayment) := by
    rw [hview]
    decide
  obtain ⟨p, hp, hpview⟩ := mem_map.mp hlast
  simp only [pendingView, Prod.mk.injEq, Option.map_eq_some_iff] at hpview
  obtain ⟨htxs, ⟨l, hl, -⟩, hbalance⟩ := hpview
  rw [txsAt_of_lookup hl] at htxs
  have hcost := (hall p hp 77 l (.inl hl) extraPayment (by rw [htxs]; exact mem_singleton_self _)).1
  rw [hbalance] at hcost
  exact absurd hcost (by decide)

/-- A payment without extra recipients stays as long as it can be paid for. -/
theorem run_affordable_plain_payment : ∃ r, run (step AppliedTxs.oneSigner) samplePool
      (spendingInputs (AppliedTxs.samplePayment nonceAddOne []) 220000) = .ok r ∧
    r.sorted.map (fun p => (txsAt p.pending 77).length) = [1, 1, 1] ∧
    ∀ p ∈ r.sorted, p.Affordable AppliedTxs.oneSigner := by
  obtain ⟨r, hrun, hview⟩ := exists_ok_of_map_toOption
    (x := run (step AppliedTxs.oneSigner) samplePool
      (spendingInputs (AppliedTxs.samplePayment nonceAddOne []) 220000))
    (f := fun r => r.sorted.map (fun p => (txsAt p.pending 77).length)) (b := [1, 1, 1])
    (by decide +kernel)
  exact ⟨r, hrun, hview, run_affordable (by decide +kernel) hrun⟩

end PoolRun

end MatrixNode
