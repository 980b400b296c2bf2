import MatrixNode.CommitTransactions
import MatrixNode.StepRun

/-! `TransactionsByPriceAndNonce` from its constructor on: in whatever order the set is emptied, the
transactions of an account come out in the order of its list, and the most expensive head first. -/
namespace MatrixNode
open GoLib Heap List Finmap Function

/-- The keys that a `range` over `m` goes through if its body changes the map: those of `m`, and
perhaps some that the body adds. A key that is gone when its turn comes is passed over. -/
structure Visits {V : Type} (m : GoMap Address V) where
  keys : List Address
  nodup : keys.Nodup
  covers : ∀ a ∈ m, a ∈ keys

namespace CommitChain
variable {Hash State Tx Receipt : Type} (K : CommitChain Hash State Tx Receipt)

/-- The pending transactions of each account, as the pool hands them out. -/
structure Pending (nonce : Tx → UInt64) where
  txs : GoMap Address (List Tx)
  nonempty : ∀ a, txs.lookup a ≠ some []
  sorted : ∀ a, ((txs.lookup a).getD []).Pairwise fun x y => nonce x ≤ nonce y
  sender : ∀ a, ∀ tx ∈ (txs.lookup a).getD [], K.sender tx = a

/-- One turn of the constructor's loop. The list goes to the sender of its first transaction. -/
def addHead (t : TransactionsByPriceAndNonce Tx) (account : Address) :
    Except GoError (TransactionsByPriceAndNonce Tx) :=
  match t.txs.lookup account with
  | none => .ok t
  | some [] => .error indexOutOfRange
  | some (first :: accTxs) =>
    let txs := t.txs.insert (K.sender first) accTxs
    .ok ⟨if account ≠ K.sender first then txs.erase account else txs, t.heads ++ [first]⟩

def newTransactionsByPriceAndNonce {txs : GoMap Address (List Tx)} (visits : Visits txs) :
    Except GoError (TransactionsByPriceAndNonce Tx) := do
  let t ← visits.keys.foldlM K.addHead ⟨txs, []⟩
  pure { t with heads := Heap.init (byKey K.price) t.heads }

inductive SetCall where
  | peek
  | shift
  | pop

/-- A set with what came out of it: the transactions that were at the top when `Shift` or `Pop` was
called, and the accounts that `Pop` dropped. -/
structure Emptied (Tx : Type) where
  set : TransactionsByPriceAndNonce Tx
  taken : List Tx
  dropped : List Address

def call (s : Emptied Tx) (c : SetCall) : Except GoError (Emptied Tx) :=
  match c, s.set.peek with
  | .peek, _ => .ok s
  | _, none => .error indexOutOfRange
  | .shift, some tx => .ok ⟨K.shift s.set, s.taken ++ [tx], s.dropped⟩
  | .pop, some tx => .ok ⟨K.pop s.set, s.taken ++ [tx], K.sender tx :: s.dropped⟩

def takenFrom (taken : List Tx) (a : Address) : List Tx := taken.filter fun tx => K.sender tx = a

variable {K} {nonce : Tx → UInt64}

def Pending.list (P : K.Pending nonce) (a : Address) : List Tx := (P.txs.lookup a).getD []

/-- What an account still has to offer: nothing once it was dropped, else what was not taken. -/
def Pending.left (P : K.Pending nonce) (s : Emptied Tx) (a : Address) : List Tx :=
  if a ∈ s.dropped then [] else (P.list a).drop (K.takenFrom s.taken a).length

variable (K) in
/-- The transaction is the first one that its sender still has, and no account has a more expensive
one to offer. There is none only if all accounts are exhausted. -/
def IsNext (left : Address → List Tx) : Option Tx → Prop
  | none => ∀ a, left a = []
  | some tx => (left (K.sender tx)).head? = some tx ∧
    ∀ a y, (left a).head? = some y → K.price y ≤ K.price tx

variable (K) in
/-- The set holds the transactions `left a` of every account `a`: the first one among the heads, and
the others behind it. -/
structure Holds {txs : GoMap Address (List Tx)} (visits : Visits txs)
    (t : TransactionsByPriceAndNonce Tx) (left : Address → List Tx) : Prop where
  sender : ∀ a, ∀ tx ∈ left a, K.sender tx = a
  covers : ∀ a, left a ≠ [] → a ∈ visits.keys
  heap : IsHeap K.price t.heads
  heads : t.heads.Perm (visits.keys.filterMap fun a => (left a).head?)
  behind : ∀ a, left a ≠ [] → t.behind a = (left a).tail

section Set
variable {txs : GoMap Address (List Tx)} {visits : Visits txs} {t : TransactionsByPriceAndNonce Tx}
  {left : Address → List Tx} (h : K.Holds visits t left)
include h

theorem Holds.head?_eq_some_iff {a : Address} {tx : Tx} :
    (left a).head? = some tx ↔ tx ∈ t.heads ∧ K.sender tx = a := by
  rw [h.heads.mem_iff, mem_filterMap]
  constructor
  · intro hfirst
    have hmem : tx ∈ left a := mem_of_mem_head? hfirst
    exact ⟨⟨a, h.covers a (ne_nil_of_mem hmem), hfirst⟩, h.sender a tx hmem⟩
  · rintro ⟨⟨b, -, hfirst⟩, rfl⟩
    rwa [h.sender b tx (mem_of_mem_head? hfirst)]

theorem Holds.peek : K.IsNext left t.peek := by
  unfold TransactionsByPriceAndNonce.peek
  rcases hheads : t.heads with _ | ⟨top, rest⟩
  · intro a
    rw [← head?_eq_none_iff, Option.eq_none_iff_forall_ne_some]
    intro y hy
    have hmem := (h.head?_eq_some_iff.mp hy).1
    rw [hheads] at hmem
    cases hmem
  · refine ⟨h.head?_eq_some_iff.mpr ⟨hheads ▸ mem_cons_self, rfl⟩, ?_⟩
    intro a y hy
    have hheap := h.heap
    have hmem := (h.head?_eq_some_iff.mp hy).1
    rw [hheads] at hheap hmem
    exact hheap.key_le hmem

variable {top : Tx} {rest : List Tx}

theorem Holds.head?_top (hheads : t.heads = top :: rest) : (left (K.sender top)).head? = some top :=
  h.head?_eq_some_iff.mpr ⟨hheads ▸ mem_cons_self, rfl⟩

/-- The account at the top is left with the transactions `l`. -/
theorem Holds.replace (hheads : t.heads = top :: rest) {l : List Tx}
    {t' : TransactionsByPriceAndNonce Tx}
    (hl : ∀ tx ∈ l, K.sender tx = K.sender top) (hheap : IsHeap K.price t'.heads)
    (hperm : t'.heads.Perm (l.head?.toList ++ rest))
    (hsame : ∀ a, a ≠ K.sender top → t'.behind a = t.behind a)
    (hbehind : l ≠ [] → t'.behind (K.sender top) = l.tail) :
    K.Holds visits t' (update left (K.sender top) l) := by
  have hfirst := h.head?_top hheads
  have hmem : K.sender top ∈ visits.keys :=
    h.covers _ (ne_nil_of_mem (mem_of_mem_head? hfirst))
  refine ⟨?_, ?_, hheap, ?_, ?_⟩
  · exact (forall_update_iff left fun a l => ∀ tx ∈ l, K.sender tx = a).mpr
      ⟨hl, fun a _ => h.sender a⟩
  · exact (forall_update_iff left fun a l => l ≠ [] → a ∈ visits.keys).mpr
      ⟨fun _ => hmem, fun a _ => h.covers a⟩
  · let others := visits.keys.erase (K.sender top)
    have hkeys : visits.keys.Perm (K.sender top :: others) := perm_cons_erase hmem
    have hrest : rest.Perm (others.filterMap fun a => (left a).head?) := by
      have hold := h.heads.trans (hkeys.filterMap _)
      rw [hheads, filterMap_cons, hfirst] at hold
      exact hold.cons_inv
    have hothers : others.filterMap (fun a => (left a).head?) =
        others.filterMap fun a => (update left (K.sender top) l a).head? := by
      apply filterMap_congr
      intro a ha
      rw [update_of_ne ((visits.nodup.mem_erase_iff.mp ha).1)]
    calc
      t'.heads.Perm (l.head?.toList ++ rest) := hperm
      _ |>.Perm (l.head?.toList ++ others.filterMap fun a => (left a).head?) := hrest.append_left _
      _ |>.Perm _ := by
        rw [hothers]
        refine List.Perm.trans ?_ (hkeys.filterMap _).symm
        rw [filterMap_cons, update_self]
        cases l.head? <;> exact List.Perm.refl _
  · exact (forall_update_iff left fun a l => l ≠ [] → t'.behind a = l.tail).mpr
      ⟨hbehind, fun a ha hne => (hsame a ha).trans (h.behind a hne)⟩

theorem Holds.pop (hheads : t.heads = top :: rest) :
    K.Holds visits (K.pop t) (update left (K.sender top) []) := by
  apply h.replace hheads (fun tx htx => absurd htx not_mem_nil)
  · exact h.heap.pop
  · have hpop := pop_perm (byKey K.price) top rest
    rw [← hheads] at hpop
    exact hpop
  · exact fun a _ => rfl
  · exact fun hne => absurd rfl hne

theorem Holds.shift (hheads : t.heads = top :: rest) : K.Holds visits (K.shift t)
    (update left (K.sender top) (left (K.sender top)).tail) := by
  have hmem : top ∈ left (K.sender top) := mem_of_mem_head? (h.head?_top hheads)
  have hbehind := h.behind _ (ne_nil_of_mem hmem)
  rw [← hbehind]
  rcases hnext : t.behind (K.sender top) with _ | ⟨tx, txs⟩
  · have hpop : K.shift t = K.pop t := by
      unfold CommitChain.shift
      rw [hheads]
      dsimp only
      rw [hnext]
    rw [hpop]
    exact h.pop hheads
  · have hnew : K.shift t =
        ⟨t.txs.insert (K.sender top) txs, fixFirst (byKey K.price) (tx :: rest)⟩ := by
      unfold CommitChain.shift
      rw [hheads]
      dsimp only
      rw [hnext]
      rfl
    rw [hnew]
    apply h.replace hheads
    · intro y hy
      rw [← hnext, hbehind] at hy
      exact h.sender _ y (mem_of_mem_tail hy)
    · have hheap := h.heap
      rw [hheads] at hheap
      exact hheap.fixFirst tx
    · exact fixFirst_perm ..
    · intro a ha
      unfold TransactionsByPriceAndNonce.behind
      rw [lookup_insert_of_ne _ ha]
    · intro _
      unfold TransactionsByPriceAndNonce.behind
      rw [lookup_insert]
      rfl

end Set

section New
variable {t : TransactionsByPriceAndNonce Tx}

theorem addHead_of_sender {account : Address} (hnonempty : t.txs.lookup account ≠ some [])
    (hsender : ∀ tx ∈ t.behind account, K.sender tx = account) :
    ∃ t', K.addHead t account = .ok t' ∧ t'.heads = t.heads ++ (t.behind account).head?.toList ∧
      t'.behind account = (t.behind account).tail ∧
      ∀ a, a ≠ account → t'.txs.lookup a = t.txs.lookup a := by
  unfold TransactionsByPriceAndNonce.behind at hsender ⊢
  unfold addHead
  rcases hlookup : t.txs.lookup account with _ | _ | ⟨first, accTxs⟩
  · refine ⟨t, rfl, (append_nil _).symm, ?_, fun a _ => rfl⟩
    rw [hlookup]
    rfl
  · exact absurd hlookup hnonempty
  · rw [hlookup] at hsender
    dsimp only
    rw [hsender first mem_cons_self, if_neg (not_not.mpr rfl)]
    refine ⟨_, rfl, rfl, ?_, fun a ha => lookup_insert_of_ne _ ha⟩
    rw [lookup_insert]
    rfl

theorem foldlM_addHead {keys : List Address} (hnodup : keys.Nodup)
    (hnonempty : ∀ a ∈ keys, t.txs.lookup a ≠ some [])
    (hsender : ∀ a ∈ keys, ∀ tx ∈ t.behind a, K.sender tx = a) :
    ∃ t', keys.foldlM K.addHead t = .ok t' ∧
      t'.heads = t.heads ++ keys.filterMap (fun a => (t.behind a).head?) ∧
      ∀ a, t'.behind a = if a ∈ keys then (t.behind a).tail else t.behind a := by
  induction keys generalizing t with
  | nil => exact ⟨t, rfl, (append_nil _).symm, fun a => rfl⟩
  | cons account keys ih =>
    obtain ⟨hnot, hnodup⟩ := nodup_cons.mp hnodup
    obtain ⟨hnonempty₁, hnonempty⟩ := forall_mem_cons.mp hnonempty
    obtain ⟨hsender₁, hsender⟩ := forall_mem_cons.mp hsender
    obtain ⟨t₁, hadd, hheads₁, htail, hlookup⟩ := addHead_of_sender hnonempty₁ hsender₁
    have hne : ∀ a ∈ keys, a ≠ account := fun a ha heq => hnot (heq ▸ ha)
    have hsame : ∀ a, a ≠ account → t₁.behind a = t.behind a := by
      intro a ha
      unfold TransactionsByPriceAndNonce.behind
      rw [hlookup a ha]
    obtain ⟨t', hrun, hheads, hbehind⟩ := ih (t := t₁) hnodup
      (fun a ha => hlookup a (hne a ha) ▸ hnonempty a ha)
      (fun a ha => hsame a (hne a ha) ▸ hsender a ha)
    refine ⟨t', ?_, ?_, ?_⟩
    · rw [foldlM_cons, hadd]
      exact hrun
    · have hkeys : keys.filterMap (fun a => (t₁.behind a).head?) =
          keys.filterMap fun a => (t.behind a).head? :=
        filterMap_congr fun a ha => by rw [hsame a (hne a ha)]
      rw [hheads, hheads₁, hkeys, append_assoc, filterMap_cons]
      cases (t.behind account).head? <;> rfl
    · intro a
      rw [hbehind]
      by_cases ha : a = account
      · rw [ha, if_neg hnot, htail, if_pos mem_cons_self]
      · simp only [hsame a ha, mem_cons, ha, false_or]

theorem holds_new (P : K.Pending nonce) (visits : Visits P.txs) :
    ∃ t, K.newTransactionsByPriceAndNonce visits = .ok t ∧ K.Holds visits t P.list := by
  obtain ⟨t, hrun, hheads, hbehind⟩ := foldlM_addHead (K := K) (t := ⟨P.txs, []⟩) visits.nodup
    (fun a _ => P.nonempty a) (fun a _ => P.sender a)
  have hcovers : ∀ a, P.list a ≠ [] → a ∈ visits.keys := by
    intro a hne
    apply visits.covers
    by_contra ha
    apply hne
    unfold Pending.list
    rw [lookup_eq_none.mpr ha]
    rfl
  refine ⟨{ t with heads := Heap.init (byKey K.price) t.heads }, ?_, P.sender, hcovers,
    isHeap_init _ _, ?_, ?_⟩
  · unfold newTransactionsByPriceAndNonce
    rw [hrun]
    rfl
  · rw [hheads]
    exact init_perm ..
  · intro a hne
    exact (hbehind a).trans (if_pos (hcovers a hne))

end New

/-- What holds at every moment: the set still has what was neither taken nor dropped, and what was
taken of an account is the beginning of its list. -/
structure Emptying (P : K.Pending nonce) (visits : Visits P.txs) (s : Emptied Tx) : Prop where
  holds : K.Holds visits s.set (P.left s)
  prefixes : ∀ a, K.takenFrom s.taken a <+: P.list a

section Run
variable {P : K.Pending nonce} {visits : Visits P.txs} {s : Emptied Tx} {tx : Tx}

theorem takenFrom_concat (taken : List Tx) (tx : Tx) (a : Address) :
    K.takenFrom (taken ++ [tx]) a =
      if K.sender tx = a then K.takenFrom taken a ++ [tx] else K.takenFrom taken a := by
  unfold takenFrom
  rw [filter_append]
  split_ifs with ha <;> simp [ha]

section Taken
variable (h : Emptying P visits s) (hpeek : s.set.peek = some tx)
include h hpeek

theorem Emptying.list_sender : K.sender tx ∉ s.dropped ∧
    P.list (K.sender tx) = K.takenFrom s.taken (K.sender tx) ++ tx :: (P.left s (K.sender tx)).tail := by
  have hnext := h.holds.peek
  rw [hpeek] at hnext
  have hfirst := hnext.1
  have hnot : K.sender tx ∉ s.dropped := by
    intro hin
    rw [Pending.left, if_pos hin] at hfirst
    cases hfirst
  refine ⟨hnot, ?_⟩
  rw [← eq_cons_of_mem_head? hfirst, Pending.left, if_neg hnot]
  exact (prefix_iff_eq_append.mp (h.prefixes _)).symm

/-- Whether the rest of the account stays or goes, its first transaction has now been taken. -/
theorem Emptying.taken {set : TransactionsByPriceAndNonce Tx} {dropped : List Address} {l : List Tx}
    (hset : K.Holds visits set (update (P.left s) (K.sender tx) l))
    (hdropped : ∀ a, a ≠ K.sender tx → (a ∈ dropped ↔ a ∈ s.dropped))
    (hl : P.left ⟨set, s.taken ++ [tx], dropped⟩ (K.sender tx) = l) :
    Emptying P visits ⟨set, s.taken ++ [tx], dropped⟩ := by
  refine ⟨?_, ?_⟩
  · convert hset using 1
    refine eq_update_iff.mpr ⟨hl, ?_⟩
    intro a ha
    unfold Pending.left
    dsimp only
    rw [takenFrom_concat, if_neg (Ne.symm ha)]
    simp only [hdropped a ha]
  · intro a
    dsimp only
    rw [takenFrom_concat]
    split_ifs with ha
    · rw [← ha, (h.list_sender hpeek).2]
      exact ⟨_, append_assoc ..⟩
    · exact h.prefixes a

theorem Emptying.shift : Emptying P visits ⟨K.shift s.set, s.taken ++ [tx], s.dropped⟩ := by
  obtain ⟨rest, hheads⟩ := head?_eq_some_iff.mp hpeek
  apply h.taken hpeek (h.holds.shift hheads) fun a _ => Iff.rfl
  unfold Pending.left
  dsimp only
  rw [if_neg (h.list_sender hpeek).1, if_neg (h.list_sender hpeek).1, takenFrom_concat, if_pos rfl,
    length_append, tail_drop]
  rfl

theorem Emptying.pop :
    Emptying P visits ⟨K.pop s.set, s.taken ++ [tx], K.sender tx :: s.dropped⟩ := by
  obtain ⟨rest, hheads⟩ := head?_eq_some_iff.mp hpeek
  apply h.taken hpeek (h.holds.pop hheads)
  · intro a ha
    rw [mem_cons, or_iff_right ha]
  · exact if_pos mem_cons_self

end Taken

theorem Emptying.call (h : Emptying P visits s) {c : SetCall} {s' : Emptied Tx}
    (hcall : K.call s c = .ok s') : Emptying P visits s' := by
  unfold CommitChain.call at hcall
  split at hcall
  · cases hcall
    exact h
  · cases hcall
  next tx hpeek =>
    cases hcall
    exact h.shift hpeek
  next tx hpeek =>
    cases hcall
    exact h.pop hpeek

theorem Emptying.call_returns_iff (h : Emptying P visits s) (c : SetCall) :
    (∃ s', K.call s c = .ok s') ↔ c = .peek ∨ ∃ a, P.left s a ≠ [] := by
  have hnext := h.holds.peek
  unfold CommitChain.call
  rcases hpeek : s.set.peek with _ | tx
  all_goals rw [hpeek] at hnext
  · have hall : ¬ ∃ a, P.left s a ≠ [] := fun ⟨a, ha⟩ => ha (hnext a)
    cases c <;> simp [hall]
  · have hsome : ∃ a, P.left s a ≠ [] :=
      ⟨_, ne_nil_of_mem (mem_of_mem_head? hnext.1)⟩
    cases c <;> simp [hsome]

theorem emptying_new (P : K.Pending nonce) (visits : Visits P.txs) :
    ∃ t, K.newTransactionsByPriceAndNonce visits = .ok t ∧ Emptying P visits ⟨t, [], []⟩ := by
  obtain ⟨t, hnew, hholds⟩ := holds_new P visits
  exact ⟨t, hnew, hholds, fun a => nil_prefix⟩

/-- Whatever is called on a new set, the transactions taken of an account are the first ones of its
list, in the order of their nonces, and the top is the most expensive of those that come next. Only
`Shift` and `Pop` on an exhausted set do not return. -/
theorem taken_in_nonce_order (P : K.Pending nonce) (visits : Visits P.txs) :
    ∃ t, K.newTransactionsByPriceAndNonce visits = .ok t ∧
      ∀ calls s, run K.call ⟨t, [], []⟩ calls = .ok s →
        (∀ a, K.takenFrom s.taken a <+: P.list a ∧
          (K.takenFrom s.taken a).Pairwise fun x y => nonce x ≤ nonce y) ∧
        K.IsNext (P.left s) s.set.peek ∧
        ∀ c, (∃ s', K.call s c = .ok s') ↔ c = .peek ∨ ∃ a, P.left s a ≠ [] := by
  obtain ⟨t, hnew, hstart⟩ := emptying_new P visits
  refine ⟨t, hnew, ?_⟩
  intro calls s hrun
  have h : Emptying P visits s :=
    run_preserves (fun s c s' (_ : True) hs hcall => hs.call hcall) (fun _ _ => trivial) hstart hrun
  refine ⟨?_, h.holds.peek, h.call_returns_iff⟩
  intro a
  exact ⟨h.prefixes a, (P.sorted a).sublist (h.prefixes a).sublist⟩

section Sample

/-- Transaction 12 is of account 1, at price 2. -/
def pricedChain : CommitChain ℕ ℕ ℕ ℕ :=
  { pickyChain with
    sender := fun tx => BitVec.ofNat 160 (tx/10)
    price := fun tx => Int.ofNat (tx%10) }

def pricedMap : GoMap Address (List ℕ) := .ofEntries [(1, [11, 12]), (2, [25])]

theorem lookup_pricedMap (a : Address) : pricedMap.lookup a =
    if a = 2 then some [25] else if a = 1 then some [11, 12] else none := by
  split_ifs with h₂ h₁
  · rw [h₂]
    rfl
  · rw [h₁]
    rfl
  · exact (lookup_insert_of_ne _ h₂).trans (lookup_insert_of_ne _ h₁)

def pricedTxs : pricedChain.Pending UInt64.ofNat where
  txs := pricedMap
  nonempty a := by
    rw [lookup_pricedMap]
    split_ifs <;> simp
  sorted a := by
    rw [lookup_pricedMap]
    split_ifs <;> decide
  sender a := by
    rw [lookup_pricedMap]
    split_ifs with h₂ h₁
    · rw [h₂]
      decide
    · rw [h₁]
      decide
    · simp

def pricedVisits : Visits pricedTxs.txs :=
  ⟨[1, 2], by decide, fun a ha => (GoMap.mem_ofEntries _ a).mp ha⟩

theorem taken_in_nonce_order_after_shift : ∃ t s,
    pricedChain.newTransactionsByPriceAndNonce pricedVisits = .ok t ∧
    run pricedChain.call ⟨t, [], []⟩ [.shift] = .ok s ∧
    (∀ a, pricedChain.takenFrom s.taken a <+: pricedTxs.list a) ∧
    pricedChain.IsNext (pricedTxs.left s) s.set.peek := by
  obtain ⟨t, hnew, h⟩ := taken_in_nonce_order pricedTxs pricedVisits
  have hleft : pricedTxs.left ⟨t, [], []⟩ 1 = [11, 12] := rfl
  obtain ⟨s, hs⟩ := ((h [] _ rfl).2.2 .shift).mpr (.inr ⟨1, by rw [hleft]; simp⟩)
  have hrun : run pricedChain.call ⟨t, [], []⟩ [.shift] = .ok s := by
    rw [run_cons, hs]
    rfl
  obtain ⟨htaken, hnext, -⟩ := h [.shift] s hrun
  exact ⟨t, s, hnew, hrun, fun a => (htaken a).1, hnext⟩

end Sample

/-- The transactions that the leader keeps of an account are in the order of its list. -/
theorem commitTransactions_in_order {P : K.Pending nonce} {visits : Visits P.txs}
    {t : TransactionsByPriceAndNonce Tx} (hnew : K.newTransactionsByPriceAndNonce visits = .ok t)
    {env : Work Hash State Tx Receipt} {coinbase : Address} {s : Packing Hash State Tx Receipt}
    (h : K.commitTransactions env t coinbase = .ok s) (a : Address) :
    (K.takenFrom s.retTxs a).Sublist (P.list a) := by
  obtain ⟨t', hnew', hstart⟩ := emptying_new P visits
  cases hnew.symm.trans hnew'
  let Kept (s : Packing Hash State Tx Receipt) : Prop :=
    ∃ taken dropped, Emptying P visits ⟨s.txs, taken, dropped⟩ ∧ s.retTxs.Sublist taken
  have hturn : ∀ s s', Kept s → K.turn coinbase s = .ok (some s') → Kept s' := by
    rintro s s' ⟨taken, dropped, hs, hkept⟩ hturn
    obtain ⟨tx, hpeek, htxs, hturned⟩ := turn_next hturn
    have hkept' : s'.retTxs.Sublist (taken ++ [tx]) := by
      cases hturned with
      | dropped => exact hkept.trans (sublist_append_left ..)
      | failed => exact hkept.trans (sublist_append_left ..)
      | executed => exact hkept.append_right _
    dsimp only [Kept]
    rcases htxs with htxs | htxs
    · rw [htxs]
      exact ⟨_, _, hs.pop hpeek, hkept'⟩
    · rw [htxs]
      exact ⟨_, _, hs.shift hpeek, hkept'⟩
  obtain ⟨taken, dropped, hs, hkept⟩ : Kept s :=
    loop_preserves hturn ⟨[], [], hstart, List.Sublist.refl _⟩ h
  exact (hkept.filter _).trans (hs.prefixes a).sublist

theorem pricedChain_turn {t : TransactionsByPriceAndNonce ℕ} {tx state tcount : ℕ} {gp used : UInt64}
    {txs ret : List ℕ} {numbers : List UInt32} (hpeek : t.peek = some tx) (htx : tx ≠ 9)
    (hgp : ¬ gp < 21000) :
    pricedChain.turn 0 ⟨pickyWork state tcount gp used txs, t, numbers, ret⟩ =
      .ok (some ⟨pickyWork (state+tx) (tcount+1) (gp-21000) (used+21000) (txs ++ [tx]),
        pricedChain.shift t, numbers ++ [UInt32.ofNat tx], ret ++ [tx]⟩) := by
  simp only [turn, hpeek, pricedChain, pickyChain, WorkChain.commitTransaction, pickyWork,
    Option.getD_some, paramsTxGas, hgp, htx, if_false]
  rfl

/-- The gas is enough for all transactions: that of account 2 is the most expensive, and then come the
two of account 1. -/
theorem commitTransactions_in_order_three : ∃ t s,
    pricedChain.newTransactionsByPriceAndNonce pricedVisits = .ok t ∧
    pricedChain.commitTransactions (pickyWork 5 0 70000 0 []) t 0 = .ok s ∧
    s.retTxs = [25, 11, 12] ∧
    (pricedChain.takenFrom [25, 11, 12] 1).Sublist (pricedTxs.list 1) := by
  obtain ⟨t, hnew, -⟩ := emptying_new pricedTxs pricedVisits
  have hpeeks : t.peek = some 25 ∧ (pricedChain.shift t).peek = some 11 ∧
      (pricedChain.shift (pricedChain.shift t)).peek = some 12 := by
    cases hnew
    decide +kernel
  obtain ⟨h₁, h₂, h₃⟩ := hpeeks
  have hrun : pricedChain.commitTransactions (pickyWork 5 0 70000 0 []) t 0 = .ok _ :=
    (loop_next (pricedChain_turn h₁ (by decide) (by decide))).trans
      ((loop_next (pricedChain_turn h₂ (by decide) (by decide))).trans
        ((loop_next (pricedChain_turn h₃ (by decide) (by decide))).trans (loop_done rfl)))
  exact ⟨t, _, hnew, hrun, rfl, commitTransactions_in_order hnew hrun 1⟩

end Run

end CommitChain

end MatrixNode
