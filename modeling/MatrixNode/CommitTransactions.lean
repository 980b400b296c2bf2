import MatrixNode.GoHeap
import MatrixNode.TxsVerification

/-! `Work.commitTransactions` and the transaction set it empties: the leader tries the pending
transactions by price and keeps those that execute. The verifiers then execute what was kept as a
plain list. -/
namespace MatrixNode
open GoLib Heap

def errGasLimitReached : GoError := .error "gas limit reached"

def errNonceTooHigh : GoError := .error "nonce too high"

/-- What the leader reads of the rules and of a transaction: its numbers `N`, which the pool sets,
and its sender, the zero address if the signature is bad. -/
structure CommitChain (Hash State Tx Receipt : Type) extends WorkChain Hash State Tx Receipt where
  isEIP155 : ℕ → Bool
  numbers : Tx → Option (List UInt32)
  isProtected : Tx → Bool
  sender : Tx → Address
  price : Tx → ℤ

structure TransactionsByPriceAndNonce (Tx : Type) where
  txs : GoMap Address (List Tx)
  heads : List Tx

namespace TransactionsByPriceAndNonce
variable {Tx : Type} (t : TransactionsByPriceAndNonce Tx)

def peek : Option Tx := t.heads.head?

def behind (a : Address) : List Tx := (t.txs.lookup a).getD []

def remaining : ℕ := t.heads.length+∑ a ∈ t.txs.keys, (t.behind a).length

end TransactionsByPriceAndNonce

structure Packing (Hash State Tx Receipt : Type) where
  env : Work Hash State Tx Receipt
  txs : TransactionsByPriceAndNonce Tx
  listN : List UInt32
  retTxs : List Tx

namespace CommitChain
variable {Hash State Tx Receipt : Type} (K : CommitChain Hash State Tx Receipt)

def pop (t : TransactionsByPriceAndNonce Tx) : TransactionsByPriceAndNonce Tx :=
  { t with heads := Heap.pop (fun x y => K.price y < K.price x) t.heads }

/-- `Shift`. It is only called while there is a transaction at the top. -/
def shift (t : TransactionsByPriceAndNonce Tx) : TransactionsByPriceAndNonce Tx :=
  match t.heads with
  | [] => t
  | top :: heads =>
    match t.behind (K.sender top) with
    | [] => K.pop t
    | tx :: txs =>
      { txs := t.txs.insert (K.sender top) txs
        heads := fixFirst (fun x y => K.price y < K.price x) (tx :: heads) }

/-- One turn of the loop; `none` leaves it. -/
def turn (coinbase : Address) (s : Packing Hash State Tx Receipt) :
    Except GoError (Option (Packing Hash State Tx Receipt)) :=
  let gp := s.env.gasPool.getD 0
  if gp < paramsTxGas then .ok none
  else match s.txs.peek with
  | none => .ok none
  | some tx =>
    match K.numbers tx with
    | none => .ok (some { s with txs := K.pop s.txs })
    | some n =>
      if K.isProtected tx && !K.isEIP155 s.env.header.number then
        .ok (some { s with txs := K.pop s.txs })
      else
        let env := { s.env with state := K.prepare s.env.state tx s.env.tcount }
        match K.commitTransaction env tx coinbase gp with
        | (_,.error (.panic text)) => .error (.panic text)
        | (env,.error err) =>
          -- A nonce that is too low, and any error not listed, passes to the account's next one.
          if err = errGasLimitReached ∨ err = errNonceTooHigh then
            .ok (some { s with env := env, txs := K.pop s.txs })
          else .ok (some { s with env := env, txs := K.shift s.txs })
        | (env,.ok ()) =>
          match n with
          | [] => .error indexOutOfRange
          | number :: _ =>
            .ok (some ⟨{ env with tcount := env.tcount+1 }, K.shift s.txs, s.listN ++ [number],
              s.retTxs ++ [tx]⟩)

section Size
variable {K}

variable {t : TransactionsByPriceAndNonce Tx}

theorem remaining_pop {tx : Tx} (h : t.peek = some tx) : (K.pop t).remaining < t.remaining := by
  have hpos : 0 < t.heads.length := List.length_pos_of_mem (List.mem_of_mem_head? h)
  have hpop : (K.pop t).heads.length = t.heads.length-1 := Heap.length_pop ..
  have hbehind : (K.pop t).remaining =
      (K.pop t).heads.length+∑ a ∈ t.txs.keys, (t.behind a).length := rfl
  unfold TransactionsByPriceAndNonce.remaining at hbehind ⊢
  omega

theorem mem_keys_of_behind {a : Address} {first : Tx} {txs : List Tx}
    (h : t.behind a = first :: txs) : a ∈ t.txs.keys := by
  unfold TransactionsByPriceAndNonce.behind at h
  rcases hlookup : t.txs.lookup a with _ | found
  · rw [hlookup] at h
    cases h
  · exact Finmap.mem_keys.mpr (Finmap.mem_of_lookup_eq_some hlookup)

/-- The sender has one transaction less behind its head, the others have as many as before. -/
theorem remaining_shift {tx : Tx} (h : t.peek = some tx) : (K.shift t).remaining < t.remaining := by
  unfold shift
  split
  next hnil =>
    rw [TransactionsByPriceAndNonce.peek, hnil] at h
    cases h
  next top heads hheads =>
    split
    · exact remaining_pop h
    next first txs hbehind =>
      have hkey : K.sender top ∈ t.txs.keys := mem_keys_of_behind hbehind
      have hkeys := GoMap.keys_insert_of_mem hkey txs
      have hsum : ∑ a ∈ t.txs.keys, (((t.txs.insert (K.sender top) txs).lookup a).getD []).length <
          ∑ a ∈ t.txs.keys, (t.behind a).length := by
        refine Finset.sum_lt_sum ?_ ⟨_, hkey, ?_⟩
        · intro a _
          by_cases ha : a = K.sender top
          · rw [ha, Finmap.lookup_insert, hbehind]
            exact Nat.le_succ _
          · rw [Finmap.lookup_insert_of_ne _ ha]
            exact le_rfl
        · rw [Finmap.lookup_insert, hbehind]
          exact Nat.lt_succ_self _
      have hlength : (fixFirst (fun x y => K.price y < K.price x) (first :: heads)).length =
          t.heads.length := by
        rw [(fixFirst_perm ..).length_eq, hheads]
        rfl
      unfold TransactionsByPriceAndNonce.remaining TransactionsByPriceAndNonce.behind at hsum ⊢
      dsimp only at hsum ⊢
      rw [hkeys]
      omega

/-- What a turn that stays in the loop has done: it dropped the transaction at the top unexecuted,
tried it in vain, or executed it. -/
inductive Turned (coinbase : Address) (s : Packing Hash State Tx Receipt) (tx : Tx) :
    Packing Hash State Tx Receipt → Prop where
  | dropped (txs : TransactionsByPriceAndNonce Tx) :
      Turned coinbase s tx { s with txs := txs }
  | failed (txs : TransactionsByPriceAndNonce Tx) {gp : UInt64} {err : GoError}
      (happly : K.applyTransaction (s.env.gasPool.getD 0) coinbase
        (K.prepare s.env.state tx s.env.tcount) s.env.header tx = (gp, .error err)) :
      Turned coinbase s tx
        { s with
          env := { s.env with state := K.prepare s.env.state tx s.env.tcount, gasPool := some gp }
          txs := txs }
  | executed (txs : TransactionsByPriceAndNonce Tx) (number : UInt32) {gp : UInt64}
      {applied : Applied State Receipt} (hgas : paramsTxGas ≤ s.env.gasPool.getD 0)
      (happly : K.applyTransaction (s.env.gasPool.getD 0) coinbase
        (K.prepare s.env.state tx s.env.tcount) s.env.header tx = (gp, .ok applied)) :
      Turned coinbase s tx ⟨s.env.apply tx gp applied, txs, s.listN ++ [number], s.retTxs ++ [tx]⟩

/-- An error drops the account or its first transaction, a panic ends the loop. -/
theorem turn_next {coinbase : Address} {s s' : Packing Hash State Tx Receipt}
    (h : K.turn coinbase s = .ok (some s')) :
    ∃ tx, s.txs.peek = some tx ∧ (s'.txs = K.pop s.txs ∨ s'.txs = K.shift s.txs) ∧
      K.Turned coinbase s tx s' := by
  unfold turn at h
  dsimp only at h
  by_cases hgas : s.env.gasPool.getD 0 < paramsTxGas
  · rw [if_pos hgas] at h
    cases h
  rw [if_neg hgas] at h
  split at h
  · cases h
  next tx hpeek =>
    refine ⟨tx, hpeek, ?_⟩
    split at h
    · cases h
      exact ⟨.inl rfl, .dropped _⟩
    split at h
    · cases h
      exact ⟨.inl rfl, .dropped _⟩
    unfold WorkChain.commitTransaction at h
    rcases happly : K.applyTransaction (s.env.gasPool.getD 0) coinbase
      (K.prepare s.env.state tx s.env.tcount) s.env.header tx with ⟨gp, (err | text) | applied⟩
    all_goals rw [happly] at h; dsimp only at h
    · split_ifs at h
      · cases h
        exact ⟨.inl rfl, .failed _ happly⟩
      · cases h
        exact ⟨.inr rfl, .failed _ happly⟩
    · cases h
    · split at h
      · cases h
      · cases h
        exact ⟨.inr rfl, .executed _ _ (UInt64.not_lt.mp hgas) happly⟩

theorem turn_remaining {coinbase : Address} {s s' : Packing Hash State Tx Receipt}
    (h : K.turn coinbase s = .ok (some s')) : s'.txs.remaining < s.txs.remaining := by
  obtain ⟨tx, hpeek, htxs | htxs, -⟩ := turn_next h
  · rw [htxs]
    exact remaining_pop hpeek
  · rw [htxs]
    exact remaining_shift hpeek

end Size

/-- The loop ends because every turn takes a transaction out of the set. -/
def loop (coinbase : Address) (s : Packing Hash State Tx Receipt) :
    Except GoError (Packing Hash State Tx Receipt) :=
  match _h : K.turn coinbase s with
  | .error err => .error err
  | .ok none => .ok s
  | .ok (some s') => loop coinbase s'
termination_by s.txs.remaining
decreasing_by exact turn_remaining _h

def commitTransactions (env : Work Hash State Tx Receipt) (txs : TransactionsByPriceAndNonce Tx)
    (coinbase : Address) : Except GoError (Packing Hash State Tx Receipt) :=
  let env := { env with gasPool := some (env.gasPool.getD env.header.gasLimit) }
  K.loop coinbase ⟨env, txs, [], []⟩

section Loop
variable {K} {coinbase : Address} {s s' : Packing Hash State Tx Receipt}

theorem loop_done (h : K.turn coinbase s = .ok none) : K.loop coinbase s = .ok s := by
  rw [loop]
  split <;> simp_all

theorem loop_next (h : K.turn coinbase s = .ok (some s')) :
    K.loop coinbase s = K.loop coinbase s' := by
  rw [loop]
  split <;> simp_all

theorem loop_preserves {P : Packing Hash State Tx Receipt → Prop}
    (hturn : ∀ s s', P s → K.turn coinbase s = .ok (some s') → P s') (hs : P s)
    (h : K.loop coinbase s = .ok s') : P s' := by
  fun_induction loop K coinbase s with
  | case1 => cases h
  | case2 =>
    cases h
    exact hs
  | case3 s s₁ hnext ih => exact ih (hturn s s₁ hs hnext) h

end Loop

end CommitChain

namespace WorkChain
variable {Hash State Tx Receipt : Type} (W : WorkChain Hash State Tx Receipt)

/-- What execution is assumed to do: `Prepare` does not touch the root, and a transaction takes gas
from the pool and does the same with more of it. -/
structure Regular : Prop where
  prepare_prepare : ∀ s tx n tx' n', W.prepare (W.prepare s tx n) tx' n' = W.prepare s tx' n'
  root_prepare : ∀ b s tx n, W.intermediateRoot b (W.prepare s tx n) = W.intermediateRoot b s
  pool_le : ∀ gp coinbase s header tx, (W.applyTransaction gp coinbase s header tx).1 ≤ gp
  sufficient : ∀ gp gp₁ gp' coinbase s header tx applied,
    W.applyTransaction gp coinbase s header tx = (gp', .ok applied) → gp ≤ gp₁ →
    W.applyTransaction gp₁ coinbase s header tx = (gp₁-(gp-gp'), .ok applied)

/-- The same state, but for the mark of the transaction that was tried last. -/
def SameState (s t : State) : Prop := s = t ∨ ∃ tx n, s = W.prepare t tx n

variable {W}

variable {header : Header Hash}

theorem Regular.left_le (hW : W.Regular) {gp gp' : UInt64} {coinbase : Address} {s : State}
    {tx : Tx} {r : Except GoError (Applied State Receipt)}
    (h : W.applyTransaction gp coinbase s header tx = (gp', r)) : gp' ≤ gp := by
  have hle := hW.pool_le gp coinbase s header tx
  rwa [h] at hle

theorem SameState.prepare_eq (hW : W.Regular) {s t : State} (h : W.SameState s t) (tx : Tx) (n : ℕ) :
    W.prepare s tx n = W.prepare t tx n := by
  rcases h with rfl | ⟨tx', n', rfl⟩
  · rfl
  · exact hW.prepare_prepare ..

theorem SameState.root_eq (hW : W.Regular) {s t : State} (h : W.SameState s t) (b : Bool) :
    W.intermediateRoot b s = W.intermediateRoot b t := by
  rcases h with rfl | ⟨tx', n', rfl⟩
  · rfl
  · exact hW.root_prepare ..

theorem Executes.snoc {e e' : ExecState State Receipt} {txs : List Tx}
    (h : W.Executes header e txs e') {tx : Tx} {gp : UInt64} {applied : Applied State Receipt}
    (hgas : paramsTxGas ≤ e'.gasPool)
    (happly : W.applyTransaction e'.gasPool 0 (W.prepare e'.state tx e'.receipts.length)
      { header with gasUsed := e'.gasUsed } tx = (gp, .ok applied)) :
    W.Executes header e (txs ++ [tx]) (e'.apply gp applied) := by
  induction h with
  | nil e => exact .cons hgas happly (.nil _)
  | cons hgas₁ happly₁ _ ih => exact .cons hgas₁ happly₁ (ih hgas happly)

end WorkChain

namespace CommitChain
variable {Hash State Tx Receipt : Type} {K : CommitChain Hash State Tx Receipt}

/-- The leader has reached the state of an execution of the transactions it kept, with at most as
much gas left. -/
structure Follows (K : CommitChain Hash State Tx Receipt) (header : Header Hash)
    (start : ExecState State Receipt) (s : Packing Hash State Tx Receipt)
    (e : ExecState State Receipt) : Prop where
  executes : K.Executes header start s.retTxs e
  state : K.SameState s.env.state e.state
  gasPool : s.env.gasPool.getD 0 ≤ e.gasPool
  header : s.env.header = { header with gasUsed := e.gasUsed }
  receipts : s.env.receipts = e.receipts
  tcount : s.env.tcount = e.receipts.length

variable {header : Header Hash}

/-- The miner has no more gas left than the verifier, and what sufficed there suffices here. -/
theorem Follows.turned {start e : ExecState State Receipt}
    {s s' : Packing Hash State Tx Receipt} {tx : Tx} (hK : K.Regular)
    (h : K.Follows header start s e) (hturn : K.Turned 0 s tx s') :
    ∃ e', K.Follows header start s' e' := by
  cases hturn with
  | dropped txs => exact ⟨e, { h with }⟩
  | @failed txs gp err happly =>
    exact ⟨e, { h with
      state := .inr ⟨tx, _, h.state.prepare_eq hK tx _⟩
      gasPool := UInt64.le_trans (hK.left_le happly) h.gasPool }⟩
  | @executed txs number gp applied hgas happly =>
    have hle := hK.left_le happly
    have hsame := hK.sufficient _ e.gasPool _ _ _ _ _ _ happly h.gasPool
    rw [h.state.prepare_eq hK, h.tcount, h.header] at hsame
    refine ⟨e.apply _ applied, h.executes.snoc (UInt64.le_trans hgas h.gasPool) hsame, .inl rfl, ?_,
      ?_, ?_, ?_⟩
    · have hpool := UInt64.le_iff_toNat_le.mp h.gasPool
      have hused := UInt64.le_iff_toNat_le.mp hle
      change gp ≤ e.gasPool-(s.env.gasPool.getD 0-gp)
      rw [UInt64.le_iff_toNat_le, UInt64.toNat_sub_of_le _ _ ?_, UInt64.toNat_sub_of_le _ _ hle]
      · omega
      · rw [UInt64.le_iff_toNat_le, UInt64.toNat_sub_of_le _ _ hle]
        omega
    · unfold Work.apply ExecState.apply
      rw [h.header]
    · unfold Work.apply ExecState.apply
      rw [h.receipts]
    · unfold Work.apply ExecState.apply
      simp [h.tcount]

theorem loop_follows {start e : ExecState State Receipt}
    {s s' : Packing Hash State Tx Receipt} (hK : K.Regular) (h : K.Follows header start s e)
    (hloop : K.loop 0 s = .ok s') : ∃ e', K.Follows header start s' e' := by
  refine loop_preserves (P := fun s => ∃ e, K.Follows header start s e) ?_ ⟨e, h⟩ hloop
  rintro s s' ⟨e, he⟩ hturn
  obtain ⟨tx, -, -, hturned⟩ := turn_next hturn
  exact he.turned hK hturned

/-- The verifiers' execution of the transactions that the leader kept succeeds and ends where the
leader's ended. -/
theorem leader_verifier_agree (hK : K.Regular)
    {env : Work Hash State Tx Receipt} (hnew : K.newWork none { header with gasUsed := 0 } = .ok env)
    {txs : TransactionsByPriceAndNonce Tx} {s : Packing Hash State Tx Receipt}
    (hcommit : K.commitTransactions env txs 0 = .ok s) :
    ∃ verifier env', K.newWork none { s.env.header with gasUsed := 0 } = .ok verifier ∧
      K.consensusTransactions verifier s.retTxs = .ok env' ∧
      K.SameState s.env.state env'.state ∧
      (∀ b, K.intermediateRoot b env'.state = K.intermediateRoot b s.env.state) ∧
      env'.receipts = s.env.receipts ∧ env'.header = s.env.header := by
  have henv : ∃ state, env = ⟨state, 0, none, { header with gasUsed := 0 }, [], []⟩ := by
    unfold WorkChain.newWork at hnew
    split at hnew
    · cases hnew
    · obtain ⟨state, -, hstate⟩ := bind_eq_ok_iff.mp hnew
      cases hstate
      exact ⟨state, rfl⟩
  obtain ⟨state, rfl⟩ := henv
  let start : ExecState State Receipt := ⟨state, header.gasLimit, 0, []⟩
  let fresh : Work Hash State Tx Receipt :=
    ⟨state, 0, some header.gasLimit, { header with gasUsed := 0 }, [], []⟩
  have hstart : K.Follows header start ⟨fresh, txs, [], []⟩ start :=
    ⟨.nil _, .inl rfl, UInt64.le_refl _, rfl, rfl, rfl⟩
  obtain ⟨e, he⟩ := loop_follows hK hstart hcommit
  have hfresh : fresh.Represents header start := ⟨rfl, rfl, rfl, rfl, rfl⟩
  obtain ⟨env', hrun, hrep⟩ :=
    (WorkChain.foldlM_consensusTransaction_iff (W := K.toWorkChain) hfresh).mpr he.executes
  have hreset : ({ s.env.header with gasUsed := 0 } : Header Hash) = { header with gasUsed := 0 } := by
    rw [he.header]
  have hsame : K.SameState s.env.state env'.state := by
    rw [hrep.state]
    exact he.state
  refine ⟨_, env', (congrArg (K.newWork none) hreset).trans hnew, hrun, hsame,
    fun b => (hsame.root_eq hK b).symm, ?_, ?_⟩
  · rw [hrep.receipts, he.receipts]
  · rw [hrep.header, he.header]

/-- The adding machine, on which transaction 9 uses up gas and fails. -/
def pickyChain : CommitChain ℕ ℕ ℕ ℕ :=
  { addingChain with
    applyTransaction := fun gp _ state _ tx =>
      if gp < 21000 then (gp, .error errGasLimitReached)
      else (gp-21000, if tx = 9 then .error errNonceTooHigh else .ok ⟨tx, 21000, state+tx⟩)
    isEIP155 := fun _ => true
    numbers := fun tx => some [UInt32.ofNat tx]
    isProtected := fun _ => false
    sender := fun tx => BitVec.ofNat 160 tx
    price := Int.ofNat }

theorem pickyChain_apply {gp gp' : UInt64} {coinbase : Address} {state : ℕ} {header : Header ℕ}
    {tx : ℕ} {r : Except GoError (Applied ℕ ℕ)} :
    pickyChain.applyTransaction gp coinbase state header tx = (gp', r) ↔
      (gp < 21000 ∧ gp' = gp ∧ r = .error errGasLimitReached) ∨
      (¬ gp < 21000 ∧ gp' = gp-21000 ∧
        r = if tx = 9 then .error errNonceTooHigh else .ok ⟨tx, 21000, state+tx⟩) := by
  change (if gp < 21000 then _ else _) = _ ↔ _
  split_ifs <;> simp [*, eq_comm]

theorem pickyChain_regular : pickyChain.Regular where
  prepare_prepare := fun _ _ _ _ _ => rfl
  root_prepare := fun _ _ _ _ => rfl
  pool_le := by
    intro gp coinbase s header tx
    rcases pickyChain_apply.mp (Prod.mk.eta (p := pickyChain.applyTransaction gp coinbase s header
      tx)).symm with ⟨-, hgp, -⟩ | ⟨hlt, hgp, -⟩
    · exact UInt64.le_of_eq hgp
    · rw [hgp]
      exact UInt64.sub_le (UInt64.not_lt.mp hlt)
  sufficient := by
    intro gp gp₁ gp' coinbase s header tx applied h hle
    rcases pickyChain_apply.mp h with ⟨-, -, hr⟩ | ⟨hlt, rfl, hr⟩
    · cases hr
    · refine pickyChain_apply.mpr (.inr ⟨?_, ?_, hr⟩)
      · exact UInt64.not_lt.mpr (UInt64.le_trans (UInt64.not_lt.mp hlt) hle)
      · have hused : gp-(gp-21000) = 21000 := by
          rw [UInt64.sub_eq_add_neg, UInt64.neg_sub, UInt64.add_comm, UInt64.sub_add_cancel]
        rw [hused]

def pickyTxs : TransactionsByPriceAndNonce ℕ := ⟨∅, [9, 3]⟩

theorem pop_pickyTxs : pickyChain.pop pickyTxs = ⟨∅, [3]⟩ := by
  simp [pop, pickyTxs, Heap.pop, swap, down]

theorem shift_last (tx : ℕ) : pickyChain.shift ⟨∅, [tx]⟩ = ⟨∅, []⟩ := by
  simp [shift, pop, TransactionsByPriceAndNonce.behind, Heap.pop, swap, down]

def pickyWork (state tcount : ℕ) (gp gasUsed : UInt64) (txs : List ℕ) : Work ℕ ℕ ℕ ℕ :=
  ⟨state, tcount, some gp, { addingProposal 0 0 0 with gasUsed := gasUsed }, txs, txs⟩

theorem pickyChain_packs :
    pickyChain.loop 0 ⟨pickyWork 5 0 100000 0 [], pickyTxs, [], []⟩ =
      .ok ⟨pickyWork 8 1 58000 21000 [3], ⟨∅, []⟩, [3], [3]⟩ := by
  have hfirst : pickyChain.turn 0 ⟨pickyWork 5 0 100000 0 [], pickyTxs, [], []⟩ =
      .ok (some ⟨pickyWork 5 0 79000 0 [], pickyChain.pop pickyTxs, [], []⟩) := rfl
  have hsecond : pickyChain.turn 0 ⟨pickyWork 5 0 79000 0 [], ⟨∅, [3]⟩, [], []⟩ =
      .ok (some ⟨pickyWork 8 1 58000 21000 [3], pickyChain.shift ⟨∅, [3]⟩, [3], [3]⟩) := rfl
  rw [loop_next hfirst, pop_pickyTxs, loop_next hsecond, shift_last]
  exact loop_done rfl

theorem pickyChain_agrees : ∃ verifier env',
    pickyChain.newWork none { addingProposal 0 0 0 with gasUsed := 0 } = .ok verifier ∧
    pickyChain.consensusTransactions verifier [3] = .ok env' ∧ env'.receipts = [3] ∧
    env'.header.gasUsed = 21000 := by
  have hwork : pickyChain.newWork none { addingProposal 0 0 0 with gasUsed := 0 } =
      .ok ⟨5, 0, none, { addingProposal 0 0 0 with gasUsed := 0 }, [], []⟩ := rfl
  have hpacks : pickyChain.commitTransactions
      ⟨5, 0, none, { addingProposal 0 0 0 with gasUsed := 0 }, [], []⟩ pickyTxs 0 =
      .ok ⟨pickyWork 8 1 58000 21000 [3], ⟨∅, []⟩, [3], [3]⟩ := pickyChain_packs
  obtain ⟨verifier, env', hnew, hrun, -, -, hreceipts, hheader⟩ :=
    leader_verifier_agree pickyChain_regular hwork hpacks
  exact ⟨verifier, env', hnew, hrun, hreceipts, congrArg (fun h => h.gasUsed) hheader⟩

end CommitChain

end MatrixNode
