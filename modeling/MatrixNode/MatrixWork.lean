import MatrixNode.ChainBlock
import MatrixNode.StepRun

/-! `matrixwork/work.go`: a verifier executes the transactions of a proposed header on the
state of its parent. The virtual machine is a parameter. -/
namespace MatrixNode
open GoLib

def paramsTxGas : UInt64 := 21000

structure Applied (State Receipt : Type) where
  receipt : Receipt
  gas : UInt64
  state : State

/-- What executing a block uses of the node. `applyTransaction` is given the gas pool, the coinbase,
the state, the header with the gas used so far, and the transaction. -/
structure WorkChain (Hash State Tx Receipt : Type) extends BlockHashing Hash Tx Receipt where
  getBlockByHash : Hash → Option (Header Hash)
  stateAt : Hash → Except GoError State
  isEIP158 : ℕ → Bool
  prepare : State → Tx → ℕ → State
  applyTransaction : UInt64 → Address → State → Header Hash → Tx →
    UInt64 × Except GoError (Applied State Receipt)
  applyWithoutPool : Address → State → Header Hash → Tx → Except GoError (Applied State Receipt)
  intermediateRoot : Bool → State → Hash

structure Work (Hash State Tx Receipt : Type) where
  state : State
  tcount : ℕ
  gasPool : Option UInt64
  header : Header Hash
  txs : List Tx
  receipts : List Receipt

namespace WorkChain
variable {Hash State Tx Receipt : Type} (W : WorkChain Hash State Tx Receipt)
  (env : Work Hash State Tx Receipt)

/-- A parent that the chain does not have is a nil pointer. -/
def newWork (gasPool : Option UInt64) (header : Header Hash) :
    Except GoError (Work Hash State Tx Receipt) :=
  match W.getBlockByHash header.parentHash with
  | none => .error nilDereference
  | some parent => do
    let state ← W.stateAt parent.root
    pure ⟨state, 0, gasPool, header, [], []⟩

/-- A transaction that fails is taken back from the state, but not from the pool. -/
def commitTransaction (tx : Tx) (coinbase : Address) (gp : UInt64) :
    Work Hash State Tx Receipt × Except GoError Unit :=
  match W.applyTransaction gp coinbase env.state env.header tx with
  | (gp,.error err) => ({ env with gasPool := some gp }, .error err)
  | (gp,.ok applied) =>
    ({ env with
      gasPool := some gp
      state := applied.state
      header := { env.header with gasUsed := env.header.gasUsed+applied.gas }
      txs := env.txs ++ [tx]
      receipts := env.receipts ++ [applied.receipt] }, .ok ())

def consensusTransaction (tx : Tx) : Except GoError (Work Hash State Tx Receipt) :=
  let gp := env.gasPool.getD 0
  if gp < paramsTxGas then .error (.error "Not enough gas for further transactions")
  else
    let env := { env with state := W.prepare env.state tx env.tcount }
    -- No coinbase is known yet: the fees go to the zero address.
    match W.commitTransaction env tx 0 gp with
    | (env,.ok ()) => .ok { env with tcount := env.tcount+1 }
    | (_,.error err) => .error err

def consensusTransactions (txs : List Tx) : Except GoError (Work Hash State Tx Receipt) :=
  let env := { env with gasPool := some (env.gasPool.getD env.header.gasLimit) }
  txs.foldlM W.consensusTransaction env

/-- The transactions of a broadcast block; what fails is left out. -/
def processBroadcastTransactions (txs : List Tx) : Work Hash State Tx Receipt :=
  txs.foldl (fun env tx =>
    match W.applyWithoutPool 0 env.state env.header tx with
    | .error _ => env
    | .ok applied =>
      { env with
        state := applied.state
        header := { env.header with gasUsed := env.header.gasUsed+applied.gas }
        txs := env.txs ++ [tx]
        receipts := env.receipts ++ [applied.receipt] }) env

/-- `Finalize` writes the root into the header it is given; the other fields that a block
derives from its contents are only set in the block. -/
def finalize (header : Header Hash) (state : State) (txs : List Tx)
    (uncles : List (Header Hash)) (receipts : List Receipt) : Header Hash × Block Hash Tx :=
  let header := { header with root := W.intermediateRoot (W.isEIP158 header.number) state }
  (header, W.newBlock header txs uncles receipts)

end WorkChain

structure ExecState (State Receipt : Type) where
  state : State
  gasPool : UInt64
  gasUsed : UInt64
  receipts : List Receipt

def ExecState.apply {State Receipt : Type} (e : ExecState State Receipt) (gp : UInt64)
    (applied : Applied State Receipt) : ExecState State Receipt :=
  ⟨applied.state, gp, e.gasUsed+applied.gas, e.receipts ++ [applied.receipt]⟩

inductive WorkChain.Executes {Hash State Tx Receipt : Type} (W : WorkChain Hash State Tx Receipt)
    (header : Header Hash) : ExecState State Receipt → List Tx → ExecState State Receipt → Prop where
  | nil (e : ExecState State Receipt) : Executes W header e [] e
  | cons {e e' : ExecState State Receipt} {tx : Tx} {txs : List Tx} {gp : UInt64}
      {applied : Applied State Receipt} (hgas : paramsTxGas ≤ e.gasPool)
      (happly : W.applyTransaction e.gasPool 0 (W.prepare e.state tx e.receipts.length)
        { header with gasUsed := e.gasUsed } tx = (gp, .ok applied))
      (hrest : Executes W header (e.apply gp applied) txs e') :
      Executes W header e (tx :: txs) e'

structure Work.Represents {Hash State Tx Receipt : Type} (env : Work Hash State Tx Receipt)
    (header : Header Hash) (e : ExecState State Receipt) : Prop where
  state : env.state = e.state
  gasPool : env.gasPool = some e.gasPool
  header : env.header = { header with gasUsed := e.gasUsed }
  receipts : env.receipts = e.receipts
  tcount : env.tcount = e.receipts.length

def Work.apply {Hash State Tx Receipt : Type} (env : Work Hash State Tx Receipt) (tx : Tx)
    (gp : UInt64) (applied : Applied State Receipt) : Work Hash State Tx Receipt where
  state := applied.state
  tcount := env.tcount+1
  gasPool := some gp
  header := { env.header with gasUsed := env.header.gasUsed+applied.gas }
  txs := env.txs ++ [tx]
  receipts := env.receipts ++ [applied.receipt]

namespace Work.Represents
variable {Hash State Tx Receipt : Type} {env : Work Hash State Tx Receipt} {header : Header Hash}
  {e e' : ExecState State Receipt}

theorem unique (h : env.Represents header e) (h' : env.Represents header e') : e = e' := by
  have hs : e.state = e'.state := h.state.symm.trans h'.state
  have hg : e.gasPool = e'.gasPool := Option.some.inj (h.gasPool.symm.trans h'.gasPool)
  have hu : e.gasUsed = e'.gasUsed :=
    congrArg (fun x : Header Hash => x.gasUsed) (h.header.symm.trans h'.header)
  have hr : e.receipts = e'.receipts := h.receipts.symm.trans h'.receipts
  cases e
  cases e'
  simp_all only

theorem apply (h : env.Represents header e) (tx : Tx) (gp : UInt64)
    (applied : Applied State Receipt) :
    (env.apply tx gp applied).Represents header (e.apply gp applied) where
  state := rfl
  gasPool := rfl
  header := by
    unfold Work.apply ExecState.apply
    rw [h.header]
  receipts := by
    unfold Work.apply ExecState.apply
    rw [h.receipts]
  tcount := by
    unfold Work.apply ExecState.apply
    simp [h.tcount]

end Work.Represents

namespace WorkChain
variable {Hash State Tx Receipt : Type} {W : WorkChain Hash State Tx Receipt}

variable {header : Header Hash} {env : Work Hash State Tx Receipt} {e : ExecState State Receipt}

variable {txs : List Tx}

theorem Executes.unique {e₁ e₂ : ExecState State Receipt} (h₁ : W.Executes header e txs e₁)
    (h₂ : W.Executes header e txs e₂) : e₁ = e₂ := by
  induction h₁ with
  | nil e =>
    cases h₂
    rfl
  | cons hgas happly _ ih =>
    cases h₂ with
    | cons hgas' happly' hrest' =>
      rw [happly] at happly'
      cases happly'
      exact ih hrest'

variable {env' : Work Hash State Tx Receipt}

theorem consensusTransaction_eq_ok_iff (hrep : env.Represents header e) {tx : Tx} :
    W.consensusTransaction env tx = .ok env' ↔ paramsTxGas ≤ e.gasPool ∧ ∃ gp applied,
      W.applyTransaction e.gasPool 0 (W.prepare e.state tx e.receipts.length)
        { header with gasUsed := e.gasUsed } tx = (gp, .ok applied) ∧
      env' = env.apply tx gp applied := by
  unfold consensusTransaction commitTransaction
  rw [ite_error_eq_ok, hrep.gasPool]
  apply and_congr UInt64.not_lt
  simp only [← hrep.header, ← hrep.state, ← hrep.tcount, Option.getD_some]
  rcases W.applyTransaction e.gasPool 0 (W.prepare env.state tx env.tcount) env.header tx with
    ⟨gp, err | applied⟩
  · simp
  · simp [Work.apply, eq_comm]

/-- Work and execution go side by side, one transaction at a time. -/
theorem foldlM_consensusTransaction_iff {e' : ExecState State Receipt}
    (hrep : env.Represents header e) :
    (∃ env', txs.foldlM W.consensusTransaction env = .ok env' ∧ env'.Represents header e') ↔
      W.Executes header e txs e' := by
  induction txs generalizing env e with
  | nil =>
    constructor
    · intro h
      obtain ⟨env', henv, hrep'⟩ := h
      cases henv
      rw [hrep.unique hrep']
      exact .nil e'
    · intro h
      cases h
      exact ⟨env, rfl, hrep⟩
  | cons tx txs ih =>
    simp only [List.foldlM_cons, bind_eq_ok_iff]
    constructor
    · intro h
      obtain ⟨env', ⟨env₁, h₁, hrest⟩, hrep'⟩ := h
      obtain ⟨hgas, gp, applied, happly, rfl⟩ := (consensusTransaction_eq_ok_iff hrep).mp h₁
      exact .cons hgas happly ((ih (hrep.apply tx gp applied)).mp ⟨env', hrest, hrep'⟩)
    · intro h
      cases h with
      | @cons _ _ _ _ gp applied hgas happly hrest =>
        obtain ⟨env', hrest', hrep'⟩ := (ih (hrep.apply tx gp applied)).mpr hrest
        have h₁ := (consensusTransaction_eq_ok_iff hrep).mpr ⟨hgas, gp, applied, happly, rfl⟩
        exact ⟨env', ⟨_, h₁, hrest'⟩, hrep'⟩

theorem exists_executes (hrep : env.Represents header e)
    (h : txs.foldlM W.consensusTransaction env = .ok env') :
    ∃ e', env'.Represents header e' ∧ W.Executes header e txs e' := by
  have hstep : ∀ (s : Work Hash State Tx Receipt) tx s', True →
      (∃ e, s.Represents header e) → W.consensusTransaction s tx = .ok s' →
      ∃ e, s'.Represents header e := by
    intro s tx s' _ hs hs'
    obtain ⟨e, he⟩ := hs
    obtain ⟨-, gp, applied, -, rfl⟩ := (consensusTransaction_eq_ok_iff he).mp hs'
    exact ⟨e.apply gp applied, he.apply tx gp applied⟩
  obtain ⟨e', he'⟩ := run_preserves hstep (fun _ _ => trivial) ⟨e, hrep⟩ h
  exact ⟨e', he', (foldlM_consensusTransaction_iff hrep).mp ⟨env', h, he'⟩⟩

end WorkChain

end MatrixNode
