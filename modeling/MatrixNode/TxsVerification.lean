import MatrixNode.BlockVerifyProcess

/-! What a validator has checked when it votes for a block. -/
namespace MatrixNode
open GoLib

variable {Hash State Tx Receipt : Type} {D : DposEngine Hash}

section Import
variable (W : WorkChain Hash State Tx Receipt)

def WorkChain.ExecutesOnParent (header : Header Hash) (txs : List Tx)
    (e : ExecState State Receipt) : Prop :=
  ∃ parent state, W.getBlockByHash header.parentHash = some parent ∧
    W.stateAt parent.root = .ok state ∧
    W.Executes header ⟨state, header.gasLimit, 0, []⟩ txs e

/-- The block would pass the transaction-root check of `ValidateBody` and `ValidateState`
with what the execution left. -/
def WorkChain.PassesImport [DecidableEq Hash] (header : Header Hash) (txs : List Tx)
    (e : ExecState State Receipt) : Prop :=
  W.validateTxRoot ⟨header, txs, []⟩ = .ok () ∧
    W.validateState ⟨header, txs, []⟩ (W.intermediateRoot (W.isEIP158 header.number) e.state)
      e.receipts e.gasUsed = .ok ()

def WorkChain.RootsDerived (header : Header Hash) (txs : List Tx) : Prop :=
  header.txHash = W.deriveShaTxs txs ∧ ∀ e, W.ExecutesOnParent header txs e →
    header.receiptHash = W.deriveShaReceipts e.receipts ∧ header.bloom = W.createBloom e.receipts

end Import

def DposEngine.NoSecondPreimage (D : DposEngine Hash) (header : Header Hash) : Prop :=
  ∀ h, D.headerHash h = D.hashNoSignsAndNonce header → h = header.toUnsignedHeader

variable {W : WorkChain Hash State Tx Receipt}

variable {header : Header Hash} {txs : List Tx}

theorem WorkChain.ExecutesOnParent.unique {e e' : ExecState State Receipt}
    (h : W.ExecutesOnParent header txs e) (h' : W.ExecutesOnParent header txs e') : e = e' := by
  obtain ⟨parent, state, hparent, hstate, hexec⟩ := h
  obtain ⟨parent', state', hparent', hstate', hexec'⟩ := h'
  have hp : parent' = parent := Option.some.inj (hparent'.symm.trans hparent)
  subst hp
  have hs : state' = state := Except.ok.inj (hstate'.symm.trans hstate)
  subst hs
  exact hexec.unique hexec'

/-- The pool is made from the gas limit when the first transaction asks for it. -/
theorem WorkChain.exists_executesOnParent {work work' : Work Hash State Tx Receipt}
    (hnew : W.newWork none { header with gasUsed := 0 } = .ok work)
    (hrun : W.consensusTransactions work txs = .ok work') :
    ∃ e, W.ExecutesOnParent header txs e ∧ work'.Represents header e := by
  unfold newWork at hnew
  split at hnew
  · cases hnew
  · rename_i parent hparent
    obtain ⟨state, hstate, hwork⟩ := bind_eq_ok_iff.mp hnew
    cases hwork
    let env : Work Hash State Tx Receipt :=
      ⟨state, 0, some header.gasLimit, { header with gasUsed := 0 }, [], []⟩
    have hrep : env.Represents header ⟨state, header.gasLimit, 0, []⟩ := ⟨rfl, rfl, rfl, rfl, rfl⟩
    obtain ⟨e, he, hexec⟩ := exists_executes hrep hrun
    exact ⟨e, ⟨parent, state, hparent, hstate, hexec⟩, he⟩

variable [DecidableEq Hash]

theorem WorkChain.passesImport_iff {e : ExecState State Receipt} :
    W.PassesImport header txs e ↔ header.txHash = W.deriveShaTxs txs ∧
      header.gasUsed = e.gasUsed ∧ header.bloom = W.createBloom e.receipts ∧
      header.receiptHash = W.deriveShaReceipts e.receipts ∧
      header.root = W.intermediateRoot (W.isEIP158 header.number) e.state := by
  unfold PassesImport
  rw [W.validateTxRoot_eq_ok_iff, W.validateState_eq_ok_iff]

variable {result : RetChan Tx}

/-- Only the comparison of the hashes is left between the execution and the verdict. -/
theorem txsVerdict_success {req req' : ReqData D State Tx Receipt}
    (h : txsVerdict W req result = .ok (req', .success)) :
    ∃ e, W.ExecutesOnParent req.header result.rxs e ∧
      D.headerHash { req.header.toUnsignedHeader with
        gasUsed := e.gasUsed
        root := W.intermediateRoot (W.isEIP158 req.header.number) e.state } = req.hash ∧
      req' = { req with txs := result.rxs, receipts := e.receipts, stateDB := some e.state } := by
  unfold txsVerdict at h
  split at h
  · cases h
  dsimp only at h
  split at h
  · cases h
  · cases h
  rename_i work hnew
  split at h
  · cases h
  · cases h
  rename_i work' hrun
  obtain ⟨e, hexec, hrep⟩ := WorkChain.exists_executesOnParent hnew hrun
  split_ifs at h with hhash
  · cases h
  rw [not_not] at hhash
  refine ⟨e, hexec, ?_, ?_⟩
  · rw [hrep.header, hrep.state] at hhash
    exact hhash
  · rw [hrep.receipts, hrep.state] at h
    cases h
    rfl

theorem VerifyProcess.verdict_eq_some {p : VerifyProcess D State Tx Receipt}
    {r : ReqData D State Tx Receipt × LocalVerifyResult} (h : p.verdict W result = .ok (some r)) :
    ∃ req, p.curProcessReq = some req ∧ txsVerdict W req result = .ok r := by
  unfold verdict at h
  split_ifs at h
  · cases h
  · cases h
  split at h
  · cases h
  · rename_i req hreq
    refine ⟨req, hreq, ?_⟩
    cases hv : txsVerdict W req result with
    | error err =>
      rw [hv] at h
      cases h
    | ok r' =>
      rw [hv] at h
      cases h
      rfl

/-- After agreement the block passes the import checks exactly when its proposer derived the three
fields that were not compared. -/
theorem VerifyProcess.verdict_passesImport_iff {p : VerifyProcess D State Tx Receipt}
    {result : RetChan Tx} {req : ReqData D State Tx Receipt}
    (hcol : D.NoSecondPreimage req.header)
    (h : p.verdict W result = .ok (some (req, .success))) :
    (∃ e, W.ExecutesOnParent req.header result.rxs e ∧ req.receipts = e.receipts ∧
      req.stateDB = some e.state ∧ W.PassesImport req.header result.rxs e) ↔
      W.RootsDerived req.header result.rxs := by
  obtain ⟨req₀, -, hverdict⟩ := verdict_eq_some h
  obtain ⟨e, hexec, hhash, hreq⟩ := txsVerdict_success hverdict
  subst hreq
  have hsame := hcol _ (hhash.trans req₀.hash_eq)
  have hgas : e.gasUsed = req₀.header.gasUsed :=
    congrArg (fun x : UnsignedHeader Hash => x.gasUsed) hsame
  have hroot : W.intermediateRoot (W.isEIP158 req₀.header.number) e.state = req₀.header.root :=
    congrArg (fun x : UnsignedHeader Hash => x.root) hsame
  constructor
  · intro hpass
    obtain ⟨e', hexec', -, -, hpass⟩ := hpass
    obtain ⟨htx, -, hbloom, hreceipt, -⟩ := WorkChain.passesImport_iff.mp hpass
    refine ⟨htx, ?_⟩
    intro e'' hexec''
    rw [hexec''.unique hexec']
    exact ⟨hreceipt, hbloom⟩
  · intro hroots
    obtain ⟨hreceipt, hbloom⟩ := hroots.2 e hexec
    refine ⟨e, hexec, rfl, rfl, ?_⟩
    exact WorkChain.passesImport_iff.mpr ⟨hroots.1, hgas.symm, hbloom, hreceipt, hroot.symm⟩

section Sample

def addingChain : WorkChain ℕ ℕ ℕ ℕ where
  trieRoot := fun items => items.foldl (fun n b => n*1000+beNat b+1) 0
  txRlp := fun tx => [UInt8.ofNat tx]
  receiptRlp := fun receipt => [UInt8.ofNat receipt]
  logsBloom := fun receipt => BitVec.ofNat 2048 receipt
  calcUncleHash := List.length
  getBlockByHash := fun hash =>
    some { emptyHeader with leader := 1, root := hash, number := 1, gasLimit := 100000 }
  stateAt := fun root => .ok root
  isEIP158 := fun _ => true
  prepare := fun state _ _ => state
  applyTransaction := fun gp _ state _ tx => (gp-21000, .ok ⟨tx, 21000, state+tx⟩)
  applyWithoutPool := fun _ state _ tx => .ok ⟨tx, 0, state+tx⟩
  intermediateRoot := fun _ state => state

def addingProposal (txHash receiptHash : ℕ) (bloom : Bloom) : Header ℕ :=
  { emptyHeader with
    parentHash := 5, leader := 1, root := 7, txHash := txHash, receiptHash := receiptHash, bloom := bloom
    number := 2, gasLimit := 100000, gasUsed := 0+21000, time := 1 }

def proposalEngine (header : Header ℕ) : DposEngine ℕ where
  headerHash := fun h => if h = header.toUnsignedHeader then 1 else 0
  recover := fun _ _ => none
  broadCastNodes := []

theorem proposalEngine_noSecondPreimage (header : Header ℕ) :
    (proposalEngine header).NoSecondPreimage header := by
  intro h hh
  change (if h = header.toUnsignedHeader then 1 else 0) =
    if header.toUnsignedHeader = header.toUnsignedHeader then 1 else 0 at hh
  rw [if_pos rfl] at hh
  split_ifs at hh with heq
  exact heq

def waitingProcess (header : Header ℕ) : VerifyProcess (proposalEngine header) ℕ ℕ ℕ where
  number := 2
  role := .validator
  state := .txsVerify
  curProcessReq := some (newReqData (proposalEngine header) 1 header 0 [])
  txsAcquireSeq := 1
  outbox := []

theorem waitingProcess_verdict (txHash receiptHash : ℕ) (bloom : Bloom) :
    ∃ req, (waitingProcess (addingProposal txHash receiptHash bloom)).verdict addingChain
        ⟨[2], none, 1⟩ = .ok (some (req, .success)) ∧
      req.header = addingProposal txHash receiptHash bloom := by
  let req : ReqData (proposalEngine (addingProposal txHash receiptHash bloom)) ℕ ℕ ℕ :=
    newReqData _ 1 (addingProposal txHash receiptHash bloom) 0 []
  have hverdict : txsVerdict addingChain req ⟨[2], none, 1⟩ =
      .ok ({ req with txs := [2], receipts := [2], stateDB := some 7 }, .success) :=
    if_neg (not_not.mpr rfl)
  refine ⟨{ req with txs := [2], receipts := [2], stateDB := some 7 }, ?_, rfl⟩
  change some <$> txsVerdict addingChain req ⟨[2], none, 1⟩ = _
  rw [hverdict]
  rfl

/-- A block with made-up roots and bloom is agreed to and fails its import. -/
theorem forged_roots_agreed :
    (proposalEngine (addingProposal 0 0 0)).NoSecondPreimage (addingProposal 0 0 0) ∧
      ∃ req, (waitingProcess (addingProposal 0 0 0)).verdict addingChain ⟨[2], none, 1⟩ =
          .ok (some (req, .success)) ∧
        (∃ e, addingChain.ExecutesOnParent req.header [2] e) ∧
        ∀ e, ¬ addingChain.PassesImport req.header [2] e := by
  refine ⟨proposalEngine_noSecondPreimage _, ?_⟩
  obtain ⟨req, hreq, hheader⟩ := waitingProcess_verdict 0 0 0
  refine ⟨req, hreq, ?_⟩
  rw [hheader]
  constructor
  · obtain ⟨req₀, hreq₀, hverdict⟩ := VerifyProcess.verdict_eq_some hreq
    obtain ⟨e, hexec, -⟩ := txsVerdict_success hverdict
    cases hreq₀
    exact ⟨e, hexec⟩
  · intro e hpass
    have htx := (WorkChain.passesImport_iff.mp hpass).1
    exact absurd htx (by decide)

/-- A proposer that derived the three fields: the transaction 2 has root 3, receipt root 3
and bloom 2. -/
theorem verdict_passesImport_derived :
    ∃ req, (waitingProcess (addingProposal 3 3 2)).verdict addingChain ⟨[2], none, 1⟩ =
        .ok (some (req, .success)) ∧
      ∃ e, addingChain.ExecutesOnParent req.header [2] e ∧ req.receipts = e.receipts ∧
        req.stateDB = some e.state ∧ addingChain.PassesImport req.header [2] e := by
  obtain ⟨req, hreq, hheader⟩ := waitingProcess_verdict 3 3 2
  have hcol : (proposalEngine (addingProposal 3 3 2)).NoSecondPreimage req.header := by
    rw [hheader]
    exact proposalEngine_noSecondPreimage _
  refine ⟨req, hreq, (VerifyProcess.verdict_passesImport_iff hcol hreq).mpr ?_⟩
  rw [hheader]
  refine ⟨by decide, ?_⟩
  intro e hexec
  obtain ⟨parent, state, hparent, hstate, hexec⟩ := hexec
  cases hparent
  cases hstate
  cases hexec with
  | cons _ happly hrest =>
    cases happly
    cases hrest
    refine ⟨by decide, ?_⟩
    simp [BlockHashing.createBloom, ExecState.apply, addingChain, addingProposal]

end Sample

end MatrixNode
