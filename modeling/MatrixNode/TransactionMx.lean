import MatrixNode.TxJson

/-! `Transaction_Mx`: a transaction with the first entry of its extra list once more in fields of its
own. `SetTransactionMx` and `ConvMxtotx` are two different ways back. -/
namespace MatrixNode
open GoLib

structure TransactionMx where
  data : Transaction
  txTypeMx : UInt8
  lockHeight : UInt64
  extraTo : List TxTo

def getTransactionMx (tx : Transaction) : TransactionMx where
  data := tx
  txTypeMx := if 0 < tx.extra.length then (tx.extra.headD ⟨0, 0, []⟩).txType else 0
  lockHeight := 0
  extraTo := []

def setTransactionMx (txMx : TransactionMx) : Transaction :=
  { txMx.data with extra := txMx.data.extra ++ [⟨txMx.txTypeMx, 0, []⟩] }

def convTxtoMxtx (tx : Transaction) : TransactionMx :=
  match tx.extra with
  | [] => ⟨tx, 0, 0, []⟩
  | mx :: _ => ⟨tx, mx.txType, mx.lockHeight, mx.extraTo⟩

def convMxtotx (txMx : TransactionMx) : Transaction :=
  if 0 < txMx.extraTo.length then
    -- The source sets the lock height again if the type is 0, to the same value.
    { txMx.data with extra := txMx.data.extra ++ [⟨txMx.txTypeMx, txMx.lockHeight, txMx.extraTo⟩] }
  else txMx.data

structure MxCodec (Wire : Type) where
  encode : TransactionMx → Wire
  decode : Wire → Except GoError TransactionMx
  decode_encode : ∀ txMx, decode (encode txMx) = .ok txMx

def Transaction.NoFirstRecipients (tx : Transaction) : Prop :=
  ∀ mx ∈ tx.extra.head?, mx.extraTo = []

section Udp
variable {Wire Hash : Type} {tx : Transaction}

theorem convMxtotx_of_noFirstRecipients (h : tx.NoFirstRecipients) :
    convMxtotx (convTxtoMxtx tx) = tx := by
  cases htx : tx.extra with
  | nil =>
    rw [convTxtoMxtx, htx]
    rfl
  | cons mx rest =>
    have hto : mx.extraTo = [] := h mx (by rw [htx]; rfl)
    have hlen : ¬ 0 < mx.extraTo.length := by
      rw [hto]
      exact Nat.lt_irrefl 0
    rw [convTxtoMxtx, htx]
    exact if_neg hlen

theorem length_extra_convMxtotx (h : ¬ tx.NoFirstRecipients) :
    (convMxtotx (convTxtoMxtx tx)).extra.length = tx.extra.length+1 := by
  cases htx : tx.extra with
  | nil =>
    refine absurd ?_ h
    intro mx hmx
    rw [htx] at hmx
    cases hmx
  | cons mx rest =>
    have hto : mx.extraTo ≠ [] := by
      intro hto
      refine h ?_
      intro mx' hmx
      rw [htx] at hmx
      cases hmx
      exact hto
    rw [convTxtoMxtx, htx]
    unfold convMxtotx
    dsimp only
    rw [if_pos (List.length_pos_iff.mpr hto), htx, List.length_append]
    rfl

/-- The transaction arrives with its extra list, its hash and its sender. -/
def UdpKeeps (codec : MxCodec Wire) (C : TxCrypto Hash) (txHash : Transaction → Hash) (signer : Signer)
    (tx : Transaction) : Prop :=
  ∃ txMx, codec.decode (codec.encode (convTxtoMxtx tx)) = .ok txMx ∧
    (convMxtotx txMx).extra = tx.extra ∧ txHash (convMxtotx txMx) = txHash tx ∧
    C.sender signer (convMxtotx txMx) = C.sender signer tx

/-- An entry with recipients arrives twice; everything else arrives as it was. -/
theorem udpKeeps_iff (codec : MxCodec Wire) (C : TxCrypto Hash) (txHash : Transaction → Hash)
    (signer : Signer) (tx : Transaction) :
    UdpKeeps codec C txHash signer tx ↔ tx.NoFirstRecipients := by
  constructor
  · rintro ⟨txMx, hdecode, hextra, -⟩
    rw [codec.decode_encode, Except.ok.injEq] at hdecode
    subst hdecode
    by_contra hfirst
    have hlen := length_extra_convMxtotx hfirst
    rw [hextra] at hlen
    omega
  · intro hnone
    refine ⟨convTxtoMxtx tx, codec.decode_encode _, ?_⟩
    rw [convMxtotx_of_noFirstRecipients hnone]
    exact ⟨rfl, rfl, rfl⟩

def plainMxCodec : MxCodec TransactionMx where
  encode := id
  decode := .ok
  decode_encode := fun _ => rfl

/-- A transaction with a type and no extra recipients arrives as it was. -/
theorem udpKeeps_type_only :
    UdpKeeps plainMxCodec (TxCrypto.echoCrypto (fun _ => true)) NumberedTxs.pairedHash (.eip155 1)
      { TxCrypto.sampleProtectedTx with extra := [⟨1, 0, []⟩] } := by
  refine (udpKeeps_iff _ _ _ _ _).mpr ?_
  intro mx hmx
  cases hmx
  rfl

/-- A signed transaction with one extra recipient arrives with two entries. -/
theorem udp_doubles_recipients :
    (TxCrypto.echoCrypto (fun _ => true)).sender (.eip155 1) NumberedTxs.markedTx = .ok 1024 ∧
    (convMxtotx (convTxtoMxtx NumberedTxs.markedTx)).extra =
      [⟨0, 0, [⟨some 6, 1000, []⟩]⟩, ⟨0, 0, [⟨some 6, 1000, []⟩]⟩] ∧
    ¬ UdpKeeps plainMxCodec (TxCrypto.echoCrypto (fun _ => true)) NumberedTxs.pairedHash (.eip155 1)
      NumberedTxs.markedTx := by
  refine ⟨by decide +kernel, rfl, ?_⟩
  rintro ⟨txMx, hdecode, hextra, -⟩
  cases hdecode
  exact absurd (congrArg List.length hextra) (by decide)

end Udp

end MatrixNode
