import Mathlib.Data.Nat.Bitwise
import MatrixNode.TransactionMx

/-! How transactions travel: `man/peer.go` and the `TxMsg` case of `man/handler.go`. -/
namespace MatrixNode
open GoLib NumberedTxs

def nonceSubOne : UInt64 := 0x0001FFFFFFFFFFFF

structure CachedTx (Hash : Type) where
  data : Transaction
  hash : Option Hash

namespace CachedTx
variable {Hash : Type} (txHash : Transaction → Hash) (tx : CachedTx Hash)

def hashOf : Hash × CachedTx Hash :=
  match tx.hash with
  | some h => (h, tx)
  | none => (txHash tx.data, { tx with hash := some (txHash tx.data) })

def nonce : UInt64 := tx.data.accountNonce

def setNonce (nc : UInt64) : CachedTx Hash :=
  { tx with data := { tx.data with accountNonce := nc } }

/-- The bits of the nonce that travel. -/
def dropAddOne : CachedTx Hash :=
  if nonceAddOne ≤ tx.nonce then tx.setNonce (tx.nonce &&& nonceSubOne) else tx

def restoreAddOne : CachedTx Hash :=
  if tx.nonce < nonceAddOne then tx.setNonce (tx.nonce ||| nonceAddOne) else tx

def sendOne : Hash × CachedTx Hash × Transaction :=
  let (h, tx) := tx.hashOf txHash
  (h, tx, tx.dropAddOne.data)

def sendTransactions (txs : List (CachedTx Hash)) : List (Hash × CachedTx Hash × Transaction) :=
  txs.map (sendOne txHash)

/-- One turn of the `TxMsg` case: a decoded transaction has no cache, and the hash that marks it as
known is computed before the nonce is restored. -/
def receiveOne (data : Transaction) : Hash × CachedTx Hash :=
  let (h, tx) := (⟨data, none⟩ : CachedTx Hash).hashOf txHash
  (h, tx.restoreAddOne)

def handleTxMsg (selfRole : RoleType) (msg : List Transaction) : List (CachedTx Hash) :=
  if selfRole = .broadcast then []
  else msg.map (fun data => (receiveOne txHash data).2)

def Keeps (sent received : CachedTx Hash) : Prop :=
  received.nonce = sent.nonce ∧ (received.hashOf txHash).1 = txHash received.data ∧
    (received.hashOf txHash).1 = (sent.hashOf txHash).1

section Masks

theorem and_nonceSubOne_lt (nc : UInt64) : nc &&& nonceSubOne < nonceAddOne :=
  Nat.lt_of_le_of_lt Nat.and_le_right (by decide)

theorem or_nonceAddOne_ne {nc : UInt64} (h : nc < nonceAddOne) : nc ||| nonceAddOne ≠ nc := by
  intro heq
  rw [UInt64.lt_iff_toNat_lt] at h
  have hle : nonceAddOne.toNat ≤ (nc ||| nonceAddOne).toNat :=
    Nat.right_le_or
  rw [heq] at hle
  omega

theorem nonceAddOne_le_of_bit {nc : UInt64} (h : nc &&& nonceAddOne ≠ 0) : nonceAddOne ≤ nc := by
  by_contra hlt
  rw [UInt64.not_le, UInt64.lt_iff_toNat_lt] at hlt
  have hpow : nonceAddOne.toNat = 2^52 := rfl
  refine h (UInt64.toNat_inj.mp ?_)
  rw [UInt64.toNat_and, hpow, Nat.and_two_pow, Nat.testBit_lt_two_pow hlt]
  rfl

end Masks

section TxMsg
variable {txHash} {tx : CachedTx Hash}

theorem dropAddOne_of_bit (h : tx.nonce &&& nonceAddOne ≠ 0) :
    tx.dropAddOne = tx.setNonce (tx.nonce &&& nonceSubOne) :=
  if_pos (nonceAddOne_le_of_bit h)

theorem restoreAddOne_of_lt (h : tx.nonce < nonceAddOne) :
    tx.restoreAddOne = tx.setNonce (tx.nonce ||| nonceAddOne) :=
  if_pos h

theorem data_hashOf : (tx.hashOf txHash).2.data = tx.data := by
  unfold hashOf
  split <;> rfl

theorem hashOf_receiveOne {data : Transaction} (h : data.accountNonce < nonceAddOne) :
    (receiveOne txHash data).2 = ⟨{ data with accountNonce := data.accountNonce ||| nonceAddOne },
      some (txHash data)⟩ :=
  restoreAddOne_of_lt h

/-- The cached hash is of another nonce than the content. -/
theorem not_keeps_receiveOne (hinj : Function.Injective txHash)
    (hbit : tx.nonce &&& nonceAddOne ≠ 0) :
    ¬ Keeps txHash tx (receiveOne txHash (sendOne txHash tx).2.2).2 := by
  obtain ⟨sent, hsent⟩ : ∃ sent, sent = (sendOne txHash tx).2.2 := ⟨_, rfl⟩
  have hlt : sent.accountNonce < nonceAddOne := by
    have hnonce : (tx.hashOf txHash).2.nonce = tx.nonce := congrArg (·.accountNonce) data_hashOf
    rw [hsent, sendOne]
    dsimp only
    rw [dropAddOne_of_bit (by rw [hnonce]; exact hbit)]
    exact and_nonceSubOne_lt _
  rw [← hsent, hashOf_receiveOne hlt]
  rintro ⟨-, hcontent, -⟩
  have hsame := congrArg (fun data : Transaction => data.accountNonce) (hinj hcontent)
  exact or_nonceAddOne_ne hlt hsame.symm

/-- No transaction whose nonce has the bit is propagated with its identity. -/
theorem propagation_never_keeps (hinj : Function.Injective txHash) (selfRole : RoleType)
    (txs : List (CachedTx Hash)) (i : ℕ) (htx : txs[i]? = some tx)
    (hbit : tx.nonce &&& nonceAddOne ≠ 0) :
    ¬ ∃ received, (handleTxMsg txHash selfRole
        ((sendTransactions txHash txs).map (fun e => e.2.2)))[i]? = some received ∧
      Keeps txHash tx received := by
  rintro ⟨received, hreceived, hkeeps⟩
  unfold handleTxMsg at hreceived
  split_ifs at hreceived with hrole
  · cases hreceived
  · rw [sendTransactions, List.map_map, List.map_map, List.getElem?_map, htx, Option.map_some,
      Option.some.injEq] at hreceived
    rw [← hreceived] at hkeeps
    exact not_keeps_receiveOne hinj hbit hkeeps

def pooledTx : CachedTx SigContent :=
  ⟨{ TxCrypto.sampleProtectedTx with accountNonce := 0x0010000000000005 }, none⟩

theorem propagation_never_keeps_pooled :
    ¬ ∃ received, (handleTxMsg pairedHash .validator
        ((sendTransactions pairedHash [pooledTx]).map (fun e => e.2.2)))[0]? =
          some received ∧ Keeps pairedHash pooledTx received :=
  propagation_never_keeps pairedHash_injective .validator [pooledTx] 0 rfl (by decide)

/-- The receiver has the nonce of the sender, under a hash that is neither the one of its content nor
the one of the sender. -/
theorem received_hash_of_bare_nonce :
    ∃ received, handleTxMsg pairedHash .validator
        ((sendTransactions pairedHash [pooledTx]).map (fun e => e.2.2)) = [received] ∧
      received.nonce = pooledTx.nonce ∧
      (received.hashOf pairedHash).1 ≠ pairedHash received.data ∧
      (received.hashOf pairedHash).1 ≠ (pooledTx.hashOf pairedHash).1 :=
  ⟨_, rfl, by decide, by decide +kernel, by decide +kernel⟩

end TxMsg

end CachedTx

end MatrixNode
