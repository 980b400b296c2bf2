import MatrixNode.ApplyTransaction

/-! Sequences of `ApplyTransaction` calls: what they make of the nonces of the senders, and how often
one transaction can be applied. -/
namespace MatrixNode
open GoLib Message

section Nonce
variable {nonce : UInt64}

theorem toNat_nextNonce_of_marked (hmark : nonce.toNat.testBit 52 = true)
    (hlow : nonce.toNat%2^52+1 < 2^52) : (nextNonce nonce).toNat = nonce.toNat+1 := by
  have hlt := nonce.toNat_lt
  have hfits : nonce.toNat+1 < 2^64 := by omega
  have hmark' : (nonce.toNat+1).testBit 52 = true := by
    rw [Nat.testBit_eq_decide_div_mod_eq, decide_eq_true_eq] at hmark ⊢
    omega
  rw [nextNonce, UInt64.toNat_or, toNat_succ_of_lt hfits]
  apply Nat.eq_of_testBit_eq
  intro i
  have hbit : nonceAddOne.toNat.testBit i = decide (52 = i) :=
    (congrArg (Nat.testBit · i) (by decide : nonceAddOne.toNat = 2^52)).trans Nat.testBit_two_pow
  rw [Nat.testBit_or, hbit]
  by_cases hi : 52 = i
  · subst hi
    rw [hmark']
    rfl
  · simp [hi]

theorem nonceAddOne_lt_of_marked (hmark : nonce.toNat.testBit 52 = true)
    (hlow : nonce.toNat%2^52+1 < 2^52) : nonceAddOne < nextNonce nonce := by
  have hvalue : nonceAddOne.toNat = 2^52 := by decide
  rw [UInt64.lt_iff_toNat_lt, toNat_nextNonce_of_marked hmark hlow]
  rw [Nat.testBit_eq_decide_div_mod_eq, decide_eq_true_eq] at hmark
  omega

end Nonce

namespace ApplyCall
variable {Hash : Type} {C : TxCrypto Hash} {call : ApplyCall} {db : StateDB} {account x : Address}
  {P : ℕ → AccountCore → Prop}

theorem applyTransaction_counts (hsender : call.sender C = .ok account)
    (hmessage : call.isBroadcast = false)
    (hP : call.tx.extraTo.length < txCount →
      (call.tx.asMessage account).Counts x P (creations call.tx.extraTo+1))
    (h : P 0 (db.core x)) :
    (P 0 ((call.applyTransaction C db).db.core x) ∧
      (call.applyTransaction C db).result.isOk = false) ∨
    ∃ i ≤ creations call.tx.extraTo, call.tx.extraTo.length < txCount ∧
      P (i+1) ((call.applyTransaction C db).db.core x) := by
  have hshort := call.short
  rw [← call.tx.asMessage_extraTo account] at hP hshort ⊢
  have hcounts := transitionDb_counts call.evm call.gp hP hshort h
  unfold applyTransaction
  rw [hsender]
  dsimp only
  rw [if_neg (by simp [hmessage])]
  rcases hcounts with ⟨hsame, err, herr⟩ | ⟨i, hi, hlength, hnext⟩
  · rw [herr]
    exact .inl ⟨hsame, rfl⟩
  · right
    refine ⟨i, hi, hlength, ?_⟩
    split
    · exact hnext
    · exact StateDB.finalise_keeps ((hP hlength).kept i (by omega)) hnext _ _

theorem nonce_of_applied (hsender : call.sender C = .ok account)
    (hmessage : call.isBroadcast = false)
    (hok : (call.applyTransaction C db).result.isOk = true) :
    db.getNonce account = call.tx.accountNonce := by
  unfold applyTransaction at hok
  rw [hsender] at hok
  dsimp only at hok
  rw [if_neg (by simp [hmessage])] at hok
  rcases hresult : ((call.tx.asMessage account).transitionDb call.evm db call.gp).result with err | r
  · rw [hresult] at hok
    cases hok
  · exact nonce_of_transitionDb_ok rfl hresult

theorem applyTransaction_unsigned {err : GoError} (hsender : call.sender C = .error err) :
    call.applyTransaction C db = ⟨db, call.gp, .error (.sender err)⟩ := by
  unfold applyTransaction
  rw [hsender]

end ApplyCall

structure AppliedTxs where
  db : StateDB
  applied : List Transaction

namespace AppliedTxs
variable {Hash : Type} (C : TxCrypto Hash)

/-- A call of `ApplyTransaction`. What it has done to the state stays, also if it fails. -/
def step (s : AppliedTxs) (call : ApplyCall) : Except GoError AppliedTxs :=
  .ok {
    db := (call.applyTransaction C s.db).db
    applied := if (call.applyTransaction C s.db).result.isOk then s.applied ++ [call.tx]
      else s.applied }

def RaisesNonceByOne (s : AppliedTxs) (call : ApplyCall) (s' : AppliedTxs) : Prop :=
  ∀ account, call.sender C = .ok account → call.isBroadcast = false →
    (call.applyTransaction C s.db).result.isOk = true →
    (s'.db.getNonce account).toNat = (s.db.getNonce account).toNat+1

/-- No extra recipient is a contract to be created, and the sender is an account without code whose
nonce carries the marker and has room. -/
def PlainTransfer (call : ApplyCall) (c : AccountCore) : Prop :=
  (∀ ex ∈ call.tx.extraTo, ex.recipient ≠ none) ∧
  c.code = [] ∧ c.suicided = false ∧
  c.nonce.toNat.testBit 52 = true ∧ c.nonce.toNat%2^52+1 < 2^52

instance (call : ApplyCall) (c : AccountCore) : Decidable (PlainTransfer call c) :=
  inferInstanceAs (Decidable (_ ∧ _))

/-- The call is a plain transfer, unless it is for a broadcast transaction. -/
def PlainOrBroadcast (s : AppliedTxs) (call : ApplyCall) : Prop :=
  ∀ account ∈ (call.sender C).toOption,
    call.isBroadcast = true ∨ PlainTransfer call (s.db.core account)

instance (s : AppliedTxs) (call : ApplyCall) : Decidable (PlainOrBroadcast C s call) :=
  Option.decidableForallMem (call.sender C).toOption

variable {C}

theorem creations_eq_zero {extraTo : List TxTo} (h : ∀ ex ∈ extraTo, ex.recipient ≠ none) :
    creations extraTo = 0 := by
  unfold creations
  rw [List.countP_eq_zero]
  intro ex hex
  simpa using h ex hex

theorem PlainTransfer.counts {call : ApplyCall} {c : AccountCore} {account : Address}
    (h : PlainTransfer call c) : (call.tx.asMessage account).Counts account
      (fun j c' => c' = ⟨nextNonce^[j] c.nonce, [], false⟩) 1 := by
  obtain ⟨-, -, -, hmark, hlow⟩ := h
  refine ⟨?_, ?_⟩
  · rintro j - c' rfl
    have hself : account = (call.tx.asMessage account).sender := rfl
    rw [if_pos hself, Function.iterate_succ_apply']
  · intro j hj
    obtain rfl : j = 0 := by omega
    right
    rintro c' rfl
    exact ⟨rfl, nonceAddOne_lt_of_marked hmark hlow, rfl⟩

theorem raisesNonceByOne_of_plain {s s' : AppliedTxs} {call : ApplyCall}
    (hplain : PlainOrBroadcast C s call) (hstep : step C s call = .ok s') :
    RaisesNonceByOne C s call s' := by
  intro account hsender hmessage hok
  have hcall : PlainTransfer call (s.db.core account) := by
    rcases hplain account (by rw [hsender]; rfl) with hbroadcast | hcall
    · rw [hmessage] at hbroadcast
      cases hbroadcast
    · exact hcall
  have hzero := creations_eq_zero hcall.1
  have hstart : s.db.core account = ⟨nextNonce^[0] (s.db.core account).nonce, [], false⟩ := by
    obtain ⟨-, hcode, hsuicided, -⟩ := hcall
    rw [← hcode, ← hsuicided]
    rfl
  have hcounts : call.tx.extraTo.length < txCount → (call.tx.asMessage account).Counts account
      (fun j c' => c' = ⟨nextNonce^[j] (s.db.core account).nonce, [], false⟩)
      (creations call.tx.extraTo+1) := by
    intro _
    rw [hzero]
    exact hcall.counts
  cases hstep
  rcases ApplyCall.applyTransaction_counts hsender hmessage hcounts hstart with
    ⟨-, hfailed⟩ | ⟨i, hi, -, hnext⟩
  · rw [hok] at hfailed
    cases hfailed
  · obtain rfl : i = 0 := by omega
    have hnonce := congrArg AccountCore.nonce hnext
    rw [← StateDB.core_nonce, hnonce]
    exact toNat_nextNonce_of_marked hcall.2.2.2.1 hcall.2.2.2.2

/-- Every transaction that is applied and is no broadcast transaction counts once, whatever code it
runs. -/
theorem eachStep_raisesNonceByOne {s : AppliedTxs} {calls : List ApplyCall}
    (hplain : EachBefore (step C) (PlainOrBroadcast C) s calls) :
    EachStep (step C) (RaisesNonceByOne C) s calls := by
  have htrue : ∀ s call s', True → PlainOrBroadcast C s call → step C s call = .ok s' → True :=
    fun _ _ _ _ _ _ => trivial
  refine eachStep_of_eachBefore htrue ?_ trivial hplain
  intro s call s' _ hcall hstep
  exact raisesNonceByOne_of_plain hcall hstep

def oneSigner : TxCrypto SigContent where
  rlpHash := id
  ecrecover := fun _ _ => .ok [4]
  pubAddress := fun _ => 77

def fundedState : AppliedTxs where
  db := ⟨fun addr => if addr = 77 then some { newObject with balance := 1000000 } else none, 0⟩
  applied := []

def sampleCall (tx : Transaction) (hshort : ShortPayloads tx.extraTo) : ApplyCall where
  evm := { sampleEvm 1 with createAddress := fun _ _ => 99 }
  isEIP155 := true
  chainId := 1
  gp := 1000000
  usedGas := 0
  dirties := fun _ => true
  tx := tx
  short := hshort

def samplePayment (nonce : UInt64) (extra : List MatrixExtra) : Transaction where
  accountNonce := nonce
  price := 1
  gasLimit := 200000
  recipient := some 5
  amount := 10
  payload := []
  extra := extra
  v := if extra = [] then 37 else 165
  r := 1
  s := 1

/-- One transaction that pays account 5 and creates a contract. -/
def creatingCall : ApplyCall :=
  sampleCall (samplePayment nonceAddOne [⟨0, 0, [⟨none, 0, []⟩]⟩]) (by decide)

/-- It counts twice. -/
theorem extra_creation_counts_twice :
    (creatingCall.applyTransaction oneSigner fundedState.db).result.isOk = true ∧
    (creatingCall.applyTransaction oneSigner fundedState.db).db.getNonce 77 = nonceAddOne+2 ∧
    ¬ EachStep (step oneSigner) (RaisesNonceByOne oneSigner) fundedState [creatingCall] := by
  refine ⟨by decide +kernel, by decide +kernel, ?_⟩
  intro heach
  have hone := (heach _ rfl).1 77 (by decide +kernel) (by decide) (by decide +kernel)
  exact absurd hone (by decide +kernel)

/-- A payment to two accounts and a creation. -/
theorem eachStep_raisesNonceByOne_payment_creation :
    EachStep (step oneSigner) (RaisesNonceByOne oneSigner) fundedState
      [sampleCall (samplePayment nonceAddOne [⟨0, 0, [⟨some 6, 20, []⟩]⟩]) (by decide),
        sampleCall { samplePayment (nonceAddOne+1) [] with recipient := none } (by decide)] :=
  eachStep_raisesNonceByOne (by decide +kernel)

end AppliedTxs

end MatrixNode
