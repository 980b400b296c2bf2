import MatrixNode.EvmFunds
import MatrixNode.StateTransition

/-! `core/tx_pool.go`: the checks that a transaction passes before the pool takes it, and what they
are worth when the transaction is executed. -/
namespace MatrixNode
open GoLib MatrixDeposit Message List

def headsize (size : ℕ) : ℕ := if size < 56 then 1 else 1+(beBytes size).length

def rlpStringSize : Bytes → ℕ
  | [c] => if c < 128 then 1 else 2
  | b => headsize b.length+b.length

def rlpListSize (contentSize : ℕ) : ℕ := headsize contentSize+contentSize

def rlpNumberSize (n : ℕ) : ℕ := rlpStringSize (beBytes n)

/-- A missing recipient is an empty string. -/
def rlpRecipientSize : Option Address → ℕ
  | none => 1
  | some _ => 21

def TxTo.size (ex : TxTo) : ℕ :=
  rlpListSize (rlpRecipientSize ex.recipient+rlpNumberSize ex.amount+rlpStringSize ex.payload)

def MatrixExtra.size (extra : MatrixExtra) : ℕ :=
  rlpListSize (rlpNumberSize extra.txType.toNat+rlpNumberSize extra.lockHeight.toNat+
    rlpListSize (extra.extraTo.map TxTo.size).sum)

namespace Transaction
variable (tx : Transaction)

/-- `Size`: the extra entries are the tail of the list. -/
def size : ℕ :=
  rlpListSize (rlpNumberSize tx.accountNonce.toNat+rlpNumberSize tx.price+
    rlpNumberSize tx.gasLimit.toNat+rlpRecipientSize tx.recipient+rlpNumberSize tx.amount+
    rlpStringSize tx.payload+rlpNumberSize tx.v+rlpNumberSize tx.r+rlpNumberSize tx.s+
    (tx.extra.map MatrixExtra.size).sum)

def extraTo : List TxTo := (tx.extra.head?.map MatrixExtra.extraTo).getD []

def allExtraTo : List TxTo := tx.extra.flatMap MatrixExtra.extraTo

def cost : ℕ := tx.price*tx.gasLimit.toNat+tx.amount

def costAll : ℕ := tx.cost+(tx.extraTo.map TxTo.amount).sum

def asMessage (sender : Address) : Message where
  sender := sender
  recipient := tx.recipient
  nonce := tx.accountNonce
  amount := tx.amount
  gasLimit := tx.gasLimit
  gasPrice := tx.price
  data := tx.payload
  checkNonce := true
  extra := tx.extra.head?.getD ⟨0, 0, []⟩

end Transaction

structure TxPool where
  signer : Signer
  currentMaxGas : UInt64
  gasPrice : ℕ
  currentState : StateDB
  homestead : Bool

namespace TxPool
variable {Hash : Type} (C : TxCrypto Hash) (pool : TxPool) (tx : Transaction)

/-- Each account can be paid once. -/
def checkRepeats (seen : List Address) : List TxTo → Except GoError Unit
  | [] => pure ()
  | ex :: rest =>
    match ex.recipient with
    | none => checkRepeats seen rest
    | some a =>
      if a ∈ seen then throw (.error "Contains duplicate transfer accounts")
      else checkRepeats (a :: seen) rest

def countPayments : Except GoError ℕ :=
  if tx.extraTo = [] then pure 1
  else
    match tx.recipient with
    | none => throw nilDereference
    | some main => do
      checkRepeats [main] tx.allExtraTo
      pure (1+tx.allExtraTo.length)

def checkSize : Except GoError Unit :=
  if tx.extra = [] then
    if 32*1024 < tx.size then throw (.error "oversized data") else pure ()
  else do
    let txcount ← countPayments tx
    if 32*1024*txcount < tx.size then
      throw (.error "oversized data")
    else if txCount < txcount then
      throw (.error "Transaction quantity spillover")
    else pure ()

def checkFunds (sender : Address) : Except GoError Unit :=
  if pool.currentState.getBalance sender < (if tx.extraTo = [] then tx.cost else tx.costAll) then
    throw (.error "insufficient funds for gas * price + value")
  else pure ()

/-- The gas of all entries counts, also of those that are not executed. -/
def intrinsicTotal : Except VmError UInt64 := do
  let intrGas ← intrinsicGas tx.payload tx.recipient.isNone pool.homestead
  extraGas pool.homestead intrGas (if tx.extraTo = [] then [] else tx.allExtraTo)

def checkGas : Except GoError Unit :=
  match pool.intrinsicTotal tx with
  | .error _ => throw (.error "out of gas")
  | .ok intrGas => if tx.gasLimit < intrGas then throw (.error "intrinsic gas too low") else pure ()

def checkSigned (sender : Address) : Except GoError Unit :=
  if 128 < tx.v ∧ tx.extra = [] then throw (.error "transaction is unlawful")
  else if tx.price < pool.gasPrice then throw (.error "transaction underpriced")
  else if tx.accountNonce < pool.currentState.getNonce sender then throw (.error "nonce too low")
  else do
    pool.checkFunds tx sender
    pool.checkGas tx

/-- `validateTx`. Amounts that were decoded are not negative. -/
def validateTx : Except GoError Unit := do
  checkSize tx
  if pool.currentMaxGas < tx.gasLimit then throw (.error "exceeds block gas limit")
  else match C.sender pool.signer tx with
  | .error _ => throw (.error "invalid sender")
  | .ok sender => pool.checkSigned tx sender

section Spec
variable {C} {pool} {tx}

theorem checkRepeats_ne_panic (seen : List Address) (entries : List TxTo) (text : String) :
    checkRepeats seen entries ≠ .error (.panic text) := by
  induction entries generalizing seen with
  | nil => exact nofun
  | cons ex rest ih =>
    unfold checkRepeats
    split
    · exact ih seen
    · split_ifs
      · exact nofun
      · exact ih _

/-- The main recipient is dereferenced without a check. -/
theorem checkSize_panics_iff :
    (∃ text, checkSize tx = .error (.panic text)) ↔ tx.recipient = none ∧ tx.extraTo ≠ [] := by
  have hextra : tx.extraTo ≠ [] → tx.extra ≠ [] := by
    rintro h hnil
    rw [Transaction.extraTo, hnil] at h
    exact h rfl
  unfold checkSize countPayments
  by_cases h0 : tx.extra = []
  · have hno : tx.extraTo = [] := by
      by_contra h
      exact hextra h h0
    constructor
    · rintro ⟨text, h⟩
      split_ifs at h <;> cases h
    · exact fun h => absurd hno h.2
  rw [if_neg h0]
  by_cases h1 : tx.extraTo = []
  · rw [if_pos h1]
    constructor
    · rintro ⟨text, h⟩
      rw [pure_eq_ok, ok_bind] at h
      split_ifs at h <;> cases h
    · exact fun h => absurd h1 h.2
  rw [if_neg h1]
  rcases hr : tx.recipient with _ | main
  · exact ⟨fun _ => ⟨rfl, h1⟩, fun _ => ⟨_, rfl⟩⟩
  · constructor
    · rintro ⟨text, h⟩
      simp only [bind_eq_error_iff, pure_eq_ok, reduceCtorEq, and_false, exists_false, or_false] at h
      rcases h with h | ⟨n, -, h⟩
      · exact absurd h (checkRepeats_ne_panic _ _ _)
      · split_ifs at h <;> cases h
    · rintro ⟨h, -⟩
      cases h

theorem checkSigned_ne_panic (sender : Address) (text : String) :
    pool.checkSigned tx sender ≠ .error (.panic text) := by
  have hfunds (e : GoError) : pool.checkFunds tx sender = .error e → e ≠ .panic text := by
    unfold checkFunds
    rintro h rfl
    split_ifs at h <;> cases h
  have hgas : pool.checkGas tx ≠ .error (.panic text) := by
    unfold checkGas
    intro h
    split at h
    · cases h
    · split_ifs at h <;> cases h
  unfold checkSigned
  intro h
  split_ifs at h
  · cases h
  · cases h
  · cases h
  · rcases bind_eq_error_iff.mp h with h | ⟨-, -, h⟩
    · exact hfunds _ h rfl
    · exact hgas h

theorem checkSigned_ok {sender : Address} (h : pool.checkSigned tx sender = .ok ()) :
    pool.checkFunds tx sender = .ok () ∧ pool.checkGas tx = .ok () := by
  unfold checkSigned at h
  simp only [throw_eq_error, ite_error_eq_ok, bind_eq_ok_iff] at h
  obtain ⟨-, -, -, _, hfunds, hgas⟩ := h
  exact ⟨hfunds, hgas⟩

theorem validateTx_panics_iff :
    (∃ text, pool.validateTx C tx = .error (.panic text)) ↔ tx.recipient = none ∧ tx.extraTo ≠ [] := by
  rw [← checkSize_panics_iff]
  constructor
  · rintro ⟨text, h⟩
    rcases bind_eq_error_iff.mp h with hsize | ⟨-, -, hrest⟩
    · exact ⟨text, hsize⟩
    · exfalso
      split_ifs at hrest
      · cases hrest
      · split at hrest
        · cases hrest
        · exact checkSigned_ne_panic _ _ hrest
  · rintro ⟨text, h⟩
    refine ⟨text, ?_⟩
    unfold validateTx
    rw [h]
    rfl

theorem checkSize_ok (h : checkSize tx = .ok ()) :
    tx.size ≤ 32*1024*txCount ∧ (tx.extraTo ≠ [] → tx.allExtraTo.length < txCount) := by
  unfold checkSize countPayments at h
  by_cases h0 : tx.extra = []
  · rw [if_pos h0, throw_eq_error, ite_error_eq_ok] at h
    refine ⟨by unfold txCount; omega, ?_⟩
    intro hne
    rw [Transaction.extraTo, h0] at hne
    exact absurd rfl hne
  rw [if_neg h0, bind_eq_ok_iff] at h
  obtain ⟨txcount, hcount, h⟩ := h
  simp only [throw_eq_error, ite_error_eq_ok] at h
  obtain ⟨hsize, hmany, -⟩ := h
  refine ⟨(not_lt.mp hsize).trans (Nat.mul_le_mul_left _ (not_lt.mp hmany)), ?_⟩
  intro hne
  rw [if_neg hne] at hcount
  split at hcount
  · cases hcount
  · obtain ⟨-, -, hlen⟩ := bind_eq_ok_iff.mp hcount
    cases hlen
    omega

theorem validateTx_ok (h : pool.validateTx C tx = .ok ()) :
    ∃ sender, C.sender pool.signer tx = .ok sender ∧ checkSize tx = .ok () ∧
      pool.checkFunds tx sender = .ok () ∧ pool.checkGas tx = .ok () := by
  obtain ⟨_, hsize, hrest⟩ := bind_eq_ok_iff.mp h
  rw [throw_eq_error, ite_error_eq_ok] at hrest
  have hsigned := hrest.2
  split at hsigned
  · cases hsigned
  next sender hs => exact ⟨sender, hs, hsize, checkSigned_ok hsigned⟩

end Spec

end TxPool

section Gas
variable {tx : Transaction}

theorem length_le_rlpStringSize (b : Bytes) : b.length ≤ rlpStringSize b := by
  unfold rlpStringSize
  split
  · split_ifs <;> simp
  · exact Nat.le_add_left ..

theorem le_rlpListSize (n : ℕ) : n ≤ rlpListSize n := Nat.le_add_left ..

theorem TxTo.payload_le_size (ex : TxTo) : ex.payload.length ≤ ex.size :=
  (length_le_rlpStringSize _).trans ((Nat.le_add_left ..).trans (le_rlpListSize _))

theorem Transaction.payload_le_size {ex : TxTo} (h : ex ∈ tx.allExtraTo) :
    ex.payload.length ≤ tx.size := by
  obtain ⟨extra, hextra, hex⟩ := mem_flatMap.mp h
  have hinner : ex.size ≤ extra.size := by
    have hsum : ex.size ≤ (extra.extraTo.map TxTo.size).sum :=
      single_le_sum (fun _ _ => Nat.zero_le _) _ (mem_map_of_mem hex)
    exact hsum.trans ((le_rlpListSize _).trans ((Nat.le_add_left ..).trans (le_rlpListSize _)))
  have houter : extra.size ≤ tx.size := by
    have hsum : extra.size ≤ (tx.extra.map MatrixExtra.size).sum :=
      single_le_sum (fun _ _ => Nat.zero_le _) _ (mem_map_of_mem hextra)
    exact hsum.trans ((Nat.le_add_left ..).trans (le_rlpListSize _))
  exact ex.payload_le_size.trans (hinner.trans houter)

theorem Transaction.main_payload_le_size (tx : Transaction) : tx.payload.length ≤ tx.size := by
  have hstring := length_le_rlpStringSize tx.payload
  refine LE.le.trans ?_ (le_rlpListSize _)
  omega

theorem Transaction.allExtraTo_eq (tx : Transaction) :
    ∃ rest, tx.allExtraTo = tx.extraTo ++ rest := by
  unfold allExtraTo extraTo
  rcases tx.extra with _ | ⟨first, rest⟩
  · exact ⟨[], rfl⟩
  · exact ⟨_, flatMap_cons⟩

theorem intrinsicGas_le {data : Bytes} {contractCreation homestead : Bool} {gas : UInt64}
    (h : intrinsicGas data contractCreation homestead = .ok gas) :
    gas.toNat ≤ 53000+68*data.length := by
  unfold intrinsicGas at h
  simp only [ite_error_eq_ok, Except.ok.injEq] at h
  obtain ⟨-, -, rfl⟩ := h
  have hnz : data.countP (· ≠ 0) ≤ data.length := countP_le_length
  have hbase : (if (contractCreation && homestead) = true then txGasContractCreation else txGas) ≤
      53000 := by
    unfold txGasContractCreation txGas
    split_ifs <;> norm_num
  refine (Nat.mod_le _ _).trans ?_
  unfold txDataNonZeroGas txDataZeroGas
  omega

theorem extraGas_bounds {homestead : Bool} {gas total : UInt64} {extraTo : List TxTo} {size : ℕ}
    (h : extraGas homestead gas extraTo = .ok total)
    (hsize : ∀ ex ∈ extraTo, ex.payload.length ≤ size)
    (hfit : gas.toNat+extraTo.length*(53000+68*size) < 2^64) :
    gas.toNat ≤ total.toNat ∧ total.toNat ≤ gas.toNat+extraTo.length*(53000+68*size) := by
  unfold extraGas at h
  induction extraTo generalizing gas with
  | nil =>
    cases h
    exact ⟨le_rfl, Nat.le_add_right ..⟩
  | cons ex rest ih =>
    rw [foldlM_cons, bind_eq_ok_iff] at h
    obtain ⟨gas₁, h₁, hrest⟩ := h
    obtain ⟨tmpgas, htmp, hgas₁⟩ := bind_eq_ok_iff.mp h₁
    cases hgas₁
    have hle := intrinsicGas_le htmp
    have hex := hsize ex mem_cons_self
    rw [length_cons, Nat.add_mul] at hfit ⊢
    have hsum : (gas+tmpgas).toNat = gas.toNat+tmpgas.toNat := by
      rw [UInt64.toNat_add, Nat.mod_eq_of_lt (by omega)]
    have hih := ih hrest (fun x hx => hsize x (mem_cons_of_mem _ hx)) (by omega)
    omega

/-- A thousand recipients with data of that size stay far below the largest 64-bit number. -/
theorem TxPool.intrinsicGas_covered {pool : TxPool} (hsize : checkSize tx = .ok ())
    (hgas : pool.checkGas tx = .ok ()) :
    ∃ gas total, intrinsicGas tx.payload tx.recipient.isNone pool.homestead = .ok gas ∧
      extraGas pool.homestead gas tx.extraTo = .ok total ∧ total ≤ tx.gasLimit := by
  obtain ⟨hbytes, hcount⟩ := checkSize_ok hsize
  unfold checkGas at hgas
  split at hgas
  · cases hgas
  next intrGas htotal =>
    rw [throw_eq_error, ite_error_eq_ok] at hgas
    have hlimit := UInt64.not_lt.mp hgas.1
    obtain ⟨gas, hmain, hextra⟩ := bind_eq_ok_iff.mp htotal
    by_cases hnone : tx.extraTo = []
    · rw [if_pos hnone] at hextra
      rw [hnone]
      exact ⟨gas, intrGas, hmain, hextra, hlimit⟩
    · rw [if_neg hnone] at hextra
      obtain ⟨rest, hall⟩ := tx.allExtraTo_eq
      have hlen := hcount hnone
      have hlong := congrArg length hall
      rw [length_append] at hlong
      have happend := hextra
      rw [hall, extraGas, foldlM_append, bind_eq_ok_iff] at happend
      obtain ⟨total, hfirst, hrest⟩ := happend
      have hsmall : tx.size ≤ 32768000 := hbytes
      have hpayload (ex : TxTo) (h : ex ∈ tx.allExtraTo) : ex.payload.length ≤ 32768000 :=
        (tx.payload_le_size h).trans hsmall
      have hgas := (intrinsicGas_le hmain).trans (Nat.add_le_add_left
        (Nat.mul_le_mul_left 68 (tx.main_payload_le_size.trans hsmall)) 53000)
      unfold txCount at hlen
      have hbound := extraGas_bounds hfirst
        (fun ex hex => hpayload ex (hall ▸ mem_append_left _ hex)) (by omega)
      have hmore := extraGas_bounds hrest
        (fun ex hex => hpayload ex (hall ▸ mem_append_right _ hex)) (by omega)
      refine ⟨gas, total, hmain, hfirst, UInt64.le_trans ?_ hlimit⟩
      exact UInt64.le_iff_toNat_le.mpr hmore.1

end Gas

/-- The sender is an account of its own: it has no code and is not the deposit contract. Its nonce
carries the marker and has room, so that no contract can be created at its address. -/
structure ExternallyOwned (db : StateDB) (sender : Address) : Prop where
  code : db.getCode sender = []
  alive : (db.core sender).suicided = false
  marked : nonceAddOne ≤ db.getNonce sender
  room : (db.getNonce sender).toNat < 2^63
  notDeposit : sender ≠ depositAddress

namespace Message

/-- There is too little to pay with: the sender has less than the amount, or the deposit contract less
than the deposit that it is to give back. -/
def MadeCall.Unfunded (msg : Message) (E : Evm) (c : MadeCall) : Prop :=
  c.db.getBalance msg.sender < c.amount ∨
  (c.recipient = some depositAddress ∧ action c.payload = .refund ∧ requiredGas c.payload ≤ c.gas ∧
    RefundShort (Evm.enterCall c.db msg.sender depositAddress c.amount) msg.sender E.blockNumber)

variable {msg : Message} {E : Evm} {db db₁ : StateDB} {gp gp₁ gas : UInt64} {c : AccountCore}

theorem insufficient_iff_unfunded (call : MadeCall) :
    (call.result msg E).2.err = some .insufficientBalance ↔ call.Unfunded msg E := by
  obtain ⟨start, gas, recipient, payload, amount⟩ := call
  unfold MadeCall.Unfunded
  rcases recipient with _ | a
  · change (E.create (E.handler callCreateDepth) 0 false msg.sender payload gas amount
      ⟨start, []⟩).2.err = _ ↔ _
    rw [Evm.create_insufficient_iff]
    simp
  · change (E.call (E.handler callCreateDepth) 0 false msg.sender a payload gas amount
      ⟨start, []⟩).2.err = _ ↔ _
    rw [Evm.call_insufficient_iff]
    dsimp only
    constructor
    · rintro (hlt | ⟨rfl, hrest⟩)
      · exact .inl hlt
      · exact .inr ⟨rfl, hrest⟩
    · rintro (hlt | ⟨ha, hrest⟩)
      · exact .inl hlt
      · cases ha
        exact .inr ⟨rfl, hrest⟩

theorem Reaches.ok_iff (h : msg.Reaches E db gp db₁ gp₁ gas) :
    (∃ r, (msg.transitionDb E db gp).result = .ok r) ↔
      ∀ call ∈ msg.callsMade E db₁ gas, ¬ call.Unfunded msg E := by
  constructor
  · rintro ⟨r, hr⟩ call hcall hun
    have herr := (insufficient_iff_unfunded call).mpr hun
    have hcalls := calls_of_failed hcall (by rw [herr]; exact nofun)
    rw [h.transitionDb_eq, finish, hcalls, if_pos herr] at hr
    cases hr
  · intro hall
    have hfunds : (msg.calls E db₁ gas).2.err ≠ some .insufficientBalance := by
      intro herr
      obtain ⟨call, hcall, hres⟩ := exists_failed_call (by rw [herr]; exact nofun)
      rw [← hres] at herr
      exact hall call hcall ((insufficient_iff_unfunded call).mp herr)
    obtain ⟨left, -, hdone⟩ := transitionDb_calls h hfunds
    rw [hdone]
    exact ⟨_, rfl⟩

section Spares
variable (hdep : msg.sender ≠ depositAddress)
include hdep

theorem creation_spares {b v : ℕ} (hcode : c.code = []) (halive : c.suicided = false)
    (hmarked : nonceAddOne ≤ c.nonce) (hroom : c.nonce.toNat+2^53 < 2^64)
    (h : Spared msg.sender c (b+v) db) (payload : Bytes) (gas : UInt64) :
    ∃ c' : AccountCore, c'.Secure ∧ c'.nonce.toNat ≤ c.nonce.toNat+2^53 ∧
      Spared msg.sender c' b (msg.callOrCreate E none payload v db gas).1 := by
  have hfits : c.nonce.toNat+1 < 2^64 := by omega
  have hsecure : ({ c with nonce := nextNonce c.nonce } : AccountCore).Secure :=
    ⟨hcode, UInt64.lt_of_le_of_lt hmarked (lt_nextNonce hfits), halive⟩
  refine ⟨_, hsecure, toNat_nextNonce_le hfits, ?_⟩
  have hsub := Evm.handler_spares (E := E) hdep hsecure callCreateDepth
  refine Evm.create_spares hsub hdep (UInt64.ne_of_lt hsecure.nonce).symm (Nat.not_lt_zero _) ?_ ?_
  · have hv : v ≤ db.getBalance msg.sender := (Nat.le_add_left ..).trans h.balance
    simpa [StateDB.canTransfer] using hv
  · rw [if_pos rfl]
    refine ⟨?_, h.balance.trans (StateDB.getBalance_setNonce ..).ge⟩
    rw [StateDB.core_setNonce, if_pos rfl, ← h.core]
    rfl

theorem callOrCreate_spares {b v : ℕ} (hc : c.Secure) (hroom : c.nonce.toNat+2^53 < 2^64)
    (h : Spared msg.sender c (b+v) db) (recipient : Option Address) (payload : Bytes) (gas : UInt64) :
    ∃ c' : AccountCore, c'.Secure ∧ c'.nonce.toNat ≤ c.nonce.toNat+2^53 ∧
      Spared msg.sender c' b (msg.callOrCreate E recipient payload v db gas).1 := by
  cases recipient with
  | none => exact creation_spares hdep hc.code hc.suicided (UInt64.le_of_lt hc.nonce) hroom h ..
  | some a =>
    have hsub := Evm.handler_spares (E := E) hdep hc callCreateDepth
    refine ⟨c, hc, Nat.le_add_right .., Evm.call_spares hsub hdep hc.code (m := ⟨db, []⟩) ?_⟩
    rwa [if_pos rfl]

/-- Each extra call leaves the sender what the later ones need. -/
theorem extraCallsMade_affordable (extraTo : List TxTo) {s : StateDB × CallReturn} (hc : c.Secure)
    (hroom : c.nonce.toNat+extraTo.length*2^53 < 2^64)
    (h : Spared msg.sender c (extraTo.map TxTo.amount).sum s.1) :
    ∀ call ∈ msg.extraCallsMade E extraTo s, call.amount ≤ call.db.getBalance msg.sender := by
  induction extraTo generalizing s c with
  | nil => exact fun call hcall => absurd hcall not_mem_nil
  | cons ex rest ih =>
    rw [map_cons, sum_cons, Nat.add_comm] at h
    have hlength : (ex :: rest).length = rest.length+1 := rfl
    obtain ⟨c', hc', hnonce, hspared⟩ := callOrCreate_spares (E := E) hdep hc (by omega) h ex.recipient
      ex.payload s.2.gas
    unfold extraCallsMade
    refine forall_mem_cons.mpr ⟨(Nat.le_add_left ..).trans h.balance, ?_⟩
    split_ifs
    · exact ih hc' (by omega) hspared
    · exact fun call hcall => absurd hcall not_mem_nil

end Spares

/-- The sender can pay for every call if it has enough for all of them together. -/
theorem callsMade_affordable (hown : ExternallyOwned db msg.sender)
    (hcount : msg.extra.extraTo.length < txCount)
    (h : (msg.extra.extraTo.map TxTo.amount).sum+msg.amount ≤ db.getBalance msg.sender) :
    ∀ call ∈ msg.callsMade E db gas, call.amount ≤ call.db.getBalance msg.sender := by
  have hroom := hown.room
  have hroom' : (db.core msg.sender).nonce.toNat+2^53 < 2^64 := by
    change (db.getNonce msg.sender).toNat+2^53 < 2^64
    omega
  have hstart : (msg.mainStart db).getBalance msg.sender = db.getBalance msg.sender := by
    unfold mainStart
    split_ifs
    · rfl
    · exact StateDB.getBalance_setNonce ..
  have hmain : ∃ c : AccountCore, c.Secure ∧ c.nonce.toNat ≤ (db.getNonce msg.sender).toNat+2^53 ∧
      Spared msg.sender c (msg.extra.extraTo.map TxTo.amount).sum (msg.mainCall E db gas).1 := by
    unfold mainCall
    rcases hr : msg.recipient with _ | a
    · exact creation_spares hown.notDeposit hown.code hown.alive hown.marked hroom' ⟨rfl, h⟩ ..
    · rw [if_neg (by exact nofun)]
      have hfits : (db.getNonce msg.sender).toNat+1 < 2^64 := by omega
      have hsecure : (⟨nextNonce (db.getNonce msg.sender), [], false⟩ : AccountCore).Secure :=
        ⟨rfl, UInt64.lt_of_le_of_lt hown.marked (lt_nextNonce hfits), rfl⟩
      have hsub := Evm.handler_spares (E := E) hown.notDeposit hsecure callCreateDepth
      refine ⟨_, hsecure, toNat_nextNonce_le hfits,
        Evm.call_spares hsub hown.notDeposit rfl (m := ⟨_, []⟩) ?_⟩
      rw [if_pos rfl]
      refine ⟨?_, h.trans (StateDB.getBalance_setNonce ..).ge⟩
      rw [StateDB.core_setNonce, if_pos rfl, ← hown.code, ← hown.alive]
      rfl
  obtain ⟨c, hc, hnonce, hspared⟩ := hmain
  unfold txCount at hcount
  unfold callsMade
  refine forall_mem_cons.mpr ⟨?_, ?_⟩
  · dsimp only
    rw [hstart]
    omega
  · split_ifs
    · exact extraCallsMade_affordable hown.notDeposit _ hc (by omega) hspared
    · exact fun call hcall => absurd hcall not_mem_nil

end Message

theorem Transaction.asMessage_extraTo (tx : Transaction) (sender : Address) :
    (tx.asMessage sender).extra.extraTo = tx.extraTo := by
  unfold asMessage extraTo
  rcases tx.extra.head? <;> rfl

namespace TxPool
variable {Hash : Type} {C : TxCrypto Hash} {pool : TxPool} {tx : Transaction} {sender : Address}

theorem checkFunds_ok (h : pool.checkFunds tx sender = .ok ()) :
    (tx.asMessage sender).gasCost+(((tx.asMessage sender).extra.extraTo.map TxTo.amount).sum+
      (tx.asMessage sender).amount) ≤ pool.currentState.getBalance sender := by
  have hcost : (tx.asMessage sender).gasCost = tx.price*tx.gasLimit.toNat := Nat.mul_comm ..
  have hamount : (tx.asMessage sender).amount = tx.amount := rfl
  unfold checkFunds at h
  rw [throw_eq_error, ite_error_eq_ok] at h
  have hfunds := h.1
  rw [tx.asMessage_extraTo, hamount]
  unfold Transaction.costAll Transaction.cost at hfunds
  split_ifs at hfunds with hnone
  · rw [hnone, map_nil, sum_nil]
    omega
  · omega

/-- The pool accepts the transaction, and it is executed on the same state, under the same Homestead
rule, with its nonce due and enough gas in the pool of the block. -/
structure Admits (C : TxCrypto Hash) (pool : TxPool) (tx : Transaction) (E : Evm) (gp : UInt64)
    (sender : Address) : Prop where
  valid : pool.validateTx C tx = .ok ()
  signed : C.sender pool.signer tx = .ok sender
  nonce : pool.currentState.getNonce sender = tx.accountNonce
  gas : tx.gasLimit ≤ gp
  rules : E.rules.isHomestead = pool.homestead

section Admits
variable {E : Evm} {gp : UInt64}

theorem Admits.funds (h : Admits C pool tx E gp sender) :
    (tx.asMessage sender).gasCost+(((tx.asMessage sender).extra.extraTo.map TxTo.amount).sum+
      (tx.asMessage sender).amount) ≤ pool.currentState.getBalance sender := by
  obtain ⟨from', hfrom, -, hfunds, -⟩ := validateTx_ok h.valid
  cases h.signed.symm.trans hfrom
  exact checkFunds_ok hfunds

theorem Admits.reaches (h : Admits C pool tx E gp sender) : ∃ gas, (tx.asMessage sender).Reaches E
    pool.currentState gp (pool.currentState.subBalance sender (tx.asMessage sender).gasCost)
    (gp-tx.gasLimit) gas := by
  obtain ⟨from', hfrom, hsize, hfunds, hgas⟩ := validateTx_ok h.valid
  cases h.signed.symm.trans hfrom
  have hcost := checkFunds_ok hfunds
  obtain ⟨gas, total, hmain, hextra, hlimit⟩ := intrinsicGas_covered hsize hgas
  have hcount : (tx.asMessage sender).extra.extraTo.length < txCount := by
    rw [tx.asMessage_extraTo]
    by_cases hnone : tx.extraTo = []
    · rw [hnone]
      decide
    · obtain ⟨rest, hall⟩ := tx.allExtraTo_eq
      have hlong := congrArg length hall
      have hlen := (checkSize_ok hsize).2 hnone
      rw [length_append] at hlong
      omega
  have hpre : (tx.asMessage sender).preCheck pool.currentState gp =
      .ok (pool.currentState.subBalance sender (tx.asMessage sender).gasCost, gp-tx.gasLimit) :=
    preCheck_eq_ok_iff.mpr
      ⟨fun _ => h.nonce, (Nat.le_add_right ..).trans hcost, h.gas, rfl, rfl⟩
  rw [← h.rules] at hmain hextra
  rw [← tx.asMessage_extraTo sender] at hextra
  exact ⟨_, hpre, hcount, gas, total, hmain, hextra, hlimit, rfl⟩

theorem Admits.ok_iff (h : Admits C pool tx E gp sender) :
    (∃ r, ((tx.asMessage sender).transitionDb E pool.currentState gp).result = .ok r) ↔
      ∀ c, (tx.asMessage sender).Makes E pool.currentState gp c →
        ¬ c.Unfunded (tx.asMessage sender) E := by
  constructor
  · rintro hok c ⟨db₁, gp₁, gas, hreach, hc⟩
    exact hreach.ok_iff.mp hok c hc
  · intro hall
    obtain ⟨gas, hreach⟩ := h.reaches
    exact hreach.ok_iff.mpr (fun c hc => hall c ⟨_, _, _, hreach, hc⟩)

/-- What is left after the gas is bought still pays for everything that is sent. -/
theorem Admits.affordable (h : Admits C pool tx E gp sender)
    (hown : ExternallyOwned pool.currentState sender) {c : MadeCall}
    (hc : (tx.asMessage sender).Makes E pool.currentState gp c) :
    c.amount ≤ c.db.getBalance sender := by
  obtain ⟨db₁, gp₁, gas, hreach, hc⟩ := hc
  have hfunds := h.funds
  obtain ⟨-, -, -, rfl, -⟩ := preCheck_eq_ok_iff.mp hreach.bought
  have hbought : ExternallyOwned
      (pool.currentState.subBalance sender (tx.asMessage sender).gasCost) sender :=
    ⟨(StateDB.getCode_subBalance ..).trans hown.code,
      (congrArg AccountCore.suicided (StateDB.core_subBalance ..)).trans hown.alive,
      hown.marked.trans_eq (congrArg AccountCore.nonce (StateDB.core_subBalance ..)).symm,
      (congrArg (fun c : AccountCore => c.nonce.toNat) (StateDB.core_subBalance ..)).trans_lt hown.room,
      hown.notDeposit⟩
  refine callsMade_affordable ?_ hreach.count ?_ c hc
  · exact hbought
  change _ ≤ (pool.currentState.subBalance sender (tx.asMessage sender).gasCost).getBalance sender
  rw [StateDB.getBalance_subBalance, if_pos rfl]
  omega

end Admits

/-- The pool checks the transaction without a panic, and what it accepts can be executed. -/
structure Admission (C : TxCrypto Hash) (pool : TxPool) (tx : Transaction) (E : Evm) (gp : UInt64) :
    Prop where
  noPanic : ∀ text, pool.validateTx C tx ≠ .error (.panic text)
  executable : ∀ sender, Admits C pool tx E gp sender →
    ∃ r, ((tx.asMessage sender).transitionDb E pool.currentState gp).result = .ok r

/-- Admission holds exactly if there is a main recipient beside the extra ones, and no call finds too
little to pay with. An account of its own always has enough, so that this leaves the refunds. -/
theorem admission_iff (C : TxCrypto Hash) (pool : TxPool) (tx : Transaction) (E : Evm) (gp : UInt64) :
    (Admission C pool tx E gp ↔ (tx.recipient = none → tx.extraTo = []) ∧
      ∀ sender c, Admits C pool tx E gp sender →
        (tx.asMessage sender).Makes E pool.currentState gp c → ¬ c.Unfunded (tx.asMessage sender) E) ∧
    ∀ sender c, Admits C pool tx E gp sender → ExternallyOwned pool.currentState sender →
      (tx.asMessage sender).Makes E pool.currentState gp c → c.amount ≤ c.db.getBalance sender := by
  refine ⟨⟨?_, ?_⟩, fun sender c hadmits hown hc => hadmits.affordable hown hc⟩
  · intro h
    refine ⟨?_, fun sender c hadmits => hadmits.ok_iff.mp (h.executable sender hadmits) c⟩
    intro hr
    by_contra hne
    have hpanics : ∃ text, pool.validateTx C tx = .error (.panic text) :=
      validateTx_panics_iff.mpr ⟨hr, hne⟩
    obtain ⟨text, hpanic⟩ := hpanics
    exact h.noPanic text hpanic
  · rintro ⟨h, hfunded⟩
    refine ⟨?_, fun sender hadmits => hadmits.ok_iff.mpr (fun c => hfunded sender c hadmits)⟩
    intro text hpanic
    obtain ⟨hr, hne⟩ := validateTx_panics_iff.mp ⟨text, hpanic⟩
    exact hne (h hr)

def paidBody : TxBody := { TxCrypto.sampleBody with gasLimit := 50000 }

def paidTx : Transaction :=
  { paidBody with extra := [⟨0, 0, [⟨some 6, 1000, []⟩]⟩], v := 27, r := 1, s := 1 }

def samplePool : TxPool where
  signer := .eip155 1
  currentMaxGas := 100000
  gasPrice := 1
  currentState :=
    ⟨fun a => if a = 77 then some { newObject with nonce := 1, balance := 100000 } else none, 0⟩
  homestead := true

/-- Account 77 asks the deposit contract for its deposit and pays 1000 to account 6. -/
def refundTx : Transaction :=
  { paidTx with
    accountNonce := nonceAddOne
    gasLimit := 90000
    recipient := some depositAddress
    amount := 0
    payload := refundIdArr }

/-- Account 77 has a deposit of 10, whose withdrawal it has announced, and the contract holds `held`. -/
def refundPool (held : ℕ) : TxPool :=
  let depositor : Contract := { ownContract with callerAddress := 77 }
  let funded := (StateDB.addBalance ⟨fun _ => none, 0⟩ 77 100000).addBalance depositAddress held
  { samplePool with
    currentState := setWithdrawHeight depositor (setDeposit depositor funded 10) 1 }

def refundCrypto : TxCrypto SigContent := .sampleTxCrypto (.frontier refundTx.toTxBody)

theorem refundTx_sender : refundCrypto.sender (.eip155 1) refundTx = .ok 77 := by decide +kernel

theorem admission_covered_refund :
    Admission refundCrypto (refundPool 10) refundTx (sampleEvm 3) 100000 := by
  have hiff := admission_iff refundCrypto (refundPool 10) refundTx (sampleEvm 3) 100000
  refine hiff.1.mpr ⟨nofun, ?_⟩
  intro sender c hadmits hc hun
  cases refundTx_sender.symm.trans hadmits.signed
  rcases hun with hlt | ⟨hrecipient, -, -, hshort⟩
  · have hown : ExternallyOwned (refundPool 10).currentState 77 :=
      ⟨rfl, rfl, by decide +kernel, by decide +kernel, by decide⟩
    exact absurd (hiff.2 77 c hadmits hown hc) (not_le.mpr hlt)
  · obtain ⟨db₁, gp₁, gas, hreach, hc⟩ := hc
    obtain ⟨-, -, -, rfl, -⟩ := preCheck_eq_ok_iff.mp hreach.bought
    rcases mem_cons.mp hc with rfl | hextra
    · have hheld := hshort.short
      dsimp only at hheld
      exact absurd hheld (by decide +kernel)
    · split_ifs at hextra
      · have hlist : (refundTx.asMessage 77).extra.extraTo = [⟨some 6, 1000, []⟩] := rfl
        rw [hlist, extraCallsMade] at hextra
        rcases mem_cons.mp hextra with rfl | hnil
        · cases hrecipient
        · split_ifs at hnil <;> cases hnil
      · cases hextra

/-- The same transaction as a contract creation; and a refund that the contract cannot pay, which the
pool accepts all the same. -/
theorem creation_panics_refund_fails :
    samplePool.validateTx (TxCrypto.sampleTxCrypto (.frontier paidBody)) { paidTx with recipient := none } =
      .error nilDereference ∧
    Admits refundCrypto (refundPool 5) refundTx (sampleEvm 3) 100000 77 ∧
    ((refundTx.asMessage 77).transitionDb (sampleEvm 3) (refundPool 5).currentState 100000).result =
      .error (.vm .insufficientBalance) := by
  refine ⟨rfl, ⟨by decide +kernel, refundTx_sender, by decide +kernel, by decide, rfl⟩, ?_⟩
  decide +kernel

end TxPool

end MatrixNode
