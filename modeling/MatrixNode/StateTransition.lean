import MatrixNode.EvmCalls
import MatrixNode.TransactionSigning

/-! `core/state_transition.go` and `gaspool.go`: a message buys gas, pays a main recipient and then
a list of extra recipients, and gets back the gas that is left. -/
namespace MatrixNode
open GoLib UInt64

inductive TxError where
  | nonceTooHigh
  | nonceTooLow
  | insufficientBalanceForGas
  | gasLimitReached
  | txCountOverflow
  | vm (err : VmError)
  | panic (msg : String)
  deriving DecidableEq

/-- `types.Message`. The amounts are those of transactions, which cannot be negative. -/
structure Message where
  sender : Address
  recipient : Option Address
  nonce : UInt64
  amount : ℕ
  gasLimit : UInt64
  gasPrice : ℕ
  data : Bytes
  checkNonce : Bool
  extra : MatrixExtra

def txGas : ℕ := 21000

def txGasContractCreation : ℕ := 53000

def txDataNonZeroGas : ℕ := 68

def txDataZeroGas : ℕ := 4

def maxUint64 : ℕ := 0xffffffffffffffff

def txCount : ℕ := 1000

/-- The checks keep every step within 64 bits. -/
def intrinsicGas (data : Bytes) (contractCreation homestead : Bool) : Except VmError UInt64 :=
  let gas := if contractCreation && homestead then txGasContractCreation else txGas
  let nz := data.countP (· ≠ 0)
  if (maxUint64-gas)/txDataNonZeroGas < nz then .error .outOfGas
  else
    let gas := gas+nz*txDataNonZeroGas
    let z := data.length-nz
    if (maxUint64-gas)/txDataZeroGas < z then .error .outOfGas
    else .ok (ofNat (gas+z*txDataZeroGas))

namespace GasPool

def addGas (gp amount : UInt64) : Except TxError UInt64 :=
  if maxUint64-amount.toNat < gp.toNat then .error (.panic "gas pool pushed above uint64") else .ok (gp+amount)

def subGas (gp amount : UInt64) : Except TxError UInt64 :=
  if gp < amount then .error .gasLimitReached else .ok (gp-amount)

end GasPool

structure Outcome where
  db : StateDB
  gp : UInt64
  result : Except TxError (Bytes × UInt64 × Bool)

namespace Message
variable (msg : Message)

def gasCost : ℕ := msg.gasLimit.toNat*msg.gasPrice

def buyGas (db : StateDB) (gp : UInt64) : Except TxError (StateDB × UInt64) :=
  if db.getBalance msg.sender < msg.gasCost then .error .insufficientBalanceForGas
  else do
    let gp ← GasPool.subGas gp msg.gasLimit
    pure (db.subBalance msg.sender msg.gasCost, gp)

def preCheck (db : StateDB) (gp : UInt64) : Except TxError (StateDB × UInt64) :=
  if msg.checkNonce && db.getNonce msg.sender < msg.nonce then .error .nonceTooHigh
  else if msg.checkNonce && msg.nonce < db.getNonce msg.sender then .error .nonceTooLow
  else msg.buyGas db gp

def extraGas (homestead : Bool) (gas : UInt64) (extraTo : List TxTo) : Except VmError UInt64 :=
  extraTo.foldlM (fun gas ex => do
    let tmpgas ← intrinsicGas ex.payload ex.recipient.isNone homestead
    pure (gas+tmpgas)) gas

def callOrCreate (E : Evm) (recipient : Option Address) (payload : Bytes) (amount : ℕ)
    (db : StateDB) (gas : UInt64) : StateDB × CallReturn :=
  let (m, r) := E.outermost false (match recipient with
    | none => .create msg.sender payload gas amount
    | some addr => .call msg.sender addr payload gas amount) ⟨db, []⟩
  (m.db, r)

def mainCall (E : Evm) (db : StateDB) (gas : UInt64) : StateDB × CallReturn :=
  let db := if msg.recipient = none then db
    else db.setNonce msg.sender (db.getNonce msg.sender+1)
  msg.callOrCreate E msg.recipient msg.data msg.amount db gas

/-- The loop over the extra recipients: all calls share the gas, the first failure ends it. -/
def extraCalls (E : Evm) : List TxTo → StateDB × CallReturn → StateDB × CallReturn
  | [], s => s
  | ex :: rest, (db, r) =>
    let s := msg.callOrCreate E ex.recipient ex.payload ex.amount db r.gas
    if s.2.err = none then extraCalls E rest s else s

def calls (E : Evm) (db : StateDB) (gas : UInt64) : StateDB × CallReturn :=
  let s := msg.mainCall E db gas
  if s.2.err = none then msg.extraCalls E msg.extra.extraTo s else s

/-- A call that a message makes: the state it starts in, its gas, and what it sends. -/
structure MadeCall where
  db : StateDB
  gas : UInt64
  recipient : Option Address
  payload : Bytes
  amount : ℕ

def MadeCall.result (E : Evm) (c : MadeCall) : StateDB × CallReturn :=
  msg.callOrCreate E c.recipient c.payload c.amount c.db c.gas

def extraCallsMade (E : Evm) : List TxTo → StateDB × CallReturn → List MadeCall
  | [], _ => []
  | ex :: rest, (db, r) =>
    let s := msg.callOrCreate E ex.recipient ex.payload ex.amount db r.gas
    ⟨db, r.gas, ex.recipient, ex.payload, ex.amount⟩ ::
      if s.2.err = none then extraCallsMade E rest s else []

def mainStart (db : StateDB) : StateDB :=
  if msg.recipient = none then db else db.setNonce msg.sender (db.getNonce msg.sender+1)

/-- The calls in turn, up to the first that fails. -/
def callsMade (E : Evm) (db : StateDB) (gas : UInt64) : List MadeCall :=
  let s := msg.mainCall E db gas
  ⟨msg.mainStart db, gas, msg.recipient, msg.data, msg.amount⟩ ::
    if s.2.err = none then msg.extraCallsMade E msg.extra.extraTo s else []

/-- The end of `TransitionDb`: the gas that is left, with the refunds, goes back to the sender and
to the pool. The gas that was used is paid to nobody. -/
def refundGas (db : StateDB) (gp gas : UInt64) : Except TxError (StateDB × UInt64 × UInt64) := do
  let refund := (msg.gasLimit-gas)/2
  let refund := if db.refund < refund then db.refund else refund
  let gas := gas+refund
  let gp ← GasPool.addGas gp gas
  pure (db.addBalance msg.sender (gas.toNat*msg.gasPrice), gp, msg.gasLimit-gas)

/-- The end of `TransitionDb`, after the calls. -/
def finish (gp : UInt64) (s : StateDB × CallReturn) : Outcome :=
  if s.2.err = some .insufficientBalance then ⟨s.1, gp, .error (.vm .insufficientBalance)⟩
  else match msg.refundGas s.1 gp s.2.gas with
  | .error err => ⟨s.1, gp, .error err⟩
  | .ok (db, gp, used) => ⟨db, gp, .ok (s.2.ret, used, s.2.err ≠ none)⟩

/-- The middle of `TransitionDb`, when `gas` is the intrinsic gas of the main recipient. -/
def execute (E : Evm) (db : StateDB) (gp gas : UInt64) : Outcome :=
  if txCount-1 < msg.extra.extraTo.length then ⟨db, gp, .error .txCountOverflow⟩
  else match extraGas E.rules.isHomestead gas msg.extra.extraTo with
  -- The error of the loop is dropped: what is returned is the error of the main recipient.
  | .error _ => ⟨db, gp, .ok ([], 0, false)⟩
  | .ok gas =>
    if msg.gasLimit < gas then ⟨db, gp, .error (.vm .outOfGas)⟩
    else msg.finish gp (msg.calls E db (msg.gasLimit-gas))

def transitionDb (E : Evm) (db : StateDB) (gp : UInt64) : Outcome :=
  match msg.preCheck db gp with
  | .error err => ⟨db, gp, .error err⟩
  | .ok (db, gp) =>
    match intrinsicGas msg.data msg.recipient.isNone E.rules.isHomestead with
    | .error err => ⟨db, gp, .error (.vm err)⟩
    | .ok gas => msg.execute E db gp gas

section Gas
variable {msg} {E : Evm}

theorem callOrCreate_gas_le (msg : Message) (recipient : Option Address) (payload : Bytes) (amount : ℕ)
    (db : StateDB) (gas : UInt64) :
    (msg.callOrCreate E recipient payload amount db gas).2.gas ≤ gas := by
  have hfrugal := Evm.handler_frugal (E := E) (callCreateDepth+1) false
  cases recipient with
  | none => exact hfrugal (.create msg.sender payload gas amount) ⟨db, []⟩
  | some addr => exact hfrugal (.call msg.sender addr payload gas amount) ⟨db, []⟩

theorem extraCalls_gas_le (extraTo : List TxTo) (s : StateDB × CallReturn) :
    (msg.extraCalls E extraTo s).2.gas ≤ s.2.gas := by
  induction extraTo generalizing s with
  | nil => exact UInt64.le_refl _
  | cons ex rest ih =>
    have hcall := callOrCreate_gas_le (E := E) msg ex.recipient ex.payload ex.amount s.1 s.2.gas
    unfold extraCalls
    dsimp only
    split_ifs
    · exact UInt64.le_trans (ih _) hcall
    · exact hcall

theorem calls_gas_le (db : StateDB) (gas : UInt64) : (msg.calls E db gas).2.gas ≤ gas := by
  unfold calls
  dsimp only
  split_ifs
  · exact UInt64.le_trans (extraCalls_gas_le ..) (callOrCreate_gas_le ..)
  · exact callOrCreate_gas_le ..

end Gas

section Made
variable {msg} {E : Evm} {db : StateDB} {gas : UInt64} {c : MadeCall}

theorem extraCalls_of_failed {extraTo : List TxTo} {s : StateDB × CallReturn}
    (h : c ∈ msg.extraCallsMade E extraTo s) (hc : (c.result msg E).2.err ≠ none) :
    msg.extraCalls E extraTo s = c.result msg E := by
  induction extraTo generalizing s with
  | nil => cases h
  | cons ex rest ih =>
    unfold extraCallsMade at h
    unfold extraCalls
    rcases List.mem_cons.mp h with rfl | h
    · exact if_neg hc
    · dsimp only at h ⊢
      split_ifs at h ⊢
      · exact ih h
      · cases h

theorem exists_failed_extraCall {extraTo : List TxTo} {s : StateDB × CallReturn}
    (hs : s.2.err = none) (h : (msg.extraCalls E extraTo s).2.err ≠ none) :
    ∃ c ∈ msg.extraCallsMade E extraTo s, c.result msg E = msg.extraCalls E extraTo s := by
  induction extraTo generalizing s with
  | nil => exact absurd hs h
  | cons ex rest ih =>
    unfold extraCalls at h ⊢
    unfold extraCallsMade
    dsimp only at h ⊢
    split_ifs at h ⊢ with hok
    · obtain ⟨c, hc, hres⟩ := ih hok h
      exact ⟨c, List.mem_cons_of_mem _ hc, hres⟩
    · exact ⟨_, List.mem_cons_self, rfl⟩

/-- A call that fails is the last one, and its result is that of the message. -/
theorem calls_of_failed (h : c ∈ msg.callsMade E db gas) (hc : (c.result msg E).2.err ≠ none) :
    msg.calls E db gas = c.result msg E := by
  unfold callsMade at h
  unfold calls
  rcases List.mem_cons.mp h with rfl | h
  · exact if_neg hc
  · dsimp only at h ⊢
    split_ifs at h ⊢
    · exact extraCalls_of_failed h hc
    · cases h

theorem exists_failed_call (h : (msg.calls E db gas).2.err ≠ none) :
    ∃ c ∈ msg.callsMade E db gas, c.result msg E = msg.calls E db gas := by
  unfold calls at h ⊢
  unfold callsMade
  dsimp only at h ⊢
  split_ifs at h ⊢ with hok
  · obtain ⟨c, hc, hres⟩ := exists_failed_extraCall hok h
    exact ⟨c, List.mem_cons_of_mem _ hc, hres⟩
  · exact ⟨_, List.mem_cons_self, rfl⟩

end Made

/-- No slice of Go comes near to this length. -/
def ShortPayloads (extraTo : List TxTo) : Prop := ∀ ex ∈ extraTo, ex.payload.length < 2^57

instance (extraTo : List TxTo) : Decidable (ShortPayloads extraTo) :=
  inferInstanceAs (Decidable (∀ ex ∈ extraTo, _))

section Metered
variable (homestead : Bool)

theorem intrinsicGas_of_short {data : Bytes} (h : data.length < 2^57) (contractCreation : Bool) :
    ∃ gas, intrinsicGas data contractCreation homestead = .ok gas := by
  have hnz : data.countP (· ≠ 0) ≤ data.length := List.countP_le_length
  have hbase : (if (contractCreation && homestead) = true then txGasContractCreation else txGas) ≤
      53000 := by
    unfold txGasContractCreation txGas
    split_ifs <;> norm_num
  unfold intrinsicGas maxUint64 txDataNonZeroGas txDataZeroGas
  dsimp only
  rw [if_neg (by omega), if_neg (by omega)]
  exact ⟨_, rfl⟩

/-- The intrinsic gas of payloads of such a length can be counted, so the loop does not fail. -/
theorem extraGas_eq_ok {extraTo : List TxTo} (h : ShortPayloads extraTo) (gas : UInt64) :
    ∃ total, extraGas homestead gas extraTo = .ok total := by
  induction extraTo generalizing gas with
  | nil => exact ⟨gas, rfl⟩
  | cons ex rest ih =>
    obtain ⟨tmpgas, hgas⟩ := intrinsicGas_of_short homestead (h ex List.mem_cons_self)
      ex.recipient.isNone
    obtain ⟨total, htotal⟩ := ih (fun e he => h e (List.mem_cons_of_mem _ he)) (gas+tmpgas)
    refine ⟨total, ?_⟩
    unfold extraGas at htotal ⊢
    rw [List.foldlM_cons, hgas]
    exact htotal

end Metered

/-- The calls of the message are made, from the state `db₁` in which the gas has been bought. -/
structure Reaches (E : Evm) (db : StateDB) (gp : UInt64) (db₁ : StateDB) (gp₁ gas : UInt64) : Prop where
  bought : msg.preCheck db gp = .ok (db₁, gp₁)
  count : msg.extra.extraTo.length < txCount
  metered : ∃ intr total,
    intrinsicGas msg.data msg.recipient.isNone E.rules.isHomestead = .ok intr ∧
    extraGas E.rules.isHomestead intr msg.extra.extraTo = .ok total ∧ total ≤ msg.gasLimit ∧
    gas = msg.gasLimit-total

/-- The call is made when the message is executed. -/
def Makes (E : Evm) (db : StateDB) (gp : UInt64) (c : MadeCall) : Prop :=
  ∃ db₁ gp₁ gas, msg.Reaches E db gp db₁ gp₁ gas ∧ c ∈ msg.callsMade E db₁ gas

section Spec
variable {msg} {E : Evm} {db db' : StateDB} {gp gp' gas : UInt64}

theorem preCheck_eq_ok_iff : msg.preCheck db gp = .ok (db', gp') ↔
    (msg.checkNonce = true → db.getNonce msg.sender = msg.nonce) ∧
    msg.gasCost ≤ db.getBalance msg.sender ∧ msg.gasLimit ≤ gp ∧
    db' = db.subBalance msg.sender msg.gasCost ∧ gp' = gp-msg.gasLimit := by
  unfold preCheck buyGas GasPool.subGas
  simp only [ite_error_eq_ok, bind_eq_ok_iff, pure_eq_ok, Except.ok.injEq, Prod.mk.injEq,
    Bool.and_eq_true, decide_eq_true_eq, not_and, UInt64.not_lt, not_lt]
  constructor
  · rintro ⟨hlow, hhigh, hcost, gp₁, ⟨hgp, rfl⟩, rfl, rfl⟩
    exact ⟨fun h => UInt64.le_antisymm (hhigh h) (hlow h), hcost, hgp, rfl, rfl⟩
  · rintro ⟨hnonce, hcost, hgp, rfl, rfl⟩
    refine ⟨fun h => ?_, fun h => ?_, hcost, _, ⟨hgp, rfl⟩, rfl, rfl⟩
    · rw [hnonce h]
      exact UInt64.le_refl _
    · rw [hnonce h]
      exact UInt64.le_refl _

theorem pool_after_preCheck (h : msg.preCheck db gp = .ok (db', gp')) :
    gp'.toNat+msg.gasLimit.toNat < 2^64 := by
  obtain ⟨-, -, hle, -, rfl⟩ := preCheck_eq_ok_iff.mp h
  have hlt := gp.toNat_lt
  have hle' := le_iff_toNat_le.mp hle
  rw [UInt64.toNat_sub_of_le _ _ hle]
  omega

/-- At most half of what was used comes back, so neither sum wraps around. -/
theorem refundGas_eq_ok (db : StateDB) (hgp : gp.toNat+msg.gasLimit.toNat < 2^64) (hgas : gas ≤ msg.gasLimit) :
    ∃ left, left ≤ msg.gasLimit ∧ msg.refundGas db gp gas =
      .ok (db.addBalance msg.sender (left.toNat*msg.gasPrice), gp+left, msg.gasLimit-left) := by
  obtain ⟨refund, hrefund⟩ : ∃ refund : UInt64, refund =
      if db.refund < (msg.gasLimit-gas)/2 then db.refund else (msg.gasLimit-gas)/2 := ⟨_, rfl⟩
  have hlimit := msg.gasLimit.toNat_lt
  have hgas' := le_iff_toNat_le.mp hgas
  have hhalf : refund.toNat ≤ (msg.gasLimit.toNat-gas.toNat)/2 := by
    have hdiv : ((msg.gasLimit-gas)/2).toNat = (msg.gasLimit.toNat-gas.toNat)/2 := by
      rw [UInt64.toNat_div, UInt64.toNat_sub_of_le _ _ hgas]
      rfl
    rw [hrefund, ← hdiv]
    split_ifs with h
    · exact (lt_iff_toNat_lt.mp h).le
    · exact le_rfl
  have hleft : (gas+refund).toNat = gas.toNat+refund.toNat := by
    rw [UInt64.toNat_add, Nat.mod_eq_of_lt (by omega)]
  have hle : gas+refund ≤ msg.gasLimit := by
    rw [le_iff_toNat_le]
    omega
  have hpool : ¬ maxUint64-(gas+refund).toNat < gp.toNat := by
    have hle' := le_iff_toNat_le.mp hle
    unfold maxUint64
    omega
  refine ⟨gas+refund, hle, ?_⟩
  unfold refundGas GasPool.addGas
  dsimp only
  rw [← hrefund, if_neg hpool]
  rfl

section Ok
variable {ret : Bytes} {used : UInt64} {failed : Bool}

theorem finish_ok {s : StateDB × CallReturn}
    (h : msg.finish gp s = ⟨db', gp', .ok (ret, used, failed)⟩) :
    s.2.err ≠ some .insufficientBalance ∧ (failed = true ↔ s.2.err ≠ none) ∧
    msg.refundGas s.1 gp s.2.gas = .ok (db', gp', used) := by
  unfold finish at h
  split_ifs at h with hfunds
  · cases h
  · split at h
    · cases h
    next db₂ gp₂ used₂ hrefund =>
      cases h
      exact ⟨hfunds, by simp, hrefund⟩

theorem execute_ok (h : msg.execute E db gp gas = ⟨db', gp', .ok (ret, used, failed)⟩) :
    msg.extra.extraTo.length < txCount ∧
    ((∃ err, extraGas E.rules.isHomestead gas msg.extra.extraTo = .error err ∧
      db' = db ∧ used = 0 ∧ failed = false) ∨
    (∃ total, extraGas E.rules.isHomestead gas msg.extra.extraTo = .ok total ∧
      total ≤ msg.gasLimit ∧ msg.finish gp (msg.calls E db (msg.gasLimit-total)) =
        ⟨db', gp', .ok (ret, used, failed)⟩)) := by
  unfold execute at h
  split_ifs at h with hcount
  · cases h
  · have hlength : msg.extra.extraTo.length < txCount := by
      unfold txCount at hcount ⊢
      omega
    refine ⟨hlength, ?_⟩
    split at h
    next err hextra =>
      left
      cases h
      exact ⟨err, hextra, rfl, rfl, rfl⟩
    next total hextra =>
      right
      split_ifs at h with hlimit
      · cases h
      · exact ⟨total, hextra, UInt64.not_lt.mp hlimit, h⟩

theorem transitionDb_ok (h : msg.transitionDb E db gp = ⟨db', gp', .ok (ret, used, failed)⟩) :
    ∃ db₁ gp₁ gas, msg.preCheck db gp = .ok (db₁, gp₁) ∧
      intrinsicGas msg.data msg.recipient.isNone E.rules.isHomestead = .ok gas ∧
      msg.execute E db₁ gp₁ gas = ⟨db', gp', .ok (ret, used, failed)⟩ := by
  unfold transitionDb at h
  split at h
  · cases h
  next db₁ gp₁ hpre =>
    split at h
    · cases h
    next gas hgas => exact ⟨db₁, gp₁, gas, hpre, hgas, h⟩

end Ok

section Reaches
variable {db₁ : StateDB} {gp₁ : UInt64}

theorem Reaches.transitionDb_eq (h : msg.Reaches E db gp db₁ gp₁ gas) :
    msg.transitionDb E db gp = msg.finish gp₁ (msg.calls E db₁ gas) := by
  obtain ⟨hpre, hcount, intr, total, hintr, hextra, hlimit, rfl⟩ := h
  have hexec : msg.execute E db₁ gp₁ intr = msg.finish gp₁ (msg.calls E db₁ (msg.gasLimit-total)) := by
    unfold execute
    rw [if_neg (by unfold txCount at hcount ⊢; omega), hextra]
    exact if_neg (UInt64.not_lt.mpr hlimit)
  unfold transitionDb
  rw [hpre]
  rw [hintr]
  exact hexec

theorem Reaches.gas_le (h : msg.Reaches E db gp db₁ gp₁ gas) :
    (msg.calls E db₁ gas).2.gas ≤ msg.gasLimit := by
  obtain ⟨-, -, intr, total, -, -, hlimit, rfl⟩ := h
  refine UInt64.le_trans (calls_gas_le ..) ?_
  rw [le_iff_toNat_le, UInt64.toNat_sub_of_le _ _ hlimit]
  omega

/-- The pool has room for the gas that is left, since all of it was taken from there. -/
theorem transitionDb_calls (h : msg.Reaches E db gp db₁ gp₁ gas)
    (hfunds : (msg.calls E db₁ gas).2.err ≠ some .insufficientBalance) :
    ∃ left, left ≤ msg.gasLimit ∧ msg.transitionDb E db gp =
      ⟨(msg.calls E db₁ gas).1.addBalance msg.sender (left.toNat*msg.gasPrice), gp₁+left,
        .ok ((msg.calls E db₁ gas).2.ret, msg.gasLimit-left, (msg.calls E db₁ gas).2.err ≠ none)⟩ := by
  obtain ⟨left, hleft, hrefund⟩ := refundGas_eq_ok (msg.calls E db₁ gas).1
    (pool_after_preCheck h.bought) h.gas_le
  refine ⟨left, hleft, ?_⟩
  rw [h.transitionDb_eq, finish, if_neg hfunds, hrefund]

/-- Either the calls were made, or the gas of an extra payload could not be counted. -/
theorem reaches_of_ok {ret : Bytes} {used : UInt64} {failed : Bool}
    (h : msg.transitionDb E db gp = ⟨db', gp', .ok (ret, used, failed)⟩) :
    (failed = false ∧ ¬ ShortPayloads msg.extra.extraTo) ∨ ∃ db₁ gp₁ gas,
      msg.Reaches E db gp db₁ gp₁ gas ∧
      msg.finish gp₁ (msg.calls E db₁ gas) = ⟨db', gp', .ok (ret, used, failed)⟩ := by
  obtain ⟨db₁, gp₁, intr, hpre, hintr, hexec⟩ := transitionDb_ok h
  obtain ⟨hcount, ⟨err, hextra, -, -, rfl⟩ | ⟨total, hextra, hlimit, hfinish⟩⟩ := execute_ok hexec
  · refine .inl ⟨rfl, fun hshort => ?_⟩
    obtain ⟨total, htotal⟩ := extraGas_eq_ok E.rules.isHomestead hshort intr
    rw [hextra] at htotal
    cases htotal
  · exact .inr ⟨db₁, gp₁, _, ⟨hpre, hcount, intr, total, hintr, hextra, hlimit, rfl⟩, hfinish⟩

end Reaches

end Spec

section Pool
variable {msg : Message} {E : Evm} {db db₁ : StateDB} {gp gp₁ gas : UInt64} {err : TxError}

theorem finish_gp_of_error {s : StateDB × CallReturn} (h : (msg.finish gp s).result = .error err) :
    (msg.finish gp s).gp = gp := by
  revert h
  unfold finish
  split_ifs
  · exact fun _ => rfl
  · split
    · exact fun _ => rfl
    · exact nofun

theorem execute_gp_of_error (h : (msg.execute E db gp gas).result = .error err) :
    (msg.execute E db gp gas).gp = gp := by
  revert h
  unfold execute
  split_ifs
  · exact fun _ => rfl
  · split
    · exact nofun
    · split_ifs
      · exact fun _ => rfl
      · exact finish_gp_of_error

theorem transitionDb_gp_of_error (hpre : msg.preCheck db gp = .ok (db₁, gp₁))
    (h : (msg.transitionDb E db gp).result = .error err) : (msg.transitionDb E db gp).gp = gp₁ := by
  revert h
  unfold transitionDb
  rw [hpre]
  dsimp only
  split
  · exact fun _ => rfl
  · exact execute_gp_of_error

/-- A rejected message leaves the pool as it was exactly if it was rejected before it bought gas, or
had no gas to buy. -/
theorem gp_of_error_iff (h : (msg.transitionDb E db gp).result = .error err) :
    (msg.transitionDb E db gp).gp = gp ↔ (∃ e, msg.preCheck db gp = .error e) ∨ msg.gasLimit = 0 := by
  cases hpre : msg.preCheck db gp with
  | error e =>
    refine iff_of_true ?_ (.inl ⟨e, rfl⟩)
    rw [transitionDb, hpre]
  | ok bought =>
    obtain ⟨-, -, -, -, hgp⟩ := preCheck_eq_ok_iff.mp hpre
    rw [transitionDb_gp_of_error hpre h, hgp, UInt64.sub_eq_iff_eq_add]
    simp

def cheapMessage : Message := ⟨100, some 200, 0, 0, 100, 0, [], false, ⟨0, 0, []⟩⟩

theorem gp_of_error_small_pool :
    (cheapMessage.transitionDb (sampleEvm 1) ⟨fun _ => none, 0⟩ 50).gp = 50 := by
  have h : (cheapMessage.transitionDb (sampleEvm 1) ⟨fun _ => none, 0⟩ 50).result =
    .error .gasLimitReached := rfl
  exact (gp_of_error_iff h).mpr (.inl ⟨_, rfl⟩)

/-- The gas limit is below the intrinsic gas, and the pool loses all of it. -/
theorem rejected_message_uses_pool :
    (cheapMessage.transitionDb (sampleEvm 1) ⟨fun _ => none, 0⟩ 200).result = .error (.vm .outOfGas) ∧
    (cheapMessage.transitionDb (sampleEvm 1) ⟨fun _ => none, 0⟩ 200).gp = 100 :=
  ⟨rfl, rfl⟩

end Pool

end Message

end MatrixNode
