import MatrixNode.DepositCalls

/-! What every call and creation of `core/vm/evm.go` guarantees, whatever code it runs: the gas it
returns, the state after a failure, and the accounts it cannot take anything from. -/
namespace MatrixNode
open GoLib UInt64

theorem precompiles_eq_deposit {addr : Address} (h : precompiles addr = some .deposit) :
    addr = depositAddress := by
  unfold precompiles at h
  split_ifs at h with hstandard haddr
  · cases h
  · exact haddr

def Request.gas : Request → UInt64
  | .call _ _ _ gas _ | .callCode _ _ _ gas _ | .delegateCall _ _ _ gas | .staticCall _ _ _ gas
  | .create _ _ gas _ => gas

def Handler.Frugal (sub : Handler) : Prop :=
  ∀ readOnly request m, (sub readOnly request m).2.gas ≤ request.gas

namespace Evm
variable {E : Evm} {sub : Handler}

variable {snapshot : StateDB} {gas : UInt64} {result : Machine × CallReturn}

theorem settle_gas_le (h : result.2.gas ≤ gas) : (settle snapshot result).2.gas ≤ gas := by
  unfold settle
  split
  next m r =>
    split
    · exact h
    · split_ifs
      · exact UInt64.zero_le
      · exact h

variable {Q : StateDB → Prop}

theorem settle_db (hs : Q snapshot) (h : Q result.1.db) : Q (settle snapshot result).1.db := by
  unfold settle
  split
  next m r =>
    split
    · exact h
    · exact hs

theorem settleCreate_db {addr : Address} (hs : Q snapshot) (h : Q result.1.db)
    (hcode : Q result.1.db → Q (result.1.db.setCode addr result.2.ret)) :
    Q (E.settleCreate snapshot addr result).1.db := by
  have hite (c : Prop) [Decidable c] {s t : StateDB} (hs : Q s) (ht : Q t) :
      Q (if c then s else t) := by
    split_ifs
    · exact hs
    · exact ht
  exact hite _ hs (hite _ (hcode h) h)

theorem runPrecompiledContract_db {p : Precompiled} {input : Bytes} {contract : Contract} {m : Machine}
    (h : Q m.db) (hdeposit : p = .deposit → Q (MatrixDeposit.run contract m.db E.blockNumber input).1) :
    Q (E.runPrecompiledContract p input contract m).1.db := by
  unfold runPrecompiledContract
  dsimp only
  split_ifs
  · exact h
  cases p with
  | standard => split <;> exact h
  | deposit => split <;> exact hdeposit rfl

theorem gas_after_call {spent back : UInt64} (hspent : spent ≤ gas) (hback : back ≤ spent) :
    gas-spent+back ≤ gas := by
  have hspent' := UInt64.le_iff_toNat_le.mp hspent
  have hback' := UInt64.le_iff_toNat_le.mp hback
  have hgas := gas.toNat_lt
  rw [UInt64.le_iff_toNat_le, UInt64.toNat_add, UInt64.toNat_sub_of_le _ _ hspent,
    Nat.mod_eq_of_lt (by omega)]
  omega

theorem sub_gas_le {cost : UInt64} (h : cost ≤ gas) : gas-cost ≤ gas := by
  rw [UInt64.le_iff_toNat_le, UInt64.toNat_sub_of_le _ _ h]
  omega

theorem callGas_le {g : UInt64} {value : ℕ} (h : callCost g value ≤ gas.toNat) :
    (callGas g value).toNat ≤ callCost g value := by
  have hgas := gas.toNat_lt
  have hstipend : callStipend.toNat = 2300 := rfl
  have htransfer : callValueTransferGas.toNat = 9000 := rfl
  unfold callGas
  unfold callCost at h ⊢
  split_ifs at h ⊢
  · rw [UInt64.toNat_add, hstipend, htransfer, Nat.mod_eq_of_lt (by omega)]
    omega
  · exact Nat.le_add_right ..

theorem createGas_le (isEIP150 : Bool) (gas : UInt64) :
    (if isEIP150 then gas-gas/64 else gas) ≤ gas := by
  split_ifs
  · have hdiv : gas/64 ≤ gas :=
      Nat.div_le_self ..
    rw [UInt64.le_iff_toNat_le, UInt64.toNat_sub_of_le _ _ hdiv]
    omega
  · exact UInt64.le_refl gas

/-- The requests that an instruction of a frame can make, and the gas that it takes for them. -/
inductive Asks (E : Evm) (readOnly : Bool) (contract : Contract) (gas : UInt64) :
    Request → UInt64 → Prop
  | create (code : Bytes) (value : ℕ) (hwrite : ¬ E.writeProtected readOnly = true) :
    Asks E readOnly contract gas
      (.create contract.address code (if E.rules.isEIP150 then gas-gas/64 else gas) value)
      (if E.rules.isEIP150 then gas-gas/64 else gas)
  | call (addr : Address) (input : Bytes) (g : UInt64) (value : ℕ)
    (hwrite : ¬ (E.writeProtected readOnly && value ≠ 0) = true)
    (hgas : callCost g value ≤ gas.toNat) :
    Asks E readOnly contract gas (.call contract.address addr input (callGas g value) value)
      (ofNat (callCost g value))
  | callCode (addr : Address) (input : Bytes) (g : UInt64) (value : ℕ)
    (hgas : callCost g value ≤ gas.toNat) :
    Asks E readOnly contract gas (.callCode contract.address addr input (callGas g value) value)
      (ofNat (callCost g value))
  | delegateCall (addr : Address) (input : Bytes) (g : UInt64) (hgas : g ≤ gas) :
    Asks E readOnly contract gas (.delegateCall { contract with gas := gas-g } addr input g) g
  | staticCall (addr : Address) (input : Bytes) (g : UInt64) (hgas : g ≤ gas) :
    Asks E readOnly contract gas (.staticCall contract.address addr input g) g

section Asks
variable {readOnly : Bool} {contract : Contract} {gas spent g : UInt64} {value : ℕ}
  {request : Request}

theorem toNat_callCost (h : callCost g value ≤ gas.toNat) :
    (ofNat (callCost g value)).toNat = callCost g value := by
  rw [toNat_ofNat', Nat.mod_eq_of_lt (h.trans_lt gas.toNat_lt)]

theorem Asks.spent_le (h : Asks E readOnly contract gas request spent) :
    spent ≤ gas ∧ request.gas ≤ spent := by
  have hcall {g : UInt64} {value : ℕ} (hgas : callCost g value ≤ gas.toNat) :
      ofNat (callCost g value) ≤ gas ∧ callGas g value ≤ ofNat (callCost g value) := by
    rw [UInt64.le_iff_toNat_le, UInt64.le_iff_toNat_le, toNat_callCost hgas]
    exact ⟨hgas, callGas_le hgas⟩
  cases h with
  | create => exact ⟨createGas_le .., UInt64.le_refl _⟩
  | call addr input g value hwrite hgas => exact hcall hgas
  | callCode addr input g value hgas => exact hcall hgas
  | delegateCall addr input _ hgas => exact ⟨hgas, UInt64.le_refl _⟩
  | staticCall addr input _ hgas => exact ⟨hgas, UInt64.le_refl _⟩

end Asks

variable {readOnly : Bool}

variable {contract : Contract}

/-- The rule for the main loop: what every instruction that goes on keeps holds at the end. Bytecode
itself never fails for want of funds. -/
theorem exec_induction (Inv : UInt64 → Machine → Prop) (Out : Machine × CallReturn → Prop)
    (hend : ∀ gas m ret err, err ≠ some .insufficientBalance → Inv gas m →
      Out (m, ⟨ret, gas, err, 0⟩)) (huse : ∀ gas m cost, cost ≤ gas → Inv gas m → Inv (gas-cost) m)
    (hrefund : ∀ gas m g, Inv gas m → Inv gas { m with db := m.db.addRefund g })
    (hstore : ∀ gas m loc val, ¬ E.writeProtected readOnly = true → Inv gas m →
      Inv gas { m with db := m.db.setState contract.address loc val })
    (hask : ∀ gas m request spent, Asks E readOnly contract gas request spent → Inv gas m →
      Inv (gas-spent+(sub readOnly request m).2.gas) (sub readOnly request m).1)
    (hdestroy : ∀ gas m beneficiary, ¬ E.writeProtected readOnly = true → Inv gas m →
      Out ({ m with db := (m.db.addBalance beneficiary
        (m.db.getBalance contract.address)).suicide contract.address }, ⟨[], gas, none, 0⟩))
    (program : Program) (gas : UInt64) (m : Machine) (h : Inv gas m) :
    Out (E.exec sub readOnly contract program gas m) := by
  induction program generalizing gas m with
  | stop ret => exact hend gas m ret none (by decide) h
  | revert ret => exact hend gas m ret _ (by decide) h
  | fail msg => exact hend gas m [] _ (by simp) h
  | useGas cost next ih =>
    rw [exec]
    split_ifs with hgas
    · exact hend gas m [] _ (by decide) h
    · exact ih _ m (huse gas m cost (UInt64.not_lt.mp hgas) h)
  | addRefund g next ih => exact ih _ _ (hrefund gas m g h)
  | read next ih => exact ih _ _ _ m h
  | sstore loc val next ih =>
    rw [exec]
    split_ifs with hwrite
    · exact hend gas m [] _ (by decide) h
    · exact ih _ _ (hstore gas m loc val hwrite h)
  | log next ih =>
    rw [exec]
    split_ifs
    · exact hend gas m [] _ (by decide) h
    · exact ih _ m h
  | create code value next ih =>
    by_cases hwrite : E.writeProtected readOnly = true
    · rw [exec, if_pos hwrite]
      exact hend gas m [] _ (by decide) h
    · rw [exec, if_neg hwrite]
      exact ih _ _ _ (hask gas m _ _ (.create code value hwrite) h)
  | call addr input g value next ih =>
    rw [exec]
    split_ifs with hwrite hgas
    · exact hend gas m [] _ (by decide) h
    · exact hend gas m [] _ (by decide) h
    · exact ih _ _ _ (hask gas m _ _ (.call addr input g value hwrite (not_lt.mp hgas)) h)
  | callCode addr input g value next ih =>
    rw [exec]
    split_ifs with hgas
    · exact hend gas m [] _ (by decide) h
    · exact ih _ _ _ (hask gas m _ _ (.callCode addr input g value (not_lt.mp hgas)) h)
  | delegateCall addr input g next ih =>
    rw [exec]
    split_ifs with hgas
    · exact hend gas m [] _ (by decide) h
    · exact ih _ _ _ (hask gas m _ _ (.delegateCall addr input g (UInt64.not_lt.mp hgas)) h)
  | staticCall addr input g next ih =>
    rw [exec]
    split_ifs with hgas
    · exact hend gas m [] _ (by decide) h
    · exact ih _ _ _ (hask gas m _ _ (.staticCall addr input g (UInt64.not_lt.mp hgas)) h)
  | selfdestruct beneficiary =>
    rw [exec]
    split_ifs with hwrite
    · exact hend gas m [] _ (by decide) h
    · exact hdestroy gas m beneficiary hwrite h

theorem exec_gas_le (hsub : sub.Frugal) (readOnly : Bool) (contract : Contract) (program : Program)
    (gas : UInt64) (m : Machine) : (E.exec sub readOnly contract program gas m).2.gas ≤ gas := by
  refine exec_induction (fun left _ => left ≤ gas) (fun result => result.2.gas ≤ gas)
    ?_ ?_ ?_ ?_ ?_ ?_ program gas m (UInt64.le_refl gas)
  · intro left m ret err _ h
    exact h
  · intro left m cost hcost h
    exact UInt64.le_trans (sub_gas_le hcost) h
  · intro left m g h
    exact h
  · intro left m loc val _ h
    exact h
  · intro left m request spent hask h
    obtain ⟨hspent, hgiven⟩ := hask.spent_le
    have hback := UInt64.le_trans (hsub readOnly request m) hgiven
    exact UInt64.le_trans (gas_after_call hspent hback) h
  · intro left m beneficiary _ h
    exact h

theorem runPrecompiledContract_gas_le (p : Precompiled) (input : Bytes) (contract : Contract)
    (m : Machine) : (E.runPrecompiledContract p input contract m).2.gas ≤ contract.gas := by
  have hle (required : UInt64) (h : ¬ contract.gas < required) :
      contract.gas-required ≤ contract.gas :=
    sub_gas_le (UInt64.not_lt.mp h)
  unfold runPrecompiledContract
  dsimp only
  split_ifs with h
  · exact UInt64.le_refl _
  · split <;> exact hle _ h

theorem run_gas_le (hsub : sub.Frugal) (readOnly : Bool) (contract : Contract) (input : Bytes)
    (m : Machine) : (E.run sub readOnly contract input m).2.gas ≤ contract.gas := by
  unfold run
  split
  · exact runPrecompiledContract_gas_le ..
  · split_ifs
    · exact UInt64.le_refl _
    · exact exec_gas_le hsub ..

theorem settleCreate_gas_le {snapshot : StateDB} {addr : Address} {result : Machine × CallReturn}
    {gas : UInt64} (h : result.2.gas ≤ gas) :
    (E.settleCreate snapshot addr result).2.gas ≤ gas := by
  have hzero (c : Prop) [Decidable c] {x : UInt64} (hx : x ≤ gas) : (if c then 0 else x) ≤ gas := by
    split_ifs
    · exact UInt64.zero_le
    · exact hx
  apply hzero
  split_ifs with hstored
  · exact UInt64.le_trans (sub_gas_le hstored.2.2) h
  · exact h

/-- The frame that a request opens, creations apart: its mode, its contract, its input and the state
that it starts in. -/
inductive Opens (readOnly : Bool) (m : Machine) :
    Request → Bool → Contract → Bytes → StateDB → Prop
  | call (caller addr : Address) (input : Bytes) (gas : UInt64) (value : ℕ) :
    Opens readOnly m (.call caller addr input gas value) readOnly
      ⟨caller, addr, addr, (enterCall m.db caller addr value).getCode addr, gas, value⟩ input
      (enterCall m.db caller addr value)
  | callCode (caller addr : Address) (input : Bytes) (gas : UInt64) (value : ℕ) :
    Opens readOnly m (.callCode caller addr input gas value) readOnly
      ⟨caller, caller, addr, m.db.getCode addr, gas, value⟩ input m.db
  | delegateCall (parent : Contract) (addr : Address) (input : Bytes) (gas : UInt64) :
    Opens readOnly m (.delegateCall parent addr input gas) readOnly
      ⟨parent.callerAddress, parent.address, addr, m.db.getCode addr, gas, parent.value⟩ input m.db
  | staticCall (caller addr : Address) (input : Bytes) (gas : UInt64) :
    Opens readOnly m (.staticCall caller addr input gas) true
      ⟨caller, addr, addr, m.db.getCode addr, gas, 0⟩ input m.db

/-- Each check that fails gives the gas back; behind the last one the frame opens. -/
theorem handle_cases (E : Evm) (sub : Handler) (depth : ℕ) (readOnly : Bool) (request : Request)
    (m : Machine) :
    (∃ caller code gas value, request = .create caller code gas value) ∨
    (∃ err, E.handle sub depth readOnly request m = (m, ⟨[], request.gas, err, 0⟩)) ∨
    ∃ mode contract input db, Opens readOnly m request mode contract input db ∧
      E.handle sub depth readOnly request m =
        settle m.db (E.run sub mode contract input { m with db := db }) := by
  unfold handle
  cases request with
  | call caller addr input gas value =>
    right
    dsimp only
    unfold call
    split_ifs
    · exact .inl ⟨_, rfl⟩
    · exact .inl ⟨_, rfl⟩
    · exact .inl ⟨_, rfl⟩
    · exact .inl ⟨_, rfl⟩
    · exact .inr ⟨_, _, _, _, .call caller addr input gas value, rfl⟩
  | callCode caller addr input gas value =>
    right
    dsimp only
    unfold callCode
    split_ifs
    · exact .inl ⟨_, rfl⟩
    · exact .inl ⟨_, rfl⟩
    · exact .inl ⟨_, rfl⟩
    · exact .inr ⟨_, _, _, _, .callCode caller addr input gas value, rfl⟩
  | delegateCall parent addr input gas =>
    right
    unfold delegateCall
    split_ifs
    · exact .inl ⟨_, rfl⟩
    · exact .inl ⟨_, rfl⟩
    · exact .inr ⟨_, _, _, _, .delegateCall parent addr input gas, rfl⟩
  | staticCall caller addr input gas =>
    right
    unfold staticCall
    split_ifs
    · exact .inl ⟨_, rfl⟩
    · exact .inl ⟨_, rfl⟩
    · exact .inr ⟨_, _, _, _, .staticCall caller addr input gas, rfl⟩
  | create caller code gas value => exact .inl ⟨caller, code, gas, value, rfl⟩

theorem Opens.gas_eq {mode : Bool} {m : Machine} {request : Request} {input : Bytes} {db : StateDB}
    (h : Opens readOnly m request mode contract input db) : contract.gas = request.gas := by
  cases h <;> rfl

theorem create_gas_le (hsub : sub.Frugal) {depth : ℕ} {caller : Address} {code : Bytes}
    {gas : UInt64} {value : ℕ} {m : Machine} :
    (E.create sub depth readOnly caller code gas value m).2.gas ≤ gas := by
  unfold create
  dsimp only
  split
  · exact UInt64.le_refl gas
  split
  · exact UInt64.le_refl gas
  split
  · exact UInt64.zero_le
  split
  · exact UInt64.le_refl gas
  · exact settleCreate_gas_le (run_gas_le hsub ..)

theorem handle_frugal (hsub : sub.Frugal) (depth : ℕ) : Handler.Frugal (E.handle sub depth) := by
  intro readOnly request m
  rcases E.handle_cases sub depth readOnly request m with ⟨caller, code, gas, value, rfl⟩ |
    ⟨err, hrefused⟩ | ⟨mode, contract, input, db, hopens, hrun⟩
  · exact create_gas_le hsub
  · rw [hrefused]
    exact UInt64.le_refl _
  · rw [hrun, ← hopens.gas_eq]
    exact settle_gas_le (run_gas_le hsub ..)

theorem handler_frugal (left : ℕ) : Handler.Frugal (E.handler left) := by
  induction left with
  | zero => exact handle_frugal (fun _ _ _ => UInt64.zero_le) _
  | succ left ih => exact handle_frugal ih _

section Failed
variable {snapshot : StateDB} {addr caller : Address} {result : Machine × CallReturn} {m : Machine}
  {depth : ℕ} {readOnly : Bool} {input code : Bytes} {gas : UInt64} {value : ℕ}

theorem settle_err (snapshot : StateDB) (result : Machine × CallReturn) :
    (settle snapshot result).2.err = result.2.err := by
  obtain ⟨m, r⟩ := result
  unfold settle
  rcases herr : r.err with _ | err
  · dsimp only
    rw [herr]
    exact herr
  · dsimp only
    rw [herr]

theorem settle_failed (h : (settle snapshot result).2.err ≠ none) :
    (settle snapshot result).1.db = snapshot := by
  obtain ⟨m, r⟩ := result
  unfold settle at h ⊢
  rcases herr : r.err with _ | err
  · dsimp only at h
    rw [herr] at h
    exact absurd herr h
  · dsimp only
    rw [herr]

theorem call_failed
    (h : (E.call sub depth readOnly caller addr input gas value m).2.err ≠ none) :
    (E.call sub depth readOnly caller addr input gas value m).1.db = m.db := by
  unfold call at h ⊢
  split_ifs at h ⊢
  · rfl
  · rfl
  · rfl
  · rfl
  · exact settle_failed h

theorem settleCreate_failed (hH : E.rules.isHomestead = true ∨
      (E.settleCreate snapshot addr result).2.err ≠ some .codeStoreOutOfGas)
    (h : (E.settleCreate snapshot addr result).2.err ≠ none) :
    (E.settleCreate snapshot addr result).1.db = snapshot := by
  obtain ⟨m, r⟩ := result
  unfold settleCreate at hH h ⊢
  dsimp only at hH h ⊢
  apply if_pos
  by_contra hno
  rw [not_or, not_and] at hno
  obtain ⟨hsize, hnone⟩ := hno
  rw [if_neg (fun hmax => hsize hmax.1)] at hH h
  exact hnone h hH

/-- A failed creation raises the nonce at most. Before Homestead this leaves out code that cannot be
paid for. -/
theorem create_failed (hH : E.rules.isHomestead = true ∨
      (E.create sub depth readOnly caller code gas value m).2.err ≠ some .codeStoreOutOfGas)
    (h : (E.create sub depth readOnly caller code gas value m).2.err ≠ none) :
    (E.create sub depth readOnly caller code gas value m).1.db = m.db ∨
    (E.create sub depth readOnly caller code gas value m).1.db =
      m.db.setNonce caller (m.db.getNonce caller+1) := by
  unfold create at hH h ⊢
  by_cases hdepth : callCreateDepth < depth
  · left
    rw [if_pos hdepth]
  by_cases hcan : m.db.canTransfer caller value = false
  · left
    rw [if_neg hdepth, if_pos hcan]
  right
  rw [if_neg hdepth, if_neg hcan] at hH h ⊢
  dsimp only at hH h ⊢
  split at h
  next hcollision => rw [if_pos hcollision]
  next hfree =>
    rw [if_neg hfree] at hH ⊢
    split at h
    next => exact absurd rfl h
    next hskip =>
      rw [if_neg hskip] at hH ⊢
      exact settleCreate_failed hH h

end Failed

end Evm

/-- An account without code that is not a precompiled contract. -/
def PlainAccount (db : StateDB) (addr : Address) : Prop :=
  precompiles addr = none ∧ db.getCode addr = []

/-- From `db` to `db'` nothing has happened but a payment. -/
structure Paid (db db' : StateDB) (src dst : Address) (v : ℕ) : Prop where
  balance : db'.getBalance = pay db.getBalance src dst v
  code : db'.getCode = db.getCode
  refund : db'.refund = db.refund

namespace Evm
variable {E : Evm} {sub : Handler}

theorem paid_enterCall (db : StateDB) (caller addr : Address) (value : ℕ) :
    Paid db (enterCall db caller addr value) caller addr value where
  balance := MatrixDeposit.getBalance_enterCall ..
  code := by
    funext a
    unfold enterCall
    rw [StateDB.getCode_transfer]
    split_ifs with h
    · rfl
    · unfold StateDB.getCode
      rw [StateDB.object_createAccount _ _ _ (Bool.not_eq_true _ ▸ h)]
  refund := by
    unfold enterCall
    split_ifs <;> rfl

theorem call_plain {depth : ℕ} {readOnly : Bool} {caller addr : Address} {input : Bytes}
    {gas : UInt64} {value : ℕ} {m : Machine} (hs : E.skips depth = false)
    (hd : depth ≤ callCreateDepth) (hp : PlainAccount m.db addr)
    (hv : value ≤ m.db.getBalance caller) :
    ∃ db, E.call sub depth readOnly caller addr input gas value m =
        (⟨db, m.entered⟩, ⟨[], gas, none, 0⟩) ∧ Paid m.db db caller addr value := by
  have hcan : ¬ m.db.canTransfer caller value = false := by simpa [StateDB.canTransfer] using hv
  unfold call
  rw [if_neg (by simp [hs]), if_neg (by omega)]
  split_ifs with hskip
  · refine ⟨m.db, rfl, ?_, rfl, rfl⟩
    rw [hskip.2.2.2, pay_zero]
  · have hpaid := paid_enterCall m.db caller addr value
    refine ⟨enterCall m.db caller addr value, ?_, hpaid⟩
    have hcode : (enterCall m.db caller addr value).getCode addr = [] := by
      rw [hpaid.code, hp.2]
    unfold run
    dsimp only
    rw [hp.1, hcode]
    rfl

end Evm

end MatrixNode
