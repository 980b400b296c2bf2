import MatrixNode.DepositStorage

/-! Calls of the deposit contract through `EVM.Call`. -/
namespace MatrixNode
namespace MatrixDeposit
open GoLib StateDB MatrixDeposit Evm

/-- What the method of an input does; the readers and all failures of the dispatch are `other`. -/
inductive Action where
  | deposit (threshold : ℕ)
  | withdraw
  | refund
  | other
  deriving DecidableEq

def action (input : Bytes) : Action :=
  if input.length < 4 then .other
  else if input.take 4 = valiDepositArr then .deposit validatorThreshold
  else if input.take 4 = minerDepositIdArr then .deposit minerThreshold
  else if input.take 4 = withdrawIdArr then .withdraw
  else if input.take 4 = refundIdArr then .refund
  else .other

structure DepositCall where
  evm : Evm
  left : ℕ
  readOnly : Bool
  caller : Address
  input : Bytes
  gas : UInt64
  value : ℕ

def DepositCall.invoke (k : DepositCall) (db : StateDB) : StateDB × CallReturn :=
  let result := k.evm.handler k.left k.readOnly
    (.call k.caller depositAddress k.input k.gas k.value) ⟨db, []⟩
  (result.1.db, result.2)

def succeeded (r : CallReturn) : Bool := r.err = none && r.ret = [1]

@[ext] structure Vault where
  book : Book
  balance : Address → ℕ

def vault (db : StateDB) : Vault := ⟨book db, db.getBalance⟩

/-- The steps of the vault when depositor `c` calls with value `v` at block `n`. -/
inductive VaultStep (c : Depositor) (v n : ℕ) : Action → Bool → Vault → Vault → Prop where
  | failed {a : Action} {s : Vault} : VaultStep c v n a false s s
  | read {ok : Bool} {s : Vault} (hv : v ≤ s.balance c) :
      VaultStep c v n .other ok s ⟨s.book, pay s.balance c depositAddress v⟩
  | deposit {threshold : ℕ} {s : Vault} (hv : v ≤ s.balance c) (hw : s.book.withdrawHeight c = 0)
      (ht : threshold ≤ s.book.deposit c+v) :
      VaultStep c v n (.deposit threshold) true s
        ⟨s.book.pay c v, pay s.balance c depositAddress v⟩
  | withdraw {s : Vault} (hv : v ≤ s.balance c) (hd : s.book.deposit c ≠ 0) :
      VaultStep c v n .withdraw true s ⟨s.book.announce c n, pay s.balance c depositAddress v⟩
  | refund {s : Vault} (hv : v ≤ s.balance c) (hd : s.book.deposit c ≠ 0)
      (hw : s.book.withdrawHeight c ≠ 0) (hn : s.book.withdrawHeight c < n)
      (hb : s.book.deposit c ≤ s.balance depositAddress+v) :
      VaultStep c v n .refund true s ⟨s.book.close c,
        pay (pay s.balance c depositAddress v) depositAddress c (s.book.deposit c)⟩

section Run
variable {contract : Contract} {db : StateDB} {n threshold : ℕ} {input : Bytes}

theorem getDepositInfo_fst : (getDepositInfo contract db input).1 = db := by
  unfold getDepositInfo
  split
  · rfl
  · dsimp only
    split_ifs <;> rfl

theorem run_cases (contract : Contract) (db : StateDB) (n : ℕ) (input : Bytes) :
    (∃ threshold, action input = .deposit threshold ∧
      run contract db n input = deposit contract db (input.drop 4) threshold) ∨
    (action input = .withdraw ∧ run contract db n input = withdraw contract db n) ∨
    (action input = .refund ∧ run contract db n input = refund contract db n) ∨
    (action input = .other ∧ (run contract db n input).1 = db) := by
  unfold action run
  dsimp only
  split_ifs
  · exact .inr (.inr (.inr ⟨rfl, rfl⟩))
  · exact .inl ⟨_, rfl, rfl⟩
  · exact .inl ⟨_, rfl, rfl⟩
  · exact .inr (.inl ⟨rfl, rfl⟩)
  · exact .inr (.inr (.inl ⟨rfl, rfl⟩))
  · exact .inr (.inr (.inr ⟨rfl, rfl⟩))
  · exact .inr (.inr (.inr ⟨rfl, getDepositInfo_fst⟩))
  · exact .inr (.inr (.inr ⟨rfl, rfl⟩))

theorem run_deposit (h : action input = .deposit threshold) :
    run contract db n input = deposit contract db (input.drop 4) threshold := by
  rcases run_cases contract db n input with ⟨t, ha, hrun⟩ | ⟨ha, -⟩ | ⟨ha, -⟩ | ⟨ha, -⟩
  · cases h.symm.trans ha
    exact hrun
  all_goals cases h.symm.trans ha

theorem run_withdraw (h : action input = .withdraw) :
    run contract db n input = withdraw contract db n := by
  rcases run_cases contract db n input with ⟨t, ha, -⟩ | ⟨-, hrun⟩ | ⟨ha, -⟩ | ⟨ha, -⟩
  · cases h.symm.trans ha
  · exact hrun
  all_goals cases h.symm.trans ha

theorem run_refund (h : action input = .refund) :
    run contract db n input = refund contract db n := by
  rcases run_cases contract db n input with ⟨t, ha, -⟩ | ⟨ha, -⟩ | ⟨-, hrun⟩ | ⟨ha, -⟩
  · cases h.symm.trans ha
  · cases h.symm.trans ha
  · exact hrun
  · cases h.symm.trans ha

theorem run_other (contract : Contract) (db : StateDB) (n : ℕ) (h : action input = .other) :
    (run contract db n input).1 = db := by
  rcases run_cases contract db n input with ⟨t, ha, -⟩ | ⟨ha, -⟩ | ⟨ha, -⟩ | ⟨-, hrun⟩
  · cases h.symm.trans ha
  · cases h.symm.trans ha
  · cases h.symm.trans ha
  · exact hrun

/-- The contract writes its storage, and pays the caller out of its own account. -/
theorem run_storage (contract : Contract) (db : StateDB) (n : ℕ) (input : Bytes) :
    StorageOnly db (run contract db n input).1 ∨
    ∃ db' value, StorageOnly db db' ∧ ¬ db'.canTransfer contract.address value = false ∧
      (run contract db n input).1 =
        db'.transfer contract.address contract.callerAddress value := by
  rcases run_cases contract db n input with ⟨threshold, -, hrun⟩ | ⟨-, hrun⟩ | ⟨-, hrun⟩ | ⟨-, hrun⟩ <;>
    rw [hrun]
  · left
    have hrecord := storageOnly_modifyDepositState contract db
    unfold deposit
    split
    · exact .refl db
    split
    · exact .refl db
    · split_ifs
      · exact .refl db
      · exact .refl db
      · exact .refl db
      · exact hrecord _
  · left
    unfold withdraw modifyWithdrawState
    split_ifs
    · exact .refl db
    · exact (StorageOnly.refl db).setCell ..
  · unfold refund
    split
    · exact .inl (.refl db)
    next value db' hres =>
      obtain ⟨-, -, rfl⟩ := (modifyRefundState_eq_ok_iff contract db n value db').mp hres
      have hclosed := storageOnly_closed contract db
      split_ifs with hfunds
      · exact .inl hclosed
      · exact .inr ⟨_, value, hclosed, hfunds, rfl⟩
  · exact .inl (.refl db)

variable {db' : StateDB} {ret : Bytes}

/-- The checks in the order of the source: the node id, no announced withdrawal, the threshold. -/
theorem deposit_eq_ok_iff :
    deposit contract db input threshold = (db', .ok ret) ↔
      (∃ nodeID, 4 ≤ input.length ∧ unpackBytes input = .ok nodeID ∧ nodeID.length = 64 ∧
        getWithdrawHeight contract db contract.callerAddress = 0 ∧
        threshold ≤ getDeposit contract db contract.callerAddress+contract.value ∧
        db' = (modifyDepositState contract db (BitVec.ofNat 512 (beNat nodeID))).toOption.getD db) ∧
      ret = [1] := by
  unfold deposit
  by_cases hlen : input.length < 4
  · rw [if_pos hlen]
    simp only [Prod.mk.injEq, reduceCtorEq, and_false, false_iff]
    rintro ⟨⟨nodeID, h4, -⟩, -⟩
    omega
  rw [if_neg hlen]
  rcases hu : unpackBytes input with err | nodeID
  · simp
  by_cases h64 : nodeID.length = 64
  · by_cases hw : getWithdrawHeight contract db contract.callerAddress = 0
    · by_cases ht : getDeposit contract db contract.callerAddress+contract.value < threshold
      · simp [h64, hw, ht]
      · simp only [h64, hw, ht, ne_eq, not_true_eq_false, if_false, lt_irrefl, Prod.mk.injEq,
          Except.ok.injEq, true_and]
        constructor
        · rintro ⟨rfl, rfl⟩
          exact ⟨⟨nodeID, by omega, rfl, h64, by omega, rfl⟩, rfl⟩
        · rintro ⟨⟨id, -, hid, -, -, rfl⟩, rfl⟩
          cases hid
          exact ⟨rfl, rfl⟩
    · simp [h64, hw, Nat.pos_of_ne_zero hw]
  · simp [h64]

theorem withdraw_eq_ok_iff :
    withdraw contract db n = (db', .ok ret) ↔
      getDeposit contract db contract.callerAddress ≠ 0 ∧
      db' = setWithdrawHeight contract db n ∧ ret = [1] := by
  have hm := modifyWithdrawState_eq_ok_iff contract db n
  unfold withdraw
  rcases hres : modifyWithdrawState contract db n with err | db₁
  · have hno : ¬ getDeposit contract db contract.callerAddress ≠ 0 := fun hd =>
      nomatch hres.symm.trans ((hm _).mpr ⟨hd, rfl⟩)
    simp [hno]
  · obtain ⟨hd, rfl⟩ := (hm _).mp hres
    simp [hd, eq_comm]

theorem refund_eq_ok_iff :
    refund contract db n = (db', .ok ret) ↔
      (getDeposit contract db contract.callerAddress ≠ 0 ∧
        getWithdrawHeight contract db contract.callerAddress ≠ 0 ∧
        getWithdrawHeight contract db contract.callerAddress < n) ∧
      getDeposit contract db contract.callerAddress ≤ db.getBalance contract.address ∧
      db' = (closed contract db).transfer contract.address contract.callerAddress
        (getDeposit contract db contract.callerAddress) ∧ ret = [1] := by
  have hm := modifyRefundState_eq_ok_iff contract db n
  have hbal : (closed contract db).getBalance contract.address = db.getBalance contract.address := by
    rw [(storageOnly_closed contract db).getBalance]
  unfold refund
  rcases hres : modifyRefundState contract db n with err | ⟨value, db₁⟩
  · simp only [Prod.mk.injEq, reduceCtorEq, and_false, false_iff]
    exact fun h => nomatch hres.symm.trans ((hm _ _).mpr ⟨h.1, rfl, rfl⟩)
  · obtain ⟨hguard, rfl, rfl⟩ := (hm _ _).mp hres
    simp only [canTransfer, hbal, decide_eq_false_iff_not, not_le]
    by_cases hb : db.getBalance contract.address < getDeposit contract db contract.callerAddress
    · rw [if_pos hb]
      simp only [Prod.mk.injEq, reduceCtorEq, and_false, false_iff]
      exact fun h => absurd h.2.1 (by omega)
    · rw [if_neg hb, Prod.mk.injEq, Except.ok.injEq, eq_comm, eq_comm (a := [1])]
      exact ⟨fun h => ⟨hguard, by omega, h.1, h.2⟩, fun h => h.2.2⟩

end Run

section Enter
variable (db : StateDB) (caller addr : Address) (value : ℕ)

theorem getState_enterCall : (enterCall db caller addr value).getState = db.getState := by
  funext a
  unfold enterCall
  rw [getState_transfer]
  split_ifs with h
  · rfl
  · unfold getState
    rw [object_createAccount _ _ _ (Bool.not_eq_true _ ▸ h)]

theorem getBalance_enterCall :
    (enterCall db caller addr value).getBalance = pay db.getBalance caller addr value := by
  unfold enterCall
  rw [getBalance_transfer]
  split_ifs
  · rfl
  · congr 1
    funext a
    exact getBalance_createAccount ..

theorem book_enterCall : book (enterCall db caller addr value) = book db := by
  unfold book cells
  rw [getState_enterCall]

end Enter

section Call
variable (E : Evm) (sub : Handler) (depth : ℕ) (readOnly : Bool) (caller : Address) (input : Bytes)
  (gas : UInt64) (value : ℕ) (m : Machine)

def openedFrame (caller : Address) (gas : UInt64) (value : ℕ) (db : StateDB) : Contract :=
  ⟨caller, depositAddress, depositAddress,
    (enterCall db caller depositAddress value).getCode depositAddress, gas, value⟩

theorem precompiles_depositAddress : precompiles depositAddress = some .deposit := by decide

/-- A precompiled address is never skipped as an empty account. -/
theorem call_of_run (db : StateDB) (result : Except VmError Bytes) (hs : E.skips depth = false)
    (hd : depth ≤ callCreateDepth) (hv : value ≤ m.db.getBalance caller)
    (hg : requiredGas input ≤ gas)
    (hrun : run (openedFrame caller gas value m.db)
      (enterCall m.db caller depositAddress value) E.blockNumber input = (db, result)) :
    (∀ ret, result = .ok ret →
      (E.call sub depth readOnly caller depositAddress input gas value m).1.db = db ∧
      (E.call sub depth readOnly caller depositAddress input gas value m).2 =
        ⟨ret, gas-requiredGas input, none, 0⟩) ∧
    (∀ err, result = .error err →
      (E.call sub depth readOnly caller depositAddress input gas value m).1.db = m.db ∧
      (E.call sub depth readOnly caller depositAddress input gas value m).2.err = some err) := by
  have hcan : ¬ m.db.canTransfer caller value = false := by simpa [canTransfer] using hv
  have hskip : ¬ (m.db.exist depositAddress = false ∧ precompiles depositAddress = none ∧
      E.rules.isEIP158 = true ∧ value = 0) := by
    rw [precompiles_depositAddress]
    simp
  have hopen : E.call sub depth readOnly caller depositAddress input gas value m =
      settle m.db (E.runPrecompiledContract .deposit input (openedFrame caller gas value m.db)
        { m with db := enterCall m.db caller depositAddress value }) := by
    unfold call
    rw [if_neg (by simp [hs]), if_neg (by omega), if_neg hcan, if_neg hskip]
    unfold Evm.run
    dsimp only
    rfl
  have hgas : ¬ (openedFrame caller gas value m.db).gas < requiredGas input := UInt64.not_lt.mpr hg
  rw [hopen]
  unfold runPrecompiledContract
  rw [if_neg hgas, hrun]
  constructor
  · rintro ret rfl
    exact ⟨rfl, rfl⟩
  · rintro err rfl
    exact ⟨rfl, rfl⟩

/-- The checks in the order in which the call makes them; behind the last one the method decides. -/
theorem call_cases :
    ((E.call sub depth readOnly caller depositAddress input gas value m).1.db = m.db ∧
      succeeded (E.call sub depth readOnly caller depositAddress input gas value m).2 = false) ∨
    (value ≤ m.db.getBalance caller ∧ ∃ db ret, run (openedFrame caller gas value m.db)
        (enterCall m.db caller depositAddress value) E.blockNumber input = (db, .ok ret) ∧
      (E.call sub depth readOnly caller depositAddress input gas value m).1.db = db ∧
      (E.call sub depth readOnly caller depositAddress input gas value m).2 =
        ⟨ret, gas-requiredGas input, none, 0⟩) := by
  have hfail (err : VmError) {r : CallReturn} (hr : r.err = some err) : succeeded r = false := by
    simp [succeeded, hr]
  by_cases hs : E.skips depth = true
  · left
    unfold call
    rw [if_pos hs]
    exact ⟨rfl, rfl⟩
  by_cases hd : callCreateDepth < depth
  · left
    unfold call
    rw [if_neg hs, if_pos hd]
    exact ⟨rfl, rfl⟩
  by_cases hv : value ≤ m.db.getBalance caller
  · by_cases hg : requiredGas input ≤ gas
    · have hskip : E.skips depth = false := by simpa using hs
      have hof (d : StateDB) (r : Except VmError Bytes) := call_of_run E sub depth readOnly caller input
        gas value m d r hskip (by omega) hv hg
      rcases hrun : run (openedFrame caller gas value m.db)
        (enterCall m.db caller depositAddress value) E.blockNumber input with ⟨db, err | ret⟩
      · left
        have h := (hof _ _ hrun).2 err rfl
        exact ⟨h.1, hfail err h.2⟩
      · right
        exact ⟨hv, db, ret, rfl, (hof _ _ hrun).1 ret rfl⟩
    · left
      have hcan : ¬ m.db.canTransfer caller value = false := by simpa [canTransfer] using hv
      unfold call
      rw [if_neg hs, if_neg hd, if_neg hcan, if_neg (by rw [precompiles_depositAddress]; simp)]
      unfold Evm.run
      dsimp only
      rw [precompiles_depositAddress]
      unfold runPrecompiledContract
      dsimp only
      rw [if_pos (UInt64.not_le.mp hg)]
      exact ⟨rfl, rfl⟩
  · left
    have hcan : m.db.canTransfer caller value = false := by simpa [canTransfer] using hv
    unfold call
    rw [if_neg hs, if_neg hd, if_pos hcan]
    exact ⟨rfl, rfl⟩

end Call

section Step
variable {c : Depositor} {v n : ℕ} {input : Bytes} {gas : UInt64} {db db' : StateDB} {ret : Bytes}

theorem depositor_ne (c : Depositor) : (c : Address) ≠ depositAddress := by
  intro h
  have hc := c.2
  rw [h] at hc
  exact absurd hc (by decide)

theorem openedFrame_own : OwnFrame (openedFrame c gas v db) c := ⟨rfl, rfl⟩

/-- Every method that the contract completes is a step of the vault. -/
theorem run_step (hv : v ≤ db.getBalance c)
    (hrun : run (openedFrame c gas v db) (enterCall db c depositAddress v) n input =
      (db', .ok ret)) :
    VaultStep c v n (action input) (succeeded ⟨ret, gas-requiredGas input, none, 0⟩)
      (vault db) (vault db') := by
  have hf : OwnFrame (openedFrame c gas v db) c := openedFrame_own
  have hbook := book_enterCall db c depositAddress v
  have hbal := getBalance_enterCall db c depositAddress v
  have hne := depositor_ne c
  rcases ha : action input with threshold | _ | _ | _
  · rw [run_deposit ha, deposit_eq_ok_iff, hf.getDeposit_eq, hf.getWithdrawHeight_eq, hbook] at hrun
    obtain ⟨⟨nodeID, -, -, -, hw, ht, rfl⟩, rfl⟩ := hrun
    have hdone := hf.book_modifyDepositState (enterCall db c depositAddress v)
      (BitVec.ofNat 512 (beNat nodeID))
    unfold vault
    rw [hdone, hbook, (storageOnly_modifyDepositState ..).getBalance, hbal]
    exact .deposit hv hw ht
  · rw [run_withdraw ha, withdraw_eq_ok_iff, hf.getDeposit_eq, hbook] at hrun
    obtain ⟨hd, rfl, rfl⟩ := hrun
    unfold vault
    rw [hf.book_setWithdrawHeight, hbook, setWithdrawHeight, ((StorageOnly.refl _).setCell ..).getBalance,
      hbal]
    exact .withdraw hv hd
  · rw [run_refund ha, refund_eq_ok_iff, hf.getDeposit_eq, hf.getWithdrawHeight_eq, hf.address,
      hf.caller, hbook] at hrun
    obtain ⟨⟨hd, hw, hn⟩, hb, rfl, rfl⟩ := hrun
    rw [hbal, pay_dst hne] at hb
    have hclose : book ((closed (openedFrame c gas v db) (enterCall db c depositAddress v)).transfer
        depositAddress c ((book db).deposit c)) = (book db).close c := by
      rw [← hbook, ← hf.book_closed]
      unfold book cells
      rw [getState_transfer]
    unfold vault
    rw [hclose, getBalance_transfer, (storageOnly_closed ..).getBalance, hbal]
    exact .refund hv hd hw hn hb
  · have hsame : db' = enterCall db c depositAddress v := by
      have h := run_other (openedFrame c gas v db) (enterCall db c depositAddress v) n ha
      rwa [hrun] at h
    rw [hsame]
    unfold vault
    rw [hbook, hbal]
    exact .read hv

/-- The contract is precompiled: the call asks nothing of `sub`, at the limit as above it. -/
theorem DepositCall.invoke_cases (k : DepositCall) (db : StateDB) :
    ((k.invoke db).1 = db ∧ succeeded (k.invoke db).2 = false) ∨
    (k.value ≤ db.getBalance k.caller ∧ ∃ db' ret, run (openedFrame k.caller k.gas k.value db)
        (enterCall db k.caller depositAddress k.value) k.evm.blockNumber k.input =
          (db', .ok ret) ∧
      (k.invoke db).1 = db' ∧ (k.invoke db).2 = ⟨ret, k.gas-requiredGas k.input, none, 0⟩) := by
  have hcall (sub : Handler) (depth : ℕ) :=
    call_cases k.evm sub depth k.readOnly k.caller k.input k.gas k.value ⟨db, []⟩
  unfold DepositCall.invoke
  rcases k.left with _ | left
  · exact hcall (fun _ _ m => (m, ⟨[], 0, some .depth, 0⟩)) (callCreateDepth+1)
  · exact hcall (k.evm.handler left) (callCreateDepth-left)

theorem invoke_step (k : DepositCall) (hc : k.caller = c) (db : StateDB) :
    VaultStep c k.value k.evm.blockNumber (action k.input) (succeeded (k.invoke db).2)
      (vault db) (vault (k.invoke db).1) := by
  rcases k.invoke_cases db with ⟨hdb, hfail⟩ | ⟨hv, db', ret, hrun, hdb, hret⟩
  · rw [hdb, hfail]
    exact .failed
  · rw [hdb, hret]
    rw [hc] at hv hrun
    exact run_step hv hrun

end Step

structure DepositCall.Reaches (k : DepositCall) (db : StateDB) : Prop where
  outermost : k.left = callCreateDepth+1
  gas : requiredGas k.input ≤ k.gas
  funds : k.value ≤ db.getBalance k.caller

section Succeeds
variable {k : DepositCall} {db : StateDB}

theorem DepositCall.Reaches.invoke (h : k.Reaches db) (db' : StateDB) (ret : Bytes)
    (hrun : run (openedFrame k.caller k.gas k.value db)
      (enterCall db k.caller depositAddress k.value) k.evm.blockNumber k.input = (db', .ok ret)) :
    k.invoke db = (db', ⟨ret, k.gas-requiredGas k.input, none, 0⟩) := by
  have hskip : k.evm.skips 0 = false := by simp [skips]
  have hcall := (call_of_run k.evm (k.evm.handler callCreateDepth) 0 k.readOnly k.caller k.input k.gas
    k.value ⟨db, []⟩ db' (.ok ret) hskip (Nat.zero_le _) h.funds h.gas hrun).1 ret rfl
  unfold DepositCall.invoke
  rw [h.outermost]
  exact Prod.ext hcall.1 hcall.2

theorem getDeposit_opened (k : DepositCall) (db : StateDB) (a : Address) :
    getDeposit (openedFrame k.caller k.gas k.value db)
      (enterCall db k.caller depositAddress k.value) a = getDeposit ownContract db a := by
  unfold getDeposit cell
  rw [getState_enterCall]
  rfl

theorem getWithdrawHeight_opened (k : DepositCall) (db : StateDB) (a : Address) :
    getWithdrawHeight (openedFrame k.caller k.gas k.value db)
      (enterCall db k.caller depositAddress k.value) a = getWithdrawHeight ownContract db a := by
  unfold getWithdrawHeight cell
  rw [getState_enterCall]
  rfl

theorem DepositCall.Reaches.deposit (h : k.Reaches db) {threshold : ℕ} {nodeID : Bytes}
    (ha : action k.input = .deposit threshold) (hu : unpackBytes (k.input.drop 4) = .ok nodeID)
    (hlen : nodeID.length = 64) (hw : getWithdrawHeight ownContract db k.caller = 0)
    (ht : threshold ≤ getDeposit ownContract db k.caller+k.value) :
    succeeded (k.invoke db).2 = true ∧ (k.invoke db).1 =
      (modifyDepositState (openedFrame k.caller k.gas k.value db)
        (enterCall db k.caller depositAddress k.value)
        (BitVec.ofNat 512 (beNat nodeID))).toOption.getD
          (enterCall db k.caller depositAddress k.value) := by
  have h4 : 4 ≤ (k.input.drop 4).length := by
    by_contra hshort
    rw [unpackBytes, if_pos (by omega)] at hu
    cases hu
  rw [h.invoke _ [1]]
  · exact ⟨rfl, rfl⟩
  · rw [run_deposit ha, deposit_eq_ok_iff]
    exact ⟨⟨nodeID, h4, hu, hlen, (getWithdrawHeight_opened k db _).trans hw,
      ht.trans_eq (congrArg (·+k.value) (getDeposit_opened k db _).symm), rfl⟩, rfl⟩

/-- The value of the call comes in first, so the contract has no less than before. -/
theorem DepositCall.Reaches.refund (h : k.Reaches db) (ha : action k.input = .refund)
    (hd : getDeposit ownContract db k.caller ≠ 0)
    (hw : getWithdrawHeight ownContract db k.caller ≠ 0)
    (hn : getWithdrawHeight ownContract db k.caller < k.evm.blockNumber)
    (hb : getDeposit ownContract db k.caller ≤ db.getBalance depositAddress) :
    succeeded (k.invoke db).2 = true := by
  have hle : db.getBalance depositAddress ≤
      pay db.getBalance k.caller depositAddress k.value depositAddress := by
    by_cases hself : k.caller = depositAddress
    · have hsame : pay db.getBalance k.caller depositAddress k.value k.caller+_ = _+_ :=
        pay_add h.funds k.caller
      rw [if_pos rfl, if_pos hself, hself] at hsame
      rw [hself]
      omega
    · rw [pay_dst hself]
      omega
  rw [h.invoke _ [1]]
  · rfl
  · rw [run_refund ha, refund_eq_ok_iff]
    refine ⟨⟨(getDeposit_opened k db _).trans_ne hd, (getWithdrawHeight_opened k db _).trans_ne hw,
      (getWithdrawHeight_opened k db _).trans_lt hn⟩, ?_, rfl, rfl⟩
    rw [getDeposit_opened, getBalance_enterCall]
    exact hb.trans hle

end Succeeds

end MatrixDeposit
end MatrixNode
