import MatrixNode.EvmAccounts

/-! What a call tree can take from an account, and when a call fails for want of funds. -/
namespace MatrixNode
open GoLib StateDB MatrixDeposit

def Request.actor : Request → Address
  | .call caller .. | .callCode caller .. | .staticCall caller .. | .create caller .. => caller
  | .delegateCall parent .. => parent.address

/-- The account `x` is as `c` says and holds at least `b`. -/
structure Spared (x : Address) (c : AccountCore) (b : ℕ) (db : StateDB) : Prop where
  core : db.core x = c
  balance : b ≤ db.getBalance x

/-- Requests on behalf of others do not make `x` poorer. -/
def Handler.Spares (sub : Handler) (x : Address) (c : AccountCore) : Prop :=
  ∀ readOnly request m b, request.actor ≠ x → Spared x c b m.db →
    Spared x c b (sub readOnly request m).1.db

/-- The account that a frame acts for is not `x`, unless the frame is that of the account `x` itself,
which has no code. -/
def Contract.Foreign (contract : Contract) (x : Address) : Prop :=
  contract.address = x → contract.codeAddr = x ∧ contract.code = []

section Spared
variable {x a src dst : Address} {c : AccountCore} {b : ℕ} {db db' : StateDB}

theorem Spared.of_le (h : Spared x c b db) (hc : db'.core x = db.core x)
    (hb : db.getBalance x ≤ db'.getBalance x) : Spared x c b db' :=
  ⟨hc.trans h.core, h.balance.trans hb⟩

theorem Spared.setState (h : Spared x c b db) (key value : Word) :
    Spared x c b (db.setState a key value) :=
  h.of_le (core_setState ..) (getBalance_setState ..).ge

theorem Spared.setNonce (h : Spared x c b db) (ha : x ≠ a) (nonce : UInt64) :
    Spared x c b (db.setNonce a nonce) := by
  refine h.of_le ?_ (getBalance_setNonce ..).ge
  rw [core_setNonce, if_neg ha]

theorem Spared.addBalance (h : Spared x c b db) (v : ℕ) : Spared x c b (db.addBalance a v) := by
  refine h.of_le (core_addBalance ..) ?_
  rw [getBalance_addBalance]
  split_ifs
  · exact Nat.le_add_right ..
  · exact le_rfl

theorem Spared.transfer (h : Spared x c b db) (hs : x ≠ src) (v : ℕ) :
    Spared x c b (db.transfer src dst v) := by
  refine h.of_le (core_transfer ..) ?_
  rw [getBalance_transfer]
  exact le_pay hs

theorem Spared.spend {v : ℕ} (h : Spared x c (b+v) db) : Spared x c b (db.transfer x dst v) := by
  refine ⟨(core_transfer ..).trans h.core, ?_⟩
  have hle := h.balance
  have hpay : pay db.getBalance x dst v x+_ = _+_ := pay_add (by omega) x
  rw [if_pos rfl] at hpay
  rw [getBalance_transfer]
  omega

theorem Spared.pay {v : ℕ} (h : Spared x c (b+if src = x then v else 0) db) :
    Spared x c b (db.transfer src dst v) := by
  by_cases hs : src = x
  · subst hs
    rw [if_pos rfl] at h
    exact h.spend
  · rw [if_neg hs] at h
    exact h.transfer (Ne.symm hs) v

theorem Spared.createAccount (h : Spared x c b db) (ha : x ≠ a) : Spared x c b (db.createAccount a) := by
  refine h.of_le ?_ (getBalance_createAccount ..).ge
  rw [core_createAccount, if_neg ha]

theorem Spared.of_object (h : Spared x c b db) (ho : db'.object x = db.object x) : Spared x c b db' :=
  h.of_le (congrArg Account.core ho) (congrArg Account.balance ho).ge

theorem Spared.setCode (h : Spared x c b db) (ha : x ≠ a) (code : Bytes) :
    Spared x c b (db.setCode a code) := by
  apply h.of_object
  rw [StateDB.setCode, StateDB.object_modify, if_neg ha]

theorem Spared.suicide (h : Spared x c b db) (ha : x ≠ a) : Spared x c b (db.suicide a) := by
  apply h.of_object
  unfold StateDB.suicide
  split_ifs
  · rw [StateDB.object_modify, if_neg ha]
  · rfl

end Spared

/-- The deposit contract pays out of its own account only. -/
theorem MatrixDeposit.le_balance_run {contract : Contract} {x : Address} (hx : x ≠ contract.address)
    (db : StateDB) (n : ℕ) (input : Bytes) :
    db.getBalance x ≤ (MatrixDeposit.run contract db n input).1.getBalance x := by
  rcases run_storage contract db n input with h | ⟨db', value, h, -, hpaid⟩
  · rw [h.getBalance]
  · rw [hpaid, getBalance_transfer, h.getBalance]
    exact le_pay hx

namespace Evm
variable {E : Evm} {sub : Handler} {x : Address} {c : AccountCore} {b : ℕ} {m : Machine}
  {contract : Contract}

theorem runPrecompiledContract_spares (h : Spared x c b m.db) (p : Precompiled)
    (hp : p = .deposit → x ≠ contract.address) (input : Bytes) :
    Spared x c b (E.runPrecompiledContract p input contract m).1.db := by
  refine h.of_le (core_runPrecompiledContract ..) ?_
  exact runPrecompiledContract_db (Q := fun s => m.db.getBalance x ≤ s.getBalance x) le_rfl
    (fun hdeposit => le_balance_run (hp hdeposit) ..)

theorem Asks.actor_eq {readOnly : Bool} {gas spent : UInt64} {request : Request}
    (h : Asks E readOnly contract gas request spent) : request.actor = contract.address := by
  cases h <;> rfl

theorem exec_spares (hsub : sub.Spares x c) (hx : contract.address ≠ x) (readOnly : Bool)
    (program : Program) (gas : UInt64) (m : Machine) (h : Spared x c b m.db) :
    Spared x c b (E.exec sub readOnly contract program gas m).1.db := by
  refine exec_induction (fun _ m => Spared x c b m.db) (fun result => Spared x c b result.1.db)
    ?_ ?_ ?_ ?_ ?_ ?_ program gas m h
  · intro gas m ret err _ h
    exact h
  · intro gas m cost _ h
    exact h
  · intro gas m g h
    exact ⟨h.core, h.balance⟩
  · intro gas m loc val _ h
    exact h.setState ..
  · intro gas m request spent hask h
    exact hsub readOnly request m b (hask.actor_eq ▸ hx) h
  · intro gas m beneficiary _ h
    exact (h.addBalance _).suicide hx.symm

theorem run_spares (hsub : sub.Spares x c) (hdep : x ≠ depositAddress) (hx : contract.Foreign x)
    (readOnly : Bool) (input : Bytes) (h : Spared x c b m.db) :
    Spared x c b (E.run sub readOnly contract input m).1.db := by
  unfold run
  split
  next p hp =>
    refine runPrecompiledContract_spares h p ?_ input
    rintro rfl haddr
    have hself := (hx haddr.symm).1
    exact hdep (hself.symm.trans (precompiles_eq_deposit hp))
  next =>
    split_ifs with hcode
    · exact h
    · exact exec_spares hsub (fun ha => hcode (hx ha).2) readOnly _ _ m h

section Request
variable {depth : ℕ} {readOnly : Bool} {caller addr : Address} {input code : Bytes} {gas : UInt64}
  {value : ℕ}

theorem enterCall_spares (h : Spared x c (b+if caller = x then value else 0) m.db) :
    Spared x c b (enterCall m.db caller addr value) := by
  refine ⟨(core_enterCall ..).trans h.core, ?_⟩
  have hpaid : Spared x c b (m.db.transfer caller addr value) := h.pay
  rw [getBalance_enterCall, ← getBalance_transfer]
  exact hpaid.balance

theorem call_spares (hsub : sub.Spares x c) (hdep : x ≠ depositAddress) (hc : c.code = [])
    (h : Spared x c (b+if caller = x then value else 0) m.db) :
    Spared x c b (E.call sub depth readOnly caller addr input gas value m).1.db := by
  have hkeep : Spared x c b m.db := ⟨h.core, (Nat.le_add_right ..).trans h.balance⟩
  unfold call
  split_ifs
  · exact hkeep
  · exact hkeep
  · exact hkeep
  · exact hkeep
  · have henter : Spared x c b (enterCall m.db caller addr value) := enterCall_spares h
    refine settle_db hkeep (run_spares hsub hdep ?_ readOnly input henter)
    rintro rfl
    exact ⟨rfl, (congrArg AccountCore.code henter.core).trans hc⟩

/-- A creation takes only an address that is not in use, and `x` pays its own value at most. -/
theorem create_spares (hsub : sub.Spares x c) (hdep : x ≠ depositAddress)
    (hused : c.nonce ≠ nonceAddOne) (hdepth : ¬ callCreateDepth < depth)
    (hcan : ¬ m.db.canTransfer caller value = false)
    (h : Spared x c (b+if caller = x then value else 0)
      (m.db.setNonce caller (m.db.getNonce caller+1))) :
    Spared x c b (E.create sub depth readOnly caller code gas value m).1.db := by
  unfold create
  rw [if_neg hdepth, if_neg hcan]
  dsimp only
  generalize m.db.setNonce caller (m.db.getNonce caller+1) = snapshot at h ⊢
  generalize E.createAddress caller (m.db.getNonce caller) = addr
  have hkeep : Spared x c b snapshot := ⟨h.core, (Nat.le_add_right ..).trans h.balance⟩
  split
  next => exact hkeep
  next hfree =>
    rw [not_or, not_not] at hfree
    have hnew : x ≠ addr := by
      rintro rfl
      exact hused ((congrArg AccountCore.nonce h.core).symm.trans hfree.1)
    have hready : Spared x c b (transfer (if E.rules.isEIP158 then
        (snapshot.createAccount addr).setNonce addr 1
        else snapshot.createAccount addr) caller addr value) := by
      apply Spared.pay
      by_cases hE : E.rules.isEIP158 = true
      · rw [if_pos hE]
        exact (h.createAccount hnew).setNonce hnew _
      · rw [if_neg hE]
        exact h.createAccount hnew
    split
    · exact hready
    · refine settleCreate_db hkeep (run_spares hsub hdep ?_ readOnly [] hready)
        (fun hran => hran.setCode hnew _)
      intro hself
      exact absurd hself.symm hnew

end Request

section Handler
variable (hdep : x ≠ depositAddress) (hc : c.Secure)
include hc

theorem Opens.spares {readOnly mode : Bool} {request : Request} {input : Bytes} {db : StateDB}
    (h : Opens readOnly m request mode contract input db) (hx : request.actor ≠ x)
    (hs : Spared x c b m.db) : Spared x c b db ∧ contract.Foreign x := by
  cases h with
  | call caller addr _ gas value =>
    have hcaller : caller ≠ x := hx
    have henter : Spared x c b (enterCall m.db caller addr value) :=
      enterCall_spares (by rwa [if_neg hcaller])
    refine ⟨henter, ?_⟩
    rintro rfl
    exact ⟨rfl, (congrArg AccountCore.code henter.core).trans hc.code⟩
  | callCode | delegateCall =>
    refine ⟨hs, ?_⟩
    intro hself
    exact absurd hself hx
  | staticCall caller addr _ gas =>
    refine ⟨hs, ?_⟩
    rintro rfl
    exact ⟨rfl, (congrArg AccountCore.code hs.core).trans hc.code⟩

include hdep

theorem handle_spares (hsub : sub.Spares x c) (depth : ℕ) : Handler.Spares (E.handle sub depth) x c := by
  intro readOnly request m b hx h
  rcases E.handle_cases sub depth readOnly request m with ⟨caller, code, gas, value, rfl⟩ |
    ⟨err, hrefused⟩ | ⟨mode, contract, input, db, hopens, hrun⟩
  · have hcaller : caller ≠ x := hx
    change Spared x c b (E.create sub depth readOnly caller code gas value m).1.db
    by_cases hgo : callCreateDepth < depth ∨ m.db.canTransfer caller value = false
    · rwa [create_refused hgo]
    · rw [not_or] at hgo
      refine create_spares hsub hdep (UInt64.ne_of_lt hc.nonce).symm hgo.1 hgo.2 ?_
      rw [if_neg hcaller]
      exact h.setNonce hcaller.symm _
  · rw [hrefused]
    exact h
  · obtain ⟨hstart, hforeign⟩ := hopens.spares hc hx h
    rw [hrun]
    exact settle_db h (run_spares hsub hdep hforeign mode input hstart)

theorem handler_spares (left : ℕ) : Handler.Spares (E.handler left) x c := by
  induction left with
  | zero => exact handle_spares hdep hc (fun _ _ _ _ _ h => h) _
  | succ left ih => exact handle_spares hdep hc ih _

end Handler

end Evm

namespace MatrixDeposit
variable {contract : Contract} {db db' : StateDB} {n : ℕ} {input : Bytes}

/-- The contract would give back the deposit of the caller at block `n`, and holds less than that. -/
structure RefundShort (db : StateDB) (caller : Address) (n : ℕ) : Prop where
  deposit : getDeposit ownContract db caller ≠ 0
  announced : getWithdrawHeight ownContract db caller ≠ 0
  due : getWithdrawHeight ownContract db caller < n
  short : db.getBalance depositAddress < getDeposit ownContract db caller

theorem deposit_error {threshold : ℕ} {err : VmError}
    (h : deposit contract db input threshold = (db', .error err)) : err ≠ .insufficientBalance := by
  unfold deposit at h
  rintro rfl
  split at h
  · cases h
  split at h
  · cases h
  split_ifs at h <;> cases h

theorem getDepositInfo_error {err : VmError}
    (h : getDepositInfo contract db input = (db', .error err)) : err ≠ .insufficientBalance := by
  unfold getDepositInfo at h
  rintro rfl
  split at h
  · cases h
  · dsimp only at h
    split_ifs at h <;> cases h

theorem refund_insufficient_iff (ha : contract.address = depositAddress) :
    (refund contract db n).2 = .error .insufficientBalance ↔
      RefundShort db contract.callerAddress n := by
  have hdeposit : getDeposit contract db contract.callerAddress =
      getDeposit ownContract db contract.callerAddress := by
    unfold getDeposit cell
    rw [ha]
    rfl
  have hheight : getWithdrawHeight contract db contract.callerAddress =
      getWithdrawHeight ownContract db contract.callerAddress := by
    unfold getWithdrawHeight cell
    rw [ha]
    rfl
  have hiff := modifyRefundState_eq_ok_iff contract db n
  rw [hdeposit, hheight] at hiff
  unfold refund
  rcases hres : modifyRefundState contract db n with err | ⟨value, db₁⟩
  · have herr : err ≠ .insufficientBalance := by
      rintro rfl
      unfold modifyRefundState at hres
      dsimp only at hres
      split_ifs at hres <;> cases hres
    constructor
    · intro h
      exact absurd (Except.error.inj h) herr
    · intro h
      have hok := (hiff _ _).mpr ⟨⟨h.deposit, h.announced, h.due⟩, rfl, rfl⟩
      rw [hres] at hok
      cases hok
  · obtain ⟨⟨hdep, hann, hdue⟩, rfl, rfl⟩ := (hiff value db₁).mp hres
    dsimp only
    have hcan : (closed contract db).canTransfer contract.address
        (getDeposit ownContract db contract.callerAddress) = false ↔
        db.getBalance depositAddress < getDeposit ownContract db contract.callerAddress := by
      simp [canTransfer, (storageOnly_closed contract db).getBalance, ha]
    split_ifs with hshort
    · exact iff_of_true rfl ⟨hdep, hann, hdue, hcan.mp hshort⟩
    · exact iff_of_false (by simp) (fun h => hshort (hcan.mpr h.short))

/-- Only a refund of more than the contract holds fails for want of funds. -/
theorem run_insufficient_iff (haddr : contract.address = depositAddress) :
    (MatrixDeposit.run contract db n input).2 = .error .insufficientBalance ↔
      action input = .refund ∧ RefundShort db contract.callerAddress n := by
  rcases ha : action input with threshold | _ | _ | _
  · refine iff_of_false ?_ nofun
    rw [run_deposit ha]
    exact fun h => deposit_error (Prod.ext rfl h) rfl
  · refine iff_of_false ?_ nofun
    rw [run_withdraw ha]
    unfold withdraw modifyWithdrawState
    split_ifs <;> exact nofun
  · rw [run_refund ha, refund_insufficient_iff haddr]
    exact ⟨fun h => ⟨rfl, h⟩, fun h => h.2⟩
  · refine iff_of_false ?_ nofun
    intro h
    unfold action at ha
    unfold MatrixDeposit.run at h
    dsimp only at h
    split_ifs at ha h
    · cases h
    · cases h
    · exact getDepositInfo_error (Prod.ext rfl h) rfl
    · cases h

end MatrixDeposit

namespace Evm
variable {E : Evm} {sub : Handler} {contract : Contract} {m : Machine} {readOnly : Bool}

theorem exec_err (sub : Handler) (program : Program) (gas : UInt64) (m : Machine) :
    (E.exec sub readOnly contract program gas m).2.err ≠ some .insufficientBalance := by
  refine exec_induction (fun _ _ => True)
    (fun result => result.2.err ≠ some .insufficientBalance) ?_
    (fun _ _ _ _ h => h) (fun _ _ _ h => h) (fun _ _ _ _ _ h => h) (fun _ _ _ _ _ h => h) ?_
    program gas m trivial
  · intro gas m ret err herr _
    exact herr
  · intro gas m beneficiary _ _ h
    cases h

/-- The standard precompiled contracts and bytecode have errors of their own only. -/
theorem run_insufficient_iff {input : Bytes} (hself : contract.address = contract.codeAddr) :
    (E.run sub readOnly contract input m).2.err = some .insufficientBalance ↔
      contract.codeAddr = depositAddress ∧ action input = .refund ∧
      requiredGas input ≤ contract.gas ∧ RefundShort m.db contract.callerAddress E.blockNumber := by
  unfold run
  split
  next p hp =>
    cases p with
    | standard =>
      refine iff_of_false ?_ ?_
      · unfold runPrecompiledContract
        dsimp only
        split_ifs
        · exact nofun
        · rcases (E.standard contract.codeAddr).run input with msg | ret
          · exact nofun
          · exact nofun
      · rintro ⟨haddr, -⟩
        rw [haddr] at hp
        exact absurd hp (by decide)
    | deposit =>
      have haddr := precompiles_eq_deposit hp
      have hiff : (MatrixDeposit.run contract m.db E.blockNumber input).2 =
          .error .insufficientBalance ↔ _ := MatrixDeposit.run_insufficient_iff (hself.trans haddr)
      unfold runPrecompiledContract
      dsimp only
      split_ifs with hgas
      · exact iff_of_false nofun (fun h => UInt64.not_le.mpr hgas h.2.2.1)
      · rcases hrun : MatrixDeposit.run contract m.db E.blockNumber input with ⟨db', err | ret⟩
        · rw [hrun] at hiff
          simp only [Except.error.injEq] at hiff
          simp only [Option.some.injEq, hiff, haddr, UInt64.not_lt.mp hgas, true_and]
        · rw [hrun] at hiff
          refine iff_of_false nofun ?_
          rintro ⟨-, ha, -, hshort⟩
          cases hiff.mpr ⟨ha, hshort⟩
  next hp =>
    refine iff_of_false ?_ ?_
    · split_ifs
      · exact nofun
      · exact exec_err sub _ _ m
    · rintro ⟨haddr, -⟩
      rw [haddr] at hp
      exact absurd hp (by decide)

section Request
variable {caller addr : Address} {input code : Bytes} {gas : UInt64} {value : ℕ}

/-- An outermost call fails for want of funds if the caller cannot pay, or the deposit contract. -/
theorem call_insufficient_iff :
    (E.call sub 0 readOnly caller addr input gas value m).2.err = some .insufficientBalance ↔
      m.db.getBalance caller < value ∨
      (addr = depositAddress ∧ action input = .refund ∧ requiredGas input ≤ gas ∧
        RefundShort (enterCall m.db caller addr value) caller E.blockNumber) := by
  have hcan : m.db.canTransfer caller value = false ↔ m.db.getBalance caller < value := by
    simp [canTransfer]
  unfold call
  rw [if_neg (by simp [skips]), if_neg (Nat.not_lt_zero _)]
  split_ifs with hfunds hskip
  · exact iff_of_true rfl (.inl (hcan.mp hfunds))
  · refine iff_of_false (by simp) ?_
    rintro (hlt | ⟨rfl, -⟩)
    · exact hfunds (hcan.mpr hlt)
    · exact absurd hskip.2.1 (by decide)
  · rw [settle_err, run_insufficient_iff rfl, or_iff_right (fun hlt => hfunds (hcan.mpr hlt))]

/-- The code of a creation has no input, so it cannot be the refund that fails for want of funds. -/
theorem create_insufficient_iff :
    (E.create sub 0 readOnly caller code gas value m).2.err = some .insufficientBalance ↔
      m.db.getBalance caller < value := by
  have hcan : m.db.canTransfer caller value = false ↔ m.db.getBalance caller < value := by
    simp [canTransfer]
  have hsettle (snapshot : StateDB) (addr : Address) (result : Machine × CallReturn)
      (hr : result.2.err ≠ some .insufficientBalance) :
      (E.settleCreate snapshot addr result).2.err ≠ some .insufficientBalance := by
    unfold settleCreate
    dsimp only
    split_ifs
    · simp
    · simp
    · simp
    · exact hr
  unfold create
  rw [if_neg (Nat.not_lt_zero _)]
  by_cases hfunds : m.db.canTransfer caller value = false
  · rw [if_pos hfunds]
    exact iff_of_true rfl (hcan.mp hfunds)
  rw [if_neg hfunds]
  refine iff_of_false ?_ (fun hlt => hfunds (hcan.mpr hlt))
  dsimp only
  split
  · simp
  split
  · simp
  · refine hsettle _ _ _ ?_
    intro hrun
    exact absurd ((run_insufficient_iff rfl).mp hrun).2.1 (by decide)

end Request

end Evm

end MatrixNode
