import MatrixNode.EvmCalls

/-! The funds of all accounts together: no call tree makes money, whatever code and whatever
precompiled contracts it runs. -/
namespace MatrixNode
open GoLib StateDB MatrixDeposit

/-- All accounts together have `b` at most. -/
structure Funds (b : ℕ) (db : StateDB) : Prop where
  supply_le : db.totalSupply ≤ b

def Handler.MintsNothing (sub : Handler) : Prop :=
  ∀ readOnly request m b, Funds b m.db → Funds b (sub readOnly request m).1.db

section Funds
variable {b : ℕ} {db db' : StateDB} (h : Funds b db)
include h

theorem Funds.of_le (hb : ∀ a, db'.getBalance a ≤ db.getBalance a) : Funds b db' :=
  ⟨(Finset.sum_le_sum (fun a _ => hb a)).trans h.supply_le⟩

theorem Funds.of_eq (hb : ∀ a, db'.getBalance a = db.getBalance a) : Funds b db' :=
  h.of_le (fun a => (hb a).le)

theorem Funds.transfer {src : Address} {v : ℕ} (dst : Address) (hv : ¬ db.canTransfer src v = false) :
    Funds b (db.transfer src dst v) :=
  ⟨(totalSupply_transfer db dst (by simpa [canTransfer] using hv)).trans_le h.supply_le⟩

/-- A contract that names itself loses what it has, otherwise it is a transfer. -/
theorem Funds.selfdestruct (addr beneficiary : Address) :
    Funds b ((db.addBalance beneficiary (db.getBalance addr)).suicide addr) := by
  have hmoved : Funds b (db.transfer addr beneficiary (db.getBalance addr)) :=
    h.transfer beneficiary (by simp [canTransfer])
  refine hmoved.of_le ?_
  intro a
  unfold suicide
  split_ifs with hexist
  · unfold getBalance
    rw [object_modify]
    split_ifs with ha
    · exact Nat.zero_le _
    · change (db.addBalance ..).getBalance a ≤ (db.transfer ..).getBalance a
      rw [StateDB.transfer, getBalance_addBalance, getBalance_addBalance, getBalance_subBalance, if_neg ha]
  · by_cases ha : a = addr
    · subst ha
      rw [exist, Bool.not_eq_true, Option.isSome_eq_false_iff, Option.isNone_iff_eq_none] at hexist
      rw [getBalance, object, hexist]
      exact Nat.zero_le _
    · rw [StateDB.transfer, getBalance_addBalance, getBalance_addBalance, getBalance_subBalance, if_neg ha]

theorem run_mintsNothing (contract : Contract) (n : ℕ) (input : Bytes) :
    Funds b (MatrixDeposit.run contract db n input).1 := by
  rcases run_storage contract db n input with hs | ⟨db', value, hs, hfunds, hpaid⟩
  · exact h.of_eq (congrFun hs.getBalance)
  · rw [hpaid]
    exact (h.of_eq (congrFun hs.getBalance)).transfer _ hfunds

end Funds

namespace Evm
variable {E : Evm} {sub : Handler} {b : ℕ} {m : Machine}

variable (hsub : sub.MintsNothing)
include hsub

theorem run_funds (h : Funds b m.db) (readOnly : Bool) (contract : Contract) (input : Bytes) :
    Funds b (E.run sub readOnly contract input m).1.db := by
  unfold run
  split
  · exact runPrecompiledContract_db h (fun _ => run_mintsNothing h ..)
  split_ifs
  · exact h
  · refine exec_induction (fun _ m => Funds b m.db) (fun result => Funds b result.1.db)
      ?_ ?_ ?_ ?_ ?_ ?_ _ _ m h
    · intro gas m ret err _ h
      exact h
    · intro gas m cost _ h
      exact h
    · intro gas m g h
      exact h.of_eq (fun a => rfl)
    · intro gas m loc val _ h
      exact h.of_eq (fun a => getBalance_setState ..)
    · intro gas m request spent _ h
      exact hsub readOnly request m b h
    · intro gas m beneficiary _ h
      exact h.selfdestruct ..

theorem call_funds {depth : ℕ} {readOnly : Bool} {caller addr : Address} {input : Bytes}
    {gas : UInt64} {value : ℕ} (h : Funds b m.db) :
    Funds b (E.call sub depth readOnly caller addr input gas value m).1.db := by
  unfold call
  split_ifs with _ _ hfunds
  · exact h
  · exact h
  · exact h
  · exact h
  · have henter : Funds b (enterCall m.db caller addr value) :=
      (h.transfer addr hfunds).of_eq (fun a => by rw [getBalance_enterCall, getBalance_transfer])
    exact settle_db h (run_funds hsub henter ..)

/-- The new account gets the value, and keeps what was there before. -/
theorem create_funds {depth : ℕ} {readOnly : Bool} {caller : Address} {code : Bytes} {gas : UInt64}
    {value : ℕ} (h : Funds b m.db) :
    Funds b (E.create sub depth readOnly caller code gas value m).1.db := by
  unfold create
  dsimp only
  split
  · exact h
  split
  · exact h
  next hfunds =>
  have hraised : Funds b (m.db.setNonce caller (m.db.getNonce caller+1)) :=
    h.of_eq (fun a => getBalance_setNonce ..)
  split
  · exact hraised
  generalize hstart : ite (E.rules.isEIP158 = true) _ _ = start
  have hbalance (a : Address) : start.getBalance a = m.db.getBalance a := by
    subst hstart
    split_ifs <;> simp
  have hready : Funds b (start.transfer caller (E.createAddress caller (m.db.getNonce caller)) value) :=
    (h.of_eq hbalance).transfer _ (by rwa [canTransfer, hbalance])
  split
  · exact hready
  · exact settleCreate_db hraised (run_funds hsub hready ..)
      (fun hran => hran.of_eq (fun a => object_modify_field _ _ a (g := Account.balance) (fun _ => rfl)))

theorem handle_mintsNothing (depth : ℕ) : Handler.MintsNothing (E.handle sub depth) := by
  intro readOnly request m b h
  rcases E.handle_cases sub depth readOnly request m with ⟨caller, code, gas, value, rfl⟩ |
    ⟨err, hrefused⟩ | ⟨mode, contract, input, db, hopens, hrun⟩
  · exact create_funds hsub h
  · rwa [hrefused]
  · cases hopens with
    | call caller addr _ gas value => exact call_funds hsub h
    | callCode | delegateCall | staticCall =>
      rw [hrun]
      exact settle_db h (run_funds hsub h ..)

omit hsub in
theorem handler_mintsNothing (left : ℕ) : Handler.MintsNothing (E.handler left) := by
  induction left with
  | zero => exact handle_mintsNothing (fun _ _ _ _ h => h) _
  | succ left ih => exact handle_mintsNothing ih _

omit hsub in
/-- No call or creation, with all the calls below it, leaves the accounts with more than they had. -/
theorem outermost_mints_nothing (E : Evm) (readOnly : Bool) (request : Request) (m : Machine) :
    (E.outermost readOnly request m).1.db.totalSupply ≤ m.db.totalSupply :=
  (handler_mintsNothing (callCreateDepth+1) readOnly request m _ ⟨le_rfl⟩).supply_le

end Evm

end MatrixNode
