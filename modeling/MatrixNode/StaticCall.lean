import MatrixNode.DepositHistory
import MatrixNode.EvmCalls

/-! `EVM.StaticCall`: what a call tree that was entered in read-only mode can do to the accounts.
The interpreter refuses the instructions that write; precompiled contracts are run as always. -/
namespace MatrixNode
open GoLib

/-- A run of a precompiled contract, unless it is a method of the deposit contract that writes. -/
def ReadsOnly (run : Address × Bytes) : Prop :=
  run.1 = depositAddress → MatrixDeposit.action run.2 = .other

/-- From `m` to `m'` precompiled contracts were run, and if they only read then every account has
the balance, nonce, code and storage that it had. -/
def Keeps (m m' : Machine) : Prop :=
  ∃ ran, m'.entered = m.entered ++ ran ∧ ((∀ e ∈ ran, ReadsOnly e) → m'.db.object = m.db.object)

/-- The requests that a read-only frame can make. -/
def Request.Protected : Request → Prop
  | .call _ _ _ _ value => value = 0
  | .create .. => False
  | .callCode .. | .delegateCall .. | .staticCall .. => True

def Handler.Protects (sub : Handler) : Prop :=
  ∀ request m, request.Protected → Keeps m (sub true request m).1

section Keeps
variable {m m' m'' : Machine}

theorem Keeps.of_objects (he : m'.entered = m.entered) (ho : m'.db.object = m.db.object) :
    Keeps m m' :=
  ⟨[], by rw [he, List.append_nil], fun _ => ho⟩

theorem Keeps.refl (m : Machine) : Keeps m m := .of_objects rfl rfl

theorem Keeps.trans (h : Keeps m m') (h' : Keeps m' m'') : Keeps m m'' := by
  obtain ⟨ran, he, ho⟩ := h
  obtain ⟨ran', he', ho'⟩ := h'
  refine ⟨ran ++ ran', by rw [he', he, List.append_assoc], ?_⟩
  intro hall
  rw [List.forall_mem_append] at hall
  exact (ho' hall.2).trans (ho hall.1)

theorem Keeps.settle {result : Machine × CallReturn} (h : Keeps m result.1) :
    Keeps m (Evm.settle m.db result).1 := by
  obtain ⟨ran, he, -⟩ := id h
  unfold Evm.settle
  split
  next hr =>
    split
    · exact h
    · exact ⟨ran, he, fun _ => rfl⟩

end Keeps

theorem StateDB.object_transfer_zero (s : StateDB) (src dst : Address) :
    (s.transfer src dst 0).object = s.object := by
  funext a
  unfold transfer addBalance subBalance
  rw [object_modify, object_modify]
  split_ifs <;> rfl

theorem object_enterCall_zero (db : StateDB) (caller addr : Address) :
    (Evm.enterCall db caller addr 0).object = db.object := by
  unfold Evm.enterCall
  rw [StateDB.object_transfer_zero]
  split_ifs with h
  · rfl
  · funext a
    exact StateDB.object_createAccount _ _ _ (Bool.not_eq_true _ ▸ h)

namespace Evm
variable {E : Evm} {sub : Handler} {contract : Contract} {input : Bytes}

theorem runPrecompiledContract_keeps (p : Precompiled) (m : Machine)
    (hp : precompiles contract.codeAddr = some p) :
    Keeps m (E.runPrecompiledContract p input contract m).1 := by
  cases p with
  | standard =>
    unfold runPrecompiledContract
    dsimp only
    split_ifs
    · exact .refl m
    refine ⟨[(contract.codeAddr, input)], ?_, ?_⟩
    · split <;> rfl
    · intro _
      split <;> rfl
  | deposit =>
    have haddr := precompiles_eq_deposit hp
    unfold runPrecompiledContract
    dsimp only
    split_ifs
    · exact .refl m
    refine ⟨[(contract.codeAddr, input)], ?_, ?_⟩
    · split <;> rfl
    · intro hall
      have hother := hall _ (List.mem_singleton_self _) haddr
      have hsame := MatrixDeposit.run_other contract m.db E.blockNumber hother
      split <;> exact congrArg StateDB.object hsame

theorem Asks.isProtected {gas spent : UInt64} {request : Request}
    (hw : E.writeProtected true = true) (h : Asks E true contract gas request spent) :
    request.Protected := by
  cases h with
  | create code value hwrite => exact absurd hw hwrite
  | call addr input g value hwrite hgas =>
    rw [hw] at hwrite
    simpa [Request.Protected] using hwrite
  | callCode | delegateCall | staticCall => trivial

theorem exec_keeps (hB : E.rules.isByzantium = true) (hsub : sub.Protects) (contract : Contract)
    (program : Program) (gas : UInt64) (m : Machine) :
    Keeps m (E.exec sub true contract program gas m).1 := by
  have hw : E.writeProtected true = true := by simp [writeProtected, hB]
  refine exec_induction (fun _ m' => Keeps m m') (fun result => Keeps m result.1)
    ?_ ?_ ?_ ?_ ?_ ?_ program gas m (.refl m)
  · intro gas m' ret err _ h
    exact h
  · intro gas m' cost _ h
    exact h
  · intro gas m' g h
    exact h.trans (.of_objects rfl rfl)
  · intro gas m' loc val hwrite _
    exact absurd hw hwrite
  · intro gas m' request spent hask h
    exact h.trans (hsub request m' (hask.isProtected hw))
  · intro gas m' beneficiary hwrite _
    exact absurd hw hwrite

theorem run_keeps (hB : E.rules.isByzantium = true) (hsub : sub.Protects) (contract : Contract)
    (input : Bytes) (m : Machine) : Keeps m (E.run sub true contract input m).1 := by
  unfold run
  split
  next p hp => exact runPrecompiledContract_keeps p m hp
  next =>
    split_ifs
    · exact .refl m
    · exact exec_keeps hB hsub ..

theorem Opens.keeps {mode : Bool} {m : Machine} {request : Request} {db : StateDB}
    (h : Opens true m request mode contract input db) (hq : request.Protected) :
    mode = true ∧ Keeps m { m with db := db } := by
  cases h with
  | call caller addr _ gas value =>
    have hvalue : value = 0 := hq
    subst hvalue
    exact ⟨rfl, .of_objects rfl (object_enterCall_zero ..)⟩
  | callCode | delegateCall | staticCall => exact ⟨rfl, .refl m⟩

theorem handle_protects (hB : E.rules.isByzantium = true) (hsub : sub.Protects) (depth : ℕ) :
    Handler.Protects (E.handle sub depth) := by
  intro request m hq
  rcases E.handle_cases sub depth true request m with ⟨caller, code, gas, value, rfl⟩ |
    ⟨err, hrefused⟩ | ⟨mode, contract, input, db, hopens, hrun⟩
  · exact hq.elim
  · rw [hrefused]
    exact .refl m
  · obtain ⟨rfl, hstart⟩ := hopens.keeps hq
    rw [hrun]
    exact (hstart.trans (run_keeps hB hsub ..)).settle

theorem handler_protects (hB : E.rules.isByzantium = true) (left : ℕ) :
    Handler.Protects (E.handler left) := by
  induction left with
  | zero => exact handle_protects hB (fun _ m _ => .refl m) _
  | succ left ih => exact handle_protects hB ih _

/-- A static call leaves every account as it was, unless the deposit contract is run somewhere in
its call tree with a method that writes. -/
theorem staticCall_keeps_accounts (E : Evm) (left : ℕ) (readOnly : Bool) (caller addr : Address)
    (input : Bytes) (gas : UInt64) (db : StateDB) (hB : E.rules.isByzantium = true)
    (hreads : ∀ run ∈ (E.handler left readOnly (.staticCall caller addr input gas) ⟨db, []⟩).1.entered,
      ReadsOnly run) :
    (E.handler left readOnly (.staticCall caller addr input gas) ⟨db, []⟩).1.db.object =
      db.object := by
  have hmode : E.handler left readOnly (.staticCall caller addr input gas) ⟨db, []⟩ =
      E.handler left true (.staticCall caller addr input gas) ⟨db, []⟩ := by
    cases left <;> rfl
  rw [hmode] at hreads ⊢
  obtain ⟨ran, hran, hkeeps⟩ :=
    handler_protects hB left (.staticCall caller addr input gas) ⟨db, []⟩ trivial
  rw [hran] at hreads
  exact hkeeps hreads

end Evm

namespace MatrixDeposit

/-- The list of depositors is read, and nothing is changed. -/
theorem staticCall_getDepositList_keeps_accounts :
    ((sampleEvm 1).outermost false
      (.staticCall firstDepositor depositAddress getDepositListArr 40000) ⟨richState, []⟩).1.db.object =
        richState.object := by
  have hentered : ((sampleEvm 1).outermost false
      (.staticCall firstDepositor depositAddress getDepositListArr 40000) ⟨richState, []⟩).1.entered =
        [(depositAddress, getDepositListArr)] := by
    decide +kernel
  refine Evm.staticCall_keeps_accounts (sampleEvm 1) _ false _ _ _ _ richState rfl ?_
  intro ran hran
  change ran ∈ ((sampleEvm 1).outermost false _ _).1.entered at hran
  rw [hentered, List.mem_singleton] at hran
  subst hran
  intro _
  decide

def depositedState : StateDB :=
  ((sampleCall firstDepositor minerDepositInput minerThreshold 1).invoke richState).1

/-- The deposit contract announces a withdrawal also when it is called read-only. -/
theorem staticCall_withdraw_writes :
    (sampleEvm 2).rules.isByzantium = true ∧
    ((sampleEvm 2).outermost false (.staticCall firstDepositor depositAddress withdrawIdArr 40000)
      ⟨depositedState, []⟩).1.db.object ≠ depositedState.object := by
  refine ⟨rfl, ?_⟩
  intro hsame
  have hstate (s t : StateDB) (h : s.object = t.object) : book s = book t := by
    unfold book cells StateDB.getState
    rw [h]
  have hheight := congrArg (fun b => b.withdrawHeight firstDepositor) (hstate _ _ hsame)
  exact absurd hheight (by decide +kernel)

end MatrixDeposit

end MatrixNode
