import MatrixNode.DepositCalls

/-! Histories of calls of the deposit contract: the contract can always pay every recorded deposit
back, a refund pays what was deposited, and only after an earlier announcement. -/
namespace MatrixNode
namespace MatrixDeposit
open GoLib Function List

structure Event where
  caller : Address
  action : Action
  value : ℕ
  blockNumber : ℕ
  ok : Bool
  deriving DecidableEq

def Event.isDeposit (e : Event) : Bool :=
  e.ok && match e.action with
    | .deposit _ => true
    | _ => false

def Event.isWithdraw (e : Event) : Bool := e.ok && e.action = .withdraw

def Event.isRefund (e : Event) : Bool := e.ok && e.action = .refund

def callStep (s : StateDB × List Event) (k : DepositCall) : StateDB × List Event :=
  ((k.invoke s.1).1,
    ⟨k.caller, action k.input, k.value, k.evm.blockNumber, succeeded (k.invoke s.1).2⟩ :: s.2)

def runCalls (db : StateDB) (calls : List DepositCall) : StateDB × List Event :=
  calls.foldl callStep (db, [])

def depositedSince (a : Address) : List Event → ℕ
  | [] => 0
  | e :: earlier =>
    if e.caller = a ∧ e.isRefund = true then 0
    else if e.caller = a ∧ e.isDeposit = true then depositedSince a earlier+e.value
    else depositedSince a earlier

/-- The account has announced a withdrawal at the given block, and since then none of its calls
has succeeded in depositing, withdrawing or refunding. -/
def AnnouncedAt (a : Address) (number : ℕ) (history : List Event) : Prop :=
  ∃ (later : List Event) (w : Event) (earlier : List Event), history = later ++ w :: earlier ∧
    w.caller = a ∧ w.isWithdraw = true ∧ w.blockNumber = number ∧ ∀ e ∈ later, e.caller = a →
      e.isDeposit = false ∧ e.isWithdraw = false ∧ e.isRefund = false

theorem runCalls_append (db : StateDB) (calls : List DepositCall) (k : DepositCall) :
    runCalls db (calls ++ [k]) = callStep (runCalls db calls) k := by
  rw [runCalls, foldl_append]
  rfl

theorem foldl_callStep_fst (calls : List DepositCall) (db : StateDB) (history : List Event) :
    (calls.foldl callStep (db, history)).1 = (runCalls db calls).1 := by
  unfold runCalls
  induction calls using reverseRecOn with
  | nil => rfl
  | append_singleton calls k ih =>
    rw [foldl_append, foldl_append]
    change (k.invoke _).1 = (k.invoke _).1
    rw [ih]

variable {db : StateDB}

theorem exists_call_of_mem {calls : List DepositCall} {e : Event}
    (he : e ∈ (runCalls db calls).2) :
    ∃ k ∈ calls, e.action = action k.input ∧ e.blockNumber = k.evm.blockNumber := by
  induction calls using reverseRecOn with
  | nil => cases he
  | append_singleton calls k ih =>
    rw [runCalls_append] at he
    rcases mem_cons.mp he with rfl | hmem
    · exact ⟨k, mem_append_right _ (mem_singleton_self k), rfl, rfl⟩
    · obtain ⟨k', hk', h⟩ := ih hmem
      exact ⟨k', mem_append_left _ hk', h⟩

theorem runCalls_induction {P : Vault → List Event → Prop} {G : DepositCall → Prop}
    (hstart : P (vault db) [])
    (hstep : ∀ (k : DepositCall) (c : Depositor) (ok : Bool) (s s' : Vault) (history : List Event),
      G k → VaultStep c k.value k.evm.blockNumber (action k.input) ok s s' → P s history →
      P s' (⟨c, action k.input, k.value, k.evm.blockNumber, ok⟩ :: history))
    (calls : List DepositCall) (hcallers : ∀ k ∈ calls, 2^80 ≤ k.caller.toNat)
    (hgood : ∀ k ∈ calls, G k) :
    P (vault (runCalls db calls).1) (runCalls db calls).2 := by
  induction calls using reverseRecOn with
  | nil => exact hstart
  | append_singleton calls k ih =>
    have hbefore := ih (fun k' hk => hcallers k' (mem_append_left _ hk))
      (fun k' hk => hgood k' (mem_append_left _ hk))
    have hk : k ∈ calls ++ [k] := mem_append_right _ (mem_singleton_self k)
    rw [runCalls_append]
    exact hstep k ⟨k.caller, hcallers k hk⟩ _ _ _ _ (hgood k hk) (invoke_step k rfl _) hbefore

section Book
variable (b : Book) (c x : Depositor)

@[simp] theorem Book.insert_deposit : (b.insert c).deposit = b.deposit := rfl

@[simp] theorem Book.insert_withdrawHeight : (b.insert c).withdrawHeight = b.withdrawHeight := rfl

theorem Book.remove_deposit : (b.remove c).deposit = b.deposit := by
  unfold remove
  split <;> rfl

theorem Book.remove_withdrawHeight : (b.remove c).withdrawHeight = b.withdrawHeight := by
  unfold remove
  split <;> rfl

theorem Book.close_deposit : (b.close c).deposit = update b.deposit c 0 := by
  rw [close, remove_deposit]

theorem Book.close_withdrawHeight : (b.close c).withdrawHeight = update b.withdrawHeight c 0 := by
  rw [close, remove_withdrawHeight]

theorem Book.pay_withdrawHeight (v : ℕ) : (b.pay c v).withdrawHeight = b.withdrawHeight := by
  unfold pay
  split_ifs <;> rfl

theorem Book.pay_deposit {v : ℕ} (h : b.deposit c+v < 2^256) :
    (b.pay c v).deposit = update b.deposit c (b.deposit c+v) := by
  rw [pay, if_pos h]
  dsimp only
  split_ifs <;> rfl

theorem Book.pay_new {v : ℕ} (h0 : b.deposit c = 0) (hv : v < 2^256) :
    b.pay c v = insert ⟨update b.deposit c v, b.withdrawHeight, b.num, b.item⟩ c := by
  have hfit : b.deposit c+v < 2^256 := by rwa [h0, Nat.zero_add]
  rw [pay, if_pos hfit, if_pos h0, h0, Nat.zero_add]

end Book

section History
variable {a : Address} {e : Event} {history : List Event}

theorem depositedSince_deposit (ha : e.caller = a) (hr : e.isRefund = false)
    (hd : e.isDeposit = true) :
    depositedSince a (e :: history) = depositedSince a history+e.value := by
  rw [depositedSince, if_neg (by simp [hr]), if_pos ⟨ha, hd⟩]

theorem depositedSince_of_ne (ha : e.caller ≠ a) :
    depositedSince a (e :: history) = depositedSince a history := by
  rw [depositedSince, if_neg (fun h => ha h.1), if_neg (fun h => ha h.1)]

theorem depositedSince_other (hr : e.isRefund = false) (hd : e.isDeposit = false) :
    depositedSince a (e :: history) = depositedSince a history := by
  rw [depositedSince, if_neg (by simp [hr]), if_neg (by simp [hd])]

end History

structure Solvent (s : Vault) (history : List Event) : Prop where
  recorded : ∀ c : Depositor, s.book.deposit c = depositedSince c history
  covered : ∑ c, s.book.deposit c ≤ s.balance depositAddress
  supply : ∑ a, s.balance a < 2^256

section Solvency
variable {c : Depositor} {v n : ℕ} {a : Action} {ok : Bool} {s s' : Vault} {history : List Event}

theorem Solvent.fits (h : Solvent s history) (hv : v ≤ s.balance c) :
    s.book.deposit c+v < 2^256 := by
  have hle : s.book.deposit c ≤ ∑ x, s.book.deposit x :=
    Finset.single_le_sum (fun _ _ => Nat.zero_le _) (Finset.mem_univ c)
  have hpaid : pay s.balance c depositAddress v depositAddress = s.balance depositAddress+v :=
    pay_dst (depositor_ne c)
  have hall : pay s.balance c depositAddress v depositAddress ≤
      ∑ x, pay s.balance c depositAddress v x :=
    Finset.single_le_sum (fun _ _ => Nat.zero_le _) (Finset.mem_univ depositAddress)
  have hsum : ∑ x, pay s.balance c depositAddress v x = ∑ x, s.balance x := sum_pay hv
  have hcovered := h.covered
  have hsupply := h.supply
  omega

section
variable (h : Solvent s history) (hstep : VaultStep c v n a ok s s')
include h hstep

theorem Solvent.recorded_step (x : Depositor) :
    s'.book.deposit x = depositedSince x (⟨c, a, v, n, ok⟩ :: history) := by
  have hx := h.recorded x
  cases hstep with
  | failed => rw [depositedSince_other rfl rfl, hx]
  | read hv => rw [depositedSince_other (by simp [Event.isRefund]) (by simp [Event.isDeposit]), hx]
  | withdraw hv hd =>
    rw [depositedSince_other rfl rfl, ← hx]
    rfl
  | deposit hv hw ht =>
    dsimp only
    rw [Book.pay_deposit s.book c (h.fits hv), update_apply]
    by_cases hxc : x = c
    · subst hxc
      rw [depositedSince_deposit (a := (x : Address)) rfl rfl rfl, if_pos rfl, hx]
    · rw [depositedSince_of_ne (fun he => hxc (Subtype.ext he.symm)), if_neg hxc, hx]
  | refund hv hd hw hn hb =>
    dsimp only
    rw [Book.close_deposit, update_apply]
    by_cases hxc : x = c
    · subst hxc
      rw [depositedSince, if_pos rfl, if_pos ⟨rfl, rfl⟩]
    · rw [depositedSince_of_ne (fun he => hxc (Subtype.ext he.symm)), if_neg hxc, hx]

theorem Solvent.covered_step : ∑ x, s'.book.deposit x ≤ s'.balance depositAddress := by
  have hcovered := h.covered
  have hpaid : pay s.balance c depositAddress v depositAddress = s.balance depositAddress+v :=
    pay_dst (depositor_ne c)
  cases hstep with
  | failed => exact hcovered
  | read hv =>
    dsimp only
    omega
  | withdraw hv hd =>
    dsimp only [Book.announce]
    omega
  | deposit hv hw ht =>
    have hsum := sum_replace_summand (Finset.mem_univ c) s.book.deposit (s.book.deposit c+v)
    dsimp only
    rw [Book.pay_deposit s.book c (h.fits hv)]
    omega
  | refund hv hd hw hn hb =>
    have hsum := sum_replace_summand (Finset.mem_univ c) s.book.deposit 0
    dsimp only
    rw [Book.close_deposit, pay_src (depositor_ne c).symm]
    omega

theorem Solvent.supply_step : ∑ x, s'.balance x < 2^256 := by
  have hsupply := h.supply
  cases hstep with
  | failed => exact hsupply
  | read hv | withdraw hv | deposit hv => exact (sum_pay hv).trans_lt hsupply
  | refund hv hd hw hn hb =>
    have hfunds : s.book.deposit c ≤ pay s.balance c depositAddress v depositAddress := by
      rwa [pay_dst (depositor_ne c)]
    exact ((sum_pay hfunds).trans (sum_pay hv)).trans_lt hsupply

theorem Solvent.step : Solvent s' (⟨c, a, v, n, ok⟩ :: history) :=
  ⟨h.recorded_step hstep, h.covered_step hstep, h.supply_step hstep⟩

end

theorem VaultStep.refund_balance (hstep : VaultStep c v n .refund true s s') :
    s'.balance c+v = s.balance c+s.book.deposit c ∧
      s'.balance depositAddress+s.book.deposit c = s.balance depositAddress+v := by
  have hne := depositor_ne c
  cases hstep with
  | refund hv hd hw hn hb =>
    dsimp only
    rw [pay_dst hne.symm, pay_src hne.symm, pay_src hne, pay_dst hne]
    omega

end Solvency

theorem solvent_runCalls (hempty : ∀ key, db.getState depositAddress key = 0)
    (hsupply : db.totalSupply < 2^256) (calls : List DepositCall)
    (hcallers : ∀ k ∈ calls, 2^80 ≤ k.caller.toNat) :
    Solvent (vault (runCalls db calls).1) (runCalls db calls).2 := by
  have hstart : Solvent (vault db) [] := by
    have hzero (c : Depositor) : (book db).deposit c = 0 :=
      congrArg BitVec.toNat (hempty (Cell.key depositAddress (.deposit c)))
    refine ⟨hzero, ?_, hsupply⟩
    change ∑ c, (book db).deposit c ≤ _
    simp [hzero]
  exact runCalls_induction (G := fun _ => True) hstart
    (fun k c ok s s' history _ hstep h => h.step hstep) calls hcallers (fun _ _ => trivial)

section Sample

def sampleCall (caller : Address) (input : Bytes) (value number : ℕ) : DepositCall :=
  ⟨sampleEvm number, callCreateDepth+1, false, caller, input, 40000, value⟩

def minerDepositInput : Bytes := minerDepositIdArr ++ packBytes (replicate 64 1)

def richState : StateDB := ⟨fun _ => some { newObject with balance := minerThreshold }, 0⟩

theorem totalSupply_richState : richState.totalSupply < 2^256 := by
  have hb (a : Address) : richState.getBalance a = minerThreshold := rfl
  have hcard : Fintype.card Address = 2^160 := by
    rw [Fintype.card_congr BitVec.equivFin.toEquiv, Fintype.card_fin]
  unfold StateDB.totalSupply
  rw [Finset.sum_congr rfl (fun a _ => hb a), Finset.sum_const, Finset.card_univ, hcard]
  norm_num [minerThreshold, man]

theorem getState_richState (key : Word) : richState.getState depositAddress key = 0 := rfl

def idDepositInput (nodeID : Bytes) : Bytes := minerDepositIdArr ++ packBytes nodeID

theorem action_idDepositInput (nodeID : Bytes) :
    action (idDepositInput nodeID) = .deposit minerThreshold := by
  have htake : (idDepositInput nodeID).take 4 = minerDepositIdArr := take_left' rfl
  have hlen : ¬ (idDepositInput nodeID).length < 4 := by
    rw [idDepositInput, length_append]
    simp [minerDepositIdArr]
  rw [action, if_neg hlen, htake, if_neg (by decide), if_pos rfl]

theorem unpackBytes_idDepositInput {nodeID : Bytes} (h : nodeID.length = 64) :
    unpackBytes ((idDepositInput nodeID).drop 4) = .ok nodeID := by
  have hdrop : (idDepositInput nodeID).drop 4 = packBytes nodeID := drop_left' rfl
  rw [hdrop, unpackBytes_packBytes (by rw [h]; norm_num)]

theorem action_minerDepositInput : action minerDepositInput = .deposit minerThreshold :=
  action_idDepositInput _

theorem unpackBytes_minerDepositInput :
    unpackBytes (minerDepositInput.drop 4) = .ok (replicate 64 1) :=
  unpackBytes_idDepositInput length_replicate

theorem requiredGas_le (input : Bytes) : requiredGas input ≤ 40000 := by
  unfold requiredGas
  split_ifs <;> decide

theorem sampleCall_reaches {db : StateDB} {caller : Address} (input : Bytes) {value : ℕ} (number : ℕ)
    (h : value ≤ db.getBalance caller) : (sampleCall caller input value number).Reaches db :=
  ⟨rfl, requiredGas_le input, h⟩

theorem freshDeposit_succeeds {db : StateDB} {c : Depositor} (number : ℕ)
    (hw : (book db).withdrawHeight c = 0) (hb : minerThreshold ≤ db.getBalance c) :
    succeeded ((sampleCall c minerDepositInput minerThreshold number).invoke db).2 = true ∧
      book ((sampleCall c minerDepositInput minerThreshold number).invoke db).1 =
        (book db).pay c minerThreshold ∧
      ((sampleCall c minerDepositInput minerThreshold number).invoke db).1.getBalance =
        pay db.getBalance c depositAddress minerThreshold := by
  have hok : succeeded ((sampleCall c minerDepositInput minerThreshold number).invoke db).2 = true :=
    ((sampleCall_reaches minerDepositInput number hb).deposit action_minerDepositInput
      unpackBytes_minerDepositInput length_replicate hw (Nat.le_add_left ..)).1
  have hstep : VaultStep c minerThreshold number (action minerDepositInput) _ _ _ :=
    invoke_step (sampleCall c minerDepositInput minerThreshold number) rfl db
  rw [hok, action_minerDepositInput] at hstep
  generalize hs : vault ((sampleCall c minerDepositInput minerThreshold number).invoke db).1 = s'
    at hstep
  cases hstep
  simp only [vault, Vault.mk.injEq] at hs
  exact ⟨hok, hs.1, hs.2⟩

end Sample

/-- The balance of the contract covers the recorded deposits, and a refund pays its caller the
deposits since the last one. -/
theorem deposits_covered_and_repaid
    (hempty : ∀ key, db.getState depositAddress key = 0) (hsupply : db.totalSupply < 2^256)
    (calls : List DepositCall) (hcallers : ∀ k ∈ calls, 2^80 ≤ k.caller.toNat) :
    ∑ c : Depositor, getDeposit ownContract (runCalls db calls).1 c ≤
        (runCalls db calls).1.getBalance depositAddress ∧
    ∀ k : DepositCall, 2^80 ≤ k.caller.toNat → action k.input = .refund →
      succeeded (k.invoke (runCalls db calls).1).2 = true →
      (k.invoke (runCalls db calls).1).1.getBalance k.caller+k.value =
          (runCalls db calls).1.getBalance k.caller+
            depositedSince k.caller (runCalls db calls).2 ∧
        (k.invoke (runCalls db calls).1).1.getBalance depositAddress+
            depositedSince k.caller (runCalls db calls).2 =
          (runCalls db calls).1.getBalance depositAddress+k.value := by
  have hinv := solvent_runCalls hempty hsupply calls hcallers
  refine ⟨hinv.covered, ?_⟩
  intro k hk hrefund hok
  have hstep := invoke_step (c := ⟨k.caller, hk⟩) k rfl (runCalls db calls).1
  rw [hrefund, hok] at hstep
  have hpaid := hstep.refund_balance
  rwa [hinv.recorded ⟨k.caller, hk⟩] at hpaid

section Sample

def firstDepositor : Depositor := ⟨BitVec.ofNat 160 (2^80), by decide⟩

def announcingCalls (number : ℕ) : List DepositCall :=
  [sampleCall firstDepositor minerDepositInput minerThreshold 1,
    sampleCall firstDepositor withdrawIdArr 0 number]

theorem announcingCalls_callers (number : ℕ) :
    ∀ k ∈ announcingCalls number, 2^80 ≤ k.caller.toNat := by
  intro k hk
  simp only [announcingCalls, mem_cons, not_mem_nil, or_false] at hk
  rcases hk with rfl | rfl <;> exact firstDepositor.2

def refundCall (number : ℕ) : DepositCall := sampleCall firstDepositor refundIdArr 0 number

theorem refund_after_announcingCalls :
    succeeded ((refundCall 2).invoke (runCalls richState (announcingCalls 1)).1).2 = true := by
  decide +kernel

end Sample

/-- A deposit is paid back in the block after the announcement. -/
theorem deposit_repaid_next_block :
    succeeded ((refundCall 2).invoke (runCalls richState (announcingCalls 1)).1).2 = true ∧
      ((refundCall 2).invoke (runCalls richState (announcingCalls 1)).1).1.getBalance
          (refundCall 2).caller+(refundCall 2).value =
        (runCalls richState (announcingCalls 1)).1.getBalance (refundCall 2).caller+
          depositedSince (refundCall 2).caller (runCalls richState (announcingCalls 1)).2 := by
  have hok := refund_after_announcingCalls
  have hall := deposits_covered_and_repaid getState_richState totalSupply_richState
    (announcingCalls 1) (announcingCalls_callers 1)
  exact ⟨hok, (hall.2 (refundCall 2) firstDepositor.2 (by decide) hok).1⟩

section Filled

def nthDepositor (i : ℕ) : Depositor :=
  ⟨BitVec.ofNat 160 (2^80+i%2^64), by
    rw [BitVec.toNat_ofNat, Nat.mod_eq_of_lt (by omega)]
    omega⟩

theorem nthDepositor_toNat {i : ℕ} (hi : i < 2^64) : (nthDepositor i : Address).toNat = 2^80+i := by
  unfold nthDepositor
  rw [BitVec.toNat_ofNat, Nat.mod_eq_of_lt hi, Nat.mod_eq_of_lt (by omega)]

theorem nthDepositor_ne {i j : ℕ} (hi : i < 2^64) (hj : j < 2^64) (h : i ≠ j) :
    nthDepositor i ≠ nthDepositor j := by
  intro he
  have hn := nthDepositor_toNat hi
  rw [he, nthDepositor_toNat hj] at hn
  omega

def depositingCalls (m : ℕ) : List DepositCall :=
  (range m).map (fun i => sampleCall (nthDepositor i) minerDepositInput minerThreshold 1)

theorem depositingCalls_succ (m : ℕ) : depositingCalls (m+1) =
    depositingCalls m ++ [sampleCall (nthDepositor m) minerDepositInput minerThreshold 1] := by
  rw [depositingCalls, range_succ, map_append]
  rfl

/-- The state after `m` new depositors have been appended to a list of length `q`. -/
structure Filled (db₀ : StateDB) (q m : ℕ) (db : StateDB) : Prop where
  num : (book db).num = q+m
  items : ∀ i < m, cells db (.listItem (UInt64.ofNat (q+i))) =
    bytesToHash (addressBytes (nthDepositor i))
  paid : ∀ i < m, (book db).deposit (nthDepositor i) = minerThreshold
  fresh : ∀ i, m ≤ i → i < 2^64 →
    (book db).deposit (nthDepositor i) = 0 ∧ minerThreshold ≤ db.getBalance (nthDepositor i)
  quiet : ∀ c, (book db).withdrawHeight c = 0
  kept : ∀ e : Cell, e.number < (10*256^2+0x4449)*256^8 → e.number ≠ Cell.listNum.number →
    cells db e = cells db₀ e
  funds : db₀.getBalance depositAddress ≤ db.getBalance depositAddress

theorem minerThreshold_pos : 0 < minerThreshold := by decide

theorem minerThreshold_lt : minerThreshold < 2^256 := by
  norm_num [minerThreshold, man]

/-- The contract reads its cells after the payment has come in, which touches none of them. -/
theorem cells_after_firstDeposit {db : StateDB} {a : Address}
    (hw : getWithdrawHeight ownContract db a = 0) (h0 : getDeposit ownContract db a = 0)
    (hb : minerThreshold ≤ db.getBalance a) :
    ((sampleCall a minerDepositInput minerThreshold 1).invoke db).1.getBalance =
        pay db.getBalance a depositAddress minerThreshold ∧
      ∀ e : Cell, e.number ≠ (Cell.nodeX a).number → e.number ≠ (Cell.nodeY a).number →
        cells ((sampleCall a minerDepositInput minerThreshold 1).invoke db).1 e =
          if e.number = (Cell.listItem (UInt64.ofNat (book db).num)).number then
            bytesToHash (addressBytes a)
          else if e.number = Cell.listNum.number then bigToHash ((book db).num+1)
          else if e.number = (Cell.deposit a).number then bigToHash minerThreshold
          else cells db e := by
  have hopen : getDeposit (openedFrame a 40000 minerThreshold db)
      (Evm.enterCall db a depositAddress minerThreshold) a = 0 :=
    (getDeposit_opened (sampleCall a minerDepositInput minerThreshold 1) db a).trans h0
  have hcells : cells (Evm.enterCall db a depositAddress minerThreshold) = cells db := by
    unfold cells
    rw [getState_enterCall]
  obtain ⟨-, hstate⟩ := (sampleCall_reaches minerDepositInput 1 hb).deposit
    action_minerDepositInput unpackBytes_minerDepositInput length_replicate hw
    (Nat.le_add_left ..)
  constructor
  · rw [hstate, (storageOnly_modifyDepositState ..).getBalance, getBalance_enterCall]
    rfl
  · intro e hx hy
    rw [hstate, ← book_enterCall db a depositAddress minerThreshold, ← hcells]
    exact cells_firstDeposit rfl _ _ hopen minerThreshold_lt e hx hy

/-- The cells of the new depositor lie above the list. -/
theorem Filled.step {db₀ db : StateDB} {q m : ℕ} (h : Filled db₀ q m db) (hq : q+m < 2^64) :
    Filled db₀ q (m+1)
      ((sampleCall (nthDepositor m) minerDepositInput minerThreshold 1).invoke db).1 := by
  obtain ⟨h0, hb⟩ := h.fresh m le_rfl (by omega)
  obtain ⟨-, hbook, hbal⟩ := freshDeposit_succeeds 1 (h.quiet (nthDepositor m)) hb
  obtain ⟨-, hcell⟩ := cells_after_firstDeposit (h.quiet (nthDepositor m)) h0 hb
  have hm := nthDepositor_toNat (i := m) (by omega)
  generalize (sampleCall (nthDepositor m) minerDepositInput minerThreshold 1).invoke db = r
    at hbook hbal hcell ⊢
  rw [Book.pay_new _ _ h0 minerThreshold_lt] at hbook
  have hne (i : ℕ) (hi : i < 2^64) (him : i ≠ m) : nthDepositor i ≠ nthDepositor m :=
    nthDepositor_ne hi (by omega) him
  have hlow (e : Cell) (he : e.number < 2^88) : cells r.1 e =
      if e.number = (Cell.listItem (UInt64.ofNat (q+m))).number then
        bytesToHash (addressBytes (nthDepositor m))
      else if e.number = Cell.listNum.number then bigToHash (q+m+1)
      else cells db e := by
    have hd : (Cell.deposit (nthDepositor m)).number = (2^80+m)*256+0x44 := by rw [← hm]; rfl
    have hx : (Cell.nodeX (nthDepositor m)).number = (2^80+m)*256^2+0x4e58 := by rw [← hm]; rfl
    have hy : (Cell.nodeY (nthDepositor m)).number = (2^80+m)*256^2+0x4e59 := by rw [← hm]; rfl
    have habove : ¬ e.number = (Cell.deposit (nthDepositor m)).number := by omega
    rw [hcell e (by omega) (by omega), h.num, if_neg habove]
  refine ⟨?_, ?_, ?_, ?_, ?_, ?_, ?_⟩
  · rw [hbook]
    change ((book db).num+1)%2^256 = q+(m+1)
    rw [h.num, Nat.mod_eq_of_lt (by omega)]
    omega
  · intro i hi
    have hnum (j : ℕ) (hj : j < 2^64) : (Cell.listItem (UInt64.ofNat j)).number =
        (10*256^2+0x4449)*256^8+j := by
      rw [Cell.number, UInt64.toNat_ofNat_of_lt' hj]
    rw [hlow _ (by rw [hnum _ (by omega)]; omega)]
    by_cases him : i = m
    · rw [him, if_pos rfl]
    · rw [if_neg (by rw [hnum _ (by omega), hnum _ hq]; omega),
        if_neg (by rw [hnum _ (by omega), Cell.number]; omega), h.items i (by omega)]
  · intro i hi
    rw [hbook, Book.insert_deposit]
    dsimp only
    by_cases him : i = m
    · rw [him, update_self]
    · rw [update_of_ne (hne i (by omega) him), h.paid i (by omega)]
  · intro i hi hlt
    have hi' := hne i hlt (by omega)
    obtain ⟨hz, hfunds⟩ := h.fresh i (by omega) hlt
    rw [hbook, Book.insert_deposit, hbal]
    dsimp only
    rw [update_of_ne hi', pay_of_ne (fun he => hi' (Subtype.ext he)) (depositor_ne _)]
    exact ⟨hz, hfunds⟩
  · intro c
    rw [hbook, Book.insert_withdrawHeight]
    exact h.quiet c
  · intro e he hn
    rw [hlow e (by omega), if_neg (by rw [Cell.number]; omega), if_neg hn]
    exact h.kept e he hn
  · rw [hbal, pay_dst (depositor_ne _)]
    exact h.funds.trans (Nat.le_add_right ..)

theorem filled_runCalls {db₀ : StateDB} {q : ℕ} (h : Filled db₀ q 0 db₀) (m : ℕ) (hm : q+m ≤ 2^64) :
    Filled db₀ q m (runCalls db₀ (depositingCalls m)).1 := by
  induction m with
  | zero => exact h
  | succ m ih =>
    rw [depositingCalls_succ, runCalls_append]
    exact (ih (by omega)).step (by omega)

end Filled

section TimeLock
variable {c : Depositor} {v n : ℕ} {a : Action} {ok : Bool} {s s' : Vault} {history : List Event}

theorem AnnouncedAt.cons {x : Address} {number : ℕ} {e : Event} (h : AnnouncedAt x number history)
    (he : e.caller = x → e.isDeposit = false ∧ e.isWithdraw = false ∧ e.isRefund = false) :
    AnnouncedAt x number (e :: history) := by
  obtain ⟨later, w, earlier, rfl, hw, hok, hn, hlater⟩ := h
  refine ⟨e :: later, w, earlier, rfl, hw, hok, hn, ?_⟩
  intro e' he' hx
  rcases mem_cons.mp he' with rfl | hmem
  · exact he hx
  · exact hlater e' hmem hx

def TimeLocked (s : Vault) (history : List Event) : Prop :=
  ∀ c : Depositor, s.book.withdrawHeight c ≠ 0 → AnnouncedAt c (s.book.withdrawHeight c) history

/-- The caller has nothing announced, or the deposit would have failed. -/
theorem TimeLocked.step (h : TimeLocked s history) (hn : n < 2^256)
    (hstep : VaultStep c v n a ok s s') : TimeLocked s' (⟨c, a, v, n, ok⟩ :: history) := by
  intro x hx
  have hother (hxc : x ≠ c) : ((⟨c, a, v, n, ok⟩ : Event).caller = x →
      (⟨c, a, v, n, ok⟩ : Event).isDeposit = false ∧
        (⟨c, a, v, n, ok⟩ : Event).isWithdraw = false ∧
        (⟨c, a, v, n, ok⟩ : Event).isRefund = false) :=
    fun he => absurd (Subtype.ext he.symm) hxc
  cases hstep with
  | failed => exact (h x hx).cons (fun _ => ⟨rfl, rfl, rfl⟩)
  | read hv =>
    apply (h x hx).cons
    intro _
    simp [Event.isDeposit, Event.isWithdraw, Event.isRefund]
  | deposit hv hw ht =>
    dsimp only at hx ⊢
    rw [Book.pay_withdrawHeight] at hx ⊢
    have hxc : x ≠ c := by
      rintro rfl
      exact hx hw
    exact (h x hx).cons (hother hxc)
  | withdraw hv hd =>
    dsimp only [Book.announce] at hx ⊢
    by_cases hxc : x = c
    · subst hxc
      rw [update_self, Nat.mod_eq_of_lt hn]
      exact ⟨[], _, history, rfl, rfl, rfl, rfl, nofun⟩
    · rw [update_of_ne hxc] at hx ⊢
      exact (h x hx).cons (hother hxc)
  | refund hv hd hw hn hb =>
    dsimp only at hx ⊢
    rw [Book.close_withdrawHeight] at hx ⊢
    have hxc : x ≠ c := by
      rintro rfl
      exact hx (update_self ..)
    rw [update_of_ne hxc] at hx ⊢
    exact (h x hx).cons (hother hxc)

theorem VaultStep.refund_height (hstep : VaultStep c v n .refund true s s') :
    s.book.withdrawHeight c ≠ 0 ∧ s.book.withdrawHeight c < n := by
  cases hstep with
  | refund hv hd hw hn hb => exact ⟨hw, hn⟩

end TimeLock

/-- A successful refund comes after a successful withdraw of its caller in an earlier block, with
nothing else of the caller in between. -/
theorem refund_after_earlier_withdraw
    (hstart : ∀ c : Depositor, getWithdrawHeight ownContract db c = 0) (calls : List DepositCall)
    (hcallers : ∀ k ∈ calls, 2^80 ≤ k.caller.toNat)
    (hblocks : ∀ k ∈ calls, k.evm.blockNumber < 2^256) (k : DepositCall)
    (hk : 2^80 ≤ k.caller.toNat) (hrefund : action k.input = .refund)
    (hok : succeeded (k.invoke (runCalls db calls).1).2 = true) :
    ∃ number < k.evm.blockNumber, AnnouncedAt k.caller number (runCalls db calls).2 := by
  have hinv : TimeLocked (vault (runCalls db calls).1) (runCalls db calls).2 :=
    runCalls_induction (G := fun k => k.evm.blockNumber < 2^256)
      (fun c hc => absurd (hstart c) hc) (fun k c ok s s' history hn hstep h => h.step hn hstep)
      calls hcallers hblocks
  have hstep := invoke_step (c := ⟨k.caller, hk⟩) k rfl (runCalls db calls).1
  rw [hrefund, hok] at hstep
  obtain ⟨hne, hlt⟩ := hstep.refund_height
  exact ⟨_, hlt, hinv ⟨k.caller, hk⟩ hne⟩

/-- The refund in the block after the announcement. -/
theorem refund_after_earlier_withdraw_next_block :
    ∃ number < (refundCall 2).evm.blockNumber,
      AnnouncedAt (refundCall 2).caller number (runCalls richState (announcingCalls 1)).2 := by
  have hblocks : ∀ k ∈ announcingCalls 1, k.evm.blockNumber < 2^256 := by
    intro k hk
    simp only [announcingCalls, mem_cons, not_mem_nil, or_false] at hk
    rcases hk with rfl | rfl <;> exact Nat.one_lt_two_pow (by norm_num)
  exact refund_after_earlier_withdraw (fun _ => rfl) (announcingCalls 1) (announcingCalls_callers 1)
    hblocks (refundCall 2) firstDepositor.2 (by decide) refund_after_announcingCalls

section LowCaller

/-- An account whose withdraw height lies where the list keeps its item 22344. -/
def lowCaller : Address := BitVec.ofNat 160 (0x0a4449*2^48)

def crowdedCalls : List DepositCall :=
  sampleCall lowCaller minerDepositInput minerThreshold 1 :: depositingCalls 22344

theorem number_lowCaller :
    (Cell.deposit lowCaller).number = 0x0a4449*2^48*256+0x44 ∧
    (Cell.nodeX lowCaller).number = 0x0a4449*2^48*256^2+0x4e58 ∧
    (Cell.nodeY lowCaller).number = 0x0a4449*2^48*256^2+0x4e59 ∧
    (Cell.withdrawHeight lowCaller).number = (Cell.listItem (UInt64.ofNat (1+22343))).number := by
  decide

def lowState : StateDB := ((sampleCall lowCaller minerDepositInput minerThreshold 1).invoke richState).1

/-- The cells that were written are all below `2^88`. -/
theorem filled_lowState : Filled lowState 1 0 lowState := by
  have hone : (book lowState).num = 1 := by decide +kernel
  obtain ⟨hbal, hcell⟩ := cells_after_firstDeposit (a := lowCaller)
    (show getWithdrawHeight ownContract richState lowCaller = 0 from rfl) rfl le_rfl
  rw [lowState] at hone ⊢
  generalize (sampleCall lowCaller minerDepositInput minerThreshold 1).invoke richState = r
    at hone hbal hcell ⊢
  obtain ⟨hd, hx, hy, -⟩ := number_lowCaller
  have hitem : (Cell.listItem (UInt64.ofNat (book richState).num)).number =
    (10*256^2+0x4449)*256^8 := rfl
  have hnum : Cell.listNum.number = 10*256^4+0x444e554d := rfl
  have hhigh (e : Cell) (he : 2^88 ≤ e.number) : (cells r.1 e).toNat = 0 := by
    rw [hcell e (by omega) (by omega), if_neg (by omega), if_neg (by omega), if_neg (by omega)]
    rfl
  refine ⟨hone, nofun, nofun, ?_, ?_, fun _ _ _ => rfl, le_rfl⟩
  · intro i _ hi
    have hn : (Cell.deposit (nthDepositor i)).number = (2^80+i)*256+0x44 := by
      rw [← nthDepositor_toNat hi]
      rfl
    refine ⟨hhigh _ (by omega), ?_⟩
    rw [hbal, pay_of_ne _ (depositor_ne _)]
    · rfl
    · intro he
      have hlow : lowCaller.toNat < 2^80 := by decide
      rw [← he, nthDepositor_toNat hi] at hlow
      omega
  · intro c
    have hc := c.2
    have hn : (Cell.withdrawHeight c).number = (c : Address).toNat*256^2+0x5748 := rfl
    exact hhigh _ (by omega)

/-- The two cells have one key: this is the collision. -/
theorem refund_after_crowdedCalls :
    succeeded ((sampleCall lowCaller refundIdArr 0 (2^81)).invoke
      (runCalls richState crowdedCalls).1).2 = true := by
  have hstate : (runCalls richState crowdedCalls).1 =
      (runCalls lowState (depositingCalls 22344)).1 := by
    rw [runCalls, crowdedCalls, foldl_cons]
    exact foldl_callStep_fst _ _ _
  have hfull := filled_runCalls filled_lowState 22344 (by norm_num)
  rw [hstate]
  generalize (runCalls lowState (depositingCalls 22344)).1 = db at hfull ⊢
  have hfunds : minerThreshold ≤ lowState.getBalance depositAddress := by decide +kernel
  obtain ⟨hd, -, -, hw⟩ := number_lowCaller
  have hnum : Cell.listNum.number = 10*256^4+0x444e554d := rfl
  have hdeposit : getDeposit ownContract db lowCaller = minerThreshold := by
    change (cells db (.deposit lowCaller)).toNat = minerThreshold
    rw [hfull.kept _ (by omega) (by omega)]
    decide +kernel
  have hheight : getWithdrawHeight ownContract db lowCaller = 2^80+22343 := by
    have hsame : cells db (.withdrawHeight lowCaller) =
        cells db (.listItem (UInt64.ofNat (1+22343))) := by
      unfold cells
      rw [(Cell.key_eq_iff _ _).mpr hw]
    change (cells db (.withdrawHeight lowCaller)).toNat = 2^80+22343
    have hword := bytesToHash_address (nthDepositor 22343) [] (by simp)
    rw [append_nil, nthDepositor_toNat (by norm_num)] at hword
    rw [hsame, hfull.items 22343 (by norm_num), hword]
    norm_num
  have ha : action refundIdArr = .refund := by decide
  refine (sampleCall_reaches refundIdArr (2^81) (Nat.zero_le _)).refund ha
    (hdeposit.trans_ne (by decide)) (hheight.trans_ne (by norm_num)) (hheight.trans_lt ?_)
    (hdeposit.trans_le (hfunds.trans hfull.funds))
  change 2^80+22343 < 2^81
  norm_num

end LowCaller

/-- Two ways around the lock: a block number that does not fit into a word, and a withdraw height
that the depositors in the list write. -/
theorem refund_without_earlier_withdraw :
    (succeeded ((refundCall (2^256+1)).invoke
        (runCalls richState (announcingCalls (2^256+1))).1).2 = true ∧
      ∀ number < (refundCall (2^256+1)).evm.blockNumber, ¬ AnnouncedAt (refundCall (2^256+1)).caller
        number (runCalls richState (announcingCalls (2^256+1))).2) ∧
    (succeeded ((sampleCall lowCaller refundIdArr 0 (2^81)).invoke
        (runCalls richState crowdedCalls).1).2 = true ∧
      ∀ number, ¬ AnnouncedAt lowCaller number (runCalls richState crowdedCalls).2) := by
  refine ⟨⟨by decide +kernel, ?_⟩, refund_after_crowdedCalls, ?_⟩
  · intro number hlt hann
    have hevents : (runCalls richState (announcingCalls (2^256+1))).2 =
        [⟨firstDepositor, .withdraw, 0, 2^256+1, true⟩,
          ⟨firstDepositor, .deposit minerThreshold, minerThreshold, 1, true⟩] := by
      decide +kernel
    rw [hevents] at hann
    obtain ⟨later, w, earlier, heq, -, hw, rfl, -⟩ := hann
    have hmem : w ∈ later ++ w :: earlier := by simp
    rw [← heq] at hmem
    simp only [mem_cons, not_mem_nil, or_false] at hmem
    rcases hmem with rfl | rfl
    · exact lt_irrefl _ hlt
    · exact absurd hw (by decide)
  · intro number hann
    obtain ⟨later, w, earlier, heq, -, hw, -⟩ := hann
    have hmem : w ∈ (runCalls richState crowdedCalls).2 := by simp [heq]
    obtain ⟨k, hk, haction, -⟩ := exists_call_of_mem hmem
    have hinput : k.input = minerDepositInput := by
      rcases mem_cons.mp hk with rfl | hk
      · rfl
      · obtain ⟨i, -, rfl⟩ := mem_map.mp hk
        rfl
    rw [Event.isWithdraw, haction, hinput, action_minerDepositInput] at hw
    simp at hw

end MatrixDeposit
end MatrixNode
