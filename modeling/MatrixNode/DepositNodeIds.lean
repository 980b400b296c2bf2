import MatrixNode.DepositRegistry

/-! The five cells of an account in the deposit contract over histories of calls: which node id is
reported after a deposit, and what a refund leaves behind. -/
namespace MatrixNode
namespace MatrixDeposit
open GoLib Function List

@[ext] structure Record where
  deposit : Word
  nodeX : Word
  nodeY : Word
  withdrawHeight : Word
  onlineTime : Word
  deriving DecidableEq

def records (db : StateDB) (c : Depositor) : Record :=
  ⟨cells db (.deposit c), cells db (.nodeX c), cells db (.nodeY c), cells db (.withdrawHeight c),
    cells db (.onlineTime c)⟩

def idX (id : NodeID) : Word := id.extractLsb' 256 256

def idY (id : NodeID) : Word := id.extractLsb' 0 256

namespace Record
variable (r : Record)

def id : NodeID :=
  if r.nodeX = 0 then 0 else if r.nodeY = 0 then 0 else r.nodeX ++ r.nodeY

/-- A deposit of `v`. A sum that does not fit is dropped, and so is the zero id. -/
def paid (v : ℕ) (id : NodeID) : Record :=
  if r.deposit.toNat+v < 2^256 then
    { r with
      deposit := bigToHash (r.deposit.toNat+v)
      nodeX := if id = 0 then r.nodeX else idX id
      nodeY := if id = 0 then r.nodeY else idY id }
  else r

def announced (number : ℕ) : Record := { r with withdrawHeight := bigToHash number }

def write (d : Cell) (v : Word) : Record :=
  match d with
  | .deposit _ => { r with deposit := v }
  | .nodeX _ => { r with nodeX := v }
  | .nodeY _ => { r with nodeY := v }
  | .withdrawHeight _ => { r with withdrawHeight := v }
  | .onlineTime _ => { r with onlineTime := v }
  | _ => r

/-- A refund does not write the node id. -/
def closed : Record := { r with deposit := 0, withdrawHeight := 0, onlineTime := 0 }

theorem closed_eq_empty_iff : r.closed = ⟨0, 0, 0, 0, 0⟩ ↔ r.nodeX = 0 ∧ r.nodeY = 0 := by
  simp [closed]

end Record

def accountCells (c : Depositor) : List Cell :=
  [.deposit c, .nodeX c, .nodeY c, .withdrawHeight c, .onlineTime c]

theorem wellFormed_of_mem {c : Depositor} {d : Cell} (h : d ∈ accountCells c) : d.WellFormed := by
  simp only [accountCells, mem_cons, not_mem_nil, or_false] at h
  rcases h with rfl | rfl | rfl | rfl | rfl <;> exact c.2

theorem accountCells_ne {c x : Depositor} {d e : Cell} (hx : x ≠ c) (he : e ∈ accountCells x)
    (hd : d ∈ accountCells c) : e ≠ d := by
  simp only [accountCells, mem_cons, not_mem_nil, or_false] at he hd
  have hne : (x : Address) ≠ c := fun h => hx (Subtype.ext h)
  rcases he with rfl | rfl | rfl | rfl | rfl <;> rcases hd with rfl | rfl | rfl | rfl | rfl <;>
    simp [hne]

section Frame
variable {contract : Contract} {c : Depositor} (db : StateDB)

variable (h : OwnFrame contract c)
include h

variable {d : Cell}

theorem OwnFrame.records_setCell (hd : d.WellFormed) (v : Word) (x : Depositor) :
    records (setCell contract db d v) x =
      ⟨if .deposit x = d then v else (records db x).deposit,
        if .nodeX x = d then v else (records db x).nodeX,
        if .nodeY x = d then v else (records db x).nodeY,
        if .withdrawHeight x = d then v else (records db x).withdrawHeight,
        if .onlineTime x = d then v else (records db x).onlineTime⟩ := by
  unfold records
  rw [h.cells_setCell db hd (e := .deposit x) x.2, h.cells_setCell db hd (e := .nodeX x) x.2,
    h.cells_setCell db hd (e := .nodeY x) x.2, h.cells_setCell db hd (e := .withdrawHeight x) x.2,
    h.cells_setCell db hd (e := .onlineTime x) x.2]

theorem OwnFrame.records_other (hd : d.WellFormed) (v : Word) {x : Depositor}
    (hx : ∀ e ∈ accountCells x, e ≠ d) : records (setCell contract db d v) x = records db x := by
  rw [h.records_setCell db hd]
  simp only [accountCells, mem_cons, not_mem_nil, or_false, forall_eq_or_imp, forall_eq] at hx
  obtain ⟨h₁, h₂, h₃, h₄, h₅⟩ := hx
  rw [if_neg h₁, if_neg h₂, if_neg h₃, if_neg h₄, if_neg h₅]

theorem OwnFrame.records_write (v : Word) (hd : d ∈ accountCells c) :
    records (setCell contract db d v) = update (records db) c ((records db c).write d v) := by
  funext x
  rw [update_apply]
  split_ifs with hx
  · rw [hx, h.records_setCell db (wellFormed_of_mem hd)]
    simp only [accountCells, mem_cons, not_mem_nil, or_false] at hd
    rcases hd with rfl | rfl | rfl | rfl | rfl <;> simp [Record.write]
  · exact h.records_other db (wellFormed_of_mem hd) v (fun e he => accountCells_ne hx he hd)

theorem OwnFrame.records_listNum (v : Word) :
    records (setCell contract db .listNum v) = records db :=
  funext fun x => h.records_other db (d := .listNum) trivial v (by simp [accountCells])

theorem OwnFrame.records_listItem (i : UInt64) (v : Word) :
    records (setCell contract db (.listItem i) v) = records db :=
  funext fun x => h.records_other db (d := .listItem i) trivial v (by simp [accountCells])

theorem OwnFrame.records_insertDepositList :
    records (insertDepositList contract db) = records db := by
  unfold insertDepositList setDepositListNum setDepositListItem
  rw [h.records_listItem, h.records_listNum]

theorem OwnFrame.records_removeDepositList :
    records ((removeDepositList contract db).toOption.getD db) = records db := by
  unfold removeDepositList
  split
  · rfl
  · split
    · rfl
    · change records (setDepositListNum _ (setDepositListItem _ _ _ _) _) = _
      rw [setDepositListNum, setDepositListItem, h.records_listNum, h.records_listItem]

theorem OwnFrame.records_setNodeID (id : NodeID) :
    records (setNodeID contract db id) = update (records db) c { records db c with
      nodeX := if id = 0 then (records db c).nodeX else idX id
      nodeY := if id = 0 then (records db c).nodeY else idY id } := by
  unfold setNodeID
  split_ifs
  · rw [update_eq_self]
  · rw [h.caller, h.records_write, h.records_write, update_idem, update_self]
    · rfl
    all_goals simp [accountCells]

theorem OwnFrame.records_modifyDepositState (id : NodeID) :
    records ((modifyDepositState contract db id).toOption.getD db) =
      update (records db) c ((records db c).paid contract.value id) := by
  have hdep : getDeposit contract db contract.callerAddress = (records db c).deposit.toNat :=
    h.getDeposit_eq db
  rw [modifyDepositState_getD, Record.paid, hdep]
  by_cases hfit : (records db c).deposit.toNat+contract.value < 2^256
  · have hrec : records (recorded contract db id) = update (records db) c
        { records db c with
          deposit := bigToHash ((records db c).deposit.toNat+contract.value)
          nodeX := if id = 0 then (records db c).nodeX else idX id
          nodeY := if id = 0 then (records db c).nodeY else idY id } := by
      rw [recorded, h.records_setNodeID, h.caller, h.records_write, update_idem,
        update_self, ← h.caller, hdep]
      · rfl
      · simp [accountCells]
    rw [if_pos hfit, if_pos hfit]
    by_cases h0 : (records db c).deposit.toNat = 0
    · rw [if_pos h0, h.records_insertDepositList]
      exact hrec
    · rw [if_neg h0]
      exact hrec
  · rw [if_neg hfit, if_neg hfit, update_eq_self]

theorem OwnFrame.records_setWithdrawHeight (number : ℕ) :
    records (setWithdrawHeight contract db number) =
      update (records db) c ((records db c).announced number) := by
  rw [setWithdrawHeight, h.caller, h.records_write]
  · rfl
  · simp [accountCells]

theorem OwnFrame.records_closed :
    records (MatrixDeposit.closed contract db) = update (records db) c (records db c).closed := by
  have hzero : bigToHash 0 = 0 := BitVec.eq_of_toNat_eq (bigToHash_toNat 0)
  unfold MatrixDeposit.closed
  rw [h.records_removeDepositList, setOnlineTime, h.caller, h.records_write, setWithdrawHeight,
    h.caller, h.records_write, h.records_setNodeID, setDeposit, h.caller, h.records_write]
  · simp only [update_idem, update_self, if_true, hzero]
    rfl
  all_goals simp [accountCells]

end Frame

def DepositCall.nodeID (k : DepositCall) : NodeID :=
  BitVec.ofNat 512 (beNat ((unpackBytes (k.input.drop 4)).toOption.getD []))

def Record.after (r : Record) (k : DepositCall) : Record :=
  match action k.input with
  | .deposit _ => r.paid k.value k.nodeID
  | .withdraw => r.announced k.evm.blockNumber
  | .refund => r.closed
  | .other => r

section Calls
variable {c : Depositor} {db : StateDB}

theorem records_enterCall (caller : Address) (value : ℕ) :
    records (Evm.enterCall db caller depositAddress value) = records db := by
  unfold records cells
  rw [getState_enterCall]

/-- The payment out of the contract leaves its storage alone. -/
theorem records_run {k : DepositCall} {db' : StateDB} {ret : Bytes} (hc : k.caller = c)
    (hrun : MatrixDeposit.run (openedFrame k.caller k.gas k.value db)
      (Evm.enterCall db k.caller depositAddress k.value) k.evm.blockNumber k.input = (db', .ok ret)) :
    records db' = update (records db) c ((records db c).after k) ∧
      (action k.input = .other ∨ ret = [1]) ∧
      ∀ threshold, action k.input = .deposit threshold →
        threshold ≤ (records db c).deposit.toNat+k.value := by
  rw [hc] at hrun
  have hf : OwnFrame (openedFrame c k.gas k.value db) c := openedFrame_own
  have henter : records (Evm.enterCall db c depositAddress k.value) = records db :=
    records_enterCall ..
  unfold Record.after
  rcases ha : action k.input with threshold | _ | _ | _
  · rw [run_deposit ha, deposit_eq_ok_iff] at hrun
    obtain ⟨⟨nodeID, -, hu, -, -, ht, rfl⟩, rfl⟩ := hrun
    have hid : k.nodeID = BitVec.ofNat 512 (beNat nodeID) := by
      unfold DepositCall.nodeID
      rw [hu]
      rfl
    have hdep : getDeposit (openedFrame c k.gas k.value db) (Evm.enterCall db c depositAddress k.value)
        (openedFrame c k.gas k.value db).callerAddress = (records db c).deposit.toNat := by
      rw [hf.getDeposit_eq, book_enterCall]
      rfl
    refine ⟨?_, Or.inr rfl, ?_⟩
    · rw [hf.records_modifyDepositState, henter, hid]
      rfl
    · intro t heq
      cases heq
      rw [hdep] at ht
      exact ht
  · rw [run_withdraw ha, withdraw_eq_ok_iff] at hrun
    obtain ⟨-, rfl, rfl⟩ := hrun
    refine ⟨?_, Or.inr rfl, fun t heq => by cases heq⟩
    rw [hf.records_setWithdrawHeight, henter]
  · rw [run_refund ha, refund_eq_ok_iff] at hrun
    obtain ⟨-, -, rfl, rfl⟩ := hrun
    refine ⟨?_, Or.inr rfl, fun t heq => by cases heq⟩
    have hpaid (s : StateDB) (a b : Address) (v : ℕ) : records (s.transfer a b v) = records s := by
      unfold records cells
      rw [StateDB.getState_transfer]
    rw [hpaid, hf.records_closed, henter]
  · have hsame : db' = Evm.enterCall db c depositAddress k.value := by
      have h := run_other (openedFrame c k.gas k.value db)
        (Evm.enterCall db c depositAddress k.value) k.evm.blockNumber ha
      rwa [hrun] at h
    refine ⟨?_, Or.inl rfl, fun t heq => by cases heq⟩
    rw [hsame, henter, update_eq_self]

theorem records_invoke (k : DepositCall) (hc : k.caller = c) (db : StateDB) :
    records (k.invoke db).1 = update (records db) c
        (if succeeded (k.invoke db).2 then (records db c).after k else records db c) ∧
      ∀ threshold, action k.input = .deposit threshold → succeeded (k.invoke db).2 = true →
        threshold ≤ (records db c).deposit.toNat+k.value := by
  rcases k.invoke_cases db with ⟨hdb, hfail⟩ | ⟨-, db', ret, hrun, hdb, hret⟩
  · rw [hdb, hfail, if_neg Bool.false_ne_true, update_eq_self]
    exact ⟨rfl, fun _ _ hok => by cases hok⟩
  · obtain ⟨hrec, hone, hthreshold⟩ := records_run hc hrun
    rw [hdb, hret, hrec]
    refine ⟨?_, fun t ha _ => hthreshold t ha⟩
    rcases hone with hother | rfl
    · have hafter : (records db c).after k = records db c := by
        unfold Record.after
        rw [hother]
      rw [hafter, ite_self]
    · rfl

def Reports (db : StateDB) (c : Depositor) (id : NodeID) : Prop :=
  (∃ detail, getDepositDetail c ownContract db = .ok detail ∧ detail.nodeID = id) ∧
    ∀ input, unpackAddress input = .ok c.val →
      (getDepositInfo ownContract db input).2 = .ok (packNum (getDeposit ownContract db c) ++
        packNum 96 ++ packNum (getWithdrawHeight ownContract db c) ++
        packBytesSlice (fixedBytes 64 id.toNat) 64)

theorem reports_iff (db : StateDB) (c : Depositor) (id : NodeID) :
    Reports db c id ↔ (records db c).deposit ≠ 0 ∧ (records db c).id = id := by
  have hzero : getDeposit ownContract db c = 0 ↔ (records db c).deposit = 0 := by
    rw [← BitVec.toNat_inj]
    rfl
  have hid : getNodeID ownContract db c = (records db c).id := rfl
  unfold Reports getDepositDetail getDepositInfo
  constructor
  · rintro ⟨⟨detail, hdetail, rfl⟩, -⟩
    simp only [ite_error_eq_ok, Except.ok.injEq] at hdetail
    obtain ⟨hne, rfl⟩ := hdetail
    exact ⟨mt hzero.mpr hne, hid.symm⟩
  · rintro ⟨hne, rfl⟩
    have hne' := mt hzero.mp hne
    refine ⟨⟨_, if_neg hne', hid⟩, ?_⟩
    intro input hinput
    rw [hinput]
    dsimp only
    rw [if_neg hne', hid]

def Undisturbed (c : Depositor) : StateDB → List DepositCall → Prop
  | _, [] => True
  | db, k :: calls =>
    (k.caller = c → succeeded (k.invoke db).2 = true → action k.input = .withdraw ∨
      action k.input = .other) ∧ Undisturbed c (k.invoke db).1 calls

theorem runCalls_cons (db : StateDB) (k : DepositCall) (calls : List DepositCall) :
    (runCalls db (k :: calls)).1 = (runCalls (k.invoke db).1 calls).1 :=
  foldl_callStep_fst calls (k.invoke db).1 _

theorem records_undisturbed {calls : List DepositCall} {db : StateDB}
    (hcallers : ∀ k ∈ calls, 2^80 ≤ k.caller.toNat) (hquiet : Undisturbed c db calls) :
    (records (runCalls db calls).1 c).deposit = (records db c).deposit ∧
      (records (runCalls db calls).1 c).nodeX = (records db c).nodeX ∧
      (records (runCalls db calls).1 c).nodeY = (records db c).nodeY := by
  induction calls generalizing db with
  | nil => exact ⟨rfl, rfl, rfl⟩
  | cons k calls ih =>
    obtain ⟨hk, hquiet⟩ := hquiet
    have hrest := ih (fun k' hk' => hcallers k' (mem_cons_of_mem _ hk')) hquiet
    rw [runCalls_cons]
    have hcaller : 2^80 ≤ k.caller.toNat := hcallers k (mem_cons_self ..)
    have hinvoke := (records_invoke (c := ⟨k.caller, hcaller⟩) k rfl db).1
    have hone : (records (k.invoke db).1 c).deposit = (records db c).deposit ∧
        (records (k.invoke db).1 c).nodeX = (records db c).nodeX ∧
        (records (k.invoke db).1 c).nodeY = (records db c).nodeY := by
      rw [hinvoke, update_apply]
      by_cases hc : c = ⟨k.caller, hcaller⟩
      · rw [if_pos hc, ← hc]
        split_ifs with hok
        · unfold Record.after
          rcases hk (congrArg Subtype.val hc).symm hok with ha | ha
          · rw [ha]
            exact ⟨rfl, rfl, rfl⟩
          · rw [ha]
            exact ⟨rfl, rfl, rfl⟩
        · exact ⟨rfl, rfl, rfl⟩
      · rw [if_neg hc]
        exact ⟨rfl, rfl, rfl⟩
    exact ⟨hrest.1.trans hone.1, hrest.2.1.trans hone.2.1, hrest.2.2.trans hone.2.2⟩

/-- What makes the cells show the node id of a deposit. -/
def Record.Takes (r : Record) (v : ℕ) (id : NodeID) : Prop :=
  if r.deposit.toNat+v < 2^256 then
    (idX id ≠ 0 ∧ idY id ≠ 0) ∨ (id = 0 ∧ (r.nodeX = 0 ∨ r.nodeY = 0))
  else r.deposit ≠ 0 ∧ r.id = id

theorem idX_append_idY (id : NodeID) : idX id ++ idY id = id := by
  unfold idX idY
  apply BitVec.eq_of_getLsbD_eq
  intro i hi
  rw [BitVec.getLsbD_append, BitVec.getLsbD_extractLsb']
  by_cases h : i < 256
  · simp [h]
  · have hlt : i-256 < 256 := by omega
    have hadd : 256+(i-256) = i := by omega
    simp [h, hlt, hadd]

theorem Record.id_eq_zero_iff (r : Record) : r.id = 0 ↔ r.nodeX = 0 ∨ r.nodeY = 0 := by
  unfold Record.id
  split_ifs with hx hy
  · exact iff_of_true rfl (Or.inl hx)
  · exact iff_of_true rfl (Or.inr hy)
  · refine iff_of_false ?_ (not_or.mpr ⟨hx, hy⟩)
    intro hzero
    apply hx
    apply BitVec.eq_of_getLsbD_eq
    intro i hi
    have hbit := congrArg (fun id : NodeID => id.getLsbD (i+256)) hzero
    rw [BitVec.getLsbD_append] at hbit
    simpa using hbit

theorem Record.id_halves {r : Record} {id : NodeID} (hid : id ≠ 0) (hX : r.nodeX = idX id)
    (hY : r.nodeY = idY id) : r.id = id ↔ idX id ≠ 0 ∧ idY id ≠ 0 := by
  by_cases hboth : idX id ≠ 0 ∧ idY id ≠ 0
  · refine iff_of_true ?_ hboth
    rw [Record.id, hX, hY, if_neg hboth.1, if_neg hboth.2]
    exact idX_append_idY id
  · refine iff_of_false ?_ hboth
    have hzero : r.id = 0 := by
      rw [r.id_eq_zero_iff, hX, hY]
      by_contra hno
      exact hboth (not_or.mp hno)
    rw [hzero]
    exact hid.symm

theorem Record.paid_takes {r : Record} {v : ℕ} {id : NodeID} (hv : 0 < r.deposit.toNat+v) :
    ((r.paid v id).deposit ≠ 0 ∧ (r.paid v id).id = id) ↔ r.Takes v id := by
  unfold Record.paid Record.Takes
  by_cases hfit : r.deposit.toNat+v < 2^256
  · rw [if_pos hfit, if_pos hfit]
    have hne : bigToHash (r.deposit.toNat+v) ≠ 0 := by
      intro h
      have hn := congrArg BitVec.toNat h
      rw [bigToHash_toNat, Nat.mod_eq_of_lt hfit] at hn
      exact hv.ne' hn
    rw [and_iff_right hne]
    by_cases hid : id = 0
    · subst hid
      rw [Record.id_eq_zero_iff]
      simp [idX]
    · rw [Record.id_halves hid (if_neg hid) (if_neg hid)]
      constructor
      · exact Or.inl
      · rintro (hboth | ⟨hzero, -⟩)
        · exact hboth
        · exact absurd hzero hid
  · rw [if_neg hfit, if_neg hfit]

end Calls

/-- The node id of the latest deposit is reported exactly when its cells took it, and a refund
leaves empty cells exactly when those of the node id were empty. -/
theorem nodeID_reported_and_cells_emptied (db : StateDB) {calls : List DepositCall} {c : Depositor}
    (hcallers : ∀ k ∈ calls, 2^80 ≤ k.caller.toNat) :
    (∀ (before : List DepositCall) (k : DepositCall) (after : List DepositCall) (threshold : ℕ),
      calls = before ++ k :: after → k.caller = c.val →
      action k.input = .deposit threshold →
      succeeded (k.invoke (runCalls db before).1).2 = true →
      Undisturbed c (k.invoke (runCalls db before).1).1 after →
      (Reports (runCalls db calls).1 c k.nodeID ↔
        (records (runCalls db before).1 c).Takes k.value k.nodeID)) ∧
    ∀ k : DepositCall, k.caller = c.val → action k.input = .refund →
      succeeded (k.invoke (runCalls db calls).1).2 = true →
      (records (k.invoke (runCalls db calls).1).1 c = ⟨0, 0, 0, 0, 0⟩ ↔
        (records (runCalls db calls).1 c).nodeX = 0 ∧
          (records (runCalls db calls).1 c).nodeY = 0) := by
  constructor
  · rintro before k after threshold rfl hk ha hok hquiet
    obtain ⟨hinvoke, hthreshold⟩ := records_invoke k hk (runCalls db before).1
    rw [if_pos hok] at hinvoke
    have hafter : records (k.invoke (runCalls db before).1).1 c =
        (records (runCalls db before).1 c).paid k.value k.nodeID := by
      rw [hinvoke, update_self, Record.after, ha]
    have hrun : (runCalls db (before ++ k :: after)).1 =
        (runCalls (k.invoke (runCalls db before).1).1 after).1 := by
      rw [← runCalls_cons]
      unfold runCalls
      rw [foldl_append]
      exact foldl_callStep_fst ..
    obtain ⟨hdep, hX, hY⟩ := records_undisturbed
      (fun k' hk' => hcallers k' (mem_append_right _ (mem_cons_of_mem _ hk'))) hquiet
    have hid : (records (runCalls db (before ++ k :: after)).1 c).id =
        ((records (runCalls db before).1 c).paid k.value k.nodeID).id := by
      rw [hrun]
      unfold Record.id
      rw [hX, hY, hafter]
    have hpos : 0 < (records (runCalls db before).1 c).deposit.toNat+k.value :=
      minerThreshold_pos.trans_le ((minerThreshold_le_of_action ha).trans (hthreshold _ ha hok))
    rw [reports_iff, hid, hrun, hdep, hafter]
    exact Record.paid_takes hpos
  · intro k hk ha hok
    have hinvoke := (records_invoke k hk (runCalls db calls).1).1
    rw [hinvoke, if_pos hok, update_self, Record.after, ha]
    exact Record.closed_eq_empty_iff _

def idDeposit (nodeID : Bytes) : DepositCall :=
  sampleCall firstDepositor (idDepositInput nodeID) minerThreshold 1

/-- A node id whose first half is 0 is reported as 0, and a refund leaves a node id behind. -/
theorem half_zero_id_and_id_after_refund :
    (succeeded ((idDeposit (replicate 32 0 ++ replicate 32 1)).invoke richState).2 = true ∧
      ¬ Reports ((idDeposit (replicate 32 0 ++ replicate 32 1)).invoke richState).1
        firstDepositor (idDeposit (replicate 32 0 ++ replicate 32 1)).nodeID) ∧
    succeeded ((refundCall 2).invoke (runCalls richState (announcingCalls 1)).1).2 = true ∧
      records ((refundCall 2).invoke (runCalls richState (announcingCalls 1)).1).1 firstDepositor ≠
        ⟨0, 0, 0, 0, 0⟩ := by
  rw [reports_iff]
  decide +kernel

/-- An id with two halves is reported, also after the announcement of the withdrawal. -/
theorem nodeID_reported_two_halves :
    Reports (runCalls richState (announcingCalls 1)).1 firstDepositor
      (idDeposit (replicate 64 1)).nodeID := by
  have hcallers := announcingCalls_callers 1
  have hall := nodeID_reported_and_cells_emptied richState (c := firstDepositor) hcallers
  refine (hall.1 [] (idDeposit (replicate 64 1)) [sampleCall firstDepositor withdrawIdArr 0 1]
    minerThreshold rfl rfl (action_idDepositInput _) (by decide +kernel)
    ⟨fun _ _ => Or.inl (by decide), trivial⟩).mpr ?_
  rw [Record.Takes]
  decide +kernel

end MatrixDeposit
end MatrixNode
