import MatrixNode.Evm

/-! The storage of the deposit contract. Different cells have different keys as long as the
accounts do not start with ten zero bytes, so the storage is a record per account and a list. -/
namespace MatrixNode
namespace MatrixDeposit
open GoLib Function

/-- An account whose address does not start with ten zero bytes. -/
abbrev Depositor := {addr : Address // 2^80 ≤ addr.toNat}

def Cell.WellFormed : Cell → Prop
  | .deposit addr | .nodeX addr | .nodeY addr | .withdrawHeight addr | .onlineTime addr =>
    2^80 ≤ addr.toNat
  | .listNum | .listItem _ => True

def Cell.number : Cell → ℕ
  | .deposit addr => addr.toNat*256+0x44
  | .nodeX addr => addr.toNat*256^2+0x4e58
  | .nodeY addr => addr.toNat*256^2+0x4e59
  | .withdrawHeight addr => addr.toNat*256^2+0x5748
  | .onlineTime addr => addr.toNat*256^2+0x4f54
  | .listNum => 10*256^4+0x444e554d
  | .listItem index => (10*256^2+0x4449)*256^8+index.toNat

theorem length_addressBytes (addr : Address) : (addressBytes addr).length = 20 := by
  have h : addr.toNat < 2^160 := addr.isLt
  exact length_fixedBytes (h.trans_le (by norm_num))

theorem bytesToHash_address (addr : Address) (suffix : Bytes) (h : suffix.length ≤ 12) :
    (bytesToHash (addressBytes addr ++ suffix)).toNat =
      addr.toNat*256^suffix.length+beNat suffix := by
  have hb : beNat (addressBytes addr ++ suffix) = addr.toNat*256^suffix.length+beNat suffix := by
    rw [beNat_append, addressBytes, beNat_fixedBytes]
  have hl : (addressBytes addr ++ suffix).length ≤ 32 := by
    rw [List.length_append, length_addressBytes]
    omega
  have hlt : beNat (addressBytes addr ++ suffix) < 2^256 := by
    calc
      _ < 256^(addressBytes addr ++ suffix).length := beNat_lt _
      _ ≤ 256^32 := Nat.pow_le_pow_right (by norm_num) hl
      _ = _ := by norm_num
  rw [bytesToHash_toNat, Nat.mod_eq_of_lt hlt, hb]

theorem Cell.key_toNat (c : Cell) : (c.key depositAddress).toNat = c.number := by
  cases c with
  | deposit addr => exact bytesToHash_address addr [0x44] (by simp)
  | nodeX addr => exact bytesToHash_address addr [0x4e, 0x58] (by simp)
  | nodeY addr => exact bytesToHash_address addr [0x4e, 0x59] (by simp)
  | withdrawHeight addr => exact bytesToHash_address addr [0x57, 0x48] (by simp)
  | onlineTime addr => exact bytesToHash_address addr [0x4f, 0x54] (by simp)
  | listNum =>
    exact bytesToHash_address depositAddress [0x44, 0x4e, 0x55, 0x4d] (by simp)
  | listItem index =>
    have hi : index.toNat < 256^8 := index.toNat_lt
    have hl : (fixedBytes 8 index.toNat).length = 8 := length_fixedBytes hi
    rw [Cell.key, List.append_assoc, bytesToHash_address depositAddress _ (by simp [hl]),
      beNat_append, beNat_fixedBytes, List.length_append, hl]
    change 10*256^(2+8)+(0x4449*256^8+index.toNat) = (10*256^2+0x4449)*256^8+index.toNat
    ring

theorem Cell.key_eq_iff (c d : Cell) :
    c.key depositAddress = d.key depositAddress ↔ c.number = d.number := by
  rw [← key_toNat, ← key_toNat, BitVec.toNat_inj]

/-- The last byte tells the cells of accounts apart; a key of the list is below all of them. -/
theorem Cell.number_inj {c d : Cell} (hc : c.WellFormed) (hd : d.WellFormed) :
    c.number = d.number ↔ c = d := by
  refine ⟨fun hn => ?_, fun h => by rw [h]⟩
  have haddr (a b : Address) (h : a.toNat = b.toNat) : a = b := BitVec.eq_of_toNat_eq h
  have hindex (i : UInt64) : i.toNat < 2^64 := i.toNat_lt
  cases c <;> cases d <;> simp only [number, WellFormed] at hn hc hd <;>
    first
    | omega
    | rfl
    | (congr 1; apply haddr; omega)
    | (congr 1; apply UInt64.toNat_inj.mp; omega)
    | (have hi := hindex ‹UInt64›; omega)

def ownContract : Contract := ⟨0, depositAddress, depositAddress, [], 0, 0⟩

def cells (db : StateDB) (c : Cell) : Word := db.getState depositAddress (c.key depositAddress)

/-- What the storage of the contract says: the deposit and the announced withdrawal of each
depositor, the length of the list and its items. -/
@[ext] structure Book where
  deposit : Depositor → ℕ
  withdrawHeight : Depositor → ℕ
  num : ℕ
  item : UInt64 → Address

def book (db : StateDB) : Book where
  deposit c := (cells db (.deposit c)).toNat
  withdrawHeight c := (cells db (.withdrawHeight c)).toNat
  num := (cells db .listNum).toNat
  item i := (cells db (.listItem i)).setWidth 160

theorem getDeposit_own (db : StateDB) (c : Depositor) :
    getDeposit ownContract db c = (book db).deposit c := rfl

namespace Book

def insert (b : Book) (c : Depositor) : Book :=
  { b with num := (b.num+1)%2^256, item := update b.item (UInt64.ofNat b.num) c }

def remove (b : Book) (c : Depositor) : Book :=
  match (listIndices b.num).find? (fun i => b.item i = c) with
  | none => b
  | some i =>
    { b with num := b.num-1, item := update b.item i (b.item (UInt64.ofNat b.num-1)) }

/-- A deposit of `v`, which is dropped when the sum does not fit into a word. -/
def pay (b : Book) (c : Depositor) (v : ℕ) : Book :=
  if b.deposit c+v < 2^256 then
    let paid := { b with deposit := update b.deposit c (b.deposit c+v) }
    if b.deposit c = 0 then paid.insert c else paid
  else b

def announce (b : Book) (c : Depositor) (number : ℕ) : Book :=
  { b with withdrawHeight := update b.withdrawHeight c (number%2^256) }

def close (b : Book) (c : Depositor) : Book :=
  remove { b with
    deposit := update b.deposit c 0
    withdrawHeight := update b.withdrawHeight c 0 } c

end Book

structure OwnFrame (contract : Contract) (c : Depositor) : Prop where
  address : contract.address = depositAddress
  caller : contract.callerAddress = c

theorem bigToHash_toNat (n : ℕ) : (bigToHash n).toNat = n%2^256 := by
  rw [bigToHash, bytesToHash_toNat, beNat_beBytes]

theorem length_beBytes_le_word (n : ℕ) : ¬ 32 < (beBytes n).length ↔ n < 2^256 := by
  rw [not_lt, beBytes_length_le_iff]
  norm_num

theorem word_address (addr : Address) : (bytesToHash (addressBytes addr)).setWidth 160 = addr := by
  have hn : (bytesToHash (addressBytes addr)).toNat = addr.toNat := by
    have h := bytesToHash_address addr [] (by simp)
    simpa using h
  apply BitVec.eq_of_toNat_eq
  rw [BitVec.toNat_setWidth, hn, Nat.mod_eq_of_lt addr.isLt]

def recorded (contract : Contract) (db : StateDB) (id : NodeID) : StateDB :=
  let dep := getDeposit contract db contract.callerAddress+contract.value
  setNodeID contract (setCell contract db (.deposit contract.callerAddress) (bigToHash dep)) id

variable (contract : Contract)

theorem modifyDepositState_getD (db : StateDB) (id : NodeID) :
    (modifyDepositState contract db id).toOption.getD db =
      if getDeposit contract db contract.callerAddress+contract.value < 2^256 then
        if getDeposit contract db contract.callerAddress = 0 then
          insertDepositList contract (recorded contract db id)
        else recorded contract db id
      else db := by
  unfold modifyDepositState addDeposit
  by_cases hfit : getDeposit contract db contract.callerAddress+contract.value < 2^256
  · rw [if_neg ((length_beBytes_le_word _).mpr hfit), if_pos hfit]
    rfl
  · rw [if_pos (not_not.mp (mt (length_beBytes_le_word _).mp hfit)), if_neg hfit]
    rfl

theorem modifyWithdrawState_eq_ok_iff (db : StateDB) (number : ℕ) (db' : StateDB) :
    modifyWithdrawState contract db number = .ok db' ↔
      getDeposit contract db contract.callerAddress ≠ 0 ∧
      db' = setWithdrawHeight contract db number := by
  rw [modifyWithdrawState, ite_error_eq_ok, Except.ok.injEq, eq_comm (a := db')]

def closed (contract : Contract) (db : StateDB) : StateDB :=
  let db := setDeposit contract db 0
  let db := setNodeID contract db 0
  let db := setWithdrawHeight contract db 0
  let db := setOnlineTime contract db contract.callerAddress 0
  (removeDepositList contract db).toOption.getD db

theorem modifyRefundState_eq_ok_iff (db : StateDB) (number value : ℕ) (db' : StateDB) :
    modifyRefundState contract db number = .ok (value, db') ↔
      (getDeposit contract db contract.callerAddress ≠ 0 ∧
        getWithdrawHeight contract db contract.callerAddress ≠ 0 ∧
        getWithdrawHeight contract db contract.callerAddress < number) ∧
      value = getDeposit contract db contract.callerAddress ∧ db' = closed contract db := by
  unfold modifyRefundState
  simp only [ite_error_eq_ok, Except.ok.injEq, Prod.mk.injEq, not_lt, Nat.add_one_le_iff]
  rw [and_assoc, and_assoc, eq_comm (a := value), eq_comm (a := db')]
  rfl

/-! What a deposit writes when the caller is any account: its cells can coincide with items of the
list, so the keys are compared by their numbers. -/

section AnyCaller
variable {contract : Contract} (ha : contract.address = depositAddress) (db : StateDB) (id : NodeID)
include ha

theorem cells_setCell (d e : Cell) (v : Word) :
    cells (setCell contract db d v) e = if e.number = d.number then v else cells db e := by
  rw [cells, setCell, ha, StateDB.getState_setState_self, update_apply]
  simp only [Cell.key_eq_iff]
  rfl

theorem cells_setNodeID {e : Cell} (hx : e.number ≠ (Cell.nodeX contract.callerAddress).number)
    (hy : e.number ≠ (Cell.nodeY contract.callerAddress).number) :
    cells (setNodeID contract db id) e = cells db e := by
  unfold setNodeID
  split_ifs
  · rfl
  · rw [cells_setCell ha, if_neg hy, cells_setCell ha, if_neg hx]

theorem getDepositListNum_getD : (getDepositListNum contract db).getD 0 = (book db).num := by
  have hc : cell contract db .listNum = cells db .listNum := by
    rw [cell, ha]
    rfl
  rw [getDepositListNum, hc]
  change (if cells db .listNum = 0 then none else some (cells db .listNum).toNat).getD 0 =
    (cells db .listNum).toNat
  by_cases hz : cells db .listNum = 0
  · rw [if_pos hz, hz]
    rfl
  · rw [if_neg hz]
    rfl

theorem cells_insertDepositList (e : Cell) :
    cells (insertDepositList contract db) e =
      if e.number = (Cell.listItem (UInt64.ofNat (book db).num)).number then
        bytesToHash (addressBytes contract.callerAddress)
      else if e.number = Cell.listNum.number then bigToHash ((book db).num+1)
      else cells db e := by
  unfold insertDepositList setDepositListNum setDepositListItem
  dsimp only
  rw [getDepositListNum_getD ha, cells_setCell ha, cells_setCell ha]

theorem cells_firstDeposit (h0 : getDeposit contract db contract.callerAddress = 0)
    (hfit : contract.value < 2^256) (e : Cell)
    (hx : e.number ≠ (Cell.nodeX contract.callerAddress).number)
    (hy : e.number ≠ (Cell.nodeY contract.callerAddress).number) :
    cells ((modifyDepositState contract db id).toOption.getD db) e =
      if e.number = (Cell.listItem (UInt64.ofNat (book db).num)).number then
        bytesToHash (addressBytes contract.callerAddress)
      else if e.number = Cell.listNum.number then bigToHash ((book db).num+1)
      else if e.number = (Cell.deposit contract.callerAddress).number then bigToHash contract.value
      else cells db e := by
  have hnum : (book (recorded contract db id)).num = (book db).num := by
    change (cells _ _).toNat = (cells _ _).toNat
    unfold recorded
    rw [cells_setNodeID ha _ _ (by simp only [Cell.number]; omega) (by simp only [Cell.number]; omega),
      cells_setCell ha, if_neg (by simp only [Cell.number]; omega)]
  rw [modifyDepositState_getD, h0, Nat.zero_add, if_pos hfit, if_pos rfl, cells_insertDepositList ha,
    hnum]
  unfold recorded
  rw [cells_setNodeID ha _ _ hx hy, cells_setCell ha, h0, Nat.zero_add]

end AnyCaller

/-! The calls of depositors, whose cells are their own. -/

section Frame
variable {contract : Contract} {c : Depositor} (db : StateDB)

variable (h : OwnFrame contract c)
include h

theorem OwnFrame.cell_eq (d : Cell) : cell contract db d = cells db d := by
  rw [cell, h.address]
  rfl

theorem OwnFrame.cells_setCell {d e : Cell} (hd : d.WellFormed) (he : e.WellFormed) (v : Word) :
    cells (setCell contract db d v) e = if e = d then v else cells db e := by
  rw [MatrixDeposit.cells_setCell h.address]
  simp only [Cell.number_inj he hd]

theorem OwnFrame.book_setCell {d : Cell} (hd : d.WellFormed) (v : Word) :
    book (setCell contract db d v) =
      ⟨fun x => if .deposit x = d then v.toNat else (book db).deposit x,
        fun x => if .withdrawHeight x = d then v.toNat else (book db).withdrawHeight x,
        if .listNum = d then v.toNat else (book db).num,
        fun i => if .listItem i = d then v.setWidth 160 else (book db).item i⟩ := by
  unfold book
  congr 1
  · funext x
    rw [h.cells_setCell _ hd (e := .deposit x) x.2]
    split_ifs <;> rfl
  · funext x
    rw [h.cells_setCell _ hd (e := .withdrawHeight x) x.2]
    split_ifs <;> rfl
  · rw [h.cells_setCell _ hd (e := .listNum) trivial]
    split_ifs <;> rfl
  · funext i
    rw [h.cells_setCell _ hd (e := .listItem i) trivial]
    split_ifs <;> rfl

theorem OwnFrame.book_deposit (v : Word) :
    book (setCell contract db (.deposit c) v) =
      { book db with deposit := update (book db).deposit c v.toNat } := by
  rw [h.book_setCell _ (d := .deposit c) c.2]
  simp only [Cell.deposit.injEq, Subtype.val_inj, reduceCtorEq, if_false]
  congr 1
  funext x
  rw [update_apply]

theorem OwnFrame.book_withdrawHeight (v : Word) :
    book (setCell contract db (.withdrawHeight c) v) =
      { book db with withdrawHeight := update (book db).withdrawHeight c v.toNat } := by
  rw [h.book_setCell _ (d := .withdrawHeight c) c.2]
  simp only [Cell.withdrawHeight.injEq, Subtype.val_inj, reduceCtorEq, if_false]
  congr 1
  funext x
  rw [update_apply]

theorem OwnFrame.book_listNum (v : Word) :
    book (setCell contract db .listNum v) = { book db with num := v.toNat } := by
  rw [h.book_setCell _ (d := .listNum) trivial]
  simp only [reduceCtorEq, if_false, if_true]

theorem OwnFrame.book_listItem (i : UInt64) (v : Word) :
    book (setCell contract db (.listItem i) v) =
      { book db with item := update (book db).item i (v.setWidth 160) } := by
  rw [h.book_setCell _ (d := .listItem i) trivial]
  simp only [Cell.listItem.injEq, reduceCtorEq, if_false]
  congr 1
  funext x
  rw [update_apply]

theorem OwnFrame.book_setNodeID (id : NodeID) : book (setNodeID contract db id) = book db := by
  unfold setNodeID
  split_ifs
  · rfl
  · rw [h.caller, h.book_setCell _ (d := .nodeY c) c.2, h.book_setCell _ (d := .nodeX c) c.2]
    simp only [reduceCtorEq, if_false]

theorem OwnFrame.book_onlineTime (v : Word) :
    book (setCell contract db (.onlineTime c) v) = book db := by
  rw [h.book_setCell _ (d := .onlineTime c) c.2]
  simp only [reduceCtorEq, if_false]

theorem OwnFrame.getDeposit_eq :
    getDeposit contract db contract.callerAddress = (book db).deposit c := by
  rw [getDeposit, h.cell_eq, h.caller]
  rfl

theorem OwnFrame.getWithdrawHeight_eq :
    getWithdrawHeight contract db contract.callerAddress = (book db).withdrawHeight c := by
  rw [getWithdrawHeight, h.cell_eq, h.caller]
  rfl

theorem OwnFrame.getDepositListItem_eq (i : UInt64) :
    getDepositListItem contract db i = (book db).item i := by
  rw [getDepositListItem, h.cell_eq]
  rfl

theorem OwnFrame.book_insertDepositList :
    book (insertDepositList contract db) = (book db).insert c := by
  unfold insertDepositList setDepositListNum setDepositListItem
  dsimp only
  rw [getDepositListNum_getD h.address, h.book_listItem, h.book_listNum, h.caller, word_address,
    bigToHash_toNat]
  rfl

theorem OwnFrame.book_removeDepositList :
    book ((removeDepositList contract db).toOption.getD db) = (book db).remove c := by
  have hnum := getDepositListNum_getD h.address db
  have hlt : (book db).num < 2^256 := (cells db .listNum).isLt
  unfold removeDepositList Book.remove
  simp only [h.getDepositListItem_eq, h.caller]
  rcases hn : getDepositListNum contract db with _ | num
  · rw [hn, Option.getD_none] at hnum
    rw [← hnum]
    rfl
  · rw [hn, Option.getD_some] at hnum
    rw [hnum]
    dsimp only
    rcases (listIndices (book db).num).find? (fun i => (book db).item i = c) with _ | i
    · rfl
    · change book (setDepositListNum _ (setDepositListItem _ _ _ _) _) = _
      rw [setDepositListNum, setDepositListItem, h.book_listNum, h.book_listItem, word_address,
        bigToHash_toNat, Nat.mod_eq_of_lt (by omega)]

theorem OwnFrame.book_modifyDepositState (id : NodeID) :
    book ((modifyDepositState contract db id).toOption.getD db) =
      (book db).pay c contract.value := by
  rw [modifyDepositState_getD, Book.pay]
  simp only [h.getDeposit_eq]
  by_cases hfit : (book db).deposit c+contract.value < 2^256
  · have hset : book (recorded contract db id) = { book db with
        deposit := update (book db).deposit c ((book db).deposit c+contract.value) } := by
      rw [recorded, h.book_setNodeID, h.getDeposit_eq, h.caller, h.book_deposit, bigToHash_toNat,
        Nat.mod_eq_of_lt hfit]
    split_ifs
    · rw [h.book_insertDepositList, hset]
    · exact hset
  · rw [if_neg hfit, if_neg hfit]

theorem OwnFrame.book_setWithdrawHeight (number : ℕ) :
    book (setWithdrawHeight contract db number) = (book db).announce c number := by
  rw [setWithdrawHeight, h.caller, h.book_withdrawHeight, bigToHash_toNat]
  rfl

theorem OwnFrame.book_closed : book (closed contract db) = (book db).close c := by
  have hzero : (bigToHash 0).toNat = 0 := bigToHash_toNat 0
  unfold closed
  rw [h.book_removeDepositList, setOnlineTime, h.caller, h.book_onlineTime,
    h.book_setWithdrawHeight, h.book_setNodeID, setDeposit, h.caller, h.book_deposit, hzero]
  rfl

end Frame

/-- From `db` to `db'` nothing is written but storage. -/
structure StorageOnly (db db' : StateDB) : Prop where
  object : ∀ a, ∃ storage, db'.object a = { db.object a with storage := storage }

section Storage
variable {db db' : StateDB} (contract : Contract)

theorem StorageOnly.refl (db : StateDB) : StorageOnly db db := ⟨fun _ => ⟨_, rfl⟩⟩

theorem StorageOnly.getBalance (h : StorageOnly db db') : db'.getBalance = db.getBalance := by
  funext a
  obtain ⟨storage, hobject⟩ := h.object a
  rw [StateDB.getBalance, hobject, StateDB.getBalance]

theorem StorageOnly.setCell (h : StorageOnly db db') (d : Cell) (v : Word) :
    StorageOnly db (setCell contract db' d v) := by
  constructor
  intro a
  obtain ⟨storage, hobject⟩ := h.object a
  unfold MatrixDeposit.setCell StateDB.setState
  rw [StateDB.object_modify, hobject]
  split_ifs
  · exact ⟨_, rfl⟩
  · exact ⟨_, rfl⟩

theorem StorageOnly.setNodeID (h : StorageOnly db db') (id : NodeID) :
    StorageOnly db (setNodeID contract db' id) := by
  unfold MatrixDeposit.setNodeID
  split_ifs
  · exact h
  · exact (h.setCell ..).setCell ..

theorem storageOnly_modifyDepositState (db : StateDB) (id : NodeID) :
    StorageOnly db ((modifyDepositState contract db id).toOption.getD db) := by
  have hrecorded : StorageOnly db (recorded contract db id) :=
    ((StorageOnly.refl db).setCell ..).setNodeID ..
  rw [modifyDepositState_getD]
  split_ifs
  · exact (hrecorded.setCell ..).setCell ..
  · exact hrecorded
  · exact .refl db

theorem storageOnly_closed (db : StateDB) : StorageOnly db (closed contract db) := by
  have hremove (s : StateDB) (h : StorageOnly db s) :
      StorageOnly db ((removeDepositList contract s).toOption.getD s) := by
    unfold removeDepositList
    split
    · exact h
    split
    · exact h
    · exact (h.setCell ..).setCell ..
  have hemptied : StorageOnly db (setDeposit contract db 0) := (StorageOnly.refl db).setCell ..
  exact hremove _ (((hemptied.setNodeID ..).setCell ..).setCell ..)

end Storage

end MatrixDeposit
end MatrixNode
