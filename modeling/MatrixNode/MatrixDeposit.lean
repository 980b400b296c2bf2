import MatrixNode.Abi
import MatrixNode.StateDB

/-! `core/vm/deposit.go`: the precompiled contract that keeps the deposits of miners and
validators in the storage of its own account. -/
namespace MatrixNode
open GoLib

/-- The errors of `core/vm`; those that arguments of other packages cause carry their text. -/
inductive VmError where
  | outOfGas
  | codeStoreOutOfGas
  | depth
  | insufficientBalance
  | contractAddressCollision
  | executionReverted
  | maxCodeSizeExceeded
  | writeProtection
  | parameters
  | deposit
  | overflow
  | depositEmpty
  | other (msg : String)
  deriving DecidableEq

structure Contract where
  callerAddress : Address
  address : Address
  codeAddr : Address
  code : Bytes
  gas : UInt64
  value : ℕ

abbrev NodeID := BitVec 512

def bigToHash (n : ℕ) : Word := bytesToHash (beBytes n)

namespace MatrixDeposit
variable (contract : Contract) (db : StateDB)

def man : ℕ := 10^18

def minerThreshold : ℕ := 10000*man

def validatorThreshold : ℕ := 100000*man

def valiDepositArr : Bytes := [0x24, 0xaf, 0xce, 0xd7]

def minerDepositIdArr : Bytes := [0xdc, 0xc7, 0xf8, 0xbc]

def withdrawIdArr : Bytes := [0x3c, 0xcf, 0xd6, 0x0b]

def refundIdArr : Bytes := [0x59, 0x0e, 0x1a, 0xe3]

def getDepositListArr : Bytes := [0xa8, 0x7b, 0x0c, 0xb7]

def getDepositInfoArr : Bytes := [0x52, 0x87, 0xce, 0x12]

inductive Cell where
  | deposit (addr : Address)
  | nodeX (addr : Address)
  | nodeY (addr : Address)
  | withdrawHeight (addr : Address)
  | onlineTime (addr : Address)
  | listNum
  | listItem (index : UInt64)
  deriving DecidableEq

/-- The storage keys: an address, some letters and, for a list item, the index. -/
def Cell.key (contractAddr : Address) : Cell → Word
  | .deposit addr => bytesToHash (addressBytes addr ++ [0x44])
  | .nodeX addr => bytesToHash (addressBytes addr ++ [0x4e, 0x58])
  | .nodeY addr => bytesToHash (addressBytes addr ++ [0x4e, 0x59])
  | .withdrawHeight addr => bytesToHash (addressBytes addr ++ [0x57, 0x48])
  | .onlineTime addr => bytesToHash (addressBytes addr ++ [0x4f, 0x54])
  | .listNum => bytesToHash (addressBytes contractAddr ++ [0x44, 0x4e, 0x55, 0x4d])
  | .listItem index =>
    bytesToHash (addressBytes contractAddr ++ [0x44, 0x49] ++ fixedBytes 8 index.toNat)

def cell (c : Cell) : Word := db.getState contract.address (c.key contract.address)

def setCell (c : Cell) (value : Word) : StateDB :=
  db.setState contract.address (c.key contract.address) value

def getOnlineTime (addr : Address) : Option ℕ :=
  let info := cell contract db (.onlineTime addr)
  if info ≠ 0 then some info.toNat else none

def setOnlineTime (addr : Address) (tm : ℕ) : StateDB :=
  setCell contract db (.onlineTime addr) (bigToHash tm)

def getDeposit (addr : Address) : ℕ := (cell contract db (.deposit addr)).toNat

def addDeposit : Except VmError StateDB :=
  let dep := getDeposit contract db contract.callerAddress+contract.value
  if 32 < (beBytes dep).length then .error .overflow
  else .ok (setCell contract db (.deposit contract.callerAddress) (bigToHash dep))

def setDeposit (dep : ℕ) : StateDB :=
  setCell contract db (.deposit contract.callerAddress) (bigToHash dep)

def getNodeID (addr : Address) : NodeID :=
  let nodeX := cell contract db (.nodeX addr)
  let nodeY := cell contract db (.nodeY addr)
  if nodeX = 0 then 0 else if nodeY = 0 then 0 else nodeX ++ nodeY

/-- The zero id is not written. -/
def setNodeID (nodeID : NodeID) : StateDB :=
  if nodeID = 0 then db
  else
    let db := setCell contract db (.nodeX contract.callerAddress) (nodeID.extractLsb' 256 256)
    setCell contract db (.nodeY contract.callerAddress) (nodeID.extractLsb' 0 256)

def getWithdrawHeight (addr : Address) : ℕ := (cell contract db (.withdrawHeight addr)).toNat

def setWithdrawHeight (height : ℕ) : StateDB :=
  setCell contract db (.withdrawHeight contract.callerAddress) (bigToHash height)

def getDepositListNum : Option ℕ :=
  let num := cell contract db .listNum
  if num = 0 then none else some num.toNat

def setDepositListNum (num : ℕ) : StateDB := setCell contract db .listNum (bigToHash num)

def getDepositListItem (index : UInt64) : Address :=
  (cell contract db (.listItem index)).setWidth 160

def setDepositListItem (index : UInt64) (addr : Address) : StateDB :=
  setCell contract db (.listItem index) (bytesToHash (addressBytes addr))

/-- The number is a `big.Int`, the index only its low 64 bits. -/
def insertDepositList : StateDB :=
  let num := getDepositListNum contract db
  let count := UInt64.ofNat (num.getD 0)
  let db := setDepositListNum contract db (num.getD 0+1)
  setDepositListItem contract db count contract.callerAddress

def listIndices (num : ℕ) : List UInt64 := (List.range (UInt64.ofNat num).toNat).map UInt64.ofNat

/-- The last item takes the place of the caller's. -/
def removeDepositList : Except VmError StateDB :=
  match getDepositListNum contract db with
  | none => .error .depositEmpty
  | some num =>
    match (listIndices num).find?
        (fun i => getDepositListItem contract db i = contract.callerAddress) with
    | none => .error .deposit
    | some insert =>
      let addr := getDepositListItem contract db (UInt64.ofNat num-1)
      let db := setDepositListItem contract db insert addr
      .ok (setDepositListNum contract db (num-1))

def modifyDepositState (nodeID : NodeID) : Except VmError StateDB := do
  let bNew := getDeposit contract db contract.callerAddress = 0
  let db ← addDeposit contract db
  let db := setNodeID contract db nodeID
  pure (if bNew then insertDepositList contract db else db)

def modifyWithdrawState (blockNumber : ℕ) : Except VmError StateDB :=
  if getDeposit contract db contract.callerAddress = 0 then .error .deposit
  else .ok (setWithdrawHeight contract db blockNumber)

/-- The node id stays, as the zero id is not written; an error of the removal is dropped. -/
def modifyRefundState (blockNumber : ℕ) : Except VmError (ℕ × StateDB) :=
  let deposit := getDeposit contract db contract.callerAddress
  let withdrawHeight := getWithdrawHeight contract db contract.callerAddress
  if deposit = 0 then .error .deposit
  else if withdrawHeight = 0 then .error .deposit
  else if blockNumber < withdrawHeight+1 then .error .deposit
  else
    let db := setDeposit contract db 0
    let db := setNodeID contract db 0
    let db := setWithdrawHeight contract db 0
    let db := setOnlineTime contract db contract.callerAddress 0
    .ok (deposit, (removeDepositList contract db).toOption.getD db)

/-- The methods return the state they leave behind also with an error; the caller reverts it. -/
abbrev Result := StateDB × Except VmError Bytes

def deposit (contract : Contract) (db : StateDB) (input : Bytes) (threshold : ℕ) : Result :=
  if input.length < 4 then (db, .error .parameters)
  else
    match unpackBytes input with
    | .error _ => (db, .error .deposit)
    | .ok nodeID =>
      if nodeID.length ≠ 64 then (db, .error .deposit)
      else if 0 < getWithdrawHeight contract db contract.callerAddress then (db, .error .deposit)
      else if getDeposit contract db contract.callerAddress+contract.value < threshold then
        (db, .error .deposit)
      else
        -- The result of the update is not looked at: an overflow changes nothing and is a success.
        let id : NodeID := BitVec.ofNat 512 (beNat nodeID)
        ((modifyDepositState contract db id).toOption.getD db, .ok [1])

def valiDeposit (input : Bytes) : Result := deposit contract db input validatorThreshold

def minerDeposit (input : Bytes) : Result := deposit contract db input minerThreshold

def withdraw (blockNumber : ℕ) : Result :=
  match modifyWithdrawState contract db blockNumber with
  | .error err => (db, .error err)
  | .ok db => (db, .ok [1])

def refund (blockNumber : ℕ) : Result :=
  match modifyRefundState contract db blockNumber with
  | .error err => (db, .error err)
  | .ok (value, db) =>
    if db.canTransfer contract.address value = false then (db, .error .insufficientBalance)
    else (db.transfer contract.address contract.callerAddress value, .ok [1])

def listedAddresses : List Address :=
  (listIndices (cell contract db .listNum).toNat).map (getDepositListItem contract db)

def getDepositList : Result := (db, .ok (packAddresses (listedAddresses contract db)))

def getDepositInfo (input : Bytes) : Result :=
  match unpackAddress input with
  | .error err => (db, .error (.other err.text))
  | .ok addr =>
    let deposit := getDeposit contract db addr
    let nodeID := fixedBytes 64 (getNodeID contract db addr).toNat
    let withdraw := getWithdrawHeight contract db addr
    if deposit = 0 then (db, .error .depositEmpty)
    else (db, .ok (packNum deposit ++ packNum 96 ++ packNum withdraw ++ packBytesSlice nodeID 64))

structure DepositDetail where
  address : Address
  nodeID : NodeID
  deposit : ℕ
  withdrawH : ℕ
  onlineTime : Option ℕ

def getDepositDetail (addr : Address) (contract : Contract) (db : StateDB) :
    Except VmError DepositDetail :=
  let deposit := getDeposit contract db addr
  if deposit = 0 then .error .depositEmpty
  else .ok ⟨addr, getNodeID contract db addr, deposit, getWithdrawHeight contract db addr,
    getOnlineTime contract db addr⟩

def depositListWhere (p : DepositDetail → Bool) : List DepositDetail :=
  (listedAddresses contract db).filterMap
    (fun addr => (getDepositDetail addr contract db).toOption.filter p)

def getValidatorDepositList : List DepositDetail :=
  depositListWhere contract db (fun d => d.withdrawH == 0 && validatorThreshold ≤ d.deposit)

def getMinerDepositList : List DepositDetail :=
  depositListWhere contract db (fun d => d.withdrawH == 0 && d.deposit < validatorThreshold)

/-- The first account without a deposit ends the list. -/
def detailsUntilEmpty (contract : Contract) (db : StateDB) (withDraw : Bool) :
    List Address → List DepositDetail
  | [] => []
  | addr :: addrs =>
    match getDepositDetail addr contract db with
    | .error _ => []
    | .ok detail =>
      let rest := detailsUntilEmpty contract db withDraw addrs
      if withDraw || detail.withdrawH == 0 then detail :: rest else rest

def getAllDepositList (withDraw : Bool) : List DepositDetail :=
  detailsUntilEmpty contract db withDraw (listedAddresses contract db)

def requiredGas (input : Bytes) : UInt64 :=
  if input.length < 4 then 0 else 20000*2

def run (blockNumber : ℕ) (input : Bytes) : Result :=
  let methodIdArr := input.take 4
  if input.length < 4 then (db, .error .parameters)
  else if methodIdArr = valiDepositArr then valiDeposit contract db (input.drop 4)
  else if methodIdArr = minerDepositIdArr then minerDeposit contract db (input.drop 4)
  else if methodIdArr = withdrawIdArr then withdraw contract db blockNumber
  else if methodIdArr = refundIdArr then refund contract db blockNumber
  else if methodIdArr = getDepositListArr then getDepositList contract db
  else if methodIdArr = getDepositInfoArr then getDepositInfo contract db (input.drop 4)
  else (db, .error .parameters)

end MatrixDeposit

end MatrixNode
