import MatrixNode.StepRun
import MatrixNode.TxdataChecks

/-! `core/tx_pool.go`: what a pool does with the messages of other pools. Transactions are shared by
reference between the containers for codes, for S and for hashes. The rest of the pool can do
anything to them that its functions do, in any order. -/
namespace MatrixNode
open GoLib

structure TxObject where
  data : Txdata
  numbers : List UInt32

/-- The containers of a pool, over the transactions in memory. `accepted` are those that have
passed `validateTx` at some time. -/
structure PoolState where
  object : ℕ → TxObject
  next : ℕ
  nContainer : GoMap UInt32 ℕ
  sContainer : GoMap (BitVec 256) ℕ
  mapNs : GoMap UInt32 (Option ℤ)
  all : GoMap (BitVec 256) ℕ
  accepted : Finset ℕ

def hashOfS (s : ℤ) : BitVec 256 := bigToHash s.natAbs

def errKownTransaction : GoError := .error "known transaction"

structure Floodtxdata where
  accountNonce : UInt64
  price : Option ℤ
  gasLimit : UInt64
  recipient : Option Address
  amount : Option ℤ
  payload : Bytes
  v : Option ℤ
  r : Option ℤ
  extra : List TxdataExtra

def setFloodData (ftx : Floodtxdata) : Txdata where
  accountNonce := ftx.accountNonce
  price := ftx.price
  gasLimit := ftx.gasLimit
  recipient := ftx.recipient
  amount := ftx.amount
  payload := ftx.payload
  v := ftx.v
  r := ftx.r
  s := none
  extra := ftx.extra

/-- What the functions behind the checks do to accepted transactions and to the containers. -/
inductive PoolEffect where
  | read (r : ℕ)
  | allAdd (hash : BitVec 256) (r : ℕ)
  | allRemove (hash : BitVec 256)
  | setsTx (r : ℕ)
  | deleteMap (r : ℕ)

/-- What the pool makes of one call of `addTx`: the error of the broadcast branch, or the effects
and the error of the branch behind the checks. -/
structure AddOutcome where
  specialErr : Option GoError
  effects : List PoolEffect
  err : Option GoError

namespace PoolState
variable (p : PoolState)

def empty : PoolState := ⟨fun _ => ⟨.zero, []⟩, 0, ∅, ∅, ∅, ∅, ∅⟩

def getTxbyS (s : ℤ) : Option ℕ := p.sContainer.lookup (hashOfS s)

def store (r : ℕ) (tx : TxObject) : PoolState := { p with object := Function.update p.object r tx }

def alloc (d : Txdata) : PoolState := { p.store p.next ⟨d, []⟩ with next := p.next+1 }

def setTxNum (r : ℕ) (n : UInt32) : PoolState :=
  p.store r ⟨(p.object r).data, (p.object r).numbers ++ [n]⟩

def setnTx (n : UInt32) (r : ℕ) : PoolState := { p with nContainer := p.nContainer.insert n r }

def storeNs (n : UInt32) (s : Option ℤ) : PoolState := { p with mapNs := p.mapNs.insert n s }

def setTxS (r : ℕ) (s : ℤ) : PoolState :=
  p.store r ⟨{ (p.object r).data with s := some s }, (p.object r).numbers⟩

def deleteMap (r : ℕ) : Except GoError PoolState :=
  match (p.object r).data.s with
  | none => .error nilDereference
  | some s => .ok { p with
      nContainer := (p.object r).numbers.foldl (fun m n => m.erase n) p.nContainer
      mapNs := (p.object r).numbers.foldl (fun m n => m.erase n) p.mapNs
      sContainer := p.sContainer.erase (hashOfS s) }

def readNumbers (d : Txdata) : Except GoError Unit :=
  if (d.price :: d.amount :: d.v :: d.r :: d.s :: d.extraTo.map TxdataTo.amount).all Option.isSome then
    .ok ()
  else .error nilDereference

/-- The pool has accepted transactions in its lists, and no others. -/
def effect : PoolEffect → Except GoError PoolState
  | .read r =>
    if r ∈ p.accepted then do
      readNumbers (p.object r).data
      return p
    else .ok p
  | .allAdd hash r => .ok (if r ∈ p.accepted then { p with all := p.all.insert hash r } else p)
  | .allRemove hash => .ok { p with all := p.all.erase hash }
  | .setsTx r =>
    if r ∈ p.accepted then do
      let s ← deref (p.object r).data.s
      return { p with sContainer := p.sContainer.insert (hashOfS s) r }
    else .ok p
  | .deleteMap r => if r ∈ p.accepted then p.deleteMap r else .ok p

section Add
variable {Hash : Type} (C : TxCrypto Hash) (txHash : Txdata → BitVec 256)

def isBroadcast (d : Txdata) : Bool :=
  match d.extra with
  | [] => false
  | e :: _ => e.txType == 1

/-- `addTx`. A transaction that was accepted before is looked at through its caches. -/
def addTx (view : TxPool) (p : PoolState) (r : ℕ) (outcome : AddOutcome) :
    Except GoError (PoolState × Option GoError) :=
  if r ∈ p.accepted then do
    let p ← run effect p outcome.effects
    return (p, outcome.err)
  else if isBroadcast (p.object r).data then do
    -- The error of `Sender` is dropped.
    let _ ← (p.object r).data.sender C view.signer
    return (p, outcome.specialErr)
  else if p.all.lookup (txHash (p.object r).data) ≠ none then .ok (p, some errKownTransaction)
  else
    match (p.object r).data.validateTx C view with
    -- A panic ends the process; an error is returned.
    | .error e => if e = nilDereference then .error e else .ok (p, some e)
    | .ok () => do
      let p ← run effect { p with accepted := insert r p.accepted } outcome.effects
      return (p, outcome.err)

def addNew (view : TxPool) (p : PoolState) (d : Txdata) (outcome : AddOutcome) :
    Except GoError PoolState := do
  let added ← addTx C txHash view (p.alloc d) p.next outcome
  return added.1

/-- One turn of `msg_CheckTx`. Without the transaction the code is asked for. -/
def checkTx (p : PoolState) (n : UInt32) : Option ℤ → Except GoError PoolState
  | none => .ok p
  | some s =>
    if n = 0 then .ok p
    else
      match p.getTxbyS s with
      | none => .ok (p.storeNs n (some s))
      | some r =>
        let p := p.storeNs n (some s)
        let p := if n ∈ (p.object r).numbers then p else p.setTxNum r n
        -- Whatever the code was bound to before.
        .ok (p.setnTx n r)

def filedOr (p : PoolState) (s : ℤ) (d : Txdata) : ℕ × PoolState :=
  match p.getTxbyS s with
  | some r => (r, p)
  | none => (p.next, p.alloc d)

/-- One turn of `msg_RecvConsensusFloodTx`. A transaction from JSON has no codes yet. -/
def recvConsensusFloodTx (p : PoolState) (n : UInt32) : Option Txdata → Except GoError PoolState
  | none => .error nilDereference
  | some d =>
    match d.s with
    -- The code is remembered with an S that is nil.
    | none => .ok (p.storeNs n none)
    | some s =>
      let p := p.storeNs n (some s)
      if n = 0 then .ok p
      else
        let target := p.filedOr s d
        .ok ((target.2.setTxNum target.1 n).setnTx n target.1)

/-- The end of a turn of `msg_RecvFloodTx`. The lists of failed transactions are keyed by pointers to
S that no later message has, so nothing comes of them. -/
def addFlood (view : TxPool) (p : PoolState) (r : ℕ) (outcome : AddOutcome) :
    Except GoError PoolState := do
  let added ← addTx C txHash view p r outcome
  if added.2 ≠ none ∧ added.2 ≠ some errKownTransaction then added.1.deleteMap r else .ok added.1

def recvFloodTx (view : TxPool) (p : PoolState) (n : UInt32) (ftx : Option Floodtxdata)
    (outcome : AddOutcome) : Except GoError PoolState :=
  match p.mapNs.lookup n with
  | none => .ok p
  | some none => .ok p
  | some (some s) =>
    if n = 0 then .ok p
    else
      match ftx with
      | none => .error nilDereference
      | some ftx =>
        let target := p.filedOr s (setFloodData ftx)
        -- S is written also into a transaction that was filed under it.
        let p := ((target.2.setTxNum target.1 n).setnTx n target.1).setTxS target.1 s
        addFlood C txHash view p target.1 outcome

/-- One turn of `msg_RecvErrTx`: S is looked up in `SContainer`, and in a map by the address of a
number that was just decoded. -/
def recvErrTx (p : PoolState) : Option ℤ → Except GoError PoolState
  | none => .error nilDereference
  | some _ => .ok p

/-- The case `BroadCast`. The transaction is converted before the error is looked at. -/
def broadCast (view : TxPool) (p : PoolState) (txMx : Option MxData) (err : Option GoError)
    (outcome : AddOutcome) : Except GoError PoolState := do
  let d ← MxData.setTransactionMx txMx
  match err with
  | some _ => return p
  | none => addNew C txHash view p d outcome

end Add

section Decode

def extraFields : List (JsonField TxdataExtra) :=
  [.of "txType" TxdataExtra.txType (fun e x => { e with txType := x }) (.uint 8 UInt8.ofNat),
   .of "lockHeight" TxdataExtra.lockHeight (fun e x => { e with lockHeight := x })
     (.uint 64 UInt64.ofNat),
   .of "extra_to" TxdataExtra.extraTo (fun e x => { e with extraTo := x }) txToSlice]

def floodFields : List (JsonField Floodtxdata) :=
  [.of "nonce" Floodtxdata.accountNonce (fun d x => { d with accountNonce := x })
     (.uint 64 UInt64.ofNat),
   .of "gasPrice" Floodtxdata.price (fun d x => { d with price := x }) .bigInt,
   .of "gas" Floodtxdata.gasLimit (fun d x => { d with gasLimit := x }) (.uint 64 UInt64.ofNat),
   .of "to" Floodtxdata.recipient (fun d x => { d with recipient := x }) (readPointer addressJSON),
   .of "value" Floodtxdata.amount (fun d x => { d with amount := x }) .bigInt,
   .of "input" Floodtxdata.payload (fun d x => { d with payload := x }) .byteSlice,
   .of "v" Floodtxdata.v (fun d x => { d with v := x }) .bigInt,
   .of "r" Floodtxdata.r (fun d x => { d with r := x }) .bigInt,
   .of "Extra" Floodtxdata.extra (fun d x => { d with extra := x })
     (.slice "types.Matrix_Extra" ⟨0, 0, []⟩ (.struct "types.Matrix_Extra" extraFields))]

def floodPointer : Decoder (Option Floodtxdata) :=
  .pointer ⟨0, none, 0, none, none, [], none, none, []⟩ (.struct "types.Floodtxdata" floodFields)

def transactionJSON (j : Json) : Except GoError Txdata := do
  let d ← Txdata.zero.unmarshalJSON j
  let tx := d.filled
  if validateSignatureValues (Transaction.recoveryByte tx.v) tx.r tx.s false then return d
  else throw errInvalidSig

def transactionPointer : Decoder (Option Txdata) := .pointer .zero (readWhole transactionJSON)

def sendFloodSN : UInt32 := 1

def getTxbyN : UInt32 := 2

def recvTxbyN : UInt32 := 3

def recvErr : UInt32 := 4

def broadCastTx : UInt32 := 5

def getConsensusTxbyN : UInt32 := 6

def recvConsensusTxbyN : UInt32 := 7

structure MsgStruct where
  msgtype : UInt32
  msgData : JsonText

/-- The errors of `json.Unmarshal` are dropped, and what was read stays. -/
def readSNMap (data : JsonText) : GoMap UInt32 (Option ℤ) :=
  (unmarshal ∅ (.uintMap 32 UInt32.ofNat none .bigInt) data).1

def readFloodMap (data : JsonText) : GoMap UInt32 (Option Floodtxdata) :=
  (unmarshal ∅ (.uintMap 32 UInt32.ofNat none floodPointer) data).1

def readTxMap (data : JsonText) : GoMap UInt32 (Option Txdata) :=
  (unmarshal ∅ (.uintMap 32 UInt32.ofNat none transactionPointer) data).1

/-- The lists are read through a pointer to a pointer, which is not nil before. -/
def readListN (data : JsonText) : Option (List UInt32) :=
  (unmarshal (some []) (.pointer [] (.slice "uint32" 0 (.uint 32 UInt32.ofNat))) data).1

def readListS (data : JsonText) : Option (List (Option ℤ)) :=
  (unmarshal (some []) (.pointer [] (.slice "*big.Int" none .bigInt)) data).1

end Decode

/-- What the runtime and the rest of the pool choose while a message is handled: the orders of the
loops, and the outcome of `addTx` for each code. -/
structure Choices where
  snOrder : GoMap.Ranger UInt32 (Option ℤ)
  floodOrder : GoMap.Ranger UInt32 (Option Floodtxdata)
  txOrder : GoMap.Ranger UInt32 (Option Txdata)
  outcome : UInt32 → AddOutcome

/-- One turn of the loop over a decoded message. A pointer that is used as a whole is a turn too. -/
inductive Turn where
  | deref (isNil : Bool)
  | checkTx (n : UInt32) (s : Option ℤ)
  | recvFloodTx (view : TxPool) (n : UInt32) (ftx : Option Floodtxdata) (outcome : AddOutcome)
  | recvConsensusFloodTx (n : UInt32) (tx : Option Txdata)
  | recvErrTx (s : Option ℤ)
  | broadCast (view : TxPool) (txMx : Option MxData) (err : Option GoError) (outcome : AddOutcome)

/-- The turns that `ProcessMsg` makes. Only the first of the messages is looked at. The answers to
the requests are encoded and sent, which uses no pointer but the list. -/
def turns (view : TxPool) (c : Choices) : List (Option MsgStruct) → List Turn
  | [] => []
  | none :: _ => [.deref true]
  | some m :: _ =>
    if m.msgtype = sendFloodSN then
      (c.snOrder.order (readSNMap m.msgData)).map fun e => .checkTx e.1 e.2
    else if m.msgtype = getTxbyN ∨ m.msgtype = getConsensusTxbyN then
      [.deref (readListN m.msgData).isNone]
    else if m.msgtype = recvTxbyN then
      (c.floodOrder.order (readFloodMap m.msgData)).map fun e =>
        .recvFloodTx view e.1 e.2 (c.outcome e.1)
    else if m.msgtype = recvConsensusTxbyN then
      (c.txOrder.order (readTxMap m.msgData)).map fun e => .recvConsensusFloodTx e.1 e.2
    else if m.msgtype = recvErr then
      .deref (readListS m.msgData).isNone :: ((readListS m.msgData).getD []).map .recvErrTx
    else if m.msgtype = broadCastTx then
      let decoded := unmarshal none mxPointer m.msgData
      [.broadCast view decoded.1 decoded.2 (c.outcome 0)]
    else []

section Process
variable {Hash : Type} (C : TxCrypto Hash) (txHash : Txdata → BitVec 256)

def turn (p : PoolState) : Turn → Except GoError PoolState
  | .deref true => .error nilDereference
  | .deref false => .ok p
  | .checkTx n s => p.checkTx n s
  | .recvFloodTx view n ftx outcome => recvFloodTx C txHash view p n ftx outcome
  | .recvConsensusFloodTx n tx => p.recvConsensusFloodTx n tx
  | .recvErrTx s => p.recvErrTx s
  | .broadCast view txMx err outcome => broadCast C txHash view p txMx err outcome

def processMsg (view : TxPool) (p : PoolState) (data : List (Option MsgStruct)) (c : Choices) :
    Except GoError PoolState :=
  run (turn C txHash) p (turns view c data)

/-- What happens to a pool: turns for messages, transactions as RLP, timers and new blocks, and
codes of its own. -/
inductive Input where
  | message (t : Turn)
  | submit (view : TxPool) (tx : Transaction) (outcome : AddOutcome)
  | maintain (effects : List PoolEffect)
  | packageSN (s : ℤ) (code : UInt32)
  | deletnTx (n : UInt32)

/-- One turn of `packageSNList`: a filed transaction without a code gets one. -/
def packageSN (p : PoolState) (s : ℤ) (code : UInt32) : PoolState :=
  match p.getTxbyS s with
  | none => p
  | some r => if (p.object r).numbers = [] then (p.setTxNum r code).setnTx code r else p

def step (p : PoolState) : Input → Except GoError PoolState
  | .message t => turn C txHash p t
  | .submit view tx outcome => addNew C txHash view p (.ofTransaction tx) outcome
  | .maintain effects => run effect p effects
  | .packageSN s code => .ok (packageSN p s code)
  | .deletnTx n => .ok { p with nContainer := p.nContainer.erase n }

end Process

end PoolState

end MatrixNode
