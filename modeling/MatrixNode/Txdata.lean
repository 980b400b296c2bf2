import MatrixNode.GoJson
import MatrixNode.TransactionMx

/-! Transactions as structs of pointers, and how JSON fills them: `txdata` and `Transaction_Mx` of
`core/types/transaction.go` and `gen_tx_json.go`. A number that is missing is a nil pointer. -/
namespace MatrixNode
open GoLib

def deref {α : Type} : Option α → Except GoError α
  | none => .error nilDereference
  | some a => .ok a

@[simp] theorem deref_some {α : Type} (a : α) : deref (some a) = .ok a := rfl

/-- A hex string, for a type with an `UnmarshalJSON` of `hexutil`. It sees the text with its
escapes, and a backslash is no digit. -/
def hexJSON {α : Type} (goType : String) (read : HexText → Except GoError α) : Json → Except GoError α
  | .string text false => read text
  | .string _ true => .error HexText.errSyntax
  | _ => .error (cannotUnmarshal "non-string" goType)

def hashJSON : Json → Except GoError (BitVec 256) :=
  hexJSON "common.Hash" (HexText.unmarshalFixed "Hash" 32 256)

def addressJSON : Json → Except GoError Address := hexJSON "common.Address" HexText.unmarshalAddress

def readWhole {α : Type} (read : Json → Except GoError α) : Decoder α :=
  .ofUnmarshalJSON fun _ j => read j

def readPointer {α : Type} [Inhabited α] (read : Json → Except GoError α) : Decoder (Option α) :=
  .pointer default (readWhole read)

structure TxdataTo where
  recipient : Option Address
  amount : Option ℤ
  payload : Bytes
  deriving DecidableEq

structure TxdataExtra where
  txType : UInt8
  lockHeight : UInt64
  extraTo : List TxdataTo
  deriving DecidableEq

structure Txdata where
  accountNonce : UInt64
  price : Option ℤ
  gasLimit : UInt64
  recipient : Option Address
  amount : Option ℤ
  payload : Bytes
  v : Option ℤ
  r : Option ℤ
  s : Option ℤ
  extra : List TxdataExtra
  deriving DecidableEq

def Txdata.zero : Txdata := ⟨0, none, 0, none, none, [], none, none, none, []⟩

structure MxData where
  data : Txdata
  txTypeMx : UInt8
  lockHeight : UInt64
  extraTo : List TxdataTo

def MxData.zero : MxData := ⟨.zero, 0, 0, []⟩

section Json

def txToFields : List (JsonField TxdataTo) :=
  [.of "to" TxdataTo.recipient (fun t x => { t with recipient := x }) (readPointer addressJSON),
   .of "value" TxdataTo.amount (fun t x => { t with amount := x }) .bigInt,
   .of "input" TxdataTo.payload (fun t x => { t with payload := x }) .byteSlice]

def txToSlice : Decoder (List TxdataTo) :=
  .slice "types.Tx_to" ⟨none, none, []⟩ (.struct "types.Tx_to" txToFields)

structure TxdataDec where
  accountNonce : Option UInt64
  price : Option ℕ
  gasLimit : Option UInt64
  recipient : Option Address
  amount : Option ℕ
  payload : Option Bytes
  v : Option ℕ
  r : Option ℕ
  s : Option ℕ
  hash : Option (BitVec 256)

def uint64Pointer : Decoder (Option UInt64) :=
  readPointer (hexJSON "hexutil.Uint64" HexText.unmarshalUint64)

def bigPointer : Decoder (Option ℕ) := readPointer (hexJSON "hexutil.Big" HexText.unmarshalBig)

def bytesPointer : Decoder (Option Bytes) :=
  readPointer (hexJSON "hexutil.Bytes" HexText.unmarshalBytes)

def txdataFields : List (JsonField TxdataDec) :=
  [.of "nonce" TxdataDec.accountNonce (fun d x => { d with accountNonce := x }) uint64Pointer,
   .of "gasPrice" TxdataDec.price (fun d x => { d with price := x }) bigPointer,
   .of "gas" TxdataDec.gasLimit (fun d x => { d with gasLimit := x }) uint64Pointer,
   .of "to" TxdataDec.recipient (fun d x => { d with recipient := x }) (readPointer addressJSON),
   .of "value" TxdataDec.amount (fun d x => { d with amount := x }) bigPointer,
   .of "input" TxdataDec.payload (fun d x => { d with payload := x }) bytesPointer,
   .of "v" TxdataDec.v (fun d x => { d with v := x }) bigPointer,
   .of "r" TxdataDec.r (fun d x => { d with r := x }) bigPointer,
   .of "s" TxdataDec.s (fun d x => { d with s := x }) bigPointer,
   .of "hash" TxdataDec.hash (fun d x => { d with hash := x }) (readPointer hashJSON)]

def readTxdataDec (j : Json) : Except GoError TxdataDec :=
  let dec := Decoder.struct "types.txdata" txdataFields []
    ⟨none, none, none, none, none, none, none, none, none, none⟩ j
  match dec.error with
  | some e => .error e
  | none => .ok dec.value

/-- `txdata.UnmarshalJSON`. A recipient that is not given stays what it was, and so does the list of
extra recipients. -/
def Txdata.unmarshalJSON (data : Txdata) (j : Json) : Except GoError Txdata := do
  let dec ← readTxdataDec j
  let accountNonce ← requireField "txdata" "nonce" dec.accountNonce
  let price ← requireField "txdata" "gasPrice" dec.price
  let gasLimit ← requireField "txdata" "gas" dec.gasLimit
  let amount ← requireField "txdata" "value" dec.amount
  let payload ← requireField "txdata" "input" dec.payload
  let v ← requireField "txdata" "v" dec.v
  let r ← requireField "txdata" "r" dec.r
  let s ← requireField "txdata" "s" dec.s
  pure {
    accountNonce := accountNonce
    price := some price
    gasLimit := gasLimit
    recipient := dec.recipient <|> data.recipient
    amount := some amount
    payload := payload
    v := some v
    r := some r
    s := some s
    extra := data.extra }

def mxFields : List (JsonField MxData) :=
  [.of "Data" MxData.data (fun m x => { m with data := x }) (.ofUnmarshalJSON Txdata.unmarshalJSON),
   .of "TxType_Mx" MxData.txTypeMx (fun m x => { m with txTypeMx := x }) (.uint 8 UInt8.ofNat),
   .of "lockHeight" MxData.lockHeight (fun m x => { m with lockHeight := x }) (.uint 64 UInt64.ofNat),
   .of "extra_to" MxData.extraTo (fun m x => { m with extraTo := x }) txToSlice]

def mxPointer : Decoder (Option MxData) :=
  .pointer MxData.zero (.struct "types.Transaction_Mx" mxFields)

end Json

def MxData.setTransactionMx (txMx : Option MxData) : Except GoError Txdata := do
  let txMx ← deref txMx
  pure { txMx.data with extra := txMx.data.extra ++ [⟨txMx.txTypeMx, 0, []⟩] }

end MatrixNode
