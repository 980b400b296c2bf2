import MatrixNode.ChainTypes
import MatrixNode.TransactionMx

/-! `hd/msgCodec.go`: whole blocks as JSON. -/
namespace MatrixNode
open GoLib HexText TxCrypto

/-- A header in memory: a slice without entries can be nil. -/
structure HeaderValue (Hash : Type) extends Header Hash where
  nilElect : Bool
  nilSignatures : Bool
  nilVersion : Bool
  elect_of_nil : nilElect = true → elect = []
  signatures_of_nil : nilSignatures = true → signatures = []
  version_of_nil : nilVersion = true → version = []

/-- The JSON object of a header: what stands under each name, if it is there and not null. Hashes,
arrays and plain structs are kept as values. -/
structure HeaderJson (Hash : Type) where
  parentHash : Option Hash
  sha3Uncles : Option Hash
  miner : Option HexText
  stateRoot : Option Hash
  transactionsRoot : Option Hash
  receiptsRoot : Option Hash
  logsBloom : Option HexText
  difficulty : Option HexText
  number : Option HexText
  gasLimit : Option HexText
  gasUsed : Option HexText
  timestamp : Option HexText
  extraData : Option HexText
  mixHash : Option Hash
  nonce : Option HexText
  leader : Option HexText
  elect : Option (List Elect)
  nettopology : Option NetTopology
  signatures : Option (List Signature)
  version : Option Bytes
  hash : Option Hash

namespace HeaderValue
variable {Hash : Type}

def marshalSlice {α : Type} (isNil : Bool) (items : List α) : Option (List α) :=
  if isNil then none else some items

def marshalJSON (headerHash : Header Hash → Hash) (h : HeaderValue Hash) : HeaderJson Hash where
  parentHash := some h.parentHash
  sha3Uncles := some h.uncleHash
  miner := some (marshalAddress h.coinbase)
  stateRoot := some h.root
  transactionsRoot := some h.txHash
  receiptsRoot := some h.receiptHash
  logsBloom := some (marshalFixed 256 h.bloom)
  difficulty := some (marshalBig h.difficulty)
  number := some (marshalBig h.number)
  gasLimit := some (marshalUint64 h.gasLimit)
  gasUsed := some (marshalUint64 h.gasUsed)
  timestamp := some (marshalBig h.time)
  extraData := some (marshalBytes h.extra)
  mixHash := some h.mixDigest
  nonce := some (marshalFixed 8 h.nonce)
  leader := some (marshalAddress h.leader)
  elect := marshalSlice h.nilElect h.elect
  nettopology := some h.netTopology
  signatures := marshalSlice h.nilSignatures h.signatures
  version := marshalSlice h.nilVersion h.version
  hash := some (headerHash h.toHeader)

structure Dec (Hash : Type) where
  parentHash : Option Hash
  uncleHash : Option Hash
  coinbase : Option Address
  root : Option Hash
  txHash : Option Hash
  receiptHash : Option Hash
  bloom : Option Bloom
  difficulty : Option ℕ
  number : Option ℕ
  gasLimit : Option UInt64
  gasUsed : Option UInt64
  time : Option ℕ
  extra : Option Bytes
  mixDigest : Option Hash
  nonce : Option BlockNonce
  leader : Option Address
  elect : Option (List Elect)
  netTopology : Option NetTopology
  signatures : Option (List Signature)
  version : Option Bytes

def readDec (json : HeaderJson Hash) : Except GoError (Dec Hash) := do
  let coinbase ← readField unmarshalAddress json.miner
  let bloom ← readField (unmarshalFixed "Bloom" 256 2048) json.logsBloom
  let difficulty ← readField unmarshalBig json.difficulty
  let number ← readField unmarshalBig json.number
  let gasLimit ← readField unmarshalUint64 json.gasLimit
  let gasUsed ← readField unmarshalUint64 json.gasUsed
  let time ← readField unmarshalBig json.timestamp
  let extra ← readField unmarshalBytes json.extraData
  let nonce ← readField (unmarshalFixed "BlockNonce" 8 64) json.nonce
  let leader ← readField unmarshalAddress json.leader
  pure {
    parentHash := json.parentHash
    uncleHash := json.sha3Uncles
    coinbase := coinbase
    root := json.stateRoot
    txHash := json.transactionsRoot
    receiptHash := json.receiptsRoot
    bloom := bloom
    difficulty := difficulty
    number := number
    gasLimit := gasLimit
    gasUsed := gasUsed
    time := time
    extra := extra
    mixDigest := json.mixHash
    nonce := nonce
    leader := leader
    elect := json.elect
    netTopology := json.nettopology
    signatures := json.signatures
    version := json.version }

/-- The checks of `Header.UnmarshalJSON`, in its order. A slice that was read is not nil. -/
def requireDec (dec : Dec Hash) : Except GoError (HeaderValue Hash) := do
  let parentHash ← requireField "Header" "parentHash" dec.parentHash
  let uncleHash ← requireField "Header" "sha3Uncles" dec.uncleHash
  let coinbase ← requireField "Header" "miner" dec.coinbase
  let root ← requireField "Header" "stateRoot" dec.root
  let txHash ← requireField "Header" "transactionsRoot" dec.txHash
  let receiptHash ← requireField "Header" "receiptsRoot" dec.receiptHash
  let bloom ← requireField "Header" "logsBloom" dec.bloom
  let difficulty ← requireField "Header" "difficulty" dec.difficulty
  let number ← requireField "Header" "number" dec.number
  let gasLimit ← requireField "Header" "gasLimit" dec.gasLimit
  let gasUsed ← requireField "Header" "gasUsed" dec.gasUsed
  let time ← requireField "Header" "timestamp" dec.time
  let extra ← requireField "Header" "extraData" dec.extra
  let mixDigest ← requireField "Header" "mixHash" dec.mixDigest
  let nonce ← requireField "Header" "nonce" dec.nonce
  let signatures ← requireField "Header" "signatures" dec.signatures
  let version ← requireField "Header" "version" dec.version
  let leader ← requireField "Header" "leader" dec.leader
  let elect ← requireField "Header" "elect" dec.elect
  let netTopology ← requireField "Header" "nettopology" dec.netTopology
  pure {
    parentHash := parentHash
    uncleHash := uncleHash
    leader := leader
    root := root
    txHash := txHash
    receiptHash := receiptHash
    bloom := bloom
    difficulty := difficulty
    number := number
    gasLimit := gasLimit
    gasUsed := gasUsed
    time := time
    elect := elect
    netTopology := netTopology
    extra := extra
    version := version
    coinbase := coinbase
    signatures := signatures
    mixDigest := mixDigest
    nonce := nonce
    -- A list that was read is not nil, even if it is empty.
    nilElect := false
    nilSignatures := false
    nilVersion := false
    elect_of_nil := fun h => absurd h (by decide)
    signatures_of_nil := fun h => absurd h (by decide)
    version_of_nil := fun h => absurd h (by decide) }

def unmarshalJSON (json : HeaderJson Hash) : Except GoError (HeaderValue Hash) := do
  let dec ← readDec json
  requireDec dec

def toDec (h : HeaderValue Hash) : Dec Hash where
  parentHash := some h.parentHash
  uncleHash := some h.uncleHash
  coinbase := some h.coinbase
  root := some h.root
  txHash := some h.txHash
  receiptHash := some h.receiptHash
  bloom := some h.bloom
  difficulty := some h.difficulty
  number := some h.number
  gasLimit := some h.gasLimit
  gasUsed := some h.gasUsed
  time := some h.time
  extra := some h.extra
  mixDigest := some h.mixDigest
  nonce := some h.nonce
  leader := some h.leader
  elect := marshalSlice h.nilElect h.elect
  netTopology := some h.netTopology
  signatures := marshalSlice h.nilSignatures h.signatures
  version := marshalSlice h.nilVersion h.version

/-- The headers that the JSON form carries: no nil slices, and numbers of at most 256 bits. -/
structure JsonFits (h : HeaderValue Hash) : Prop where
  elect : h.nilElect = false
  signatures : h.nilSignatures = false
  version : h.nilVersion = false
  difficulty : h.difficulty < 2^256
  number : h.number < 2^256
  time : h.time < 2^256

section Header
variable {headerHash : Header Hash → Hash} {h : HeaderValue Hash}

theorem requireField_slice {α β : Type} (struct name : String) (isNil : Bool) (items : List α)
    (next : List α → Except GoError β) (b : β) :
    (requireField struct name (marshalSlice isNil items) >>= next) = .ok b ↔
      isNil = false ∧ next items = .ok b := by
  cases isNil with
  | false => exact ⟨fun h => ⟨rfl, h⟩, fun h => h.2⟩
  | true =>
    constructor
    · intro h
      cases h
    · intro h
      exact absurd h.1 (by decide)

theorem readField_fixed (typname : String) {len w : ℕ} (hw : w = 8*len) (x : BitVec w) :
    readField (unmarshalFixed typname len w) (some (marshalFixed len x)) = .ok (some x) := by
  rw [readField, unmarshalFixed_marshalFixed typname hw]
  rfl

theorem readField_some_address (a : Address) :
    readField unmarshalAddress (some (marshalAddress a)) = .ok (some a) :=
  readField_address (some a)

theorem readDec_marshalJSON {dec : Dec Hash} :
    readDec (h.marshalJSON headerHash) = .ok dec ↔
      (h.difficulty < 2^256 ∧ h.number < 2^256 ∧ h.time < 2^256) ∧ dec = h.toDec := by
  have hbloom : readField (unmarshalFixed "Bloom" 256 2048)
      (some (marshalFixed 256 h.bloom)) = .ok (some h.bloom) :=
    readField_fixed "Bloom" (by norm_num) h.bloom
  have hnonce : readField (unmarshalFixed "BlockNonce" 8 64)
      (some (marshalFixed 8 h.nonce)) = .ok (some h.nonce) :=
    readField_fixed "BlockNonce" (by norm_num) h.nonce
  unfold readDec marshalJSON
  simp only [readField_some_address, hbloom, hnonce, readField_uint64, readField_bytes, ok_bind,
    readField_big]
  constructor
  · rintro ⟨hdifficulty, hnumber, htime, hdec⟩
    exact ⟨⟨hdifficulty, hnumber, htime⟩, (Except.ok.inj hdec).symm⟩
  · rintro ⟨⟨hdifficulty, hnumber, htime⟩, rfl⟩
    exact ⟨hdifficulty, hnumber, htime, rfl⟩

theorem requireField_some {α : Type} (struct name : String) (a : α) :
    requireField struct name (some a) = .ok a := rfl

variable {h' : HeaderValue Hash}

theorem requireDec_toDec :
    requireDec h.toDec = .ok h' ↔
      (h.nilElect = false ∧ h.nilSignatures = false ∧ h.nilVersion = false) ∧ h' = h := by
  unfold requireDec toDec
  simp only [requireField_some, ok_bind, requireField_slice, pure_eq_ok, Except.ok.injEq]
  constructor
  · rintro ⟨hsignatures, hversion, helect, rfl⟩
    refine ⟨⟨helect, hsignatures, hversion⟩, ?_⟩
    cases h
    cases helect
    cases hsignatures
    cases hversion
    rfl
  · rintro ⟨⟨helect, hsignatures, hversion⟩, rfl⟩
    refine ⟨hsignatures, hversion, helect, ?_⟩
    cases h'
    cases helect
    cases hsignatures
    cases hversion
    rfl

theorem unmarshalJSON_marshalJSON :
    unmarshalJSON (h.marshalJSON headerHash) = .ok h' ↔ h.JsonFits ∧ h' = h := by
  rw [unmarshalJSON, bind_eq_ok_iff]
  constructor
  · rintro ⟨dec, hdec, hok⟩
    obtain ⟨⟨hdifficulty, hnumber, htime⟩, rfl⟩ := readDec_marshalJSON.mp hdec
    obtain ⟨⟨helect, hsignatures, hversion⟩, hsame⟩ := requireDec_toDec.mp hok
    exact ⟨⟨helect, hsignatures, hversion, hdifficulty, hnumber, htime⟩, hsame⟩
  · rintro ⟨⟨helect, hsignatures, hversion, hdifficulty, hnumber, htime⟩, hsame⟩
    refine ⟨h.toDec, readDec_marshalJSON.mpr ⟨⟨hdifficulty, hnumber, htime⟩, rfl⟩, ?_⟩
    exact requireDec_toDec.mpr ⟨⟨helect, hsignatures, hversion⟩, hsame⟩

end Header

end HeaderValue

structure TransactionMxJson (Hash : Type) where
  data : TxdataJson Hash
  txTypeMx : UInt8
  lockHeight : UInt64
  extraTo : List TxTo

structure FullBlockJson (Hash : Type) where
  header : HeaderJson Hash
  txs : List (TransactionMxJson Hash)

structure BlockMainData (Hash : Type) where
  header : HeaderValue Hash
  txs : List Transaction

structure FullBlockRspMsg (Hash : Type) where
  fromAccount : Address
  header : HeaderValue Hash
  txs : List Transaction

structure BroadcastMiningRspMsg (Hash : Type) where
  fromAccount : Address
  blockMainData : BlockMainData Hash

namespace BlockMainData
variable {Hash : Type}

def marshalMx (txMx : TransactionMx) : TransactionMxJson Hash :=
  ⟨txMx.data.marshalTxdata none, txMx.txTypeMx, txMx.lockHeight, txMx.extraTo⟩

def unmarshalMx (json : TransactionMxJson Hash) : Except GoError TransactionMx := do
  let data ← Transaction.unmarshalTxdata json.data
  pure ⟨data, json.txTypeMx, json.lockHeight, json.extraTo⟩

def encode (headerHash : Header Hash → Hash) (block : BlockMainData Hash) : FullBlockJson Hash :=
  ⟨block.header.marshalJSON headerHash, block.txs.map (fun tx => marshalMx (getTransactionMx tx))⟩

def decode (data : FullBlockJson Hash) : Except GoError (BlockMainData Hash) := do
  let header ← HeaderValue.unmarshalJSON data.header
  let txs ← data.txs.mapM unmarshalMx
  pure ⟨header, txs.map setTransactionMx⟩

def unmarshalFailed {α : Type} : Except GoError α → Except GoError α
  | .ok a => .ok a
  | .error e => .error (.error ("json.Unmarshal failed: " ++ e.text))

def withoutExtra (tx : Transaction) : TransactionMx :=
  ⟨{ tx with extra := [] }, (getTransactionMx tx).txTypeMx, 0, []⟩

def typeOnly (tx : Transaction) : Transaction :=
  { tx with extra := [⟨(getTransactionMx tx).txTypeMx, 0, []⟩] }

/-- The transactions that the codecs carry: numbers of at most 256 bits, and an extra list with one
entry that has a type and nothing else. -/
structure TxFits (tx : Transaction) : Prop where
  numbers : tx.Below256
  extra : ∃ txType, tx.extra = [⟨txType, 0, []⟩]

structure Fits (block : BlockMainData Hash) : Prop where
  header : block.header.JsonFits
  txs : ∀ tx ∈ block.txs, TxFits tx

/-- The received block has the header, the hashes of the transactions and their root. -/
structure Kept (txHash : Transaction → Hash) (deriveSha : List Transaction → Hash)
    (sent received : BlockMainData Hash) : Prop where
  header : received.header.toHeader = sent.header.toHeader
  txs : received.txs.map txHash = sent.txs.map txHash
  root : deriveSha received.txs = deriveSha sent.txs

end BlockMainData

namespace FullBlockRspCodec
variable {Hash : Type}

def encodeFn (headerHash : Header Hash → Hash) (rsp : FullBlockRspMsg Hash) : FullBlockJson Hash :=
  BlockMainData.encode headerHash ⟨rsp.header, rsp.txs⟩

def decodeFn (data : FullBlockJson Hash) (fromAccount : Address) :
    Except GoError (FullBlockRspMsg Hash) := do
  let block ← BlockMainData.unmarshalFailed (BlockMainData.decode data)
  pure ⟨fromAccount, block.header, block.txs⟩

end FullBlockRspCodec

namespace BroadcastMiningRspCodec
variable {Hash : Type}

def encodeFn (headerHash : Header Hash → Hash) (rsp : BroadcastMiningRspMsg Hash) :
    FullBlockJson Hash :=
  BlockMainData.encode headerHash rsp.blockMainData

def decodeFn (data : FullBlockJson Hash) (fromAccount : Address) :
    Except GoError (BroadcastMiningRspMsg Hash) := do
  let block ← BlockMainData.unmarshalFailed (BlockMainData.decode data)
  pure ⟨fromAccount, block⟩

end BroadcastMiningRspCodec

namespace BlockMainData
variable {Hash : Type} {headerHash : Header Hash → Hash} {txHash : Transaction → Hash}
  {deriveSha : List Transaction → Hash} {block : BlockMainData Hash}

theorem unmarshalMx_marshalMx {tx : Transaction} {txMx : TransactionMx} :
    unmarshalMx (marshalMx (getTransactionMx tx) : TransactionMxJson Hash) = .ok txMx ↔
      tx.Below256 ∧ txMx = withoutExtra tx := by
  rw [unmarshalMx, bind_eq_ok_iff]
  constructor
  · rintro ⟨data, hdata, hok⟩
    obtain ⟨hbelow, rfl⟩ := Transaction.unmarshalTxdata_marshalTxdata.mp hdata
    exact ⟨hbelow, (Except.ok.inj hok).symm⟩
  · rintro ⟨hbelow, rfl⟩
    exact ⟨_, Transaction.unmarshalTxdata_marshalTxdata.mpr ⟨hbelow, rfl⟩, rfl⟩

/-- The decoding goes on behind a transaction only if that one fits. -/
theorem mapM_unmarshalMx {txs : List Transaction} {txsMx : List TransactionMx} :
    (txs.map (fun tx => (marshalMx (getTransactionMx tx) : TransactionMxJson Hash))).mapM
        unmarshalMx = .ok txsMx ↔
      (∀ tx ∈ txs, tx.Below256) ∧ txsMx = txs.map withoutExtra := by
  induction txs generalizing txsMx with
  | nil =>
    constructor
    · intro h
      cases h
      exact ⟨by simp, rfl⟩
    · rintro ⟨-, rfl⟩
      rfl
  | cons tx txs ih =>
    rw [List.map_cons, List.mapM_cons, bind_eq_ok_iff]
    constructor
    · rintro ⟨first, hfirst, hnext⟩
      obtain ⟨rest, hrest, hok⟩ := bind_eq_ok_iff.mp hnext
      obtain ⟨hbelow, rfl⟩ := unmarshalMx_marshalMx.mp hfirst
      obtain ⟨hall, rfl⟩ := ih.mp hrest
      cases hok
      exact ⟨List.forall_mem_cons.mpr ⟨hbelow, hall⟩, rfl⟩
    · rintro ⟨hall, rfl⟩
      obtain ⟨hbelow, hall⟩ := List.forall_mem_cons.mp hall
      refine ⟨_, unmarshalMx_marshalMx.mpr ⟨hbelow, rfl⟩, ?_⟩
      rw [bind_eq_ok_iff]
      exact ⟨_, ih.mpr ⟨hall, rfl⟩, rfl⟩

theorem decode_encode {block' : BlockMainData Hash} :
    decode (block.encode headerHash) = .ok block' ↔
      (block.header.JsonFits ∧ ∀ tx ∈ block.txs, tx.Below256) ∧
        block' = ⟨block.header, block.txs.map typeOnly⟩ := by
  rw [decode, bind_eq_ok_iff]
  constructor
  · rintro ⟨header, hheader, hrest⟩
    obtain ⟨txsMx, htxs, hok⟩ := bind_eq_ok_iff.mp hrest
    obtain ⟨hfits, rfl⟩ := HeaderValue.unmarshalJSON_marshalJSON.mp hheader
    obtain ⟨hall, rfl⟩ := mapM_unmarshalMx.mp htxs
    cases hok
    refine ⟨⟨hfits, hall⟩, ?_⟩
    rw [List.map_map]
    rfl
  · rintro ⟨⟨hfits, hall⟩, rfl⟩
    refine ⟨_, HeaderValue.unmarshalJSON_marshalJSON.mpr ⟨hfits, rfl⟩, ?_⟩
    rw [bind_eq_ok_iff]
    refine ⟨_, mapM_unmarshalMx.mpr ⟨hall, rfl⟩, ?_⟩
    rw [List.map_map]
    rfl

theorem typeOnly_eq_iff {tx : Transaction} :
    typeOnly tx = tx ↔ ∃ txType, tx.extra = [⟨txType, 0, []⟩] := by
  constructor
  · intro h
    exact ⟨(getTransactionMx tx).txTypeMx, (congrArg (fun tx : Transaction => tx.extra) h).symm⟩
  · rintro ⟨txType, h⟩
    have htype : (getTransactionMx tx).txTypeMx = txType := by
      simp [getTransactionMx, h]
    rw [typeOnly, htype, ← h]

theorem kept_typeOnly_iff (hinj : Function.Injective txHash) :
    Kept txHash deriveSha block ⟨block.header, block.txs.map typeOnly⟩ ↔
      ∀ tx ∈ block.txs, ∃ txType, tx.extra = [⟨txType, 0, []⟩] := by
  simp only [← typeOnly_eq_iff]
  constructor
  · intro h tx htx
    have htxs := h.txs
    rw [List.map_map, List.map_inj_left] at htxs
    exact hinj (htxs tx htx)
  · intro h
    have hsame : block.txs.map typeOnly = block.txs := (List.map_congr_left h).trans (List.map_id _)
    exact ⟨rfl, by rw [hsame], by rw [hsame]⟩

theorem unmarshalFailed_eq_ok {α : Type} {x : Except GoError α} {a : α} :
    unmarshalFailed x = .ok a ↔ x = .ok a := by
  unfold unmarshalFailed
  split <;> simp

theorem exists_message_iff {Msg : Type} {x : Except GoError (BlockMainData Hash)}
    (message : BlockMainData Hash → Msg) (P : Msg → Prop) :
    (∃ msg, (unmarshalFailed x >>= fun block => pure (message block)) = .ok msg ∧ P msg) ↔
      ∃ block', x = .ok block' ∧ P (message block') := by
  constructor
  · rintro ⟨msg, hmsg, hP⟩
    obtain ⟨block', hblock, hok⟩ := bind_eq_ok_iff.mp hmsg
    cases hok
    exact ⟨block', unmarshalFailed_eq_ok.mp hblock, hP⟩
  · rintro ⟨block', hblock, hP⟩
    exact ⟨message block', bind_eq_ok_iff.mpr ⟨block', unmarshalFailed_eq_ok.mpr hblock, rfl⟩, hP⟩

theorem exists_kept_iff (hinj : Function.Injective txHash) :
    (∃ block', decode (block.encode headerHash) = .ok block' ∧ Kept txHash deriveSha block block') ↔
      block.Fits := by
  constructor
  · rintro ⟨block', hdecode, hkept⟩
    obtain ⟨⟨hheader, hbelow⟩, rfl⟩ := decode_encode.mp hdecode
    have hextra := (kept_typeOnly_iff hinj).mp hkept
    exact ⟨hheader, fun tx htx => ⟨hbelow tx htx, hextra tx htx⟩⟩
  · rintro ⟨hheader, htxs⟩
    refine ⟨_, decode_encode.mpr ⟨⟨hheader, fun tx htx => (htxs tx htx).numbers⟩, rfl⟩, ?_⟩
    exact (kept_typeOnly_iff hinj).mpr (fun tx htx => (htxs tx htx).extra)

/-- Both codecs carry exactly the blocks that fit. -/
theorem codecs_lossless_iff (hinj : Function.Injective txHash) (headerHash : Header Hash → Hash)
    (deriveSha : List Transaction → Hash) (block : BlockMainData Hash) (sender receiver : Address) :
    ((∃ msg, FullBlockRspCodec.decodeFn (FullBlockRspCodec.encodeFn headerHash
        ⟨sender, block.header, block.txs⟩) receiver = .ok msg ∧
      Kept txHash deriveSha block ⟨msg.header, msg.txs⟩) ↔ block.Fits) ∧
    ((∃ msg, BroadcastMiningRspCodec.decodeFn (BroadcastMiningRspCodec.encodeFn headerHash
        ⟨sender, block⟩) receiver = .ok msg ∧ Kept txHash deriveSha block msg.blockMainData) ↔
      block.Fits) := by
  have hfits : (∃ block', decode (block.encode headerHash) = .ok block' ∧
      Kept txHash deriveSha block block') ↔ block.Fits := exists_kept_iff hinj
  rw [← hfits]
  constructor
  · exact exists_message_iff
      (fun block' => (⟨receiver, block'.header, block'.txs⟩ : FullBlockRspMsg Hash))
      (fun msg => Kept txHash deriveSha block ⟨msg.header, msg.txs⟩)
  · exact exists_message_iff
      (fun block' => (⟨receiver, block'⟩ : BroadcastMiningRspMsg Hash))
      (fun msg => Kept txHash deriveSha block msg.blockMainData)

section Sample

def plainHeader : HeaderValue SigContent where
  parentHash := .frontier sampleBody
  uncleHash := .frontier sampleBody
  leader := 0
  root := .frontier sampleBody
  txHash := .frontier sampleBody
  receiptHash := .frontier sampleBody
  bloom := 0
  difficulty := 1
  number := 1
  gasLimit := 0
  gasUsed := 0
  time := 1
  elect := []
  netTopology := ⟨0, []⟩
  extra := []
  version := []
  coinbase := 0
  signatures := []
  mixDigest := .frontier sampleBody
  nonce := 0
  nilElect := false
  nilSignatures := false
  nilVersion := false
  elect_of_nil := fun _ => rfl
  signatures_of_nil := fun _ => rfl
  version_of_nil := fun _ => rfl

theorem plainHeader_fits : plainHeader.JsonFits :=
  ⟨rfl, rfl, rfl, by decide +kernel, by decide +kernel, by decide +kernel⟩

def typedTx : Transaction := { sampleProtectedTx with extra := [⟨1, 0, []⟩] }

theorem codecs_keep_typed :
    (∃ msg, FullBlockRspCodec.decodeFn (FullBlockRspCodec.encodeFn (fun h => h.parentHash)
        ⟨1, plainHeader, [typedTx]⟩) 2 = .ok msg ∧
      Kept NumberedTxs.pairedHash (fun txs => .eip155 sampleBody txs.length)
        ⟨plainHeader, [typedTx]⟩ ⟨msg.header, msg.txs⟩) := by
  refine (codecs_lossless_iff NumberedTxs.pairedHash_injective (fun h => h.parentHash)
    (fun txs => .eip155 sampleBody txs.length) ⟨plainHeader, [typedTx]⟩ 1 2).1.mpr ?_
  refine ⟨plainHeader_fits, ?_⟩
  intro tx htx
  rw [List.mem_singleton.mp htx]
  exact ⟨⟨by decide +kernel, by decide +kernel, by decide +kernel, by decide +kernel,
    by decide +kernel⟩, 1, rfl⟩

/-- A signed transaction without extra list comes back with one, and under another hash. -/
theorem codecs_add_extra :
    (echoCrypto (fun _ => true)).sender (.eip155 1) sampleProtectedTx =
      .ok 1024 ∧
    plainHeader.JsonFits ∧
    (∃ msg, FullBlockRspCodec.decodeFn (FullBlockRspCodec.encodeFn (fun h => h.parentHash)
        ⟨1, plainHeader, [sampleProtectedTx]⟩) 2 = .ok msg ∧
      msg.txs = [{ sampleProtectedTx with extra := [⟨0, 0, []⟩] }] ∧
      msg.txs.map NumberedTxs.pairedHash ≠ [NumberedTxs.pairedHash sampleProtectedTx]) := by
  have hbelow : sampleProtectedTx.Below256 :=
    ⟨by decide +kernel, by decide +kernel, by decide +kernel, by decide +kernel, by decide +kernel⟩
  have hdecode : decode (BlockMainData.encode (fun h : Header SigContent => h.parentHash)
      ⟨plainHeader, [sampleProtectedTx]⟩) =
      .ok ⟨plainHeader, [sampleProtectedTx].map typeOnly⟩ := by
    refine decode_encode.mpr ⟨⟨plainHeader_fits, ?_⟩, rfl⟩
    intro tx htx
    rw [List.mem_singleton.mp htx]
    exact hbelow
  refine ⟨by decide +kernel, plainHeader_fits, ⟨2, plainHeader, _⟩, ?_, rfl, ?_⟩
  · exact bind_eq_ok_iff.mpr ⟨_, unmarshalFailed_eq_ok.mpr hdecode, rfl⟩
  · decide +kernel

end Sample

end BlockMainData

end MatrixNode
