import MatrixNode.BlockCodec
import MatrixNode.ReelectMessages
import MatrixNode.Txdata

/-! The messages of `mc/msgdef.go` that the dispatcher decodes, with their pointers, and how JSON
fills them. A field without a tag has its Go name in the document. -/
namespace MatrixNode
open GoLib

section Values

def addressValue : Decoder Address := readWhole addressJSON

def hashValue : Decoder (BitVec 256) := readWhole hashJSON

/-- `common.Signature` has no method of its own: an array of numbers. -/
def signatureValue : Decoder Signature := .byteArray 65 520

def signatureSlice : Decoder (List Signature) := .slice "common.Signature" 0 signatureValue

def uint64Value : Decoder ℕ := .uint 64 id

def uint32Value : Decoder UInt32 := .uint 32 UInt32.ofNat

def int64Value : Decoder ℤ := .int 64

end Values

namespace HeaderValue

def electFields : List (JsonField Elect) :=
  [.of "Account" Elect.account (fun e x => { e with account := x }) addressValue,
   .of "Stock" Elect.stock (fun e x => { e with stock := x }) (.uint 16 UInt16.ofNat),
   .of "Type" Elect.type (fun e x => { e with type := x }) (.uint 8 UInt8.ofNat)]

def netTopologyDataFields : List (JsonField NetTopologyData) :=
  [.of "Account" NetTopologyData.account (fun d x => { d with account := x }) addressValue,
   .of "Position" NetTopologyData.position (fun d x => { d with position := x })
     (.uint 16 UInt16.ofNat)]

def netTopologyFields : List (JsonField NetTopology) :=
  [.of "Type" NetTopology.type (fun t x => { t with type := x }) (.uint 8 UInt8.ofNat),
   .of "NetTopologyData" NetTopology.netTopologyData (fun t x => { t with netTopologyData := x })
     (.slice "common.NetTopologyData" ⟨0, 0⟩ (.struct "common.NetTopologyData" netTopologyDataFields))]

def hashPointer : Decoder (Option (BitVec 256)) := readPointer hashJSON

open Dec in
/-- The fields of the struct in `Header.UnmarshalJSON`. Two of the names have blanks in them. -/
def decFields : List (JsonField (Dec (BitVec 256))) :=
  [.of "parentHash" parentHash (fun d x => { d with parentHash := x }) hashPointer,
   .of "sha3Uncles" uncleHash (fun d x => { d with uncleHash := x }) hashPointer,
   .of "miner" coinbase (fun d x => { d with coinbase := x }) (readPointer addressJSON),
   .of "stateRoot" root (fun d x => { d with root := x }) hashPointer,
   .of "transactionsRoot" txHash (fun d x => { d with txHash := x }) hashPointer,
   .of "receiptsRoot" receiptHash (fun d x => { d with receiptHash := x }) hashPointer,
   .of "logsBloom" bloom (fun d x => { d with bloom := x })
     (.pointer 0 (.ofUnmarshalText "types.Bloom" (HexText.unmarshalFixed "Bloom" 256 2048))),
   .of "difficulty" difficulty (fun d x => { d with difficulty := x }) bigPointer,
   .of "number" number (fun d x => { d with number := x }) bigPointer,
   .of "gasLimit" gasLimit (fun d x => { d with gasLimit := x }) uint64Pointer,
   .of "gasUsed" gasUsed (fun d x => { d with gasUsed := x }) uint64Pointer,
   .of "timestamp" time (fun d x => { d with time := x }) bigPointer,
   .of "extraData" extra (fun d x => { d with extra := x }) bytesPointer,
   .of "mixHash" mixDigest (fun d x => { d with mixDigest := x }) hashPointer,
   .of "nonce" nonce (fun d x => { d with nonce := x })
     (.pointer 0 (.ofUnmarshalText "types.BlockNonce" (HexText.unmarshalFixed "BlockNonce" 8 64))),
   .of "leader" leader (fun d x => { d with leader := x }) (readPointer addressJSON),
   .of "elect" elect (fun d x => { d with elect := x })
     (.pointer [] (.slice "common.Elect" ⟨0, 0, 0⟩ (.struct "common.Elect" electFields))),
   .of "nettopology" netTopology (fun d x => { d with netTopology := x })
     (.pointer ⟨0, []⟩ (.struct "common.NetTopology" netTopologyFields)),
   .of "signatures " signatures (fun d x => { d with signatures := x })
     (.pointer [] signatureSlice),
   .of " version " version (fun d x => { d with version := x }) (.pointer [] .byteSlice)]

def emptyDec : Dec (BitVec 256) :=
  ⟨none, none, none, none, none, none, none, none, none, none, none, none, none, none, none, none,
    none, none, none, none⟩

def readDocument (j : Json) : Except GoError (HeaderValue (BitVec 256)) :=
  let dec := Decoder.struct "types.Header" decFields [] emptyDec j
  match dec.error with
  | some e => .error e
  | none => requireDec dec.value

end HeaderValue

/-- `*types.Header`. The method fills every field, so what was there before does not matter. -/
def headerPointer : Decoder (Option (HeaderValue (BitVec 256))) := fun _ p j =>
  match j with
  | .null => .ok none
  | j =>
    match HeaderValue.readDocument j with
    | .ok h => .ok (some h)
    | .error e => ⟨p, none, some e⟩

/-- `*types.Header` where only its fields are used. -/
def plainHeaderPointer : Decoder (Option (Header (BitVec 256))) := fun earlier p j =>
  match headerPointer earlier none j with
  | ⟨h, saved, none⟩ => ⟨h.map HeaderValue.toHeader, saved, none⟩
  | ⟨_, saved, some e⟩ => ⟨p, saved, some e⟩

namespace HD

structure HeaderMsg where
  fromAccount : Address
  header : Option (Header (BitVec 256))

structure MiningRspMsg where
  fromAccount : Address
  number : ℕ
  blockhash : BitVec 256
  difficulty : Option ℤ
  nonce : BlockNonce
  coinbase : Address
  mixDigest : BitVec 256
  signatures : List Signature

structure OnlineConsensusReqs where
  fromAccount : Address
  reqList : List (Option OnlineConsensusReq)

structure ConsensusVote where
  signHash : BitVec 256
  round : ℕ
  sign : Signature
  fromAccount : Address

structure OnlineConsensusVotes where
  votes : List ConsensusVote

structure OnlineConsensusVoteResultMsg where
  req : Option OnlineConsensusReq
  signList : List Signature

/-- The type of a response is any byte here; the handlers tell the known ones apart. -/
structure ReelectInquiryRspMsg where
  number : ℕ
  reqHash : BitVec 256
  type : UInt8
  agreeSign : Signature
  posResult : Option (BlkConsensusReqMsg (BitVec 256))
  rlResult : Option ReelectLeaderConsensus
  newBlock : Option (Header (BitVec 256))
  fromAccount : Address

structure ReelectLeaderVoteMsg where
  vote : ConsensusVote
  number : ℕ

structure ReelectResultBroadcastMsg where
  number : ℕ
  type : UInt8
  posResult : Option (BlkConsensusReqMsg (BitVec 256))
  rlResult : Option ReelectLeaderConsensus
  timeStamp : ℤ
  fromAccount : Address

structure ReelectResultRspMsg where
  number : ℕ
  resultHash : BitVec 256
  sign : Signature
  fromAccount : Address

structure FullBlockReqMsg where
  headerHash : BitVec 256
  number : ℕ
  fromAccount : Address

structure FullBlockMsgForMarshal where
  header : Option (HeaderValue (BitVec 256))
  txs : List (Option MxData)

structure BlockRspMsg where
  fromAccount : Address
  header : Option (HeaderValue (BitVec 256))
  txs : List Txdata

section Fields

def headerMsgFields : List (JsonField HeaderMsg) :=
  [.of "From" HeaderMsg.fromAccount (fun m x => { m with fromAccount := x }) addressValue,
   .of "Header" HeaderMsg.header (fun m x => { m with header := x }) plainHeaderPointer]

open HD.MiningRspMsg in
def miningRspFields : List (JsonField MiningRspMsg) :=
  [.of "From" fromAccount (fun m x => { m with fromAccount := x }) addressValue,
   .of "Number" number (fun m x => { m with number := x }) uint64Value,
   .of "Blockhash" blockhash (fun m x => { m with blockhash := x }) hashValue,
   .of "Difficulty" difficulty (fun m x => { m with difficulty := x }) .bigInt,
   .of "Nonce" nonce (fun m x => { m with nonce := x })
     (.ofUnmarshalText "types.BlockNonce" (HexText.unmarshalFixed "BlockNonce" 8 64)),
   .of "Coinbase" coinbase (fun m x => { m with coinbase := x }) addressValue,
   .of "MixDigest" mixDigest (fun m x => { m with mixDigest := x }) hashValue,
   .of "Signatures" signatures (fun m x => { m with signatures := x }) signatureSlice]

open BlkConsensusReqMsg in
def blkConsensusReqFields : List (JsonField (BlkConsensusReqMsg (BitVec 256))) :=
  [.of "From" fromAccount (fun m x => { m with fromAccount := x }) addressValue,
   .of "Header" header (fun m x => { m with header := x }) plainHeaderPointer,
   .of "ConsensusTurn" consensusTurn (fun m x => { m with consensusTurn := x }) uint32Value,
   .of "TxsCode" txsCode (fun m x => { m with txsCode := x }) (.slice "uint32" 0 uint32Value)]

open OnlineConsensusReq in
def onlineConsensusReqFields : List (JsonField OnlineConsensusReq) :=
  [.of "Leader" leader (fun m x => { m with leader := x }) addressValue,
   .of "Seq" seq (fun m x => { m with seq := x }) uint64Value,
   .of "Node" node (fun m x => { m with node := x }) addressValue,
   .of "OnlineState" onlineState (fun m x => { m with onlineState := x }) int64Value]

def onlineReqPointer : Decoder (Option OnlineConsensusReq) :=
  .pointer ⟨0, 0, 0, 0⟩ (.struct "mc.OnlineConsensusReq" onlineConsensusReqFields)

def onlineConsensusReqsFields : List (JsonField OnlineConsensusReqs) :=
  [.of "From" OnlineConsensusReqs.fromAccount (fun m x => { m with fromAccount := x }) addressValue,
   .of "ReqList" OnlineConsensusReqs.reqList (fun m x => { m with reqList := x })
     (.slice "*mc.OnlineConsensusReq" none onlineReqPointer)]

open HD.ConsensusVote in
def voteFields : List (JsonField ConsensusVote) :=
  [.of "SignHash" signHash (fun m x => { m with signHash := x }) hashValue,
   .of "Round" round (fun m x => { m with round := x }) uint64Value,
   .of "Sign" sign (fun m x => { m with sign := x }) signatureValue,
   .of "From" fromAccount (fun m x => { m with fromAccount := x }) addressValue]

def zeroVote : ConsensusVote := ⟨0, 0, 0, 0⟩

def voteValue : Decoder ConsensusVote := .struct "mc.HD_ConsensusVote" voteFields

def onlineConsensusVotesFields : List (JsonField OnlineConsensusVotes) :=
  [.of "Votes" OnlineConsensusVotes.votes (fun m x => { m with votes := x })
     (.slice "mc.HD_ConsensusVote" zeroVote voteValue)]

open OnlineConsensusVoteResultMsg in
def onlineVoteResultFields : List (JsonField OnlineConsensusVoteResultMsg) :=
  [.of "Req" req (fun m x => { m with req := x }) onlineReqPointer,
   .of "SignList" signList (fun m x => { m with signList := x }) signatureSlice]

open ReelectInquiryReqMsg in
def inquiryReqFields : List (JsonField ReelectInquiryReqMsg) :=
  [.of "Number" number (fun m x => { m with number := x }) uint64Value,
   .of "ConsensusTurn" consensusTurn (fun m x => { m with consensusTurn := x }) uint32Value,
   .of "ReelectTurn" reelectTurn (fun m x => { m with reelectTurn := x }) uint32Value,
   .of "TimeStamp" timeStamp (fun m x => { m with timeStamp := x }) int64Value,
   .of "Master" master (fun m x => { m with master := x }) addressValue,
   .of "From" fromAccount (fun m x => { m with fromAccount := x }) addressValue]

def zeroInquiryReq : ReelectInquiryReqMsg := ⟨0, 0, 0, 0, 0, 0⟩

def inquiryReqValue : Decoder ReelectInquiryReqMsg :=
  .struct "mc.HD_ReelectInquiryReqMsg" inquiryReqFields

open ReelectLeaderReqMsg in
def leaderReqFields : List (JsonField ReelectLeaderReqMsg) :=
  [.of "InquiryReq" inquiryReq (fun m x => { m with inquiryReq := x })
     (.pointer zeroInquiryReq inquiryReqValue),
   .of "AgreeSigns" agreeSigns (fun m x => { m with agreeSigns := x }) signatureSlice,
   .of "TimeStamp" timeStamp (fun m x => { m with timeStamp := x }) int64Value]

def zeroLeaderReq : ReelectLeaderReqMsg := ⟨none, [], 0⟩

def leaderReqValue : Decoder ReelectLeaderReqMsg :=
  .struct "mc.HD_ReelectLeaderReqMsg" leaderReqFields

open ReelectLeaderConsensus in
def leaderConsensusFields : List (JsonField ReelectLeaderConsensus) :=
  [.of "Req" req (fun m x => { m with req := x }) (.pointer zeroLeaderReq leaderReqValue),
   .of "Votes" votes (fun m x => { m with votes := x }) signatureSlice,
   .of "TimeStamp" timeStamp (fun m x => { m with timeStamp := x }) int64Value]

def posResultPointer : Decoder (Option (BlkConsensusReqMsg (BitVec 256))) :=
  .pointer ⟨0, none, 0, []⟩ (.struct "mc.HD_BlkConsensusReqMsg" blkConsensusReqFields)

def rlResultPointer : Decoder (Option ReelectLeaderConsensus) :=
  .pointer ⟨none, [], 0⟩ (.struct "mc.HD_ReelectLeaderConsensus" leaderConsensusFields)

open HD.ReelectInquiryRspMsg in
def inquiryRspFields : List (JsonField ReelectInquiryRspMsg) :=
  [.of "Number" number (fun m x => { m with number := x }) uint64Value,
   .of "ReqHash" reqHash (fun m x => { m with reqHash := x }) hashValue,
   .of "Type" type (fun m x => { m with type := x }) (.uint 8 UInt8.ofNat),
   .of "AgreeSign" agreeSign (fun m x => { m with agreeSign := x }) signatureValue,
   .of "POSResult" posResult (fun m x => { m with posResult := x }) posResultPointer,
   .of "RLResult" rlResult (fun m x => { m with rlResult := x }) rlResultPointer,
   .of "NewBlock" newBlock (fun m x => { m with newBlock := x }) plainHeaderPointer,
   .of "From" fromAccount (fun m x => { m with fromAccount := x }) addressValue]

def leaderVoteFields : List (JsonField ReelectLeaderVoteMsg) :=
  [.of "Vote" ReelectLeaderVoteMsg.vote (fun m x => { m with vote := x }) voteValue,
   .of "Number" ReelectLeaderVoteMsg.number (fun m x => { m with number := x }) uint64Value]

open HD.ReelectResultBroadcastMsg in
def resultBroadcastFields : List (JsonField ReelectResultBroadcastMsg) :=
  [.of "Number" number (fun m x => { m with number := x }) uint64Value,
   .of "Type" type (fun m x => { m with type := x }) (.uint 8 UInt8.ofNat),
   .of "POSResult" posResult (fun m x => { m with posResult := x }) posResultPointer,
   .of "RLResult" rlResult (fun m x => { m with rlResult := x }) rlResultPointer,
   .of "TimeStamp" timeStamp (fun m x => { m with timeStamp := x }) int64Value,
   .of "From" fromAccount (fun m x => { m with fromAccount := x }) addressValue]

open HD.ReelectResultRspMsg in
def resultRspFields : List (JsonField ReelectResultRspMsg) :=
  [.of "Number" number (fun m x => { m with number := x }) uint64Value,
   .of "ResultHash" resultHash (fun m x => { m with resultHash := x }) hashValue,
   .of "Sign" sign (fun m x => { m with sign := x }) signatureValue,
   .of "From" fromAccount (fun m x => { m with fromAccount := x }) addressValue]

open HD.FullBlockReqMsg in
def fullBlockReqFields : List (JsonField FullBlockReqMsg) :=
  [.of "HeaderHash" headerHash (fun m x => { m with headerHash := x }) hashValue,
   .of "Number" number (fun m x => { m with number := x }) uint64Value,
   .of "From" fromAccount (fun m x => { m with fromAccount := x }) addressValue]

def fullBlockFields : List (JsonField FullBlockMsgForMarshal) :=
  [.of "Header" FullBlockMsgForMarshal.header (fun m x => { m with header := x }) headerPointer,
   .of "Txs" FullBlockMsgForMarshal.txs (fun m x => { m with txs := x })
     (.slice "*types.Transaction_Mx" none mxPointer)]

end Fields

end HD

end MatrixNode
