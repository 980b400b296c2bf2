import MatrixNode.HdMessages

/-! `hd/msgCodec.go` and `hd/dispatcher.go`: a message of a peer is decoded by the codec of its
sub-code, which writes the authenticated account of the sender over what the bytes say, and is then
published. -/
namespace MatrixNode
namespace HD
open GoLib

inductive MsgCodec where
  | blkConsensusReq
  | blkConsensusVote
  | miningReq
  | miningRsp
  | broadcastMiningRsp
  | newBlockInsert
  | onlineConsensusReq
  | onlineConsensusVote
  | onlineConsensusResult
  | lrInquiryReq
  | lrInquiryRsp
  | lrReq
  | lrVote
  | lrResultBC
  | lrResultBCRsp
  | fullBlockReq
  | fullBlockRsp
  deriving DecidableEq

/-- The event codes of `mc/events.go`. -/
def MsgCodec.code : MsgCodec → ℕ
  | .miningReq => 2
  | .miningRsp => 3
  | .broadcastMiningRsp => 5
  | .blkConsensusReq => 11
  | .blkConsensusVote => 12
  | .newBlockInsert => 16
  | .fullBlockReq => 19
  | .fullBlockRsp => 20
  | .onlineConsensusReq => 21
  | .onlineConsensusVote => 22
  | .onlineConsensusResult => 23
  | .lrInquiryReq => 24
  | .lrInquiryRsp => 25
  | .lrReq => 26
  | .lrVote => 27
  | .lrResultBC => 28
  | .lrResultBCRsp => 29

inductive Msg where
  | blkConsensusReq (m : BlkConsensusReqMsg (BitVec 256))
  | consensusVote (m : ConsensusVote)
  | miningReq (m : HeaderMsg)
  | miningRsp (m : MiningRspMsg)
  | broadcastMiningRsp (m : BlockRspMsg)
  | blockInsertNotify (m : HeaderMsg)
  | onlineConsensusReqs (m : OnlineConsensusReqs)
  | onlineConsensusVotes (m : OnlineConsensusVotes)
  | onlineConsensusVoteResult (m : OnlineConsensusVoteResultMsg)
  | reelectInquiryReq (m : ReelectInquiryReqMsg)
  | reelectInquiryRsp (m : ReelectInquiryRspMsg)
  | reelectLeaderReq (m : ReelectLeaderReqMsg)
  | reelectLeaderVote (m : ReelectLeaderVoteMsg)
  | reelectResultBroadcast (m : ReelectResultBroadcastMsg)
  | reelectResultRsp (m : ReelectResultRspMsg)
  | fullBlockReq (m : FullBlockReqMsg)
  | fullBlockRsp (m : BlockRspMsg)

/-- The origin that the handlers of a message trust. The result of an online consensus has none; it
stands for itself by its signatures. -/
def Msg.origins : Msg → List Address
  | .blkConsensusReq m => [m.fromAccount]
  | .consensusVote m => [m.fromAccount]
  | .miningReq m => [m.fromAccount]
  | .miningRsp m => [m.fromAccount]
  | .broadcastMiningRsp m => [m.fromAccount]
  | .blockInsertNotify m => [m.fromAccount]
  | .onlineConsensusReqs m => [m.fromAccount]
  | .onlineConsensusVotes m => m.votes.map ConsensusVote.fromAccount
  | .onlineConsensusVoteResult _ => []
  | .reelectInquiryReq m => [m.fromAccount]
  | .reelectInquiryRsp m => [m.fromAccount]
  | .reelectLeaderReq m => m.inquiryReq.toList.map ReelectInquiryReqMsg.fromAccount
  | .reelectLeaderVote m => [m.vote.fromAccount]
  | .reelectResultBroadcast m => [m.fromAccount]
  | .reelectResultRsp m => [m.fromAccount]
  | .fullBlockReq m => [m.fromAccount]
  | .fullBlockRsp m => [m.fromAccount]

/-- The body of every `DecodeFn`: the document is read into a zero message, and `finish` does the
rest. -/
def decodeWith {α β : Type} (goType : String) (fields : List (JsonField α)) (zero : α)
    (finish : α → Except GoError β) (data : JsonText) : Except GoError β :=
  match (unmarshal zero (.struct goType fields) data).2 with
  | some e => .error (.error ("json.Unmarshal failed: " ++ e.text))
  | none => finish (unmarshal zero (.struct goType fields) data).1

section DecodeFn
variable (data : JsonText) (account : Address)

def blkConsensusReqDecodeFn : Except GoError (BlkConsensusReqMsg (BitVec 256)) :=
  decodeWith "mc.HD_BlkConsensusReqMsg" blkConsensusReqFields ⟨0, none, 0, []⟩
    (fun m => .ok { m with fromAccount := account }) data

def blkConsensusVoteDecodeFn : Except GoError ConsensusVote :=
  decodeWith "mc.HD_ConsensusVote" voteFields zeroVote
    (fun m => .ok { m with fromAccount := account }) data

def miningReqDecodeFn : Except GoError HeaderMsg :=
  decodeWith "mc.HD_MiningReqMsg" headerMsgFields ⟨0, none⟩
    (fun m => .ok { m with fromAccount := account }) data

def miningRspDecodeFn : Except GoError MiningRspMsg :=
  decodeWith "mc.HD_MiningRspMsg" miningRspFields ⟨0, 0, 0, none, 0, 0, 0, []⟩
    (fun m => .ok { m with fromAccount := account }) data

def newBlockInsertDecodeFn : Except GoError HeaderMsg :=
  decodeWith "mc.HD_BlockInsertNotify" headerMsgFields ⟨0, none⟩
    (fun m => .ok { m with fromAccount := account }) data

def onlineConsensusReqDecodeFn : Except GoError OnlineConsensusReqs :=
  decodeWith "mc.HD_OnlineConsensusReqs" onlineConsensusReqsFields ⟨0, []⟩
    (fun m => .ok { m with fromAccount := account }) data

/-- The loop of the codec: its variable is a copy of each vote in turn, and only the copy gets the
account. -/
def setVoteOrigins (m : OnlineConsensusVotes) : OnlineConsensusVotes :=
  (m.votes.foldl (fun (loop : OnlineConsensusVotes × ConsensusVote) vote =>
    (loop.1, { vote with fromAccount := account })) (m, zeroVote)).1

def onlineConsensusVoteDecodeFn : Except GoError OnlineConsensusVotes :=
  decodeWith "mc.HD_OnlineConsensusVotes" onlineConsensusVotesFields ⟨[]⟩
    (fun m => .ok (setVoteOrigins account m)) data

def onlineConsensusResultDecodeFn : Except GoError OnlineConsensusVoteResultMsg :=
  decodeWith "mc.HD_OnlineConsensusVoteResultMsg" onlineVoteResultFields ⟨none, []⟩ .ok data

def lrInquiryReqDecodeFn : Except GoError ReelectInquiryReqMsg :=
  decodeWith "mc.HD_ReelectInquiryReqMsg" inquiryReqFields zeroInquiryReq
    (fun m => .ok { m with fromAccount := account }) data

def lrInquiryRspDecodeFn : Except GoError ReelectInquiryRspMsg :=
  decodeWith "mc.HD_ReelectInquiryRspMsg" inquiryRspFields ⟨0, 0, 0, 0, none, none, none, 0⟩
    (fun m => .ok { m with fromAccount := account }) data

/-- The request inside the message is used without a look at the pointer. -/
def lrReqDecodeFn : Except GoError ReelectLeaderReqMsg :=
  decodeWith "mc.HD_ReelectLeaderReqMsg" leaderReqFields zeroLeaderReq
    (fun m => do
      let req ← deref m.inquiryReq
      return { m with inquiryReq := some { req with fromAccount := account } }) data

def lrVoteDecodeFn : Except GoError ReelectLeaderVoteMsg :=
  decodeWith "mc.HD_ReelectLeaderVoteMsg" leaderVoteFields ⟨zeroVote, 0⟩
    (fun m => .ok { m with vote := { m.vote with fromAccount := account } }) data

def lrResultBCDecodeFn : Except GoError ReelectResultBroadcastMsg :=
  decodeWith "mc.HD_ReelectResultBroadcastMsg" resultBroadcastFields ⟨0, 0, none, none, 0, 0⟩
    (fun m => .ok { m with fromAccount := account }) data

def lrResultBCRspDecodeFn : Except GoError ReelectResultRspMsg :=
  decodeWith "mc.HD_ReelectResultRspMsg" resultRspFields ⟨0, 0, 0, 0⟩
    (fun m => .ok { m with fromAccount := account }) data

def fullBlockReqDecodeFn : Except GoError FullBlockReqMsg :=
  decodeWith "mc.HD_FullBlockReqMsg" fullBlockReqFields ⟨0, 0, 0⟩
    (fun m => .ok { m with fromAccount := account }) data

/-- Both codecs for whole blocks: every transaction is converted, nil or not. -/
def blockDecodeFn : Except GoError BlockRspMsg :=
  decodeWith "hd.fullBlockMsgForMarshal" fullBlockFields ⟨none, []⟩
    (fun m => do
      let txs ← m.txs.mapM MxData.setTransactionMx
      return ⟨account, m.header, txs⟩) data

end DecodeFn

def MsgCodec.decodeFn (data : JsonText) (account : Address) : MsgCodec → Except GoError Msg
  | .blkConsensusReq => .blkConsensusReq <$> blkConsensusReqDecodeFn data account
  | .blkConsensusVote => .consensusVote <$> blkConsensusVoteDecodeFn data account
  | .miningReq => .miningReq <$> miningReqDecodeFn data account
  | .miningRsp => .miningRsp <$> miningRspDecodeFn data account
  | .broadcastMiningRsp => .broadcastMiningRsp <$> blockDecodeFn data account
  | .newBlockInsert => .blockInsertNotify <$> newBlockInsertDecodeFn data account
  | .onlineConsensusReq => .onlineConsensusReqs <$> onlineConsensusReqDecodeFn data account
  | .onlineConsensusVote => .onlineConsensusVotes <$> onlineConsensusVoteDecodeFn data account
  | .onlineConsensusResult => .onlineConsensusVoteResult <$> onlineConsensusResultDecodeFn data
  | .lrInquiryReq => .reelectInquiryReq <$> lrInquiryReqDecodeFn data account
  | .lrInquiryRsp => .reelectInquiryRsp <$> lrInquiryRspDecodeFn data account
  | .lrReq => .reelectLeaderReq <$> lrReqDecodeFn data account
  | .lrVote => .reelectLeaderVote <$> lrVoteDecodeFn data account
  | .lrResultBC => .reelectResultBroadcast <$> lrResultBCDecodeFn data account
  | .lrResultBCRsp => .reelectResultRsp <$> lrResultBCRspDecodeFn data account
  | .fullBlockReq => .fullBlockReq <$> fullBlockReqDecodeFn data account
  | .fullBlockRsp => .fullBlockRsp <$> blockDecodeFn data account

def initCodec : List MsgCodec :=
  [.blkConsensusReq, .blkConsensusVote, .miningReq, .miningRsp, .broadcastMiningRsp, .newBlockInsert,
   .onlineConsensusReq, .onlineConsensusVote, .onlineConsensusResult, .lrInquiryReq, .lrInquiryRsp,
   .lrReq, .lrVote, .lrResultBC, .lrResultBCRsp, .fullBlockReq, .fullBlockRsp]

def findCodec (subCode : UInt32) : Except GoError MsgCodec :=
  match initCodec.find? fun codec => codec.code == subCode.toNat with
  | some codec => .ok codec
  | none => .error (.error ("消息码[" ++ toString subCode ++ "]的编解码器不存在"))

structure AlgorithmMsg where
  account : Address
  subCode : UInt32
  msg : JsonText

def decodeMsg (data : AlgorithmMsg) : Except GoError Msg := do
  let codec ← findCodec data.subCode
  codec.decodeFn data.msg data.account

/-- The loop of `HD.receive`: errors are logged and the message is dropped, a panic takes the
process down. What is published is returned. -/
def receive : List AlgorithmMsg → Except GoError (List (UInt32 × Msg))
  | [] => .ok []
  | data :: rest =>
    match decodeMsg data with
    | .error (.panic text) => .error (.panic text)
    | .error (.error _) => receive rest
    | .ok msg => do
      let published ← receive rest
      return (data.subCode, msg) :: published

section Decode
variable {α β : Type} {goType : String} {fields : List (JsonField α)} {zero : α}
  {finish : α → Except GoError β} {data : JsonText}

def Accepts (goType : String) (fields : List (JsonField α)) (zero : α) (data : JsonText) : Prop :=
  (unmarshal zero (.struct goType fields) data).2 = none

theorem decodeWith_eq_ok_iff {b : β} :
    decodeWith goType fields zero finish data = .ok b ↔
      Accepts goType fields zero data ∧
        finish (unmarshal zero (.struct goType fields) data).1 = .ok b := by
  rw [decodeWith, Accepts]
  cases (unmarshal zero (.struct goType fields) data).2 <;> simp

theorem decodeWith_panics_iff :
    (∃ text, decodeWith goType fields zero finish data = .error (.panic text)) ↔
      Accepts goType fields zero data ∧
        ∃ text, finish (unmarshal zero (.struct goType fields) data).1 = .error (.panic text) := by
  rw [decodeWith, Accepts]
  cases (unmarshal zero (.struct goType fields) data).2 <;> simp

end Decode

section Origins

theorem readsField_votes : ReadsField onlineConsensusVotesFields "Votes" OnlineConsensusVotes.votes
    (.slice "mc.HD_ConsensusVote" zeroVote voteValue) where
  names := by decide
  mem := by simp [onlineConsensusVotesFields, JsonField.of]
  value := by simp [onlineConsensusVotesFields, JsonField.of, Decoded.map]
  error := by simp [onlineConsensusVotesFields, JsonField.of]
  other := by simp [onlineConsensusVotesFields, JsonField.of]

theorem readsField_voteFrom :
    ReadsField voteFields "From" ConsensusVote.fromAccount addressValue where
  names := by decide
  mem := by simp [voteFields, JsonField.of]
  value := by simp [voteFields, JsonField.of, Decoded.map]
  error := by simp [voteFields, JsonField.of]
  other := by simp [voteFields, JsonField.of, Decoded.map]

def claimedFrom (docs : List Json) : Address :=
  ((Json.valuesOf "From" (docs.flatMap Json.members)).getLast?.map fun j =>
    (addressJSON j).toOption.getD 0).getD 0

/-- Every vote that a document lists names the sender. An element of `Votes` is read from one
document, unless the name is given twice. -/
def VotesNameSender (data : JsonText) (account : Address) : Prop :=
  ∀ vote ∈ Json.slotsOf (Json.values "Votes" data), claimedFrom vote = account

theorem addressValue_value {earlier : List Json} {a : Address} {j : Json}
    (h : (addressValue earlier a j).error = none) :
    (addressValue earlier a j).value = (addressJSON j).toOption.getD 0 := by
  rw [addressValue, readWhole, Decoder.ofUnmarshalJSON] at h ⊢
  cases hj : addressJSON j with
  | ok b => rfl
  | error e =>
    rw [hj] at h
    cases h

theorem readAll_addressValue {docs : List Json}
    (h : (Decoder.readAll addressValue [] 0 docs).error = none) :
    (Decoder.readAll addressValue [] 0 docs).value =
      (docs.getLast?.map fun j => (addressJSON j).toOption.getD 0).getD 0 := by
  rcases List.eq_nil_or_concat docs with rfl | ⟨docs, j, rfl⟩
  · rfl
  · rw [List.concat_eq_append] at h ⊢
    obtain ⟨-, hlast, hvalue⟩ := readAll_concat h
    rw [hvalue, addressValue_value hlast, List.getLast?_concat]
    rfl

theorem voteValue_from {docs : List Json}
    (h : (Decoder.readAll voteValue [] zeroVote docs).error = none) :
    (Decoder.readAll voteValue [] zeroVote docs).value.fromAccount = claimedFrom docs := by
  obtain ⟨herror, hvalue⟩ := readsField_voteFrom.readAll h
  exact hvalue.trans (readAll_addressValue herror)

variable {data : JsonText}

theorem votes_fromAccount_iff (account : Address)
    (h : Accepts "mc.HD_OnlineConsensusVotes" onlineConsensusVotesFields ⟨[]⟩ data) :
    (∀ vote ∈ (unmarshal ⟨[]⟩ (.struct "mc.HD_OnlineConsensusVotes" onlineConsensusVotesFields)
        data).1.votes, vote.fromAccount = account) ↔ VotesNameSender data account := by
  obtain ⟨hvotes, herrors⟩ := unmarshal_slice readsField_votes rfl h
  have hsame : ∀ docs ∈ Json.slotsOf (Json.values "Votes" data),
      (Decoder.readAll voteValue [] zeroVote docs).value.fromAccount = claimedFrom docs :=
    fun docs hdocs => voteValue_from (herrors docs hdocs)
  rw [hvotes, List.forall_mem_map]
  constructor
  · intro hall docs hdocs
    rw [← hsame docs hdocs]
    exact hall docs hdocs
  · intro hall docs hdocs
    rw [hsame docs hdocs]
    exact hall docs hdocs

/-- The first component of the loop's state is never written. -/
theorem setVoteOrigins_eq (account : Address) (m : OnlineConsensusVotes) :
    setVoteOrigins account m = m := by
  have hloop : ∀ (votes : List ConsensusVote) (vote : ConsensusVote),
      (votes.foldl (fun (loop : OnlineConsensusVotes × ConsensusVote) vote =>
        (loop.1, { vote with fromAccount := account })) (m, vote)).1 = m := by
    intro votes
    induction votes with
    | nil => exact fun _ => rfl
    | cons w votes ih => exact fun _ => ih _
  exact hloop m.votes zeroVote

theorem map_eq_ok_iff {ε α β : Type} {f : α → β} {x : Except ε α} {b : β} :
    f <$> x = .ok b ↔ ∃ a, x = .ok a ∧ f a = b := by
  cases x <;> simp

theorem blockDecodeFn_fromAccount {account : Address} {m : BlockRspMsg}
    (h : blockDecodeFn data account = .ok m) : m.fromAccount = account := by
  obtain ⟨_, hfinish⟩ := decodeWith_eq_ok_iff.mp h
  obtain ⟨txs, _, htxs⟩ := bind_eq_ok_iff.mp hfinish
  cases htxs
  rfl

theorem origins_of_ne_onlineConsensusVote {codec : MsgCodec} {account : Address} {msg : Msg}
    (hne : codec ≠ .onlineConsensusVote) (h : codec.decodeFn data account = .ok msg) :
    ∀ a ∈ msg.origins, a = account := by
  cases codec with
  | onlineConsensusVote => exact absurd rfl hne
  | onlineConsensusResult =>
    obtain ⟨m, _, rfl⟩ := map_eq_ok_iff.mp h
    exact fun a ha => absurd ha List.not_mem_nil
  | lrReq =>
    obtain ⟨m, hm, rfl⟩ := map_eq_ok_iff.mp h
    obtain ⟨_, hfinish⟩ := decodeWith_eq_ok_iff.mp hm
    obtain ⟨req, _, hreq⟩ := bind_eq_ok_iff.mp hfinish
    cases hreq
    simp [Msg.origins]
  | broadcastMiningRsp =>
    obtain ⟨m, hm, rfl⟩ := map_eq_ok_iff.mp h
    simp [Msg.origins, blockDecodeFn_fromAccount hm]
  | fullBlockRsp =>
    obtain ⟨m, hm, rfl⟩ := map_eq_ok_iff.mp h
    simp [Msg.origins, blockDecodeFn_fromAccount hm]
  | _ =>
    obtain ⟨m, hm, rfl⟩ := map_eq_ok_iff.mp h
    obtain ⟨_, hfinish⟩ := decodeWith_eq_ok_iff.mp hm
    cases hfinish
    simp [Msg.origins]

/-- The origins of a decoded message are the authenticated account, unless it is a list of votes
that names somebody else. -/
theorem decoded_origins_iff (codec : MsgCodec) (data : JsonText) (account : Address) (msg : Msg)
    (h : codec.decodeFn data account = .ok msg) :
    (∀ a ∈ msg.origins, a = account) ↔
      (codec = .onlineConsensusVote → VotesNameSender data account) := by
  by_cases hvote : codec = .onlineConsensusVote
  · rw [hvote] at h
    obtain ⟨m, hm, rfl⟩ := map_eq_ok_iff.mp h
    obtain ⟨haccepts, hfinish⟩ := decodeWith_eq_ok_iff.mp hm
    rw [setVoteOrigins_eq] at hfinish
    have hvotes := votes_fromAccount_iff account haccepts
    rw [Except.ok.inj hfinish] at hvotes
    rw [Msg.origins, List.forall_mem_map, hvotes]
    exact ⟨fun hall _ => hall, fun hall => hall hvote⟩
  · exact iff_of_true (origins_of_ne_onlineConsensusVote hvote h) fun h => absurd h hvote

def voteOfEight : JsonText :=
  some (.object [("Votes".toList, .array [.object
    [("From".toList, .text "0x0000000000000000000000000000000000000008")]])])

theorem decoded_origins_iff_eight :
    ∃ msg, MsgCodec.decodeFn voteOfEight 8 .onlineConsensusVote = .ok msg ∧
      ((∀ a ∈ msg.origins, a = 8) ↔
        (MsgCodec.onlineConsensusVote = .onlineConsensusVote → VotesNameSender voteOfEight 8)) :=
  ⟨.onlineConsensusVotes ⟨[⟨0, 0, 0, 8⟩]⟩, rfl,
    decoded_origins_iff .onlineConsensusVote voteOfEight 8 _ rfl⟩

/-- The bytes that account 7 sends pass for a vote of account 8. -/
theorem vote_of_seven_names_eight :
    ∃ msg, MsgCodec.decodeFn voteOfEight 7 .onlineConsensusVote = .ok msg ∧
      ¬ ∀ a ∈ msg.origins, a = 7 := by
  refine ⟨.onlineConsensusVotes ⟨[⟨0, 0, 0, 8⟩]⟩, rfl, ?_⟩
  intro h
  exact absurd (h 8 List.mem_cons_self) (by decide)

end Origins

section Panics

theorem map_panics_iff {α β : Type} {f : α → β} {x : Except GoError α} :
    (∃ text, f <$> x = .error (.panic text)) ↔ ∃ text, x = .error (.panic text) := by
  cases x <;> simp

theorem readsField_inquiryReq : ReadsField leaderReqFields "InquiryReq"
    ReelectLeaderReqMsg.inquiryReq (.pointer zeroInquiryReq inquiryReqValue) where
  names := by decide
  mem := by simp [leaderReqFields, JsonField.of]
  value := by simp [leaderReqFields, JsonField.of, Decoded.map]
  error := by simp [leaderReqFields, JsonField.of]
  other := by simp [leaderReqFields, JsonField.of, Decoded.map]

theorem readsField_txs : ReadsField fullBlockFields "Txs" FullBlockMsgForMarshal.txs
    (.slice "*types.Transaction_Mx" none mxPointer) where
  names := by decide
  mem := by simp [fullBlockFields, JsonField.of]
  value := by simp [fullBlockFields, JsonField.of, Decoded.map]
  error := by simp [fullBlockFields, JsonField.of]
  other := by simp [fullBlockFields, JsonField.of, Decoded.map]

def LacksInquiryReq (data : JsonText) : Prop :=
  Accepts "mc.HD_ReelectLeaderReqMsg" leaderReqFields zeroLeaderReq data ∧
    (Json.given "InquiryReq" data = none ∨ Json.given "InquiryReq" data = some .null)

def HasNullTx (data : JsonText) : Prop :=
  Accepts "hd.fullBlockMsgForMarshal" fullBlockFields ⟨none, []⟩ data ∧
    Json.null ∈ Json.listed "Txs" data

variable {data : JsonText} {account : Address}

theorem lrReqDecodeFn_panics_iff :
    (∃ text, lrReqDecodeFn data account = .error (.panic text)) ↔ LacksInquiryReq data := by
  rw [lrReqDecodeFn, decodeWith_panics_iff]
  refine and_congr_right fun haccepts => ?_
  rw [← unmarshal_pointer_eq_none_iff readsField_inquiryReq rfl haccepts]
  cases (unmarshal zeroLeaderReq (.struct "mc.HD_ReelectLeaderReqMsg" leaderReqFields)
    data).1.inquiryReq <;> simp [deref, nilDereference]

theorem mapM_setTransactionMx_panics_iff (txs : List (Option MxData)) :
    (∃ text, txs.mapM MxData.setTransactionMx = .error (.panic text)) ↔ none ∈ txs := by
  induction txs with
  | nil => simp
  | cons tx txs ih =>
    cases tx with
    | none => simp [MxData.setTransactionMx, deref, nilDereference]
    | some m =>
      rw [List.mapM_cons, MxData.setTransactionMx, deref_some, ok_bind, pure_eq_ok]
      have hrest : none ∈ some m :: txs ↔ none ∈ txs := by simp
      rw [hrest, ← ih]
      cases txs.mapM MxData.setTransactionMx <;> simp

/-- An element is nil if null was the last to be read into it, and that is what the last list has
for it. -/
theorem blockDecodeFn_panics_iff :
    (∃ text, blockDecodeFn data account = .error (.panic text)) ↔ HasNullTx data := by
  rw [blockDecodeFn, decodeWith_panics_iff]
  refine and_congr_right fun haccepts => ?_
  obtain ⟨htxs, herrors⟩ := unmarshal_slice readsField_txs rfl haccepts
  have hlast : ∀ j, j ∈ Json.listed "Txs" data ↔
      ∃ docs ∈ Json.slotsOf (Json.values "Txs" data), docs.getLast? = some j := by
    intro j
    rw [← List.mem_map, getLast?_slotsOf, List.mem_map_of_injective (Option.some_injective _)]
  have hnone : none ∈ (unmarshal ⟨none, []⟩ (.struct "hd.fullBlockMsgForMarshal" fullBlockFields)
      data).1.txs ↔ Json.null ∈ Json.listed "Txs" data := by
    rw [htxs, List.mem_map, hlast]
    refine exists_congr fun docs => and_congr_right fun hdocs => ?_
    have hsome : docs.getLast? ≠ none := by
      have hmem : docs.getLast? ∈ (Json.listed "Txs" data).map some := by
        rw [← getLast?_slotsOf]
        exact List.mem_map_of_mem hdocs
      obtain ⟨j, -, hj⟩ := List.mem_map.mp hmem
      rw [← hj]
      exact Option.some_ne_none j
    exact (readAll_pointer_eq_none_iff (herrors docs hdocs)).trans (or_iff_right hsome)
  rw [← hnone, ← mapM_setTransactionMx_panics_iff]
  cases (unmarshal ⟨none, []⟩ (.struct "hd.fullBlockMsgForMarshal" fullBlockFields)
    data).1.txs.mapM MxData.setTransactionMx <;> simp

/-- The rest of these codecs is one assignment. -/
theorem decodeFn_panics_iff {codec : MsgCodec} :
    (∃ text, codec.decodeFn data account = .error (.panic text)) ↔
      codec = .lrReq ∧ LacksInquiryReq data ∨
        (codec = .broadcastMiningRsp ∨ codec = .fullBlockRsp) ∧ HasNullTx data := by
  cases codec with
  | lrReq =>
    rw [MsgCodec.decodeFn, map_panics_iff, lrReqDecodeFn_panics_iff]
    simp
  | broadcastMiningRsp =>
    rw [MsgCodec.decodeFn, map_panics_iff, blockDecodeFn_panics_iff]
    simp
  | fullBlockRsp =>
    rw [MsgCodec.decodeFn, map_panics_iff, blockDecodeFn_panics_iff]
    simp
  | _ =>
    rw [MsgCodec.decodeFn, map_panics_iff]
    refine iff_of_false ?_ (by simp)
    intro h
    obtain ⟨_, text, hfinish⟩ := decodeWith_panics_iff.mp h
    cases hfinish

theorem findCodec_eq_ok_iff {subCode : UInt32} {codec : MsgCodec} :
    findCodec subCode = .ok codec ↔ codec.code = subCode.toNat := by
  rw [findCodec]
  constructor
  · intro h
    cases hfind : initCodec.find? fun codec => codec.code == subCode.toNat with
    | none =>
      rw [hfind] at h
      cases h
    | some found =>
      rw [hfind] at h
      cases h
      have hcode := List.find?_some hfind
      exact eq_of_beq hcode
  · intro hcode
    rw [← hcode]
    cases codec <;> rfl

/-- The messages that make a codec dereference nil. -/
def AlgorithmMsg.Crashes (data : AlgorithmMsg) : Prop :=
  data.subCode.toNat = MsgCodec.lrReq.code ∧ LacksInquiryReq data.msg ∨
    (data.subCode.toNat = MsgCodec.broadcastMiningRsp.code ∨
      data.subCode.toNat = MsgCodec.fullBlockRsp.code) ∧ HasNullTx data.msg

/-- No codec has this code, and the error is one that is logged. -/
theorem decodeMsg_panics_iff {data : AlgorithmMsg} :
    (∃ text, decodeMsg data = .error (.panic text)) ↔ data.Crashes := by
  rw [decodeMsg]
  cases hfind : findCodec data.subCode with
  | error e =>
    have hnone : ∀ codec : MsgCodec, data.subCode.toNat ≠ codec.code := by
      intro codec hcode
      rw [findCodec_eq_ok_iff.mpr hcode.symm] at hfind
      cases hfind
    have hlog : ∀ text, e ≠ .panic text := by
      rintro text rfl
      rw [findCodec] at hfind
      split at hfind <;> cases hfind
    refine iff_of_false ?_ ?_
    · rintro ⟨text, h⟩
      exact hlog text (Except.error.inj h)
    · rintro (⟨hcode, _⟩ | ⟨hcode | hcode, _⟩)
      · exact hnone _ hcode
      · exact hnone _ hcode
      · exact hnone _ hcode
  | ok codec =>
    have hcodec : ∀ codec' : MsgCodec, codec = codec' ↔ data.subCode.toNat = codec'.code := by
      intro codec'
      rw [eq_comm, eq_comm (a := data.subCode.toNat), ← findCodec_eq_ok_iff, hfind]
      exact ⟨fun h => by rw [h], fun h => (Except.ok.inj h).symm⟩
    rw [ok_bind, decodeFn_panics_iff, AlgorithmMsg.Crashes, hcodec, hcodec, hcodec]

/-- The dispatcher survives exactly the messages without these shapes, whatever else they lack. -/
theorem receive_returns_iff (msgs : List AlgorithmMsg) :
    (∃ published, receive msgs = .ok published) ↔ ∀ data ∈ msgs, ¬ data.Crashes := by
  induction msgs with
  | nil => simp [receive]
  | cons data rest ih =>
    rw [List.forall_mem_cons, ← decodeMsg_panics_iff, ← ih, receive]
    cases hdecode : decodeMsg data with
    | error e => cases e <;> simp
    | ok msg => cases receive rest <;> simp

/-- A re-election request without anything in it, and a block whose only transaction is null. -/
theorem empty_request_crashes :
    receive [⟨7, 26, some (.object [])⟩] = .error nilDereference ∧
      receive [⟨7, 20, some (.object [("Txs".toList, .array [.null])])⟩] = .error nilDereference :=
  ⟨rfl, rfl⟩

end Panics

end HD

end MatrixNode
