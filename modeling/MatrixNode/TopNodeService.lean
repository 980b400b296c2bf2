import Mathlib.Data.BitVec
import MatrixNode.DposQuorum
import MatrixNode.ReelectMaster
import MatrixNode.SlotRing
import MatrixNode.StepRun

/-! `topnode`: the validators agree on which nodes are online. -/
namespace MatrixNode
open GoLib

/-- A vote in a list of votes. `data` is the variable that the pointer in it points to. -/
structure DPosVoteInfo where
  hash : UInt64
  data : ℕ
  deriving DecidableEq

structure DPosVoteState (Key : Type) where
  hash : Key
  proposal : Option OnlineConsensusReq
  affirmativeVotes : List DPosVoteInfo
  deriving DecidableEq

namespace DPosVoteState
variable {Key : Type} (ds : DPosVoteState Key)

def hasHash [DecidableEq Key] (hash : Key) : Bool := ds.hash = hash

def cleared (hash : Key) : DPosVoteState Key := ⟨hash, none, []⟩

def addProposal (proposal : OnlineConsensusReq) : DPosVoteState Key × Bool :=
  ({ ds with proposal := some proposal },ds.proposal.isSome)

/-- A vote that is in the list already gives no list to count. -/
def addVote (insVote : DPosVoteInfo) : DPosVoteState Key × Option OnlineConsensusReq × List DPosVoteInfo :=
  if ds.affirmativeVotes.any (fun item => item.hash == insVote.hash) then (ds,none,[])
  else
    let votes := ds.affirmativeVotes ++ [insVote]
    ({ ds with affirmativeVotes := votes },ds.proposal,votes)

def getVotes : Option OnlineConsensusReq × List DPosVoteInfo := (ds.proposal,ds.affirmativeVotes)

end DPosVoteState

abbrev DPosVoteRing (Key : Type) (capacity : ℕ) := SlotRing (DPosVoteState Key) capacity

namespace DPosVoteRing
variable {Key : Type}

def newDPosVoteRing [Zero Key] (capacity : ℕ) (hcapacity : 1 ≤ capacity) :
    DPosVoteRing Key capacity :=
  ⟨Vector.replicate capacity (.cleared 0), ⟨capacity-1, Nat.sub_lt hcapacity Nat.one_pos⟩⟩

variable [DecidableEq Key] {capacity : ℕ} (ring : DPosVoteRing Key capacity) (hash : Key)

def findProposal : DPosVoteRing Key capacity × Fin capacity × Bool :=
  ring.findOrTake (fun ds => ds.hasHash hash) (.cleared hash)

/-- To look for votes takes a slot if there are none. -/
def getVotes : DPosVoteRing Key capacity × Option OnlineConsensusReq × List DPosVoteInfo :=
  let (ring,i,_) := ring.findProposal hash
  (ring,(ring.slot i).getVotes)

def addProposal (proposal : OnlineConsensusReq) : DPosVoteRing Key capacity × Bool :=
  let (ring,i,found) := ring.findProposal hash
  let (ds,add) := (ring.slot i).addProposal proposal
  (ring.put i ds,!(found && add))

def addVote (insVote : DPosVoteInfo) : DPosVoteRing Key capacity × Option OnlineConsensusReq × List DPosVoteInfo :=
  let (ring,i,_) := ring.findProposal hash
  let (ds,counted) := (ring.slot i).addVote insVote
  (ring.put i ds,counted)

end DPosVoteRing

structure MessageCheck where
  leader : Address
  curRound : ℕ

namespace MessageCheck
variable (chk : MessageCheck)

def checkRound (round : ℕ) : Bool := chk.curRound ≤ round

def setRound (round : ℕ) : MessageCheck × Bool :=
  if round < chk.curRound then (chk,false)
  else if chk.curRound < round then ({ chk with curRound := round },true)
  else (chk,true)

def checkLeaderChangeNotify (msg : LeaderChangeNotify) : MessageCheck × Bool :=
  if msg.consensusState then
    let round := (msg.number*100+msg.reelectTurn.toNat) % 2^64
    match chk.setRound round with
    | (chk,true) => ({ chk with leader := msg.leader },true)
    | (chk,false) => (chk,false)
  else (chk,false)

def checkOnlineConsensusReq (msg : OnlineConsensusReq) : MessageCheck × Bool := chk.setRound msg.seq

end MessageCheck

structure NodeOnLineInfo where
  address : Address
  onlineState : Vector UInt8 30

def onLine : ℤ := 1

def offLine : ℤ := 2

/-- The last fifteen entries are not 0. -/
def isOnline (state : Vector UInt8 30) : Bool :=
  (List.finRange 15).all fun k => state[29-k.val] != 0

def isOffline (state : Vector UInt8 30) : Bool :=
  (List.finRange 3).all fun k => state[29-k.val] == 0

def getFinishedPropocalHash (node : Address) (state : UInt8) : BitVec 256 :=
  node.setWidth 256 <<< 96 ||| BitVec.ofNat 256 state.toNat <<< 80

structure TopNodeState where
  electNode : GoMap Address UInt8
  onlineNode : GoMap Address UInt8
  offlineNode : GoMap Address UInt8
  finishedProposal : DPosVoteRing (BitVec 256) 64

namespace TopNodeState
variable (ts : TopNodeState)

def setElectNodes (nodes : List Address) : TopNodeState :=
  nodes.foldl (fun ts item => { ts with
    electNode := ts.electNode.insert item 1, onlineNode := ts.onlineNode.insert item 1 })
    { ts with electNode := ∅, onlineNode := ∅, offlineNode := ∅ }

def modifyTopNodeState (online offline : List Address) : TopNodeState :=
  let ts := online.foldl (fun ts item => { ts with
    onlineNode := if item ∈ ts.electNode then ts.onlineNode.insert item 1 else ts.onlineNode
    offlineNode := ts.offlineNode.erase item }) ts
  offline.foldl (fun ts item => { ts with
    onlineNode := ts.onlineNode.erase item
    offlineNode := if item ∈ ts.electNode then ts.offlineNode.insert item 1 else ts.offlineNode }) ts

def isFinishedPropocal (node : Address) (state : ℤ) : TopNodeState × Bool :=
  let (ring,proposal,_) :=
    ts.finishedProposal.getVotes (getFinishedPropocalHash node (UInt8.ofInt state))
  ({ ts with finishedProposal := ring },proposal.isSome)

def changed (node : Address) (state : ℤ) (nodes : List Address) (seen : Bool) :
    TopNodeState × List Address :=
  if seen then
    match ts.isFinishedPropocal node state with
    | (ts,true) => (ts,nodes)
    | (ts,false) => (ts,nodes ++ [node])
  else (ts,nodes)

def newTopNodeState (nodesOnlineInfo : List NodeOnLineInfo) :
    TopNodeState × List Address × List Address :=
  nodesOnlineInfo.foldl (fun (ts,online,offline) value =>
    let (ts,offline) := ts.changed value.address offLine offline
      (decide (value.address ∈ ts.onlineNode) && isOffline value.onlineState)
    let (ts,online) := ts.changed value.address onLine online
      (decide (value.address ∈ ts.offlineNode) && isOnline value.onlineState)
    (ts,online,offline)) (ts,[],[])

end TopNodeState

def checkNode (check : Vector UInt8 30 → Bool) (node : Address)
    (nodesOnlineInfo : List NodeOnLineInfo) : Bool :=
  match nodesOnlineInfo.find? fun item => item.address = node with
  | some item => check item.onlineState
  | none => false

def checkNodeOnline : Address → List NodeOnLineInfo → Bool := checkNode isOnline

def checkNodeOffline : Address → List NodeOnLineInfo → Bool := checkNode isOffline

structure TopNode (Hash : Type) where
  engine : DposEngine Hash
  address : Address
  /-- `types.RlpHash` of a request. -/
  reqHash : OnlineConsensusReq → Hash
  /-- `messageState.RlpFnvHash` of a vote. -/
  voteHash : ConsensusVote Hash → UInt64

structure TopNodeEnv (Hash : Type) where
  reader : ValidatorReader
  orders : DposOrders
  /-- `GetTopNodeOnlineState`. -/
  onlineStates : List NodeOnLineInfo
  signWithValidate : Hash → Bool → Except GoError Signature

structure OwnVote (Hash : Type) where
  vote : ConsensusVote Hash
  validate : Bool
  deriving DecidableEq

inductive WorkItem (Hash : Type)
  /-- `LeaderChangeNotifyHandler`. -/
  | leaderChange (leader : Address)
  /-- One request of `consensusReqMsgHandler`. -/
  | request (item : Option OnlineConsensusReq)
  /-- The end of `consensusReqMsgHandler`. -/
  | sendVotes
  /-- One vote of `consensusVoteMsgHandler`, which is copied into the variable of the loop. -/
  | vote (item : ConsensusVote Hash) (cell : ℕ)
  /-- `consensusVotes`. -/
  | count (proposal : Option OnlineConsensusReq) (votes : List DPosVoteInfo)

structure Goroutine (Hash : Type) where
  todo : List (WorkItem Hash)
  /-- The variable `votes` of `consensusReqMsgHandler`. -/
  votes : List (OwnVote Hash)

inductive TopNodeEffect (Hash : Type)
  | requests (reqs : List OnlineConsensusReq)
  | votes (votes : List (OwnVote Hash))
  /-- A proposal is recorded as finished. -/
  | finished (proposal : OnlineConsensusReq)
  deriving DecidableEq

structure TopNodeService (Hash : Type) where
  stateMap : TopNodeState
  msgCheck : MessageCheck
  dposRing : DPosVoteRing Hash 64
  /-- The loop variables that pointers to votes point to. -/
  cells : ℕ → ConsensusVote Hash
  nextCell : ℕ
  goroutines : List (Goroutine Hash)
  outbox : List (TopNodeEffect Hash)

inductive TopNodeInput (Hash : Type)
  | leaderChange (msg : Option LeaderChangeNotify)
  | requests (reqs : List (Option OnlineConsensusReq))
  | votes (votes : List (ConsensusVote Hash))
  /-- The goroutine with this number goes on. -/
  | go (i : ℕ)
  | setElectNodes (nodes : List Address)
  | modifyTopNodeState (online offline : List Address)

abbrev TopNodeEvent (Hash : Type) := TopNodeEnv Hash × TopNodeInput Hash

def newTopNodeService {Hash : Type} [Zero Hash] : TopNodeService Hash where
  stateMap := ⟨∅, ∅, ∅, DPosVoteRing.newDPosVoteRing 64 (by decide)⟩
  msgCheck := ⟨0, 0⟩
  dposRing := DPosVoteRing.newDPosVoteRing 64 (by decide)
  cells := fun _ => ⟨0, 0, 0, 0⟩
  nextCell := 0
  goroutines := []
  outbox := []

namespace TopNodeService
variable {Hash : Type} (node : TopNode Hash) (env : TopNodeEnv Hash) (serv : TopNodeService Hash)

def send (e : TopNodeEffect Hash) : TopNodeService Hash :=
  { serv with outbox := serv.outbox ++ [e] }

def spawn (todo : List (WorkItem Hash)) : TopNodeService Hash :=
  { serv with goroutines := serv.goroutines ++ [⟨todo, []⟩] }

def sendRequest (online offline : List Address) : TopNodeService Hash :=
  let turn := serv.msgCheck.curRound
  let reqs := online.map (fun item => ⟨node.address, turn, item, onLine⟩) ++
    offline.map (fun item => ⟨node.address, turn, item, offLine⟩)
  if reqs = [] then serv else serv.send (.requests reqs)

def checkTopNodeState : TopNodeService Hash :=
  let (stateMap,online,offline) := serv.stateMap.newTopNodeState env.onlineStates
  { serv with stateMap := stateMap }.sendRequest node online offline

/-- The new leader proposes; the others count the votes of every proposal again. -/
def leaderChangeNotifyHandler (leader : Address) : TopNodeService Hash :=
  if leader = node.address then serv.checkTopNodeState node env
  else
    let counts := (List.finRange 64).map fun i =>
      let (proposal,votes) := (serv.dposRing.slot i).getVotes
      ⟨[.count proposal votes], []⟩
    { serv with goroutines := serv.goroutines ++ counts }

def opinion (req : OnlineConsensusReq) : Bool :=
  if req.onlineState = onLine then checkNodeOnline req.node env.onlineStates
  else checkNodeOffline req.node env.onlineStates

def voteToReq (req : OnlineConsensusReq) : Except GoError (Signature × Hash) :=
  match env.signWithValidate (node.reqHash req) (opinion env req) with
  | .error _ => .error (.error "Vote error")
  | .ok sign => .ok (sign,node.reqHash req)

/-- Everything is counted whatever the round is; the number of the validators' height is fixed. -/
def consensusVotes (proposal : Option OnlineConsensusReq) (votes : List DPosVoteInfo) :
    TopNodeService Hash :=
  match proposal with
  | none => serv
  | some prop =>
    match votes with
    | [] => serv
    | first :: _ =>
      if serv.msgCheck.leader ≠ prop.leader then serv
      else
        let signList := votes.map fun value => (serv.cells value.data).sign
        match node.engine.verifyHashWithNumber env.reader (serv.cells first.data).signHash
            signList 10 env.orders with
        | .error _ => serv
        | .ok _ =>
          let finished := (serv.stateMap.finishedProposal.addProposal
            (getFinishedPropocalHash prop.node (UInt8.ofInt prop.onlineState)) prop).1
          { serv with stateMap := { serv.stateMap with finishedProposal := finished } }.send
            (.finished prop)

def nextWork (i : ℕ) : Option (WorkItem Hash) := serv.goroutines[i]?.bind fun g => g.todo.head?

variable [DecidableEq Hash]

/-- A request of the current round that is new gets a vote. -/
def handleRequest (item : OnlineConsensusReq) : TopNodeService Hash × List (OwnVote Hash) :=
  match serv.msgCheck.checkOnlineConsensusReq item with
  | (_,false) => (serv,[])
  | (msgCheck,true) =>
    match serv.dposRing.addProposal (node.reqHash item) item with
    | (ring,false) => ({ serv with msgCheck := msgCheck, dposRing := ring },[])
    | (ring,true) =>
      let serv := { serv with msgCheck := msgCheck, dposRing := ring }
      match voteToReq node env item with
      | .error _ => (serv,[])
      | .ok (sign,reqHash) => (serv,[⟨⟨reqHash, item.seq, sign, 0⟩, opinion env item⟩])

def handleVote (item : ConsensusVote Hash) (cell : ℕ) :
    TopNodeService Hash × Option OnlineConsensusReq × List DPosVoteInfo :=
  let (ring,counted) := serv.dposRing.addVote item.signHash ⟨node.voteHash item, cell⟩
  ({ serv with dposRing := ring, cells := Function.update serv.cells cell item },counted)

/-- The next piece of work of a goroutine with the given votes: what is left to do first then, and
the votes. -/
def work (votes : List (OwnVote Hash)) (w : WorkItem Hash) :
    Except GoError (TopNodeService Hash × List (WorkItem Hash) × List (OwnVote Hash)) :=
  match w with
  | .leaderChange leader => .ok (serv.leaderChangeNotifyHandler node env leader,[],votes)
  | .request none => .error nilDereference
  | .request (some item) =>
    let (serv,vote) := serv.handleRequest node env item
    .ok (serv,[],votes ++ vote)
  | .sendVotes => .ok (serv.send (.votes votes),[],votes)
  | .vote item cell =>
    let (serv,proposal,counted) := serv.handleVote node item cell
    .ok (serv,[.count proposal counted],votes)
  | .count proposal counted => .ok (serv.consensusVotes node env proposal counted,[],votes)

/-- One turn of the loop `update`, or of a goroutine. -/
def step (serv : TopNodeService Hash) (input : TopNodeEvent Hash) :
    Except GoError (TopNodeService Hash) :=
  match input.2 with
  | .leaderChange none => .error nilDereference
  | .leaderChange (some msg) =>
    match serv.msgCheck.checkLeaderChangeNotify msg with
    | (msgCheck,true) => .ok ({ serv with msgCheck := msgCheck }.spawn [.leaderChange msg.leader])
    | (msgCheck,false) => .ok { serv with msgCheck := msgCheck }
  | .requests reqs =>
    if reqs = [] then .ok serv else .ok (serv.spawn (reqs.map .request ++ [.sendVotes]))
  | .votes votes =>
    if votes = [] then .ok serv
    else
      .ok ({ serv with nextCell := serv.nextCell+1 }.spawn
        (votes.map fun item => .vote item serv.nextCell))
  | .go i =>
    match serv.goroutines[i]? with
    | none => .ok serv
    | some g =>
      match g.todo with
      | [] => .ok serv
      | w :: todo => do
        let (serv,first,votes) ← serv.work node input.1 g.votes w
        pure { serv with goroutines := serv.goroutines.set i ⟨first ++ todo, votes⟩ }
  | .setElectNodes nodes => .ok { serv with stateMap := serv.stateMap.setElectNodes nodes }
  | .modifyTopNodeState online offline =>
    .ok { serv with stateMap := serv.stateMap.modifyTopNodeState online offline }

inductive StepOf (serv serv' : TopNodeService Hash) (env : TopNodeEnv Hash) :
    TopNodeInput Hash → Prop
  | quiet {i : TopNodeInput Hash} (msgCheck : MessageCheck) (stateMap : TopNodeState)
      (h : serv' = { serv with msgCheck := msgCheck, stateMap := stateMap }) :
      StepOf serv serv' env i
  | leaderChange (msg : LeaderChangeNotify) (msgCheck : MessageCheck)
      (h : serv' = { serv with msgCheck := msgCheck }.spawn [.leaderChange msg.leader]) :
      StepOf serv serv' env (.leaderChange (some msg))
  | requests (reqs : List (Option OnlineConsensusReq))
      (h : serv' = serv.spawn (reqs.map .request ++ [.sendVotes])) :
      StepOf serv serv' env (.requests reqs)
  | votes (votes : List (ConsensusVote Hash)) (hne : votes ≠ [])
      (h : serv' = { serv with nextCell := serv.nextCell+1 }.spawn
        (votes.map fun item => .vote item serv.nextCell)) :
      StepOf serv serv' env (.votes votes)
  | go (i : ℕ) (g : Goroutine Hash) (w : WorkItem Hash) (todo first : List (WorkItem Hash))
      (serv₁ : TopNodeService Hash) (votes : List (OwnVote Hash))
      (hg : serv.goroutines[i]? = some g) (htodo : g.todo = w :: todo)
      (hwork : serv.work node env g.votes w = .ok (serv₁,first,votes))
      (h : serv' = { serv₁ with goroutines := serv₁.goroutines.set i ⟨first ++ todo, votes⟩ }) :
      StepOf serv serv' env (.go i)

variable {node serv} {serv' : TopNodeService Hash}

omit [DecidableEq Hash] in
variable (node serv) in
theorem consensusVotes_cases (env : TopNodeEnv Hash) (proposal : Option OnlineConsensusReq)
    (votes : List DPosVoteInfo) :
    serv.consensusVotes node env proposal votes = serv ∨
    ∃ prop first rest stateMap, proposal = some prop ∧ votes = first :: rest ∧
      serv.msgCheck.leader = prop.leader ∧
      node.engine.SignedByQuorum env.reader 10 (serv.cells first.data).signHash
        (votes.map fun v => (serv.cells v.data).sign) ∧
      serv.consensusVotes node env proposal votes =
        { serv with stateMap := stateMap }.send (.finished prop) := by
  unfold consensusVotes
  split
  · exact Or.inl rfl
  · rename_i prop
    split
    · exact Or.inl rfl
    · rename_i first rest
      split_ifs with hleader
      · exact Or.inl rfl
      · dsimp only
        split
        · exact Or.inl rfl
        · rename_i right hverify
          exact Or.inr ⟨prop, first, rest, _, rfl, rfl, not_not.mp hleader,
            DposEngine.verifyHashWithNumber_isOk_iff.mp ⟨right, hverify⟩, rfl⟩

variable (node serv) in
theorem handleRequest_cases (env : TopNodeEnv Hash) (item : OnlineConsensusReq) :
    serv.handleRequest node env item = (serv,[]) ∨
    serv.msgCheck.checkRound item.seq = true ∧ ∃ msgCheck votes,
      serv.handleRequest node env item = ({ serv with
        msgCheck := msgCheck
        dposRing := (serv.dposRing.addProposal (node.reqHash item) item).1 },votes) ∧
      (votes = [] ∨ (serv.dposRing.addProposal (node.reqHash item) item).2 = true ∧
        ∃ sign, votes = [⟨⟨node.reqHash item, item.seq, sign, 0⟩, opinion env item⟩]) := by
  unfold handleRequest
  split
  · exact Or.inl rfl
  · rename_i msgCheck hcheck
    right
    constructor
    · unfold MessageCheck.checkOnlineConsensusReq MessageCheck.setRound at hcheck
      split_ifs at hcheck with hlt
      · cases hcheck
      · exact decide_eq_true (not_lt.mp hlt)
      · exact decide_eq_true (not_lt.mp hlt)
    · refine ⟨msgCheck, ?_⟩
      cases serv.dposRing.addProposal (node.reqHash item) item with
      | mk ring new =>
        cases new with
        | false => exact ⟨[], rfl, Or.inl rfl⟩
        | true =>
          unfold voteToReq
          cases env.signWithValidate (node.reqHash item) (opinion env item) with
          | error err => exact ⟨[], rfl, Or.inl rfl⟩
          | ok sign => exact ⟨_, rfl, Or.inr ⟨rfl, sign, rfl⟩⟩

theorem stepOf_of_step {input : TopNodeEvent Hash}
    (h : serv.step node input = .ok serv') : StepOf node serv serv' input.1 input.2 := by
  obtain ⟨env, i⟩ := input
  unfold step at h
  dsimp only at h ⊢
  split at h
  · cases h
  · rename_i msg
    split at h
    · cases h
      exact .leaderChange msg _ rfl
    · cases h
      exact .quiet _ serv.stateMap rfl
  · rename_i reqs
    split_ifs at h
    · cases h
      exact .quiet serv.msgCheck serv.stateMap rfl
    · cases h
      exact .requests reqs rfl
  · rename_i votes
    split_ifs at h with hne
    · cases h
      exact .quiet serv.msgCheck serv.stateMap rfl
    · cases h
      exact .votes votes hne rfl
  · rename_i i
    split at h
    · cases h
      exact .quiet serv.msgCheck serv.stateMap rfl
    · rename_i g hg
      split at h
      · cases h
        exact .quiet serv.msgCheck serv.stateMap rfl
      · rename_i w todo htodo
        obtain ⟨⟨serv₁, first, votes⟩, hwork, h⟩ := bind_eq_ok_iff.mp h
        cases h
        exact .go i g w todo first serv₁ votes hg htodo hwork rfl
  · cases h
    exact .quiet serv.msgCheck _ rfl
  · cases h
    exact .quiet serv.msgCheck _ rfl

end TopNodeService

end MatrixNode
