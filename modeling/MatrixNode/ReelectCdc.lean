import MatrixNode.DposEngine
import MatrixNode.LeaderCalculator

/-! `verifier/cdc.go` and `verifier/trunTimes.go`: the consensus data of one height,
its turns, their times and their leaders. -/
namespace MatrixNode
open GoLib

def lrsParentMiningTime : ℤ := 20

def lrsPOSOutTime : ℤ := 20

def lrsReelectOutTime : ℤ := 40

def lrsReelectInterval : ℤ := 5

inductive CtrlState where
  | stIdle
  | stPos
  | stReelect
  | stMining
  deriving DecidableEq

structure TurnTimes where
  beginTimes : GoMap UInt32 ℤ

namespace TurnTimes
variable (tt : TurnTimes)

/-- A begin time is only ever replaced by a later one; the flag tells whether it was
recorded. -/
def setBeginTime (consensusTurn : UInt32) (time : ℤ) : TurnTimes × Bool :=
  match tt.beginTimes.lookup consensusTurn with
  | some oldTime =>
    if time ≤ oldTime then (tt, false) else (⟨tt.beginTimes.insert consensusTurn time⟩, true)
  | none => (⟨tt.beginTimes.insert consensusTurn time⟩, true)

def getBeginTime (consensusTurn : UInt32) : ℤ := (tt.beginTimes.lookup consensusTurn).getD 0

def posTime (consensusTurn : UInt32) : ℤ :=
  if consensusTurn = 0 then lrsPOSOutTime+lrsParentMiningTime else lrsPOSOutTime

def getPosEndTime (consensusTurn : UInt32) : ℤ :=
  int64 (tt.getBeginTime consensusTurn+posTime consensusTurn)

/-- State, remaining time and re-election turn at a time. Go's division truncates. -/
def calState (consensusTurn : UInt32) (time : ℤ) : CtrlState × ℤ × UInt32 :=
  let passTime := int64 (time-tt.getBeginTime consensusTurn)
  if passTime < posTime consensusTurn then (.stPos, int64 (posTime consensusTurn-passTime), 0)
  else
    let lateTime := passTime-posTime consensusTurn
    let remainTime := lateTime.tmod lrsReelectOutTime
    (.stReelect, if remainTime = 0 then lrsReelectOutTime else remainTime,
      UInt32.ofInt (lateTime.tdiv lrsReelectOutTime)+1)

def calRemainTime (consensusTurn reelectTurn : UInt32) (time : ℤ) : ℤ :=
  let deadLine := int64 (tt.getBeginTime consensusTurn+posTime consensusTurn+
    reelectTurn.toNat*lrsReelectOutTime)
  int64 (deadLine-time)

end TurnTimes

structure Cdc where
  state : CtrlState
  number : ℕ
  curConsensusTurn : UInt32
  consensusLeader : Address
  curReelectTurn : UInt32
  reelectMaster : Address
  leaderCal : LeaderCalculator
  turnTime : TurnTimes

structure LeaderChangeNotify where
  consensusState : Bool
  leader : Address
  nextLeader : Address
  number : ℕ
  consensusTurn : UInt32
  reelectTurn : UInt32
  turnBeginTime : ℤ
  turnEndTime : ℤ
  deriving DecidableEq

def newCDC (number : ℕ) : Cdc where
  state := .stIdle
  number := number
  curConsensusTurn := 0
  consensusLeader := 0
  curReelectTurn := 0
  reelectMaster := 0
  leaderCal := newLeaderCalculator number
  turnTime := ⟨∅⟩

namespace Cdc

section Turns
variable (dc : Cdc) (broadcastNode : Address)

def getLeader (turn : UInt32) : Except GoError Address :=
  LeaderData.leader <$> dc.leaderCal.getLeader broadcastNode turn

/-- The list of turns is replaced before the leaders are looked up, and stays replaced when one of
them is not found. -/
def setValidators {Hash : Type} (getHeaderByNumber : ℕ → Option (Header Hash)) (preLeader : Address)
    (validators : Option (List TopologyNodeInfo)) : Cdc × Except GoError Unit :=
  match dc.leaderCal.setValidators getHeaderByNumber preLeader validators with
  | .error err => (dc, .error err)
  | .ok leaderCal =>
    let dc := { dc with leaderCal := leaderCal }
    match dc.getLeader broadcastNode dc.curConsensusTurn with
    | .error err => (dc, .error err)
    | .ok consensusLeader =>
      if dc.curReelectTurn ≠ 0 then
        match dc.getLeader broadcastNode (dc.curConsensusTurn+dc.curReelectTurn) with
        | .error err => (dc, .error err)
        | .ok reelectLeader =>
          ({ dc with reelectMaster := reelectLeader, consensusLeader := consensusLeader }, .ok ())
      else ({ dc with reelectMaster := 0, consensusLeader := consensusLeader }, .ok ())

def setConsensusTurn (consensusTurn : UInt32) : Except GoError Cdc :=
  match dc.getLeader broadcastNode consensusTurn with
  | .error err => .error (.error ("获取共识leader错误(" ++ err.text ++ "), 共识轮次(" ++
      toString consensusTurn ++ ")"))
  | .ok consensusLeader => .ok { dc with
      consensusLeader := consensusLeader, curConsensusTurn := consensusTurn
      reelectMaster := 0, curReelectTurn := 0 }

def setReelectTurn (reelectTurn : UInt32) : Except GoError Cdc :=
  if dc.curReelectTurn = reelectTurn then .ok dc
  else if reelectTurn = 0 then .ok { dc with reelectMaster := 0, curReelectTurn := 0 }
  else
    match dc.getLeader broadcastNode (dc.curConsensusTurn+reelectTurn) with
    | .error err => .error (.error ("获取master错误(" ++ err.text ++ "), 重选轮次(" ++
        toString reelectTurn ++ "), 共识轮次(" ++ toString dc.curConsensusTurn ++ ")"))
    | .ok master => .ok { dc with reelectMaster := master, curReelectTurn := reelectTurn }

def prepareLeaderMsg : Except GoError LeaderChangeNotify := do
  let leaders ← dc.leaderCal.getLeader broadcastNode (dc.curConsensusTurn+dc.curReelectTurn)
  pure {
    leader := leaders.leader
    nextLeader := leaders.nextLeader
    consensusTurn := dc.curConsensusTurn
    reelectTurn := dc.curReelectTurn
    number := dc.number
    consensusState := dc.state ≠ .stReelect
    turnBeginTime := dc.turnTime.getBeginTime dc.curConsensusTurn
    turnEndTime := dc.turnTime.getPosEndTime dc.curConsensusTurn }

end Turns

/-- The graph of the parent, which the chain may not have yet, is the one the
controller was started with. -/
def getValidatorByNumber (dc : Cdc) (chain : ℕ → Except GoError TopologyGraph) (number : ℕ) :
    Except GoError TopologyGraph :=
  if dc.number ≤ number then .error (.error "获取验证者列表错误,高度过高")
  else
    match chain number with
    | .ok validators => .ok validators
    | .error err => if number = dc.number-1 then dc.leaderCal.getValidators else .error err

def reader (dc : Cdc) (chain : ℕ → Except GoError TopologyGraph) : ValidatorReader where
  getCurrentNumber := dc.number-1
  getValidatorByNumber := dc.getValidatorByNumber chain

end Cdc

end MatrixNode
