import Mathlib.Data.List.GetD
import Mathlib.Data.List.Rotate
import MatrixNode.ChainTypes

/-! `verifier/leaderCal.go`: the validators of a height lead it in turn, starting
after the leader of the last ordinary block. -/
namespace MatrixNode
open GoLib TopologyNodeInfo List

def errValidatorsIsNil : GoError := .error "验证者列表为空"

def errValidatorNotFound : GoError := .error "验证者未找到"

structure LeaderData where
  leader : Address
  nextLeader : Address
  deriving DecidableEq

/-- `leaderCalculator`. The map from turns to accounts has the keys 0, 1, … and is kept
as a list. -/
structure LeaderCalculator where
  number : ℕ
  preLeader : Address
  leaderList : List Address
  validators : List TopologyNodeInfo
  deriving DecidableEq

def newLeaderCalculator (number : ℕ) : LeaderCalculator := ⟨number, 0, [], []⟩

def findLeaderIndex (preLeader : Address) (validators : List TopologyNodeInfo) : Except GoError ℕ :=
  match validators.findIdx? (fun v => v.account == preLeader) with
  | some index => pure index
  | none => throw errValidatorNotFound

/-- A re-election height starts its list at the first validator. -/
def calLeaderList (preLeader : Address) (validators : List TopologyNodeInfo) (number : ℕ) :
    Except GoError (List Address) := do
  let startPos ←
    if isReElectionNumber number = false then do
      let preIndex ← findLeaderIndex preLeader validators
      pure (preIndex+1)
    else pure 0
  let accounts := validators.map account
  pure ((range validators.length).map fun i =>
    accounts.getD ((startPos+i)%validators.length) 0)

namespace LeaderCalculator

/-- `SetValidators`; a nil slice of validators is `none`. After a broadcast block the
leader is taken from the block before it. -/
def setValidators {Hash : Type} (cal : LeaderCalculator) (getHeaderByNumber : ℕ → Option (Header Hash))
    (preLeader : Address) (validators : Option (List TopologyNodeInfo)) :
    Except GoError LeaderCalculator := do
  let some validators := validators
    | throw errValidatorsIsNil
  let preNumber := cal.number-1
  let preLeader ←
    if isBroadcastNumber preNumber ∧ preNumber ≠ 0 then
      match getHeaderByNumber (preNumber-1) with
      | none => throw (.error ("error obtaining the previous block (" ++ toString (preNumber-1) ++
          ") of broadcast block"))
      | some header => pure header.leader
    else pure preLeader
  let leaderList ← calLeaderList preLeader validators cal.number
  pure { cal with preLeader := preLeader, leaderList := leaderList, validators := validators }

def getValidators (cal : LeaderCalculator) : Except GoError TopologyGraph :=
  if cal.validators.length = 0 then throw (.error "validator list is blank")
  else pure ⟨0, cal.validators, 0⟩

/-- The leader of a turn and the one it announces. `broadcastNode` is the first of the
configured broadcast nodes; turns are added with 32-bit overflow. -/
def getLeader (cal : LeaderCalculator) (broadcastNode : Address) (turn : UInt32) :
    Except GoError LeaderData :=
  let leaderCount := cal.leaderList.length
  if leaderCount = 0 then throw errValidatorsIsNil
  else if isReElectionNumber cal.number then
    pure ⟨broadcastNode, cal.leaderList.getD (turn.toNat%leaderCount) 0⟩
  else if isBroadcastNumber cal.number then
    pure ⟨broadcastNode, cal.leaderList.getD (turn.toNat%leaderCount) 0⟩
  else
    let leader := cal.leaderList.getD (turn.toNat%leaderCount) 0
    if isBroadcastNumber (cal.number+1) then pure ⟨leader, broadcastNode⟩
    else pure ⟨leader, cal.leaderList.getD ((turn+1).toNat%leaderCount) 0⟩

end LeaderCalculator

theorem findLeaderIndex_eq (preLeader : Address) (validators : List TopologyNodeInfo) :
    findLeaderIndex preLeader validators = if preLeader ∈ validators.map account then
        .ok ((validators.map account).idxOf preLeader)
      else .error errValidatorNotFound := by
  have hfind : validators.findIdx? (fun v => v.account == preLeader) =
      if preLeader ∈ validators.map account then
        some ((validators.map account).idxOf preLeader) else none := by
    induction validators with
    | nil => simp
    | cons v vs ih =>
      rw [findIdx?_cons, ih, map_cons, idxOf_cons]
      by_cases hv : v.account = preLeader
      · simp [hv]
      · have hv' : ¬ preLeader = v.account := fun h => hv h.symm
        simp only [beq_false_of_ne hv, mem_cons, hv', false_or, Bool.false_eq_true, if_false,
          cond_false]
        split_ifs <;> rfl
  unfold findLeaderIndex
  rw [hfind]
  split_ifs <;> rfl

def startPosition (preLeader : Address) (accounts : List Address) (number : ℕ) : Option ℕ :=
  if isReElectionNumber number then some 0
  else if preLeader ∈ accounts then some (accounts.idxOf preLeader+1)
  else none

/-- The loop indexes the accounts modulo their number, which is a rotation. -/
theorem calLeaderList_eq (preLeader : Address) (validators : List TopologyNodeInfo) (number : ℕ) :
    calLeaderList preLeader validators number =
      match startPosition preLeader (validators.map account) number with
      | some startPos => .ok ((validators.map account).rotate startPos)
      | none => .error errValidatorNotFound := by
  have hrot (s : ℕ) : ((range validators.length).map fun i =>
      (validators.map account).getD ((s+i)%validators.length) 0) =
      (validators.map account).rotate s := by
    apply ext_getElem
    · simp
    · intro i hi hi'
      have hi : i < validators.length := by simpa using hi
      have hm : (s+i)%validators.length < validators.length := Nat.mod_lt _ (by omega)
      simp [getD_eq_getElem?_getD, hm, Nat.add_comm i s]
  unfold calLeaderList startPosition
  rw [findLeaderIndex_eq]
  by_cases hr : isReElectionNumber number = true
  · simp only [hr, Bool.true_eq_false, if_false, if_true, pure_eq_ok, ok_bind, hrot]
  · simp only [hr, Bool.false_eq_true, if_false, if_true]
    split_ifs
    · simp only [pure_eq_ok, ok_bind, hrot]
    · rfl

theorem LeaderCalculator.getLeader_eq {cal : LeaderCalculator} (h : 0 < cal.leaderList.length)
    (broadcastNode : Address) (turn : UInt32) :
    cal.getLeader broadcastNode turn = .ok (
      let due (k : ℕ) := cal.leaderList.getD (k%cal.leaderList.length) 0
      if isBroadcastNumber cal.number then ⟨broadcastNode, due turn.toNat⟩
      else if isBroadcastNumber (cal.number+1) then ⟨due turn.toNat, broadcastNode⟩
      else ⟨due turn.toNat, due (turn+1).toNat⟩) := by
  unfold LeaderCalculator.getLeader
  rw [if_neg (by omega)]
  by_cases hr : isReElectionNumber cal.number = true
  · rw [if_pos hr, if_pos (isBroadcastNumber_of_isReElectionNumber hr)]
    rfl
  · split_ifs <;> rfl

namespace LeaderCalculator
variable {Hash : Type} {cal cal' : LeaderCalculator}

/-- The leader of the block before a broadcast block stands in for the one that was given. -/
theorem setValidators_eq_ok {getHeaderByNumber : ℕ → Option (Header Hash)} {preLeader : Address}
    {validators : Option (List TopologyNodeInfo)}
    (h : cal.setValidators getHeaderByNumber preLeader validators = .ok cal') :
    ∃ vs preLeader', validators = some vs ∧
      calLeaderList preLeader' vs cal.number = .ok cal'.leaderList ∧ cal'.number = cal.number := by
  unfold setValidators at h
  cases validators with
  | none => cases h
  | some vs =>
    have hset : ∃ preLeader', (do
        let leaderList ← calLeaderList preLeader' vs cal.number
        pure { cal with preLeader := preLeader', leaderList := leaderList, validators := vs }) =
          Except.ok cal' := by
      dsimp only at h
      split_ifs at h
      · split at h
        · cases h
        · exact ⟨_, h⟩
      · exact ⟨_, h⟩
    obtain ⟨preLeader', hset⟩ := hset
    obtain ⟨list, hlist, hset⟩ := bind_eq_ok_iff.mp hset
    cases hset
    exact ⟨vs, preLeader', rfl, hlist, rfl⟩

/-- On an ordinary height every validator leads once in any run of as many turns as there are
validators. -/
theorem turns_perm_validators {getHeaderByNumber : ℕ → Option (Header Hash)} {preLeader : Address}
    {validators : List TopologyNodeInfo}
    (hset : cal.setValidators getHeaderByNumber preLeader (some validators) = .ok cal')
    (hb : isBroadcastNumber cal.number = false) {turn : ℕ} (hturn : turn+validators.length ≤ 2^32)
    (broadcastNode : Address) :
    ((range validators.length).map fun i => (cal'.getLeader broadcastNode
      (UInt32.ofNat (turn+i))).toOption.map LeaderData.leader).Perm
      (validators.map fun v => some v.account) := by
  obtain ⟨vs, preLeader', hvs, hlist, hnumber⟩ := setValidators_eq_ok hset
  cases hvs
  rw [calLeaderList_eq] at hlist
  split at hlist
  · rename_i startPos _
    injection hlist with hlist
    have hlen : cal'.leaderList.length = validators.length := by simp [← hlist]
    have hwindow : ((range validators.length).map fun i => (cal'.getLeader broadcastNode
        (UInt32.ofNat (turn+i))).toOption.map LeaderData.leader) =
        (cal'.leaderList.rotate turn).map some := by
      apply ext_getElem
      · simp [hlen]
      · intro i hi _
        have hi : i < validators.length := by simpa using hi
        have hpos : 0 < cal'.leaderList.length := by omega
        have hm : (turn+i)%cal'.leaderList.length < cal'.leaderList.length := Nat.mod_lt _ hpos
        have hwrap : (UInt32.ofNat (turn+i)).toNat = turn+i := Nat.mod_eq_of_lt (by omega)
        simp only [getElem_map, getElem_range, getLeader_eq hpos, hnumber, hb, hwrap,
          Bool.false_eq_true, if_false, Except.toOption, Option.map_some]
        split_ifs <;> simp [getElem_rotate, hm, Nat.add_comm i turn]
    rw [hwindow, ← hlist, rotate_rotate, ← map_rotate, map_map]
    exact (rotate_perm validators _).map _
  · cases hlist

/-- Three validators take the turns `2` to `4` of height `7`, which follows a block of the second. -/
theorem turns_perm_three_validators :
    let cal : LeaderCalculator := ⟨7, 2, [3,1,2], [1,2,3].map fun a => ⟨a, 0, .validator, 1, 0⟩⟩
    ((range 3).map fun i => (cal.getLeader 100 (UInt32.ofNat (2+i))).toOption.map
      LeaderData.leader).Perm [some 1,some 2,some 3] := by
  intro cal
  have hset : (newLeaderCalculator 7).setValidators (fun _ => (none : Option (Header ℕ))) 2
      (some cal.validators) = .ok cal := by
    decide +kernel
  exact turns_perm_validators hset (by decide) (by decide) 100

end LeaderCalculator

end MatrixNode
