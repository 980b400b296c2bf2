import MatrixNode.LeaderCalculator

/-! Two consecutive heights compute their leaders independently. The one announced
at a height leads the next height as long as the lists of both put the same account
after the last ordinary leader. -/
namespace MatrixNode
open GoLib LeaderCalculator List

structure LeaderChain (Hash : Type) where
  header : ℕ → Header Hash
  validators : ℕ → List TopologyNodeInfo
  validators_ne : ∀ n, validators n ≠ []

namespace LeaderChain
variable {Hash : Type} (ch : LeaderChain Hash)

def accounts (n : ℕ) : List Address := (ch.validators n).map TopologyNodeInfo.account

def calculatorAt (n : ℕ) : Except GoError LeaderCalculator :=
  (newLeaderCalculator n).setValidators (fun k => some (ch.header k)) (ch.header (n-1)).leader
    (some (ch.validators n))

/-- The leader of the last block before height `n` that was not a broadcast block. -/
def lastLeader (n : ℕ) : Address :=
  if isBroadcastNumber (n-1) ∧ n-1 ≠ 0 then (ch.header (n-2)).leader else (ch.header (n-1)).leader

def Succeeds (broadcastNode : Address) (n : ℕ) (announced : LeaderData) : Prop :=
  ∃ cal leaders, ch.calculatorAt (n+1) = .ok cal ∧ cal.getLeader broadcastNode 0 = .ok leaders ∧
    leaders.leader = announced.nextLeader

def follower (l : List Address) (a : Address) : Option Address :=
  if a ∈ l then l[(l.idxOf a+1)%l.length]? else none

/-- The account whose turn comes after turn `t` of height `n`: at a re-election height
the first validator, at another broadcast height the one after the last leader. -/
def dueAccount (n : ℕ) (t : UInt32) : Option Address :=
  if isReElectionNumber n then (ch.accounts n).head?
  else if isBroadcastNumber n then follower (ch.accounts n) (ch.lastLeader n)
  else (ch.accounts n)[((ch.accounts n).idxOf (ch.lastLeader n)+1+(t+1).toNat)%
    (ch.accounts n).length]?

/-- What the next height needs to have the due account as its leader. -/
def SuccessorDue (n : ℕ) (t : UInt32) : Prop :=
  if isReElectionNumber (n+1) then True
  else if isBroadcastNumber (n+1) then (ch.header n).leader ∈ ch.accounts (n+1)
  else follower (ch.accounts (n+1)) (ch.lastLeader (n+1)) = ch.dueAccount n t

theorem accounts_length_pos (n : ℕ) : 0 < (ch.accounts n).length := by
  rw [accounts, length_map]
  exact length_pos_of_ne_nil (ch.validators_ne n)

variable {ch}

theorem calculatorAt_eq (n : ℕ) :
    ch.calculatorAt n = match startPosition (ch.lastLeader n) (ch.accounts n) n with
      | some s => .ok ⟨n, ch.lastLeader n, (ch.accounts n).rotate s, ch.validators n⟩
      | none => .error errValidatorNotFound := by
  have hcal : ch.calculatorAt n =
      (calLeaderList (ch.lastLeader n) (ch.validators n) n >>= fun list =>
        .ok ⟨n, ch.lastLeader n, list, ch.validators n⟩) := by
    simp only [calculatorAt, setValidators, newLeaderCalculator, lastLeader,
      pure_eq_ok, ok_bind, Nat.sub_sub]
    split_ifs <;> rfl
  rw [hcal, calLeaderList_eq, accounts]
  cases startPosition (ch.lastLeader n) ((ch.validators n).map TopologyNodeInfo.account) n <;> rfl

theorem rotate_getD {l : List Address} {s k : ℕ} (hk : k < l.length) :
    (l.rotate s).getD k 0 = l.getD ((s+k)%l.length) 0 := by
  rw [getD_eq_getElem?_getD, getElem?_rotate hk, getD_eq_getElem?_getD, Nat.add_comm]

theorem getElem?_eq_getD {l : List Address} {k : ℕ} (hk : k < l.length) :
    l[k]? = some (l.getD k 0) := by
  rw [getD_eq_getElem?_getD, getElem?_eq_getElem hk, Option.getD_some]

theorem turn_account (ch : LeaderChain Hash) (n s k : ℕ) :
    ((ch.accounts n).rotate s).getD (k%((ch.accounts n).rotate s).length) 0 =
      (ch.accounts n).getD ((s+k)%(ch.accounts n).length) 0 := by
  rw [length_rotate, rotate_getD (Nat.mod_lt _ (ch.accounts_length_pos n)), Nat.add_mod_mod]

theorem startPosition_isSome_iff (preLeader : Address) (l : List Address) (n : ℕ) :
    (∃ s, startPosition preLeader l n = some s) ↔ isReElectionNumber n = true ∨ preLeader ∈ l := by
  unfold startPosition
  split_ifs with h1 h2 <;> simp [*]

theorem lastLeader_succ {n : ℕ} (h : isBroadcastNumber n = false) :
    ch.lastLeader (n+1) = (ch.header n).leader := by
  simp [lastLeader, h]

section Step
variable {broadcastNode : Address} {n s : ℕ} {t : UInt32} {leaders : LeaderData}

/-- A height can start when its starting position is found, and its first leader
is the broadcast node or the account there. -/
theorem succeeds_iff_start :
    ch.Succeeds broadcastNode n leaders ↔
      ∃ s', startPosition (ch.lastLeader (n+1)) (ch.accounts (n+1)) (n+1) = some s' ∧
        (if isBroadcastNumber (n+1) then broadcastNode
          else (ch.accounts (n+1)).getD (s'%(ch.accounts (n+1)).length) 0) = leaders.nextLeader := by
  have hpos := ch.accounts_length_pos (n+1)
  have hleader (s' : ℕ) : ∃ l : LeaderData, getLeader
        ⟨n+1, ch.lastLeader (n+1), (ch.accounts (n+1)).rotate s', ch.validators (n+1)⟩
        broadcastNode 0 = .ok l ∧
      l.leader = if isBroadcastNumber (n+1) then broadcastNode
        else (ch.accounts (n+1)).getD (s'%(ch.accounts (n+1)).length) 0 := by
    refine ⟨_, getLeader_eq (by simpa using hpos) _ _, ?_⟩
    have hturn := turn_account ch (n+1) s' 0
    split_ifs
    · rfl
    · exact hturn
    · exact hturn
  unfold Succeeds
  rw [calculatorAt_eq]
  rcases hs : startPosition (ch.lastLeader (n+1)) (ch.accounts (n+1)) (n+1) with _ | s'
  · simp
  · obtain ⟨l, hl, hlead⟩ := hleader s'
    simp only [Except.ok.injEq, Option.some.injEq, exists_and_left, exists_eq_left', hl, hlead]

theorem dueAccount_eq (ht : isBroadcastNumber n = true → t = 0)
    (hs : startPosition (ch.lastLeader n) (ch.accounts n) n = some s) :
    ch.dueAccount n t = some ((ch.accounts n).getD
      ((s+(if isBroadcastNumber n then t.toNat else (t+1).toNat))%(ch.accounts n).length) 0) := by
  have hpos := ch.accounts_length_pos n
  unfold startPosition at hs
  unfold dueAccount follower
  by_cases hr : isReElectionNumber n = true
  · have hb := isBroadcastNumber_of_isReElectionNumber hr
    rw [if_pos hr] at hs ⊢
    cases hs
    rw [ht hb, if_pos hb, head?_eq_getElem?, getElem?_eq_getD hpos]
    simp
  · rw [if_neg hr] at hs ⊢
    split_ifs at hs with hm
    cases hs
    by_cases hb : isBroadcastNumber n = true
    · rw [if_pos hb, if_pos hm, if_pos hb, ht hb, getElem?_eq_getD (Nat.mod_lt _ hpos)]
      rfl
    · rw [if_neg hb, if_neg hb, getElem?_eq_getD (Nat.mod_lt _ hpos)]

variable {cal : LeaderCalculator}

theorem exists_start_of_getLeader (hcal : ch.calculatorAt n = .ok cal)
    (hget : cal.getLeader broadcastNode t = .ok leaders) :
    ∃ s, startPosition (ch.lastLeader n) (ch.accounts n) n = some s ∧
      leaders.leader = (if isBroadcastNumber n then broadcastNode
        else (ch.accounts n).getD ((s+t.toNat)%(ch.accounts n).length) 0) ∧
      leaders.nextLeader = if isBroadcastNumber n then
          (ch.accounts n).getD ((s+t.toNat)%(ch.accounts n).length) 0
        else if isBroadcastNumber (n+1) then broadcastNode
        else (ch.accounts n).getD ((s+(t+1).toNat)%(ch.accounts n).length) 0 := by
  have hpos := ch.accounts_length_pos n
  rw [calculatorAt_eq] at hcal
  rcases hs : startPosition (ch.lastLeader n) (ch.accounts n) n with _ | s
  · rw [hs] at hcal
    cases hcal
  rw [hs] at hcal
  cases hcal
  rw [getLeader_eq (by simpa using hpos)] at hget
  simp only [turn_account, Except.ok.injEq] at hget
  refine ⟨s, rfl, ?_, ?_⟩
  · rw [← hget]
    split_ifs <;> rfl
  · rw [← hget]
    split_ifs <;> rfl

theorem succeeds_iff_due (hcal : ch.calculatorAt n = .ok cal)
    (hget : cal.getLeader broadcastNode t = .ok leaders) (ht : isBroadcastNumber n = true → t = 0) :
    ch.Succeeds broadcastNode n leaders ↔ ch.SuccessorDue n t := by
  obtain ⟨s, hs, -, hnext⟩ := exists_start_of_getLeader hcal hget
  rw [succeeds_iff_start, SuccessorDue]
  by_cases hb : isBroadcastNumber (n+1) = true
  · have hn := isBroadcastNumber_of_succ hb
    simp only [hn, hb, Bool.false_eq_true, if_false, if_true] at hnext ⊢
    simp only [hnext, and_true, startPosition_isSome_iff, lastLeader_succ hn]
    split_ifs with hr <;> simp [hr]
  · have hr : ¬ isReElectionNumber (n+1) = true :=
      fun h => hb (isBroadcastNumber_of_isReElectionNumber h)
    have hdue : ch.dueAccount n t = some leaders.nextLeader := by
      rw [dueAccount_eq ht hs, hnext]
      split_ifs <;> rfl
    have hpos := ch.accounts_length_pos (n+1)
    rw [if_neg hb, hdue, startPosition, if_neg hr, follower]
    split_ifs with hm
    · rw [getElem?_eq_getD (Nat.mod_lt _ hpos)]
      simp
    · simp

theorem lastLeader_succ_of_isBroadcastNumber (hn : 1 ≤ n) (hb : isBroadcastNumber n = true) :
    ch.lastLeader (n+1) = ch.lastLeader n := by
  have hprev : isBroadcastNumber (n-1) = false :=
    isBroadcastNumber_of_succ (by rw [Nat.sub_add_cancel hn, hb])
  simp [lastLeader, hb, hprev, Nat.ne_of_gt hn]

theorem follower_getD {l : List Address} (hnodup : l.Nodup) (hpos : 0 < l.length) (k : ℕ) :
    follower l (l.getD (k%l.length) 0) = l[(k+1)%l.length]? := by
  have hlt : k%l.length < l.length := Nat.mod_lt _ hpos
  unfold follower
  rw [getD_eq_getElem _ _ hlt, if_pos (getElem_mem hlt), hnodup.idxOf_getElem,
    Nat.mod_add_mod]

/-- The block of height `n` was led as its calculator says, in a turn that has a next one, and none
of the validators comes twice. -/
structure LedBy (ch : LeaderChain Hash) (n : ℕ) (t : UInt32) (leaders : LeaderData) : Prop where
  led : leaders.leader = (ch.header n).leader
  positive : 1 ≤ n
  nodup : (ch.accounts n).Nodup
  turn : t.toNat+1 < 2^32
  ordinary : isReElectionNumber n = false

/-- The account that is due after such a block is the one behind the last leader. A broadcast block
leaves the last leader as it was. -/
theorem dueAccount_eq_follower (hcal : ch.calculatorAt n = .ok cal)
    (hget : cal.getLeader broadcastNode t = .ok leaders) (h : ch.LedBy n t leaders) :
    ch.dueAccount n t = follower (ch.accounts n) (ch.lastLeader (n+1)) ∧
      ch.lastLeader (n+1) ∈ ch.accounts n := by
  have hpos := ch.accounts_length_pos n
  obtain ⟨s, hs, hleader, -⟩ := exists_start_of_getLeader hcal hget
  simp only [startPosition, h.ordinary, Bool.false_eq_true, if_false] at hs
  split_ifs at hs with hm
  cases hs
  cases hb : isBroadcastNumber n with
  | true =>
    rw [lastLeader_succ_of_isBroadcastNumber h.positive hb]
    exact ⟨by simp [dueAccount, h.ordinary, hb], hm⟩
  | false =>
    rw [hb, if_neg (by decide), h.led] at hleader
    have hturn : (t+1).toNat = t.toNat+1 := Nat.mod_eq_of_lt h.turn
    rw [lastLeader_succ hb, hleader, follower_getD h.nodup hpos, dueAccount, h.ordinary, hb, hturn]
    refine ⟨rfl, ?_⟩
    rw [getD_eq_getElem _ _ (Nat.mod_lt _ hpos)]
    exact getElem_mem _

/-- Leader succession holds exactly when the due account comes after the last leader in the list of
the next height. Where the block was led as the calculator says, that is to have the same account after
the last leader as the list before. -/
theorem succeeds_iff {cal : LeaderCalculator} (hcal : ch.calculatorAt n = .ok cal)
    (hget : cal.getLeader broadcastNode t = .ok leaders)
    (ht : isBroadcastNumber n = true → t = 0) :
    (ch.Succeeds broadcastNode n leaders ↔ ch.SuccessorDue n t) ∧
    (ch.LedBy n t leaders → isBroadcastNumber (n+1) = false →
      (ch.Succeeds broadcastNode n leaders ↔
        follower (ch.accounts (n+1)) (ch.lastLeader (n+1)) =
          follower (ch.accounts n) (ch.lastLeader (n+1)))) := by
  have hdue := succeeds_iff_due hcal hget ht
  refine ⟨hdue, fun h hb => ?_⟩
  have hr : ¬ isReElectionNumber (n+1) = true := by
    intro hr
    rw [isBroadcastNumber_of_isReElectionNumber hr] at hb
    cases hb
  rw [hdue, SuccessorDue, if_neg hr, hb, if_neg (by decide), (dueAccount_eq_follower hcal hget h).1]

/-- A validator set that stays as it is keeps the order of leaders, except at a re-election height:
the next height starts, and its first leader is the one that was announced. -/
theorem succeeds_of_stable (hcal : ch.calculatorAt n = .ok cal)
    (hget : cal.getLeader broadcastNode t = .ok leaders) (ht : isBroadcastNumber n = true → t = 0)
    (h : ch.LedBy n t leaders) (hstable : ch.accounts (n+1) = ch.accounts n) :
    ∃ cal' leaders', ch.calculatorAt (n+1) = .ok cal' ∧
      cal'.getLeader broadcastNode 0 = .ok leaders' ∧ leaders'.leader = leaders.nextLeader := by
  obtain ⟨hfollow, hmem⟩ := dueAccount_eq_follower hcal hget h
  refine (succeeds_iff_due hcal hget ht).mpr ?_
  unfold SuccessorDue
  split_ifs with hr hb
  · rw [← lastLeader_succ (isBroadcastNumber_of_succ hb), hstable]
    exact hmem
  · rw [hstable, hfollow]

end Step

def sampleChain : LeaderChain ℕ where
  header := fun k => { emptyHeader with
    leader := if k = 60 then 100 else BitVec.ofNat 160 (k%3+1), number := k, time := k }
  validators := fun n =>
    (if n < 60 then [1,2,3] else [4,5,6]).map fun a => ⟨a, 0, .validator, 1, 0⟩
  validators_ne := fun n => by split_ifs <;> simp

/-- Height 21 comes after a broadcast block and was led in its second turn. -/
theorem succeeds_of_stable_height_21 : ∃ cal leaders, sampleChain.calculatorAt 22 = .ok cal ∧
    cal.getLeader 100 0 = .ok leaders ∧ leaders.leader = 2 := by
  have hcal : sampleChain.calculatorAt 21 = .ok ⟨21, 2, [3,1,2], sampleChain.validators 21⟩ := by
    decide +kernel
  have hget : getLeader ⟨21, 2, [3,1,2], sampleChain.validators 21⟩ 100 1 = .ok ⟨1, 2⟩ := by
    decide +kernel
  exact succeeds_of_stable hcal hget (by decide) ⟨rfl, by decide, by decide, by decide, by decide⟩ rfl

theorem succeeds_height_two : sampleChain.Succeeds 100 1 ⟨2, 3⟩ := by
  have hcal : sampleChain.calculatorAt 1 = .ok ⟨1, 1, [2,3,1], sampleChain.validators 1⟩ := by
    decide +kernel
  have hget : getLeader ⟨1, 1, [2,3,1], sampleChain.validators 1⟩ 100 0 = .ok ⟨2, 3⟩ := by
    decide +kernel
  have hdue : sampleChain.SuccessorDue 1 0 := by
    unfold SuccessorDue
    decide +kernel
  exact (succeeds_iff hcal hget (by decide)).1.mpr hdue

/-- At a re-election height the announced leader is the first of the new validators,
but the next height looks for the last leader of the old ones. -/
theorem re_election_breaks_succession :
    ∃ cal leaders, sampleChain.calculatorAt 60 = .ok cal ∧ cal.getLeader 100 0 = .ok leaders ∧
      leaders.leader = (sampleChain.header 60).leader ∧ ¬ sampleChain.Succeeds 100 60 leaders := by
  refine ⟨⟨60, 3, [4,5,6], sampleChain.validators 60⟩, ⟨100, 4⟩, by decide +kernel,
    by decide +kernel, by decide +kernel, ?_⟩
  have hnone : startPosition (sampleChain.lastLeader 61) (sampleChain.accounts 61) 61 = none := by
    decide +kernel
  rw [succeeds_iff_start, hnone]
  simp

end LeaderChain

end MatrixNode
