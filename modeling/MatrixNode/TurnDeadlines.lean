import MatrixNode.ReelectCdc

/-! When a turn ends. -/
namespace MatrixNode
open GoLib

namespace TurnTimes
variable (tt : TurnTimes) (consensusTurn : UInt32) (time : ℤ)

theorem posTime_pos : 0 < posTime consensusTurn := by
  unfold posTime lrsPOSOutTime lrsParentMiningTime
  split_ifs <;> decide

theorem posTime_le : posTime consensusTurn ≤ 40 := by
  unfold posTime lrsPOSOutTime lrsParentMiningTime
  split_ifs <;> decide

def lateTime : ℤ := int64 (time-tt.getBeginTime consensusTurn)-posTime consensusTurn

theorem lateTime_lt : tt.lateTime consensusTurn time < 2^63 := by
  have hpass := int64_lt (time-tt.getBeginTime consensusTurn)
  have hpos := posTime_pos consensusTurn
  unfold lateTime
  omega

theorem calState_pos {tt : TurnTimes} {consensusTurn : UInt32} {time : ℤ}
    (h : tt.lateTime consensusTurn time < 0) :
    tt.calState consensusTurn time = (.stPos, int64 (-tt.lateTime consensusTurn time), 0) := by
  unfold lateTime at h ⊢
  unfold calState
  rw [if_pos (by omega), neg_sub]

theorem calState_reelect {tt : TurnTimes} {consensusTurn : UInt32} {time : ℤ}
    (h : 0 ≤ tt.lateTime consensusTurn time) :
    tt.calState consensusTurn time =
      (.stReelect,
        if tt.lateTime consensusTurn time%40 = 0 then 40 else tt.lateTime consensusTurn time%40,
        UInt32.ofInt (tt.lateTime consensusTurn time/40)+1) := by
  have hmod : (tt.lateTime consensusTurn time).tmod 40 = tt.lateTime consensusTurn time%40 :=
    Int.tmod_eq_emod_of_nonneg h
  have hdiv : (tt.lateTime consensusTurn time).tdiv 40 = tt.lateTime consensusTurn time/40 :=
    Int.tdiv_eq_ediv_of_nonneg h
  rw [← hmod, ← hdiv]
  unfold lateTime at h ⊢
  unfold calState
  rw [if_neg (by omega)]
  rfl

theorem calRemainTime_eq (reelectTurn : UInt32) :
    tt.calRemainTime consensusTurn reelectTurn time =
      int64 (reelectTurn.toNat*40-tt.lateTime consensusTurn time) := by
  unfold calRemainTime lateTime lrsReelectOutTime
  rw [int64_sub_int64]
  have hflip : (reelectTurn.toNat : ℤ)*40-
      (int64 (time-tt.getBeginTime consensusTurn)-posTime consensusTurn) =
      (posTime consensusTurn+reelectTurn.toNat*40)-int64 (time-tt.getBeginTime consensusTurn) := by
    ring
  rw [hflip, int64_sub_of_int64]
  congr 1
  ring

theorem lateTime_add (d : ℤ) :
    tt.lateTime consensusTurn (int64 (time+d)) =
      int64 (tt.lateTime consensusTurn time+posTime consensusTurn+d)-posTime consensusTurn := by
  unfold lateTime
  rw [int64_sub_int64, sub_add_cancel, int64_add_int64]
  congr 2
  ring

theorem toNat_turn (late : ℤ) : ((UInt32.ofInt (late/40)+1).toNat : ℤ) = (late/40+1)%2^32 := by
  have hone : (1 : UInt32).toNat = 1 := rfl
  rw [UInt32.toNat_add, UInt32.ofInt, UInt32.toNat_ofNat']
  omega

/-- `CalState` leaves a turn the time to its deadline, which in the re-election is positive and not
longer than a turn. -/
def DeadlineAgrees : Prop :=
  let st := (tt.calState consensusTurn time).1
  let remainTime := (tt.calState consensusTurn time).2.1
  let reelectTurn := (tt.calState consensusTurn time).2.2
  remainTime = tt.calRemainTime consensusTurn reelectTurn time ∧
    (st = .stReelect → 0 < remainTime ∧ remainTime ≤ lrsReelectOutTime) ∧
    (tt.calState consensusTurn (int64 (time+remainTime))).2.2.toNat = reelectTurn.toNat+1

theorem turn_after (d : ℤ) (h : 0 ≤ tt.lateTime consensusTurn time+d)
    (hhigh : tt.lateTime consensusTurn time+posTime consensusTurn+d < 2^63) :
    ((tt.calState consensusTurn (int64 (time+d))).2.2.toNat : ℤ) =
      ((tt.lateTime consensusTurn time+d)/40+1)%2^32 := by
  have hpos := posTime_pos consensusTurn
  have hlate : tt.lateTime consensusTurn (int64 (time+d)) = tt.lateTime consensusTurn time+d := by
    rw [lateTime_add, int64_eq_self (by omega) hhigh]
    omega
  rw [calState_reelect (by rw [hlate]; exact h), hlate]
  exact toNat_turn _

variable {tt consensusTurn time}

theorem deadlineAgrees_iff_of_calState {st : CtrlState} {remainTime : ℤ} {reelectTurn : UInt32}
    (h : tt.calState consensusTurn time = (st,remainTime,reelectTurn)) :
    tt.DeadlineAgrees consensusTurn time ↔
      remainTime = int64 (reelectTurn.toNat*40-tt.lateTime consensusTurn time) ∧
      (st = .stReelect → 0 < remainTime ∧ remainTime ≤ 40) ∧
      (tt.calState consensusTurn (int64 (time+remainTime))).2.2.toNat = reelectTurn.toNat+1 := by
  simp only [DeadlineAgrees, h, calRemainTime_eq, lrsReelectOutTime]

/-- The sum under the conversion is the length of the POS phase. -/
theorem deadlineAgrees_pos (h : tt.lateTime consensusTurn time < 0) :
    tt.DeadlineAgrees consensusTurn time := by
  rw [deadlineAgrees_iff_of_calState (calState_pos h)]
  refine ⟨?_, nofun, ?_⟩
  · have hzero : ((0 : UInt32).toNat : ℤ) = 0 := rfl
    rw [hzero, zero_mul, zero_sub]
  · have hpos := posTime_pos consensusTurn
    have hle := posTime_le consensusTurn
    have hlate : tt.lateTime consensusTurn
        (int64 (time+int64 (-tt.lateTime consensusTurn time))) = 0 := by
      rw [lateTime_add, int64_add_of_int64]
      rw [int64_eq_self (by omega) (by omega)]
      omega
    rw [calState_reelect hlate.ge, hlate]
    rfl

/-- In the re-election `CalState` returns the time that has passed of the turn, not the time that is
left of it. -/
theorem deadlineAgrees_reelect_iff (h : 0 ≤ tt.lateTime consensusTurn time) :
    tt.DeadlineAgrees consensusTurn time ↔
      20 ∣ tt.lateTime consensusTurn time ∧ tt.lateTime consensusTurn time < 40*(2^32-2) := by
  have hlt := tt.lateTime_lt consensusTurn time
  have hle := posTime_le consensusTurn
  have hturn := toNat_turn (tt.lateTime consensusTurn time)
  rw [deadlineAgrees_iff_of_calState (calState_reelect h), int64_eq_self (by omega) (by omega)]
  constructor
  · rintro ⟨hremain, -, hnext⟩
    have hlow : tt.lateTime consensusTurn time < 40*(2^32-1) ∧
        20 ∣ tt.lateTime consensusTurn time := by
      split_ifs at hremain <;> omega
    have hafter := tt.turn_after consensusTurn time
      (if tt.lateTime consensusTurn time%40 = 0 then 40 else tt.lateTime consensusTurn time%40)
      (by split_ifs <;> omega) (by split_ifs <;> omega)
    split_ifs at hafter hnext <;> omega
  · rintro ⟨hdvd, hbound⟩
    have hafter := tt.turn_after consensusTurn time
      (if tt.lateTime consensusTurn time%40 = 0 then 40 else tt.lateTime consensusTurn time%40)
      (by split_ifs <;> omega) (by split_ifs <;> omega)
    refine ⟨?_, fun _ => ?_, ?_⟩
    · split_ifs <;> omega
    · split_ifs <;> omega
    · split_ifs at hafter ⊢ <;> omega

/-- The POS phase is not over, or it has been over for half turns, and for so few that the next turn
does not overflow. -/
theorem deadlineAgrees_iff (tt : TurnTimes) (consensusTurn : UInt32) (time : ℤ) :
    tt.DeadlineAgrees consensusTurn time ↔
      tt.lateTime consensusTurn time < 0 ∨
        20 ∣ tt.lateTime consensusTurn time ∧ tt.lateTime consensusTurn time < 40*(2^32-2) := by
  by_cases h : tt.lateTime consensusTurn time < 0
  · exact iff_of_true (deadlineAgrees_pos h) (Or.inl h)
  · rw [deadlineAgrees_reelect_iff (not_lt.mp h)]
    exact (or_iff_right h).symm

/-- Ten seconds into the first re-election turn `CalState` leaves it ten seconds, of the thirty that
it has. -/
theorem deadline_missed_ten_seconds :
    let tt : TurnTimes := ⟨(∅ : GoMap UInt32 ℤ).insert 1 1000⟩
    tt.calState 1 1030 = (.stReelect,10,1) ∧ tt.calRemainTime 1 1 1030 = 30 ∧
      ¬ tt.DeadlineAgrees 1 1030 := by
  intro tt
  have hbegin : tt.getBeginTime 1 = 1000 := by decide
  have hlate : tt.lateTime 1 1030 = 10 := by
    unfold lateTime
    rw [hbegin]
    decide
  refine ⟨?_, ?_, ?_⟩
  · rw [calState_reelect (by omega), hlate]
    decide
  · rw [calRemainTime_eq, hlate]
    decide
  · rw [deadlineAgrees_reelect_iff (by omega), hlate]
    omega

end TurnTimes

end MatrixNode
