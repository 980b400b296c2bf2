import Mathlib.Order.Bounds.Basic
import MatrixNode.TxsVerification
import MatrixNode.VerifyMoves

/-! The turn that the verification process works on. -/
namespace MatrixNode
open GoLib List

def LeaderChangeNotify.workTurn (info : LeaderChangeNotify) : UInt32 :=
  if info.consensusState = true then info.consensusTurn else 0

namespace BlkVerify
open Relation

variable {Hash State Tx Receipt : Type} {D : DposEngine Hash}

def ProcessEvent.leaderInfo : ProcessEvent Hash State Tx Receipt → Option LeaderChangeNotify
  | .setLeaderInfo info => some info
  | _ => none

def notifications (inputs : List (World Hash × ProcessEvent Hash State Tx Receipt)) :
    List LeaderChangeNotify :=
  inputs.filterMap fun input => input.2.leaderInfo

/-- After a leader of a turn above 0 come only leaders of this turn and later ones, and a lost
leader has one for its turn or a later one. -/
structure InTurnOrder (infos : List LeaderChangeNotify) : Prop where
  ordered : infos.Pairwise fun a b => a.consensusState = true → 0 < a.consensusTurn →
    b.consensusState = true ∧ a.consensusTurn ≤ b.consensusTurn
  replaced : ∀ a ∈ infos, a.consensusState = false → 0 < a.consensusTurn →
    ∃ b ∈ infos, b.consensusState = true ∧ a.consensusTurn ≤ b.consensusTurn

section Order
variable {infos : List LeaderChangeNotify}

theorem workTurn_le (info : LeaderChangeNotify) : info.workTurn ≤ info.consensusTurn := by
  unfold LeaderChangeNotify.workTurn
  split_ifs
  · exact UInt32.le_refl _
  · exact UInt32.zero_le

/-- A lost leader takes the process to turn 0. -/
theorem workTurn_le_iff {a b : LeaderChangeNotify} :
    a.workTurn ≤ b.workTurn ↔ (a.consensusState = true → 0 < a.consensusTurn →
      b.consensusState = true ∧ a.consensusTurn ≤ b.consensusTurn) := by
  unfold LeaderChangeNotify.workTurn
  split_ifs with ha hb hb
  · simp only [ha, hb, forall_const, true_and]
    constructor
    · exact fun hle _ => hle
    · intro hle
      rcases UInt32.lt_or_le 0 a.consensusTurn with hpos | hzero
      · exact hle hpos
      · exact UInt32.le_trans hzero UInt32.zero_le
  · simp only [ha, hb, forall_const]
    constructor
    · intro hle hpos
      exact absurd hle (UInt32.not_le.mpr hpos)
    · intro hnone
      exact UInt32.not_lt.mp fun hpos => absurd (hnone hpos).1 (by decide)
  · exact iff_of_true UInt32.zero_le (fun hstate => absurd hstate ha)
  · exact iff_of_true (UInt32.le_refl 0) (fun hstate => absurd hstate ha)

variable {info : LeaderChangeNotify}

theorem workTurn_of_leader (hleader : info.consensusState = true) :
    info.workTurn = info.consensusTurn := if_pos hleader

theorem workTurn_of_stop (hstop : info.consensusState = false) :
    info.workTurn = 0 := if_neg (by rw [hstop]; decide)

def lastTurn (turn : UInt32) (infos : List LeaderChangeNotify) : UInt32 :=
  (infos.getLast?.map LeaderChangeNotify.workTurn).getD turn

theorem lastTurn_cons (turn : UInt32) (info : LeaderChangeNotify) (infos : List LeaderChangeNotify) :
    lastTurn turn (info :: infos) = lastTurn info.workTurn infos := by
  unfold lastTurn
  rw [getLast?_cons]
  cases infos.getLast? <;> rfl

/-- If the turns come in order, the last one is the largest of all notifications exactly when every
lost leader is replaced. -/
theorem isGreatest_lastTurn_iff (turn : UInt32) (hne : infos ≠ [])
    (hordered : infos.Pairwise fun a b => a.workTurn ≤ b.workTurn) :
    IsGreatest {t | ∃ info ∈ infos, info.consensusTurn = t} (lastTurn turn infos) ↔
      ∀ a ∈ infos, a.consensusState = false → 0 < a.consensusTurn →
        ∃ b ∈ infos, b.consensusState = true ∧ a.consensusTurn ≤ b.consensusTurn := by
  obtain ⟨before, last, rfl⟩ := eq_nil_or_concat infos |>.resolve_left hne
  rw [concat_eq_append] at hordered ⊢
  have hlast : last ∈ before ++ [last] := mem_append_right _ mem_cons_self
  have hend : lastTurn turn (before ++ [last]) = last.workTurn := by
    unfold lastTurn
    rw [getLast?_concat]
    rfl
  have hmax : ∀ a ∈ before ++ [last], a.workTurn ≤ last.workTurn := by
    intro a ha
    rcases mem_append.mp ha with ha | ha
    · exact (pairwise_append.mp hordered).2.2 a ha last mem_cons_self
    · rw [mem_singleton.mp ha]
      exact UInt32.le_refl _
  rw [hend]
  constructor
  · intro hgreatest a ha hstop hpos
    have hle : a.consensusTurn ≤ last.workTurn := hgreatest.2 ⟨a, ha, rfl⟩
    refine ⟨last, hlast, ?_, UInt32.le_trans hle (workTurn_le last)⟩
    by_contra hnot
    rw [workTurn_of_stop (Bool.eq_false_of_not_eq_true hnot)] at hle
    exact UInt32.not_le.mpr hpos hle
  · intro hreplaced
    have hbound : ∀ a ∈ before ++ [last], a.consensusTurn ≤ last.workTurn := by
      intro a ha
      rcases hstate : a.consensusState with _ | _
      · rcases UInt32.lt_or_le 0 a.consensusTurn with hpos | hzero
        · obtain ⟨b, hb, hleader, hle⟩ := hreplaced a ha hstate hpos
          rw [← workTurn_of_leader hleader] at hle
          exact UInt32.le_trans hle (hmax b hb)
        · exact UInt32.le_trans hzero UInt32.zero_le
      · rw [← workTurn_of_leader hstate]
        exact hmax a ha
    refine ⟨⟨last, hlast, UInt32.le_antisymm (hbound last hlast) (workTurn_le last)⟩, ?_⟩
    rintro t ⟨a, ha, rfl⟩
    exact hbound a ha

end Order

namespace Process
variable {w : World Hash} {p p' : Process D State Tx Receipt}

def turn (p : Process D State Tx Receipt) : UInt32 := p.leaderCache.consensusTurn

theorem leaderCache_of_moves (h : ReflTransGen Moves p p') : p'.leaderCache = p.leaderCache := by
  induction h with
  | refl => rfl
  | tail _ hlast ih =>
    rw [← ih]
    cases hlast <;> rfl

theorem Takes.turn_eq {event : ProcessEvent Hash State Tx Receipt} (h : Takes w p event p') :
    p'.turn = (event.leaderInfo.map LeaderChangeNotify.workTurn).getD p.turn := by
  cases h with
  | stop hstop => exact (workTurn_of_stop hstop).symm
  | knownLeader hleader hsame => exact hsame.2.trans (workTurn_of_leader hleader).symm
  | newLeader hleader => exact (workTurn_of_leader hleader).symm
  | _ => rfl

variable [DecidableEq Hash] [Zero Hash] {W : WorkChain Hash State Tx Receipt}

theorem step_turn {input : World Hash × ProcessEvent Hash State Tx Receipt}
    (h : p.step W input = .ok p') :
    p'.turn = (input.2.leaderInfo.map LeaderChangeNotify.workTurn).getD p.turn := by
  obtain ⟨q, htakes, hmoves⟩ := step_takes h
  rw [← htakes.turn_eq]
  exact congrArg LeaderChangeNotify.consensusTurn (leaderCache_of_moves hmoves)

theorem run_turn {inputs : List (World Hash × ProcessEvent Hash State Tx Receipt)}
    (hrun : run (step W) p inputs = .ok p') :
    p'.turn = lastTurn p.turn (notifications inputs) ∧
    (EachStep (step W) (fun p _ p' => p.turn ≤ p'.turn) p inputs ↔
      (p.turn :: (notifications inputs).map LeaderChangeNotify.workTurn).IsChain (· ≤ ·)) := by
  induction inputs generalizing p with
  | nil =>
    cases hrun
    exact ⟨rfl, iff_of_true trivial (isChain_singleton _)⟩
  | cons input inputs ih =>
    rw [run_cons, bind_eq_ok_iff] at hrun
    obtain ⟨p₁, h₁, hrun⟩ := hrun
    obtain ⟨hlast, hchain⟩ := ih hrun
    have hturn := step_turn h₁
    have hfirst : EachStep (step W) (fun p _ p' => p.turn ≤ p'.turn) p (input :: inputs) ↔
        p.turn ≤ p₁.turn ∧ EachStep (step W) (fun p _ p' => p.turn ≤ p'.turn) p₁ inputs := by
      constructor
      · exact fun heach => heach p₁ h₁
      · intro hboth p₂ h₂
        rw [h₁] at h₂
        cases h₂
        exact hboth
    rw [hfirst, hchain, hlast]
    rcases hinfo : input.2.leaderInfo with _ | info
    · have hnone : notifications (input :: inputs) = notifications inputs :=
        filterMap_cons_none hinfo
      rw [hinfo, Option.map_none] at hturn
      rw [hnone, hturn]
      exact ⟨rfl, and_iff_right (UInt32.le_refl _)⟩
    · have hsome : notifications (input :: inputs) = info :: notifications inputs :=
        filterMap_cons_some hinfo
      rw [hinfo, Option.map_some] at hturn
      rw [hsome, lastTurn_cons, map_cons, isChain_cons_cons, hturn]
      exact ⟨rfl, Iff.rfl⟩

/-- The turn never falls and ends as the largest delivered exactly when the notifications come in
the order of their turns. -/
theorem turn_rises_to_largest_iff (D : DposEngine Hash) (W : WorkChain Hash State Tx Receipt)
    (number : ℕ) (inputs : List (World Hash × ProcessEvent Hash State Tx Receipt))
    (p : Process D State Tx Receipt)
    (hrun : run (step W) (newProcess D State Tx Receipt number) inputs = .ok p) :
    (EachStep (step W) (fun p _ p' => p.turn ≤ p'.turn) (newProcess D State Tx Receipt number) inputs ∧
      (notifications inputs ≠ [] →
        IsGreatest {t | ∃ info ∈ notifications inputs, info.consensusTurn = t} p.turn)) ↔
    InTurnOrder (notifications inputs) := by
  obtain ⟨hlast, hchain⟩ := run_turn hrun
  have hordered : EachStep (step W) (fun p _ p' => p.turn ≤ p'.turn)
      (newProcess D State Tx Receipt number) inputs ↔
      (notifications inputs).Pairwise fun a b => a.workTurn ≤ b.workTurn := by
    have htrans : IsTrans UInt32 (· ≤ ·) := ⟨fun _ _ _ => UInt32.le_trans⟩
    rw [hchain, isChain_iff_pairwise, pairwise_cons, pairwise_map]
    exact and_iff_right fun _ _ => UInt32.zero_le
  rw [hordered, hlast]
  constructor
  · rintro ⟨hpairs, hgreatest⟩
    refine ⟨hpairs.imp fun hle => workTurn_le_iff.mp hle, ?_⟩
    intro a ha
    have hne : notifications inputs ≠ [] := ne_nil_of_mem ha
    exact (isGreatest_lastTurn_iff _ hne hpairs).mp (hgreatest hne) a ha
  · intro horder
    have hpairs := horder.ordered.imp fun hle => workTurn_le_iff.mpr hle
    exact ⟨hpairs, fun hne => (isGreatest_lastTurn_iff _ hne hpairs).mpr horder.replaced⟩

section Sample
open ReqCache (timeEngine)

def quietWorld : World ℕ where
  signHash := fun _ _ => .error (.error "no key")
  getVotes := fun _ => []
  reader := ⟨0, fun _ => .error (.error "no graph")⟩
  orders := ⟨accountOrder, accountOrder⟩
  verifyHeader := fun _ => none
  verifyElection := fun _ => none
  verifyNetTopology := fun _ => none
  leaderOrder := accountOrder

def leads (turn : UInt32) : World ℕ × ProcessEvent ℕ ℕ ℕ ℕ :=
  (quietWorld, .setLeaderInfo ⟨true, 1, 2, 5, turn, 0, 0, 0⟩)

theorem turn_rises_in_order : ∃ p : Process timeEngine ℕ ℕ ℕ,
    run (step addingChain) (newProcess timeEngine ℕ ℕ ℕ 5) [leads 1, leads 2] = .ok p ∧
    EachStep (step addingChain) (fun p _ p' => p.turn ≤ p'.turn) (newProcess timeEngine ℕ ℕ ℕ 5)
      [leads 1, leads 2] ∧
    IsGreatest {t | ∃ info ∈ notifications [leads 1, leads 2], info.consensusTurn = t} p.turn := by
  refine ⟨_, rfl, ?_⟩
  have horder : InTurnOrder (notifications [leads 1, leads 2]) := by
    constructor <;> decide
  obtain ⟨hrises, hlargest⟩ := (turn_rises_to_largest_iff timeEngine addingChain 5 _ _ rfl).mpr horder
  exact ⟨hrises, hlargest nofun⟩

/-- The notification of turn 1 is overtaken by the one of turn 2 and takes the process back. -/
theorem turn_falls_back : ∃ p : Process timeEngine ℕ ℕ ℕ,
    run (step addingChain) (newProcess timeEngine ℕ ℕ ℕ 5) [leads 2, leads 1] = .ok p ∧ p.turn = 1 ∧
    ¬ EachStep (step addingChain) (fun p _ p' => p.turn ≤ p'.turn) (newProcess timeEngine ℕ ℕ ℕ 5)
      [leads 2, leads 1] := by
  refine ⟨_, rfl, rfl, ?_⟩
  intro heach
  have hfall : (2 : UInt32) ≤ 1 := ((heach _ rfl).2 _ rfl).1
  exact absurd hfall (by decide)

end Sample

end Process

end BlkVerify

end MatrixNode
