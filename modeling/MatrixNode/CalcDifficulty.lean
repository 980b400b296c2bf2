import MatrixNode.ChainTypes
import MatrixNode.GoBig
import Mathlib.Tactic.Linarith

/-! The difficulty rules of `consensus/manash/consensus.go`. -/
namespace MatrixNode
open GoLib BigM BigHeap

inductive DifficultyVar where
  | expDiffPeriod
  | big1
  | big2
  | big10
  | bigMinus99
  | big2999999
  | difficultyBoundDivisor
  | minimumDifficulty
  | durationLimit
  deriving DecidableEq

namespace DifficultyVar

def initial : DifficultyVar → ℤ
  | expDiffPeriod => 100000
  | big1 => 1
  | big2 => 2
  | big10 => 10
  | bigMinus99 => -99
  | big2999999 => 2999999
  | difficultyBoundDivisor => 256
  | minimumDifficulty => 10
  | durationLimit => 6

end DifficultyVar

/-- The forks that decide which rule applies; a fork without a block never comes. -/
structure ForkConfig where
  homesteadBlock : Option ℕ
  byzantiumBlock : Option ℕ

def isForked (s : Option ℕ) (head : ℤ) : Bool := s.any (fun block => (block : ℤ) ≤ head)

namespace Difficulty
open DifficultyVar
variable {Hash : Type} [DecidableEq Hash] (emptyUncleHash : Hash)

abbrev Program := BigM DifficultyVar

abbrev var (v : DifficultyVar) : BigPtr DifficultyVar := .inl v

/-- The head of two of the rules, which allocates `x` and `y` and sets `x` to
max(`base` - (time - parent time) / `unit`, -99). -/
def timeFactor (base unit : DifficultyVar) (time : ℕ) (parent : UnsignedHeader Hash) :
    Program (BigPtr DifficultyVar × BigPtr DifficultyVar) := do
  let bigTime ← new time
  let bigParentTime ← new parent.time
  let x ← new 0
  let y ← new 0
  assign x ((← load bigTime) - (← load bigParentTime))
  assign x ((← load x) / (← load (var unit)))
  assign x ((← load (var base)) - (← load x))
  raiseTo x (var bigMinus99)
  return (x, y)

def applyFactor (x y : BigPtr DifficultyVar) (parent : UnsignedHeader Hash) : Program Unit := do
  assign x ((← load y) * (← load x))
  assign x (parent.difficulty + (← load x))
  raiseTo x (var minimumDifficulty)

/-- The exponential factor: once there are periods enough, `y` becomes 2^(periodCount - 2) and is
added to `x`. -/
def addBomb (x y periodCount : BigPtr DifficultyVar) : Program Unit := do
  if (← load (var big1)) < (← load periodCount) then
    assign y ((← load periodCount) - (← load (var big2)))
    -- Without a modulus `Exp` gives 1 for a negative exponent, as `toNat` makes it here.
    assign y ((← load (var big2)) ^ (← load y).toNat)
    assign x ((← load x) + (← load y))

def fakePeriods (parent : UnsignedHeader Hash) : Program (BigPtr DifficultyVar) := do
  let fakeBlockNumber ← new 0
  if (← load (var big2999999)) ≤ parent.number then
    assign fakeBlockNumber (parent.number - (← load (var big2999999)))
  assign fakeBlockNumber ((← load fakeBlockNumber) / (← load (var expDiffPeriod)))
  return fakeBlockNumber

def periods (parent : UnsignedHeader Hash) : Program (BigPtr DifficultyVar) := do
  let periodCount ← new (parent.number + (← load (var big1)))
  assign periodCount ((← load periodCount) / (← load (var expDiffPeriod)))
  return periodCount

def calcDifficultyByzantium (time : ℕ) (parent : UnsignedHeader Hash) :
    Program (BigPtr DifficultyVar) := do
  let base := if parent.uncleHash = emptyUncleHash then big1 else big2
  let (x, y) ← timeFactor base durationLimit time parent
  assign y (parent.difficulty / (← load (var difficultyBoundDivisor)))
  -- `y = big1` takes the address, so from here on `y` may be the package variable itself.
  let y := if (← load y) = 0 then var big1 else y
  applyFactor x y parent
  let periodCount ← fakePeriods parent
  addBomb x y periodCount
  return x

def calcDifficultyHomestead (time : ℕ) (parent : UnsignedHeader Hash) :
    Program (BigPtr DifficultyVar) := do
  let (x, y) ← timeFactor big1 big10 time parent
  assign y (parent.difficulty / (← load (var difficultyBoundDivisor)))
  applyFactor x y parent
  let periodCount ← periods parent
  addBomb x y periodCount
  return x

def calcDifficultyFrontier (time : ℕ) (parent : UnsignedHeader Hash) :
    Program (BigPtr DifficultyVar) := do
  let diff ← new 0
  let adjust ← new (parent.difficulty / (← load (var difficultyBoundDivisor)))
  let bigTime ← new time
  let bigParentTime ← new parent.time
  assign bigTime ((← load bigTime) - (← load bigParentTime))
  if (← load bigTime) < (← load (var durationLimit)) then
    assign diff (parent.difficulty + (← load adjust))
  else
    assign diff (parent.difficulty - (← load adjust))
  raiseTo diff (var minimumDifficulty)
  let periodCount ← periods parent
  let bomb := (← load (var big1)) < (← load periodCount)
  addBomb diff periodCount periodCount
  -- `math.BigMax` returns one of its two arguments.
  if bomb ∧ (← load diff) < (← load (var minimumDifficulty)) then return var minimumDifficulty
  else return diff

def calcDifficulty (config : ForkConfig) (time : ℕ) (parent : UnsignedHeader Hash) :
    Program (BigPtr DifficultyVar) := do
  let next ← new (parent.number + (← load (var big1)))
  let number ← load next
  if isForked config.byzantiumBlock number then calcDifficultyByzantium emptyUncleHash time parent
  else if isForked config.homesteadBlock number then calcDifficultyHomestead time parent
  else calcDifficultyFrontier time parent

def start : BigHeap DifficultyVar := ⟨Sum.elim initial (fun _ => 0), 0⟩

section Spec
variable (h : BigHeap DifficultyVar) (time : ℕ) (parent : UnsignedHeader Hash)

omit [DecidableEq Hash] in
theorem timeFactor_apply (base unit : DifficultyVar) :
    timeFactor base unit time parent h = ((.inr (h.next+2), .inr (h.next+3)),
      ((((h.alloc time).alloc parent.time).alloc 0).alloc 0).set (.inr (h.next+2))
        (max (h.val (var base) - (time - parent.time) / h.val (var unit)) (h.val (var bigMinus99)))) := by
  have htime : ((((h.alloc time).alloc parent.time).alloc 0).alloc 0).val (.inr h.next) = time := by
    simp +arith [val_alloc_inr]
  have hparent : ((((h.alloc time).alloc parent.time).alloc 0).alloc 0).val (.inr (h.next+1)) =
      parent.time := by
    simp +arith [val_alloc_inr]
  simp only [timeFactor, bind_new, bind_load, bind_assign, bind_raiseTo]
  simp [htime, hparent]
  rfl

theorem addBomb_apply {x y periodCount : BigPtr DifficultyVar} (hx : x ≠ y) (hy : var big2 ≠ y) :
    addBomb x y periodCount h = ((), if h.val (var big1) < h.val periodCount then
      (h.set y (h.val (var big2) ^ (h.val periodCount - h.val (var big2)).toNat)).set x
        (h.val x + h.val (var big2) ^ (h.val periodCount - h.val (var big2)).toNat) else h) := by
  simp only [addBomb, bind_load]
  by_cases hbomb : h.val (var big1) < h.val periodCount
  · simp only [if_pos hbomb, bind_load, bind_assign, val_set_self, val_set_of_ne _ hx,
      val_set_of_ne _ hy, set_set]
    rfl
  · simp only [if_neg hbomb]
    rfl

omit [DecidableEq Hash] in
theorem fakePeriods_apply :
    fakePeriods parent h = (.inr h.next, h.alloc ((if h.val (var big2999999) ≤ parent.number then
      parent.number - h.val (var big2999999) else 0) / h.val (var expDiffPeriod))) := by
  simp only [fakePeriods, bind_new, bind_load, val_alloc_inl]
  by_cases hfake : h.val (var big2999999) ≤ parent.number
  · simp only [if_pos hfake, bind_load, bind_assign, val_alloc_inl, set_alloc, val_alloc_self]
    rfl
  · simp only [if_neg hfake, bind_load, bind_assign, val_alloc_inl, set_alloc, val_alloc_self]
    rfl

omit [DecidableEq Hash] in
theorem applyFactor_apply {x y : BigPtr DifficultyVar} (hx : var minimumDifficulty ≠ x) :
    applyFactor x y parent h = ((), h.set x
      (max (parent.difficulty + h.val y * h.val x) (h.val (var minimumDifficulty)))) := by
  simp only [applyFactor, bind_load, bind_assign, raiseTo_apply, set_set, val_set_self,
    val_set_of_ne _ hx]

end Spec

def Holds (h : BigHeap DifficultyVar) (b : ℤ) : Prop :=
  ∀ v, h.val (var v) = Function.update initial big1 b v

def delayedPeriods (parent : UnsignedHeader Hash) : ℤ :=
  (if 2999999 ≤ (parent.number : ℤ) then (parent.number : ℤ) - 2999999 else 0) / 100000

/-- What the rule computes while `big1` holds `b`. -/
def ruleAt (b : ℤ) (time : ℕ) (parent : UnsignedHeader Hash) : ℤ :=
  let base := if parent.uncleHash = emptyUncleHash then b else 2
  let step := if (parent.difficulty : ℤ) / 256 = 0 then b else (parent.difficulty : ℤ) / 256
  let periods := delayedPeriods parent
  max (parent.difficulty + step * max (base - ((time : ℤ) - parent.time) / 6) (-99)) 10 +
    if b < periods then 2 ^ (periods - 2).toNat else 0

def big1After (b : ℤ) (parent : UnsignedHeader Hash) : ℤ :=
  if (parent.difficulty : ℤ) / 256 = 0 ∧ b < delayedPeriods parent then
    2 ^ (delayedPeriods parent - 2).toNat
  else b

variable {h : BigHeap DifficultyVar}

variable {b : ℤ}

theorem Holds.set_inr (hb : Holds h b) (n : ℕ) (v : ℤ) : Holds (h.set (.inr n) v) b := by
  intro w
  exact hb w

theorem Holds.alloc (hb : Holds h b) (v : ℤ) : Holds (h.alloc v) b := by
  intro w
  exact hb w

theorem Holds.set_big1 (hb : Holds h b) (v : ℤ) : Holds (h.set (var big1) v) v := by
  intro w
  by_cases hw : w = big1
  · rw [hw, val_set_self, Function.update_self]
  · rw [val_set_of_ne _ (fun he => hw (Sum.inl.inj he)), Function.update_of_ne hw, hb w,
      Function.update_of_ne hw]

omit [DecidableEq Hash] in
/-- Only `y` can be a package variable, and then it is `big1`: writing to it changes neither `x` nor
`big2`. -/
theorem byzantiumTail_apply {h : BigHeap DifficultyVar} (hb : Holds h b)
    (parent : UnsignedHeader Hash) {i : ℕ} {y : BigPtr DifficultyVar} (hi : i < h.next)
    (hy : y = var big1 ∨ ∃ j, y = .inr j ∧ j ≠ i ∧ j < h.next) :
    ∃ h', (do
        applyFactor (.inr i) y parent
        let periodCount ← fakePeriods parent
        addBomb (.inr i) y periodCount
        return .inr i : Program (BigPtr DifficultyVar)) h = (.inr i, h') ∧
      h'.val (.inr i) = max (parent.difficulty + h.val y * h.val (.inr i)) 10 +
        (if b < delayedPeriods parent then 2 ^ (delayedPeriods parent - 2).toNat else 0) ∧
      Holds h' (if y = var big1 ∧ b < delayedPeriods parent then
        2 ^ (delayedPeriods parent - 2).toNat else b) := by
  rw [bind_of_eq (applyFactor_apply h parent Sum.inl_ne_inr), hb minimumDifficulty]
  change ∃ h', (fakePeriods parent >>= _) (h.set (.inr i) (max _ 10)) = _ ∧ _
  generalize hv : max ((parent.difficulty : ℤ) + h.val y * h.val (.inr i)) 10 = v
  have hb₁ := hb.set_inr i v
  have hperiods : fakePeriods parent (h.set (.inr i) v) =
      (.inr h.next, (h.set (.inr i) v).alloc (delayedPeriods parent)) := by
    rw [fakePeriods_apply, hb₁ big2999999, hb₁ expDiffPeriod]
    rfl
  generalize delayedPeriods parent = k at hperiods ⊢
  have hb₂ := hb₁.alloc k
  have hx : (.inr i : BigPtr DifficultyVar) ≠ y := by
    rcases hy with rfl | ⟨j, rfl, hij, -⟩
    · exact Sum.inr_ne_inl
    · exact fun he => hij (Sum.inr.inj he).symm
  have hbig2 : var big2 ≠ y := by
    rcases hy with rfl | ⟨j, rfl, -⟩
    · decide
    · exact Sum.inl_ne_inr
  have hcount : ((h.set (.inr i) v).alloc k).val (.inr h.next) = k :=
    val_alloc_self (h.set (.inr i) v) _
  have hvalx : ((h.set (.inr i) v).alloc k).val (.inr i) = v := by
    rw [val_alloc_inr, next_set, if_neg hi.ne, val_set_self]
  have hbig1 : ((h.set (.inr i) v).alloc k).val (var big1) = b := hb₂ big1
  have htwo : ((h.set (.inr i) v).alloc k).val (var big2) = 2 := hb₂ big2
  rw [bind_of_eq hperiods, bind_of_eq (addBomb_apply _ hx hbig2), hcount, hbig1, htwo, hvalx]
  refine ⟨_, rfl, ?_⟩
  by_cases hbomb : b < k
  · simp only [hbomb, if_true, and_true]
    refine ⟨val_set_self _ _ _, ?_⟩
    apply Holds.set_inr
    rcases hy with rfl | ⟨j, rfl, -⟩
    · exact hb₂.set_big1 _
    · exact hb₂.set_inr j _
  · simp only [hbomb, if_false, and_false, add_zero]
    exact ⟨hvalx, hb₂⟩

/-- The two cases of the aliasing: `y` is the package variable, or it stays the local integer. -/
theorem calcDifficultyByzantium_apply {h : BigHeap DifficultyVar} (hb : Holds h b) (time : ℕ)
    (parent : UnsignedHeader Hash) :
    ∃ p h', calcDifficultyByzantium emptyUncleHash time parent h = (p, h') ∧
      h'.val p = ruleAt emptyUncleHash b time parent ∧ Holds h' (big1After b parent) := by
  unfold calcDifficultyByzantium
  rw [bind_of_eq (timeFactor_apply ..)]
  have hbase : h.val (var (if parent.uncleHash = emptyUncleHash then big1 else big2)) =
      if parent.uncleHash = emptyUncleHash then b else 2 := by
    rw [hb]
    split_ifs
    · rfl
    · rfl
  have hunit : h.val (var durationLimit) = 6 := hb durationLimit
  have hfloor : h.val (var bigMinus99) = -99 := hb bigMinus99
  rw [hbase, hunit, hfloor]
  generalize hfactor : max ((if parent.uncleHash = emptyUncleHash then b else 2) -
    ((time : ℤ) - parent.time) / 6) (-99) = factor
  have hb₁ := ((((hb.alloc time).alloc parent.time).alloc 0).alloc 0).set_inr (h.next+2) factor
  have hx : (((((h.alloc time).alloc parent.time).alloc 0).alloc 0).set (.inr (h.next+2)) factor).val
      (.inr (h.next+2)) = factor := val_set_self ..
  have hnext : (((((h.alloc time).alloc parent.time).alloc 0).alloc 0).set
      (.inr (h.next+2)) factor).next = h.next+4 := rfl
  generalize ((((h.alloc time).alloc parent.time).alloc 0).alloc 0).set _ _ = h₁ at hb₁ hx hnext ⊢
  have hdivisor : h₁.val (var difficultyBoundDivisor) = 256 := hb₁ difficultyBoundDivisor
  simp only [bind_load, bind_assign, val_set_self, hdivisor]
  have hb₂ := hb₁.set_inr (h.next+3) ((parent.difficulty : ℤ) / 256)
  have hx₂ : (h₁.set (.inr (h.next+3)) ((parent.difficulty : ℤ) / 256)).val (.inr (h.next+2)) =
      factor := by
    rw [val_set_of_ne, hx]
    simp
  have hi : h.next+2 < (h₁.set (.inr (h.next+3)) ((parent.difficulty : ℤ) / 256)).next := by
    rw [next_set]
    omega
  by_cases hsmall : (parent.difficulty : ℤ) / 256 = 0
  · have hbig1 : (h₁.set (.inr (h.next+3)) ((parent.difficulty : ℤ) / 256)).val (var big1) = b :=
      hb₂ big1
    rw [if_pos hsmall]
    obtain ⟨h', hrun, hval, hb'⟩ := byzantiumTail_apply hb₂ parent hi (.inl rfl)
    refine ⟨_, h', hrun, ?_, ?_⟩
    · rw [hval, hx₂, hbig1]
      simp only [ruleAt, hsmall, if_true, hfactor]
    · simpa only [big1After, hsmall, true_and] using hb'
  · have hy : (h₁.set (.inr (h.next+3)) ((parent.difficulty : ℤ) / 256)).val (.inr (h.next+3)) =
        (parent.difficulty : ℤ) / 256 := val_set_self ..
    rw [if_neg hsmall]
    obtain ⟨h', hrun, hval, hb'⟩ := byzantiumTail_apply hb₂ parent hi
      (.inr ⟨h.next+3, rfl, by omega, by rw [next_set, hnext]; omega⟩)
    refine ⟨_, h', hrun, ?_, ?_⟩
    · rw [hval, hx₂, hy]
      simp only [ruleAt, hsmall, if_false, hfactor]
    · simpa only [big1After, hsmall, false_and, if_false, reduceCtorEq] using hb'

structure Call (Hash : Type) where
  time : ℕ
  parent : UnsignedHeader Hash

def returned (config : ForkConfig) (call : Call Hash) (h : BigHeap DifficultyVar) :
    ℤ × BigHeap DifficultyVar :=
  let (p, h') := calcDifficulty emptyUncleHash config call.time call.parent h
  (h'.val p, h')

def afterCalls (config : ForkConfig) (calls : List (Call Hash)) : BigHeap DifficultyVar :=
  calls.foldl (fun h call => (returned emptyUncleHash config call h).2) start

def Call.Byzantium (config : ForkConfig) (call : Call Hash) : Prop :=
  isForked config.byzantiumBlock (call.parent.number+1) = true

def Call.byzantiumDifficulty (call : Call Hash) : ℤ :=
  let u : ℤ := if call.parent.uncleHash = emptyUncleHash then 1 else 2
  let k : ℤ := ((call.parent.number : ℤ) - 2999999) / 100000
  max 10 (call.parent.difficulty + max 1 ((call.parent.difficulty : ℤ) / 256) *
    max (u - ((call.time : ℤ) - call.parent.time) / 6) (-99)) +
    if 2 ≤ k then 2 ^ (k-2).toNat else 0

/-- The call leaves `big1` alone: the parent's difficulty is large enough for `y` to stay a local
integer, or the third period of the ice age is still to come. -/
def Call.SparesBig1 (call : Call Hash) : Prop :=
  256 ≤ call.parent.difficulty ∨ call.parent.number < 3299999

omit [DecidableEq Hash] in
theorem delayedPeriods_cases (parent : UnsignedHeader Hash) :
    (2999999 ≤ parent.number ∧ delayedPeriods parent = ((parent.number : ℤ) - 2999999) / 100000) ∨
      (parent.number < 2999999 ∧ delayedPeriods parent = 0) := by
  unfold delayedPeriods
  split_ifs with hnumber
  · exact .inl ⟨by omega, rfl⟩
  · exact .inr ⟨by omega, rfl⟩

theorem ruleAt_one (call : Call Hash) :
    ruleAt emptyUncleHash 1 call.time call.parent = call.byzantiumDifficulty emptyUncleHash := by
  have hstep : (if (call.parent.difficulty : ℤ) / 256 = 0 then 1
      else (call.parent.difficulty : ℤ) / 256) = max 1 ((call.parent.difficulty : ℤ) / 256) := by
    split_ifs <;> omega
  have hbomb : (if 1 < delayedPeriods call.parent then
      (2 : ℤ) ^ (delayedPeriods call.parent - 2).toNat else 0) =
      if 2 ≤ ((call.parent.number : ℤ) - 2999999) / 100000 then
        2 ^ (((call.parent.number : ℤ) - 2999999) / 100000 - 2).toNat else 0 := by
    rcases delayedPeriods_cases call.parent with ⟨-, hk⟩ | ⟨hnumber, hk⟩
    · rw [hk]
      rfl
    · rw [if_neg (by omega), if_neg (by omega)]
  simp only [ruleAt, Call.byzantiumDifficulty, hstep, hbomb]
  rw [max_comm]

theorem two_le_two_pow {n : ℕ} (hn : n ≠ 0) : (2 : ℤ) ≤ 2 ^ n := by
  obtain ⟨m, rfl⟩ := Nat.exists_eq_succ_of_ne_zero hn
  have hm : (1 : ℤ) ≤ 2 ^ m := one_le_pow₀ (by norm_num)
  omega

omit [DecidableEq Hash] in
theorem two_le_big1After (hb : 2 ≤ b) (parent : UnsignedHeader Hash) : 2 ≤ big1After b parent := by
  unfold big1After
  split_ifs with halias
  · apply two_le_two_pow
    have := halias.2
    omega
  · exact hb

omit [DecidableEq Hash] in
theorem big1After_one (call : Call Hash) :
    (call.SparesBig1 ∧ big1After 1 call.parent = 1) ∨
      (¬call.SparesBig1 ∧ 2 ≤ big1After 1 call.parent) := by
  unfold Call.SparesBig1 big1After
  have hk := delayedPeriods_cases call.parent
  by_cases halias : (call.parent.difficulty : ℤ) / 256 = 0 ∧ 1 < delayedPeriods call.parent
  · rw [if_pos halias]
    by_cases htwo : delayedPeriods call.parent = 2
    · left
      refine ⟨.inr (by omega), ?_⟩
      rw [htwo]
      rfl
    · right
      exact ⟨by omega, two_le_two_pow (by omega)⟩
  · left
    rw [if_neg halias]
    exact ⟨by omega, rfl⟩

theorem isForked_mono {s : Option ℕ} {n m : ℤ} (hle : n ≤ m) (h : isForked s n = true) :
    isForked s m = true := by
  cases s with
  | none => cases h
  | some block =>
    have hblock : (block : ℤ) ≤ n := of_decide_eq_true h
    exact decide_eq_true (hblock.trans hle)

section Calls
variable {config : ForkConfig} {h : BigHeap DifficultyVar} {b : ℤ}

theorem returned_spec (hb : Holds h b) (hpos : 1 ≤ b) {call : Call Hash}
    (hbyzantium : call.Byzantium config) :
    (returned emptyUncleHash config call h).1 = ruleAt emptyUncleHash b call.time call.parent ∧
      Holds (returned emptyUncleHash config call h).2 (big1After b call.parent) := by
  have hbig1 : h.val (var big1) = b := hb big1
  have hb₁ := hb.alloc (call.parent.number+b)
  have hnumber : (h.alloc (call.parent.number+b)).val (.inr h.next) = call.parent.number+b :=
    val_alloc_self ..
  have hfork : isForked config.byzantiumBlock (call.parent.number+b) = true :=
    isForked_mono (by omega) hbyzantium
  obtain ⟨p, h', hrun, hval, hb'⟩ :=
    calcDifficultyByzantium_apply emptyUncleHash hb₁ call.time call.parent
  have hcall : calcDifficulty emptyUncleHash config call.time call.parent h = (p, h') := by
    unfold calcDifficulty
    simp only [bind_load, bind_new, hbig1, hnumber, hfork, if_true]
    exact hrun
  unfold returned
  rw [hcall]
  exact ⟨hval, hb'⟩

/-- After a list of calls `big1` is in order exactly if it was and every call spared it; otherwise it
is too large. -/
theorem foldl_returned_spec {calls : List (Call Hash)} (hb : Holds h b) (hpos : 1 ≤ b)
    (hbyzantium : ∀ call ∈ calls, call.Byzantium config) :
    ∃ b', Holds (calls.foldl (fun h call => (returned emptyUncleHash config call h).2) h) b' ∧
      ((b = 1 ∧ (∀ call ∈ calls, call.SparesBig1) ∧ b' = 1) ∨
        (¬(b = 1 ∧ ∀ call ∈ calls, call.SparesBig1) ∧ 2 ≤ b')) := by
  induction calls generalizing h b with
  | nil =>
    refine ⟨b, hb, ?_⟩
    rcases hpos.eq_or_lt with rfl | hlt
    · exact .inl ⟨rfl, by simp, rfl⟩
    · exact .inr ⟨fun h => hlt.ne' h.1, hlt⟩
  | cons call calls ih =>
    have hcall := hbyzantium call List.mem_cons_self
    have hrest : ∀ call ∈ calls, call.Byzantium config :=
      fun c hc => hbyzantium c (List.mem_cons_of_mem _ hc)
    have hb₁ := (returned_spec emptyUncleHash hb hpos hcall).2
    simp only [List.foldl_cons, List.forall_mem_cons]
    rcases hpos.eq_or_lt with rfl | hlt
    · rcases big1After_one call with ⟨hspares, hone⟩ | ⟨hspoils, htwo⟩
      · rw [hone] at hb₁
        obtain ⟨b', hb', hcases⟩ := ih hb₁ le_rfl hrest
        refine ⟨b', hb', ?_⟩
        simpa only [hspares, true_and] using hcases
      · obtain ⟨b', hb', hcases⟩ := ih hb₁ (by omega) hrest
        refine ⟨b', hb', .inr ⟨fun h => hspoils h.2.1, ?_⟩⟩
        rcases hcases with ⟨hone, -⟩ | ⟨-, hle⟩
        · omega
        · exact hle
    · have htwo := two_le_big1After hlt call.parent
      obtain ⟨b', hb', hcases⟩ := ih hb₁ (by omega) hrest
      refine ⟨b', hb', .inr ⟨fun h => hlt.ne' h.1, ?_⟩⟩
      rcases hcases with ⟨hone, -⟩ | ⟨-, hle⟩
      · omega
      · exact hle

theorem start_holds : Holds start 1 := by
  intro v
  cases v <;> rfl

def revealing (call : Call Hash) : Call Hash :=
  ⟨0, { call.parent with
    uncleHash := emptyUncleHash
    time := 0
    difficulty := 256 * (2 ^ (delayedPeriods call.parent - 2).toNat+1) }⟩

theorem ruleAt_of_difficulty {parent : UnsignedHeader Hash} {d : ℤ}
    (hdifficulty : (parent.difficulty : ℤ) = 256 * d) (hpos : 0 < d)
    (huncle : parent.uncleHash = emptyUncleHash) (htime : parent.time = 0) (hb : 1 ≤ b) :
    ruleAt emptyUncleHash b 0 parent = (256+b) * d +
      if b < delayedPeriods parent then 2 ^ (delayedPeriods parent - 2).toNat else 0 := by
  have hstep : (parent.difficulty : ℤ) / 256 = d := by omega
  have hfactor : max (b - (((0 : ℕ) : ℤ) - (0 : ℕ)) / 6) (-99) = b := by omega
  simp only [ruleAt, hstep, huncle, htime, if_true, hfactor]
  rw [if_neg hpos.ne', hdifficulty, max_eq_left (by nlinarith)]
  ring

/-- The step grows by more than the bomb can take away. -/
theorem ruleAt_revealing_ne (call : Call Hash) (hb : 2 ≤ b) :
    ruleAt emptyUncleHash b (revealing emptyUncleHash call).time (revealing emptyUncleHash call).parent ≠
      ruleAt emptyUncleHash 1 (revealing emptyUncleHash call).time
        (revealing emptyUncleHash call).parent := by
  have hpow : (0 : ℤ) < 2 ^ (delayedPeriods call.parent - 2).toNat := by positivity
  have hdifficulty : ((revealing emptyUncleHash call).parent.difficulty : ℤ) =
      256 * (2 ^ (delayedPeriods call.parent - 2).toNat+1) := by
    simp [revealing]
  have hrule {b : ℤ} (hb : 1 ≤ b) :=
    ruleAt_of_difficulty emptyUncleHash hdifficulty (by omega) rfl rfl hb
  change ruleAt _ b 0 _ ≠ ruleAt _ 1 0 _
  rw [hrule (by omega), hrule le_rfl,
    show delayedPeriods (revealing emptyUncleHash call).parent = delayedPeriods call.parent from rfl]
  generalize (2 : ℤ) ^ (delayedPeriods call.parent - 2).toNat = bomb at hpow ⊢
  have hgrow : bomb+1 ≤ (b-1) * (bomb+1) := le_mul_of_one_le_left (by omega) (by omega)
  intro heq
  split_ifs at heq
  all_goals nlinarith

/-- A difficulty is a function of the call, whatever calls were made before it, exactly if each of
those spared `big1`. -/
theorem calcDifficulty_pure_iff {calls : List (Call Hash)}
    (hbyzantium : ∀ call ∈ calls, call.Byzantium config) :
    (∀ call : Call Hash, call.Byzantium config → 0 < call.parent.difficulty →
      (returned emptyUncleHash config call (afterCalls emptyUncleHash config calls)).1 =
        call.byzantiumDifficulty emptyUncleHash) ↔
    ∀ call ∈ calls, call.SparesBig1 := by
  obtain ⟨b, hb, hcases⟩ := foldl_returned_spec emptyUncleHash start_holds le_rfl hbyzantium
  change Holds (afterCalls emptyUncleHash config calls) b at hb
  constructor
  · intro hpure
    by_contra hspoiled
    have htwo : 2 ≤ b := (hcases.resolve_left fun h => hspoiled h.2.1).2
    have hex : ∃ call ∈ calls, ¬call.SparesBig1 := by
      by_contra hnone
      exact hspoiled (fun call hmem => not_not.mp fun hnot => hnone ⟨call, hmem, hnot⟩)
    obtain ⟨call, hmem, -⟩ := hex
    have hcall : (revealing emptyUncleHash call).Byzantium config := hbyzantium call hmem
    have hval := (returned_spec emptyUncleHash hb (by omega) hcall).1
    rw [hpure _ hcall (by simp [revealing]), ← ruleAt_one] at hval
    exact ruleAt_revealing_ne emptyUncleHash call htwo hval.symm
  · intro hspares call hcall hpos
    have hone : b = 1 := by
      rcases hcases with ⟨-, -, hone⟩ | ⟨hnot, -⟩
      · exact hone
      · exact absurd ⟨rfl, hspares⟩ hnot
    rw [hone] at hb
    rw [(returned_spec emptyUncleHash hb le_rfl hcall).1, ruleAt_one]

end Calls

section Sample

def lowCall : Call ℕ := ⟨10, ⟨0, 0, 0, 0, 0, 0, 0, 100, 3299999, 0, 0, 10, [], ⟨0, []⟩, [], []⟩⟩

theorem calcDifficulty_pure_before_ice_age :
    Call.Byzantium ⟨none, some 0⟩ ⟨10, { lowCall.parent with number := 5 }⟩ ∧
    (returned 0 ⟨none, some 0⟩ lowCall (afterCalls 0 ⟨none, some 0⟩
      [⟨10, { lowCall.parent with number := 5 }⟩])).1 = lowCall.byzantiumDifficulty 0 := by
  refine ⟨rfl, ?_⟩
  apply (calcDifficulty_pure_iff 0 ?_).mpr
  · simp [Call.SparesBig1]
  · rfl
  · decide
  · simp [Call.Byzantium, isForked]

/-- The same call made twice: the second difficulty is 106 in place of 103. -/
theorem second_call_differs :
    (returned 0 ⟨none, some 0⟩ lowCall (afterCalls 0 ⟨none, some 0⟩ [])).1 =
      lowCall.byzantiumDifficulty 0 ∧
    lowCall.byzantiumDifficulty 0 = 103 ∧
    (returned 0 ⟨none, some 0⟩ lowCall (afterCalls 0 ⟨none, some 0⟩ [lowCall])).1 = 106 := by
  decide +kernel

end Sample

end Difficulty

end MatrixNode
