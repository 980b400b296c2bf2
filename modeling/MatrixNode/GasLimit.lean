import MatrixNode.DposEngine

/-! The gas limit of the next block: `CalcGasLimit` of `core/block_validator.go`, and the rule of
`verifyHeader` in `consensus/manash/consensus.go` that its result has to pass. -/
namespace MatrixNode
open GoLib UInt64
variable {Hash : Type}

def gasLimitBoundDivisor : UInt64 := 1024

def minGasLimit : UInt64 := 5000

def gasLimitCap : UInt64 := 0x7fffffffffffffff

section Source
variable (parent : Header Hash)

def gasContrib : UInt64 := (parent.gasUsed+parent.gasUsed/2)/gasLimitBoundDivisor

def gasDecay : UInt64 := parent.gasLimit/gasLimitBoundDivisor-1

/-- `params.TargetGasLimit` is a variable that a node can set. -/
def calcGasLimit (targetGasLimit : UInt64) : UInt64 :=
  let limit := parent.gasLimit-gasDecay parent+gasContrib parent
  let limit := if limit < minGasLimit then minGasLimit else limit
  if limit < targetGasLimit then
    let limit := parent.gasLimit+gasDecay parent
    if targetGasLimit < limit then targetGasLimit else limit
  else limit

/-- The checks of `verifyHeader` on the gas limit alone. -/
def verifyGasLimit (gasLimit : UInt64) : Except GoError Unit :=
  if gasLimitCap < gasLimit then
    .error (.error s!"invalid gasLimit: have {gasLimit}, max {gasLimitCap}")
  else
    let diff := int64 (int64 parent.gasLimit.toNat-int64 gasLimit.toNat)
    let diff := if diff < 0 then int64 (diff*(-1)) else diff
    let limit := parent.gasLimit/gasLimitBoundDivisor
    if limit.toNat ≤ (diff % 2^64).toNat ∨ gasLimit < minGasLimit then
      .error (.error s!"invalid gas limit: have {gasLimit}, want {parent.gasLimit} += {limit}")
    else .ok ()

/-- No sum of the computation reaches `2^64`, and nothing is taken from less than itself. -/
structure CalcFits : Prop where
  used : parent.gasUsed.toNat+(parent.gasUsed/2).toNat < 2^64
  decay : 1 ≤ (parent.gasLimit/gasLimitBoundDivisor).toNat
  lowered : (gasDecay parent).toNat ≤ parent.gasLimit.toNat
  limit : (parent.gasLimit-gasDecay parent).toNat+(gasContrib parent).toNat < 2^64
  raised : parent.gasLimit.toNat+(gasDecay parent).toNat < 2^64

end Source

variable {parent : Header Hash}

theorem toNat_div_bound (gasLimit : UInt64) :
    (gasLimit/gasLimitBoundDivisor).toNat = gasLimit.toNat/1024 :=
  UInt64.toNat_div ..

theorem verifyGasLimit_eq_ok {gasLimit : UInt64} (hparent : parent.gasLimit ≤ gasLimitCap)
    (hcap : gasLimit ≤ gasLimitCap) (hmin : minGasLimit ≤ gasLimit)
    (hlow : parent.gasLimit.toNat < gasLimit.toNat+parent.gasLimit.toNat/1024)
    (hhigh : gasLimit.toNat < parent.gasLimit.toNat+parent.gasLimit.toNat/1024) :
    verifyGasLimit parent gasLimit = .ok () := by
  have hp : parent.gasLimit.toNat < 2^63 := Nat.lt_succ_of_le (le_iff_toNat_le.mp hparent)
  have hg : gasLimit.toNat < 2^63 := Nat.lt_succ_of_le (le_iff_toNat_le.mp hcap)
  unfold verifyGasLimit
  rw [if_neg (UInt64.not_lt.mpr hcap)]
  dsimp only
  rw [toNat_div_bound, int64_eq_self (x := parent.gasLimit.toNat) (by omega) (by omega),
    int64_eq_self (x := gasLimit.toNat) (by omega) (by omega), int64_eq_self (by omega) (by omega)]
  refine if_neg (not_or.mpr ⟨?_, UInt64.not_lt.mpr hmin⟩)
  split_ifs
  · rw [int64_eq_self (by omega) (by omega)]
    omega
  · omega

theorem toNat_gasDecay (hmin : minGasLimit ≤ parent.gasLimit) :
    (gasDecay parent).toNat = parent.gasLimit.toNat/1024-1 := by
  have hmin' : 5000 ≤ parent.gasLimit.toNat := le_iff_toNat_le.mp hmin
  have hone : 1 ≤ parent.gasLimit/gasLimitBoundDivisor := by
    rw [le_iff_toNat_le, toNat_div_bound]
    exact Nat.div_pos (by omega) (by decide)
  rw [gasDecay, UInt64.toNat_sub_of_le _ _ hone]
  rfl

theorem toNat_gasContrib (h : parent.gasUsed.toNat < 2^63) :
    (gasContrib parent).toNat = (parent.gasUsed.toNat+parent.gasUsed.toNat/2)/1024 := by
  have hhalf : (parent.gasUsed/2).toNat = parent.gasUsed.toNat/2 := UInt64.toNat_div ..
  rw [gasContrib, UInt64.toNat_div, UInt64.toNat_add, Nat.mod_eq_of_lt (by omega)]
  rfl

/-- A block without room for a transaction has used no gas; of all others the new limit stays within
the bound of the rule, whatever the target is. -/
theorem calcGasLimit_verifies (parent : Header Hash) (targetGasLimit : UInt64)
    (hmin : minGasLimit ≤ parent.gasLimit) (hused : parent.gasUsed ≤ parent.gasLimit)
    (hcap : parent.gasLimit ≤ gasLimitCap) (hidle : parent.gasLimit < 21000 → parent.gasUsed = 0)
    (hresult : calcGasLimit parent targetGasLimit ≤ gasLimitCap) :
    verifyGasLimit parent (calcGasLimit parent targetGasLimit) = .ok () ∧ CalcFits parent := by
  have hmin' : 5000 ≤ parent.gasLimit.toNat := le_iff_toNat_le.mp hmin
  have hcap' : parent.gasLimit.toNat ≤ 2^63-1 := le_iff_toNat_le.mp hcap
  have hused' := le_iff_toNat_le.mp hused
  have hidle' : parent.gasLimit.toNat < 21000 → parent.gasUsed.toNat = 0 := by
    intro h
    rw [hidle (lt_iff_toNat_lt.mpr h)]
    rfl
  have hdecay := toNat_gasDecay hmin
  have hcontrib := toNat_gasContrib (show parent.gasUsed.toNat < 2^63 by omega)
  have hlowered : (parent.gasLimit-gasDecay parent).toNat =
      parent.gasLimit.toNat-(parent.gasLimit.toNat/1024-1) := by
    rw [UInt64.toNat_sub_of_le, hdecay]
    rw [le_iff_toNat_le]
    omega
  have hfits : CalcFits parent := by
    have hhalf : (parent.gasUsed/2).toNat = parent.gasUsed.toNat/2 := UInt64.toNat_div ..
    have hbound := toNat_div_bound parent.gasLimit
    constructor <;> omega
  have hlimit : (parent.gasLimit-gasDecay parent+gasContrib parent).toNat =
      (parent.gasLimit-gasDecay parent).toNat+(gasContrib parent).toNat := by
    rw [UInt64.toNat_add, Nat.mod_eq_of_lt hfits.limit]
  have hraised : (parent.gasLimit+gasDecay parent).toNat =
      parent.gasLimit.toNat+(gasDecay parent).toNat := by
    rw [UInt64.toNat_add, Nat.mod_eq_of_lt hfits.raised]
  refine ⟨?_, hfits⟩
  have hbounds : minGasLimit ≤ calcGasLimit parent targetGasLimit ∧
      parent.gasLimit.toNat < (calcGasLimit parent targetGasLimit).toNat+parent.gasLimit.toNat/1024 ∧
      (calcGasLimit parent targetGasLimit).toNat < parent.gasLimit.toNat+parent.gasLimit.toNat/1024 := by
    have hfive : minGasLimit.toNat = 5000 := rfl
    unfold calcGasLimit
    dsimp only
    split_ifs with hlow htarget hover htarget hover <;>
      simp only [lt_iff_toNat_lt, le_iff_toNat_le] at * <;> omega
  exact verifyGasLimit_eq_ok hcap hresult hbounds.1 hbounds.2.1 hbounds.2.2

def fullParent : Header ℕ :=
  ⟨⟨0, 0, 0, 0, 0, 0, 0, 1, 1, 21000, 21000, 0, [], ⟨0, []⟩, [], []⟩, 0, [], 0, 0⟩

theorem calcGasLimit_verifies_full :
    verifyGasLimit fullParent (calcGasLimit fullParent 4712388) = .ok () ∧ CalcFits fullParent :=
  calcGasLimit_verifies fullParent 4712388 (by decide) (by decide) (by decide) (by decide) (by decide)

end MatrixNode
