import MatrixNode.ObjectTable
import MatrixNode.StepRun
import Mathlib.Data.UInt

/-! `blkverify/process_manage.go` and `blockgenor/process_manage.go`: each service has a process for
every height that it is asked for. -/
namespace MatrixNode
open GoLib GoMap ObjectTable

structure ProcessManage where
  curNumber : UInt64
  processMap : ObjectTable UInt64

def newProcessManage : ProcessManage := ⟨0, .empty⟩

def numberLessErr (number curNumber : UInt64) : GoError :=
  .error ("number(" ++ toString number.toNat ++ ") is less than current number(" ++
    toString curNumber.toNat ++ ")")

def numberTooBigErr (number curNumber : UInt64) : GoError :=
  .error ("number(" ++ toString number.toNat ++ ") is too big than current number(" ++
    toString curNumber.toNat ++ ")")

def checkNumber (minNumber curNumber number : UInt64) : Except GoError Unit :=
  if number < minNumber then .error (numberLessErr number curNumber)
  else if curNumber+2 < number then .error (numberTooBigErr number curNumber)
  else .ok ()

theorem checkNumber_ok {minNumber curNumber number : UInt64}
    (h : checkNumber minNumber curNumber number = .ok ()) :
    minNumber.toNat ≤ number.toNat ∧ number.toNat ≤ curNumber.toNat+2 := by
  obtain ⟨hmin, h⟩ := ite_error_eq_ok.mp h
  obtain ⟨hmax, -⟩ := ite_error_eq_ok.mp h
  rw [UInt64.not_lt, UInt64.le_iff_toNat_le] at hmin hmax
  rw [UInt64.toNat_add] at hmax
  have htwo : (2 : UInt64).toNat = 2 := rfl
  refine ⟨hmin, hmax.trans ?_⟩
  exact Nat.mod_le _ _

namespace ProcessManage
variable (pm : ProcessManage)

def getProcess (number : UInt64) : ProcessManage × ℕ :=
  ({ pm with processMap := (pm.processMap.get number).1 }, (pm.processMap.get number).2)

def dropBelow (order : Ranger UInt64 ℕ) (bound : UInt64) : ProcessManage :=
  if pm.processMap.objects.len = 0 then pm
  else { pm with processMap := pm.processMap.prune order (fun key => key < bound) }

/-- The manager has processes only for the heights from `lo` to `hi`. -/
def Within (lo hi : ℕ) : Prop :=
  ∀ number ∈ pm.processMap.objects, lo ≤ number.toNat ∧ number.toNat ≤ hi

variable {pm} {lo hi : ℕ}

theorem within_getProcess_iff {number : UInt64} :
    (pm.getProcess number).1.Within lo hi ↔
      (lo ≤ number.toNat ∧ number.toNat ≤ hi) ∧ pm.Within lo hi := by
  constructor
  · intro h
    refine ⟨h number (mem_get.mpr (.inl rfl)), ?_⟩
    intro other hother
    exact h other (mem_get.mpr (.inr hother))
  · rintro ⟨hnumber, h⟩ other hother
    rcases mem_get.mp hother with rfl | hother
    · exact hnumber
    · exact h other hother

theorem curNumber_dropBelow (order : Ranger UInt64 ℕ) (bound : UInt64) :
    (pm.dropBelow order bound).curNumber = pm.curNumber := by
  unfold dropBelow
  split_ifs <;> rfl

/-- The source returns early from an empty map. -/
theorem mem_dropBelow {order : Ranger UInt64 ℕ} {bound number : UInt64} :
    number ∈ (pm.dropBelow order bound).processMap.objects ↔
      number ∈ pm.processMap.objects ∧ bound.toNat ≤ number.toNat := by
  unfold dropBelow
  split_ifs with hlen
  · have hempty := eq_empty_of_len_eq_zero (Nat.not_lt.mpr (Nat.le_of_eq hlen))
    have hnot : number ∉ pm.processMap.objects := by
      rw [hempty]
      exact Finmap.notMem_empty
    exact iff_of_false hnot (fun h => hnot h.1)
  · rw [mem_prune, decide_eq_true_eq, UInt64.not_lt, UInt64.le_iff_toNat_le]

theorem Within.dropBelow {hi' : ℕ} (h : pm.Within lo hi) (hhi : hi ≤ hi')
    (order : Ranger UInt64 ℕ) (bound : UInt64) :
    (pm.dropBelow order bound).Within bound.toNat hi' := by
  intro number hnumber
  obtain ⟨hin, hbound⟩ := mem_dropBelow.mp hnumber
  exact ⟨hbound, (h number hin).2.trans hhi⟩

end ProcessManage

/-! ### The manager of the verification service -/
namespace BlkVerify
variable (pm : ProcessManage)

def isLegalNumber (number : UInt64) : Except GoError Unit :=
  checkNumber pm.curNumber pm.curNumber number

def fixProcessMap (order : Ranger UInt64 ℕ) (pm : ProcessManage) : ProcessManage :=
  pm.dropBelow order pm.curNumber

def setCurNumber (order : Ranger UInt64 ℕ) (pm : ProcessManage) (number : UInt64) : ProcessManage :=
  fixProcessMap order { pm with curNumber := number }

def getCurrentProcess : ProcessManage × ℕ := pm.getProcess pm.curNumber

def getProcess (pm : ProcessManage) (number : UInt64) : ProcessManage × Except GoError ℕ :=
  match isLegalNumber pm number with
  | .error err => (pm, .error err)
  | .ok _ => ((pm.getProcess number).1, .ok (pm.getProcess number).2)

inductive ManageCall where
  | setCurNumber (number : UInt64) (order : Ranger UInt64 ℕ)
  | getCurrentProcess
  | getProcess (number : UInt64)

def manage : ManageCall → ProcessManage
  | .setCurNumber number order => setCurNumber order pm number
  | .getCurrentProcess => (getCurrentProcess pm).1
  | .getProcess number => (getProcess pm number).1

def manageStep (call : ManageCall) : Except GoError ProcessManage := .ok (manage pm call)

def Window : Prop := pm.Within pm.curNumber.toNat (pm.curNumber.toNat+2)

/-- A role update is not for a lower height than the one before it. -/
def InOrder : ManageCall → Prop
  | .setCurNumber number _ => pm.curNumber ≤ number
  | .getCurrentProcess => True
  | .getProcess _ => True

variable {pm : ProcessManage}

theorem curNumber_setCurNumber (order : Ranger UInt64 ℕ) (number : UInt64) :
    (setCurNumber order pm number).curNumber = number :=
  ProcessManage.curNumber_dropBelow ..

theorem window_setCurNumber (h : Window pm) {number : UInt64} (hle : pm.curNumber ≤ number)
    (order : Ranger UInt64 ℕ) : Window (setCurNumber order pm number) := by
  have hhi : pm.curNumber.toNat+2 ≤ number.toNat+2 := Nat.add_le_add_right hle 2
  unfold Window
  rw [curNumber_setCurNumber]
  have hmoved : ({ pm with curNumber := number } : ProcessManage).Within _ _ := h
  exact hmoved.dropBelow hhi order number

/-- The lower end moves with the height; the upper end is above the old one if the height rises. -/
theorem manage_window_iff (h : Window pm) (call : ManageCall) :
    (pm.curNumber ≤ (manage pm call).curNumber ∧ Window (manage pm call)) ↔ InOrder pm call := by
  cases call with
  | setCurNumber number order =>
    show _ ≤ (setCurNumber order pm number).curNumber ∧ Window (setCurNumber order pm number) ↔ _
    rw [curNumber_setCurNumber]
    exact ⟨fun hgood => hgood.1, fun hle => ⟨hle, window_setCurNumber h hle order⟩⟩
  | getCurrentProcess =>
    have hself : pm.curNumber.toNat ≤ pm.curNumber.toNat ∧ pm.curNumber.toNat ≤ pm.curNumber.toNat+2 :=
      ⟨le_refl _, Nat.le_add_right _ 2⟩
    have hget : Window (getCurrentProcess pm).1 := ProcessManage.within_getProcess_iff.mpr ⟨hself, h⟩
    exact iff_of_true ⟨UInt64.le_refl _, hget⟩ trivial
  | getProcess number =>
    rw [manage, getProcess]
    rcases hlegal : isLegalNumber pm number with err | ok
    · exact iff_of_true ⟨UInt64.le_refl _, h⟩ trivial
    · have hget := ProcessManage.within_getProcess_iff.mpr ⟨checkNumber_ok hlegal, h⟩
      exact iff_of_true ⟨UInt64.le_refl _, hget⟩ trivial

end BlkVerify

/-! ### The manager of the generating service -/
namespace BlockGenor
variable (pm : ProcessManage)

def minNumber : UInt64 :=
  if pm.curNumber < 1 then 0 else pm.curNumber-1

def isLegalNumber (number : UInt64) : Except GoError Unit :=
  checkNumber (minNumber pm) pm.curNumber number

def fixProcessMap (order : Ranger UInt64 ℕ) (pm : ProcessManage) : ProcessManage :=
  if pm.curNumber = 0 then pm else pm.dropBelow order (pm.curNumber-1)

def setCurNumber (order : Ranger UInt64 ℕ) (pm : ProcessManage) (number : UInt64) : ProcessManage :=
  fixProcessMap order { pm with curNumber := number }

def getCurrentProcess : ProcessManage × ℕ := pm.getProcess pm.curNumber

def getProcess (pm : ProcessManage) (number : UInt64) : ProcessManage × Except GoError ℕ :=
  match isLegalNumber pm number with
  | .error err => (pm, .error err)
  | .ok _ => ((pm.getProcess number).1, .ok (pm.getProcess number).2)

/-- The height before the requested one is not checked. -/
def getProcessAndPreProcess (number : UInt64) : ProcessManage × Except GoError (ℕ × Option ℕ) :=
  match isLegalNumber pm number with
  | .error err => (pm, .error err)
  | .ok _ =>
    let (pm,process) := pm.getProcess number
    if number = 0 then (pm, .ok (process,none))
    else
      let (pm,preProcess) := pm.getProcess (number-1)
      (pm, .ok (process,some preProcess))

inductive ManageCall where
  | setCurNumber (number : UInt64) (order : Ranger UInt64 ℕ)
  | getCurrentProcess
  | getProcess (number : UInt64)
  | getProcessAndPreProcess (number : UInt64)

def manage : ManageCall → ProcessManage
  | .setCurNumber number order => setCurNumber order pm number
  | .getCurrentProcess => (getCurrentProcess pm).1
  | .getProcess number => (getProcess pm number).1
  | .getProcessAndPreProcess number => (getProcessAndPreProcess pm number).1

def manageStep (call : ManageCall) : Except GoError ProcessManage := .ok (manage pm call)

/-- The window that the manager is meant to have; below height 0 there is nothing. -/
def Window : Prop := pm.Within (pm.curNumber.toNat-1) (pm.curNumber.toNat+2)

/-- A role update is not for a lower height than the one before it, and no process is asked for
together with its predecessor at the lowest height that is served, unless that is height 0. -/
def InOrder : ManageCall → Prop
  | .setCurNumber number _ => pm.curNumber ≤ number
  | .getCurrentProcess => True
  | .getProcess _ => True
  | .getProcessAndPreProcess number =>
    isLegalNumber pm number = .ok () → number.toNat+1 = pm.curNumber.toNat → number = 0

variable {pm : ProcessManage}

variable {number : UInt64}

theorem toNat_pred (h : number ≠ 0) : (number-1).toNat = number.toNat-1 := by
  have hpos : 1 ≤ number :=
    Nat.one_le_iff_ne_zero.mpr (fun hz => h (UInt64.toNat_inj.mp hz))
  exact UInt64.toNat_sub_of_le _ _ hpos

theorem toNat_minNumber : (minNumber pm).toNat = pm.curNumber.toNat-1 := by
  unfold minNumber
  by_cases hzero : pm.curNumber = 0
  · rw [hzero]
    rfl
  · have hge : ¬ pm.curNumber < 1 := by
      intro hlt
      have hone : (1 : UInt64).toNat = 1 := rfl
      exact hzero (UInt64.toNat_inj.mp (Nat.lt_one_iff.mp (hone ▸ hlt)))
    rw [if_neg hge, toNat_pred hzero]

theorem isLegalNumber_ok (h : isLegalNumber pm number = .ok ()) :
    pm.curNumber.toNat-1 ≤ number.toNat ∧ number.toNat ≤ pm.curNumber.toNat+2 := by
  have hbounds := checkNumber_ok h
  rw [toNat_minNumber] at hbounds
  exact hbounds

theorem curNumber_setCurNumber (order : Ranger UInt64 ℕ) (number : UInt64) :
    (setCurNumber order pm number).curNumber = number := by
  unfold setCurNumber fixProcessMap
  split_ifs
  · rfl
  · exact ProcessManage.curNumber_dropBelow ..

/-- At height 0 nothing is dropped. -/
theorem window_setCurNumber (h : Window pm) (hle : pm.curNumber ≤ number)
    (order : Ranger UInt64 ℕ) : Window (setCurNumber order pm number) := by
  have hhi : pm.curNumber.toNat+2 ≤ number.toNat+2 := Nat.add_le_add_right hle 2
  unfold Window
  rw [curNumber_setCurNumber]
  unfold setCurNumber fixProcessMap
  by_cases hzero : number = 0
  · subst hzero
    intro other hother
    exact ⟨Nat.zero_le _, (h other hother).2.trans hhi⟩
  · rw [if_neg hzero, ← toNat_pred hzero]
    have hmoved : ({ pm with curNumber := number } : ProcessManage).Within _ _ := h
    exact hmoved.dropBelow hhi order (number-1)

theorem curNumber_getProcessAndPreProcess (number : UInt64) :
    (getProcessAndPreProcess pm number).1.curNumber = pm.curNumber := by
  unfold getProcessAndPreProcess
  split
  · rfl
  · split_ifs <;> rfl

/-- The lowest legal height is the one before the current, and its predecessor is below it. -/
theorem window_getProcessAndPreProcess_iff (h : Window pm) (number : UInt64) :
    Window (getProcessAndPreProcess pm number).1 ↔ InOrder pm (.getProcessAndPreProcess number) := by
  unfold Window
  rw [curNumber_getProcessAndPreProcess]
  unfold getProcessAndPreProcess InOrder
  rcases hlegal : isLegalNumber pm number with err | ok
  · have hrefused : ¬ isLegalNumber pm number = .ok () := by
      rw [hlegal]
      nofun
    exact iff_of_true h (fun hok => absurd hok hrefused)
  · have hbounds := isLegalNumber_ok hlegal
    dsimp only
    by_cases hzero : number = 0
    · rw [if_pos hzero]
      exact iff_of_true (ProcessManage.within_getProcess_iff.mpr ⟨hbounds, h⟩) (fun _ _ => hzero)
    · have hpos : number.toNat ≠ 0 := fun hz => hzero (UInt64.toNat_inj.mp hz)
      rw [if_neg hzero]
      rw [ProcessManage.within_getProcess_iff, ProcessManage.within_getProcess_iff, toNat_pred hzero]
      constructor
      · rintro ⟨hpre, -⟩ - hlowest
        omega
      · intro hcond
        have hnot : number.toNat+1 ≠ pm.curNumber.toNat := fun heq => hzero (hcond hlegal heq)
        exact ⟨by omega, hbounds, h⟩

/-- From a proper window a call goes wrong exactly if it is out of order. -/
theorem manage_window_iff (h : Window pm) (call : ManageCall) :
    (pm.curNumber ≤ (manage pm call).curNumber ∧ Window (manage pm call)) ↔ InOrder pm call := by
  cases call with
  | setCurNumber number order =>
    show _ ≤ (setCurNumber order pm number).curNumber ∧ Window (setCurNumber order pm number) ↔ _
    rw [curNumber_setCurNumber]
    exact ⟨fun hgood => hgood.1, fun hle => ⟨hle, window_setCurNumber h hle order⟩⟩
  | getCurrentProcess =>
    have hself : pm.curNumber.toNat-1 ≤ pm.curNumber.toNat ∧
        pm.curNumber.toNat ≤ pm.curNumber.toNat+2 := ⟨Nat.sub_le _ 1, Nat.le_add_right _ 2⟩
    have hget : Window (getCurrentProcess pm).1 := ProcessManage.within_getProcess_iff.mpr ⟨hself, h⟩
    exact iff_of_true ⟨UInt64.le_refl _, hget⟩ trivial
  | getProcess number =>
    rw [manage, getProcess]
    rcases hlegal : isLegalNumber pm number with err | ok
    · exact iff_of_true ⟨UInt64.le_refl _, h⟩ trivial
    · have hget := ProcessManage.within_getProcess_iff.mpr ⟨isLegalNumber_ok hlegal, h⟩
      exact iff_of_true ⟨UInt64.le_refl _, hget⟩ trivial
  | getProcessAndPreProcess number =>
    have hcur : pm.curNumber ≤ (getProcessAndPreProcess pm number).1.curNumber := by
      rw [curNumber_getProcessAndPreProcess]
      exact UInt64.le_refl _
    exact (and_iff_right hcur).trans (window_getProcessAndPreProcess_iff h number)

end BlockGenor

theorem within_newProcessManage (lo hi : ℕ) : newProcessManage.Within lo hi := by
  intro number hnumber
  exact absurd hnumber Finmap.notMem_empty

/-- The current height never falls and the processes stay in their window exactly if all calls are
in order. -/
theorem windows_kept_iff (verifyCalls : List BlkVerify.ManageCall)
    (genCalls : List BlockGenor.ManageCall) :
    (EachStep BlkVerify.manageStep
        (fun pm _ pm' => pm.curNumber ≤ pm'.curNumber ∧ BlkVerify.Window pm')
        newProcessManage verifyCalls ↔
      EachBefore BlkVerify.manageStep BlkVerify.InOrder newProcessManage verifyCalls) ∧
    (EachStep BlockGenor.manageStep
        (fun pm _ pm' => pm.curNumber ≤ pm'.curNumber ∧ BlockGenor.Window pm')
        newProcessManage genCalls ↔
      EachBefore BlockGenor.manageStep BlockGenor.InOrder newProcessManage genCalls) := by
  constructor
  · apply eachStep_iff_eachBefore (fun pm call (_ : BlkVerify.Window pm) _ => ⟨_, rfl⟩) ?_
      (fun _ _ _ _ hgood _ => hgood.2) (within_newProcessManage _ _)
    intro pm call pm' h hstep
    cases hstep
    exact BlkVerify.manage_window_iff h call
  · apply eachStep_iff_eachBefore (fun pm call (_ : BlockGenor.Window pm) _ => ⟨_, rfl⟩) ?_
      (fun _ _ _ _ hgood _ => hgood.2) (within_newProcessManage _ _)
    intro pm call pm' h hstep
    cases hstep
    exact BlockGenor.manage_window_iff h call

/-- A role update for height 3 after one for height 5 leaves the verifying manager with a process
for height 7, and the generating one makes one for height 1. -/
theorem windows_lost : ∃ pm₀ pm₁ pm₂ : ProcessManage,
    run BlkVerify.manageStep newProcessManage [.setCurNumber 5 default, .getProcess 7] = .ok pm₀ ∧
    BlkVerify.manageStep pm₀ (.setCurNumber 3 default) = .ok pm₁ ∧
    pm₁.curNumber < pm₀.curNumber ∧ ¬ BlkVerify.Window pm₁ ∧
    run BlockGenor.manageStep newProcessManage
      [.setCurNumber 3 default, .getProcessAndPreProcess 2] = .ok pm₂ ∧ ¬ BlockGenor.Window pm₂ := by
  have hseven : (7 : UInt64) ∈ (ProcessManage.getProcess ⟨5, .empty⟩ 7).1.processMap.objects :=
    mem_get.mpr (.inl rfl)
  refine ⟨(ProcessManage.getProcess ⟨5, .empty⟩ 7).1,
    BlkVerify.setCurNumber default (ProcessManage.getProcess ⟨5, .empty⟩ 7).1 3,
    ((ProcessManage.getProcess ⟨3, .empty⟩ 2).1.getProcess 1).1, rfl, rfl, ?_, ?_, rfl, ?_⟩
  · decide
  · intro hwindow
    have hle := (hwindow 7 (ProcessManage.mem_dropBelow.mpr ⟨hseven, by decide⟩)).2
    exact absurd hle (by decide)
  · intro hwindow
    have hle := (hwindow 1 (mem_get.mpr (.inl rfl))).1
    exact absurd hle (by decide)

end MatrixNode
