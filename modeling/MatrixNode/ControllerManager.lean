import MatrixNode.ProcessManage

/-! `verifier/ctrlManager.go`: the controllers of the heights around the current one. -/
namespace MatrixNode
open GoLib ObjectTable

/-- Controllers are objects here; `received` has the messages that the manager passes on to them. -/
structure ControllerManager (Msg : Type) where
  curNumber : UInt64
  ctrlMap : ObjectTable UInt64
  received : List (ℕ × Msg)

def newControllerManager {Msg : Type} : ControllerManager Msg := ⟨0, .empty, []⟩

namespace ControllerManager
variable {Msg : Type} (cm : ControllerManager Msg)

/-- `Close` closes a channel, and a channel can be closed once. -/
def fixCtrlMap (order : GoMap.Ranger UInt64 ℕ) : Except GoError (ControllerManager Msg) :=
  if cm.ctrlMap.objects.len = 0 then .ok cm
  else if ∃ e ∈ cm.ctrlMap.doomed order (fun key => key < cm.curNumber), e.2 ∈ cm.ctrlMap.closed then
    .error (.panic "close of closed channel")
  else .ok { cm with ctrlMap := cm.ctrlMap.prune order (fun key => key < cm.curNumber) }

def isLegalNumber (number : UInt64) : Except GoError Unit :=
  checkNumber cm.curNumber cm.curNumber number

def controllerAt (number : UInt64) : ControllerManager Msg × ℕ :=
  ({ cm with ctrlMap := (cm.ctrlMap.get number).1 }, (cm.ctrlMap.get number).2)

def receiveMsg (ctrl : ℕ) (msg : Msg) : ControllerManager Msg :=
  { cm with received := cm.received ++ [(ctrl,msg)] }

def raise (order : GoMap.Ranger UInt64 ℕ) (number : UInt64) : Except GoError (ControllerManager Msg) :=
  if cm.curNumber < number then { cm with curNumber := number }.fixCtrlMap order else .ok cm

def startController (order : GoMap.Ranger UInt64 ℕ) (number : UInt64) (msg : Msg) :
    Except GoError (ControllerManager Msg) :=
  if number < cm.curNumber then .ok cm
  else do
    let cm ← cm.raise order number
    let (cm,ctrl) := cm.controllerAt number
    pure (cm.receiveMsg ctrl msg)

def getController (number : UInt64) : ControllerManager Msg × Except GoError ℕ :=
  match cm.isLegalNumber number with
  | .error err => (cm, .error err)
  | .ok _ => ((cm.controllerAt number).1, .ok (cm.controllerAt number).2)

def getCurController : ControllerManager Msg × ℕ := cm.controllerAt cm.curNumber

end ControllerManager

inductive ControllerCall (Msg : Type) where
  | startController (number : UInt64) (msg : Msg) (order : GoMap.Ranger UInt64 ℕ)
  | getController (number : UInt64)
  | getCurController

namespace ControllerManager
variable {Msg : Type}

def step (cm : ControllerManager Msg) : ControllerCall Msg → Except GoError (ControllerManager Msg)
  | .startController number msg order => cm.startController order number msg
  | .getController number => .ok (cm.getController number).1
  | .getCurController => .ok cm.getCurController.1

/-- There are controllers only for the current height and the two after it. -/
def Window (cm : ControllerManager Msg) : Prop :=
  ∀ number ∈ cm.ctrlMap.objects,
    cm.curNumber.toNat ≤ number.toNat ∧ number.toNat ≤ cm.curNumber.toNat+2

/-- A controller has been closed once if its height is below the current one, and never otherwise. -/
def ClosedOnLeaving (cm : ControllerManager Msg) : Prop :=
  ∀ number ctrl, cm.ctrlMap.made[ctrl]? = some number →
    cm.ctrlMap.closed.count ctrl = if number < cm.curNumber then 1 else 0

/-- The first controller of a height is the one that the manager has as long as the height is not
passed. -/
structure Proper (cm : ControllerManager Msg) : Prop where
  window : cm.Window
  consistent : cm.ctrlMap.Consistent
  kept : ∀ number ctrl, cm.ctrlMap.made[ctrl]? = some number → cm.curNumber ≤ number →
    cm.ctrlMap.objects.lookup number = some ctrl

/-- What a call may do to the manager: the current height does not fall, and the controllers of the
heights that are not passed stay. -/
structure Advances (cm cm' : ControllerManager Msg) : Prop where
  curNumber_le : cm.curNumber ≤ cm'.curNumber
  same : ∀ number ctrl, cm.ctrlMap.objects.lookup number = some ctrl → cm'.curNumber ≤ number →
    cm'.ctrlMap.objects.lookup number = some ctrl

variable {cm cm' cm'' : ControllerManager Msg}

theorem Advances.refl (cm : ControllerManager Msg) : Advances cm cm :=
  ⟨UInt64.le_refl _, fun _ _ h _ => h⟩

theorem Advances.trans (h : Advances cm cm') (h' : Advances cm' cm'') : Advances cm cm'' := by
  constructor
  · exact UInt64.le_trans h.curNumber_le h'.curNumber_le
  · intro number ctrl hold hle
    exact h'.same number ctrl (h.same number ctrl hold (UInt64.le_trans h'.curNumber_le hle)) hle

theorem proper_newControllerManager : Proper (newControllerManager : ControllerManager Msg) := by
  refine ⟨?_, consistent_empty, ?_⟩
  · intro number hnumber
    exact absurd hnumber Finmap.notMem_empty
  · intro number ctrl hmade
    cases hmade

/-- What is below the window is not in the table any more. -/
theorem Proper.closedOnLeaving (h : cm.Proper) : cm.ClosedOnLeaving := by
  intro number ctrl hmade
  rw [h.consistent.once number ctrl hmade]
  by_cases hlt : number < cm.curNumber
  · have hgone : ¬ cm.ctrlMap.objects.lookup number = some ctrl := by
      intro hheld
      have hle := (h.window number (Finmap.mem_of_lookup_eq_some hheld)).1
      exact absurd hlt (UInt64.not_lt.mpr hle)
    rw [if_neg hgone, if_pos hlt]
  · rw [if_pos (h.kept number ctrl hmade (UInt64.not_lt.mp hlt)), if_neg hlt]

theorem Proper.controllerAt (h : cm.Proper) {number : UInt64}
    (hbounds : cm.curNumber.toNat ≤ number.toNat ∧ number.toNat ≤ cm.curNumber.toNat+2) :
    (cm.controllerAt number).1.Proper := by
  refine ⟨?_, h.consistent.get number, ?_⟩
  · intro other hother
    rcases mem_get.mp hother with rfl | hother
    · exact hbounds
    · exact h.window other hother
  · intro other ctrl hmade hle
    rcases made_get hmade with hmade | ⟨rfl, hnew⟩
    · exact lookup_get_of_lookup (h.kept other ctrl hmade hle)
    · exact hnew

theorem advances_controllerAt (number : UInt64) : Advances cm (cm.controllerAt number).1 :=
  ⟨UInt64.le_refl _, fun _ _ hold _ => lookup_get_of_lookup hold⟩

theorem fixCtrlMap_eq (cm : ControllerManager Msg) (h : cm.ctrlMap.Consistent)
    (order : GoMap.Ranger UInt64 ℕ) :
    ∃ cm', cm.fixCtrlMap order = .ok cm' ∧ cm'.curNumber = cm.curNumber ∧
      cm'.ctrlMap.Consistent ∧ cm'.ctrlMap.made = cm.ctrlMap.made ∧
      ∀ number, cm'.ctrlMap.objects.lookup number =
        if number < cm.curNumber then none else cm.ctrlMap.objects.lookup number := by
  unfold fixCtrlMap
  split_ifs with hlen hclosed
  · refine ⟨cm, rfl, rfl, h, rfl, ?_⟩
    intro number
    rw [GoMap.eq_empty_of_len_eq_zero (Nat.not_lt.mpr (Nat.le_of_eq hlen)), Finmap.lookup_empty,
      ite_self]
  · obtain ⟨⟨number,ctrl⟩, he, hin⟩ := hclosed
    exact absurd hin (h.open_of_lookup (mem_doomed.mp he).1)
  · refine ⟨_, rfl, rfl, h.prune order _, rfl, ?_⟩
    intro number
    rw [lookup_prune]
    simp only [decide_eq_true_eq]

/-- The heights that are left are not below the new one and not above the old window. -/
theorem Proper.raise (h : cm.Proper) (order : GoMap.Ranger UInt64 ℕ) {number : UInt64}
    (hle : cm.curNumber ≤ number) :
    ∃ cm', cm.raise order number = .ok cm' ∧ cm'.curNumber = number ∧ cm'.Proper ∧
      Advances cm cm' := by
  unfold ControllerManager.raise
  split_ifs with hlt
  · obtain ⟨cm', hfix, hcur, hcons, hmade, hlookup⟩ := fixCtrlMap_eq
      { cm with curNumber := number } h.consistent order
    dsimp only at hcur hmade hlookup
    have hsame : ∀ other, number ≤ other →
        cm'.ctrlMap.objects.lookup other = cm.ctrlMap.objects.lookup other := by
      intro other hother
      rw [hlookup, if_neg (UInt64.not_lt.mpr hother)]
    refine ⟨cm', hfix, hcur, ⟨?_, hcons, ?_⟩, ⟨?_, ?_⟩⟩
    · intro other hother
      rw [hcur]
      obtain ⟨ctrl, hctrl⟩ := Finmap.mem_iff.mp hother
      rw [hlookup] at hctrl
      split_ifs at hctrl with hbelow
      have hwindow := h.window other (Finmap.mem_of_lookup_eq_some hctrl)
      have hge : number.toNat ≤ other.toNat := UInt64.not_lt.mp hbelow
      have hraised : cm.curNumber.toNat ≤ number.toNat := hle
      omega
    · intro other ctrl hother hge
      rw [hcur] at hge
      rw [hmade] at hother
      rw [hsame other hge]
      exact h.kept other ctrl hother (UInt64.le_trans hle hge)
    · rw [hcur]
      exact hle
    · intro other ctrl hold hge
      rw [hcur] at hge
      rw [hsame other hge]
      exact hold
  · exact ⟨cm, rfl, UInt64.le_antisymm hle (UInt64.not_lt.mp hlt), h, .refl cm⟩

/-- The height that is started is the current one. -/
theorem Proper.step (h : cm.Proper) (call : ControllerCall Msg) :
    ∃ cm', cm.step call = .ok cm' ∧ cm'.Proper ∧ Advances cm cm' := by
  cases call with
  | startController number msg order =>
    show ∃ cm', cm.startController order number msg = .ok cm' ∧ _
    unfold startController
    split_ifs with hlt
    · exact ⟨cm, rfl, h, .refl cm⟩
    · obtain ⟨raised, hraise, hcur, hproper, hadv⟩ := h.raise order (UInt64.not_lt.mp hlt)
      rw [hraise]
      have hbounds : raised.curNumber.toNat ≤ number.toNat ∧
          number.toNat ≤ raised.curNumber.toNat+2 := by
        rw [hcur]
        omega
      have hat := hproper.controllerAt hbounds
      exact ⟨_, rfl, ⟨hat.window, hat.consistent, hat.kept⟩,
        hadv.trans ⟨UInt64.le_refl _, (advances_controllerAt number).same⟩⟩
  | getController number =>
    refine ⟨_, rfl, ?_⟩
    unfold getController
    rcases hlegal : cm.isLegalNumber number with err | ok
    · exact ⟨h, .refl cm⟩
    · exact ⟨h.controllerAt (checkNumber_ok hlegal), advances_controllerAt number⟩
  | getCurController =>
    have hbounds : cm.curNumber.toNat ≤ cm.curNumber.toNat ∧
        cm.curNumber.toNat ≤ cm.curNumber.toNat+2 := ⟨le_refl _, Nat.le_add_right _ 2⟩
    exact ⟨_, rfl, h.controllerAt hbounds, advances_controllerAt _⟩

theorem Proper.run (h : cm.Proper) (calls : List (ControllerCall Msg)) :
    ∃ cm', GoLib.run ControllerManager.step cm calls = .ok cm' ∧ cm'.Proper ∧ Advances cm cm' := by
  induction calls generalizing cm with
  | nil => exact ⟨cm, rfl, h, .refl cm⟩
  | cons call calls ih =>
    obtain ⟨cm₁, hstep, hproper, hadv⟩ := h.step call
    obtain ⟨cm₂, hrun, hproper', hadv'⟩ := ih hproper
    refine ⟨cm₂, ?_, hproper', hadv.trans hadv'⟩
    rw [run_cons, hstep]
    exact hrun

/-- Over every sequence of calls the window is kept, the height does not fall, and a controller is
closed once when its height is passed. -/
theorem controllers_kept_and_closed_once (before after : List (ControllerCall Msg)) :
    ∃ cm₁ cm₂, GoLib.run ControllerManager.step newControllerManager before = .ok cm₁ ∧
      GoLib.run ControllerManager.step newControllerManager (before ++ after) = .ok cm₂ ∧
      cm₂.Window ∧ cm₁.curNumber ≤ cm₂.curNumber ∧
      (∀ number ctrl, cm₁.ctrlMap.objects.lookup number = some ctrl → cm₂.curNumber ≤ number →
        cm₂.ctrlMap.objects.lookup number = some ctrl) ∧
      cm₂.ClosedOnLeaving := by
  obtain ⟨cm₁, hbefore, hproper₁, -⟩ := proper_newControllerManager.run before
  obtain ⟨cm₂, hafter, hproper₂, hadv⟩ := hproper₁.run after
  refine ⟨cm₁, cm₂, hbefore, ?_, hproper₂.window, hadv.curNumber_le, hadv.same,
    hproper₂.closedOnLeaving⟩
  rw [run_append, hbefore]
  exact hafter

end ControllerManager

end MatrixNode
