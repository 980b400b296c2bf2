import Mathlib.Logic.Function.Basic
import Mathlib.Order.Lattice

/-! Big integers as Go code handles them: by address. A method writes its result into its receiver,
so a variable that holds the address of another one writes into that one too. -/
namespace GoLib

abbrev BigPtr (V : Type) := V ⊕ ℕ

structure BigHeap (V : Type) where
  val : BigPtr V → ℤ
  next : ℕ

namespace BigHeap
variable {V : Type} [DecidableEq V] (h : BigHeap V)

def set (p : BigPtr V) (v : ℤ) : BigHeap V := { h with val := Function.update h.val p v }

def alloc (v : ℤ) : BigHeap V := ⟨Function.update h.val (.inr h.next) v, h.next+1⟩

variable (p : BigPtr V) (v : ℤ)

@[simp] theorem val_set_self : (h.set p v).val p = v := by
  simp [set]

@[simp] theorem val_set_of_ne {p q : BigPtr V} (hne : q ≠ p) (v : ℤ) :
    (h.set p v).val q = h.val q := by
  simp [set, hne]

@[simp] theorem next_set : (h.set p v).next = h.next := rfl

@[simp] theorem next_alloc : (h.alloc v).next = h.next+1 := rfl

@[simp] theorem val_alloc_self : (h.alloc v).val (.inr h.next) = v := by
  simp [alloc]

@[simp] theorem val_alloc_inl (w : V) (v : ℤ) : (h.alloc v).val (.inl w) = h.val (.inl w) := by
  simp [alloc]

theorem val_alloc_inr (n : ℕ) (v : ℤ) :
    (h.alloc v).val (.inr n) = if n = h.next then v else h.val (.inr n) := by
  simp [alloc, Function.update_apply]

@[simp] theorem set_set (w : ℤ) : (h.set p v).set p w = h.set p w := by
  simp [set]

@[simp] theorem set_alloc (w : ℤ) : (h.alloc v).set (.inr h.next) w = h.alloc w := by
  simp [set, alloc]

theorem set_val_self : h.set p (h.val p) = h := by
  simp [set]

end BigHeap

abbrev BigM (V : Type) := StateM (BigHeap V)

namespace BigM
variable {V : Type} [DecidableEq V]

def new (v : ℤ) : BigM V (BigPtr V) := fun h => (.inr h.next, h.alloc v)

def load (p : BigPtr V) : BigM V ℤ := fun h => (h.val p, h)

def assign (p : BigPtr V) (v : ℤ) : BigM V Unit := fun h => ((), h.set p v)

def raiseTo (x y : BigPtr V) : BigM V Unit := do
  if (← load x) < (← load y) then assign x (← load y)

section Run
variable {β : Type} (h : BigHeap V)

omit [DecidableEq V] in
theorem bind_of_eq {α : Type} {m : BigM V α} {h h' : BigHeap V} {a : α} (hm : m h = (a, h'))
    (f : α → BigM V β) : (m >>= f) h = f a h' := by
  change f (m h).1 (m h).2 = f a h'
  rw [hm]

theorem bind_new (v : ℤ) (f : BigPtr V → BigM V β) : (new v >>= f) h = f (.inr h.next) (h.alloc v) :=
  rfl

omit [DecidableEq V] in
theorem bind_load (p : BigPtr V) (f : ℤ → BigM V β) : (load p >>= f) h = f (h.val p) h := rfl

theorem bind_assign (p : BigPtr V) (v : ℤ) (f : Unit → BigM V β) :
    (assign p v >>= f) h = f () (h.set p v) := rfl

theorem raiseTo_apply (x y : BigPtr V) :
    raiseTo x y h = ((), h.set x (max (h.val x) (h.val y))) := by
  simp only [raiseTo, bind_load]
  rcases lt_or_ge (h.val x) (h.val y) with hlt | hge
  · rw [if_pos hlt, max_eq_right hlt.le, bind_load]
    rfl
  · rw [if_neg (not_lt.mpr hge), max_eq_left hge, BigHeap.set_val_self]
    rfl

theorem bind_raiseTo (x y : BigPtr V) (f : Unit → BigM V β) :
    (raiseTo x y >>= f) h = f () (h.set x (max (h.val x) (h.val y))) :=
  bind_of_eq (raiseTo_apply h x y) f

end Run

end BigM

end GoLib
