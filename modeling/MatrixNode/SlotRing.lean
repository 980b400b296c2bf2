import Mathlib.Data.List.FinRange

/-! A ring of slots of fixed capacity. What is not found in it takes the slot after the last one that
was taken, whatever that slot held. -/
namespace GoLib

structure SlotRing (σ : Type) (capacity : ℕ) where
  slots : Vector σ capacity
  last : Fin capacity

namespace SlotRing
variable {σ : Type} {capacity : ℕ} (r : SlotRing σ capacity)

def slot (i : Fin capacity) : σ := r.slots[i.val]

def locate (found : σ → Bool) : Option (Fin capacity) :=
  (((List.finRange capacity).zip r.slots.toList).find? fun p => found p.2).map Prod.fst

def put (i : Fin capacity) (x : σ) : SlotRing σ capacity := { r with slots := r.slots.set i x }

def next : Fin capacity := ⟨(r.last.val+1) % capacity, Nat.mod_lt _ r.last.pos⟩

def findOrTake (found : σ → Bool) (fresh : σ) : SlotRing σ capacity × Fin capacity × Bool :=
  match r.locate found with
  | some i => (r,i,true)
  | none => ({ r with last := r.next }.put r.next fresh,r.next,false)

def All (P : σ → Prop) (r : SlotRing σ capacity) : Prop := ∀ i, P (r.slot i)

variable {P : σ → Prop} {r : SlotRing σ capacity} {found : σ → Bool}

theorem slot_put (r : SlotRing σ capacity) (i j : Fin capacity) (x : σ) :
    (r.put i x).slot j = if i = j then x else r.slot j := by
  unfold slot put
  rw [Vector.getElem_set]
  simp only [Fin.ext_iff]

@[simp] theorem slot_put_self (r : SlotRing σ capacity) (i : Fin capacity) (x : σ) :
    (r.put i x).slot i = x := by
  rw [slot_put, if_pos rfl]

theorem All.put (h : r.All P) {x : σ} (hx : P x) (i : Fin capacity) : (r.put i x).All P := by
  intro j
  rw [slot_put]
  split_ifs
  · exact hx
  · exact h j

theorem locate_eq_some {i : Fin capacity} (h : r.locate found = some i) :
    found (r.slot i) = true := by
  obtain ⟨⟨j, x⟩, hfind, rfl⟩ := Option.map_eq_some_iff.mp h
  have hx := List.find?_some hfind
  obtain ⟨k, hk, hkp⟩ := List.getElem_of_mem (List.mem_of_find?_eq_some hfind)
  simp only [List.getElem_zip, List.getElem_finRange, Prod.mk.injEq] at hkp
  obtain ⟨rfl, rfl⟩ := hkp
  exact hx

theorem locate_eq_none (h : r.locate found = none) (i : Fin capacity) :
    found (r.slot i) = false := by
  have hall := List.find?_eq_none.mp (Option.map_eq_none_iff.mp h) (i,r.slot i)
  refine Bool.eq_false_iff.mpr (hall ?_)
  rw [List.mem_iff_getElem]
  exact ⟨i.val, by simp, by simp [slot]⟩

theorem All.findOrTake (h : r.All P) {fresh : σ} (hfresh : P fresh) :
    (r.findOrTake found fresh).1.All P := by
  unfold SlotRing.findOrTake
  split
  · exact h
  · apply All.put _ hfresh
    exact h

theorem found_findOrTake (r : SlotRing σ capacity) (found : σ → Bool) (fresh : σ)
    (hfresh : found fresh = true) :
    found ((r.findOrTake found fresh).1.slot (r.findOrTake found fresh).2.1) = true := by
  unfold SlotRing.findOrTake
  split
  · rename_i i hi
    exact locate_eq_some hi
  · dsimp only
    rw [slot_put_self]
    exact hfresh

end SlotRing

end GoLib
