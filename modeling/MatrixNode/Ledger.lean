import Mathlib.Algebra.BigOperators.Group.Finset.Piecewise
import Mathlib.Tactic

/-! Balances of a finite set of accounts, and payments between them. -/
namespace GoLib
open Function List

variable {ι : Type} [DecidableEq ι]

theorem sum_replace_summand {s : Finset ι} {i : ι} (h : i ∈ s) (f : ι → ℕ) (v : ℕ) :
    (∑ x ∈ s, update f i v x)+f i = (∑ x ∈ s, f x)+v := by
  have hf : f i+∑ x ∈ s \ {i}, f x = ∑ x ∈ s, f x := by
    rw [Finset.sdiff_singleton_eq_erase, Finset.add_sum_erase s f h]
  rw [Finset.sum_update_of_mem h, ← hf]
  omega

def pay (b : ι → ℕ) (src dst : ι) (v : ℕ) : ι → ℕ :=
  update (update b src (b src-v)) dst (update b src (b src-v) dst+v)

section Pay
variable {b : ι → ℕ} {src dst : ι} {v : ℕ}

theorem pay_of_ne {a : ι} (hs : a ≠ src) (hd : a ≠ dst) : pay b src dst v a = b a := by
  rw [pay, update_of_ne hd, update_of_ne hs]

theorem pay_src (h : src ≠ dst) : pay b src dst v src = b src-v := by
  rw [pay, update_of_ne h, update_self]

theorem pay_dst (h : src ≠ dst) : pay b src dst v dst = b dst+v := by
  rw [pay, update_self, update_of_ne h.symm]

@[simp] theorem pay_zero : pay b src dst 0 = b := by
  rw [pay, Nat.sub_zero, update_eq_self, Nat.add_zero, update_eq_self]

theorem pay_add (h : v ≤ b src) (a : ι) :
    pay b src dst v a+(if a = src then v else 0) = b a+(if a = dst then v else 0) := by
  unfold pay
  by_cases hd : a = dst
  · subst hd
    by_cases hs : a = src
    · subst hs
      rw [update_self, update_self, if_pos rfl]
      omega
    · rw [update_self, update_of_ne hs, if_neg hs, if_pos rfl]
      rfl
  · rw [update_of_ne hd, if_neg hd]
    by_cases hs : a = src
    · subst hs
      rw [update_self, if_pos rfl]
      omega
    · rw [update_of_ne hs, if_neg hs]

theorem le_pay {a : ι} (h : a ≠ src) : b a ≤ pay b src dst v a := by
  by_cases hd : a = dst
  · subst hd
    rw [pay_dst h.symm]
    exact Nat.le_add_right ..
  · rw [pay_of_ne h hd]

theorem sum_pay [Fintype ι] (h : v ≤ b src) : ∑ a, pay b src dst v a = ∑ a, b a := by
  have hd := sum_replace_summand (Finset.mem_univ dst) (update b src (b src-v))
    (update b src (b src-v) dst+v)
  have hs := sum_replace_summand (Finset.mem_univ src) b (b src-v)
  rw [pay]
  omega

end Pay

def paidTotal (payments : List (ι × ℕ)) : ℕ := (payments.map Prod.snd).sum

def received (a : ι) : List (ι × ℕ) → ℕ
  | [] => 0
  | (dst, v) :: rest => (if a = dst then v else 0)+received a rest

def PaysAll (src : ι) (payments : List (ι × ℕ)) (b b' : ι → ℕ) : Prop :=
  ∀ a, b' a+(if a = src then paidTotal payments else 0) = b a+received a payments

section PaysAll
variable {src dst : ι} {v : ℕ} {payments : List (ι × ℕ)} {b b' : ι → ℕ}

theorem PaysAll.nil (src : ι) (b : ι → ℕ) : PaysAll src [] b b := by
  intro a
  simp [paidTotal, received]

theorem PaysAll.cons (h : PaysAll src payments (pay b src dst v) b') (hv : v ≤ b src) :
    PaysAll src ((dst, v) :: payments) b b' := by
  intro a
  have hpay : pay b src dst v a+_ = b a+_ := pay_add hv a
  have hrest := h a
  have htotal : paidTotal ((dst, v) :: payments) = v+paidTotal payments := by
    simp [paidTotal]
  rw [htotal, received]
  split_ifs at hpay hrest ⊢ <;> omega

end PaysAll

end GoLib
