import Mathlib.Data.List.Perm.Basic
import Mathlib.Logic.Equiv.Basic
import Mathlib.Order.WithBot

/-! The binary heaps of Go's `container/heap`, kept in a slice. `less a b` says that `a` leaves the
heap before `b`. -/
namespace GoLib.Heap

variable {α : Type}

def swap (h : List α) (i j : ℕ) : List α :=
  match h[i]?, h[j]? with
  | some a, some b => (h.set i b).set j a
  | _, _ => h

section Less
variable (less : α → α → Bool)

def lessAt (h : List α) (i j : ℕ) : Bool :=
  match h[i]?, h[j]? with
  | some a, some b => less a b
  | _, _ => false

def firstChild (h : List α) (i n : ℕ) : ℕ :=
  if 2*i+2 < n ∧ lessAt less h (2*i+2) (2*i+1) then 2*i+2 else 2*i+1

variable (h : List α)

theorem lt_firstChild (i n : ℕ) : i < firstChild less h i n := by
  unfold firstChild
  split_ifs <;> omega

theorem firstChild_lt {h : List α} {i n : ℕ} (hn : ¬ n ≤ 2*i+1) : firstChild less h i n < n := by
  unfold firstChild
  split_ifs with hc
  · exact hc.1
  · omega

/-- `down` moves the entry at position `i` below the children that come before it. -/
def down (h : List α) (i n : ℕ) : List α :=
  if n ≤ 2*i+1 then h
  else if lessAt less h (firstChild less h i n) i then
    down (swap h i (firstChild less h i n)) (firstChild less h i n) n
  else h
termination_by n-i
decreasing_by
  have hlt := lt_firstChild less h i n
  have hle := firstChild_lt less (h := h) ‹¬ n ≤ 2*i+1›
  omega

def pop (h : List α) : List α := (down less (swap h 0 (h.length-1)) 0 (h.length-1)).dropLast

/-- `Fix` at position 0, which has nothing above it. -/
def fixFirst (h : List α) : List α := down less h 0 h.length

theorem swap_perm (i j : ℕ) : (swap h i j).Perm h := by
  unfold swap
  split
  next a b ha hb =>
    obtain ⟨hi, rfl⟩ := List.getElem?_eq_some_iff.mp ha
    obtain ⟨hj, rfl⟩ := List.getElem?_eq_some_iff.mp hb
    exact List.set_set_perm hi hj
  next => exact List.Perm.refl h

theorem down_perm (i n : ℕ) : (down less h i n).Perm h := by
  fun_induction down less h i n with
  | case1 => exact List.Perm.refl _
  | case2 h i _ _ ih => exact ih.trans (swap_perm h i _)
  | case3 => exact List.Perm.refl _

theorem fixFirst_perm : (fixFirst less h).Perm h := down_perm less h 0 _

theorem length_pop : (pop less h).length = h.length-1 := by
  unfold pop
  rw [List.length_dropLast, (down_perm ..).length_eq, (swap_perm ..).length_eq]

/-- `initBelow` is the loop of `Init` from position `i-1` down to 0. -/
def initBelow (n : ℕ) : ℕ → List α → List α
  | 0, h => h
  | i+1, h => initBelow n i (down less h i n)

def init (h : List α) : List α := initBelow less h.length (h.length/2) h

theorem initBelow_perm (n i : ℕ) : (initBelow less n i h).Perm h := by
  induction i generalizing h with
  | zero => exact List.Perm.refl h
  | succ i ih => exact (ih _).trans (down_perm ..)

theorem init_perm : (init less h).Perm h := initBelow_perm ..

end Less

section Order
variable {β : Type} [LinearOrder β]

/-- `Less` of a heap that has the largest key on top. -/
def byKey (key : α → β) (a b : α) : Bool := key b < key a

def keyAt (key : α → β) (h : List α) (i : ℕ) : WithBot β := h[i]?.map key

def IsChild (c p : ℕ) : Prop := c = 2*p+1 ∨ c = 2*p+2

/-- Among the first `n` entries, no child of a position from `m` on has a larger key than its
parent. -/
def Ordered (key : α → β) (h : List α) (m n : ℕ) : Prop :=
  ∀ p c, m ≤ p → IsChild c p → c < n → keyAt key h c ≤ keyAt key h p

def IsHeap (key : α → β) (h : List α) : Prop := Ordered key h 0 h.length

/-- All is in order but for the entry at position `i`, which may have to move down. -/
structure Sifting (key : α → β) (h : List α) (m i n : ℕ) : Prop where
  off : ∀ p c, m ≤ p → p ≠ i → IsChild c p → c < n → keyAt key h c ≤ keyAt key h p
  above : ∀ p c, m ≤ p → IsChild i p → IsChild c i → c < n → keyAt key h c ≤ keyAt key h p

variable {key : α → β} {less : α → α → Bool} {h : List α} {i j k m n : ℕ}

theorem getElem?_swap (hi : i < h.length) (hj : j < h.length) (k : ℕ) :
    (swap h i j)[k]? = h[Equiv.swap i j k]? := by
  rw [Equiv.swap_apply_def]
  split_ifs with hki hkj
  · by_cases hij : i = j
    · simp [swap, hki, hij, hj]
    · simp [swap, hki, hi, hj, Ne.symm hij]
  · simp [swap, hkj, hi, hj]
  · simp [swap, hi, hj, List.getElem?_set_ne, Ne.symm hki, Ne.symm hkj]

omit [LinearOrder β] in
theorem keyAt_swap (hi : i < h.length) (hj : j < h.length) (k : ℕ) :
    keyAt key (swap h i j) k = keyAt key h (Equiv.swap i j k) :=
  congrArg (Option.map key) (getElem?_swap hi hj k)

theorem lessAt_byKey (hi : i < h.length) (hj : j < h.length) :
    lessAt (byKey key) h i j = true ↔ keyAt key h j < keyAt key h i := by
  simp only [lessAt, keyAt, List.getElem?_eq_getElem hi, List.getElem?_eq_getElem hj, byKey,
    decide_eq_true_eq]
  exact WithBot.coe_lt_coe.symm

theorem getElem?_down (hn : n ≤ h.length) (hk : n ≤ k) : (down less h i n)[k]? = h[k]? := by
  fun_induction down less h i n with
  | case1 => rfl
  | case2 h i hchild _ ih =>
    have hij := lt_firstChild less h i n
    have hj := firstChild_lt less (h := h) hchild
    rw [ih (by rwa [(swap_perm ..).length_eq]), getElem?_swap (by omega) (by omega),
      Equiv.swap_apply_of_ne_of_ne (by omega) (by omega)]
  | case3 => rfl

theorem isChild_firstChild (less : α → α → Bool) (h : List α) (i n : ℕ) :
    IsChild (firstChild less h i n) i := by
  unfold firstChild IsChild
  split_ifs
  · exact Or.inr rfl
  · exact Or.inl rfl

theorem keyAt_le_firstChild {c : ℕ} (hn : n ≤ h.length) (hc : IsChild c i) (hcn : c < n) :
    keyAt key h c ≤ keyAt key h (firstChild (byKey key) h i n) := by
  unfold firstChild
  split_ifs with hright
  · have hlt := (lessAt_byKey (by omega) (by omega)).mp hright.2
    rcases hc with rfl | rfl
    · exact hlt.le
    · exact le_rfl
  · rcases hc with rfl | rfl
    · exact le_rfl
    · rw [not_and, lessAt_byKey (by omega) (by omega), not_lt] at hright
      exact hright hcn

/-- The entry changes places with its first child and may have to move on from there. -/
theorem Sifting.next (hs : Sifting key h m i n) (hm : m ≤ i) (hn : n ≤ h.length) (hj : j < n)
    (hof : IsChild j i) (hfirst : ∀ c, IsChild c i → c < n → keyAt key h c ≤ keyAt key h j)
    (hlt : keyAt key h i < keyAt key h j) : Sifting key (swap h i j) m j n := by
  have hij : i < j := by unfold IsChild at hof; omega
  have hswap : ∀ k, keyAt key (swap h i j) k = keyAt key h (Equiv.swap i j k) :=
    keyAt_swap (by omega) (by omega)
  constructor
  · intro p c hp hpj hc hcn
    rw [hswap, hswap]
    by_cases hpi : p = i
    · subst hpi
      rw [Equiv.swap_apply_left]
      by_cases hcj : c = j
      · rw [hcj, Equiv.swap_apply_right]
        exact hlt.le
      · have hcp : c ≠ p := by unfold IsChild at hc; omega
        rw [Equiv.swap_apply_of_ne_of_ne hcp hcj]
        exact hfirst c hc hcn
    · rw [Equiv.swap_apply_of_ne_of_ne hpi hpj]
      have hcj : c ≠ j := by unfold IsChild at hc hof; omega
      by_cases hci : c = i
      · subst hci
        rw [Equiv.swap_apply_left]
        exact hs.above p j hp hc hof hj
      · rw [Equiv.swap_apply_of_ne_of_ne hci hcj]
        exact hs.off p c hp hpi hc hcn
  · intro p c hp hjp hc hcn
    have hpi : p = i := by unfold IsChild at hjp hof; omega
    have hcij : c ≠ i ∧ c ≠ j := by unfold IsChild at hc; omega
    rw [hswap, hswap, hpi, Equiv.swap_apply_left, Equiv.swap_apply_of_ne_of_ne hcij.1 hcij.2]
    exact hs.off j c (by omega) (by omega) hc hcn

theorem Sifting.ordered (hs : Sifting key h m i n)
    (hi : ∀ c, IsChild c i → c < n → keyAt key h c ≤ keyAt key h i) : Ordered key h m n := by
  intro p c hp hc hcn
  by_cases hpi : p = i
  · rw [hpi] at hc ⊢
    exact hi c hc hcn
  · exact hs.off p c hp hpi hc hcn

theorem Sifting.down (hs : Sifting key h m i n) (hm : m ≤ i) (hn : n ≤ h.length) :
    Ordered key (down (byKey key) h i n) m n := by
  fun_induction Heap.down (byKey key) h i n with
  | case1 h i hleaf =>
    apply hs.ordered
    intro c hc hcn
    unfold IsChild at hc
    omega
  | case2 h i hchild hlt ih =>
    have hij := lt_firstChild (byKey key) h i n
    have hj := firstChild_lt (byKey key) (h := h) hchild
    rw [lessAt_byKey (by omega) (by omega)] at hlt
    have hnext := hs.next hm hn hj (isChild_firstChild ..) (fun c => keyAt_le_firstChild hn) hlt
    exact ih hnext (by omega) (by rwa [(swap_perm ..).length_eq])
  | case3 h i hchild hnot =>
    have hij := lt_firstChild (byKey key) h i n
    have hj := firstChild_lt (byKey key) (h := h) hchild
    rw [lessAt_byKey (by omega) (by omega), not_lt] at hnot
    exact hs.ordered fun c hc hcn => (keyAt_le_firstChild hn hc hcn).trans hnot

theorem Ordered.down (ho : Ordered key h (i+1) n) (hn : n ≤ h.length) :
    Ordered key (down (byKey key) h i n) i n := by
  refine Sifting.down ⟨?_, ?_⟩ le_rfl hn
  · intro p c hp hpi hc hcn
    exact ho p c (by omega) hc hcn
  · intro p c hp hip
    unfold IsChild at hip
    omega

theorem Ordered.initBelow (ho : Ordered key h i n) (hn : n ≤ h.length) :
    Ordered key (initBelow (byKey key) n i h) 0 n := by
  induction i generalizing h with
  | zero => exact ho
  | succ i ih => exact ih (ho.down hn) (by rwa [(down_perm ..).length_eq])

theorem isHeap_init (key : α → β) (h : List α) : IsHeap key (init (byKey key) h) := by
  have hleaves : Ordered key h (h.length/2) h.length := by
    intro p c hp hc hcn
    unfold IsChild at hc
    omega
  unfold IsHeap
  rw [(init_perm ..).length_eq]
  exact hleaves.initBelow le_rfl

theorem IsHeap.keyAt_le (hh : IsHeap key h) (i : ℕ) (hi : i < h.length) :
    keyAt key h i ≤ keyAt key h 0 := by
  induction i using Nat.strongRecOn with
  | ind i ih =>
    by_cases hzero : i = 0
    · rw [hzero]
    · have hparent : IsChild i ((i-1)/2) := by unfold IsChild; omega
      exact (hh _ i (Nat.zero_le _) hparent hi).trans (ih ((i-1)/2) (by omega) (by omega))

theorem IsHeap.key_le {top a : α} {rest : List α} (hh : IsHeap key (top :: rest))
    (ha : a ∈ top :: rest) : key a ≤ key top := by
  obtain ⟨i, hi, rfl⟩ := List.mem_iff_getElem.mp ha
  have hle := hh.keyAt_le i hi
  unfold keyAt at hle
  rw [List.getElem?_eq_getElem hi] at hle
  exact WithBot.coe_le_coe.mp hle

theorem IsHeap.fixFirst {top : α} {rest : List α} (hh : IsHeap key (top :: rest)) (a : α) :
    IsHeap key (fixFirst (byKey key) (a :: rest)) := by
  have hbelow : Ordered key (a :: rest) 1 (a :: rest).length := by
    intro p c hp hc hcn
    have hold := hh p c (Nat.zero_le _) hc hcn
    obtain ⟨p, rfl⟩ := Nat.exists_eq_add_of_le' hp
    obtain ⟨c, rfl⟩ : ∃ c', c = c'+1 := ⟨c-1, by unfold IsChild at hc; omega⟩
    exact hold
  unfold IsHeap
  rw [(fixFirst_perm ..).length_eq]
  exact hbelow.down le_rfl

theorem IsHeap.pop (hh : IsHeap key h) : IsHeap key (pop (byKey key) h) := by
  unfold IsHeap
  rw [length_pop]
  have hlen := (swap_perm h 0 (h.length-1)).length_eq
  have hbelow : Ordered key (swap h 0 (h.length-1)) 1 (h.length-1) := by
    intro p c hp hc hcn
    have hpc : p < c := by unfold IsChild at hc; omega
    have hkept (k : ℕ) (hk : 0 < k) (hkn : k < h.length-1) :
        keyAt key (swap h 0 (h.length-1)) k = keyAt key h k := by
      rw [keyAt_swap (by omega) (by omega), Equiv.swap_apply_of_ne_of_ne (by omega) (by omega)]
    rw [hkept c (by omega) hcn, hkept p hp (by omega)]
    exact hh p c (Nat.zero_le _) hc (by omega)
  intro p c hp hc hcn
  have hpc : p < c := by unfold IsChild at hc; omega
  have hdown := hbelow.down (by omega) p c hp hc hcn
  unfold Heap.pop keyAt
  rw [List.getElem?_dropLast, List.getElem?_dropLast, (down_perm ..).length_eq, hlen, if_pos hcn,
    if_pos (by omega)]
  exact hdown

/-- `Pop` takes the top out and keeps the others. -/
theorem pop_perm (less : α → α → Bool) (top : α) (rest : List α) :
    (pop less (top :: rest)).Perm rest := by
  let swapped := swap (top :: rest) 0 rest.length
  let sifted := down less swapped 0 rest.length
  have hswap : swapped.Perm (top :: rest) := swap_perm ..
  have hperm : sifted.Perm (top :: rest) := (down_perm ..).trans hswap
  have hlast : sifted[rest.length]? = some top := by
    have hle : rest.length ≤ swapped.length := by rw [hswap.length_eq]; exact Nat.le_succ _
    rw [getElem?_down hle le_rfl, getElem?_swap (by simp) (by simp), Equiv.swap_apply_right]
    rfl
  have hsplit : sifted.dropLast ++ [top] = sifted := by
    apply List.dropLast_append_getLast?
    rw [List.getLast?_eq_getElem?, hperm.length_eq]
    exact hlast
  have hcons : (top :: sifted.dropLast).Perm (top :: rest) := by
    rw [← hsplit] at hperm
    exact (List.perm_append_singleton ..).symm.trans hperm
  exact hcons.cons_inv

end Order

end GoLib.Heap
