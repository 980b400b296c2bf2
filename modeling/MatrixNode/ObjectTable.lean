import MatrixNode.GoMap

/-! Tables of objects that are made when a key is first asked for and closed when the table is
pruned. Objects have the numbers 0, 1, 2, … in the order in which they are made. -/
namespace GoLib
open Finmap List

/-- `made` has the key of every object, `closed` the objects that have been closed, in order. -/
structure ObjectTable (K : Type) where
  objects : GoMap K ℕ
  made : List K
  closed : List ℕ

namespace ObjectTable
variable {K : Type}

def empty : ObjectTable K := ⟨∅, [], []⟩

variable [DecidableEq K] (t : ObjectTable K)

def get (k : K) : ObjectTable K × ℕ :=
  match t.objects.lookup k with
  | some id => (t, id)
  | none =>
    ({ t with objects := t.objects.insert k t.made.length, made := t.made ++ [k] }, t.made.length)

def doomed (R : GoMap.Ranger K ℕ) (p : K → Bool) : List (K × ℕ) :=
  (R.order t.objects).filter fun e => p e.1

def prune (R : GoMap.Ranger K ℕ) (p : K → Bool) : ObjectTable K :=
  { t with
    objects := ((t.doomed R p).map Prod.fst).foldl (fun m k => m.erase k) t.objects
    closed := t.closed ++ (t.doomed R p).map Prod.snd }

section Lookup
variable {t}

variable {k : K}

variable {id : ℕ}

theorem get_of_lookup (h : t.objects.lookup k = some id) : t.get k = (t,id) := by
  unfold get
  rw [h]

theorem get_of_none (h : t.objects.lookup k = none) :
    t.get k = ({ t with objects := t.objects.insert k t.made.length, made := t.made ++ [k] },
      t.made.length) := by
  unfold get
  rw [h]

theorem lookup_get_self (k : K) : (t.get k).1.objects.lookup k = some (t.get k).2 := by
  rcases hk : t.objects.lookup k with _ | id
  · rw [get_of_none hk]
    exact lookup_insert _
  · rw [get_of_lookup hk]
    exact hk

variable {j : K}

theorem lookup_get_of_ne (h : j ≠ k) : (t.get k).1.objects.lookup j = t.objects.lookup j := by
  rcases hk : t.objects.lookup k with _ | id
  · rw [get_of_none hk]
    exact lookup_insert_of_ne _ h
  · rw [get_of_lookup hk]

theorem lookup_get_of_lookup (h : t.objects.lookup j = some id) :
    (t.get k).1.objects.lookup j = some id := by
  by_cases hj : j = k
  · subst hj
    rw [get_of_lookup h]
    exact h
  · rw [lookup_get_of_ne hj, h]

/-- Only the number of the new object is not below the length. -/
theorem made_get (h : (t.get k).1.made[id]? = some j) :
    t.made[id]? = some j ∨ (j = k ∧ (t.get k).1.objects.lookup k = some id) := by
  rcases hk : t.objects.lookup k with _ | old
  swap
  · rw [get_of_lookup hk] at h
    exact .inl h
  rw [get_of_none hk] at h ⊢
  rcases lt_or_ge id t.made.length with hlt | hge
  · rw [List.getElem?_append_left hlt] at h
    exact .inl h
  · have hlen := (List.getElem?_eq_some_iff.mp h).1
    rw [length_append, length_singleton] at hlen
    obtain rfl : id = t.made.length := by omega
    rw [List.getElem?_concat_length, Option.some.injEq] at h
    exact .inr ⟨h.symm, lookup_insert _⟩

theorem mem_get : j ∈ (t.get k).1.objects ↔ j = k ∨ j ∈ t.objects := by
  by_cases hj : j = k
  · subst hj
    have hself : j ∈ (t.get j).1.objects := mem_of_lookup_eq_some (lookup_get_self j)
    exact iff_of_true hself (.inl rfl)
  · rw [← lookup_isSome, lookup_get_of_ne hj, lookup_isSome]
    exact (or_iff_right hj).symm

variable {R : GoMap.Ranger K ℕ} {p : K → Bool}

theorem mem_doomed {k : K} : (k,id) ∈ t.doomed R p ↔ t.objects.lookup k = some id ∧ p k = true := by
  unfold doomed
  rw [mem_filter, (R.isRange _).mem_iff]

theorem lookup_prune (k : K) :
    (t.prune R p).objects.lookup k = if p k = true then none else t.objects.lookup k := by
  have hkeys : k ∈ (t.doomed R p).map Prod.fst ↔ ∃ id, t.objects.lookup k = some id ∧ p k = true := by
    rw [mem_map]
    constructor
    · rintro ⟨⟨j,id⟩, he, rfl⟩
      exact ⟨id, mem_doomed.mp he⟩
    · rintro ⟨id, hid⟩
      exact ⟨(k,id), mem_doomed.mpr hid, rfl⟩
  unfold prune
  rw [GoMap.lookup_foldl_erase]
  by_cases hp : p k = true
  · rw [if_pos hp]
    rcases hk : t.objects.lookup k with _ | id
    · rw [ite_self]
    · rw [if_pos (hkeys.mpr ⟨id, hk, hp⟩)]
  · rw [if_neg hp, if_neg]
    intro hin
    obtain ⟨id, -, hsel⟩ := hkeys.mp hin
    exact hp hsel

theorem mem_prune {k : K} : k ∈ (t.prune R p).objects ↔ k ∈ t.objects ∧ ¬ p k = true := by
  rw [← lookup_isSome, lookup_prune, ← lookup_isSome]
  by_cases hp : p k = true
  · simp [hp]
  · simp [hp]

end Lookup

/-- Every object is in the table under its key and open, or it is not there and was closed once. -/
structure Consistent : Prop where
  held : ∀ k id, t.objects.lookup k = some id → t.made[id]? = some k
  once : ∀ k id, t.made[id]? = some k →
    t.closed.count id = if t.objects.lookup k = some id then 0 else 1
  known : ∀ id ∈ t.closed, id < t.made.length

theorem consistent_empty : (empty : ObjectTable K).Consistent := by
  constructor
  · intro k id h
    cases h
  · intro k id h
    cases h
  · intro id h
    cases h

namespace Consistent
variable {t} (h : t.Consistent)
include h

variable {id : ℕ} {k : K}

theorem lt_of_lookup (hk : t.objects.lookup k = some id) : id < t.made.length :=
  (List.getElem?_eq_some_iff.mp (h.held k id hk)).1

theorem key_unique {j : K} (hk : t.objects.lookup k = some id) (hj : t.objects.lookup j = some id) :
    k = j := by
  have hmade := h.held k id hk
  rw [h.held j id hj, Option.some.injEq] at hmade
  exact hmade.symm

theorem open_of_lookup (hk : t.objects.lookup k = some id) : id ∉ t.closed := by
  have hcount := h.once k id (h.held k id hk)
  rw [if_pos hk] at hcount
  exact count_eq_zero.mp hcount

theorem get (k : K) : (t.get k).1.Consistent := by
  rcases hk : t.objects.lookup k with _ | old
  swap
  · rw [get_of_lookup hk]
    exact h
  rw [get_of_none hk]
  have hnew : t.made.length ∉ t.closed := fun hin => (h.known _ hin).false
  constructor
  · intro j id hj
    rcases GoMap.lookup_insert_cases hj with ⟨rfl, rfl⟩ | ⟨-, hj⟩
    · exact List.getElem?_concat_length
    · exact (List.getElem?_append_left (h.lt_of_lookup hj)).trans (h.held j id hj)
  · intro j id hmade
    by_cases hid : id = t.made.length
    · subst hid
      rw [List.getElem?_concat_length, Option.some.injEq] at hmade
      subst hmade
      rw [lookup_insert, if_pos rfl, count_eq_zero.mpr hnew]
    · have hlt : id < t.made.length := by
        have hlen := (List.getElem?_eq_some_iff.mp hmade).1
        rw [length_append, length_singleton] at hlen
        omega
      rw [List.getElem?_append_left hlt] at hmade
      rw [h.once j id hmade]
      by_cases hj : j = k
      · subst hj
        rw [hk, if_neg (by simp), if_neg]
        simpa using fun heq => hid heq.symm
      · rw [lookup_insert_of_ne _ hj]
  · intro id hin
    rw [length_append]
    exact Nat.lt_add_right _ (h.known id hin)

variable (R : GoMap.Ranger K ℕ) (p : K → Bool)

/-- Two entries with one object have one key, so they are the same entry. -/
theorem nodup_doomed : ((t.doomed R p).map Prod.snd).Nodup := by
  have hnodup : (t.doomed R p).Nodup := (R.isRange t.objects).nodup.filter _
  apply Nodup.map_on _ hnodup
  rintro ⟨k,id⟩ hk ⟨j,id'⟩ hj heq
  subst heq
  cases h.key_unique (mem_doomed.mp hk).1 (mem_doomed.mp hj).1
  rfl

theorem count_doomed (hmade : t.made[id]? = some k) :
    ((t.doomed R p).map Prod.snd).count id =
      if t.objects.lookup k = some id ∧ p k = true then 1 else 0 := by
  have hmem : id ∈ (t.doomed R p).map Prod.snd ↔ t.objects.lookup k = some id ∧ p k = true := by
    rw [mem_map]
    constructor
    · rintro ⟨⟨j,id'⟩, he, rfl⟩
      have hj := mem_doomed.mp he
      have hkey := h.held j id' hj.1
      rw [hmade, Option.some.injEq] at hkey
      subst hkey
      exact hj
    · intro hk
      exact ⟨(k,id), mem_doomed.mpr hk, rfl⟩
  split_ifs with hk
  · exact count_eq_one_of_mem (h.nodup_doomed R p) (hmem.mpr hk)
  · exact count_eq_zero.mpr (fun hin => hk (hmem.mp hin))

/-- Either the loop closes it now, or it is as open or closed as it was. -/
theorem prune : (t.prune R p).Consistent := by
  constructor
  · intro k id hk
    rw [lookup_prune] at hk
    split_ifs at hk
    exact h.held k id hk
  · intro k id hmade
    show (t.closed ++ (t.doomed R p).map Prod.snd).count id = _
    rw [count_append, h.once k id hmade, h.count_doomed R p hmade, lookup_prune]
    by_cases hk : t.objects.lookup k = some id <;> by_cases hp : p k = true <;> simp [hk, hp]
  · intro id hin
    rcases mem_append.mp hin with hin | hin
    · exact h.known id hin
    · obtain ⟨⟨k,id'⟩, he, rfl⟩ := mem_map.mp hin
      exact h.lt_of_lookup (mem_doomed.mp he).1

end Consistent

end ObjectTable

end GoLib
