import Mathlib.Algebra.BigOperators.Group.Finset.Basic
import Mathlib.Data.Finmap
import Mathlib.Data.List.Sort
import MatrixNode.GoBytes

/-! Go maps. A map has no order of its own: a `range` loop visits every entry
once, in an order that the runtime chooses anew for each loop. -/
namespace GoLib
open Finmap

abbrev GoMap (K V : Type) := Finmap (fun _ : K => V)

namespace GoMap
variable {K V : Type} [DecidableEq K]

def len (m : GoMap K V) : ℕ := m.keys.card

theorem eq_empty_of_len_eq_zero {m : GoMap K V} (h : ¬ 0 < m.len) : m = ∅ := by
  apply ext_lookup
  intro k
  have hk : k ∉ m := by
    rw [← mem_keys, Finset.card_eq_zero.mp (Nat.eq_zero_of_not_pos h)]
    exact Finset.notMem_empty k
  rw [lookup_eq_none.mpr hk, lookup_empty]

/-- The list `order` is what one `range m` can visit. -/
structure IsRange (m : GoMap K V) (order : List (K × V)) : Prop where
  nodup_keys : (order.map Prod.fst).Nodup
  mem_iff : ∀ k v, (k,v) ∈ order ↔ m.lookup k = some v

namespace IsRange
variable {m : GoMap K V} {o o' : List (K × V)}

section
variable (h : IsRange m o)
include h

theorem nodup : o.Nodup := h.nodup_keys.of_map _

theorem perm (h' : IsRange m o') : o.Perm o' := by
  rw [List.perm_ext_iff_of_nodup h.nodup h'.nodup]
  rintro ⟨k,v⟩
  rw [h.mem_iff, h'.mem_iff]

theorem of_perm (hp : o.Perm o') : IsRange m o' :=
  ⟨(hp.map Prod.fst).nodup_iff.mp h.nodup_keys, fun k v => by rw [← hp.mem_iff, h.mem_iff]⟩

theorem keys_toFinset : (o.map Prod.fst).toFinset = m.keys := by
  ext k
  rw [List.mem_toFinset, mem_keys, ← lookup_isSome, Option.isSome_iff_exists, List.mem_map]
  constructor
  · rintro ⟨⟨k',v⟩, hm, rfl⟩
    exact ⟨v, (h.mem_iff _ _).mp hm⟩
  · rintro ⟨v, hv⟩
    exact ⟨(k,v), (h.mem_iff k v).mpr hv, rfl⟩

theorem length_eq : o.length = m.len := by
  rw [len, ← h.keys_toFinset, List.toFinset_card_of_nodup h.nodup_keys, List.length_map]

theorem sum_map_entries (g : K → V → ℕ) :
    (o.map fun e => g e.1 e.2).sum = ∑ k ∈ m.keys, ((m.lookup k).map (g k)).getD 0 := by
  rw [← h.keys_toFinset, List.sum_toFinset _ h.nodup_keys, List.map_map]
  congr 1
  apply List.map_congr_left
  rintro ⟨k,v⟩ he
  simp [(h.mem_iff k v).mp he]

theorem sum_map (g : V → ℕ) :
    (o.map fun e => g e.2).sum = ∑ k ∈ m.keys, ((m.lookup k).map g).getD 0 :=
  h.sum_map_entries fun _ => g

end

theorem nil_iff : IsRange (∅ : GoMap K V) o ↔ o = [] := by
  constructor
  · intro h
    apply List.eq_nil_iff_forall_not_mem.mpr
    rintro ⟨k,v⟩ hm
    have hl := (h.mem_iff k v).mp hm
    cases hl
  · rintro rfl
    exact ⟨List.nodup_nil, fun k v => by simp⟩

theorem ne_of_mem_erase {k : K} {e : K × V} (h : IsRange (m.erase k) o) (he : e ∈ o) : e.1 ≠ k := by
  rintro rfl
  have hl := (h.mem_iff _ _).mp he
  rw [lookup_erase] at hl
  cases hl

theorem cons_of_erase {k : K} {v : V} (h : IsRange (m.erase k) o) :
    IsRange (m.insert k v) ((k,v) :: o) := by
  have hk : k ∉ o.map Prod.fst := by
    intro hk
    obtain ⟨e, he, hek⟩ := List.mem_map.mp hk
    exact h.ne_of_mem_erase he hek
  refine ⟨List.nodup_cons.mpr ⟨hk, h.nodup_keys⟩, fun j w => ?_⟩
  rw [List.mem_cons, h.mem_iff]
  by_cases hj : j = k
  · subst hj
    simp [eq_comm]
  · simp [hj]

end IsRange

variable {m : GoMap K V}

variable {k : K} {v : V}

theorem lookup_insert_cases {j : K} {w : V} (h : (m.insert k v).lookup j = some w) :
    (j = k ∧ v = w) ∨ (j ≠ k ∧ m.lookup j = some w) := by
  by_cases hj : j = k
  · rw [hj, lookup_insert, Option.some.injEq] at h
    exact .inl ⟨hj, h⟩
  · rw [lookup_insert_of_ne _ hj] at h
    exact .inr ⟨hj, h⟩

theorem forall_lookup_insert {P : V → Prop} (hm : ∀ j w, m.lookup j = some w → P w) (hv : P v) :
    ∀ j w, (m.insert k v).lookup j = some w → P w := by
  intro j w hw
  rcases lookup_insert_cases hw with ⟨-, rfl⟩ | ⟨-, hold⟩
  · exact hv
  · exact hm j w hold

theorem lookup_of_lookup_erase {j : K} (h : (m.erase k).lookup j = some v) :
    m.lookup j = some v := by
  by_cases hj : j = k
  · rw [hj, lookup_erase] at h
    cases h
  · rwa [lookup_erase_ne hj] at h

theorem insert_eq_self (h : m.lookup k = some v) : m.insert k v = m := by
  apply ext_lookup
  intro j
  by_cases hj : j = k
  · subst hj
    rw [lookup_insert, h]
  · rw [lookup_insert_of_ne _ hj]

theorem keys_insert_of_mem (hk : k ∈ m.keys) (v : V) : (m.insert k v).keys = m.keys := by
  ext j
  rw [mem_keys, mem_insert]
  constructor
  · rintro (rfl | hj)
    · exact mem_keys.mp hk
    · exact hj
  · exact .inr

/-- The map that a loop fills entry by entry; of two entries with one key the later one stays. -/
def ofEntries (entries : List (K × V)) : GoMap K V := entries.foldl (fun m e => m.insert e.1 e.2) ∅

theorem ofEntries_concat (entries : List (K × V)) (e : K × V) :
    ofEntries (entries ++ [e]) = (ofEntries entries).insert e.1 e.2 :=
  List.foldl_concat ..

theorem mem_ofEntries (entries : List (K × V)) (k : K) :
    k ∈ ofEntries entries ↔ k ∈ entries.map Prod.fst := by
  induction entries using List.reverseRecOn with
  | nil => exact iff_of_false notMem_empty List.not_mem_nil
  | append_singleton entries e ih =>
    rw [ofEntries_concat, mem_insert, ih, List.map_append, List.mem_append, List.map_singleton,
      List.mem_singleton, or_comm]

theorem lookup_ofEntries {entries : List (K × V)} (h : (entries.map Prod.fst).Nodup) {e : K × V}
    (he : e ∈ entries) : (ofEntries entries).lookup e.1 = some e.2 := by
  induction entries using List.reverseRecOn with
  | nil => exact absurd he List.not_mem_nil
  | append_singleton entries last ih =>
    rw [List.map_append] at h
    obtain ⟨hfirst, -, hnew⟩ := List.nodup_append.mp h
    rw [ofEntries_concat]
    rcases List.mem_append.mp he with he | he
    · have hne : e.1 ≠ last.1 := hnew _ (List.mem_map_of_mem he) _ List.mem_cons_self
      rw [lookup_insert_of_ne _ hne]
      exact ih hfirst he
    · rw [List.mem_singleton.mp he, lookup_insert]

theorem isRange_entries (l : AList (fun _ : K => V)) :
    IsRange l.toFinmap (l.entries.map fun e => (e.1,e.2)) := by
  refine ⟨?_, fun k v => ?_⟩
  · have hk : (l.entries.map fun e => (e.1,e.2)).map Prod.fst = l.keys := by
      simp [AList.keys, List.keys, Function.comp_def]
    rw [hk]
    exact l.keys_nodup
  · constructor
    · intro hm
      obtain ⟨e, he, hek⟩ := List.mem_map.mp hm
      cases hek
      exact AList.mem_lookup_iff.mpr he
    · intro hl
      exact List.mem_map.mpr ⟨⟨k,v⟩, AList.mem_lookup_iff.mp hl, rfl⟩

theorem exists_isRange (m : GoMap K V) : ∃ order, IsRange m order := by
  induction m using induction_on with
  | _ l => exact ⟨_, isRange_entries l⟩

/-- The runtime's choice of an order for every map that one loop may see. -/
structure Ranger (K V : Type) [DecidableEq K] where
  order : GoMap K V → List (K × V)
  isRange : ∀ m, IsRange m (order m)

noncomputable instance : Inhabited (Ranger K V) :=
  ⟨fun m => (exists_isRange m).choose, fun m => (exists_isRange m).choose_spec⟩

theorem Ranger.countP_order (R : Ranger K V) (m : GoMap K V) (p : V → Bool) :
    (R.order m).countP (fun e => p e.2) = (m.keys.filter fun k => ∃ v ∈ m.lookup k, p v).card := by
  have h := R.isRange m
  have hn : (((R.order m).filter fun e => p e.2).map Prod.fst).Nodup :=
    h.nodup_keys.sublist (List.filter_sublist.map _)
  rw [List.countP_eq_length_filter, ← List.length_map (f := Prod.fst),
    ← List.toFinset_card_of_nodup hn]
  congr 1
  ext k
  simp only [List.mem_toFinset, List.mem_map, List.mem_filter, Finset.mem_filter, mem_keys,
    ← lookup_isSome, Option.isSome_iff_exists, Option.mem_def]
  constructor
  · rintro ⟨⟨k',v⟩, ⟨hm, hp⟩, rfl⟩
    have hl := (h.mem_iff _ _).mp hm
    exact ⟨⟨v, hl⟩, v, hl, hp⟩
  · rintro ⟨-, v, hl, hp⟩
    exact ⟨(k,v), ⟨(h.mem_iff _ _).mpr hl, hp⟩, rfl⟩

theorem Ranger.exists_order_eq {o : List (K × V)} (h : IsRange m o) :
    ∃ R : Ranger K V, R.order m = o := by
  classical
  let R : Ranger K V := default
  refine ⟨⟨fun m' => if m' = m then o else R.order m', fun m' => ?_⟩, if_pos rfl⟩
  split_ifs with hm
  · rwa [hm]
  · exact R.isRange m'

section ByKey
variable (key : K → ℕ)

def entriesByKey (l : AList (fun _ : K => V)) : List (K × V) :=
  (l.entries.map fun e => (e.1,e.2)).insertionSort fun a b => key a.1 ≤ key b.1

theorem isRange_entriesByKey (l : AList (fun _ : K => V)) :
    IsRange l.toFinmap (entriesByKey key l) :=
  (isRange_entries l).of_perm (List.perm_insertionSort ..).symm

variable {key} in
/-- Two entries with one key are the same. -/
theorem entriesByKey_congr (hkey : Function.Injective key) {l l' : AList (fun _ : K => V)}
    (h : l.toFinmap = l'.toFinmap) : entriesByKey key l = entriesByKey key l' := by
  have hl := isRange_entriesByKey key l
  have hl' := isRange_entriesByKey key l'
  rw [← h] at hl'
  have htotal : Std.Total fun a b : K × V => key a.1 ≤ key b.1 := ⟨fun a b => le_total _ _⟩
  have htrans : IsTrans (K × V) fun a b => key a.1 ≤ key b.1 := ⟨fun a b c => le_trans⟩
  refine List.Perm.eq_of_pairwise ?_ (List.pairwise_insertionSort _ _)
    (List.pairwise_insertionSort _ _) (hl.perm hl')
  rintro ⟨k,v⟩ ⟨k',v'⟩ hm hm' hle hge
  cases hkey (le_antisymm hle hge)
  have hv := (hl.mem_iff k v).mp hm
  rw [(hl'.mem_iff k v').mp hm'] at hv
  cases hv
  rfl

def Ranger.byKey (hkey : Function.Injective key) : Ranger K V where
  order m := m.liftOn (entriesByKey key) fun _ _ h => entriesByKey_congr hkey (AList.toFinmap_eq.mpr h)
  isRange m := by
    induction m using induction_on with
    | _ l => exact isRange_entriesByKey key l

end ByKey

section DeleteWhere

def deleteWhere (R : Ranger K V) (p : V → Bool) (m : GoMap K V) : GoMap K V :=
  (((R.order m).filter fun e => p e.2).map Prod.fst).foldl (fun m k => m.erase k) m

theorem lookup_foldl_erase (keys : List K) (m : GoMap K V) (k : K) :
    (keys.foldl (fun m k => m.erase k) m).lookup k = if k ∈ keys then none else m.lookup k := by
  induction keys generalizing m with
  | nil => rfl
  | cons j keys ih =>
    rw [List.foldl_cons, ih]
    by_cases hj : k = j
    · subst hj
      simp [lookup_erase]
    · simp [hj, lookup_erase_ne hj]

theorem lookup_deleteWhere (R : Ranger K V) (p : V → Bool) (m : GoMap K V) (k : K) :
    (deleteWhere R p m).lookup k = (m.lookup k).filter (fun v => !p v) := by
  have hmem : k ∈ ((R.order m).filter fun e => p e.2).map Prod.fst ↔
      ∃ v, m.lookup k = some v ∧ p v = true := by
    simp [(R.isRange m).mem_iff]
  rw [deleteWhere, lookup_foldl_erase]
  rcases hk : m.lookup k with _ | v
  · rw [ite_self]
    rfl
  · cases hp : p v with
    | true => rw [if_pos (hmem.mpr ⟨v, hk, hp⟩), Option.filter_some, hp]; rfl
    | false =>
      have hnot : k ∉ ((R.order m).filter fun e => p e.2).map Prod.fst := by
        intro hin
        obtain ⟨w, hw, hpw⟩ := hmem.mp hin
        rw [hk] at hw
        cases hw
        rw [hp] at hpw
        cases hpw
      rw [if_neg hnot, Option.filter_some, hp]
      rfl

end DeleteWhere

section LastValue
variable {m : GoMap K V} {p : K → Bool}

/-- What a loop leaves behind that keeps the value of each key that `p` selects. -/
def lastValue (p : K → Bool) (o : List (K × V)) : Option V :=
  ((o.filter fun e => p e.1).getLast?).map Prod.snd

omit [DecidableEq K] in
theorem lastValue_concat (p : K → Bool) (o : List (K × V)) (e : K × V) :
    lastValue p (o ++ [e]) = if p e.1 then some e.2 else lastValue p o := by
  unfold lastValue
  split_ifs with h <;> simp [List.filter_append, h]

omit [DecidableEq K] in
theorem lastValue_mem {o : List (K × V)} {v : V} (h : lastValue p o = some v) :
    ∃ k, (k,v) ∈ o ∧ p k = true := by
  obtain ⟨⟨k,v'⟩, hlast, rfl⟩ := Option.map_eq_some_iff.mp h
  have hm := List.mem_filter.mp (List.mem_of_getLast? hlast)
  exact ⟨k, hm.1, hm.2⟩

omit [DecidableEq K] in
theorem lastValue_isSome_iff (o : List (K × V)) :
    (lastValue p o).isSome = true ↔ ∃ e ∈ o, p e.1 = true := by
  rw [lastValue, Option.isSome_map, Option.isSome_iff_ne_none, Ne, List.getLast?_eq_none_iff,
    List.filter_eq_nil_iff]
  push Not
  rfl

/-- The chosen entry is moved to the end of the order. -/
theorem lastValue_eq_of_isRange {k : K} {v : V} (h : m.lookup k = some v) (hp : p k = true) :
    ∃ o, IsRange m o ∧ lastValue p o = some v := by
  obtain ⟨o, ho⟩ := exists_isRange m
  obtain ⟨l, r, rfl⟩ := List.append_of_mem ((ho.mem_iff k v).mpr h)
  have hperm : (l ++ (k,v) :: r).Perm (l ++ r ++ [(k,v)]) := by
    rw [List.append_assoc]
    exact (List.perm_append_singleton (k,v) r).symm.append_left l
  refine ⟨l ++ r ++ [(k,v)], ho.of_perm hperm, ?_⟩
  rw [lastValue_concat, if_pos hp]

/-- The loop leaves the same behind in every order exactly when all selected keys
carry one value. -/
theorem lastValue_order_independent_iff :
    (∀ o o', IsRange m o → IsRange m o' → lastValue p o = lastValue p o') ↔
      ∀ k k' v v', m.lookup k = some v → m.lookup k' = some v' → p k = true → p k' = true →
        v = v' := by
  constructor
  · intro h k k' v v' hk hk' hp hp'
    obtain ⟨o, ho, hv⟩ := lastValue_eq_of_isRange hk hp
    obtain ⟨o', ho', hv'⟩ := lastValue_eq_of_isRange hk' hp'
    exact Option.some.inj (hv.symm.trans ((h o o' ho ho').trans hv'))
  · intro h o o' ho ho'
    have hsome : (lastValue p o).isSome = true ↔ (lastValue p o').isSome = true := by
      rw [lastValue_isSome_iff, lastValue_isSome_iff]
      simp only [(ho.perm ho').mem_iff]
    rcases hv : lastValue p o with _ | v
    · rcases hv' : lastValue p o' with _ | v'
      · rfl
      · simp [hv, hv'] at hsome
    · rcases hv' : lastValue p o' with _ | v'
      · simp [hv, hv'] at hsome
      · obtain ⟨k, hk, hp⟩ := lastValue_mem hv
        obtain ⟨k', hk', hp'⟩ := lastValue_mem hv'
        rw [h k k' v v' ((ho.mem_iff k v).mp hk) ((ho'.mem_iff k' v').mp hk') hp hp']

end LastValue

end GoMap

end GoLib
