import Mathlib.Data.ZMod.Basic
import Mathlib.GroupTheory.OrderOfElement
import MatrixNode.CryptoSign
import MatrixNode.GoMap

/-! `random/electionseed.go`: the seed of an election is the sum of the private
keys that validators revealed and that match the public keys they had committed. -/
namespace MatrixNode
open GoLib GoMap Finmap Finset

structure SeedCurve where
  parsePubKey : Bytes → Option (ℤ × ℤ)
  scalarBaseMult : Bytes → ℤ × ℤ

namespace SeedCurve
variable (E : SeedCurve)

/-- `ScalarBaseMult` reads its bytes as a big-endian number and multiplies the
generator, which has the group's order. -/
structure MultipliesGenerator {G : Type} [AddGroup G] (generator : G) (coordinates : G → ℤ × ℤ) :
    Prop where
  order : addOrderOf generator = secp256k1N
  coordinates_injective : Function.Injective coordinates
  scalarBaseMult_eq : ∀ b, E.scalarBaseMult b = coordinates (beNat b • generator)

def compare (priv pub : Bytes) : Bool :=
  match E.parsePubKey pub with
  | none => false
  | some (x,y) => decide ((E.scalarBaseMult priv).1 = x) && decide ((E.scalarBaseMult priv).2 = y)

def contribution (priv pub : Option Bytes) : ℕ :=
  match priv, pub with
  | some privateV, some publicV =>
    if E.compare privateV publicV then (bytesToHash privateV).toNat else 0
  | _, _ => 0

def rangePrivate (order : List (Address × Bytes)) (publicMap : GoMap Address Bytes) : ℕ :=
  order.foldl (fun ans e => ans+E.contribution (some e.2) (publicMap.lookup e.1)) 0

def rangePublic (privateMap : GoMap Address Bytes) (order : List (Address × Bytes)) : ℕ :=
  order.foldl (fun ans e => ans+E.contribution (privateMap.lookup e.1) (some e.2)) 0

def compareMap (priv pub : GoMap Address Bytes) (privOrder pubOrder : List (Address × Bytes)) : ℕ :=
  if pub.len < priv.len then E.rangePrivate privOrder pub else E.rangePublic priv pubOrder

/-- Whatever the other accounts committed and revealed, and in whatever orders the
maps are visited, revealing `a` or `b` for the committed key gives the same sum. -/
def SameSeed (pub a b : Bytes) : Prop :=
  ∀ (address : Address) (privateMap publicMap : GoMap Address Bytes),
    publicMap.lookup address = some pub → ∀ oa ob : List (Address × Bytes),
    (IsRange (privateMap.insert address a) oa →
      IsRange (privateMap.insert address b) ob →
      E.rangePrivate oa publicMap = E.rangePrivate ob publicMap) ∧
    (IsRange publicMap oa → IsRange publicMap ob →
      E.rangePublic (privateMap.insert address a) oa =
        E.rangePublic (privateMap.insert address b) ob)

variable {priv pub : GoMap Address Bytes} {order : List (Address × Bytes)}

theorem rangePrivate_eq_sum (pub : GoMap Address Bytes) (h : IsRange priv order) :
    E.rangePrivate order pub =
      ∑ address ∈ priv.keys, E.contribution (priv.lookup address) (pub.lookup address) := by
  rw [rangePrivate, ← List.foldl_map, ← List.sum_eq_foldl,
    h.sum_map_entries fun address privateV => E.contribution (some privateV) (pub.lookup address)]
  apply sum_congr rfl
  intro address haddress
  obtain ⟨privateV, hprivate⟩ := mem_iff.mp (mem_keys.mp haddress)
  rw [hprivate]
  rfl

theorem rangePublic_eq_sum (priv : GoMap Address Bytes) (h : IsRange pub order) :
    E.rangePublic priv order =
      ∑ address ∈ pub.keys, E.contribution (priv.lookup address) (pub.lookup address) := by
  rw [rangePublic, ← List.foldl_map, ← List.sum_eq_foldl,
    h.sum_map_entries fun address publicV => E.contribution (priv.lookup address) (some publicV)]
  apply sum_congr rfl
  intro address haddress
  obtain ⟨publicV, hpublic⟩ := mem_iff.mp (mem_keys.mp haddress)
  rw [hpublic]
  rfl

theorem sameSeed_iff (pub a b : Bytes) :
    E.SameSeed pub a b ↔ E.contribution (some a) (some pub) = E.contribution (some b) (some pub) := by
  constructor
  · intro h
    have hp : IsRange ((∅ : GoMap Address Bytes).insert 0 pub) [(0,pub)] :=
      IsRange.cons_of_erase (IsRange.nil_iff.mpr rfl)
    have hs := (h 0 ∅ _ (lookup_insert ∅) _ _).2 hp hp
    simpa [rangePublic, lookup_insert] using hs
  · intro h address privateMap publicMap hpub oa ob
    have hkeys : (privateMap.insert address a).keys = (privateMap.insert address b).keys := by
      ext k
      rw [mem_keys, mem_keys, Finmap.mem_insert, Finmap.mem_insert]
    have hsum (keys : Finset Address) :
        ∑ k ∈ keys, E.contribution ((privateMap.insert address a).lookup k) (publicMap.lookup k) =
        ∑ k ∈ keys, E.contribution ((privateMap.insert address b).lookup k) (publicMap.lookup k) := by
      apply sum_congr rfl
      intro k _
      by_cases hk : k = address
      · rw [hk, lookup_insert, lookup_insert, hpub, h]
      · rw [lookup_insert_of_ne _ hk, lookup_insert_of_ne _ hk]
    refine ⟨fun ha hb => ?_, fun ha hb => ?_⟩
    · rw [E.rangePrivate_eq_sum _ ha, E.rangePrivate_eq_sum _ hb, hkeys, hsum]
    · rw [E.rangePublic_eq_sum _ ha, E.rangePublic_eq_sum _ hb, hsum]

section Sum
variable (priv pub : GoMap Address Bytes)

def revealedValue (privateV : Bytes) : ℕ := (bytesToHash privateV).toNat

def matching : Finset Address :=
  (priv.keys ∩ pub.keys).filter fun address =>
    E.compare ((priv.lookup address).getD []) ((pub.lookup address).getD [])

theorem revealedValue_of_length_le {privateV : Bytes} (h : privateV.length ≤ 32) :
    revealedValue privateV = beNat privateV := by
  have hlt : beNat privateV < 256^32 :=
    (beNat_lt privateV).trans_le (Nat.pow_le_pow_right (by decide) h)
  rw [revealedValue, bytesToHash_toNat]
  exact Nat.mod_eq_of_lt (hlt.trans_le (by decide))

theorem contribution_eq (address : Address) :
    E.contribution (priv.lookup address) (pub.lookup address) =
      if address ∈ E.matching priv pub then revealedValue ((priv.lookup address).getD []) else 0 := by
  have hmem : address ∈ E.matching priv pub ↔ (∃ v, priv.lookup address = some v) ∧
      (∃ v, pub.lookup address = some v) ∧
      E.compare ((priv.lookup address).getD []) ((pub.lookup address).getD []) = true := by
    rw [matching, mem_filter, mem_inter, mem_keys, mem_keys, mem_iff, mem_iff, and_assoc]
  cases hpriv : priv.lookup address with
  | none =>
    rw [hpriv] at hmem
    rw [if_neg (fun h => by simpa using (hmem.mp h).1)]
    rfl
  | some privateV =>
    cases hpub : pub.lookup address with
    | none =>
      rw [hpub] at hmem
      rw [if_neg (fun h => by simpa using (hmem.mp h).2.1)]
      rfl
    | some publicV =>
      rw [hpriv, hpub] at hmem
      simp only [Option.some.injEq, exists_eq', true_and, Option.getD_some] at hmem
      simp only [contribution, hmem, Option.getD_some, revealedValue]

variable {priv pub}

theorem sum_contribution {keys : Finset Address} (hkeys : E.matching priv pub ⊆ keys) :
    ∑ address ∈ keys, E.contribution (priv.lookup address) (pub.lookup address) =
      ∑ address ∈ E.matching priv pub, revealedValue ((priv.lookup address).getD []) := by
  rw [← sum_subset hkeys]
  · apply sum_congr rfl
    intro address haddress
    rw [contribution_eq, if_pos haddress]
  · intro address _ haddress
    rw [contribution_eq, if_neg haddress]

/-- The seed sums the revealed values of the addresses that match, in whatever order the maps are
visited. -/
theorem compareMap_eq_sum_matching (priv pub : GoMap Address Bytes)
    {privOrder pubOrder : List (Address × Bytes)} (hpriv : IsRange priv privOrder)
    (hpub : IsRange pub pubOrder) :
    E.compareMap priv pub privOrder pubOrder =
        ∑ address ∈ E.matching priv pub, revealedValue ((priv.lookup address).getD []) ∧
      E.rangePrivate privOrder pub =
        ∑ address ∈ E.matching priv pub, revealedValue ((priv.lookup address).getD []) ∧
      E.rangePublic priv pubOrder =
        ∑ address ∈ E.matching priv pub, revealedValue ((priv.lookup address).getD []) ∧
      ∀ privateV : Bytes, privateV.length ≤ 32 → revealedValue privateV = beNat privateV := by
  have hprivate := (E.rangePrivate_eq_sum pub hpriv).trans
    (E.sum_contribution ((filter_subset _ _).trans inter_subset_left))
  have hpublic := (E.rangePublic_eq_sum priv hpub).trans
    (E.sum_contribution ((filter_subset _ _).trans inter_subset_right))
  refine ⟨?_, hprivate, hpublic, fun _ => revealedValue_of_length_le⟩
  unfold compareMap
  split_ifs
  · exact hprivate
  · exact hpublic

end Sum

section Binding
variable {E} {G : Type} [AddGroup G] {generator : G} {coordinates : G → ℤ × ℤ} {pub a b : Bytes}

theorem compare_eq_true (h : E.compare a pub = true) :
    E.parsePubKey pub = some (E.scalarBaseMult a) := by
  unfold compare at h
  split at h
  · cases h
  · rename_i x y hp
    rw [Bool.and_eq_true, decide_eq_true_eq, decide_eq_true_eq] at h
    rw [hp, ← h.1, ← h.2]

theorem compare_modEq (hE : E.MultipliesGenerator generator coordinates)
    (ha : E.compare a pub = true) (hb : E.compare b pub = true) :
    beNat a ≡ beNat b [MOD secp256k1N] := by
  have hpoint : E.scalarBaseMult a = E.scalarBaseMult b :=
    Option.some.inj ((compare_eq_true ha).symm.trans (compare_eq_true hb))
  rw [hE.scalarBaseMult_eq, hE.scalarBaseMult_eq] at hpoint
  rw [← hE.order]
  exact nsmul_eq_nsmul_iff_modEq.mp (hE.coordinates_injective hpoint)

theorem contribution_of_compare (ha : E.compare a pub = true) :
    E.contribution (some a) (some pub) = beNat a%2^256 := by
  simp [contribution, ha, bytesToHash_toNat]

theorem secp256k1N_coprime : secp256k1N.Coprime (2^256) := by
  apply Nat.Coprime.pow_right
  norm_num [secp256k1N]

/-- Two accepted reveals add the same number exactly when they agree modulo the group order and the
size of a hash. -/
theorem sameSeed_iff_modEq (hE : E.MultipliesGenerator generator coordinates)
    (ha : E.compare a pub = true) (hb : E.compare b pub = true) :
    E.SameSeed pub a b ↔ beNat a ≡ beNat b [MOD secp256k1N*2^256] := by
  rw [sameSeed_iff, contribution_of_compare ha, contribution_of_compare hb,
    ← Nat.modEq_and_modEq_iff_modEq_mul secp256k1N_coprime]
  exact ⟨fun h => ⟨compare_modEq hE ha hb, h⟩, fun h => h.2⟩

end Binding

def sampleCurve : SeedCurve where
  parsePubKey := fun b => some ((beNat b%secp256k1N : ℕ), 0)
  scalarBaseMult := fun b => ((beNat b%secp256k1N : ℕ), 0)

theorem sampleCurve_multiplies :
    sampleCurve.MultipliesGenerator (1 : ZMod secp256k1N) (fun z => ((ZMod.val z : ℤ), 0)) := by
  have : NeZero secp256k1N := ⟨by norm_num [secp256k1N]⟩
  refine ⟨ZMod.addOrderOf_one _, fun x y hxy => ?_, fun b => ?_⟩
  · exact ZMod.val_injective _ (Int.ofNat_inj.mp (Prod.ext_iff.mp hxy).1)
  · rw [nsmul_one, ZMod.val_natCast]
    rfl

def committedKeys : GoMap Address Bytes := .ofEntries [(7,[1]), (8,[3])]

def revealedKeys : GoMap Address Bytes := .ofEntries [(7,[1]), (8,[2]), (9,[5])]

/-- Of three revealed keys one has no commitment and one does not match its own. -/
theorem compareMap_unmatched : ∃ privOrder pubOrder,
    IsRange revealedKeys privOrder ∧ IsRange committedKeys pubOrder ∧
      sampleCurve.compareMap revealedKeys committedKeys privOrder pubOrder = 1 := by
  obtain ⟨privOrder, hpriv⟩ := exists_isRange revealedKeys
  obtain ⟨pubOrder, hpub⟩ := exists_isRange committedKeys
  refine ⟨privOrder, pubOrder, hpriv, hpub, ?_⟩
  rw [(sampleCurve.compareMap_eq_sum_matching revealedKeys committedKeys hpriv hpub).1]
  decide +kernel

/-- The key 1 and itself with a leading zero byte. -/
theorem sameSeed_padded_one : sampleCurve.SameSeed [1] [0,1] [1] :=
  (sameSeed_iff_modEq sampleCurve_multiplies (by decide +kernel) (by decide +kernel)).mpr rfl

/-- The group order plus one is accepted for the public key of 1 and adds itself. -/
theorem reveal_order_plus_one_changes_seed :
    sampleCurve.compare [1] [1] = true ∧
    sampleCurve.compare (beBytes (secp256k1N+1)) [1] = true ∧
    ¬ sampleCurve.SameSeed [1] [1] (beBytes (secp256k1N+1)) := by
  have ha : sampleCurve.compare [1] [1] = true := by decide +kernel
  have hb : sampleCurve.compare (beBytes (secp256k1N+1)) [1] = true := by
    simp [compare, sampleCurve, beNat_beBytes, beNat_cons]
  refine ⟨ha, hb, fun h => ?_⟩
  have hone : beNat [1] = 1 := rfl
  rw [sameSeed_iff, contribution_of_compare ha, contribution_of_compare hb, beNat_beBytes, hone] at h
  norm_num [secp256k1N] at h

end SeedCurve

end MatrixNode
