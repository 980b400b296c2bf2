import Mathlib.Data.Finset.Card
import Mathlib.Tactic

/-! Quorums as sets of members: a set of at least `threshold` of them. -/
namespace GoLib
variable {α : Type} [DecidableEq α]

structure IsQuorum (members : Finset α) (threshold : ℕ) (voters : Finset α) : Prop where
  subset : voters ⊆ members
  threshold_le : threshold ≤ voters.card

namespace IsQuorum
variable {members A B : Finset α} {t : ℕ}

theorem card_inter (hA : IsQuorum members t A) (hB : IsQuorum members t B) :
    2*t ≤ members.card+(A ∩ B).card := by
  have hsum := Finset.card_inter_add_card_union A B
  have hunion := Finset.card_le_card (Finset.union_subset hA.subset hB.subset)
  have ha := hA.threshold_le
  have hb := hB.threshold_le
  omega

end IsQuorum

end GoLib
