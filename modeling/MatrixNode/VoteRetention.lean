import MatrixNode.StepRun
import MatrixNode.VotePool

/-! How long the vote pool keeps a vote. -/
namespace MatrixNode
open GoLib Finmap Option Finset

namespace VotePool
variable {Hash : Type} [DecidableEq Hash]

section DelVotes

/-- One turn of the outer loop of `DelVotes`. An account without votes leaves the map. -/
def dropHash (signHash : Hash) (voteMap : VoteMap Hash)
    (account : Address × GoMap Hash (VoteInfo Hash)) : VoteMap Hash :=
  if signHash ∈ account.2 then
    if account.2.len = 1 then voteMap.erase account.1
    else voteMap.insert account.1 (account.2.erase signHash)
  else voteMap

/-- The time index is not touched. -/
def delVotes [Zero Hash] (vp : VotePool Hash) (O : VoteOrders Hash) (signHash : Hash) :
    VotePool Hash :=
  if signHash = 0 then vp
  else { vp with voteMap := (O.accounts.order vp.voteMap).foldl (dropHash signHash) vp.voteMap }

end DelVotes

section VoteIn
variable {voteMap voteMap' : VoteMap Hash} {a b : Address} {g h : Hash}
  {own : GoMap Hash (VoteInfo Hash)} {v : VoteInfo Hash}

def voteIn (voteMap : VoteMap Hash) (a : Address) (h : Hash) : Option (VoteInfo Hash) :=
  (voteMap.lookup a).bind (fun votes => votes.lookup h)

theorem voteOf_eq_voteIn (vp : VotePool Hash) (a : Address) (h : Hash) :
    vp.voteOf a h = voteIn vp.voteMap a h := rfl

theorem voteIn_of_lookup (hown : voteMap.lookup a = some own) (h : Hash) :
    voteIn voteMap a h = own.lookup h := by
  rw [voteIn, hown, bind_some]

theorem voteIn_congr (hsame : voteMap'.lookup a = voteMap.lookup a) (h : Hash) :
    voteIn voteMap' a h = voteIn voteMap a h := by
  rw [voteIn, hsame, voteIn]

theorem Shrinks.voteIn (hs : Shrinks voteMap' voteMap) (hv : voteIn voteMap' a h = some v) :
    VotePool.voteIn voteMap a h = some v := by
  obtain ⟨own', hown', hv⟩ := bind_eq_some_iff.mp hv
  obtain ⟨own, hown, hsub⟩ := hs a own' hown'
  rw [voteIn_of_lookup hown]
  exact hsub h v hv

theorem lookup_eq_none_of_len_erase (hleft : GoMap.len (own.erase g) = 0) (hne : h ≠ g) :
    own.lookup h = none := by
  rw [← lookup_erase_ne hne, GoMap.eq_empty_of_len_eq_zero (Nat.not_lt.mpr hleft.le)]
  exact lookup_empty h

theorem voteIn_insert_erase (hown : voteMap.lookup b = some own) (hother : ¬ (a = b ∧ h = g)) :
    voteIn (voteMap.insert b (own.erase g)) a h = voteIn voteMap a h := by
  by_cases ha : a = b
  · subst ha
    have hne : h ≠ g := fun hh => hother ⟨rfl, hh⟩
    rw [voteIn_of_lookup (lookup_insert _), voteIn_of_lookup hown, lookup_erase_ne hne]
  · exact voteIn_congr (lookup_insert_of_ne _ ha) h

theorem voteIn_erase (hown : voteMap.lookup b = some own) (hleft : GoMap.len (own.erase g) = 0)
    (hother : ¬ (a = b ∧ h = g)) : voteIn (voteMap.erase b) a h = voteIn voteMap a h := by
  by_cases ha : a = b
  · subst ha
    have hne : h ≠ g := fun hh => hother ⟨rfl, hh⟩
    rw [voteIn_of_lookup hown, lookup_eq_none_of_len_erase hleft hne, voteIn, lookup_erase]
    rfl
  · exact voteIn_congr (lookup_erase_ne ha) h

theorem voteIn_deleteVote {vote : VoteInfo Hash} (hother : ¬ isVoteOf a h vote = true) :
    voteIn (deleteVote voteMap vote) a h = voteIn voteMap a h := by
  have hother' : ¬ (a = vote.fromAccount ∧ h = vote.signHash) := by
    rintro ⟨rfl, rfl⟩
    exact hother (isVoteOf_iff.mpr ⟨rfl, rfl⟩)
  unfold deleteVote
  split
  · rfl
  · rename_i own hown
    dsimp only
    split_ifs with hlen hleft
    · rfl
    · exact voteIn_erase hown hleft hother'
    · exact voteIn_insert_erase hown hother'

theorem voteIn_dropTimedOut (deadLine : ℤ) (timeIndex : List (VoteInfo Hash))
    (hindex : ∀ w ∈ timeIndex, isVoteOf a h w = true → deadLine ≤ w.time) (voteMap : VoteMap Hash) :
    voteIn (dropTimedOut deadLine voteMap timeIndex).1 a h = voteIn voteMap a h := by
  induction timeIndex generalizing voteMap with
  | nil => rfl
  | cons vote rest ih =>
    unfold dropTimedOut
    split_ifs with hdue
    · rfl
    · have hother : ¬ isVoteOf a h vote = true := by
        intro hof
        exact hdue (hindex vote List.mem_cons_self hof)
      rw [ih (fun w hw => hindex w (List.mem_cons_of_mem _ hw)), voteIn_deleteVote hother]

theorem mem_dropTimedOut {deadLine : ℤ} {timeIndex : List (VoteInfo Hash)} {w : VoteInfo Hash}
    (hw : w ∈ (dropTimedOut deadLine voteMap timeIndex).2) : w ∈ timeIndex := by
  induction timeIndex generalizing voteMap with
  | nil => exact hw
  | cons vote rest ih =>
    unfold dropTimedOut at hw
    split_ifs at hw
    · exact hw
    · exact List.mem_cons_of_mem _ (ih hw)

def withoutHash (g : Hash) (own : GoMap Hash (VoteInfo Hash)) :
    Option (GoMap Hash (VoteInfo Hash)) :=
  if g ∈ own then
    if own.len = 1 then none else some (own.erase g)
  else some own

theorem lookup_of_withoutHash {left : GoMap Hash (VoteInfo Hash)}
    (hleft : withoutHash g own = some left) (hv : left.lookup h = some v) :
    own.lookup h = some v := by
  unfold withoutHash at hleft
  split_ifs at hleft
  · cases hleft
    exact GoMap.lookup_of_lookup_erase hv
  · cases hleft
    exact hv

theorem withoutHash_bind_lookup (g h : Hash) (own : GoMap Hash (VoteInfo Hash)) :
    (withoutHash g own).bind (fun left => left.lookup h) =
      if h = g then none else own.lookup h := by
  unfold withoutHash
  split_ifs with hmem hone hh hh hh
  · rfl
  · have hcard := card_erase_of_mem (mem_keys.mpr hmem)
    rw [← keys_erase] at hcard
    exact (lookup_eq_none_of_len_erase (hcard.trans (Nat.sub_eq_zero_of_le hone.le)) hh).symm
  · rw [bind_some, hh, lookup_erase]
  · rw [bind_some, lookup_erase_ne hh]
  · rw [bind_some, hh, lookup_eq_none.mpr hmem]
  · rfl

theorem lookup_dropHash (hown : voteMap.lookup b = some own) :
    (dropHash g voteMap (b,own)).lookup a =
      if a = b then withoutHash g own else voteMap.lookup a := by
  unfold dropHash withoutHash
  by_cases ha : a = b
  · subst ha
    rw [if_pos rfl]
    split_ifs
    · exact lookup_erase a voteMap
    · exact lookup_insert _
    · exact hown
  · split_ifs
    · exact lookup_erase_ne ha
    · exact lookup_insert_of_ne _ ha
    · rfl

theorem lookup_foldl_dropHash (order : List (Address × GoMap Hash (VoteInfo Hash)))
    (hnodup : (order.map Prod.fst).Nodup) (horder : ∀ e ∈ order, voteMap.lookup e.1 = some e.2) :
    (order.foldl (dropHash g) voteMap).lookup a =
      if a ∈ order.map Prod.fst then (voteMap.lookup a).bind (withoutHash g)
      else voteMap.lookup a := by
  induction order generalizing voteMap with
  | nil => rfl
  | cons e order ih =>
    obtain ⟨b, own⟩ := e
    rw [List.map_cons, List.nodup_cons] at hnodup
    have hhead := horder (b,own) List.mem_cons_self
    have hrest : ∀ e ∈ order, (dropHash g voteMap (b,own)).lookup e.1 = some e.2 := by
      intro e he
      have hne : e.1 ≠ b := by
        intro heb
        exact hnodup.1 (List.mem_map.mpr ⟨e, he, heb⟩)
      rw [lookup_dropHash hhead, if_neg hne]
      exact horder e (List.mem_cons_of_mem _ he)
    rw [List.foldl_cons, ih hnodup.2 hrest, lookup_dropHash hhead]
    by_cases ha : a = b
    · subst ha
      rw [if_neg hnodup.1, if_pos rfl, if_pos (by simp), hhead, bind_some]
    · have hmem : a ∈ ((b,own) :: order).map Prod.fst ↔ a ∈ order.map Prod.fst := by
        rw [List.map_cons, List.mem_cons]
        exact or_iff_right ha
      rw [if_neg ha]
      exact if_congr hmem.symm rfl rfl

end VoteIn

section Pruning
variable (vp : VotePool Hash) {D : DposEngine Hash} {O : VoteOrders Hash} {a : Address} {h : Hash}
  {v : VoteInfo Hash}

/-- An account that the loop does not visit is not in the map. -/
theorem lookup_delVotes [Zero Hash] {g : Hash} (hg : g ≠ 0) (a : Address) :
    (vp.delVotes O g).voteMap.lookup a = (vp.voteMap.lookup a).bind (withoutHash g) := by
  have hrange := O.accounts.isRange vp.voteMap
  unfold delVotes
  rw [if_neg hg]
  rw [lookup_foldl_dropHash _ hrange.nodup_keys (fun e he => (hrange.mem_iff e.1 e.2).mp he)]
  split_ifs with hin
  · rfl
  · have hnot : a ∉ vp.voteMap := by
      rw [← mem_keys, ← hrange.keys_toFinset, List.mem_toFinset]
      exact hin
    rw [lookup_eq_none.mpr hnot]
    rfl

theorem delVotes_zero [Zero Hash] : vp.delVotes O 0 = vp := if_pos rfl

theorem voteOf_delVotes [Zero Hash] {g : Hash} (hne : h ≠ g) :
    (vp.delVotes O g).voteOf a h = vp.voteOf a h := by
  by_cases hg : g = 0
  · rw [hg, delVotes_zero]
  · unfold voteOf
    rw [lookup_delVotes vp hg]
    cases vp.voteMap.lookup a with
    | none => rfl
    | some own =>
      rw [bind_some, bind_some, withoutHash_bind_lookup, if_neg hne]

theorem delVotes_frame [Zero Hash] (O : VoteOrders Hash) (g : Hash) :
    (vp.delVotes O g).timeIndex = vp.timeIndex ∧
    (vp.delVotes O g).timeoutInterval = vp.timeoutInterval ∧
    (vp.delVotes O g).accountVoteCountLimit = vp.accountVoteCountLimit := by
  unfold delVotes
  split_ifs <;> exact ⟨rfl, rfl, rfl⟩

theorem delVotes_shrinks [Zero Hash] (O : VoteOrders Hash) (g : Hash) :
    Shrinks (vp.delVotes O g).voteMap vp.voteMap := by
  by_cases hg : g = 0
  · rw [hg, delVotes_zero]
    exact .refl _
  · intro a left hleft
    rw [lookup_delVotes vp hg] at hleft
    obtain ⟨own, hown, hleft⟩ := bind_eq_some_iff.mp hleft
    exact ⟨own, hown, fun k w hw => lookup_of_withoutHash hleft hw⟩

theorem Genuine.delVotes [Zero Hash] (hg : Genuine D vp) (O : VoteOrders Hash) (g : Hash) :
    Genuine D (vp.delVotes O g) := by
  have hshrinks : Shrinks (vp.delVotes O g).voteMap vp.voteMap := vp.delVotes_shrinks O g
  refine ⟨hg.filed.of_shrinks hshrinks, ?_⟩
  intro a votes hvotes
  obtain ⟨before, hbefore, hlen⟩ := hshrinks.len_le hvotes
  rw [(vp.delVotes_frame O g).2.2]
  exact hlen.trans (hg.limited a before hbefore)

end Pruning

section Oldest
variable {own own' : GoMap Hash (VoteInfo Hash)} {O : VoteOrders Hash} {limit : ℕ}

def OneOldest (own : GoMap Hash (VoteInfo Hash)) : Prop :=
  ∃ k e, own.lookup k = some e ∧ ∀ k' w, own.lookup k' = some w → k' ≠ k → e.time < w.time

instance (own : GoMap Hash (VoteInfo Hash)) : Decidable (OneOldest own) :=
  decidable_of_iff
    (∃ k ∈ own.keys, ∃ e ∈ own.lookup k, ∀ k' ∈ own.keys, k' ≠ k → ∀ w ∈ own.lookup k', e.time < w.time)
    (by
      unfold OneOldest
      constructor
      · rintro ⟨k, -, e, hk, hold⟩
        refine ⟨k, e, hk, ?_⟩
        intro k' w hw hne
        exact hold k' (mem_keys.mpr (mem_of_lookup_eq_some hw)) hne w hw
      · rintro ⟨k, e, hk, hold⟩
        refine ⟨k, mem_keys.mpr (mem_of_lookup_eq_some hk), e, hk, ?_⟩
        intro k' _ hne w hw
        exact hold k' w hw hne)

/-- If the places of the account are all taken, one of its votes is the oldest. -/
abbrev OldestIfFull (vp : VotePool Hash) (vote : VoteInfo Hash) : Prop :=
  votePoolCountLimit ≤ (vp.accountVotes vote.fromAccount).len →
    OneOldest ((vp.accountVotes vote.fromAccount).insert vote.signHash vote)

omit [DecidableEq Hash] in
theorem earliest_le (order : List (Hash × VoteInfo Hash)) :
    ∀ e ∈ order, ∃ found, earliest order = some found ∧ found.time ≤ e.2.time := by
  induction order using List.reverseRecOn with
  | nil => exact fun e he => absurd he List.not_mem_nil
  | append_singleton order last ih =>
    have hstep : earliest (order ++ [last]) = some (earlier (earliest order) last.2) :=
      List.foldl_concat ..
    intro e he
    refine ⟨_, hstep, ?_⟩
    rcases List.mem_append.mp he with he | he
    · obtain ⟨found, hfound, hle⟩ := ih e he
      rw [hfound, earlier]
      split_ifs with hlast
      · exact hlast.le.trans hle
      · exact hle
    · rw [List.mem_singleton.mp he]
      cases earliest order with
      | none => exact le_rfl
      | some found =>
        rw [earlier]
        split_ifs with hlast
        · exact le_rfl
        · exact Int.not_lt.mp hlast

/-- Whatever the order of the range, the vote that the loop finds is the oldest one. -/
theorem iterate_dropEarliest_of_succ
    (hfiled : ∀ h v, own.lookup h = some v → v.signHash = h) (hlen : own.len = limit+1)
    (hold : OneOldest own) :
    ∃ k e, own.lookup k = some e ∧ (∀ k' w, own.lookup k' = some w → k' ≠ k → e.time < w.time) ∧
      (dropEarliest O limit)^[own.len] own = own.erase k := by
  obtain ⟨k, e, hk, hold⟩ := hold
  have hrange := O.votes.isRange own
  obtain ⟨found, hfound, hle⟩ := earliest_le (O.votes.order own) (k,e) ((hrange.mem_iff k e).mpr hk)
  have hne : O.votes.order own ≠ [] := by
    intro hnil
    rw [hnil] at hfound
    cases hfound
  obtain ⟨⟨k', w⟩, hmem, hfound'⟩ := earliest_mem _ hne
  have hw := (hrange.mem_iff k' w).mp hmem
  rw [hfound, some.injEq] at hfound'
  subst hfound'
  have hkk : k' = k := by
    by_contra hdiff
    exact absurd (hold k' found hw hdiff) (Int.not_lt.mpr hle)
  subst hkk
  have hdrop : dropEarliest O limit own = own.erase k' := by
    unfold dropEarliest
    rw [if_neg (by omega), hfound]
    dsimp only
    rw [hfiled k' found hw]
  refine ⟨k', e, hk, hold, ?_⟩
  have hless := len_dropEarliest (O := O) hfiled (show limit < own.len by omega)
  rw [hlen, Function.iterate_succ_apply, iterate_dropEarliest_of_le limit (by omega), hdrop]

/-- The smaller map has as many keys, hence the same. -/
theorem OneOldest.of_sub (hold : OneOldest own)
    (hsub : ∀ h v, own'.lookup h = some v → own.lookup h = some v) (hlen : own.len ≤ own'.len) :
    OneOldest own' := by
  have hkeys : own'.keys ⊆ own.keys := by
    intro k hk
    obtain ⟨v, hv⟩ := mem_iff.mp (mem_keys.mp hk)
    exact mem_keys.mpr (mem_of_lookup_eq_some (hsub k v hv))
  have heq : own'.keys = own.keys := eq_of_subset_of_card_le hkeys hlen
  obtain ⟨k, e, hk, hold⟩ := hold
  have hmem : k ∈ own'.keys := by
    rw [heq]
    exact mem_keys.mpr (mem_of_lookup_eq_some hk)
  obtain ⟨e', he'⟩ := mem_iff.mp (mem_keys.mp hmem)
  have hsame := hsub k e' he'
  rw [hk, some.injEq] at hsame
  subst hsame
  exact ⟨k, e, he', fun k' w hw hne => hold k' w (hsub k' w hw) hne⟩

theorem len_insert_le (own : GoMap Hash (VoteInfo Hash)) (k : Hash) (v : VoteInfo Hash) :
    GoMap.len (own.insert k v) ≤ own.len+1 := by
  refine (card_le_card ?_).trans (card_insert_le k own.keys)
  intro j hj
  rw [Finset.mem_insert]
  exact mem_insert.mp (mem_keys.mp hj)

end Oldest

section Tracked
variable {vp : VotePool Hash} {D : DposEngine Hash} {v : VoteInfo Hash} {later : Finset Hash}

/-- A vote that the pool has, with no other entry in the index, and whose newer ones are for the
hashes `later`. -/
structure Tracked (vp : VotePool Hash) (v : VoteInfo Hash) (later : Finset Hash) : Prop where
  there : vp.voteOf v.fromAccount v.signHash = some v
  alone : ∀ w ∈ vp.timeIndex, isVoteOf v.fromAccount v.signHash w = true → w = v
  newer : ∀ k w, vp.voteOf v.fromAccount k = some w → v.time < w.time → k ∈ later

theorem Tracked.delVotes [Zero Hash] (ht : Tracked vp v later) (O : VoteOrders Hash) {g : Hash}
    (hg : v.signHash ≠ g) : Tracked (vp.delVotes O g) v later := by
  constructor
  · rw [voteOf_delVotes vp hg]
    exact ht.there
  · rw [(vp.delVotes_frame O g).1]
    exact ht.alone
  · intro k w hw
    exact ht.newer k w ((vp.delVotes_shrinks O g).voteIn hw)

/-- The one entry that could delete the vote is its own, which is not out of time. -/
theorem Tracked.fixPoolByTimeout (ht : Tracked vp v later) {curTime : ℤ}
    (hage : curTime-v.time ≤ vp.timeoutInterval) :
    Tracked (vp.fixPoolByTimeout curTime) v later := by
  constructor
  · refine (voteIn_dropTimedOut _ _ ?_ _).trans ht.there
    intro w hw hof
    rw [ht.alone w hw hof]
    omega
  · intro w hw
    exact ht.alone w (mem_dropTimedOut hw)
  · intro k w hw
    exact ht.newer k w ((vp.fixPoolByTimeout_shrinks curTime).voteIn hw)

/-- The oldest vote of the account goes; if that were `v`, all others would be newer. -/
theorem Tracked.fixPoolByCountLimit (ht : Tracked vp v later) (hfiled : Filed D vp.voteMap)
    (O : VoteOrders Hash) (a : Address)
    (hone : ∀ own, vp.voteMap.lookup a = some own → vp.accountVoteCountLimit < own.len →
      own.len = vp.accountVoteCountLimit+1 ∧ OneOldest own)
    (hfew : later.card < vp.accountVoteCountLimit) :
    Tracked (vp.fixPoolByCountLimit O a) v later := by
  have hindex : (vp.fixPoolByCountLimit O a).timeIndex = vp.timeIndex := by
    unfold VotePool.fixPoolByCountLimit
    split <;> rfl
  have hshrinks := vp.fixPoolByCountLimit_shrinks O a
  refine ⟨?_, by rw [hindex]; exact ht.alone, fun k w hw => ht.newer k w (hshrinks.voteIn hw)⟩
  rcases hown : vp.voteMap.lookup a with _ | own
  · rw [VotePool.fixPoolByCountLimit, hown]
    exact ht.there
  · by_cases hlen : vp.accountVoteCountLimit < own.len
    · obtain ⟨hsucc, hold⟩ := hone own hown hlen
      have hfiled' : ∀ h w, own.lookup h = some w → w.signHash = h := by
        intro h w hw
        exact (hfiled a own hown h w hw).2.1
      obtain ⟨k, e, hk, holder, hdrop⟩ := iterate_dropEarliest_of_succ (O := O) hfiled' hsucc hold
      have hmap : (vp.fixPoolByCountLimit O a).voteMap = vp.voteMap.insert a (own.erase k) := by
        rw [VotePool.fixPoolByCountLimit, hown]
        dsimp only
        rw [hdrop]
      rw [voteOf_eq_voteIn, hmap, voteIn_insert_erase hown]
      · exact ht.there
      · rintro ⟨rfl, rfl⟩
        have hev : e = v := by
          have hthere := ht.there
          rw [voteOf_eq_voteIn, voteIn_of_lookup hown, hk, some.injEq] at hthere
          exact hthere
        subst hev
        have hsub : own.keys.erase e.signHash ⊆ later := by
          intro k' hk'
          obtain ⟨hne, hmem⟩ := mem_erase.mp hk'
          obtain ⟨w, hw⟩ := mem_iff.mp (mem_keys.mp hmem)
          refine ht.newer k' w ?_ (holder k' w hw hne)
          rw [voteOf_eq_voteIn, voteIn_of_lookup hown]
          exact hw
        have hcard := card_le_card hsub
        rw [card_erase_of_mem (mem_keys.mpr (mem_of_lookup_eq_some hk))] at hcard
        have hkeys : own.keys.card = vp.accountVoteCountLimit+1 := hsucc
        omega
    · rw [fixPoolByCountLimit_of_le]
      · exact ht.there
      · intro own' hown'
        rw [hown, some.injEq] at hown'
        rw [← hown']
        exact Nat.not_lt.mp hlen

end Tracked

end VotePool

inductive VoteCall (Hash : Type) [DecidableEq Hash] where
  | addVote (O : VoteOrders Hash) (msg : VoteMsg Hash)
  | delVotes (O : VoteOrders Hash) (signHash : Hash) (time : ℤ)

def VoteCall.time {Hash : Type} [DecidableEq Hash] : VoteCall Hash → ℤ
  | .addVote _ msg => msg.time
  | .delVotes _ _ time => time

/-- A vote for which `AddVote` has returned nil, or a hash with which `DelVotes` was called. -/
inductive VoteRecord (Hash : Type) where
  | accepted (vote : VoteInfo Hash)
  | deleted (signHash : Hash)
deriving DecidableEq

structure VoteHistory (Hash : Type) where
  pool : VotePool Hash
  log : List (VoteRecord Hash)
  clock : ℤ

namespace VoteHistory
open VotePool
variable {Hash : Type} [DecidableEq Hash]

def start (Hash : Type) (clock : ℤ) : VoteHistory Hash where
  pool := newVotePool Hash
  log := []
  clock := clock

def step [Zero Hash] (D : DposEngine Hash) (s : VoteHistory Hash) :
    VoteCall Hash → Except GoError (VoteHistory Hash)
  | .addVote O msg =>
    match checkVote D msg, s.pool.addVote D O msg with
    | .ok vote, .ok pool => pure ⟨pool, s.log ++ [.accepted vote], msg.time⟩
    | _, _ => pure { s with clock := msg.time }
  | .delVotes O signHash time =>
    pure ⟨s.pool.delVotes O signHash, s.log ++ [.deleted signHash], time⟩

def otherHash (v : VoteInfo Hash) : VoteRecord Hash → Option Hash
  | .accepted w =>
    if w.fromAccount = v.fromAccount ∧ w.signHash ≠ v.signHash then some w.signHash else none
  | .deleted _ => none

def otherHashes (v : VoteInfo Hash) (records : List (VoteRecord Hash)) : Finset Hash :=
  (records.filterMap (otherHash v)).toFinset

/-- Every accepted vote can be retrieved that is in time, was not deleted and was not followed by
too many others of its account. -/
def Retains (s : VoteHistory Hash) (now : ℤ) : Prop :=
  ∀ before v after, s.log = before ++ .accepted v :: after → now-v.time ≤ votePoolTimeout →
    .deleted v.signHash ∉ after → (otherHashes v after).card < votePoolCountLimit →
    ∀ O, v.sign ∈ s.pool.getVotes O v.signHash

def Limited (s : VoteHistory Hash) : Prop :=
  ∀ a own, s.pool.voteMap.lookup a = some own → own.len ≤ votePoolCountLimit

/-- A vote that is taken finds no old entry in the time index, and if the places are all taken, one
vote is the oldest. -/
def Undisturbed (D : DposEngine Hash) (s : VoteHistory Hash) : VoteCall Hash → Prop
  | .addVote _ msg => ∀ vote, checkVote D msg = .ok vote →
    s.pool.voteOf vote.fromAccount vote.signHash = none →
    (∀ w ∈ s.pool.timeIndex, ¬ isVoteOf vote.fromAccount vote.signHash w = true) ∧
    s.pool.OldestIfFull vote
  | .delVotes .. => True

instance (D : DposEngine Hash) (s : VoteHistory Hash) :
    ∀ call, Decidable (Undisturbed D s call)
  | .delVotes .. => isTrue trivial
  | .addVote _ msg =>
    match h : checkVote D msg with
    | .error _ => isTrue (fun vote hvote => by rw [h] at hvote; cases hvote)
    | .ok vote => decidable_of_iff
      (s.pool.voteOf vote.fromAccount vote.signHash = none →
        (∀ w ∈ s.pool.timeIndex, ¬ isVoteOf vote.fromAccount vote.signHash w = true) ∧
        s.pool.OldestIfFull vote)
      (by
        constructor
        · intro hclean vote' hvote
          rw [h, Except.ok.injEq] at hvote
          rw [← hvote]
          exact hclean
        · exact fun hclean => hclean vote h)

variable {D : DposEngine Hash} {s s' : VoteHistory Hash} {call : VoteCall Hash}
  {v vote : VoteInfo Hash} {before after : List (VoteRecord Hash)}

def afterVote (vp : VotePool Hash) (O : VoteOrders Hash) (vote : VoteInfo Hash) : VotePool Hash :=
  ((vp.insertVote vote).fixPoolByTimeout vote.time).fixPoolByCountLimit O vote.fromAccount

theorem step_cases [Zero Hash] (h : step D s call = .ok s') :
    s' = { s with clock := call.time } ∨
    (∃ O msg vote, call = .addVote O msg ∧ checkVote D msg = .ok vote ∧ vote.time = msg.time ∧
      s.pool.voteOf vote.fromAccount vote.signHash = none ∧
      s.pool.addVote D O msg = .ok (afterVote s.pool O vote) ∧
      s' = ⟨afterVote s.pool O vote, s.log ++ [.accepted vote], msg.time⟩) ∨
    (∃ O g, s' = ⟨s.pool.delVotes O g, s.log ++ [.deleted g], call.time⟩) := by
  cases call with
  | addVote O msg =>
    dsimp only [step] at h
    split at h
    · rename_i vote pool hvote hadd
      cases h
      obtain ⟨vote', hvote', hnew, rfl⟩ := addVote_eq_ok s.pool hadd
      rw [hvote, Except.ok.injEq] at hvote'
      subst hvote'
      have htime : vote.time = msg.time := by
        obtain ⟨a, validate, -, -, rfl⟩ := checkVote_eq_ok hvote
        rfl
      have hnone : s.pool.voteOf vote.fromAccount vote.signHash = none := by
        rw [← lookup_accountVotes]
        exact lookup_eq_none.mpr hnew
      exact .inr (.inl ⟨O, msg, vote, rfl, hvote, htime, hnone, hadd, rfl⟩)
    · cases h
      exact .inl rfl
  | delVotes O g time =>
    cases h
    exact .inr (.inr ⟨O, g, rfl⟩)

/-- The reasons to drop `v` that the records after it could give, and do not. -/
structure Due (v : VoteInfo Hash) (after : List (VoteRecord Hash)) : Prop where
  inTime : ∀ w, .accepted w ∈ after → w.time-v.time ≤ votePoolTimeout
  undeleted : .deleted v.signHash ∉ after
  few : (otherHashes v after).card < votePoolCountLimit

theorem otherHashes_subset (v : VoteInfo Hash) (after : List (VoteRecord Hash))
    (r : VoteRecord Hash) : otherHashes v after ⊆ otherHashes v (after ++ [r]) := by
  intro k hk
  unfold otherHashes at hk ⊢
  rw [List.filterMap_append, List.toFinset_append]
  exact mem_union_left _ hk

theorem mem_otherHashes (hfrom : vote.fromAccount = v.fromAccount) (hne : vote.signHash ≠ v.signHash)
    (after : List (VoteRecord Hash)) : vote.signHash ∈ otherHashes v (after ++ [.accepted vote]) := by
  unfold otherHashes
  rw [List.mem_toFinset, List.mem_filterMap]
  exact ⟨.accepted vote, by simp, if_pos ⟨hfrom, hne⟩⟩

variable {r : VoteRecord Hash}

theorem Due.of_concat (hdue : Due v (after ++ [r])) : Due v after := by
  constructor
  · intro w hw
    exact hdue.inTime w (List.mem_append_left _ hw)
  · intro hdel
    exact hdue.undeleted (List.mem_append_left _ hdel)
  · exact (card_le_card (otherHashes_subset v after r)).trans_lt hdue.few

omit [DecidableEq Hash] in
theorem concat_eq_append_cons {log : List (VoteRecord Hash)}
    (h : log ++ [r] = before ++ .accepted v :: after) :
    (after = [] ∧ r = .accepted v) ∨ ∃ after', after = after' ++ [r] ∧
      log = before ++ .accepted v :: after' := by
  rcases List.eq_nil_or_concat after with rfl | ⟨after', last, rfl⟩
  · obtain ⟨-, hlast⟩ := List.append_inj' h rfl
    exact .inl ⟨rfl, List.singleton_inj.mp hlast⟩
  · rw [List.concat_eq_append, ← List.cons_append, ← List.append_assoc] at h
    obtain ⟨hlog, hlast⟩ := List.append_inj' h rfl
    refine .inr ⟨after', ?_, hlog⟩
    rw [List.concat_eq_append, List.singleton_inj.mp hlast]

/-- What holds after calls that come in the order of time and are not disturbed. -/
structure Sound (D : DposEngine Hash) (s : VoteHistory Hash) : Prop where
  genuine : Genuine D s.pool
  timeout : s.pool.timeoutInterval = votePoolTimeout
  limit : s.pool.accountVoteCountLimit = votePoolCountLimit
  past : ∀ a k w, s.pool.voteOf a k = some w → w.time ≤ s.clock
  dated : ∀ w, .accepted w ∈ s.log → w.time ≤ s.clock
  tracked : ∀ before v after, s.log = before ++ .accepted v :: after → Due v after →
    Tracked s.pool v (otherHashes v after)

theorem sound_start (D : DposEngine Hash) (clock : ℤ) : Sound D (start Hash clock) := by
  refine ⟨genuine_newVotePool D, rfl, rfl, ?_, ?_, ?_⟩
  · intro a k w hw
    change ((∅ : VoteMap Hash).lookup a).bind _ = some w at hw
    cases hw
  · intro w hw
    exact absurd hw List.not_mem_nil
  · intro before v after hlog
    exact absurd (congrArg List.length hlog) (by simp [start])

/-- The first pruning may have dropped votes, but only ones that were there. -/
theorem oneOldest_fixPoolByTimeout (hs : Sound D s) {curTime : ℤ}
    (hold : s.pool.OldestIfFull vote)
    {own : GoMap Hash (VoteInfo Hash)}
    (hown : ((s.pool.insertVote vote).fixPoolByTimeout curTime).voteMap.lookup vote.fromAccount =
      some own) (hlen : votePoolCountLimit < own.len) :
    own.len = votePoolCountLimit+1 ∧ OneOldest own := by
  obtain ⟨own', hown', hsub⟩ :=
    (s.pool.insertVote vote).fixPoolByTimeout_shrinks curTime vote.fromAccount own hown
  obtain ⟨own'', hown'', hle⟩ :=
    ((s.pool.insertVote vote).fixPoolByTimeout_shrinks curTime).len_le hown
  have hins : (s.pool.insertVote vote).voteMap.lookup vote.fromAccount =
      some ((s.pool.accountVotes vote.fromAccount).insert vote.signHash vote) :=
    lookup_insert _
  rw [hins, some.injEq] at hown' hown''
  subst hown' hown''
  have hbound := len_insert_le (s.pool.accountVotes vote.fromAccount) vote.signHash vote
  have hbefore : (s.pool.accountVotes vote.fromAccount).len ≤ votePoolCountLimit := by
    unfold accountVotes
    rcases hacc : s.pool.voteMap.lookup vote.fromAccount with _ | votes
    · exact Nat.zero_le _
    · rw [← hs.limit]
      exact hs.genuine.limited _ votes hacc
  exact ⟨by omega, (hold (by omega)).of_sub hsub (by omega)⟩

variable {time : ℤ}

theorem Sound.past_insertVote (hs : Sound D s) (hclock : s.clock ≤ time) (htime : vote.time = time)
    {a : Address} {k : Hash} {w : VoteInfo Hash} (hw : (s.pool.insertVote vote).voteOf a k = some w) :
    w.time ≤ time := by
  rw [voteOf_insertVote] at hw
  split_ifs at hw
  · cases hw
    exact htime.le
  · exact (hs.past a k w hw).trans hclock

variable {O : VoteOrders Hash} {msg : VoteMsg Hash}

theorem Sound.tracked_afterVote (hs : Sound D s) (hvote : checkVote D msg = .ok vote)
    (hold : s.pool.OldestIfFull vote)
    {later : Finset Hash} (ht : Tracked (s.pool.insertVote vote) v later)
    (hage : vote.time-v.time ≤ votePoolTimeout) (hfew : later.card < votePoolCountLimit) :
    Tracked (VoteHistory.afterVote s.pool O vote) v later := by
  have hfiled := (hs.genuine.filed.insertVote s.pool hvote).of_shrinks
    (fixPoolByTimeout_shrinks _ vote.time)
  apply Tracked.fixPoolByCountLimit (ht.fixPoolByTimeout (hage.trans_eq hs.timeout.symm)) hfiled
  · intro own hown hlen
    have hlim : ((s.pool.insertVote vote).fixPoolByTimeout vote.time).accountVoteCountLimit =
      votePoolCountLimit := hs.limit
    rw [hlim] at hlen ⊢
    exact oneOldest_fixPoolByTimeout hs hold hown hlen
  · exact hfew.trans_eq hs.limit.symm

theorem Sound.tracked_new (hs : Sound D s) (hclock : s.clock ≤ time) (htime : vote.time = time)
    (hindex : ∀ w ∈ s.pool.timeIndex, ¬ isVoteOf vote.fromAccount vote.signHash w = true)
    (later : Finset Hash) : Tracked (s.pool.insertVote vote) vote later := by
  constructor
  · rw [voteOf_insertVote, if_pos (isVoteOf_iff.mpr ⟨rfl, rfl⟩)]
  · intro w hw hof
    rcases List.mem_append.mp hw with hw | hw
    · exact absurd hof (hindex w hw)
    · exact List.mem_singleton.mp hw
  · intro k w hw hlt
    have hle := hs.past_insertVote hclock htime hw
    omega

/-- The new vote is not one for `v`'s own hash: the pool would have refused it. -/
theorem tracked_insertVote {vp : VotePool Hash} (ht : Tracked vp v (otherHashes v after))
    (hnone : vp.voteOf vote.fromAccount vote.signHash = none) :
    Tracked (vp.insertVote vote) v (otherHashes v (after ++ [.accepted vote])) := by
  have hother : ¬ isVoteOf v.fromAccount v.signHash vote = true := by
    intro hof
    obtain ⟨hfrom, hhash⟩ := isVoteOf_iff.mp hof
    rw [hfrom, hhash, ht.there] at hnone
    cases hnone
  constructor
  · rw [voteOf_insertVote, if_neg hother]
    exact ht.there
  · intro w hw hof
    rcases List.mem_append.mp hw with hw | hw
    · exact ht.alone w hw hof
    · rw [List.mem_singleton.mp hw] at hof
      exact absurd hof hother
  · intro k w hw hlt
    rw [voteOf_insertVote] at hw
    split_ifs at hw with hof
    · obtain ⟨hfrom, rfl⟩ := isVoteOf_iff.mp hof
      apply mem_otherHashes hfrom
      intro hhash
      exact hother (isVoteOf_iff.mpr ⟨hfrom, hhash⟩)
    · exact otherHashes_subset v after _ (ht.newer k w hw hlt)

/-- The record is that of the new vote, or of one that was tracked before. -/
theorem Sound.afterVote (hs : Sound D s) (hclock : s.clock ≤ msg.time)
    (hclean : Undisturbed D s (.addVote O msg)) (hvote : checkVote D msg = .ok vote)
    (htime : vote.time = msg.time) (hnone : s.pool.voteOf vote.fromAccount vote.signHash = none)
    (hadd : s.pool.addVote D O msg = .ok (VoteHistory.afterVote s.pool O vote)) :
    Sound D ⟨VoteHistory.afterVote s.pool O vote, s.log ++ [.accepted vote], msg.time⟩ := by
  obtain ⟨hindex, hold⟩ := hclean vote hvote hnone
  have hshrinks : Shrinks (VoteHistory.afterVote s.pool O vote).voteMap
      (s.pool.insertVote vote).voteMap :=
    (fixPoolByCountLimit_shrinks _ O vote.fromAccount).trans (fixPoolByTimeout_shrinks _ vote.time)
  have hlimit : (VoteHistory.afterVote s.pool O vote).accountVoteCountLimit =
      s.pool.accountVoteCountLimit :=
    accountVoteCountLimit_fixPoolByCountLimit _ O _
  have hinterval : (VoteHistory.afterVote s.pool O vote).timeoutInterval =
      s.pool.timeoutInterval := by
    unfold VoteHistory.afterVote VotePool.fixPoolByCountLimit
    split <;> rfl
  have hgenuine := hs.genuine.deliver s.pool O msg
  rw [deliver, hadd] at hgenuine
  refine ⟨hgenuine, hinterval.trans hs.timeout, hlimit.trans hs.limit, ?_, ?_, ?_⟩
  · intro a k w hw
    exact hs.past_insertVote hclock htime (hshrinks.voteIn hw)
  · intro w hw
    rcases List.mem_append.mp hw with hw | hw
    · exact (hs.dated w hw).trans hclock
    · cases List.mem_singleton.mp hw
      exact htime.le
  · intro before v after hlog hdue
    rcases concat_eq_append_cons hlog with ⟨rfl, hv⟩ | ⟨after', rfl, hlog'⟩
    · cases hv
      exact hs.tracked_afterVote hvote hold (hs.tracked_new hclock htime hindex _)
        (by rw [sub_self]; decide) hdue.few
    · have ht := hs.tracked before v after' hlog' hdue.of_concat
      exact hs.tracked_afterVote hvote hold (tracked_insertVote ht hnone)
        (hdue.inTime vote (by simp)) hdue.few

theorem Sound.delVotes [Zero Hash] (hs : Sound D s) (O : VoteOrders Hash) (g : Hash)
    (hclock : s.clock ≤ time) : Sound D ⟨s.pool.delVotes O g, s.log ++ [.deleted g], time⟩ := by
  have hshrinks := s.pool.delVotes_shrinks O g
  obtain ⟨-, htimeout, hlimit⟩ := s.pool.delVotes_frame O g
  refine ⟨hs.genuine.delVotes s.pool O g, htimeout.trans hs.timeout, hlimit.trans hs.limit,
    ?_, ?_, ?_⟩
  · intro a k w hw
    exact (hs.past a k w (hshrinks.voteIn hw)).trans hclock
  · intro w hw
    rcases List.mem_append.mp hw with hw | hw
    · exact (hs.dated w hw).trans hclock
    · cases List.mem_singleton.mp hw
  · intro before v after hlog hdue
    rcases concat_eq_append_cons hlog with ⟨-, hv⟩ | ⟨after', rfl, hlog'⟩
    · cases hv
    · have ht := hs.tracked before v after' hlog' hdue.of_concat
      have hg : v.signHash ≠ g := by
        rintro rfl
        exact hdue.undeleted (by simp)
      have ht' := ht.delVotes O hg
      exact ⟨ht'.there, ht'.alone, fun k w hw hlt =>
        otherHashes_subset v after' _ (ht'.newer k w hw hlt)⟩

/-- A vote that is refused only moves the clock. -/
theorem Sound.step [Zero Hash] (hs : Sound D s) (hclock : s.clock ≤ call.time)
    (hclean : Undisturbed D s call) (h : step D s call = .ok s') : Sound D s' := by
  rcases step_cases h with rfl | ⟨O, msg, vote, rfl, hvote, htime, hnone, hadd, rfl⟩ |
    ⟨O, g, rfl⟩
  · exact ⟨hs.genuine, hs.timeout, hs.limit, fun a k w hw => (hs.past a k w hw).trans hclock,
      fun w hw => (hs.dated w hw).trans hclock, hs.tracked⟩
  · exact hs.afterVote hclock hclean hvote htime hnone hadd
  · exact hs.delVotes O g hclock

theorem Sound.retains (hs : Sound D s) {now : ℤ} (hnow : s.clock ≤ now) : Retains s now := by
  intro before v after hlog hage hdel hfew O
  have hdue : Due v after := by
    refine ⟨?_, hdel, hfew⟩
    intro w hw
    have hle : w.time ≤ s.clock := hs.dated w (by rw [hlog]; simp [hw])
    omega
  exact s.pool.mem_getVotes.mpr ⟨v.fromAccount, v, (hs.tracked before v after hlog hdue).there, rfl⟩

theorem limited_of_run [Zero Hash] {clock : ℤ} {calls : List (VoteCall Hash)}
    (hrun : run (step D) (start Hash clock) calls = .ok s) : Limited s := by
  let Inv : VoteHistory Hash → Prop := fun s =>
    Genuine D s.pool ∧ s.pool.accountVoteCountLimit = votePoolCountLimit
  have hstep : ∀ s call s', True → Inv s → step D s call = .ok s' → Inv s' := by
    rintro s call s' - ⟨hg, hlimit⟩ h
    rcases step_cases h with rfl | ⟨O, msg, vote, rfl, -, -, -, hadd, rfl⟩ | ⟨O, g, rfl⟩
    · exact ⟨hg, hlimit⟩
    · have hg' := hg.deliver s.pool O msg
      rw [deliver, hadd] at hg'
      exact ⟨hg', (accountVoteCountLimit_fixPoolByCountLimit _ O _).trans hlimit⟩
    · exact ⟨hg.delVotes s.pool O g, (s.pool.delVotes_frame O g).2.2.trans hlimit⟩
  have hinv : Inv s := run_preserves hstep (fun _ _ => trivial) ⟨genuine_newVotePool D, rfl⟩ hrun
  intro a own hown
  rw [← hinv.2]
  exact hinv.1.limited a own hown

/-- The pool stays within its limit, and after undisturbed calls in the order of time it has every
vote that it should have. -/
theorem votes_retained [Zero Hash] (D : DposEngine Hash) (clock : ℤ) (calls : List (VoteCall Hash))
    (s : VoteHistory Hash) (hrun : run (step D) (start Hash clock) calls = .ok s) :
    Limited s ∧
    (EachBefore (step D) (fun s call => s.clock ≤ call.time) (start Hash clock) calls →
      EachBefore (step D) (Undisturbed D) (start Hash clock) calls →
      ∀ now, s.clock ≤ now → Retains s now) := by
  refine ⟨limited_of_run hrun, ?_⟩
  intro hclock hclean now hnow
  have hsound : Sound D s :=
    run_preserves_of_eachBefore (fun s call s' hs hcall h => hs.step hcall.1 hcall.2 h)
      (sound_start D clock) (hclock.and hclean) hrun
  exact hsound.retains hnow

def sampleOrders : VoteOrders ℕ where
  accounts := accountOrder
  votes := .byKey id Function.injective_id

def voteAt (a : Address) (h : ℕ) (time : ℤ) : VoteCall ℕ :=
  .addVote sampleOrders ⟨h, a.setWidth 520, a, true, time⟩

def readded : List (VoteCall ℕ) :=
  [voteAt 1 7 0, .delVotes sampleOrders 7 0, voteAt 1 7 50000, voteAt 2 8 56000]

/-- Six votes of one account, each a second after the one before; the first is deleted and made again
when its first entry in the time index is gone. -/
def spaced : List (VoteCall ℕ) :=
  [voteAt 1 7 0, .delVotes sampleOrders 7 500, voteAt 1 1 1000, voteAt 1 2 2000, voteAt 1 3 3000,
    voteAt 1 4 4000, voteAt 1 5 5000, voteAt 1 6 6000, voteAt 2 8 56000, voteAt 1 7 56500]

/-- The run is undisturbed: when the sixth vote comes the first of the five is the oldest, and when `7`
is voted for again the time index has no entry for it any more. -/
theorem votes_retained_spaced : ∃ s, run (step opinionEngine) (start ℕ 0) spaced = .ok s ∧
    Limited s ∧ Retains s 57000 := by
  refine ⟨_, rfl, ?_⟩
  obtain ⟨hlimited, hretains⟩ := votes_retained opinionEngine 0 spaced _ rfl
  exact ⟨hlimited, hretains (by decide +kernel) (by decide +kernel) 57000 (by decide +kernel)⟩

def crowded : List (VoteCall ℕ) :=
  [voteAt 1 6 0, voteAt 1 5 0, voteAt 1 4 0, voteAt 1 3 0, voteAt 1 2 0, voteAt 1 1 0]

/-- A vote that was made again is deleted at an age of six seconds, and of votes with one time the
one that has just come can be dropped. -/
theorem accepted_votes_lost :
    (∃ s, run (step opinionEngine) (start ℕ 0) readded = .ok s ∧
      EachBefore (step opinionEngine) (fun s call => s.clock ≤ call.time) (start ℕ 0) readded ∧
      s.clock = 56000 ∧ ¬ Retains s 56000) ∧
    (∃ s, run (step opinionEngine) (start ℕ 0) crowded = .ok s ∧
      EachBefore (step opinionEngine) (fun s call => s.clock ≤ call.time) (start ℕ 0) crowded ∧
      s.clock = 0 ∧ ¬ Retains s 0) := by
  constructor
  · refine ⟨_, rfl, ?_, rfl, ?_⟩
    · decide +kernel
    · intro hretains
      have hin := hretains [.accepted ⟨0, ⟨1, 1, true, 0⟩, 1, 7⟩, .deleted 7]
        ⟨50000, ⟨1, 1, true, 0⟩, 1, 7⟩ [.accepted ⟨56000, ⟨2, 2, true, 0⟩, 2, 8⟩]
        (by decide +kernel) (by decide) (by simp) (by decide) sampleOrders
      revert hin
      decide +kernel
  · refine ⟨_, rfl, ?_, rfl, ?_⟩
    · decide +kernel
    · intro hretains
      have hin := hretains ([6,5,4,3,2].map fun h => .accepted ⟨0, ⟨1, 1, true, 0⟩, 1, h⟩)
        ⟨0, ⟨1, 1, true, 0⟩, 1, 1⟩ [] (by decide +kernel) (by decide) (by simp) (by decide)
        sampleOrders
      revert hin
      decide +kernel

end VoteHistory

end MatrixNode
