import MatrixNode.DposQuorum

/-! `blkconsensus/votepool/vote_pool.go`: the votes of a validator wait in a pool until there are
enough of them. The pool keeps one vote of an account for a hash, the first that arrives, while
the engine counts an account as agreeing as soon as one of its signatures agrees. -/
namespace MatrixNode
open GoLib GoMap DposEngine Finmap List

structure VoteInfo (Hash : Type) where
  time : ℤ
  sign : VerifiedSign
  fromAccount : Address
  signHash : Hash
deriving DecidableEq

structure VoteMsg (Hash : Type) where
  signHash : Hash
  sign : Signature
  fromAccount : Address
  verifyFrom : Bool
  time : ℤ

abbrev VoteMap (Hash : Type) := GoMap Address (GoMap Hash (VoteInfo Hash))

structure VotePool (Hash : Type) where
  voteMap : VoteMap Hash
  timeIndex : List (VoteInfo Hash)
  timeoutInterval : ℤ
  accountVoteCountLimit : ℕ

structure VoteOrders (Hash : Type) [DecidableEq Hash] where
  accounts : Ranger Address (GoMap Hash (VoteInfo Hash))
  votes : Ranger Hash (VoteInfo Hash)

noncomputable instance {Hash : Type} [DecidableEq Hash] : Inhabited (VoteOrders Hash) :=
  ⟨default, default⟩

def votePoolTimeout : ℤ := 55*1000

def errVoteExist : GoError := .error "Vote is already exist"

namespace VotePool
variable {Hash : Type}

def newVotePool (Hash : Type) : VotePool Hash where
  voteMap := ∅
  timeIndex := []
  timeoutInterval := votePoolTimeout
  accountVoteCountLimit := votePoolCountLimit

/-- The signature checks of `AddVote`. The vote is filed under the account that signed it. -/
def checkVote (D : DposEngine Hash) (msg : VoteMsg Hash) : Except GoError (VoteInfo Hash) :=
  match D.recover msg.signHash msg.sign with
  | none => throw (.error "signature recovery failed")
  | some (signAccount,validate) =>
    if msg.verifyFrom = true ∧ signAccount ≠ msg.fromAccount then
      throw (.error "vote sign account != from account")
    else
      pure ⟨msg.time, ⟨msg.sign, signAccount, validate, 0⟩, signAccount, msg.signHash⟩

variable [DecidableEq Hash] (vp : VotePool Hash)

def accountVotes (a : Address) : GoMap Hash (VoteInfo Hash) := (vp.voteMap.lookup a).getD ∅

def insertVote (vote : VoteInfo Hash) : VotePool Hash :=
  { vp with
    voteMap := vp.voteMap.insert vote.fromAccount
      ((vp.accountVotes vote.fromAccount).insert vote.signHash vote)
    timeIndex := vp.timeIndex ++ [vote] }

def addVoteToMap (vote : VoteInfo Hash) : Except GoError (VotePool Hash) :=
  if vote.signHash ∈ vp.accountVotes vote.fromAccount then throw errVoteExist
  else pure (vp.insertVote vote)

/-- An account without votes leaves the map. -/
def deleteVote (voteMap : VoteMap Hash) (vote : VoteInfo Hash) : VoteMap Hash :=
  match voteMap.lookup vote.fromAccount with
  | none => voteMap
  | some accountVoteMap =>
    let left : GoMap Hash (VoteInfo Hash) := accountVoteMap.erase vote.signHash
    if accountVoteMap.len = left.len then voteMap
    else if left.len = 0 then voteMap.erase vote.fromAccount
    else voteMap.insert vote.fromAccount left

/-- The loop of `fixPoolByTimeout`, which stops at the first vote that is still in time. -/
def dropTimedOut (deadLine : ℤ) (voteMap : VoteMap Hash) :
    List (VoteInfo Hash) → VoteMap Hash × List (VoteInfo Hash)
  | [] => (voteMap, [])
  | vote :: rest =>
    if deadLine ≤ vote.time then (voteMap, vote :: rest)
    else dropTimedOut deadLine (deleteVote voteMap vote) rest

def fixPoolByTimeout (curTime : ℤ) : VotePool Hash :=
  let (voteMap, timeIndex) := dropTimedOut (curTime-vp.timeoutInterval) vp.voteMap vp.timeIndex
  { vp with voteMap := voteMap, timeIndex := timeIndex }

def earlier : Option (VoteInfo Hash) → VoteInfo Hash → VoteInfo Hash
  | none, value => value
  | some found, value => if value.time < found.time then value else found

def earliest (order : List (Hash × VoteInfo Hash)) : Option (VoteInfo Hash) :=
  order.foldl (fun found e => some (earlier found e.2)) none

/-- One turn of the loop of `fixPoolByCountLimit`. -/
def dropEarliest (O : VoteOrders Hash) (limit : ℕ) (accountVoteMap : GoMap Hash (VoteInfo Hash)) :
    GoMap Hash (VoteInfo Hash) :=
  if accountVoteMap.len ≤ limit then accountVoteMap
  else
    match earliest (O.votes.order accountVoteMap) with
    | none => accountVoteMap
    | some vote => accountVoteMap.erase vote.signHash

/-- The loop ends after as many turns as the account has votes. -/
def fixPoolByCountLimit (O : VoteOrders Hash) (fromAccount : Address) : VotePool Hash :=
  match vp.voteMap.lookup fromAccount with
  | none => vp
  | some accountVoteMap =>
    { vp with
      voteMap := vp.voteMap.insert fromAccount
        ((dropEarliest O vp.accountVoteCountLimit)^[accountVoteMap.len] accountVoteMap) }

def addVote (D : DposEngine Hash) (O : VoteOrders Hash) (msg : VoteMsg Hash) :
    Except GoError (VotePool Hash) := do
  let vote ← checkVote D msg
  let vp ← vp.addVoteToMap vote
  pure ((vp.fixPoolByTimeout vote.time).fixPoolByCountLimit O vote.fromAccount)

def getVotes (O : VoteOrders Hash) (signHash : Hash) : List VerifiedSign :=
  (O.accounts.order vp.voteMap).flatMap (fun account =>
    (O.votes.order account.2).filterMap (fun e => if signHash = e.1 then some e.2.sign else none))

def deliver (D : DposEngine Hash) (O : VoteOrders Hash) (msg : VoteMsg Hash) : VotePool Hash :=
  match vp.addVote D O msg with
  | .ok vp' => vp'
  | .error _ => vp

def deliverAll (D : DposEngine Hash) (O : VoteOrders Hash) (msgs : List (VoteMsg Hash)) :
    VotePool Hash :=
  msgs.foldl (fun vp msg => vp.deliver D O msg) vp

section CountLimit
variable {O : VoteOrders Hash} {accountVoteMap : GoMap Hash (VoteInfo Hash)} {limit : ℕ}

omit [DecidableEq Hash] in
theorem earliest_mem (order : List (Hash × VoteInfo Hash)) (hne : order ≠ []) :
    ∃ e ∈ order, earliest order = some e.2 := by
  induction order using reverseRecOn with
  | nil => exact absurd rfl hne
  | append_singleton order last ih =>
    have hstep : earliest (order ++ [last]) = some (earlier (earliest order) last.2) :=
      foldl_concat ..
    have hlast : last ∈ order ++ [last] := mem_append_right _ mem_cons_self
    rw [hstep]
    by_cases horder : order = []
    · subst horder
      exact ⟨last, hlast, rfl⟩
    · obtain ⟨e, he, hfound⟩ := ih horder
      rw [hfound, earlier]
      split_ifs
      · exact ⟨last, hlast, rfl⟩
      · exact ⟨e, mem_append_left _ he, rfl⟩

theorem len_dropEarliest (hfiled : ∀ h v, accountVoteMap.lookup h = some v → v.signHash = h)
    (hlen : limit < accountVoteMap.len) :
    (dropEarliest O limit accountVoteMap).len+1 = accountVoteMap.len := by
  have hrange := O.votes.isRange accountVoteMap
  have hne : O.votes.order accountVoteMap ≠ [] := by
    intro hnil
    have hzero := hrange.length_eq
    rw [hnil] at hzero
    exact absurd (hzero ▸ hlen) (Nat.not_lt_zero _)
  obtain ⟨⟨h, v⟩, he, hfound⟩ := earliest_mem _ hne
  have hlook := (hrange.mem_iff h v).mp he
  unfold dropEarliest
  rw [if_neg (Nat.not_le.mpr hlen), hfound]
  have hin : v.signHash ∈ accountVoteMap.keys := by
    rw [hfiled h v hlook]
    exact mem_keys.mpr (mem_of_lookup_eq_some hlook)
  unfold len
  rw [keys_erase]
  exact Finset.card_erase_add_one hin

theorem lookup_dropEarliest {h : Hash} {v : VoteInfo Hash}
    (hv : (dropEarliest O limit accountVoteMap).lookup h = some v) :
    accountVoteMap.lookup h = some v := by
  unfold dropEarliest at hv
  split_ifs at hv
  · exact hv
  · split at hv
    · exact hv
    · exact lookup_of_lookup_erase hv

theorem len_iterate_dropEarliest (turns : ℕ)
    (hfiled : ∀ h v, accountVoteMap.lookup h = some v → v.signHash = h)
    (hturns : accountVoteMap.len ≤ turns+limit) :
    ((dropEarliest O limit)^[turns] accountVoteMap).len ≤ limit := by
  induction turns generalizing accountVoteMap with
  | zero => simpa using hturns
  | succ turns ih =>
    apply ih
    · intro h v hv
      exact hfiled h v (lookup_dropEarliest hv)
    · by_cases hlen : accountVoteMap.len ≤ limit
      · rw [dropEarliest, if_pos hlen]
        omega
      · have hless := len_dropEarliest (O := O) hfiled (Nat.lt_of_not_le hlen)
        omega

theorem iterate_dropEarliest_of_le (turns : ℕ) (hlen : accountVoteMap.len ≤ limit) :
    (dropEarliest O limit)^[turns] accountVoteMap = accountVoteMap := by
  apply Function.iterate_fixed
  rw [dropEarliest, if_pos hlen]

end CountLimit

section Invariant
variable {voteMap voteMap' voteMap'' : VoteMap Hash}

def Shrinks (voteMap' voteMap : VoteMap Hash) : Prop :=
  ∀ a votes', voteMap'.lookup a = some votes' →
    ∃ votes, voteMap.lookup a = some votes ∧
      ∀ h v, votes'.lookup h = some v → votes.lookup h = some v

theorem Shrinks.refl (voteMap : VoteMap Hash) : Shrinks voteMap voteMap :=
  fun _ votes h => ⟨votes, h, fun _ _ hv => hv⟩

theorem Shrinks.trans (h : Shrinks voteMap'' voteMap') (h' : Shrinks voteMap' voteMap) :
    Shrinks voteMap'' voteMap := by
  intro a votes'' hvotes''
  obtain ⟨votes', hvotes', hsub⟩ := h a votes'' hvotes''
  obtain ⟨votes, hvotes, hsub'⟩ := h' a votes' hvotes'
  exact ⟨votes, hvotes, fun k v hv => hsub' k v (hsub k v hv)⟩

theorem shrinks_erase (voteMap : VoteMap Hash) (a : Address) :
    Shrinks (voteMap.erase a) voteMap := by
  intro b votes hvotes
  exact ⟨votes, lookup_of_lookup_erase hvotes, fun _ _ hv => hv⟩

variable {a : Address}

theorem shrinks_insert {votes votes' : GoMap Hash (VoteInfo Hash)}
    (hvotes : voteMap.lookup a = some votes)
    (hsub : ∀ h v, votes'.lookup h = some v → votes.lookup h = some v) :
    Shrinks (voteMap.insert a votes') voteMap := by
  intro b found hfound
  rcases lookup_insert_cases hfound with ⟨rfl, rfl⟩ | ⟨-, hfound⟩
  · exact ⟨votes, hvotes, hsub⟩
  · exact ⟨found, hfound, fun _ _ hv => hv⟩

theorem deleteVote_shrinks (voteMap : VoteMap Hash)
    (vote : VoteInfo Hash) : Shrinks (deleteVote voteMap vote) voteMap := by
  unfold deleteVote
  split
  · exact .refl voteMap
  · rename_i votes hvotes
    dsimp only
    split_ifs
    · exact .refl voteMap
    · exact shrinks_erase voteMap vote.fromAccount
    · apply shrinks_insert hvotes
      intro h v hv
      exact lookup_of_lookup_erase hv

theorem dropTimedOut_shrinks (deadLine : ℤ) (timeIndex : List (VoteInfo Hash))
    (voteMap : VoteMap Hash) : Shrinks (dropTimedOut deadLine voteMap timeIndex).1 voteMap := by
  induction timeIndex generalizing voteMap with
  | nil => exact .refl voteMap
  | cons vote rest ih =>
    unfold dropTimedOut
    split_ifs
    · exact .refl voteMap
    · exact (ih _).trans (deleteVote_shrinks voteMap vote)

theorem Shrinks.len_le (h : Shrinks voteMap' voteMap) {votes' : GoMap Hash (VoteInfo Hash)}
    (hvotes' : voteMap'.lookup a = some votes') :
    ∃ votes, voteMap.lookup a = some votes ∧ votes'.len ≤ votes.len := by
  obtain ⟨votes, hvotes, hsub⟩ := h a votes' hvotes'
  refine ⟨votes, hvotes, Finset.card_le_card ?_⟩
  intro k hk
  obtain ⟨v, hv⟩ := mem_iff.mp (mem_keys.mp hk)
  exact mem_keys.mpr (mem_of_lookup_eq_some (hsub k v hv))

def FiledUnder (D : DposEngine Hash) (vote : VoteInfo Hash) (a : Address) (h : Hash) : Prop :=
  vote.fromAccount = a ∧ vote.signHash = h ∧ vote.sign.account = a ∧
    D.recover h vote.sign.sign = some (a,vote.sign.validate)

def Filed (D : DposEngine Hash) (voteMap : VoteMap Hash) : Prop :=
  ∀ a votes, voteMap.lookup a = some votes → ∀ h v, votes.lookup h = some v → FiledUnder D v a h

theorem Filed.of_shrinks {D : DposEngine Hash} (h : Filed D voteMap)
    (hs : Shrinks voteMap' voteMap) : Filed D voteMap' := by
  intro a votes' hvotes' k v hv
  obtain ⟨votes, hvotes, hsub⟩ := hs a votes' hvotes'
  exact h a votes hvotes k v (hsub k v hv)

/-- What holds in every pool that votes have been delivered to: the votes are where they belong,
and no account has more of them than it may have. -/
structure Genuine (D : DposEngine Hash) (vp : VotePool Hash) : Prop where
  filed : Filed D vp.voteMap
  limited : ∀ a votes, vp.voteMap.lookup a = some votes → votes.len ≤ vp.accountVoteCountLimit

variable {D : DposEngine Hash} {vote : VoteInfo Hash} {msg : VoteMsg Hash}

omit [DecidableEq Hash] in
theorem checkVote_eq_ok (h : checkVote D msg = .ok vote) :
    ∃ a validate, D.recover msg.signHash msg.sign = some (a,validate) ∧
      (msg.verifyFrom = true → a = msg.fromAccount) ∧
      vote = ⟨msg.time, ⟨msg.sign, a, validate, 0⟩, a, msg.signHash⟩ := by
  unfold checkVote at h
  split at h
  · cases h
  · rename_i a validate hrec
    rw [throw_eq_error, ite_error_eq_ok, pure_eq_ok, Except.ok.injEq] at h
    refine ⟨a, validate, hrec, ?_, h.2.symm⟩
    intro hfrom
    by_contra hne
    exact h.1 ⟨hfrom, hne⟩

theorem addVote_eq_ok {O : VoteOrders Hash} {vp' : VotePool Hash}
    (h : vp.addVote D O msg = .ok vp') :
    ∃ vote, checkVote D msg = .ok vote ∧ vote.signHash ∉ vp.accountVotes vote.fromAccount ∧
      vp' = ((vp.insertVote vote).fixPoolByTimeout vote.time).fixPoolByCountLimit O
        vote.fromAccount := by
  obtain ⟨vote, hvote, h⟩ := bind_eq_ok_iff.mp h
  obtain ⟨added, hadded, h⟩ := bind_eq_ok_iff.mp h
  unfold addVoteToMap at hadded
  rw [throw_eq_error, ite_error_eq_ok, pure_eq_ok, Except.ok.injEq] at hadded
  obtain ⟨hnew, rfl⟩ := hadded
  rw [pure_eq_ok, Except.ok.injEq] at h
  exact ⟨vote, hvote, hnew, h.symm⟩

theorem Filed.insertVote (h : Filed D vp.voteMap) (hvote : checkVote D msg = .ok vote) :
    Filed D (vp.insertVote vote).voteMap := by
  obtain ⟨a, validate, hrec, -, rfl⟩ := checkVote_eq_ok hvote
  intro b votes hvotes k v hv
  rcases lookup_insert_cases hvotes with ⟨rfl, rfl⟩ | ⟨-, hvotes⟩
  · rcases lookup_insert_cases hv with ⟨rfl, rfl⟩ | ⟨-, hv⟩
    · exact ⟨rfl, rfl, rfl, hrec⟩
    · rw [accountVotes] at hv
      rcases hold : vp.voteMap.lookup b with _ | old
      · rw [hold, Option.getD_none, lookup_empty] at hv
        cases hv
      · rw [hold] at hv
        exact h b old hold k v hv
  · exact h b votes hvotes k v hv

theorem fixPoolByTimeout_shrinks (curTime : ℤ) :
    Shrinks (vp.fixPoolByTimeout curTime).voteMap vp.voteMap :=
  dropTimedOut_shrinks (curTime-vp.timeoutInterval) vp.timeIndex vp.voteMap

theorem fixPoolByCountLimit_shrinks (O : VoteOrders Hash) (a : Address) :
    Shrinks (vp.fixPoolByCountLimit O a).voteMap vp.voteMap := by
  unfold fixPoolByCountLimit
  split
  · exact .refl _
  · rename_i votes hvotes
    apply shrinks_insert hvotes
    intro h v
    apply Function.Iterate.rec
      (fun left : GoMap Hash (VoteInfo Hash) => left.lookup h = some v → votes.lookup h = some v)
    · exact id
    · intro left hleft hv
      exact hleft (lookup_dropEarliest hv)

def LimitedBut (vp : VotePool Hash) (a : Address) : Prop :=
  ∀ b votes, b ≠ a → vp.voteMap.lookup b = some votes → votes.len ≤ vp.accountVoteCountLimit

theorem limitedBut_insertVote
    (h : ∀ a votes, vp.voteMap.lookup a = some votes → votes.len ≤ vp.accountVoteCountLimit) :
    LimitedBut (vp.insertVote vote) vote.fromAccount := by
  intro b votes hb hvotes
  dsimp only [insertVote] at hvotes
  rw [lookup_insert_of_ne _ hb] at hvotes
  exact h b votes hvotes

theorem LimitedBut.fixPoolByTimeout (h : LimitedBut vp a) (curTime : ℤ) :
    LimitedBut (vp.fixPoolByTimeout curTime) a := by
  intro b votes hb hvotes
  obtain ⟨before, hbefore, hlen⟩ := (vp.fixPoolByTimeout_shrinks curTime).len_le hvotes
  exact hlen.trans (h b before hb hbefore)

/-- The new vote was itself too old and is gone with its account. -/
theorem LimitedBut.fixPoolByCountLimit (h : LimitedBut vp a) (hfiled : Filed D vp.voteMap)
    (O : VoteOrders Hash) (b : Address) (votes : GoMap Hash (VoteInfo Hash))
    (hvotes : (vp.fixPoolByCountLimit O a).voteMap.lookup b = some votes) :
    votes.len ≤ vp.accountVoteCountLimit := by
  rcases hown : vp.voteMap.lookup a with _ | own
  · have hsame : vp.fixPoolByCountLimit O a = vp := by
      rw [VotePool.fixPoolByCountLimit, hown]
    rw [hsame] at hvotes
    have hb : b ≠ a := by
      rintro rfl
      rw [hown] at hvotes
      cases hvotes
    exact h b votes hb hvotes
  · have hmap : (vp.fixPoolByCountLimit O a).voteMap = vp.voteMap.insert a
        ((dropEarliest O vp.accountVoteCountLimit)^[own.len] own) := by
      rw [VotePool.fixPoolByCountLimit, hown]
    rw [hmap] at hvotes
    rcases lookup_insert_cases hvotes with ⟨-, rfl⟩ | ⟨hb, hvotes⟩
    · apply len_iterate_dropEarliest
      · intro k v hv
        exact (hfiled a own hown k v hv).2.1
      · exact Nat.le_add_right _ _
    · exact h b votes hb hvotes

theorem accountVoteCountLimit_fixPoolByCountLimit (O : VoteOrders Hash) (a : Address) :
    (vp.fixPoolByCountLimit O a).accountVoteCountLimit = vp.accountVoteCountLimit := by
  unfold VotePool.fixPoolByCountLimit
  split <;> rfl

theorem Genuine.deliver (h : Genuine D vp) (O : VoteOrders Hash) (msg : VoteMsg Hash) :
    Genuine D (vp.deliver D O msg) := by
  unfold VotePool.deliver
  split
  · rename_i vp' hadd
    obtain ⟨vote, hvote, -, rfl⟩ := addVote_eq_ok vp hadd
    have hfiled := (h.filed.insertVote vp hvote).of_shrinks (fixPoolByTimeout_shrinks _ vote.time)
    have hlimited : LimitedBut (vp.insertVote vote) vote.fromAccount :=
      limitedBut_insertVote vp h.limited
    constructor
    · exact hfiled.of_shrinks (fixPoolByCountLimit_shrinks _ O _)
    · intro a votes hvotes
      rw [accountVoteCountLimit_fixPoolByCountLimit]
      exact (hlimited.fixPoolByTimeout _ vote.time).fixPoolByCountLimit _ hfiled O a votes hvotes
  · exact h

theorem genuine_newVotePool (D : DposEngine Hash) : Genuine D (newVotePool Hash) := by
  constructor
  · intro a votes hvotes
    cases hvotes
  · intro a votes hvotes
    cases hvotes

theorem Genuine.deliverAll (h : Genuine D vp) (O : VoteOrders Hash) (msgs : List (VoteMsg Hash)) :
    Genuine D (vp.deliverAll D O msgs) := by
  induction msgs generalizing vp with
  | nil => exact h
  | cons msg rest ih => exact ih (vp.deliver D O msg) (h.deliver vp O msg)

end Invariant

section Calm
variable (D : DposEngine Hash)

def voteOf (a : Address) (h : Hash) : Option (VoteInfo Hash) :=
  (vp.voteMap.lookup a).bind (fun votes => votes.lookup h)

omit [DecidableEq Hash] in
def votesOf (msgs : List (VoteMsg Hash)) : List (VoteInfo Hash) :=
  msgs.filterMap (fun msg => (checkVote D msg).toOption)

def isVoteOf (a : Address) (h : Hash) (v : VoteInfo Hash) : Bool :=
  v.fromAccount = a ∧ v.signHash = h

variable {a : Address}

theorem isVoteOf_iff {h : Hash} {v : VoteInfo Hash} :
    isVoteOf a h v = true ↔ v.fromAccount = a ∧ v.signHash = h :=
  decide_eq_true_iff

/-- No vote gets too old, and no account votes for more hashes than the pool keeps. -/
structure Calm (votes : List (VoteInfo Hash)) : Prop where
  inTime : ∀ v ∈ votes, ∀ w ∈ votes, v.time-w.time ≤ votePoolTimeout
  few : ∀ a, ((votes.filter (fun v => v.fromAccount = a)).map VoteInfo.signHash).toFinset.card ≤
    votePoolCountLimit

variable {D} {votes : List (VoteInfo Hash)}

theorem Calm.of_subset {votes' : List (VoteInfo Hash)} (h : Calm votes') (hsub : votes ⊆ votes') :
    Calm votes := by
  constructor
  · intro v hv w hw
    exact h.inTime v (hsub hv) w (hsub hw)
  · intro a
    refine (Finset.card_le_card ?_).trans (h.few a)
    intro k hk
    rw [mem_toFinset, mem_map] at hk ⊢
    obtain ⟨v, hv, hvk⟩ := hk
    obtain ⟨hin, hfrom⟩ := mem_filter.mp hv
    exact ⟨v, mem_filter.mpr ⟨hsub hin, hfrom⟩, hvk⟩

/-- The pool is what votes that all count leave behind: of each account the first for each hash. -/
structure Holds (vp : VotePool Hash) (votes : List (VoteInfo Hash)) : Prop where
  timeout : vp.timeoutInterval = votePoolTimeout
  limit : vp.accountVoteCountLimit = votePoolCountLimit
  indexed : ∀ v ∈ vp.timeIndex, v ∈ votes
  first : ∀ a h, vp.voteOf a h = votes.find? (isVoteOf a h)

theorem fixPoolByTimeout_of_inTime (curTime : ℤ)
    (h : ∀ v ∈ vp.timeIndex, curTime-v.time ≤ vp.timeoutInterval) :
    vp.fixPoolByTimeout curTime = vp := by
  unfold fixPoolByTimeout
  rcases hindex : vp.timeIndex with _ | ⟨v, rest⟩
  · rw [dropTimedOut, ← hindex]
  · have hv := h v (by rw [hindex]; exact mem_cons_self)
    rw [dropTimedOut, if_pos (by omega), ← hindex]

theorem fixPoolByCountLimit_of_le (O : VoteOrders Hash)
    (h : ∀ own, vp.voteMap.lookup a = some own → own.len ≤ vp.accountVoteCountLimit) :
    vp.fixPoolByCountLimit O a = vp := by
  unfold fixPoolByCountLimit
  split
  · rfl
  · rename_i own hown
    rw [iterate_dropEarliest_of_le _ (h own hown), insert_eq_self hown]

theorem Holds.len_le (hp : Holds vp votes) (hcalm : Calm votes) {own : GoMap Hash (VoteInfo Hash)}
    (hown : vp.voteMap.lookup a = some own) : own.len ≤ vp.accountVoteCountLimit := by
  rw [hp.limit]
  refine (Finset.card_le_card ?_).trans (hcalm.few a)
  intro h hh
  obtain ⟨v, hv⟩ := mem_iff.mp (mem_keys.mp hh)
  have hfirst := hp.first a h
  rw [voteOf, hown, Option.bind_some, hv] at hfirst
  have hin := mem_of_find?_eq_some hfirst.symm
  have hof := isVoteOf_iff.mp (find?_some hfirst.symm)
  rw [mem_toFinset, mem_map]
  exact ⟨v, mem_filter.mpr ⟨hin, by simpa using hof.1⟩, hof.2⟩

theorem lookup_accountVotes (a : Address) (h : Hash) :
    (vp.accountVotes a).lookup h = vp.voteOf a h := by
  unfold accountVotes voteOf
  cases vp.voteMap.lookup a with
  | none => exact lookup_empty h
  | some own => rfl

theorem voteOf_insertVote (vote : VoteInfo Hash) (a : Address) (h : Hash) :
    (vp.insertVote vote).voteOf a h =
      if isVoteOf a h vote = true then some vote else vp.voteOf a h := by
  unfold insertVote
  rw [voteOf]
  by_cases ha : a = vote.fromAccount
  · subst ha
    rw [lookup_insert, Option.bind_some]
    by_cases hh : h = vote.signHash
    · subst hh
      rw [lookup_insert, if_pos (isVoteOf_iff.mpr ⟨rfl, rfl⟩)]
    · rw [lookup_insert_of_ne _ hh, lookup_accountVotes,
        if_neg (fun hof => hh (isVoteOf_iff.mp hof).2.symm)]
  · rw [lookup_insert_of_ne _ ha, if_neg (fun hof => ha (isVoteOf_iff.mp hof).1.symm), voteOf]

/-- The earlier vote of the account is found before the new one. -/
theorem Holds.addVoteToMap (hp : Holds vp votes) (vote : VoteInfo Hash) :
    (vp.addVoteToMap vote = .error errVoteExist ∧ Holds vp (votes ++ [vote])) ∨
    (vp.addVoteToMap vote = .ok (vp.insertVote vote) ∧
      Holds (vp.insertVote vote) (votes ++ [vote])) := by
  have hmem := lookup_isSome (s := vp.accountVotes vote.fromAccount) (a := vote.signHash)
  rw [lookup_accountVotes, hp.first] at hmem
  have hindexed : ∀ v ∈ vp.timeIndex, v ∈ votes ++ [vote] := by
    intro v hv
    exact mem_append_left _ (hp.indexed v hv)
  by_cases hexist : vote.signHash ∈ vp.accountVotes vote.fromAccount
  · left
    refine ⟨by rw [VotePool.addVoteToMap, if_pos hexist]; rfl, hp.timeout, hp.limit, hindexed, ?_⟩
    intro a h
    rw [find?_append, find?_singleton, hp.first a h]
    split_ifs with hof
    · obtain ⟨rfl, rfl⟩ := isVoteOf_iff.mp hof
      obtain ⟨earlierVote, hearlier⟩ := Option.isSome_iff_exists.mp (hmem.mpr hexist)
      rw [hearlier]
      rfl
    · rw [Option.or_none]
  · right
    refine ⟨by rw [VotePool.addVoteToMap, if_neg hexist]; rfl, hp.timeout, hp.limit, ?_, ?_⟩
    · intro v hv
      rcases mem_append.mp hv with hv | hv
      · exact hindexed v hv
      · exact mem_append_right _ hv
    · intro a h
      rw [find?_append, find?_singleton, voteOf_insertVote, hp.first a h]
      split_ifs with hof
      · obtain ⟨rfl, rfl⟩ := isVoteOf_iff.mp hof
        have hnone : votes.find? (isVoteOf vote.fromAccount vote.signHash) = none := by
          rw [← Option.not_isSome_iff_eq_none, hmem]
          exact hexist
        rw [hnone]
        rfl
      · rw [Option.or_none]

theorem Holds.deliver (hp : Holds vp votes) (O : VoteOrders Hash) {msg : VoteMsg Hash}
    {vote : VoteInfo Hash} (hvote : checkVote D msg = .ok vote) (hcalm : Calm (votes ++ [vote])) :
    Holds (vp.deliver D O msg) (votes ++ [vote]) := by
  unfold VotePool.deliver addVote
  rw [hvote, ok_bind]
  rcases hp.addVoteToMap vp vote with ⟨hrefused, hkeeps⟩ | ⟨hadded, hkeeps⟩
  · rw [hrefused, error_bind]
    exact hkeeps
  · have htime : (vp.insertVote vote).fixPoolByTimeout vote.time = vp.insertVote vote := by
      apply fixPoolByTimeout_of_inTime
      intro v hv
      have hv' := hkeeps.indexed v hv
      have hage := hcalm.inTime vote (mem_append_right _ mem_cons_self) v hv'
      rw [hkeeps.timeout]
      exact hage
    have hcount : (vp.insertVote vote).fixPoolByCountLimit O vote.fromAccount =
        vp.insertVote vote := by
      apply fixPoolByCountLimit_of_le
      intro own hown
      exact hkeeps.len_le _ hcalm hown
    rw [hadded, ok_bind, htime, hcount]
    exact hkeeps

/-- A vote that fails its checks changes neither the pool nor the list. -/
theorem holds_deliverAll (O : VoteOrders Hash) (msgs : List (VoteMsg Hash))
    (hcalm : Calm (votesOf D msgs)) :
    Holds ((newVotePool Hash).deliverAll D O msgs) (votesOf D msgs) := by
  induction msgs using reverseRecOn with
  | nil =>
    refine ⟨rfl, rfl, fun v hv => hv, ?_⟩
    intro a h
    change ((∅ : VoteMap Hash).lookup a).bind _ = none
    rfl
  | append_singleton msgs msg ih =>
    have hrun : (newVotePool Hash).deliverAll D O (msgs ++ [msg]) =
        ((newVotePool Hash).deliverAll D O msgs).deliver D O msg := foldl_concat ..
    have hvotes : votesOf D (msgs ++ [msg]) = votesOf D msgs ++ votesOf D [msg] := filterMap_append
    rw [hrun, hvotes]
    rw [hvotes] at hcalm
    have hbefore := ih (hcalm.of_subset (subset_append_left _ _))
    rcases hcheck : checkVote D msg with err | vote
    · have hnone : votesOf D [msg] = [] := by
        simp [votesOf, hcheck, Except.toOption]
      rw [hnone, append_nil]
      unfold VotePool.deliver addVote
      rw [hcheck]
      exact hbefore
    · have hone : votesOf D [msg] = [vote] := by
        simp [votesOf, hcheck, Except.toOption]
      rw [hone] at hcalm ⊢
      exact hbefore.deliver _ O hcheck hcalm

end Calm

section Verdict
variable (D : DposEngine Hash) (votes : List (VoteInfo Hash)) (msgs : List (VoteMsg Hash))
  (h : Hash) (stocks : GoMap Address UInt16)

def firstAgrees (a : Address) : Bool := (votes.find? (isVoteOf a h)).any (fun v => v.sign.validate)

def onlyAgrees (a : Address) : Bool :=
  votes.any (isVoteOf a h) && votes.all (fun v => !isVoteOf a h v || v.sign.validate)

/-- The validators of the stock map that have agreed and never disagreed. -/
def steadfast : Finset Address := stocks.keys.filter (fun a => onlyAgrees votes h a = true)

def signsFor : List Signature := (msgs.filter (fun msg => msg.signHash = h)).map VoteMsg.sign

def PoolAccepts (reader : ValidatorReader) (number : ℕ) (O O' : VoteOrders Hash) (Q : DposOrders) :
    Prop :=
  ∃ right, verifyHashWithVerifiedSignsAndNumber reader
    (((newVotePool Hash).deliverAll D O msgs).getVotes O' h) number Q = .ok right

def RawAccepts (reader : ValidatorReader) (number : ℕ) (Q : DposOrders) : Prop :=
  ∃ right, D.verifyHashWithNumber reader h (signsFor msgs h) number Q = .ok right

variable {D votes msgs h stocks}

variable {a : Address}

theorem firstAgrees_iff :
    firstAgrees votes h a = true ↔
      ∃ v, votes.find? (isVoteOf a h) = some v ∧ v.sign.validate = true := by
  unfold firstAgrees
  rw [Option.any_eq_true]

variable {O : VoteOrders Hash}

theorem mem_getVotes {s : VerifiedSign} :
    s ∈ vp.getVotes O h ↔ ∃ a v, vp.voteOf a h = some v ∧ v.sign = s := by
  unfold getVotes
  rw [mem_flatMap]
  constructor
  · rintro ⟨⟨a, own⟩, hown, hs⟩
    obtain ⟨⟨k, v⟩, hv, hs⟩ := mem_filterMap.mp hs
    split_ifs at hs with hk
    · cases hs
      subst hk
      refine ⟨a, v, ?_, rfl⟩
      rw [voteOf, ((O.accounts.isRange _).mem_iff a own).mp hown]
      exact ((O.votes.isRange own).mem_iff h v).mp hv
  · rintro ⟨a, v, hv, rfl⟩
    obtain ⟨own, hown, hv⟩ := Option.bind_eq_some_iff.mp hv
    refine ⟨(a,own), ((O.accounts.isRange _).mem_iff a own).mpr hown, ?_⟩
    exact mem_filterMap.mpr ⟨(h,v), ((O.votes.isRange own).mem_iff h v).mpr hv, if_pos rfl⟩

theorem Filed.voteOf (hf : Filed D vp.voteMap) {v : VoteInfo Hash}
    (hv : vp.voteOf a h = some v) : FiledUnder D v a h := by
  obtain ⟨own, hown, hv⟩ := Option.bind_eq_some_iff.mp hv
  exact hf a own hown h v hv

theorem mem_agreeAccounts_getVotes (hf : Filed D vp.voteMap) :
    a ∈ D.agreeAccounts h ((vp.getVotes O h).map VerifiedSign.sign) stocks ↔
      a ∈ stocks.keys ∧ ∃ v, vp.voteOf a h = some v ∧ v.sign.validate = true := by
  rw [mem_agreeAccounts]
  apply and_congr_right
  intro _
  constructor
  · rintro ⟨sign, hsign, hrec⟩
    obtain ⟨s, hs, rfl⟩ := mem_map.mp hsign
    obtain ⟨b, v, hv, rfl⟩ := (vp.mem_getVotes).mp hs
    obtain ⟨-, -, -, hrec'⟩ := hf.voteOf vp hv
    rw [hrec', Option.some.injEq, Prod.mk.injEq] at hrec
    obtain ⟨rfl, hvalid⟩ := hrec
    exact ⟨v, hv, hvalid⟩
  · rintro ⟨v, hv, hvalid⟩
    obtain ⟨-, -, -, hrec⟩ := hf.voteOf vp hv
    rw [hvalid] at hrec
    exact ⟨v.sign.sign, mem_map.mpr ⟨v.sign, (vp.mem_getVotes).mpr ⟨a, v, hv, rfl⟩, rfl⟩, hrec⟩

variable {reader : ValidatorReader}

/-- What the pool has recorded of a signature is what the engine would recover from it. -/
theorem poolAccepts_iff (hcalm : Calm (votesOf D msgs)) {number : ℕ} {O' : VoteOrders Hash}
    {Q : DposOrders} :
    PoolAccepts D msgs h reader number O O' Q ↔
      ∃ stocks, getValidatorStocks reader number = .ok stocks ∧ 3 ≤ stocks.len ∧
        targetSignCount stocks.len ≤
          (stocks.keys.filter (fun a => firstAgrees (votesOf D msgs) h a = true)).card := by
  have hholds := holds_deliverAll O msgs hcalm
  have hgenuine := (genuine_newVotePool D).deliverAll _ O msgs
  unfold PoolAccepts
  generalize (newVotePool Hash).deliverAll D O msgs = vp at hholds hgenuine ⊢
  have hrec : ∀ s ∈ vp.getVotes O' h, D.recover h s.sign = some (s.account,s.validate) := by
    intro s hs
    obtain ⟨a, v, hv, rfl⟩ := (vp.mem_getVotes).mp hs
    obtain ⟨-, -, haccount, hrec⟩ := hgenuine.filed.voteOf vp hv
    rw [haccount]
    exact hrec
  rw [verifyHashWithVerifiedSignsAndNumber_eq hrec,
    verifyHashWithNumber_isOk_iff, signedByQuorum_iff_card]
  apply exists_congr
  intro stocks
  have hagree : D.agreeAccounts h ((vp.getVotes O' h).map VerifiedSign.sign) stocks =
      stocks.keys.filter (fun a => firstAgrees (votesOf D msgs) h a = true) := by
    ext a
    rw [mem_agreeAccounts_getVotes vp hgenuine.filed, Finset.mem_filter, firstAgrees_iff,
      ← hholds.first a h]
  rw [hagree]

theorem rawAccepts_iff {number : ℕ} {Q : DposOrders} :
    RawAccepts D msgs h reader number Q ↔
      ∃ stocks, getValidatorStocks reader number = .ok stocks ∧ 3 ≤ stocks.len ∧
        targetSignCount stocks.len ≤ (D.agreeAccounts h (signsFor msgs h) stocks).card := by
  unfold RawAccepts
  rw [verifyHashWithNumber_isOk_iff, signedByQuorum_iff_card]

omit [DecidableEq Hash] in
theorem mem_votesOf {v : VoteInfo Hash} :
    v ∈ votesOf D msgs ↔ ∃ msg ∈ msgs, checkVote D msg = .ok v := by
  unfold votesOf
  rw [mem_filterMap]
  apply exists_congr
  intro msg
  apply and_congr_right
  intro _
  cases checkVote D msg with
  | error err => simp [Except.toOption]
  | ok vote => simp [Except.toOption]

omit [DecidableEq Hash] in
theorem votesOf_perm {msgs' : List (VoteMsg Hash)} (hperm : msgs.Perm msgs') :
    (votesOf D msgs).Perm (votesOf D msgs') :=
  hperm.filterMap _

theorem firstAgrees_subset :
    stocks.keys.filter (fun a => firstAgrees (votesOf D msgs) h a = true) ⊆
      D.agreeAccounts h (signsFor msgs h) stocks := by
  intro a ha
  obtain ⟨hk, hfirst⟩ := Finset.mem_filter.mp ha
  obtain ⟨v, hfind, hvalid⟩ := firstAgrees_iff.mp hfirst
  obtain ⟨msg, hmsg, hcheck⟩ := mem_votesOf.mp (mem_of_find?_eq_some hfind)
  obtain ⟨hfrom, hhash⟩ := isVoteOf_iff.mp (find?_some hfind)
  obtain ⟨b, validate, hrec, -, rfl⟩ := checkVote_eq_ok hcheck
  subst hfrom hhash hvalid
  refine (D.mem_agreeAccounts _).mpr ⟨hk, msg.sign, ?_, hrec⟩
  exact mem_map.mpr ⟨msg, mem_filter.mpr ⟨hmsg, by simp⟩, rfl⟩

theorem onlyAgrees_iff :
    onlyAgrees votes h a = true ↔
      (∃ v ∈ votes, isVoteOf a h v = true) ∧
      ∀ v ∈ votes, isVoteOf a h v = true → v.sign.validate = true := by
  unfold onlyAgrees
  rw [Bool.and_eq_true, any_eq_true, all_eq_true]
  apply and_congr_right
  intro _
  apply forall₂_congr
  intro v _
  cases isVoteOf a h v <;> simp

theorem firstAgrees_of_onlyAgrees (honly : onlyAgrees votes h a = true) :
    firstAgrees votes h a = true := by
  obtain ⟨⟨v, hv, hof⟩, hall⟩ := onlyAgrees_iff.mp honly
  obtain ⟨first, hfirst⟩ := Option.isSome_iff_exists.mp (find?_isSome.mpr ⟨v, hv, hof⟩)
  unfold firstAgrees
  rw [hfirst]
  exact hall first (mem_of_find?_eq_some hfirst) (find?_some hfirst)

theorem onlyAgrees_perm {votes' : List (VoteInfo Hash)} (hperm : votes.Perm votes') (a : Address) :
    onlyAgrees votes h a = onlyAgrees votes' h a := by
  rw [Bool.eq_iff_iff, onlyAgrees_iff, onlyAgrees_iff]
  simp only [hperm.mem_iff]

omit [DecidableEq Hash] in
def disagrees (D : DposEngine Hash) (msg : VoteMsg Hash) : Bool :=
  (checkVote D msg).toOption.any (fun v => !v.sign.validate)

/-- When all disagreement arrives first, only accounts that never disagree are counted. -/
theorem onlyAgrees_of_firstAgrees
    (hfirst : firstAgrees (votesOf D (msgs.filter (disagrees D) ++
      msgs.filter (fun msg => !disagrees D msg))) h a = true) :
    onlyAgrees (votesOf D msgs) h a = true := by
  have hsplit : votesOf D (msgs.filter (disagrees D) ++
        msgs.filter (fun msg => !disagrees D msg)) =
      votesOf D (msgs.filter (disagrees D)) ++
        votesOf D (msgs.filter (fun msg => !disagrees D msg)) :=
    filterMap_append
  obtain ⟨first, hfind, hvalid⟩ := firstAgrees_iff.mp hfirst
  rw [hsplit, find?_append] at hfind
  have hearly : ∀ v ∈ votesOf D (msgs.filter (disagrees D)), v.sign.validate = false := by
    intro v hv
    obtain ⟨msg, hmsg, hcheck⟩ := mem_votesOf.mp hv
    have hdis := (mem_filter.mp hmsg).2
    simpa [disagrees, hcheck, Except.toOption] using hdis
  have hnone : (votesOf D (msgs.filter (disagrees D))).find? (isVoteOf a h) = none := by
    by_contra hne
    obtain ⟨early, hfound⟩ := Option.ne_none_iff_exists'.mp hne
    rw [hfound, Option.some_or, Option.some.injEq] at hfind
    have hdis := hearly early (mem_of_find?_eq_some hfound)
    rw [hfind, hvalid] at hdis
    cases hdis
  rw [hnone] at hfind
  refine onlyAgrees_iff.mpr ⟨⟨first, ?_, find?_some hfind⟩, ?_⟩
  · obtain ⟨msg, hmsg, hcheck⟩ := mem_votesOf.mp (mem_of_find?_eq_some hfind)
    exact mem_votesOf.mpr ⟨msg, (mem_filter.mp hmsg).1, hcheck⟩
  · intro v hv hof
    by_contra hdis
    obtain ⟨msg, hmsg, hcheck⟩ := mem_votesOf.mp hv
    have hmem : v ∈ votesOf D (msgs.filter (disagrees D)) := by
      refine mem_votesOf.mpr ⟨msg, mem_filter.mpr ⟨hmsg, ?_⟩, hcheck⟩
      simpa [disagrees, hcheck, Except.toOption] using hdis
    exact absurd hof (find?_eq_none.mp hnone v hmem)

/-- For votes in calm times pool and engine agree exactly when no quorum hinges on validators that
also disagreed or whose agreement was refused. -/
theorem sameVerdict_iff (D : DposEngine Hash) (msgs : List (VoteMsg Hash))
    (hcalm : Calm (votesOf D msgs)) (h : Hash) (reader : ValidatorReader) (number : ℕ) :
    (∀ msgs', msgs.Perm msgs' → ∀ O O' Q Q',
      (PoolAccepts D msgs' h reader number O O' Q ↔ RawAccepts D msgs' h reader number Q')) ↔
    ∀ stocks, getValidatorStocks reader number = .ok stocks → 3 ≤ stocks.len →
      targetSignCount stocks.len ≤ (D.agreeAccounts h (signsFor msgs h) stocks).card →
      targetSignCount stocks.len ≤ (steadfast (votesOf D msgs) h stocks).card := by
  have hcalm' (msgs' : List (VoteMsg Hash)) (hperm : msgs.Perm msgs') : Calm (votesOf D msgs') :=
    hcalm.of_subset (votesOf_perm hperm).symm.subset
  have hraw (msgs' : List (VoteMsg Hash)) (hperm : msgs.Perm msgs')
      (stocks : GoMap Address UInt16) :
      D.agreeAccounts h (signsFor msgs' h) stocks = D.agreeAccounts h (signsFor msgs h) stocks := by
    have hsigns : (signsFor msgs h).Perm (signsFor msgs' h) := (hperm.filter _).map _
    exact Finset.Subset.antisymm (D.agreeAccounts_mono h hsigns.symm.subset)
      (D.agreeAccounts_mono h hsigns.subset)
  constructor
  · intro hsame stocks hstocks hlen hcard
    have hperm : msgs.Perm (msgs.filter (disagrees D) ++
        msgs.filter (fun msg => !disagrees D msg)) :=
      (filter_append_perm _ _).symm
    have hpool := (hsame _ hperm default default default default).mpr (rawAccepts_iff.mpr
      ⟨stocks, hstocks, hlen, by rw [hraw _ hperm]; exact hcard⟩)
    obtain ⟨stocks', hstocks', -, hfirst⟩ := (poolAccepts_iff (hcalm' _ hperm)).mp hpool
    rw [hstocks, Except.ok.injEq] at hstocks'
    subst hstocks'
    refine hfirst.trans (Finset.card_le_card ?_)
    intro a ha
    obtain ⟨hk, hagree⟩ := Finset.mem_filter.mp ha
    exact Finset.mem_filter.mpr ⟨hk, onlyAgrees_of_firstAgrees hagree⟩
  · intro hcond msgs' hperm O O' Q Q'
    rw [poolAccepts_iff (hcalm' msgs' hperm), rawAccepts_iff]
    apply exists_congr
    intro stocks
    apply and_congr_right
    intro hstocks
    apply and_congr_right
    intro hlen
    constructor
    · intro hfirst
      exact hfirst.trans (Finset.card_le_card firstAgrees_subset)
    · intro hcard
      rw [hraw msgs' hperm] at hcard
      refine (hcond stocks hstocks hlen hcard).trans (Finset.card_le_card ?_)
      intro a ha
      obtain ⟨hk, honly⟩ := Finset.mem_filter.mp ha
      rw [onlyAgrees_perm (votesOf_perm hperm)] at honly
      exact Finset.mem_filter.mpr ⟨hk, firstAgrees_of_onlyAgrees honly⟩

end Verdict

def opinionEngine : DposEngine ℕ where
  headerHash := fun header => header.number
  recover := fun _ sign => some (sign.setWidth 160, !sign.getLsbD 160)
  broadCastNodes := []

def opinionReader : ValidatorReader where
  getCurrentNumber := 0
  getValidatorByNumber := fun number =>
    .ok ⟨number, [⟨1, 0x2000, .validator, 1, 0⟩, ⟨2, 0x2001, .validator, 1, 1⟩,
      ⟨3, 0x2002, .validator, 1, 2⟩], 2⟩

def ballot (a : Address) (agree : Bool) : VoteMsg ℕ where
  signHash := 7
  sign := if agree then a.setWidth 520 else a.setWidth 520+BitVec.twoPow 520 160
  fromAccount := a
  verifyFrom := true
  time := 0

theorem getValidatorStocks_opinionReader (number : ℕ) :
    getValidatorStocks opinionReader number =
      .ok (graph2ValidatorStocks ⟨0, [⟨1, 0x2000, .validator, 1, 0⟩,
        ⟨2, 0x2001, .validator, 1, 1⟩, ⟨3, 0x2002, .validator, 1, 2⟩], 2⟩) := rfl

theorem calm_of_ballots {votes : List (VoteInfo ℕ)}
    (hvotes : ∀ v ∈ votes, v.time = 0 ∧ v.signHash = 7) : Calm votes := by
  constructor
  · intro v hv w hw
    rw [(hvotes v hv).1, (hvotes w hw).1]
    decide
  · intro a
    refine (Finset.card_le_card (t := {7}) ?_).trans (by decide)
    intro k hk
    obtain ⟨v, hv, rfl⟩ := mem_map.mp (mem_toFinset.mp hk)
    exact Finset.mem_singleton.mpr (hvotes v (mem_filter.mp hv).1).2

/-- Three agreeing votes are enough in the pool in every order. -/
theorem sameVerdict_three_agree :
    Calm (votesOf opinionEngine [ballot 1 true, ballot 2 true, ballot 3 true]) ∧
    ∀ msgs', [ballot 1 true, ballot 2 true, ballot 3 true].Perm msgs' → ∀ O O' Q Q',
      (PoolAccepts opinionEngine msgs' 7 opinionReader 1 O O' Q ↔
        RawAccepts opinionEngine msgs' 7 opinionReader 1 Q') := by
  have hcalm : Calm (votesOf opinionEngine [ballot 1 true, ballot 2 true, ballot 3 true]) := by
    apply calm_of_ballots
    decide +kernel
  refine ⟨hcalm, (sameVerdict_iff opinionEngine _ hcalm 7 opinionReader 1).mpr ?_⟩
  intro stocks hstocks _ _
  rw [getValidatorStocks_opinionReader, Except.ok.injEq] at hstocks
  subst hstocks
  decide +kernel

/-- Account 3 disagrees and then agrees: the engine accepts its signatures, the pool does not, and
it does if the same votes arrive the other way round. -/
theorem changed_mind_splits_verdict :
    Calm (votesOf opinionEngine [ballot 3 false, ballot 1 true, ballot 2 true, ballot 3 true]) ∧
    (∀ Q, RawAccepts opinionEngine [ballot 3 false, ballot 1 true, ballot 2 true, ballot 3 true] 7
      opinionReader 1 Q) ∧
    (∀ O O' Q, ¬ PoolAccepts opinionEngine
      [ballot 3 false, ballot 1 true, ballot 2 true, ballot 3 true] 7 opinionReader 1 O O' Q) ∧
    ∀ O O' Q, PoolAccepts opinionEngine
      [ballot 3 true, ballot 2 true, ballot 1 true, ballot 3 false] 7 opinionReader 1 O O' Q := by
  have hcalm : Calm (votesOf opinionEngine
      [ballot 3 false, ballot 1 true, ballot 2 true, ballot 3 true]) := by
    apply calm_of_ballots
    decide +kernel
  have hreverse : Calm (votesOf opinionEngine
      [ballot 3 true, ballot 2 true, ballot 1 true, ballot 3 false]) := by
    apply calm_of_ballots
    decide +kernel
  refine ⟨hcalm, ?_, ?_, ?_⟩
  · intro Q
    exact rawAccepts_iff.mpr ⟨_, getValidatorStocks_opinionReader 1, by decide +kernel,
      by decide +kernel⟩
  · intro O O' Q hpool
    obtain ⟨stocks, hstocks, -, hcard⟩ := (poolAccepts_iff hcalm).mp hpool
    rw [getValidatorStocks_opinionReader, Except.ok.injEq] at hstocks
    subst hstocks
    exact absurd hcard (by decide +kernel)
  · intro O O' Q
    exact (poolAccepts_iff hreverse).mpr ⟨_, getValidatorStocks_opinionReader 1,
      by decide +kernel, by decide +kernel⟩

end VotePool

end MatrixNode
