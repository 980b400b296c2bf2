import MatrixNode.BlockVerifyProcess

/-! `blkverify/req_cache.go`: the proposals that a validator keeps, one for each leader that sent its
own and a bounded list of those that others passed on. The turn of the node only rises. -/
namespace MatrixNode
open GoLib

def otherReqCountMax : ℕ := 50

def paramErr : GoError := .error "param error"

def leaderReqExistErr : GoError := .error "req from this leader already exist"

def cantFindErr : GoError := .error "can't find req in cache"

/-- `mc.HD_BlkConsensusReqMsg`. Messages without a header are dropped before they come here. -/
structure BlkVerifyConsensusReq (Hash : Type) where
  header : Header Hash
  txsCode : List UInt32
  consensusTurn : UInt32
  fromAccount : Address

structure LocalBlockVerifyConsensusReq (Hash State Tx Receipt : Type) where
  blkVerifyConsensusReq : BlkVerifyConsensusReq Hash
  txs : List Tx
  receipts : List Receipt
  state : Option State

section Types
variable {Hash : Type} (D : DposEngine Hash) (State Tx Receipt : Type)

structure ReqCache where
  curTurn : UInt32
  leaderReqCache : GoMap Address (ReqData D State Tx Receipt)
  otherReqCache : List (ReqData D State Tx Receipt)
  otherReqLimit : ℕ

end Types

variable {Hash State Tx Receipt : Type} {D : DposEngine Hash}

def newReqDataOf (D : DposEngine Hash) (req : BlkVerifyConsensusReq Hash) : ReqData D State Tx Receipt :=
  newReqData D req.fromAccount req.header req.consensusTurn req.txsCode

def newReqDataByLocalReq (D : DposEngine Hash)
    (localReq : LocalBlockVerifyConsensusReq Hash State Tx Receipt) : ReqData D State Tx Receipt :=
  let req : ReqData D State Tx Receipt := newReqDataOf D localReq.blkVerifyConsensusReq
  { req with
    txs := localReq.txs, receipts := localReq.receipts, stateDB := localReq.state, localReq := true }

def newReqCache : ReqCache D State Tx Receipt := ⟨0, ∅, [], otherReqCountMax⟩

namespace ReqCache
variable (rc : ReqCache D State Tx Receipt)

/-- A leader's later turn replaces its earlier one. -/
def addReq : Option (BlkVerifyConsensusReq Hash) → Except GoError (ReqCache D State Tx Receipt)
  | none => .error paramErr
  | some req =>
    if req.consensusTurn < rc.curTurn then
      .error (.error ("区块请求消息的轮次高低,消息轮次(" ++ toString req.consensusTurn.toNat ++
        ") < 本地轮次(" ++ toString rc.curTurn.toNat ++ ")"))
    else if req.header.leader = req.fromAccount then
      if (rc.leaderReqCache.lookup req.fromAccount).any
          (fun oldReq => req.consensusTurn ≤ oldReq.consensusTurn) then
        .error leaderReqExistErr
      else .ok { rc with
        leaderReqCache := rc.leaderReqCache.insert req.fromAccount (newReqDataOf D req) }
    -- Of the requests that others passed on, the oldest makes room.
    else if rc.otherReqLimit ≤ rc.otherReqCache.length then
      .ok { rc with otherReqCache := rc.otherReqCache.tail ++ [newReqDataOf D req] }
    else .ok { rc with otherReqCache := rc.otherReqCache ++ [newReqDataOf D req] }

/-- A local request replaces what is there, whatever its turn. -/
def addLocalReq : Option (LocalBlockVerifyConsensusReq Hash State Tx Receipt) →
    Except GoError (ReqCache D State Tx Receipt)
  | none => .error paramErr
  | some req => .ok { rc with
      leaderReqCache := rc.leaderReqCache.insert req.blkVerifyConsensusReq.header.leader
        (newReqDataByLocalReq D req) }

def setCurTurn (order : GoMap.Ranger Address (ReqData D State Tx Receipt)) (consensusTurn : UInt32) :
    ReqCache D State Tx Receipt :=
  if consensusTurn ≤ rc.curTurn then rc
  else { rc with
    curTurn := consensusTurn
    leaderReqCache :=
      GoMap.deleteWhere order (fun req => req.consensusTurn < consensusTurn) rc.leaderReqCache
    otherReqCache := rc.otherReqCache.filter (fun req => consensusTurn ≤ req.consensusTurn) }

def getLeaderReq (leader : Address) (consensusTurn : UInt32) :
    Except GoError (ReqData D State Tx Receipt) :=
  if leader = 0 then .error paramErr
  else match rc.leaderReqCache.lookup leader with
    | none => .error cantFindErr
    | some req =>
      if req.consensusTurn ≠ consensusTurn then
        .error (.error ("请求轮次不匹配,缓存(" ++ toString req.consensusTurn.toNat ++ ") != 目标(" ++
          toString consensusTurn.toNat ++ ")"))
      else .ok req

end ReqCache

/-- What happens to the cache: a request of another node, one of this node, or a new turn with the
order in which the loop over the leaders then goes. -/
inductive ReqEvent (D : DposEngine Hash) (State Tx Receipt : Type) where
  | remote (req : Option (BlkVerifyConsensusReq Hash))
  | ownReq (req : Option (LocalBlockVerifyConsensusReq Hash State Tx Receipt))
  | turn (consensusTurn : UInt32) (order : GoMap.Ranger Address (ReqData D State Tx Receipt))

namespace ReqCache
variable (rc : ReqCache D State Tx Receipt)

def handle : ReqEvent D State Tx Receipt → ReqCache D State Tx Receipt
  | .remote req => (rc.addReq req).toOption.getD rc
  | .ownReq req => (rc.addLocalReq req).toOption.getD rc
  | .turn consensusTurn order => rc.setCurTurn order consensusTurn

def step (event : ReqEvent D State Tx Receipt) :
    Except GoError (ReqCache D State Tx Receipt) := .ok (rc.handle event)

/-- A local request is one that `AddReq` would take as well. -/
def Admits : ReqEvent D State Tx Receipt → Prop
  | .ownReq (some req) =>
    rc.curTurn ≤ req.blkVerifyConsensusReq.consensusTurn ∧
    ∀ old, rc.leaderReqCache.lookup req.blkVerifyConsensusReq.header.leader = some old →
      old.consensusTurn < req.blkVerifyConsensusReq.consensusTurn ∨
        (old.consensusTurn = req.blkVerifyConsensusReq.consensusTurn ∧
          old.hash = D.hashNoSignsAndNonce req.blkVerifyConsensusReq.header)
  | _ => True

/-- The turn of a leader belongs to a block: no other block of that leader can come up for it. -/
def Settled (leader : Address) (turn : UInt32) (hash : Hash) : Prop :=
  (rc.leaderReqCache.lookup leader = none ∧ turn < rc.curTurn) ∨
  ∃ req, rc.leaderReqCache.lookup leader = some req ∧
    (turn < req.consensusTurn ∨ (turn = req.consensusTurn ∧ req.hash = hash))

section Settled
variable {rc rc' : ReqCache D State Tx Receipt} {leader : Address} {turn : UInt32} {hash : Hash}

/-- Only a request that a leader sent itself gets into the map of the leaders. -/
theorem addReq_ok {req : Option (BlkVerifyConsensusReq Hash)} (h : rc.addReq req = .ok rc') :
    rc'.curTurn = rc.curTurn ∧ (rc'.leaderReqCache = rc.leaderReqCache ∨
      ∃ msg : BlkVerifyConsensusReq Hash, rc.curTurn ≤ msg.consensusTurn ∧
        (∀ old, rc.leaderReqCache.lookup msg.fromAccount = some old →
          old.consensusTurn < msg.consensusTurn) ∧
        rc'.leaderReqCache = rc.leaderReqCache.insert msg.fromAccount
          (newReqDataOf D msg : ReqData D State Tx Receipt)) := by
  rcases req with _ | msg
  · cases h
  obtain ⟨hturn, h⟩ := ite_error_eq_ok.mp h
  by_cases hfrom : msg.header.leader = msg.fromAccount
  · rw [if_pos hfrom] at h
    obtain ⟨hold, h⟩ := ite_error_eq_ok.mp h
    cases h
    refine ⟨rfl, .inr ⟨msg, UInt32.not_lt.mp hturn, ?_, rfl⟩⟩
    intro old hlookup
    rw [hlookup] at hold
    simpa using hold
  · split_ifs at h
    · cases h
      exact ⟨rfl, .inl rfl⟩
    · cases h
      exact ⟨rfl, .inl rfl⟩

variable {req : ReqData D State Tx Receipt}

/-- The new request is of the leader itself: it is for a later turn, or it is the same block. -/
theorem Settled.insert {key : Address} (h : rc.Settled leader turn hash)
    (hcache : rc'.leaderReqCache = rc.leaderReqCache.insert key req)
    (hcur : rc'.curTurn = rc.curTurn) (hturn : rc.curTurn ≤ req.consensusTurn)
    (hold : ∀ old, rc.leaderReqCache.lookup key = some old →
      old.consensusTurn < req.consensusTurn ∨
        (old.consensusTurn = req.consensusTurn ∧ old.hash = req.hash)) :
    rc'.Settled leader turn hash := by
  unfold Settled
  rw [hcache, hcur]
  by_cases hkey : leader = key
  · subst hkey
    right
    refine ⟨req, Finmap.lookup_insert _, ?_⟩
    rcases h with ⟨-, hlt⟩ | ⟨old, hlookup, hlt | ⟨heq, hhash⟩⟩
    · exact .inl (UInt32.lt_of_lt_of_le hlt hturn)
    · rcases hold old hlookup with hlater | ⟨hsame, -⟩
      · exact .inl (UInt32.lt_trans hlt hlater)
      · exact .inl (hsame ▸ hlt)
    · rcases hold old hlookup with hlater | ⟨hsame, hblock⟩
      · exact .inl (heq ▸ hlater)
      · exact .inr ⟨heq.trans hsame, hblock ▸ hhash⟩
  · rw [Finmap.lookup_insert_of_ne _ hkey]
    exact h

/-- Without an entry a turn is settled because it is over, and it stays over. -/
theorem Settled.setCurTurn (h : rc.Settled leader turn hash)
    (order : GoMap.Ranger Address (ReqData D State Tx Receipt)) (consensusTurn : UInt32) :
    (rc.setCurTurn order consensusTurn).Settled leader turn hash := by
  unfold ReqCache.setCurTurn
  split_ifs with hle
  · exact h
  have hlt : rc.curTurn < consensusTurn := UInt32.not_le.mp hle
  unfold Settled
  simp only [GoMap.lookup_deleteWhere]
  rcases h with ⟨hnone, hturn⟩ | ⟨req, hlookup, hreq⟩
  · left
    exact ⟨by rw [hnone]; rfl, UInt32.lt_trans hturn hlt⟩
  · by_cases hover : req.consensusTurn < consensusTurn
    · left
      refine ⟨by simp [hlookup, hover], ?_⟩
      rcases hreq with hreq | ⟨rfl, -⟩
      · exact UInt32.lt_trans hreq hover
      · exact hover
    · right
      exact ⟨req, by simp [hlookup, hover], hreq⟩

theorem Settled.step {event : ReqEvent D State Tx Receipt} (h : rc.Settled leader turn hash)
    (hadmits : rc.Admits event) : (rc.handle event).Settled leader turn hash := by
  cases event with
  | remote req =>
    rcases hadd : rc.addReq req with err | rc'
    · simp only [handle, hadd]
      exact h
    · simp only [handle, hadd]
      obtain ⟨hcur, hsame | ⟨msg, hturn, hold, hcache⟩⟩ := addReq_ok hadd
      · unfold Settled
        simp only [Except.toOption, Option.getD_some, hsame, hcur]
        exact h
      · exact h.insert hcache hcur hturn (fun old hlookup => .inl (hold old hlookup))
  | ownReq req =>
    cases req with
    | none => exact h
    | some req => exact h.insert rfl rfl hadmits.1 hadmits.2
  | turn consensusTurn order => exact h.setCurTurn order consensusTurn

theorem getLeaderReq_ok (h : rc.getLeaderReq leader turn = .ok req) :
    rc.leaderReqCache.lookup leader = some req ∧ req.consensusTurn = turn := by
  unfold getLeaderReq at h
  rw [ite_error_eq_ok] at h
  rcases hlookup : rc.leaderReqCache.lookup leader with _ | found
  · rw [hlookup] at h
    cases h.2
  · rw [hlookup] at h
    obtain ⟨hturn, hfound⟩ := ite_error_eq_ok.mp h.2
    cases hfound
    exact ⟨rfl, not_not.mp hturn⟩

/-- Once a block of a leader was returned for a turn, no other block is, as long as the local requests
are admitted by what is there. -/
theorem getLeaderReq_unique {before after : List (ReqEvent D State Tx Receipt)}
    {rc₁ rc₂ : ReqCache D State Tx Receipt} {req₁ req₂ : ReqData D State Tx Receipt}
    (hadmits : EachStep step (fun rc event _ => rc.Admits event) newReqCache (before ++ after))
    (hrun₁ : run step newReqCache before = .ok rc₁)
    (hrun₂ : run step newReqCache (before ++ after) = .ok rc₂)
    (hreq₁ : rc₁.getLeaderReq leader turn = .ok req₁)
    (hreq₂ : rc₂.getLeaderReq leader turn = .ok req₂) : req₁.hash = req₂.hash := by
  obtain ⟨hlookup₁, hturn₁⟩ := getLeaderReq_ok hreq₁
  obtain ⟨hlookup₂, hturn₂⟩ := getLeaderReq_ok hreq₂
  have hsettled : rc₁.Settled leader turn req₁.hash := .inr ⟨req₁, hlookup₁, .inr ⟨hturn₁.symm, rfl⟩⟩
  have hafter : run step rc₁ after = .ok rc₂ := by
    rw [run_append, hrun₁] at hrun₂
    exact hrun₂
  have hstep : ∀ (rc : ReqCache D State Tx Receipt) event rc', rc.Settled leader turn req₁.hash →
      (∀ next, step rc event = .ok next → rc.Admits event) → step rc event = .ok rc' →
      rc'.Settled leader turn req₁.hash := by
    intro rc event rc' hrc hevent hstep
    cases hstep
    exact hrc.step (hevent _ rfl)
  have hend := run_preserves_of_eachBefore hstep hsettled (hadmits.eachBefore.of_append hrun₁) hafter
  rcases hend with ⟨hnone, -⟩ | ⟨req, hlookup, hreq⟩
  · rw [hlookup₂] at hnone
    cases hnone
  · rw [hlookup₂] at hlookup
    cases hlookup
    rw [hturn₂] at hreq
    exact (hreq.resolve_left (UInt32.lt_irrefl turn)).2.symm

end Settled

section Sample

def timeEngine : DposEngine ℕ where
  headerHash := fun header => header.time
  recover := fun _ _ => none
  broadCastNodes := []

def proposalAt (time : ℕ) : BlkVerifyConsensusReq ℕ where
  header := ⟨⟨0, 0, 1, 0, 0, 0, 0, 1, 2, 0, 0, time, [], ⟨0, []⟩, [], []⟩, 0, [], 0, 0⟩
  txsCode := []
  consensusTurn := 1
  fromAccount := 1

def ownProposal (time : ℕ) : ReqEvent timeEngine ℕ ℕ ℕ := .ownReq (some ⟨proposalAt time, [], [], none⟩)

def echoRun : List (ReqEvent timeEngine ℕ ℕ ℕ) :=
  [.remote (some (proposalAt 10)), ownProposal 10, .remote (some (proposalAt 20))]

theorem echoRun_admitted :
    EachStep step (fun rc event _ => rc.Admits event) newReqCache (echoRun.take 1 ++ echoRun.drop 1) := by
  rintro _ ⟨⟩
  refine ⟨trivial, ?_⟩
  rintro _ ⟨⟩
  refine ⟨⟨by decide, ?_⟩, ?_⟩
  · rintro old ⟨⟩
    exact .inr ⟨rfl, rfl⟩
  · rintro _ ⟨⟩
    exact ⟨trivial, trivial⟩

theorem getLeaderReq_unique_echo :
    ∃ rc₁ rc₂ : ReqCache timeEngine ℕ ℕ ℕ, ∃ req₁ req₂,
      rc₁.getLeaderReq 1 1 = .ok req₁ ∧ rc₂.getLeaderReq 1 1 = .ok req₂ ∧ req₁.hash = req₂.hash := by
  obtain ⟨rc₁, hrun₁⟩ : ∃ rc₁, run step newReqCache (echoRun.take 1) = .ok rc₁ := ⟨_, rfl⟩
  obtain ⟨rc₂, hrun₂⟩ : ∃ rc₂, run step newReqCache (echoRun.take 1 ++ echoRun.drop 1) = .ok rc₂ :=
    ⟨_, rfl⟩
  obtain ⟨req₁, hreq₁⟩ : ∃ req₁, rc₁.getLeaderReq 1 1 = .ok req₁ := by
    cases hrun₁
    exact ⟨_, rfl⟩
  obtain ⟨req₂, hreq₂⟩ : ∃ req₂, rc₂.getLeaderReq 1 1 = .ok req₂ := by
    cases hrun₂
    exact ⟨_, rfl⟩
  exact ⟨rc₁, rc₂, req₁, req₂, hreq₁, hreq₂,
    getLeaderReq_unique echoRun_admitted hrun₁ hrun₂ hreq₁ hreq₂⟩

/-- Leader 1 proposes twice in turn 1, and each of the two blocks comes up for it. -/
theorem two_proposals_in_one_turn : ∃ rc₁ rc₂ : ReqCache timeEngine ℕ ℕ ℕ, ∃ req₁ req₂,
    run step newReqCache [ownProposal 10] = .ok rc₁ ∧
    run step newReqCache ([ownProposal 10] ++ [ownProposal 20]) = .ok rc₂ ∧
    rc₁.getLeaderReq 1 1 = .ok req₁ ∧ rc₂.getLeaderReq 1 1 = .ok req₂ ∧
    req₁.hash = 10 ∧ req₂.hash = 20 :=
  ⟨_, _, _, _, rfl, rfl, rfl, rfl, rfl, rfl⟩

end Sample

end ReqCache

end MatrixNode
