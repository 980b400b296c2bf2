import MatrixNode.HeightController
import MatrixNode.ReelectEvidence

/-! The votes in the result that a master broadcasts were cast for the request in it. -/
namespace MatrixNode
open GoLib Controller

section Cast
variable {Hash : Type} (node : CtrlNode Hash)

def CastFor (signHash : Hash) (sign : Signature) : Prop :=
  ∃ account, node.engine.recover signHash sign = some (account,true)

def ResultVoted (cache : MasterCache Hash) : Prop :=
  ∀ msg, cache.resultBroadcastMsg = some msg → msg.type = .agree →
    ∃ rlResult req, msg.rlResult = some rlResult ∧ rlResult.req = some req ∧
      ∀ sign ∈ rlResult.votes, CastFor node (node.leaderReqHash req) sign

end Cast

/-- A cache without a request and without a result. -/
structure MasterCache.Cleared {Hash : Type} [Zero Hash] (cache : MasterCache Hash) : Prop where
  inquiryResult : cache.inquiryResult = .none
  rlReqHash : cache.rlReqHash = 0
  rlVoteCache : cache.rlVoteCache = ∅
  resultBroadcastMsg : cache.resultBroadcastMsg = none

namespace SharedCache
variable {Hash : Type} [Zero Hash] (node : CtrlNode Hash)

/-- What ties votes, request and result together. -/
structure VoteInv (k : SharedCache Hash) : Prop where
  votes : ∀ account s, k.rlVoteCache.lookup account = some s →
    node.engine.recover k.rlReqHash s.sign = some (s.account,s.validate)
  idle : k.inquiryResult ≠ .agree → k.rlReqHash = 0 ∧ k.rlVoteCache = ∅
  request : k.rlReqHash ≠ 0 → ∃ req, k.rlReqMsg = some req ∧ k.rlReqHash = node.leaderReqHash req
  fresh : k.inquiryResult = .none → k.resultBroadcastMsg = none
  result : ∀ msg, k.resultBroadcastMsg = some msg → msg.type = .agree →
    k.inquiryResult = .agree ∧ k.shared = true ∧ ∃ rlResult req, msg.rlResult = some rlResult ∧
      rlResult.req = some req ∧ k.rlReqMsg = some req ∧ k.rlReqHash = node.leaderReqHash req ∧
      ∀ sign ∈ rlResult.votes, CastFor node k.rlReqHash sign

variable {node} {k k' : SharedCache Hash}

theorem VoteInv.resultVoted (h : VoteInv node k) : ResultVoted node k.toMasterCache := by
  intro msg hmsg htype
  obtain ⟨-, -, rlResult, req, hrl, hreq, -, hhash, hvotes⟩ := h.result msg hmsg htype
  refine ⟨rlResult, req, hrl, hreq, ?_⟩
  rw [← hhash]
  exact hvotes

theorem voteInv_of_cleared (h : k.toMasterCache.Cleared) : VoteInv node k where
  votes account s hs := by
    rw [h.rlVoteCache] at hs
    cases hs
  idle _ := ⟨h.rlReqHash, h.rlVoteCache⟩
  request hne := absurd h.rlReqHash hne
  fresh _ := h.resultBroadcastMsg
  result msg hmsg := by
    rw [h.resultBroadcastMsg] at hmsg
    cases hmsg

section
variable (h : VoteInv node k)
include h

theorem VoteInv.congr (hresult : k'.inquiryResult = k.inquiryResult)
    (hreq : k'.rlReqMsg = k.rlReqMsg) (hhash : k'.rlReqHash = k.rlReqHash)
    (hvotes : k'.rlVoteCache = k.rlVoteCache) (hmsg : k'.resultBroadcastMsg = k.resultBroadcastMsg)
    (hshared : k'.shared = k.shared) : VoteInv node k' := by
  constructor
  · rw [hvotes, hhash]
    exact h.votes
  · rw [hresult, hhash, hvotes]
    exact h.idle
  · rw [hhash, hreq]
    exact h.request
  · rw [hresult, hmsg]
    exact h.fresh
  · rw [hmsg, hresult, hshared, hreq, hhash]
    exact h.result

theorem VoteInv.setInquiryResultAgree {rightSign : List Signature}
    (hset : k.setInquiryResultAgree rightSign = .ok k') :
    VoteInv node k' ∧ k'.resultBroadcastMsg = none := by
  unfold SharedCache.setInquiryResultAgree at hset
  rw [ite_error_eq_ok, not_not] at hset
  obtain ⟨hnone, hset⟩ := hset
  obtain ⟨hhash, hvotes⟩ := h.idle (by rw [hnone]; decide)
  cases hset
  refine ⟨⟨?_, ?_, ?_, ?_, ?_⟩, h.fresh hnone⟩
  · intro account s hs
    rw [hvotes] at hs
    cases hs
  · intro hne
    exact absurd rfl hne
  · intro hne
    exact absurd hhash hne
  · intro hresult
    cases hresult
  · intro msg hmsg
    rw [h.fresh hnone] at hmsg
    cases hmsg

theorem VoteInv.setInquiryResultNotAgree {result : ReelectRSPType} {rsp : ReelectInquiryRspMsg Hash}
    (hset : k.setInquiryResultNotAgree node result rsp = .ok k') : VoteInv node k' := by
  unfold SharedCache.setInquiryResultNotAgree at hset
  simp only [ite_error_eq_ok, not_not] at hset
  obtain ⟨htype, hnone, hset⟩ := hset
  obtain ⟨hhash, hvotes⟩ := h.idle (by rw [hnone]; decide)
  have hagree : result ≠ .agree := by
    rintro rfl
    exact htype ⟨by decide, by decide⟩
  cases hset
  constructor
  · intro account s hs
    rw [hvotes] at hs
    cases hs
  · intro _
    exact ⟨hhash, hvotes⟩
  · intro hne
    exact absurd hhash hne
  · rintro rfl
    exact absurd ⟨by decide, by decide⟩ htype
  · intro msg hmsg hmsgType
    cases hmsg
    exact absurd hmsgType hagree

variable {now : ℤ}

theorem VoteInv.setRLResultBroadcastSuccess {signs : List Signature} (hhash : k.rlReqHash ≠ 0)
    (hsigns : ∀ sign ∈ signs, CastFor node k.rlReqHash sign)
    (hset : k.setRLResultBroadcastSuccess node signs now = .ok k') : VoteInv node k' := by
  unfold SharedCache.setRLResultBroadcastSuccess at hset
  rw [ite_error_eq_ok, not_not] at hset
  obtain ⟨hagree, hset⟩ := hset
  obtain ⟨req, hreq, hreqHash⟩ := h.request hhash
  cases hset
  constructor
  · exact h.votes
  · exact h.idle
  · exact h.request
  · intro hnone
    exact absurd (hagree.symm.trans hnone) (by decide)
  · intro msg hmsg _
    cases hmsg
    exact ⟨hagree, rfl, _, req, rfl, hreq, hreq, hreqHash, hsigns⟩

/-- The message before the stamp was of the same type, so its votes were for this request. -/
theorem VoteInv.getRLReqMsg {req' : ReelectLeaderReqMsg} {hash : Hash}
    (hstamp : ∀ req, k.rlReqMsg = some req → k.resultBroadcastMsg.isSome → now = req.timeStamp)
    (hget : k.getRLReqMsg node now = .ok (k',req',hash)) : VoteInv node k' := by
  unfold SharedCache.getRLReqMsg at hget
  rw [ite_error_eq_ok, not_not] at hget
  obtain ⟨hagree, hget⟩ := hget
  split at hget
  · cases hget
  · rename_i req hreq
    cases hget
    constructor
    · intro account s hs
      cases hs
    · intro hne
      exact absurd hagree hne
    · intro _
      exact ⟨_, rfl, rfl⟩
    · intro hnone
      exact absurd (hagree.symm.trans hnone) (by decide)
    · intro msg hmsg htype
      obtain ⟨old, hold, holdType, hmap⟩ : ∃ old, k.resultBroadcastMsg = some old ∧
          old.type = .agree ∧ (k.shared = true → msg = { old with
            rlResult := old.rlResult.map fun rl =>
              { rl with req := some { req with timeStamp := now } } }) := by
        split_ifs at hmsg with hshared
        · obtain ⟨old, hold, rfl⟩ := Option.map_eq_some_iff.mp hmsg
          exact ⟨old, hold, htype, fun _ => rfl⟩
        · exact ⟨msg, hmsg, htype, fun h => absurd h hshared⟩
      obtain ⟨-, hshared, rl, req₀, hrl, -, hreq₀, hhash, hvotes⟩ := h.result old hold holdType
      obtain rfl : req = req₀ := Option.some.inj (hreq.symm.trans hreq₀)
      have hsame : { req with timeStamp := now } = req := by
        rw [hstamp req hreq (by rw [hold]; rfl)]
      rw [hsame] at hmap ⊢
      refine ⟨hagree, hshared, { rl with req := some req }, req, ?_, rfl, rfl, rfl, ?_⟩
      · rw [hmap hshared, hrl]
        rfl
      · rw [← hhash]
        exact hvotes

theorem VoteInv.getResultBroadcastMsg {cache : MasterCache Hash}
    {msg' : ReelectResultBroadcastMsg Hash} {hash : Hash}
    (hget : k.toMasterCache.getResultBroadcastMsg node now = .ok (cache,msg',hash)) :
    VoteInv node ⟨cache, k.shared⟩ := by
  unfold MasterCache.getResultBroadcastMsg at hget
  split at hget
  · cases hget
  · rename_i old hold
    cases hget
    refine ⟨h.votes, h.idle, h.request, ?_, ?_⟩
    · intro hnone
      exact absurd ((h.fresh hnone).symm.trans hold) (by intro hc; cases hc)
    · intro msg hmsg htype
      cases hmsg
      exact h.result old hold htype

end

variable [DecidableEq Hash]

variable {cache : MasterCache Hash} {fromAccount : Address} {sign : Signature}

theorem VoteInv.saveResultRsp (h : VoteInv node k) {resultHash : Hash}
    (hsave : k.toMasterCache.saveResultRsp node resultHash sign fromAccount = .ok cache) :
    VoteInv node ⟨cache, k.shared⟩ := by
  unfold MasterCache.saveResultRsp at hsave
  simp only [ite_error_eq_ok, bind_eq_ok_iff] at hsave
  obtain ⟨-, -, rsps, -, hsave⟩ := hsave
  cases hsave
  exact h.congr rfl rfl rfl rfl rfl rfl

omit [DecidableEq Hash] in
theorem VoteInv.saveInquiryAgreeSign (h : VoteInv node k) {reqHash : Hash}
    (hsave : k.toMasterCache.saveInquiryAgreeSign node reqHash sign fromAccount = .ok cache) :
    VoteInv node ⟨cache, k.shared⟩ := by
  rw [MasterCache.saveInquiryAgreeSign, bind_eq_ok_iff] at hsave
  obtain ⟨signs, -, hsave⟩ := hsave
  cases hsave
  exact h.congr rfl rfl rfl rfl rfl rfl

theorem VoteInv.saveRLVote (h : VoteInv node k) {signHash : Hash}
    (hsave : k.toMasterCache.saveRLVote node signHash sign fromAccount = .ok cache) :
    cache.rlReqHash ≠ 0 ∧ VoteInv node ⟨cache, k.shared⟩ := by
  unfold MasterCache.saveRLVote at hsave
  simp only [ite_error_eq_ok, bind_eq_ok_iff, ne_eq, not_not] at hsave
  obtain ⟨hne, rfl, votes, hvotes, hsave⟩ := hsave
  obtain ⟨hrec, rfl⟩ := saveAgreeSign_eq_ok node hvotes
  cases hsave
  refine ⟨hne, ?_, ?_, h.request, h.fresh, h.result⟩
  · intro account s hs
    by_cases ha : account = fromAccount
    · rw [ha, Finmap.lookup_insert] at hs
      cases hs
      exact hrec
    · rw [Finmap.lookup_insert_of_ne _ ha] at hs
      exact h.votes account s hs
  · intro hagree
    exact absurd (h.idle hagree).1 hne

end SharedCache

section Cleared
variable {Hash : Type} [Zero Hash] (node : CtrlNode Hash) (env : CtrlEnv Hash)

theorem MasterCache.cleared_clearSelfInquiryMsg (cache : MasterCache Hash) :
    cache.clearSelfInquiryMsg.Cleared :=
  ⟨rfl, rfl, rfl, rfl⟩

namespace Controller
variable (c : Controller Hash)

def KeepsOrClears (c c' : Controller Hash) : Prop :=
  c'.selfCache = c.selfCache ∨ c'.selfCache.Cleared

variable {c} {c' c'' : Controller Hash}

theorem KeepsOrClears.trans (h₁ : KeepsOrClears c c') (h₂ : KeepsOrClears c' c'') :
    KeepsOrClears c c'' := by
  rcases h₂ with h₂ | h₂
  · unfold KeepsOrClears
    rw [h₂]
    exact h₁
  · exact Or.inr h₂

theorem Published.keepsOrClears (h : Published c c') : KeepsOrClears c c' := Or.inl h.selfCache

variable (c)

theorem cleared_sendInquiryReq : (c.sendInquiryReq node env).selfCache.Cleared := by
  unfold sendInquiryReq
  dsimp only
  split
  · exact ⟨rfl, rfl, rfl, rfl⟩
  · split
    · exact ⟨rfl, rfl, rfl, rfl⟩
    · rename_i cache hsave
      rw [MasterCache.saveInquiryAgreeSign, bind_eq_ok_iff] at hsave
      obtain ⟨signs, -, hsave⟩ := hsave
      cases hsave
      exact ⟨rfl, rfl, rfl, rfl⟩

theorem startReelect_keepsOrClears (reelectTurn : UInt32) :
    KeepsOrClears c (c.startReelect node env reelectTurn) := by
  unfold startReelect
  split_ifs
  · exact Or.inl rfl
  · exact Or.inl rfl
  · split
    · exact Or.inl rfl
    · refine KeepsOrClears.trans ?_ (published_sendLeaderMsg node _).keepsOrClears
      split_ifs
      · exact Or.inr (cleared_sendInquiryReq ..)
      · exact Or.inl rfl

theorem resumeTurn_keepsOrClears (consensusTurn : UInt32) :
    KeepsOrClears c (c.resumeTurn node env consensusTurn) := by
  unfold resumeTurn
  dsimp only
  split_ifs
  · rw [processPOSState_eq]
    exact Or.inl rfl
  · exact startReelect_keepsOrClears ..
  · exact Or.inl rfl

theorem timeOutHandle_keepsOrClears : KeepsOrClears c (c.timeOutHandle node env) := by
  unfold timeOutHandle
  split
  · exact startReelect_keepsOrClears ..
  · exact startReelect_keepsOrClears ..
  · exact Or.inl rfl
  · exact Or.inl rfl

theorem finishReelectWithPOS_keepsOrClears (header : Header Hash) (fromAccount : Address) :
    KeepsOrClears c (c.finishReelectWithPOS node header fromAccount) := by
  refine KeepsOrClears.trans ?_ (published_sendLeaderMsg node _).keepsOrClears
  exact Or.inr (MasterCache.cleared_clearSelfInquiryMsg _)

theorem finishReelectWithRLConsensus_keepsOrClears (req : ReelectLeaderReqMsg)
    (inquiryReq : ReelectInquiryReqMsg) :
    KeepsOrClears c (c.finishReelectWithRLConsensus node env req inquiryReq) := by
  rcases finishReelectWithRLConsensus_frame node env c req inquiryReq with
    ⟨-, -, h⟩ | ⟨leader, -, h⟩
  · rw [h]
    exact Or.inl rfl
  · rw [h]
    set turn := inquiryReq.consensusTurn+inquiryReq.reelectTurn
    have hclear : KeepsOrClears c (c.entersTurn leader turn req.timeStamp) :=
      Or.inr (MasterCache.cleared_clearSelfInquiryMsg _)
    have hresume := resumeTurn_keepsOrClears node env (c.entersTurn leader turn req.timeStamp) turn
    exact (hclear.trans hresume).trans (published_sendLeaderMsg node _).keepsOrClears

end Controller

namespace HeightController
variable {node env} {env : HeightEnv Hash} {c c' : HeightController Hash}

section
variable (h : c.cache.VoteInv node)
include h

theorem voteInv_of_keepsOrClears (hk : KeepsOrClears c.toController c'.toController)
    (hshared : c'.shared = c.shared) : c'.cache.VoteInv node := by
  rcases hk with hk | hk
  · have hcache : c'.cache = c.cache := by
      unfold cache
      rw [hk, hshared]
    rw [hcache]
    exact h
  · exact SharedCache.voteInv_of_cleared hk

theorem voteInv_lift {f : Controller Hash → Controller Hash}
    (hf : KeepsOrClears c.toController (f c.toController)) :
    (c.lift f).cache.VoteInv node :=
  voteInv_of_keepsOrClears h hf rfl

theorem beginHeight_voteInv (parentHeader : Header Hash) :
    (c.beginHeight node env parentHeader).cache.VoteInv node := by
  unfold beginHeight
  split_ifs
  · refine voteInv_lift ?_ (published_sendLeaderMsg node _).keepsOrClears
    exact h
  · dsimp only
    refine voteInv_lift ?_ (published_sendLeaderMsg node _).keepsOrClears
    split_ifs
    · exact h
    · refine voteInv_lift ?_ (resumeTurn_keepsOrClears ..)
      exact h
    · exact h

theorem handleStartMsg_voteInv (msg : StartControllerMsg Hash) :
    (c.handleStartMsg node env (some msg)).cache.VoteInv node := by
  rcases handleStartMsg_cases node env c msg with
    ⟨parent, hc⟩ | ⟨-, parentHeader, dc, -, ⟨-, hc⟩ | ⟨-, hc⟩⟩
  · rw [hc]
    exact h
  · rw [hc]
    exact h
  · rw [hc]
    refine beginHeight_voteInv ?_ _
    exact h

theorem processResultBroadcastMsg_voteInv {msg : ReelectResultBroadcastMsg Hash}
    (hprocess : c.processResultBroadcastMsg node env (some msg) = .ok c') :
    c'.cache.VoteInv node := by
  obtain ⟨ctrl, hctrl, hprocess⟩ := bind_eq_ok_iff.mp hprocess
  cases hprocess
  refine voteInv_of_keepsOrClears h ?_ rfl
  rcases processResultBroadcastMsg_cases hctrl with
    ⟨header, -, -, hpos⟩ | ⟨rlResult, req, inquiryReq, -, -, -, -, hrl⟩
  · obtain ⟨-, -, rfl⟩ := processPOSResult_eq_ok_iff.mp hpos
    exact finishReelectWithPOS_keepsOrClears ..
  · obtain ⟨-, -, -, rfl⟩ := processRLResult_eq_ok_iff.mp hrl
    exact finishReelectWithRLConsensus_keepsOrClears ..

theorem handleInquiryReq_voteInv {req : Option ReelectInquiryReqMsg}
    (hreq : c.handleInquiryReq node env req = .ok c') : c'.cache.VoteInv node := by
  unfold handleInquiryReq at hreq
  repeat' split at hreq
  all_goals cases hreq
  all_goals first
    | exact h
    | exact voteInv_lift h (published_sendInquiryRspWithPOS ..).keepsOrClears
    | exact voteInv_lift h (published_sendInquiryRspWithAgree ..).keepsOrClears
    | exact voteInv_lift h (published_sendInquiryRspWithRLConsensus ..).keepsOrClears

theorem sendInquiryRspWithNewBlockReady_voteInv (reqHash : Hash) (target : Address) (number : ℕ) :
    (c.sendInquiryRspWithNewBlockReady reqHash target number).cache.VoteInv node := by
  unfold sendInquiryRspWithNewBlockReady
  split
  · exact h
  · exact voteInv_lift h (published_publish ..).keepsOrClears

theorem handleResultBroadcastMsg_voteInv {msg : Option (ReelectResultBroadcastMsg Hash)}
    (hmsg : c.handleResultBroadcastMsg node env msg = .ok c') : c'.cache.VoteInv node := by
  unfold handleResultBroadcastMsg at hmsg
  split at hmsg
  · cases hmsg
    exact h
  · split at hmsg
    · cases hmsg
      exact h
    · cases hmsg
    · rename_i c₁ hprocess
      cases hmsg
      exact voteInv_lift (processResultBroadcastMsg_voteInv h hprocess)
        (published_sendResultBroadcastRsp ..).keepsOrClears

end

variable [DecidableEq Hash]

theorem sendResultBroadcastMsg_voteInv (h : c.cache.VoteInv node) :
    (c.sendResultBroadcastMsg node env).cache.VoteInv node := by
  unfold sendResultBroadcastMsg
  split
  · exact h
  · rename_i cache msg hash hget
    have h₁ : SharedCache.VoteInv node ⟨cache, c.shared⟩ := h.getResultBroadcastMsg hget
    dsimp only
    split
    · exact h₁
    · split
      · exact h₁
      · rename_i cache' hsave
        refine voteInv_lift ?_ (published_publish ..).keepsOrClears
        exact h₁.saveResultRsp hsave

/-- The request is not stamped anew while a result holds it, or gets the stamp it had. -/
def StampFits (env : HeightEnv Hash) (c : HeightController Hash) : Prop :=
  ∀ req, c.selfCache.rlReqMsg = some req → c.selfCache.resultBroadcastMsg.isSome →
    env.reqTime = req.timeStamp

instance : Decidable (StampFits env c) :=
  inferInstanceAs (Decidable (∀ req ∈ c.selfCache.rlReqMsg,
    c.selfCache.resultBroadcastMsg.isSome → env.reqTime = req.timeStamp))

section
variable (h : c.cache.VoteInv node)
include h

theorem sendRLReq_voteInv (hfits : StampFits env c) (hsend : c.sendRLReq node env = .ok c') :
    c'.cache.VoteInv node := by
  unfold sendRLReq at hsend
  split at hsend
  · cases hsend
    exact h
  · cases hsend
  · rename_i k req reqHash hget
    have h₁ : k.VoteInv node := h.getRLReqMsg hfits hget
    dsimp only at hsend
    split at hsend
    · cases hsend
      exact h₁
    · split at hsend
      · cases hsend
        exact h₁
      · rename_i cache hsave
        cases hsend
        refine voteInv_lift ?_ (published_publish ..).keepsOrClears
        exact (h₁.saveRLVote hsave).2

theorem handleInquiryAgree_voteInv {rsp : ReelectInquiryRspMsg Hash}
    (hrsp : c.handleInquiryAgree node env rsp = .ok c') : c'.cache.VoteInv node := by
  unfold handleInquiryAgree at hrsp
  split at hrsp
  · cases hrsp
    exact h
  · rename_i cache hsave
    have h₁ : SharedCache.VoteInv node ⟨cache, c.shared⟩ := h.saveInquiryAgreeSign hsave
    dsimp only at hrsp
    split at hrsp
    · cases hrsp
      exact h₁
    · split at hrsp
      · cases hrsp
        exact h₁
      · rename_i k hset
        obtain ⟨h₂, hnone⟩ := h₁.setInquiryResultAgree hset
        refine sendRLReq_voteInv ?_ ?_ hrsp
        · exact h₂
        · intro req _ hsome
          change k.resultBroadcastMsg.isSome at hsome
          rw [hnone] at hsome
          cases hsome

/-- Both other results of an inquiry are kept in the same way. -/
theorem handleInquiryRsp_voteInv {rsp : Option (ReelectInquiryRspMsg Hash)}
    (hrsp : c.handleInquiryRsp node env rsp = .ok c') : c'.cache.VoteInv node := by
  unfold handleInquiryRsp at hrsp
  split at hrsp
  · cases hrsp
  · split_ifs at hrsp
    · cases hrsp
      exact h
    · split at hrsp
      · cases hrsp
        exact h
      · split at hrsp
        · cases hrsp
          exact voteInv_lift h (published_processNewBlockReadyRsp ..).keepsOrClears
        iterate 2
          · split at hrsp
            · cases hrsp
              exact h
            · rename_i k hset
              cases hrsp
              exact sendResultBroadcastMsg_voteInv (h.setInquiryResultNotAgree hset)
        · exact handleInquiryAgree_voteInv h hrsp
        · cases hrsp
          exact h

theorem handleRLVote_voteInv (msg : Option (ReelectLeaderVoteMsg Hash)) :
    (c.handleRLVote node env msg).cache.VoteInv node := by
  unfold handleRLVote
  split
  · exact h
  · split
    · exact h
    · rename_i cache hsave
      obtain ⟨hne, h₁⟩ := h.saveRLVote hsave
      dsimp only
      split
      · exact h₁
      · rename_i right hverify
        split
        · exact h₁
        · rename_i k hset
          refine sendResultBroadcastMsg_voteInv (h₁.setRLResultBroadcastSuccess hne ?_ hset)
          intro sign hsign
          have hrec : ∀ s ∈ signsOf env cache.rlVoteCache,
              node.engine.recover cache.rlReqHash s.sign = some (s.account,s.validate) := by
            intro s hs
            obtain ⟨⟨account,s⟩, he, rfl⟩ := List.mem_map.mp hs
            exact h₁.votes account s (((env.signOrder.isRange _).mem_iff account s).mp he)
          rw [DposEngine.verifyHashWithVerifiedSignsAndNumber_eq hrec] at hverify
          exact node.engine.recover_of_verifyHashWithNumber hverify hsign

theorem handleResultRsp_voteInv {rsp : Option (ReelectResultRspMsg Hash)} {fromAccount : Address}
    (hrsp : c.handleResultRsp node env rsp fromAccount = .ok c') : c'.cache.VoteInv node := by
  unfold handleResultRsp at hrsp
  split at hrsp
  · cases hrsp
    exact h
  · split at hrsp
    · cases hrsp
      exact h
    · rename_i cache hsave
      have h₁ : SharedCache.VoteInv node ⟨cache, c.shared⟩ := h.saveResultRsp hsave
      dsimp only at hrsp
      split at hrsp
      · cases hrsp
        exact h₁
      · split at hrsp
        · cases hrsp
          exact h₁
        · split at hrsp
          · cases hrsp
            exact h₁
          · cases hrsp
          · rename_i c₁ hprocess
            cases hrsp
            refine processResultBroadcastMsg_voteInv ?_ hprocess
            exact h₁

theorem resend_voteInv (hfits : c.selfCache.inquiryResult = .agree → StampFits env c)
    (hsend : c.resend node env = .ok c') : c'.cache.VoteInv node := by
  unfold resend at hsend
  split at hsend
  · rename_i hagree
    exact sendRLReq_voteInv h (hfits hagree) hsend
  iterate 2
    · cases hsend
      exact sendResultBroadcastMsg_voteInv h
  iterate 2
    · cases hsend
      exact voteInv_lift h (Or.inr (cleared_sendInquiryReq ..))

end

/-- When the re-election timer makes a master send its request again and a result is held, the
request keeps its stamp. -/
def ResendFits (c : HeightController Hash) (input : HeightEvent Hash) : Prop :=
  match input.2 with
  | .reelectTimeOut =>
    c.dc.state = .stReelect → c.selfCache.inquiryResult = .agree → StampFits input.1 c
  | _ => True

instance (c : HeightController Hash) (input : HeightEvent Hash) :
    Decidable (ResendFits c input) := by
  unfold ResendFits
  split <;> infer_instance

theorem step_voteInv {input : HeightEvent Hash} (h : c.cache.VoteInv node)
    (hfits : ResendFits c input) (hstep : c.step node input = .ok c') : c'.cache.VoteInv node := by
  obtain ⟨env, i⟩ := input
  cases i with
  | start msg =>
    cases hstep
    cases msg with
    | none => exact h
    | some msg => exact handleStartMsg_voteInv h msg
  | posFinished msg =>
    cases hstep
    cases msg with
    | none => exact h
    | some msg =>
      refine voteInv_lift h ?_
      unfold handleBlockPOSFinishedNotify
      dsimp only
      rw [processPOSState_eq]
      exact Or.inl rfl
  | inquiryReq req => exact handleInquiryReq_voteInv h hstep
  | inquiryRsp rsp => exact handleInquiryRsp_voteInv h hstep
  | leaderReq req =>
    obtain ⟨ctrl, hctrl, hstep⟩ := bind_eq_ok_iff.mp hstep
    cases hstep
    refine voteInv_of_keepsOrClears h ?_ rfl
    exact (published_of_handleRLReq hctrl).keepsOrClears
  | leaderVote msg =>
    cases hstep
    exact handleRLVote_voteInv h msg
  | resultBroadcast msg => exact handleResultBroadcastMsg_voteInv h hstep
  | resultRsp rsp fromAccount => exact handleResultRsp_voteInv h hstep
  | newBlockReadyRsp reqHash target number =>
    cases hstep
    exact sendInquiryRspWithNewBlockReady_voteInv h reqHash target number
  | timeOut =>
    cases hstep
    exact voteInv_lift h (timeOutHandle_keepsOrClears ..)
  | reelectTimeOut =>
    change c.reelectTimeOutHandle node env = .ok c' at hstep
    unfold reelectTimeOutHandle at hstep
    split_ifs at hstep with hstate
    · cases hstep
      exact h
    · obtain ⟨c₁, hsend, hstep⟩ := bind_eq_ok_iff.mp hstep
      cases hstep
      have h₁ := resend_voteInv h (hfits (not_not.mp hstate)) hsend
      exact h₁

/-- In every run that keeps the stamp of a request while a result holds it, each vote in a result of
type `Agree` was cast for the request in it. -/
theorem run_resultVoted (node : CtrlNode Hash) (number : ℕ) (inputs : List (HeightEvent Hash))
    (hfits : EachBefore (step node) ResendFits (newController number) inputs)
    (hrun : run (step node) (newController number) inputs = .ok c') :
    ResultVoted node c'.selfCache := by
  have hinit : (newController number : HeightController Hash).cache.VoteInv node :=
    SharedCache.voteInv_of_cleared ⟨rfl, rfl, rfl, rfl⟩
  have hend := run_preserves_of_eachBefore
    (fun s i s' hs hi hstep => step_voteInv hs hi hstep) hinit hfits hrun
  exact hend.resultVoted

def sampleInquiry : ReelectInquiryReqMsg := ⟨3, 0, 1, 1050, 1, 1⟩

def sampleRequest (timeStamp : ℤ) : ReelectLeaderReqMsg :=
  ⟨some sampleInquiry, [stampSign 1 0,stampSign 2 0,stampSign 3 0], timeStamp⟩

def agreeRsp (account : ℕ) : HeightInput RequestHash :=
  .inquiryRsp (some {
    number := 3, reqHash := masterNode.inquiryHash sampleInquiry, type := .agree
    agreeSign := stampSign account 0, posResult := none, rlResult := none, newBlock := none
    fromAccount := BitVec.ofNat 160 account })

def requestVote (account : ℕ) (timeStamp : ℤ) : HeightInput RequestHash :=
  .leaderVote (some ⟨{
    signHash := masterNode.leaderReqHash (sampleRequest timeStamp), round := 1
    sign := stampSign account timeStamp.toNat, fromAccount := BitVec.ofNat 160 account }, 3⟩)

def votedInputs : List (HeightEvent RequestHash) :=
  [(masterEnv 1050,startThree 1000), (masterEnv 1051,agreeRsp 2), (masterEnv 1051,agreeRsp 3),
    (masterEnv 1051,requestVote 2 1051), (masterEnv 1051,requestVote 3 1051)]

def resultParts (cache : MasterCache RequestHash) :
    Option (ReelectRSPType × Option (Option ℤ × List Signature)) :=
  cache.resultBroadcastMsg.map fun msg =>
    (msg.type,msg.rlResult.map fun rl => (rl.req.map ReelectLeaderReqMsg.timeStamp,rl.votes))

def threeVotes (stamp : ℕ) : List Signature :=
  [stampSign 1 stamp,stampSign 2 stamp,stampSign 3 stamp]

theorem recover_masterNode_of_ne {signHash : RequestHash} {sign : Signature}
    (h : sign ≠ stampSign (sign.setWidth 160).toNat signHash.stamp) :
    masterNode.engine.recover signHash sign = none :=
  if_neg h

/-- Sent again three seconds later, the request in the result has a stamp that nobody voted for. -/
theorem resend_unvoted :
    Function.Injective masterNode.leaderReqHash ∧ ∃ c', run (step masterNode) (newController 3)
          (votedInputs ++ [(masterEnv 1054,.reelectTimeOut)]) = .ok c' ∧
        resultParts c'.selfCache = some (.agree,some (some 1054,threeVotes 1051)) ∧
        ¬ ResultVoted masterNode c'.selfCache := by
  refine ⟨fun _ _ h => Option.some.inj h, ?_⟩
  have hend : (run (step masterNode) (newController 3)
      (votedInputs ++ [(masterEnv 1054,.reelectTimeOut)])).toOption.map
        (fun c => resultParts c.selfCache) =
      some (some (.agree,some (some 1054,threeVotes 1051))) := by
    decide +kernel
  obtain ⟨c', hrun, hparts⟩ := exists_ok_of_map_toOption hend
  refine ⟨c', hrun, hparts, ?_⟩
  intro hvoted
  obtain ⟨msg, hmsg, hparts⟩ := Option.map_eq_some_iff.mp hparts
  obtain ⟨htype, hparts⟩ := Prod.mk.injEq .. ▸ hparts
  obtain ⟨rl, req, hrl, hreq, hcast⟩ := hvoted msg hmsg htype
  rw [hrl, Option.map_some, hreq, Option.map_some] at hparts
  simp only [Option.some.injEq, Prod.mk.injEq] at hparts
  obtain ⟨hstamp, hvotes⟩ := hparts
  obtain ⟨account, hrec⟩ := hcast (stampSign 1 1051) (by rw [hvotes]; exact List.mem_cons_self)
  have hother : stampSign 1 1051 ≠
      stampSign ((stampSign 1 1051).setWidth 160).toNat (RequestHash.stamp (some req)) := by
    rw [show RequestHash.stamp (some req) = req.timeStamp.toNat from rfl, hstamp]
    decide +kernel
  have hnone : masterNode.engine.recover (masterNode.leaderReqHash req) (stampSign 1 1051) = none :=
    recover_masterNode_of_ne hother
  rw [hnone] at hrec
  cases hrec

/-- Sent again within the second, the request is the one that was voted for. -/
theorem run_resultVoted_same_second :
    ∃ c', run (step masterNode) (newController 3)
        (votedInputs ++ [(masterEnv 1051,.reelectTimeOut)]) = .ok c' ∧
      resultParts c'.selfCache = some (.agree,some (some 1051,threeVotes 1051)) ∧
      ResultVoted masterNode c'.selfCache := by
  have hend : (run (step masterNode) (newController 3)
      (votedInputs ++ [(masterEnv 1051,.reelectTimeOut)])).toOption.map
        (fun c => resultParts c.selfCache) =
      some (some (.agree,some (some 1051,threeVotes 1051))) := by
    decide +kernel
  obtain ⟨c', hrun, hparts⟩ := exists_ok_of_map_toOption hend
  exact ⟨c', hrun, hparts, run_resultVoted masterNode 3 _ (by decide +kernel) hrun⟩

end HeightController

end Cleared

end MatrixNode
