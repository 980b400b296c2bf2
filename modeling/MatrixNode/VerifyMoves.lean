import MatrixNode.VerifyMachine

/-! What the handlers of the verification process can do. -/
namespace MatrixNode
open GoLib VerifyProcess

variable {Hash State Tx Receipt : Type} {D : DposEngine Hash}

def VerifyEffect.about (D : DposEngine Hash) : VerifyEffect Hash State Tx Receipt → Hash
  | .vote signHash .. => signHash
  | .verifyConsensusOK msg => msg.blockHash
  | .posFinished _ header .. => D.hashNoSignsAndNonce header
  | .miningReq header => D.hashNoSignsAndNonce header
  | .posedReq header => D.hashNoSignsAndNonce header
  | .delVotes hash => hash

/-- The fields of a request that are set when it is made. The rest is what the verification finds out,
and the signatures in the header. -/
structure ReqData.SameProposal (req req' : ReqData D State Tx Receipt) : Prop where
  fromAccount : req'.fromAccount = req.fromAccount
  unsigned : req'.header.toUnsignedHeader = req.header.toUnsignedHeader
  consensusTurn : req'.consensusTurn = req.consensusTurn
  txsCode : req'.txsCode = req.txsCode
  hash : req'.hash = req.hash
  localReq : req'.localReq = req.localReq

theorem ReqData.SameProposal.refl (req : ReqData D State Tx Receipt) : req.SameProposal req :=
  ⟨rfl, rfl, rfl, rfl, rfl, rfl⟩

theorem ReqData.SameProposal.trans {req req' req'' : ReqData D State Tx Receipt}
    (h : req.SameProposal req') (h' : req'.SameProposal req'') : req.SameProposal req'' :=
  ⟨h'.fromAccount.trans h.fromAccount, h'.unsigned.trans h.unsigned,
    h'.consensusTurn.trans h.consensusTurn, h'.txsCode.trans h.txsCode, h'.hash.trans h.hash,
    h'.localReq.trans h.localReq⟩

namespace VerifyProcess
variable {env : VerifyEnv Hash} {p v : VerifyProcess D State Tx Receipt}
  {req : ReqData D State Tx Receipt} {lvResult : LocalVerifyResult}

/-- What the verification of a request does: all that it sends is about its block, and the current
request remains the same proposal. -/
structure WorksOn (req : ReqData D State Tx Receipt) (p v : VerifyProcess D State Tx Receipt) :
    Prop where
  sends : ∀ x ∈ v.outbox, x ∈ p.outbox ∨ x.about D = req.hash
  noReturn : v.state = .txsVerify → p.state = .txsVerify
  edits : v.curProcessReq = p.curProcessReq ∨ ∃ req', v.curProcessReq = some req' ∧ req.SameProposal req'

theorem WorksOn.refl (req : ReqData D State Tx Receipt) (p : VerifyProcess D State Tx Receipt) :
    WorksOn req p p :=
  ⟨fun _ hx => .inl hx, id, .inl rfl⟩

theorem WorksOn.trans {q : VerifyProcess D State Tx Receipt} (h : WorksOn req p q)
    (h' : WorksOn req q v) : WorksOn req p v := by
  refine ⟨?_, fun hv => h.noReturn (h'.noReturn hv), ?_⟩
  · intro x hx
    rcases h'.sends x hx with hx | hx
    · exact h.sends x hx
    · exact .inr hx
  · rcases h'.edits with hsame | hedit
    · rw [hsame]
      exact h.edits
    · exact .inr hedit

variable {req' : ReqData D State Tx Receipt}

theorem WorksOn.of_sameProposal (h : WorksOn req' p v) (hsame : req.SameProposal req') :
    WorksOn req p v := by
  refine ⟨?_, h.noReturn, ?_⟩
  · intro x hx
    rw [← hsame.hash]
    exact h.sends x hx
  · rcases h.edits with hkept | ⟨last, hlast, hsame'⟩
    · exact .inl hkept
    · exact .inr ⟨last, hlast, hsame.trans hsame'⟩

theorem WorksOn.publish (h : WorksOn req p v) {e : VerifyEffect Hash State Tx Receipt}
    (he : e.about D = req.hash) : WorksOn req p (v.publish e) := by
  refine h.trans ⟨?_, id, .inl rfl⟩
  intro x hx
  rcases List.mem_append.mp hx with hx | hx
  · exact .inl hx
  · rw [List.mem_singleton.mp hx]
    exact .inr he

theorem WorksOn.move (h : WorksOn req p v) {stage : VerifyState} (hstage : stage ≠ .txsVerify) :
    WorksOn req p { v with state := stage } :=
  ⟨h.sends, fun htxs => absurd htxs hstage, h.edits⟩

theorem WorksOn.edit (h : WorksOn req p v) (hsame : req.SameProposal req') :
    WorksOn req p { v with curProcessReq := some req' } :=
  ⟨h.sends, h.noReturn, .inr ⟨req', rfl, hsame⟩⟩

theorem sendVote_worksOn (validate : Bool) : WorksOn req p (p.sendVote env req validate) := by
  unfold sendVote
  split
  · exact .refl req p
  · apply WorksOn.publish
    · apply WorksOn.publish
      · exact .refl req p
      · rfl
    · rfl

theorem bcFinishedProcess_worksOn : WorksOn req p (p.bcFinishedProcess req lvResult) := by
  have hedit : WorksOn req p
      { p with curProcessReq := some { req with localVerifyResult := lvResult } } :=
    (WorksOn.refl req p).edit ⟨rfl, rfl, rfl, rfl, rfl, rfl⟩
  cases lvResult with
  | processing => exact hedit
  | stateFailed => exact hedit
  | success =>
    have hsent := hedit.publish (e := .verifyConsensusOK
      (localVerifyOK { req with localVerifyResult := .success })) rfl
    exact hsent.move (by decide)
  | failedButCanRecover => exact hedit.move (by decide)

/-- The two verdicts that finish a request differ in the first message only. -/
theorem finishedProcess_worksOn : WorksOn req p (p.finishedProcess req) := by
  have hhash : D.hashNoSignsAndNonce req.header = req.hash := req.hash_eq.symm
  have hend (q : VerifyProcess D State Tx Receipt) (hq : WorksOn req p q) :
      WorksOn req p { ((q.publish (.miningReq req.header)).publish
        (.posedReq req.header)).publish (.delVotes req.hash) with state := .done } := by
    have hsent : WorksOn req p (((q.publish (.miningReq req.header)).publish
        (.posedReq req.header)).publish (.delVotes req.hash)) := by
      refine WorksOn.publish (WorksOn.publish (WorksOn.publish hq ?_) ?_) rfl
      · exact hhash
      · exact hhash
    exact hsent.move (by decide)
  unfold finishedProcess
  split
  · exact .refl req p
  · exact .refl req p
  · rename_i hresult
    rw [if_pos hresult]
    exact hend _ ((WorksOn.refl req p).publish hhash)
  · rename_i hresult
    rw [if_neg (by rw [hresult]; decide)]
    exact hend p (.refl req p)

/-- The signatures that were counted are put into the header, which its hash does not cover. -/
theorem processDPOSOnce_worksOn : WorksOn req p (p.processDPOSOnce env req) := by
  unfold processDPOSOnce
  split_ifs
  · exact .refl req p
  · split
    · exact .refl req p
    · rename_i rightSigns _
      have hsame : req.SameProposal (req.setSignatures rightSigns) := ⟨rfl, rfl, rfl, rfl, rfl, rfl⟩
      exact ((WorksOn.refl req p).edit hsame).trans (finishedProcess_worksOn.of_sameProposal hsame)

/-- Before the counting of votes all stages behave alike. -/
theorem startDPOSVerify_worksOn : WorksOn req p (p.startDPOSVerify env req lvResult) := by
  have hsame : req.SameProposal { req with localVerifyResult := lvResult } :=
    ⟨rfl, rfl, rfl, rfl, rfl, rfl⟩
  have hcount (q : VerifyProcess D State Tx Receipt) (hq : WorksOn req p q) : WorksOn req p
      ({ q with
        curProcessReq := some { req with localVerifyResult := lvResult }
        state := .dposVerify }.processDPOSOnce env { req with localVerifyResult := lvResult }) :=
    WorksOn.trans ((hq.edit hsame).move (by decide)) (processDPOSOnce_worksOn.of_sameProposal hsame)
  have hstart : WorksOn req p
      (if p.role = .broadcast then p.bcFinishedProcess req lvResult
      else
        let q := if lvResult = .success then p.sendVote env req true else p
        let req' := { req with localVerifyResult := lvResult }
        { q with curProcessReq := some req', state := .dposVerify }.processDPOSOnce env req') := by
    split_ifs with hrole hsuccess
    · exact bcFinishedProcess_worksOn
    · exact hcount _ (sendVote_worksOn true)
    · exact hcount p (.refl req p)
  unfold startDPOSVerify
  cases p.state with
  | dposVerify => exact .refl req p
  | done => exact .refl req p
  | idle => exact hstart
  | start => exact hstart
  | reqVerify => exact hstart
  | txsVerify => exact hstart

variable {W : WorkChain Hash State Tx Receipt} {result : RetChan Tx}

theorem txsVerdict_sameProposal [DecidableEq Hash]
    (h : txsVerdict W req result = .ok (req', lvResult)) : req.SameProposal req' := by
  unfold txsVerdict at h
  split at h
  · cases h
    exact .refl req
  · dsimp only at h
    split at h
    · cases h
    · cases h
      exact ⟨rfl, rfl, rfl, rfl, rfl, rfl⟩
    · split at h
      · cases h
      · cases h
        exact ⟨rfl, rfl, rfl, rfl, rfl, rfl⟩
      · split_ifs at h
        · cases h
          exact ⟨rfl, rfl, rfl, rfl, rfl, rfl⟩
        · cases h
          exact ⟨rfl, rfl, rfl, rfl, rfl, rfl⟩

theorem verifyTxs_eq_ok [DecidableEq Hash] (h : p.verifyTxs W env result = .ok v) :
    v = p ∨ (p.state = .txsVerify ∧ result.resqe = p.txsAcquireSeq ∧
      ∃ req, p.curProcessReq = some req ∧ WorksOn req p v) := by
  obtain ⟨found, hfound, h⟩ := bind_eq_ok_iff.mp h
  unfold verdict at hfound
  split_ifs at hfound with hstate hseq
  · cases hfound
    cases h
    exact .inl rfl
  · cases hfound
    cases h
    exact .inl rfl
  · rcases hcur : p.curProcessReq with _ | req
    · rw [hcur] at hfound
      cases hfound
    · rw [hcur] at hfound
      dsimp only at hfound
      rcases hverdict : txsVerdict W req result with err | ⟨req', lvResult⟩
      · rw [hverdict] at hfound
        cases hfound
      · rw [hverdict] at hfound
        cases hfound
        cases h
        refine .inr ⟨not_not.mp hstate, not_not.mp hseq, req, rfl, ?_⟩
        exact startDPOSVerify_worksOn.of_sameProposal (txsVerdict_sameProposal hverdict)

end VerifyProcess

namespace BlkVerify
open Relation

structure SameProposals (reqs reqs' : List (ReqData D State Tx Receipt)) : Prop where
  length : reqs'.length = reqs.length
  same : ∀ (j : ℕ) (req : ReqData D State Tx Receipt), reqs[j]? = some req →
    ∃ req', reqs'[j]? = some req' ∧ req.SameProposal req'

theorem SameProposals.refl (reqs : List (ReqData D State Tx Receipt)) : SameProposals reqs reqs :=
  ⟨rfl, fun _ req hreq => ⟨req, hreq, .refl req⟩⟩

theorem SameProposals.trans {reqs reqs' reqs'' : List (ReqData D State Tx Receipt)}
    (h : SameProposals reqs reqs') (h' : SameProposals reqs' reqs'') : SameProposals reqs reqs'' := by
  refine ⟨h'.length.trans h.length, ?_⟩
  intro j req hreq
  obtain ⟨req', hreq', hsame⟩ := h.same j req hreq
  obtain ⟨req'', hreq'', hsame'⟩ := h'.same j req' hreq'
  exact ⟨req'', hreq'', hsame.trans hsame'⟩

theorem SameProposals.set {reqs : List (ReqData D State Tx Receipt)} {i : ℕ}
    {req req' : ReqData D State Tx Receipt} (hreq : reqs[i]? = some req)
    (hsame : req.SameProposal req') : SameProposals reqs (reqs.set i req') := by
  refine ⟨List.length_set, ?_⟩
  intro j old hold
  by_cases hj : j = i
  · subst hj
    rw [hreq, Option.some.injEq] at hold
    rw [← hold]
    exact ⟨req', List.getElem?_set_self (List.getElem?_eq_some_iff.mp hreq).1, hsame⟩
  · exact ⟨old, by rw [List.getElem?_set_ne (Ne.symm hj)]; exact hold, .refl old⟩

namespace Process
variable {w : World Hash} {p p' : Process D State Tx Receipt} {i : ℕ}
  {req : ReqData D State Tx Receipt}

theorem curReq_eq_ok (h : p.curReq = .ok (i, req)) :
    p.curProcessReq = some i ∧ p.reqs[i]? = some req := by
  unfold curReq at h
  split at h
  · cases h
  · rename_i j hj
    split at h
    · cases h
    · rename_i req' hreq
      cases h
      exact ⟨hj, hreq⟩

section Absorb
variable {v : VerifyProcess D State Tx Receipt}

theorem length_absorb (p : Process D State Tx Receipt) (v : VerifyProcess D State Tx Receipt) :
    (p.absorb v).reqs.length = p.reqs.length := by
  dsimp only [absorb]
  split
  · rw [List.length_set]
  · rfl

theorem reqs_absorb_of_ne (v : VerifyProcess D State Tx Receipt) (hcur : p.curProcessReq = some i)
    {j : ℕ} (hj : j ≠ i) : (p.absorb v).reqs[j]? = p.reqs[j]? := by
  dsimp only [absorb]
  rw [hcur]
  split
  · rename_i heq _
    cases heq
    exact List.getElem?_set_ne (Ne.symm hj)
  · rfl

theorem absorb_view (p : Process D State Tx Receipt) : p.absorb p.view = p := by
  have hreqs : (p.absorb p.view).reqs = p.reqs := by
    dsimp only [absorb, view]
    split
    · rename_i i req hcur hreq
      rw [hcur] at hreq
      obtain ⟨hi, rfl⟩ := List.getElem?_eq_some_iff.mp hreq
      exact List.set_getElem_self hi
    · rfl
  have hout : (p.absorb p.view).outbox = p.outbox :=
    List.append_nil _
  have heq : p.absorb p.view =
      { p with reqs := (p.absorb p.view).reqs, outbox := (p.absorb p.view).outbox } := rfl
  rw [heq, hreqs, hout]

end Absorb

section Moves

/-- What the handlers do to a process once a message has been taken note of. -/
inductive Moves (p : Process D State Tx Receipt) : Process D State Tx Receipt → Prop where
  | work {i : ℕ} {req : ReqData D State Tx Receipt} {v : VerifyProcess D State Tx Receipt}
      (hcur : p.curProcessReq = some i) (hreq : p.reqs[i]? = some req)
      (hworks : WorksOn req p.view v) : Moves p (p.absorb v)
  | acquire {i : ℕ} {req : ReqData D State Tx Receipt} (hcur : p.curProcessReq = some i) :
      Moves p { p with
        state := .txsVerify
        txsAcquireSeq := p.txsAcquireSeq+1
        acquisitions := p.acquisitions ++ [⟨p.txsAcquireSeq+1, i, req.txsCode, req.header.leader⟩] }
  | choose {i : ℕ} (hi : i < p.reqs.length) :
      Moves p { p with curProcessReq := some i, state := .reqVerify }
  | judge {reqs : List (ReqData D State Tx Receipt)} (hreqs : SameProposals p.reqs reqs) :
      Moves p { p with reqs := reqs }

variable {lvResult : LocalVerifyResult}

theorem startDPOSVerify_moves (h : p.startDPOSVerify w lvResult = .ok p') :
    ReflTransGen Moves p p' := by
  unfold startDPOSVerify at h
  split_ifs at h
  · cases h
    exact .refl
  · obtain ⟨⟨i, req⟩, hreq, h⟩ := bind_eq_ok_iff.mp h
    obtain ⟨hcur, hreq⟩ := curReq_eq_ok hreq
    cases h
    exact .single (.work hcur hreq startDPOSVerify_worksOn)

theorem processDPOSOnce_moves (h : p.processDPOSOnce w = .ok p') : ReflTransGen Moves p p' := by
  unfold processDPOSOnce at h
  split_ifs at h
  · cases h
    exact .refl
  · obtain ⟨⟨i, req⟩, hreq, h⟩ := bind_eq_ok_iff.mp h
    obtain ⟨hcur, hreq⟩ := curReq_eq_ok hreq
    cases h
    exact .single (.work hcur hreq processDPOSOnce_worksOn)

theorem bcFinishedProcess_moves (h : p.bcFinishedProcess lvResult = .ok p') :
    ReflTransGen Moves p p' := by
  obtain ⟨⟨i, req⟩, hreq, h⟩ := bind_eq_ok_iff.mp h
  obtain ⟨hcur, hreq⟩ := curReq_eq_ok hreq
  cases h
  exact .single (.work hcur hreq bcFinishedProcess_worksOn)

theorem startTxsVerify_moves (h : p.startTxsVerify = .ok p') : ReflTransGen Moves p p' := by
  unfold startTxsVerify at h
  split_ifs at h
  · cases h
    exact .refl
  · obtain ⟨⟨i, req⟩, hreq, h⟩ := bind_eq_ok_iff.mp h
    obtain ⟨hcur, -⟩ := curReq_eq_ok hreq
    cases h
    exact .single (.acquire hcur)

theorem processReqOnce_moves (h : p.processReqOnce w = .ok p') : ReflTransGen Moves p p' := by
  unfold processReqOnce at h
  split_ifs at h
  · cases h
    exact .refl
  · obtain ⟨⟨i, req⟩, hreq, h⟩ := bind_eq_ok_iff.mp h
    dsimp only at h
    split_ifs at h
    · exact startDPOSVerify_moves h
    · exact startDPOSVerify_moves h
    · exact startDPOSVerify_moves h
    · exact startDPOSVerify_moves h
    · exact startDPOSVerify_moves h
    · exact startTxsVerify_moves h

theorem getLeaderReq_lt {rc : ReqPointers} {reqs : List (ReqData D State Tx Receipt)}
    {leader : Address} {turn : UInt32} (h : rc.getLeaderReq reqs leader turn = .ok i) :
    i < reqs.length := by
  obtain ⟨-, h⟩ := ite_error_eq_ok.mp h
  split at h
  · cases h
  · split at h
    · cases h
    · rename_i req hreq
      obtain ⟨-, h⟩ := ite_error_eq_ok.mp h
      cases h
      exact (List.getElem?_eq_some_iff.mp hreq).1

theorem startReqVerifyCommon_moves (h : p.startReqVerifyCommon w = .ok p') :
    ReflTransGen Moves p p' := by
  unfold startReqVerifyCommon at h
  split_ifs at h
  · cases h
    exact .refl
  · cases h
    exact .refl
  · split at h
    · cases h
      exact .refl
    · rename_i i hi
      exact (ReflTransGen.single (.choose (getLeaderReq_lt hi))).trans (processReqOnce_moves h)

theorem bcProcessReqVerify_moves (h : p.bcProcessReqVerify w = .ok p') : ReflTransGen Moves p p' := by
  unfold bcProcessReqVerify at h
  split_ifs at h
  · cases h
    exact .refl
  · obtain ⟨⟨i, req⟩, hreq, h⟩ := bind_eq_ok_iff.mp h
    dsimp only at h
    split_ifs at h
    · exact bcFinishedProcess_moves h
    · exact startTxsVerify_moves h

/-- The requests change from one turn of the loop to the next. -/
theorem bcChoose_ok {pointers : List ℕ} {reqs reqs' : List (ReqData D State Tx Receipt)}
    {found : Option ℕ} (h : bcChoose w pointers reqs = .ok (reqs', found)) :
    SameProposals reqs reqs' ∧ ∀ i, found = some i → i < reqs'.length := by
  induction pointers generalizing reqs with
  | nil =>
    cases h
    exact ⟨.refl _, nofun⟩
  | cons i rest ih =>
    unfold bcChoose at h
    split at h
    · cases h
    · rename_i req hreq
      split_ifs at h
      · exact ih h
      · split at h
        · have hmark : req.SameProposal { req with localVerifyResult := .stateFailed } :=
            ⟨rfl, rfl, rfl, rfl, rfl, rfl⟩
          obtain ⟨hsame, hfound⟩ := ih h
          exact ⟨(SameProposals.set hreq hmark).trans hsame, hfound⟩
        · cases h
          refine ⟨.refl _, ?_⟩
          rintro j ⟨⟩
          exact (List.getElem?_eq_some_iff.mp hreq).1

theorem startReqVerifyBC_moves (h : p.startReqVerifyBC w = .ok p') : ReflTransGen Moves p p' := by
  unfold startReqVerifyBC at h
  split_ifs at h
  · cases h
    exact .refl
  · obtain ⟨⟨reqs, found⟩, hchoose, h⟩ := bind_eq_ok_iff.mp h
    obtain ⟨hsame, hfound⟩ := bcChoose_ok hchoose
    have hjudge : ReflTransGen Moves p { p with reqs := reqs } := .single (.judge hsame)
    cases found with
    | none =>
      cases h
      exact hjudge
    | some i =>
      exact (hjudge.tail (.choose (hfound i rfl))).trans (bcProcessReqVerify_moves h)

theorem startReqVerify_moves (h : p.startReqVerify w = .ok p') : ReflTransGen Moves p p' := by
  unfold startReqVerify at h
  split_ifs at h
  · exact startReqVerifyBC_moves h
  · exact startReqVerifyCommon_moves h
  · cases h
    exact .refl

theorem processTxsAcquireTimeOut_moves {seq : ℤ} (h : p.processTxsAcquireTimeOut w seq = .ok p') :
    ReflTransGen Moves p p' := by
  unfold processTxsAcquireTimeOut at h
  split_ifs at h
  · cases h
    exact .refl
  · cases h
    exact .refl
  · exact startDPOSVerify_moves h

theorem view_eq_some (h : p.view.curProcessReq = some req) :
    ∃ i, p.curProcessReq = some i ∧ p.reqs[i]? = some req :=
  Option.bind_eq_some_iff.mp h

theorem verifyTxs_moves [DecidableEq Hash] {W : WorkChain Hash State Tx Receipt} {result : RetChan Tx}
    (h : p.verifyTxs w W result = .ok p') : ReflTransGen Moves p p' := by
  obtain ⟨v, hv, h⟩ := bind_eq_ok_iff.mp h
  cases h
  rcases verifyTxs_eq_ok hv with rfl | ⟨-, -, req, hreq, hworks⟩
  · rw [absorb_view]
  · obtain ⟨i, hcur, hreq⟩ := view_eq_some hreq
    exact .single (.work hcur hreq hworks)

end Moves

section Takes

/-- What a handler does with its message before it goes on. -/
inductive Takes (w : World Hash) (p : Process D State Tx Receipt) :
    ProcessEvent Hash State Tx Receipt → Process D State Tx Receipt → Prop where
  | run (role : RoleType) : Takes w p (.startRunning role)
      { p with role := role, state := if p.state = .idle then .start else p.state }
  | close : Takes w p .close p.close
  | stop {info : LeaderChangeNotify} (hstop : info.consensusState = false) :
      Takes w p (.setLeaderInfo info)
        (stopProcess { p with leaderCache := { p.leaderCache with consensusState := false } })
  | knownLeader {info : LeaderChangeNotify} (hleader : info.consensusState = true)
      (hsame : p.leaderCache.leader = info.leader ∧
        p.leaderCache.consensusTurn = info.consensusTurn) :
      Takes w p (.setLeaderInfo info)
        { p with leaderCache := { p.leaderCache with consensusState := info.consensusState } }
  | newLeader {info : LeaderChangeNotify} (hleader : info.consensusState = true) :
      Takes w p (.setLeaderInfo info) (restart { p with
        leaderCache := { info with number := p.leaderCache.number }
        reqCache := p.reqCache.setCurTurn p.reqs w.leaderOrder info.consensusTurn })
  | refuse {req : BlkVerifyConsensusReq Hash} {err : GoError}
      (hrefused : p.reqCache.addReq p.reqs req = .error err) : Takes w p (.addReq req) p
  | request {req : BlkVerifyConsensusReq Hash} {rc : ReqPointers}
      (hadded : p.reqCache.addReq p.reqs req = .ok rc) : Takes w p (.addReq req)
        { p with reqCache := rc, reqs := p.reqs ++ [newReqDataOf D req] }
  | localRequest (localReq : LocalBlockVerifyConsensusReq Hash State Tx Receipt) :
      Takes w p (.addLocalReq localReq) { p with
        reqCache := p.reqCache.addLocalReq p.reqs localReq
        reqs := p.reqs ++ [newReqDataByLocalReq D localReq] }
  | vote : Takes w p .processDPOSOnce p
  | recover {header : Header Hash} (outbox : List (ProcessEffect Hash State Tx Receipt)) :
      Takes w p (.recovery header) { p with outbox := outbox }
  | result (result : RetChan Tx) : Takes w p (.txsResult result) p
  | timeOut (seq : ℤ) : Takes w p (.txsTimeOut seq) p

theorem setLeaderInfo_takes {info : LeaderChangeNotify} (h : p.setLeaderInfo w info = .ok p') :
    ∃ q, Takes w p (.setLeaderInfo info) q ∧ ReflTransGen Moves q p' := by
  unfold setLeaderInfo at h
  split_ifs at h with hstop hsame
  · cases h
    exact ⟨_, .stop hstop, .refl⟩
  · cases h
    exact ⟨_, .knownLeader (Bool.eq_true_of_not_eq_false hstop) hsame, .refl⟩
  · refine ⟨_, .newLeader (Bool.eq_true_of_not_eq_false hstop), ?_⟩
    dsimp only at h
    split_ifs at h
    · exact startReqVerifyCommon_moves h
    · cases h
      exact .refl

theorem step_takes [DecidableEq Hash] [Zero Hash] {W : WorkChain Hash State Tx Receipt}
    {event : ProcessEvent Hash State Tx Receipt} (h : p.step W (w,event) = .ok p') :
    ∃ q, Takes w p event q ∧ ReflTransGen Moves q p' := by
  cases event with
  | startRunning role => exact ⟨_, .run role, startReqVerify_moves h⟩
  | close =>
    cases h
    exact ⟨_, .close, .refl⟩
  | setLeaderInfo info => exact setLeaderInfo_takes h
  | addReq req =>
    dsimp only [step, handle, addReq] at h
    split at h
    · rename_i err hrefused
      cases h
      exact ⟨_, .refuse hrefused, .refl⟩
    · rename_i rc hadded
      exact ⟨_, .request hadded, startReqVerify_moves h⟩
  | addLocalReq localReq => exact ⟨_, .localRequest localReq, startReqVerify_moves h⟩
  | processDPOSOnce => exact ⟨_, .vote, processDPOSOnce_moves h⟩
  | recovery header =>
    dsimp only [step, handle, processRecoveryMsg] at h
    split at h
    · cases h
      exact ⟨_, .recover p.outbox, .refl⟩
    · exact ⟨_, .recover _, processDPOSOnce_moves h⟩
  | txsResult result => exact ⟨_, .result result, verifyTxs_moves h⟩
  | txsTimeOut seq => exact ⟨_, .timeOut seq, processTxsAcquireTimeOut_moves h⟩

end Takes

end Process

end BlkVerify

end MatrixNode
