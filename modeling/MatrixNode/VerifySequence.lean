import MatrixNode.VerifyMoves

/-! Which request a transaction result is for. -/
namespace MatrixNode
open GoLib List

def VerifyState.working : VerifyState → Bool
  | .idle | .start => false
  | .reqVerify | .txsVerify | .dposVerify | .done => true

namespace BlkVerify
open Relation

variable {Hash State Tx Receipt : Type} {D : DposEngine Hash}

def ProcessEvent.acquireSeq : ProcessEvent Hash State Tx Receipt → Option ℤ
  | .txsResult result => some result.resqe
  | .txsTimeOut seq => some seq
  | _ => none

namespace Process
variable {w : World Hash} {p p' : Process D State Tx Receipt} {i : ℕ}
  {req : ReqData D State Tx Receipt}

/-- What holds of a process whatever is delivered to it. -/
structure Sound (p : Process D State Tx Receipt) : Prop where
  cached : ∀ a i, p.reqCache.leaderReqCache.lookup a = some i → i < p.reqs.length
  passedOn : ∀ i ∈ p.reqCache.otherReqCache, i < p.reqs.length
  current : ∀ i, p.curProcessReq = some i → i < p.reqs.length
  working : p.state.working = true → p.curProcessReq ≠ none
  seq : p.txsAcquireSeq = p.acquisitions.length
  numbered : ∀ (k : ℕ) e, p.acquisitions[k]? = some e → e.seq = k+1
  acquiring : p.state = .txsVerify →
    ∃ e, p.acquisitions.getLast? = some e ∧ p.curProcessReq = some e.req

theorem sound_newProcess (number : ℕ) : Sound (newProcess D State Tx Receipt number) := by
  constructor <;> intros <;> simp_all [newProcess, VerifyState.working]

section Handlers

/-- The acquisition that is started is the one with the highest number. -/
theorem Sound.moves (hp : Sound p) (h : Moves p p') : Sound p' := by
  cases h with
  | @work i req v hcur hreq hworks =>
    have hlen := length_absorb p v
    refine ⟨?_, ?_, ?_, ?_, hp.seq, hp.numbered, fun htxs => hp.acquiring (hworks.noReturn htxs)⟩
    · intro a j hj
      rw [hlen]
      exact hp.cached a j hj
    · intro j hj
      rw [hlen]
      exact hp.passedOn j hj
    · intro j hj
      rw [hlen]
      exact hp.current j hj
    · intro _ hnone
      rw [show (p.absorb v).curProcessReq = p.curProcessReq from rfl, hcur] at hnone
      cases hnone
  | @acquire i req hcur =>
    refine ⟨hp.cached, hp.passedOn, hp.current, ?_, ?_, ?_, ?_⟩
    · intro _ hnone
      rw [hcur] at hnone
      cases hnone
    · rw [length_append, length_singleton, Nat.cast_add, ← hp.seq, Nat.cast_one]
    · intro k e he
      rcases Nat.lt_or_ge k p.acquisitions.length with hk | hk
      · rw [List.getElem?_append_left hk] at he
        exact hp.numbered k e he
      · have hlt := (List.getElem?_eq_some_iff.mp he).1
        rw [length_append, length_singleton] at hlt
        obtain rfl : k = p.acquisitions.length := by omega
        rw [List.getElem?_concat_length] at he
        cases he
        rw [hp.seq]
    · intro _
      exact ⟨_, getLast?_concat, hcur⟩
  | choose hi =>
    refine ⟨hp.cached, hp.passedOn, ?_, nofun, hp.seq, hp.numbered, nofun⟩
    rintro j ⟨⟩
    exact hi
  | judge hreqs =>
    refine ⟨?_, ?_, ?_, hp.working, hp.seq, hp.numbered, hp.acquiring⟩
    · intro a i hi
      exact (hp.cached a i hi).trans_eq hreqs.length.symm
    · intro i hi
      exact (hp.passedOn i hi).trans_eq hreqs.length.symm
    · intro i hi
      exact (hp.current i hi).trans_eq hreqs.length.symm

theorem Sound.reflTransGen (hp : Sound p) (h : ReflTransGen Moves p p') : Sound p' := by
  induction h with
  | refl => exact hp
  | tail _ hlast ih => exact ih.moves hlast

theorem restart_state (p : Process D State Tx Receipt) :
    p.restart.state = .idle ∨ p.restart.state = .start := by
  dsimp only [restart]
  split_ifs
  · exact .inl rfl
  · exact .inr rfl

theorem Sound.restart (hp : Sound p) : Sound p.restart := by
  refine ⟨hp.cached, hp.passedOn, nofun, ?_, hp.seq, hp.numbered, ?_⟩
  · intro hworking
    rcases restart_state p with hstate | hstate
    · rw [hstate] at hworking
      cases hworking
    · rw [hstate] at hworking
      cases hworking
  · intro htxs
    rcases restart_state p with hstate | hstate
    · rw [hstate] at htxs
      cases htxs
    · rw [hstate] at htxs
      cases htxs

theorem Sound.setLeaderCache (hp : Sound p) (info : LeaderChangeNotify) :
    Sound { p with leaderCache := info } :=
  ⟨hp.cached, hp.passedOn, hp.current, hp.working, hp.seq, hp.numbered, hp.acquiring⟩

theorem Sound.setCurTurn (hp : Sound p) (order : GoMap.Ranger Address ℕ) (turn : UInt32) :
    Sound { p with reqCache := p.reqCache.setCurTurn p.reqs order turn } := by
  unfold ReqPointers.setCurTurn
  split_ifs
  · exact hp
  · refine ⟨?_, ?_, hp.current, hp.working, hp.seq, hp.numbered, hp.acquiring⟩
    · intro a i hi
      rw [GoMap.lookup_deleteWhere, Option.filter_eq_some_iff] at hi
      exact hp.cached a i hi.1
    · intro i hi
      exact hp.passedOn i (mem_filter.mp hi).1

theorem Sound.make (hp : Sound p) (req : ReqData D State Tx Receipt) {rc : ReqPointers}
    (hleader : ∀ a i, rc.leaderReqCache.lookup a = some i →
      p.reqCache.leaderReqCache.lookup a = some i ∨ i = p.reqs.length)
    (hother : ∀ i ∈ rc.otherReqCache, i ∈ p.reqCache.otherReqCache ∨ i = p.reqs.length) :
    Sound { p with reqCache := rc, reqs := p.reqs ++ [req] } := by
  have hlen : (p.reqs ++ [req]).length = p.reqs.length+1 := by
    rw [length_append, length_singleton]
  refine ⟨?_, ?_, ?_, hp.working, hp.seq, hp.numbered, hp.acquiring⟩
  · intro a i hi
    rw [hlen]
    rcases hleader a i hi with hold | rfl
    · exact (hp.cached a i hold).trans (Nat.lt_succ_self _)
    · exact Nat.lt_succ_self _
  · intro i hi
    rw [hlen]
    rcases hother i hi with hold | rfl
    · exact (hp.passedOn i hold).trans (Nat.lt_succ_self _)
    · exact Nat.lt_succ_self _
  · intro i hi
    rw [hlen]
    exact (hp.current i hi).trans (Nat.lt_succ_self _)

theorem addReq_pointers {rc rc' : ReqPointers} {reqs : List (ReqData D State Tx Receipt)}
    {msg : BlkVerifyConsensusReq Hash} (h : rc.addReq reqs msg = .ok rc') :
    (∀ a i, rc'.leaderReqCache.lookup a = some i →
      rc.leaderReqCache.lookup a = some i ∨ i = reqs.length) ∧
    ∀ i ∈ rc'.otherReqCache, i ∈ rc.otherReqCache ∨ i = reqs.length := by
  obtain ⟨-, h⟩ := ite_error_eq_ok.mp h
  split_ifs at h
  · cases h
    refine ⟨?_, fun i hi => .inl hi⟩
    intro a i hi
    rcases GoMap.lookup_insert_cases hi with ⟨-, rfl⟩ | ⟨-, hold⟩
    · exact .inr rfl
    · exact .inl hold
  · cases h
    refine ⟨fun a i hi => .inl hi, ?_⟩
    intro i hi
    rcases mem_append.mp hi with hi | hi
    · exact .inl (mem_of_mem_tail hi)
    · exact .inr (mem_singleton.mp hi)
  · cases h
    refine ⟨fun a i hi => .inl hi, ?_⟩
    intro i hi
    rcases mem_append.mp hi with hi | hi
    · exact .inl hi
    · exact .inr (mem_singleton.mp hi)

/-- An idle process is started, which is not yet work. -/
theorem Sound.takes (hp : Sound p) {event : ProcessEvent Hash State Tx Receipt}
    (h : Takes w p event p') : Sound p' := by
  cases h with
  | run role =>
    refine ⟨hp.cached, hp.passedOn, hp.current, ?_, hp.seq, hp.numbered, ?_⟩
    · intro hworking
      split_ifs at hworking
      · cases hworking
      · exact hp.working hworking
    · intro htxs
      split_ifs at htxs
      exact hp.acquiring htxs
  | close => exact ⟨hp.cached, hp.passedOn, nofun, nofun, hp.seq, hp.numbered, nofun⟩
  | stop => exact ((hp.setLeaderCache _).setLeaderCache _).restart
  | knownLeader => exact hp.setLeaderCache _
  | newLeader => exact ((hp.setCurTurn w.leaderOrder _).setLeaderCache _).restart
  | refuse => exact hp
  | request hadded =>
    obtain ⟨hleader, hother⟩ := addReq_pointers hadded
    exact hp.make _ hleader hother
  | localRequest localReq =>
    refine hp.make _ ?_ (fun i hi => .inl hi)
    intro a i hi
    rcases GoMap.lookup_insert_cases hi with ⟨-, rfl⟩ | ⟨-, hold⟩
    · exact .inr rfl
    · exact .inl hold
  | vote => exact hp
  | recover outbox =>
    exact ⟨hp.cached, hp.passedOn, hp.current, hp.working, hp.seq, hp.numbered, hp.acquiring⟩
  | result => exact hp
  | timeOut => exact hp

theorem Sound.step [DecidableEq Hash] [Zero Hash] {W : WorkChain Hash State Tx Receipt}
    {input : World Hash × ProcessEvent Hash State Tx Receipt} (hp : Sound p)
    (h : p.step W input = .ok p') : Sound p' := by
  obtain ⟨q, htakes, hmoves⟩ := step_takes h
  exact (hp.takes htakes).reflTransGen hmoves

end Handlers

section Acquisitions

def HasRequest (p : Process D State Tx Receipt) : Prop :=
  p.state.working = true → ∃ i req, p.curProcessReq = some i ∧ p.reqs[i]? = some req

/-- The acquisition `e` is the only one with the number. -/
def Started (p : Process D State Tx Receipt) (seq : ℤ) (e : TxsAcquire) : Prop :=
  e ∈ p.acquisitions ∧ e.seq = seq ∧ ∀ e' ∈ p.acquisitions, e'.seq = seq → e' = e

/-- A step that concerns the request of one acquisition: it is the current one, no other request is
written to, and what is sent is about its block. -/
structure ActsOn (e : TxsAcquire) (p p' : Process D State Tx Receipt) : Prop where
  waiting : p.state = .txsVerify
  current : p.curProcessReq = some e.req
  frame : p' = { p with state := p'.state, reqs := p'.reqs, outbox := p'.outbox }
  others : ∀ j, j ≠ e.req → p'.reqs[j]? = p.reqs[j]?
  sent : ∃ req, ∃ sent : List (VerifyEffect Hash State Tx Receipt), p.reqs[e.req]? = some req ∧
    p'.outbox = p.outbox ++ sent.map .effect ∧ ∀ x ∈ sent, x.about D = req.hash

def OnItsRequest (p : Process D State Tx Receipt)
    (input : World Hash × ProcessEvent Hash State Tx Receipt) (p' : Process D State Tx Receipt) :
    Prop :=
  ∀ seq, input.2.acquireSeq = some seq → p' = p ∨ ∃ e, p.Started seq e ∧ ActsOn e p p'

theorem Sound.hasRequest (hp : Sound p) : HasRequest p := by
  intro hworking
  obtain ⟨i, hi⟩ := Option.ne_none_iff_exists'.mp (hp.working hworking)
  exact ⟨i, _, hi, List.getElem?_eq_getElem (hp.current i hi)⟩

/-- The numbers count the acquisitions, so that the last number is that of the last one. -/
theorem Sound.started (hp : Sound p) (hstate : p.state = .txsVerify) :
    ∃ e, p.Started p.txsAcquireSeq e ∧ p.curProcessReq = some e.req := by
  obtain ⟨e, hlast, hcur⟩ := hp.acquiring hstate
  have hindex : p.acquisitions[p.acquisitions.length-1]? = some e := by
    rw [← getLast?_eq_getElem?]
    exact hlast
  have hpos : 0 < p.acquisitions.length := length_pos_of_mem (mem_of_getLast? hlast)
  have hseq := hp.numbered _ e hindex
  refine ⟨e, ⟨mem_of_getLast? hlast, ?_, ?_⟩, hcur⟩
  · rw [hseq, hp.seq]
    omega
  · intro e' he' hsame
    obtain ⟨k, hk⟩ := mem_iff_getElem?.mp he'
    have hkseq := hp.numbered k e' hk
    have hlen := hp.seq
    obtain rfl : k = p.acquisitions.length-1 := by omega
    rw [hindex] at hk
    cases hk
    rfl

theorem actsOn_absorb {e : TxsAcquire} {v : VerifyProcess D State Tx Receipt}
    (hstate : p.state = .txsVerify) (hcur : p.curProcessReq = some e.req)
    (hreq : p.reqs[e.req]? = some req) (hworks : VerifyProcess.WorksOn req p.view v) :
    ActsOn e p (p.absorb v) := by
  refine ⟨hstate, hcur, rfl, fun j hj => reqs_absorb_of_ne v hcur hj, req, v.outbox, hreq, rfl, ?_⟩
  intro x hx
  exact (hworks.sends x hx).resolve_left not_mem_nil

/-- The number is the current one, so it is that of the request the process waits for. -/
theorem Sound.onItsRequest [DecidableEq Hash] [Zero Hash] {W : WorkChain Hash State Tx Receipt}
    {input : World Hash × ProcessEvent Hash State Tx Receipt} (hp : Sound p)
    (h : p.step W input = .ok p') : OnItsRequest p input p' := by
  obtain ⟨w, event⟩ := input
  intro seq hseq
  cases event with
  | txsResult result =>
    cases hseq
    obtain ⟨v, hv, h⟩ := bind_eq_ok_iff.mp h
    cases h
    rcases VerifyProcess.verifyTxs_eq_ok hv with rfl | ⟨hstate, hresqe, req, hreq, hworks⟩
    · exact .inl (absorb_view p)
    · obtain ⟨e, hstarted, hcur⟩ := hp.started hstate
      obtain ⟨i, hi, hreq⟩ := view_eq_some hreq
      rw [hcur] at hi
      cases hi
      rw [hresqe]
      exact .inr ⟨e, hstarted, actsOn_absorb hstate hcur hreq hworks⟩
  | txsTimeOut seq =>
    cases hseq
    dsimp only [Process.step, handle, Process.processTxsAcquireTimeOut] at h
    split_ifs at h with hsame hstate
    · cases h
      exact .inl rfl
    · cases h
      exact .inl rfl
    · have hsame := not_not.mp hsame
      have hstate := not_not.mp hstate
      obtain ⟨e, hstarted, hcur⟩ := hp.started hstate
      unfold Process.startDPOSVerify at h
      rw [if_neg (by rw [hstate]; decide)] at h
      obtain ⟨⟨i, req⟩, hreq, h⟩ := bind_eq_ok_iff.mp h
      obtain ⟨hi, hreq⟩ := curReq_eq_ok hreq
      cases h
      rw [hcur] at hi
      cases hi
      rw [hsame]
      exact .inr ⟨e, hstarted, actsOn_absorb hstate hcur hreq VerifyProcess.startDPOSVerify_worksOn⟩
  | _ => cases hseq

/-- Past the start there is always a current request, and a result or a timeout of another
acquisition is ignored. -/
theorem requests_and_results_match [DecidableEq Hash] [Zero Hash] (D : DposEngine Hash)
    (W : WorkChain Hash State Tx Receipt) (number : ℕ)
    (inputs : List (World Hash × ProcessEvent Hash State Tx Receipt)) :
    HasRequest (newProcess D State Tx Receipt number) ∧
    EachStep (step W) (fun p input p' => HasRequest p' ∧ OnItsRequest p input p')
      (newProcess D State Tx Receipt number) inputs := by
  have hstart : Sound (newProcess D State Tx Receipt number) := sound_newProcess number
  have hstep : ∀ (p : Process D State Tx Receipt) input p', True → Sound p →
      p.step W input = .ok p' → Sound p' := fun p input p' _ hp h => hp.step h
  refine ⟨hstart.hasRequest, eachStep_of_preserves hstep ?_ (fun _ _ => trivial) hstart⟩
  intro p input p' _ hp h
  exact ⟨(hp.step h).hasRequest, hp.onItsRequest h⟩

end Acquisitions

end Process

end BlkVerify

end MatrixNode
