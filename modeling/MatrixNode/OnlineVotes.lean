import MatrixNode.FinishedProposals

/-! One validator and its votes on one request. -/
namespace MatrixNode
open GoLib List

def DPosVoteRing.holds {Key : Type} [DecidableEq Key] {capacity : ℕ} (ring : DPosVoteRing Key capacity)
    (hash : Key) : Bool :=
  match ring.locate fun ds => ds.hasHash hash with
  | some i => (ring.slot i).proposal.isSome
  | none => false

theorem DPosVoteRing.addProposal_new {Key : Type} [DecidableEq Key] {capacity : ℕ}
    (ring : DPosVoteRing Key capacity) (hash : Key) (proposal : OnlineConsensusReq) :
    (ring.addProposal hash proposal).2 = !ring.holds hash := by
  unfold addProposal holds findProposal SlotRing.findOrTake
  cases ring.locate (fun ds => ds.hasHash hash) with
  | none => rfl
  | some i => rfl

def TopNodeEffect.ownVotes {Hash : Type} : TopNodeEffect Hash → List (OwnVote Hash)
  | .votes own => own
  | _ => []

namespace TopNodeService
variable {Hash : Type}

def sentVotes (serv : TopNodeService Hash) : List (OwnVote Hash) :=
  serv.outbox.flatMap TopNodeEffect.ownVotes

def madeVotes (serv : TopNodeService Hash) : List (OwnVote Hash) :=
  serv.sentVotes ++ serv.goroutines.flatMap Goroutine.votes

def OneOpinion (votes : List (OwnVote Hash)) : Prop :=
  ∀ v ∈ votes, ∀ w ∈ votes, v.vote.signHash = w.vote.signHash → v.validate = w.validate

variable {node : TopNode Hash} {serv serv' : TopNodeService Hash}

variable {v : OwnVote Hash}

theorem mem_madeVotes :
    v ∈ serv.madeVotes ↔ v ∈ serv.sentVotes ∨ ∃ g ∈ serv.goroutines, v ∈ g.votes := by
  unfold madeVotes
  rw [mem_append, mem_flatMap]

theorem madeVotes_spawn (todo : List (WorkItem Hash)) : (serv.spawn todo).madeVotes = serv.madeVotes := by
  unfold madeVotes spawn
  rw [flatMap_append, flatMap_singleton, append_nil]
  rfl

theorem sentVotes_send (e : TopNodeEffect Hash) :
    (serv.send e).sentVotes = serv.sentVotes ++ e.ownVotes := by
  unfold sentVotes send
  rw [flatMap_append, flatMap_singleton]

theorem sentVotes_congr (h : serv'.outbox = serv.outbox) : serv'.sentVotes = serv.sentVotes := by
  unfold sentVotes
  rw [h]

theorem consensusVotes_sentVotes (env : TopNodeEnv Hash) (proposal : Option OnlineConsensusReq)
    (votes : List DPosVoteInfo) :
    (serv.consensusVotes node env proposal votes).sentVotes = serv.sentVotes := by
  rcases consensusVotes_cases node serv env proposal votes with
    hsame | ⟨prop, first, rest, stateMap, -, -, -, -, hsent⟩
  · rw [hsame]
  · rw [hsent, sentVotes_send]
    exact append_nil _

variable (node serv) in
theorem leaderChangeNotifyHandler_votes (env : TopNodeEnv Hash) (leader : Address) :
    (serv.leaderChangeNotifyHandler node env leader).sentVotes = serv.sentVotes ∧
      ∀ g ∈ (serv.leaderChangeNotifyHandler node env leader).goroutines,
        g ∈ serv.goroutines ∨ g.votes = [] := by
  unfold leaderChangeNotifyHandler
  split_ifs
  · constructor
    · unfold checkTopNodeState sendRequest
      dsimp only
      split_ifs
      · rfl
      · rw [sentVotes_send]
        exact append_nil _
    · intro g hg
      rw [(checkTopNodeState_same env).goroutines] at hg
      exact Or.inl hg
  · refine ⟨rfl, ?_⟩
    intro g hg
    rcases mem_append.mp hg with hold | hnew
    · exact Or.inl hold
    · obtain ⟨i, -, rfl⟩ := mem_map.mp hnew
      exact Or.inr rfl

variable [DecidableEq Hash]

/-- The vote is one on the request at hand, which is of the round and not in the ring. -/
def VotedOn (node : TopNode Hash) (env : TopNodeEnv Hash) (serv : TopNodeService Hash)
    (w : WorkItem Hash) (v : OwnVote Hash) : Prop :=
  ∃ item, w = .request (some item) ∧ serv.msgCheck.checkRound item.seq = true ∧
    serv.dposRing.holds (node.reqHash item) = false ∧
    v.vote.signHash = node.reqHash item ∧ v.validate = opinion env item

variable {env : TopNodeEnv Hash}

theorem votedOn_of_mem_handleRequest {item : OnlineConsensusReq}
    (h : v ∈ (serv.handleRequest node env item).2) :
    VotedOn node env serv (.request (some item)) v := by
  rcases handleRequest_cases node serv env item with
    hsame | ⟨hround, msgCheck, votes, hentered, hvotes⟩
  · rw [hsame] at h
    cases h
  · rw [hentered] at h
    rcases hvotes with rfl | ⟨hnew, sign, rfl⟩
    · cases h
    · rw [mem_singleton.mp h]
      rw [DPosVoteRing.addProposal_new, Bool.not_eq_true'] at hnew
      exact ⟨item, rfl, hround, hnew, rfl, rfl⟩

variable {w : WorkItem Hash}

theorem work_votes {votes votes' : List (OwnVote Hash)} {first : List (WorkItem Hash)}
    (h : serv.work node env votes w = .ok (serv',first,votes')) :
    (∀ v ∈ serv'.sentVotes, v ∈ serv.sentVotes ∨ v ∈ votes) ∧
      (∀ g ∈ serv'.goroutines, g ∈ serv.goroutines ∨ g.votes = []) ∧
      ∀ v ∈ votes', v ∈ votes ∨ VotedOn node env serv w v := by
  cases w with
  | leaderChange leader =>
    cases h
    obtain ⟨hsent, hgo⟩ := leaderChangeNotifyHandler_votes node serv env leader
    refine ⟨?_, hgo, fun v hv => Or.inl hv⟩
    rw [hsent]
    exact fun v hv => Or.inl hv
  | request item =>
    cases item with
    | none => cases h
    | some item =>
      obtain ⟨-, -, hout, hgo⟩ := handleRequest_frame node serv env item
      change Except.ok ((serv.handleRequest node env item).1,[],
        votes ++ (serv.handleRequest node env item).2) = _ at h
      cases h
      refine ⟨?_, ?_, ?_⟩
      · rw [sentVotes_congr hout]
        exact fun v hv => Or.inl hv
      · rw [hgo]
        exact fun g hg => Or.inl hg
      · intro v hv
        rcases mem_append.mp hv with hold | hnew
        · exact Or.inl hold
        · exact Or.inr (votedOn_of_mem_handleRequest hnew)
  | sendVotes =>
    cases h
    refine ⟨?_, fun g hg => Or.inl hg, fun v hv => Or.inl hv⟩
    rw [sentVotes_send]
    exact fun v hv => mem_append.mp hv
  | vote item cell =>
    cases h
    exact ⟨fun v hv => Or.inl hv, fun g hg => Or.inl hg, fun v hv => Or.inl hv⟩
  | count proposal counted =>
    cases h
    refine ⟨?_, ?_, fun v hv => Or.inl hv⟩
    · rw [consensusVotes_sentVotes]
      exact fun v hv => Or.inl hv
    · rw [(consensusVotes_same node serv env proposal counted).goroutines]
      exact fun g hg => Or.inl hg

theorem madeVotes_go {i : ℕ} {g : Goroutine Hash} {todo first : List (WorkItem Hash)}
    {votes : List (OwnVote Hash)} (hg : serv.goroutines[i]? = some g)
    (hwork : serv.work node env g.votes w = .ok (serv',first,votes))
    (hv : v ∈ madeVotes { serv' with goroutines := serv'.goroutines.set i ⟨first ++ todo, votes⟩ }) :
    v ∈ serv.madeVotes ∨ VotedOn node env serv w v := by
  have hmem : g ∈ serv.goroutines := mem_of_getElem? hg
  have hown : v ∈ g.votes → v ∈ serv.madeVotes := fun h => mem_madeVotes.mpr (Or.inr ⟨g, hmem, h⟩)
  obtain ⟨hsent, hgo, hvotes⟩ := work_votes hwork
  rcases mem_madeVotes.mp hv with hs | ⟨g', hg', hv'⟩
  · left
    rcases hsent v hs with hold | hg
    · exact mem_madeVotes.mpr (Or.inl hold)
    · exact hown hg
  · rcases mem_or_eq_of_mem_set hg' with hother | rfl
    · left
      rcases hgo g' hother with hold | hempty
      · exact mem_madeVotes.mpr (Or.inr ⟨g', hold, hv'⟩)
      · rw [hempty] at hv'
        cases hv'
    · rcases hvotes v hv' with hold | hnew
      · exact Or.inl (hown hold)
      · exact Or.inr hnew

/-- When a request of the round is handled that the node has voted on, the ring still holds it or
the node still thinks of it as it did. -/
def RequestsKept (node : TopNode Hash) (serv : TopNodeService Hash)
    (input : TopNodeEvent Hash) : Prop :=
  match input.2 with
  | .go i =>
    match serv.nextWork i with
    | some (.request (some item)) => serv.msgCheck.checkRound item.seq = true →
        ∀ v ∈ serv.madeVotes, v.vote.signHash = node.reqHash item →
          serv.dposRing.holds (node.reqHash item) = true ∨ v.validate = opinion input.1 item
    | _ => True
  | _ => True

theorem VotedOn.agrees_made {i : ℕ} {v' : OwnVote Hash} (h : VotedOn node env serv w v)
    (hnext : serv.nextWork i = some w) (hkept : RequestsKept node serv (env,.go i))
    (hv' : v' ∈ serv.madeVotes) (hhash : v'.vote.signHash = v.vote.signHash) :
    v'.validate = v.validate := by
  obtain ⟨item, rfl, hround, hnot, hsign, hopinion⟩ := h
  simp only [RequestsKept, hnext] at hkept
  rcases hkept hround v' hv' (hhash.trans hsign) with hheld | hsame
  · rw [hnot] at hheld
    cases hheld
  · rw [hsame, hopinion]

theorem VotedOn.agrees {v' : OwnVote Hash} (h : VotedOn node env serv w v)
    (h' : VotedOn node env serv w v') : v'.validate = v.validate := by
  obtain ⟨item, rfl, -, -, -, hopinion⟩ := h
  obtain ⟨item', hw, -, -, -, hopinion'⟩ := h'
  cases hw
  rw [hopinion, hopinion']

/-- Two votes for one hash: both are old, one is new and meets an old one, or both are new. -/
theorem step_oneOpinion {input : TopNodeEvent Hash}
    (h : OneOpinion serv.madeVotes) (hkept : RequestsKept node serv input)
    (hstep : serv.step node input = .ok serv') : OneOpinion serv'.madeVotes := by
  obtain ⟨env, i⟩ := input
  have hcase : StepOf node serv serv' env i := stepOf_of_step hstep
  cases hcase with
  | quiet msgCheck stateMap hs =>
    subst hs
    exact h
  | leaderChange msg msgCheck hs =>
    subst hs
    rw [madeVotes_spawn]
    exact h
  | requests reqs hs =>
    subst hs
    rw [madeVotes_spawn]
    exact h
  | votes votes _ hs =>
    subst hs
    rw [madeVotes_spawn]
    exact h
  | go i g w todo first serv₁ votes hg htodo hwork hs =>
    subst hs
    have hnext : serv.nextWork i = some w := by simp [nextWork, hg, htodo]
    intro v hv v' hv' hhash
    rcases madeVotes_go hg hwork hv with hold | hnew
    · rcases madeVotes_go hg hwork hv' with hold' | hnew'
      · exact h v hold v' hold' hhash
      · exact hnew'.agrees_made hnext hkept hold hhash
    · rcases madeVotes_go hg hwork hv' with hold' | hnew'
      · exact (hnew.agrees_made hnext hkept hold' hhash.symm).symm
      · exact hnew'.agrees hnew

/-- If requests that come again are held, or meet the same opinion, no two opinions are sent for one
request. -/
theorem run_oneOpinion [Zero Hash] (node : TopNode Hash) (inputs : List (TopNodeEvent Hash))
    (hkept : EachBefore (step node) (RequestsKept node) newTopNodeService inputs)
    (hrun : run (step node) newTopNodeService inputs = .ok serv) : OneOpinion serv.sentVotes := by
  have hinit : OneOpinion (newTopNodeService : TopNodeService Hash).madeVotes := by
    intro v hv
    cases hv
  have hend := run_preserves_of_eachBefore
    (fun s i s' hs hi hstep => step_oneOpinion hs hi hstep) hinit hkept hrun
  intro v hv w hw
  exact hend v (mem_madeVotes.mpr (Or.inl hv)) w (mem_madeVotes.mpr (Or.inl hw))

instance (node : TopNode Hash) (serv : TopNodeService Hash) :
    (input : TopNodeEvent Hash) → Decidable (RequestsKept node serv input)
  | (env,.go i) => by
    unfold RequestsKept
    dsimp only
    generalize serv.nextWork i = work
    rcases work with _ | (_ | (_ | item) | _ | _ | _)
    case some.request.some => infer_instance
    all_goals exact inferInstanceAs (Decidable True)
  | (_,.leaderChange _) | (_,.requests _) | (_,.votes _) | (_,.setElectNodes _)
  | (_,.modifyTopNodeState _ _) => inferInstanceAs (Decidable True)

def nodeFive (entry : UInt8) : TopNodeEnv ProposalHash :=
  { sampleTopEnv with onlineStates := [⟨5, Vector.replicate 30 entry⟩] }

def otherRequests : List (Option OnlineConsensusReq) :=
  (range 64).map fun k => some ⟨BitVec.ofNat 160 (100+k), 1000, 6, onLine⟩

/-- The request about node 5 is handled while that is online, pushed out of the ring by others, and
handled again when node 5 is no longer online. -/
def evictingInputs : List (TopNodeEvent ProposalHash) :=
  [(nodeFive 1,.requests [some sampleProposal]), (nodeFive 1,.go 0), (nodeFive 1,.go 0),
    (nodeFive 1,.requests otherRequests)] ++ replicate 64 (nodeFive 1,.go 1) ++
  [(nodeFive 0,.requests [some sampleProposal]), (nodeFive 0,.go 2), (nodeFive 0,.go 2)]

theorem evicted_request_two_opinions :
    Function.Injective sampleTopNode.reqHash ∧ ∃ serv,
      run (step sampleTopNode) newTopNodeService evictingInputs = .ok serv ∧
      serv.sentVotes.map (fun v => (v.vote.signHash,v.validate)) =
        [(some sampleProposal,true),(some sampleProposal,false)] ∧
      ¬ OneOpinion serv.sentVotes := by
  refine ⟨fun _ _ h => Option.some.inj h, ?_⟩
  have hend : (run (step sampleTopNode) newTopNodeService evictingInputs).toOption.map
      (fun serv => serv.sentVotes.map fun v => (v.vote.signHash,v.validate)) =
      some [(some sampleProposal,true),(some sampleProposal,false)] := by
    decide +kernel
  obtain ⟨serv, hrun, hsent⟩ := exists_ok_of_map_toOption hend
  refine ⟨serv, hrun, hsent, ?_⟩
  intro hone
  obtain ⟨v, hv, hv'⟩ := mem_map.mp (hsent ▸ mem_cons_self :
    (some sampleProposal,true) ∈ serv.sentVotes.map fun v => (v.vote.signHash,v.validate))
  obtain ⟨w, hw, hw'⟩ := mem_map.mp (hsent ▸ mem_cons_of_mem _ mem_cons_self :
    (some sampleProposal,false) ∈ serv.sentVotes.map fun v => (v.vote.signHash,v.validate))
  simp only [Prod.mk.injEq] at hv' hw'
  have hsame := hone v hv w hw (hv'.1.trans hw'.1.symm)
  rw [hv'.2, hw'.2] at hsame
  cases hsame

/-- A request that comes again at once is held, whatever the table shows by then. -/
theorem run_oneOpinion_held :
    ∃ serv, run (step sampleTopNode) newTopNodeService
        [(nodeFive 1,.requests [some sampleProposal]), (nodeFive 1,.go 0), (nodeFive 1,.go 0),
          (nodeFive 0,.requests [some sampleProposal]), (nodeFive 0,.go 1), (nodeFive 0,.go 1)] =
          .ok serv ∧
      serv.sentVotes.length = 1 ∧ OneOpinion serv.sentVotes := by
  have hend : (run (step sampleTopNode) newTopNodeService
      [(nodeFive 1,.requests [some sampleProposal]), (nodeFive 1,.go 0), (nodeFive 1,.go 0),
        (nodeFive 0,.requests [some sampleProposal]), (nodeFive 0,.go 1),
        (nodeFive 0,.go 1)]).toOption.map (fun serv => serv.sentVotes.length) = some 1 := by
    decide +kernel
  obtain ⟨serv, hrun, hlength⟩ := exists_ok_of_map_toOption hend
  exact ⟨serv, hrun, hlength, run_oneOpinion sampleTopNode _ (by decide +kernel) hrun⟩

end TopNodeService

end MatrixNode
