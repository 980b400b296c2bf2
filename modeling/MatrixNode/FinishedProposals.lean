import MatrixNode.TopNodeService

/-! When a proposal is recorded as finished. -/
namespace MatrixNode
open GoLib Function List

namespace DPosVoteRing
variable {Key : Type} [DecidableEq Key] {capacity : ℕ} {P : DPosVoteState Key → Prop}
  {ring : DPosVoteRing Key capacity} {hash : Key}

variable (ring hash) in
theorem findProposal_hash : ((ring.findProposal hash).1.slot (ring.findProposal hash).2.1).hash =
    hash := by
  have hfound := SlotRing.found_findOrTake ring (fun ds => ds.hasHash hash) (.cleared hash)
    (decide_eq_true rfl)
  exact of_decide_eq_true hfound

theorem all_put_findProposal (h : ring.All P) (hclear : P (.cleared hash))
    {f : DPosVoteState Key → DPosVoteState Key} (hf : ∀ ds, P ds → ds.hash = hash → P (f ds)) :
    ((ring.findProposal hash).1.put (ring.findProposal hash).2.1
      (f ((ring.findProposal hash).1.slot (ring.findProposal hash).2.1))).All P := by
  have hall : (ring.findProposal hash).1.All P := h.findOrTake hclear
  exact hall.put (hf _ (hall _) (findProposal_hash ring hash)) _

end DPosVoteRing

namespace TopNodeService
variable {Hash : Type} (node : TopNode Hash)

/-- A stored vote shows a vote for the hash, now and after the rest of its message: `hashOf` is the
hash that all votes of a message are for. -/
def Shows (hashOf : ℕ → Hash) (serv : TopNodeService Hash) (hash : Hash) (v : DPosVoteInfo) : Prop :=
  v.data < serv.nextCell ∧ hashOf v.data = hash ∧ (serv.cells v.data).signHash = hash

def SlotOk (hashOf : ℕ → Hash) (serv : TopNodeService Hash) (ds : DPosVoteState Hash) : Prop :=
  (∀ prop, ds.proposal = some prop → node.reqHash prop = ds.hash) ∧
    ∀ v ∈ ds.affirmativeVotes, Shows hashOf serv ds.hash v

def WorkOk (hashOf : ℕ → Hash) (serv : TopNodeService Hash) : WorkItem Hash → Prop
  | .vote item cell => cell < serv.nextCell ∧ item.signHash = hashOf cell
  | .count (some prop) votes => ∀ v ∈ votes, Shows hashOf serv (node.reqHash prop) v
  | _ => True

structure CellInv (hashOf : ℕ → Hash) (serv : TopNodeService Hash) : Prop where
  slots : serv.dposRing.All (SlotOk node hashOf serv)
  work : ∀ g ∈ serv.goroutines, ∀ w ∈ g.todo, WorkOk node hashOf serv w

/-- Variables are only added or written with votes for their hash. -/
structure CellsGrow (hashOf hashOf' : ℕ → Hash) (serv serv' : TopNodeService Hash) : Prop where
  next : serv.nextCell ≤ serv'.nextCell
  hashes : ∀ cell < serv.nextCell, hashOf' cell = hashOf cell
  cells : ∀ cell < serv.nextCell, serv'.cells cell = serv.cells cell ∨
    (serv'.cells cell).signHash = hashOf cell

variable {node} {hashOf hashOf' : ℕ → Hash} {serv serv' : TopNodeService Hash}

variable {hash : Hash}

theorem Shows.grow (hgrow : CellsGrow hashOf hashOf' serv serv') {v : DPosVoteInfo}
    (h : Shows hashOf serv hash v) : Shows hashOf' serv' hash v := by
  obtain ⟨hlt, hhash, hcell⟩ := h
  refine ⟨hlt.trans_le hgrow.next, ?_, ?_⟩
  · rw [hgrow.hashes _ hlt]
    exact hhash
  · rcases hgrow.cells _ hlt with hsame | hwritten
    · rw [hsame]
      exact hcell
    · exact hwritten.trans hhash

theorem SlotOk.grow (hgrow : CellsGrow hashOf hashOf' serv serv') {ds : DPosVoteState Hash}
    (h : SlotOk node hashOf serv ds) : SlotOk node hashOf' serv' ds :=
  ⟨h.1, fun v hv => (h.2 v hv).grow hgrow⟩

theorem WorkOk.grow (hgrow : CellsGrow hashOf hashOf' serv serv') {w : WorkItem Hash}
    (h : WorkOk node hashOf serv w) : WorkOk node hashOf' serv' w := by
  unfold WorkOk at h ⊢
  split at h
  · obtain ⟨hlt, hitem⟩ := h
    refine ⟨hlt.trans_le hgrow.next, ?_⟩
    rw [hgrow.hashes _ hlt]
    exact hitem
  · intro v hv
    exact (h v hv).grow hgrow
  · trivial

theorem CellInv.grow (h : CellInv node hashOf serv) (hgrow : CellsGrow hashOf hashOf' serv serv')
    (hring : serv'.dposRing = serv.dposRing)
    (hwork : ∀ g ∈ serv'.goroutines, g ∈ serv.goroutines ∨ ∀ w ∈ g.todo, WorkOk node hashOf' serv' w) :
    CellInv node hashOf' serv' := by
  constructor
  · rw [hring]
    intro i
    exact (h.slots i).grow hgrow
  · intro g hg w hw
    rcases hwork g hg with hold | hnew
    · exact (h.work g hold w hw).grow hgrow
    · exact hnew w hw

theorem CellsGrow.of_eq (hnext : serv'.nextCell = serv.nextCell) (hcells : serv'.cells = serv.cells) :
    CellsGrow hashOf hashOf serv serv' where
  next := hnext.ge
  hashes _ _ := rfl
  cells cell _ := Or.inl (congrFun hcells cell)

theorem CellInv.spawn (h : CellInv node hashOf serv) {todo : List (WorkItem Hash)}
    (htodo : ∀ w ∈ todo, WorkOk node hashOf serv w) : CellInv node hashOf (serv.spawn todo) := by
  refine h.grow (CellsGrow.of_eq rfl rfl) rfl ?_
  intro g hg
  rcases mem_append.mp hg with hold | hnew
  · exact Or.inl hold
  · right
    rw [mem_singleton.mp hnew]
    exact htodo

theorem slotOk_cleared (hash : Hash) : SlotOk node hashOf serv (.cleared hash) := by
  constructor
  · intro prop hprop
    cases hprop
  · intro v hv
    cases hv

theorem SlotOk.addProposal [DecidableEq Hash] (item : OnlineConsensusReq)
    (h : serv.dposRing.All (SlotOk node hashOf serv)) :
    (serv.dposRing.addProposal (node.reqHash item) item).1.All (SlotOk node hashOf serv) := by
  refine DPosVoteRing.all_put_findProposal h (slotOk_cleared _)
    (f := fun ds => (ds.addProposal item).1) ?_
  intro ds hds hhash
  refine ⟨?_, hds.2⟩
  intro prop hprop
  cases hprop
  exact hhash.symm

theorem SlotOk.addVote [DecidableEq Hash] {insVote : DPosVoteInfo}
    (hshows : Shows hashOf serv hash insVote) {ring : DPosVoteRing Hash 64}
    (h : ring.All (SlotOk node hashOf serv)) :
    (ring.addVote hash insVote).1.All (SlotOk node hashOf serv) ∧
      ∀ prop, (ring.addVote hash insVote).2.1 = some prop →
        ∀ v ∈ (ring.addVote hash insVote).2.2, Shows hashOf serv (node.reqHash prop) v := by
  have hvotes : ∀ ds : DPosVoteState Hash, SlotOk node hashOf serv ds → ds.hash = hash →
      ∀ v ∈ ds.affirmativeVotes ++ [insVote], Shows hashOf serv ds.hash v := by
    intro ds hds hhash v hv
    rcases mem_append.mp hv with hold | hnew
    · exact hds.2 v hold
    · rw [mem_singleton.mp hnew, hhash]
      exact hshows
  constructor
  · refine DPosVoteRing.all_put_findProposal h (slotOk_cleared _)
      (f := fun ds => (ds.addVote insVote).1) ?_
    intro ds hds hhash
    unfold DPosVoteState.addVote
    split_ifs
    · exact hds
    · exact ⟨hds.1, hvotes ds hds hhash⟩
  · have hall : (ring.findProposal hash).1.All (SlotOk node hashOf serv) :=
      h.findOrTake (slotOk_cleared _)
    have hds := hall (ring.findProposal hash).2.1
    have hhash := DPosVoteRing.findProposal_hash ring hash
    unfold DPosVoteRing.addVote DPosVoteState.addVote
    dsimp only
    split_ifs
    · intro prop hprop
      cases hprop
    · intro prop hprop v hv
      rw [hds.1 prop hprop]
      exact hvotes _ hds hhash v hv

/-- What is recorded and sent is no part of the invariant. -/
structure SameVotes (serv serv' : TopNodeService Hash) : Prop where
  dposRing : serv'.dposRing = serv.dposRing
  cells : serv'.cells = serv.cells
  nextCell : serv'.nextCell = serv.nextCell
  goroutines : serv'.goroutines = serv.goroutines

theorem CellInv.same (h : CellInv node hashOf serv) (hsame : SameVotes serv serv') :
    CellInv node hashOf serv' := by
  refine h.grow (CellsGrow.of_eq hsame.nextCell hsame.cells) hsame.dposRing ?_
  intro g hg
  rw [hsame.goroutines] at hg
  exact Or.inl hg

theorem checkTopNodeState_same (env : TopNodeEnv Hash) :
    SameVotes serv (serv.checkTopNodeState node env) := by
  unfold checkTopNodeState sendRequest
  dsimp only
  split_ifs
  · exact ⟨rfl, rfl, rfl, rfl⟩
  · exact ⟨rfl, rfl, rfl, rfl⟩

variable (node serv) in
theorem consensusVotes_same (env : TopNodeEnv Hash) (proposal : Option OnlineConsensusReq)
    (votes : List DPosVoteInfo) : SameVotes serv (serv.consensusVotes node env proposal votes) := by
  rcases consensusVotes_cases node serv env proposal votes with
    hsame | ⟨prop, first, rest, stateMap, -, -, -, -, hsent⟩
  · rw [hsame]
    exact ⟨rfl, rfl, rfl, rfl⟩
  · rw [hsent]
    exact ⟨rfl, rfl, rfl, rfl⟩

theorem leaderChangeNotifyHandler_cellInv (env : TopNodeEnv Hash) (leader : Address)
    (h : CellInv node hashOf serv) :
    CellInv node hashOf (serv.leaderChangeNotifyHandler node env leader) := by
  unfold leaderChangeNotifyHandler
  split_ifs
  · exact h.same (checkTopNodeState_same env)
  · refine h.grow (CellsGrow.of_eq rfl rfl) rfl ?_
    intro g hg
    rcases mem_append.mp hg with hold | hnew
    · exact Or.inl hold
    · right
      obtain ⟨i, -, rfl⟩ := mem_map.mp hnew
      intro w hw
      rw [mem_singleton.mp hw]
      unfold DPosVoteState.getVotes
      cases hprop : (serv.dposRing.slot i).proposal with
      | none => trivial
      | some prop =>
        intro v hv
        rw [(h.slots i).1 prop hprop]
        exact (h.slots i).2 v hv

variable [DecidableEq Hash]

variable (node serv) in
theorem handleRequest_frame (env : TopNodeEnv Hash) (item : OnlineConsensusReq) :
    (serv.handleRequest node env item).1.nextCell = serv.nextCell ∧
      (serv.handleRequest node env item).1.cells = serv.cells ∧
      (serv.handleRequest node env item).1.outbox = serv.outbox ∧
      (serv.handleRequest node env item).1.goroutines = serv.goroutines := by
  rcases handleRequest_cases node serv env item with hsame | ⟨-, msgCheck, votes, hentered, -⟩
  · rw [hsame]
    exact ⟨rfl, rfl, rfl, rfl⟩
  · rw [hentered]
    exact ⟨rfl, rfl, rfl, rfl⟩

theorem handleRequest_cellInv (env : TopNodeEnv Hash) (item : OnlineConsensusReq)
    (h : CellInv node hashOf serv) :
    CellInv node hashOf (serv.handleRequest node env item).1 := by
  rcases handleRequest_cases node serv env item with hsame | ⟨-, msgCheck, votes, hentered, -⟩
  · rw [hsame]
    exact h
  · have hslots := SlotOk.addProposal item h.slots
    rw [hentered]
    constructor
    · intro i
      exact (hslots i).grow (CellsGrow.of_eq rfl rfl)
    · intro g hg w hw
      exact (h.work g hg w hw).grow (CellsGrow.of_eq rfl rfl)

theorem handleVote_cellInv {item : ConsensusVote Hash} {cell : ℕ} (hlt : cell < serv.nextCell)
    (hitem : item.signHash = hashOf cell) (h : CellInv node hashOf serv) :
    let r := serv.handleVote node item cell
    CellsGrow hashOf hashOf serv r.1 ∧ CellInv node hashOf r.1 ∧
      WorkOk node hashOf r.1 (.count r.2.1 r.2.2) := by
  intro r
  have hgrow : CellsGrow hashOf hashOf serv r.1 := by
    refine ⟨le_rfl, fun _ _ => rfl, ?_⟩
    intro c _
    change update serv.cells cell item c = _ ∨ (update serv.cells cell item c).signHash = _
    by_cases hc : c = cell
    · subst hc
      rw [update_self]
      exact Or.inr hitem
    · rw [update_of_ne hc]
      exact Or.inl rfl
  have hshows : Shows hashOf r.1 item.signHash ⟨node.voteHash item, cell⟩ := by
    refine ⟨hlt, hitem.symm, ?_⟩
    change (update serv.cells cell item cell).signHash = _
    rw [update_self]
  have hslots : serv.dposRing.All (SlotOk node hashOf r.1) := fun i => (h.slots i).grow hgrow
  obtain ⟨hring, hcount⟩ := SlotOk.addVote hshows hslots
  refine ⟨hgrow, ⟨hring, fun g hg w hw => (h.work g hg w hw).grow hgrow⟩, ?_⟩
  cases hprop : r.2.1 with
  | none => trivial
  | some prop => exact hcount prop hprop

variable {env : TopNodeEnv Hash} {votes votes' : List (OwnVote Hash)} {w : WorkItem Hash}
  {first todo : List (WorkItem Hash)}

theorem work_cellInv (h : CellInv node hashOf serv) (hw : WorkOk node hashOf serv w)
    (hwork : serv.work node env votes w = .ok (serv',first,votes')) :
    CellsGrow hashOf hashOf serv serv' ∧ CellInv node hashOf serv' ∧
      ∀ w ∈ first, WorkOk node hashOf serv' w := by
  cases w with
  | leaderChange leader =>
    cases hwork
    refine ⟨?_, leaderChangeNotifyHandler_cellInv env leader h, by simp⟩
    unfold leaderChangeNotifyHandler
    split_ifs
    · exact CellsGrow.of_eq (checkTopNodeState_same env).nextCell (checkTopNodeState_same env).cells
    · exact CellsGrow.of_eq rfl rfl
  | request item =>
    cases item with
    | none => cases hwork
    | some item =>
      obtain ⟨hnext, hcells, -, -⟩ := handleRequest_frame node serv env item
      cases hwork
      exact ⟨CellsGrow.of_eq hnext hcells, handleRequest_cellInv env item h, by simp⟩
  | sendVotes =>
    cases hwork
    exact ⟨CellsGrow.of_eq rfl rfl, h.same ⟨rfl, rfl, rfl, rfl⟩, by simp⟩
  | vote item cell =>
    cases hwork
    obtain ⟨hgrow, hinv, hcount⟩ := handleVote_cellInv hw.1 hw.2 h
    refine ⟨hgrow, hinv, ?_⟩
    intro w hw
    rw [mem_singleton.mp hw]
    exact hcount
  | count proposal counted =>
    cases hwork
    have hsame := consensusVotes_same node serv env proposal counted
    exact ⟨CellsGrow.of_eq hsame.nextCell hsame.cells, h.same hsame, by simp⟩

/-- All votes of a message are for one hash, and those for a proposal of the leader are counted in
its round and with the validators of its height. -/
def CountsFit (serv : TopNodeService Hash) (input : TopNodeEvent Hash) : Prop :=
  match input.2 with
  | .votes votes => ∀ v ∈ votes, ∀ w ∈ votes, v.signHash = w.signHash
  | .go i =>
    match serv.nextWork i with
    | some (.count (some prop) (_ :: _)) => serv.msgCheck.leader = prop.leader →
        serv.msgCheck.checkRound prop.seq = true ∧
        DposEngine.getValidatorStocks input.1.reader 10 =
          DposEngine.getValidatorStocks input.1.reader (prop.seq/100)
    | _ => True
  | _ => True

omit [DecidableEq Hash] in
theorem CellInv.receive (h : CellInv node hashOf serv) {votes : List (ConsensusVote Hash)}
    (hvotes : ∀ v ∈ votes, v.signHash = hash) :
    CellInv node (update hashOf serv.nextCell hash)
      ({ serv with nextCell := serv.nextCell+1 }.spawn
        (votes.map fun item => .vote item serv.nextCell)) := by
  apply CellInv.spawn
  · have hgrow : CellsGrow hashOf (update hashOf serv.nextCell hash) serv
        { serv with nextCell := serv.nextCell+1 } := by
      refine ⟨Nat.le_succ _, ?_, fun _ _ => Or.inl rfl⟩
      intro cell hcell
      rw [update_of_ne hcell.ne]
    exact h.grow hgrow rfl fun g hg => Or.inl hg
  · intro w hw
    obtain ⟨item, hitem, rfl⟩ := mem_map.mp hw
    refine ⟨Nat.lt_succ_self _, ?_⟩
    rw [update_self]
    exact hvotes item hitem

theorem CellInv.go {i : ℕ} {g : Goroutine Hash}
    (h : CellInv node hashOf serv) (hg : serv.goroutines[i]? = some g) (htodo : g.todo = w :: todo)
    (hwork : serv.work node env g.votes w = .ok (serv',first,votes)) :
    CellInv node hashOf { serv' with
      goroutines := serv'.goroutines.set i ⟨first ++ todo, votes⟩ } := by
  have hleft := h.work g (mem_of_getElem? hg)
  rw [htodo] at hleft
  obtain ⟨hgrow, hinv, hfirst⟩ := work_cellInv h (hleft w mem_cons_self) hwork
  refine hinv.grow (CellsGrow.of_eq rfl rfl) rfl ?_
  intro g' hg'
  rcases mem_or_eq_of_mem_set hg' with hold | rfl
  · exact Or.inl hold
  · right
    intro w' hw'
    rcases mem_append.mp hw' with hnew | hrest
    · exact hfirst w' hnew
    · exact (hleft w' (mem_cons_of_mem _ hrest)).grow hgrow

variable {input : TopNodeEvent Hash} {prop : OnlineConsensusReq}

theorem step_cellInv (h : ∃ hashOf, CellInv node hashOf serv) (hfits : CountsFit serv input)
    (hstep : serv.step node input = .ok serv') : ∃ hashOf, CellInv node hashOf serv' := by
  obtain ⟨hashOf, h⟩ := h
  obtain ⟨env, i⟩ := input
  have hcase : StepOf node serv serv' env i := stepOf_of_step hstep
  cases hcase with
  | quiet msgCheck stateMap hs =>
    subst hs
    exact ⟨hashOf, h.same ⟨rfl, rfl, rfl, rfl⟩⟩
  | leaderChange msg msgCheck hs =>
    subst hs
    have h₁ : CellInv node hashOf { serv with msgCheck := msgCheck } := h.same ⟨rfl, rfl, rfl, rfl⟩
    refine ⟨hashOf, h₁.spawn ?_⟩
    intro w hw
    rw [mem_singleton.mp hw]
    trivial
  | requests reqs hs =>
    subst hs
    refine ⟨hashOf, h.spawn ?_⟩
    intro w hw
    rcases mem_append.mp hw with hreq | hsend
    · obtain ⟨item, -, rfl⟩ := mem_map.mp hreq
      trivial
    · rw [mem_singleton.mp hsend]
      trivial
  | votes votes hne hs =>
    subst hs
    obtain ⟨v₀, hv₀⟩ := exists_mem_of_ne_nil votes hne
    exact ⟨_, h.receive fun v hv => hfits v hv v₀ hv₀⟩
  | go i g w todo first serv₁ votes hg htodo hwork hs =>
    subst hs
    exact ⟨hashOf, h.go hg htodo hwork⟩

/-- The proposal that a step records was the leader's, of no older round, and a quorum of the
validators of its height agreed with it in the votes that were counted. -/
def RecordSound (node : TopNode Hash) (serv : TopNodeService Hash)
    (input : TopNodeEvent Hash) (serv' : TopNodeService Hash) : Prop :=
  ∀ prop, serv'.outbox = serv.outbox ++ [.finished prop] →
    serv.msgCheck.leader = prop.leader ∧ serv.msgCheck.curRound ≤ prop.seq ∧
      ∃ votes : List DPosVoteInfo, node.engine.SignedByQuorum input.1.reader (prop.seq/100)
        (node.reqHash prop) (votes.map fun v => (serv.cells v.data).sign)

omit [DecidableEq Hash] in
theorem consensusVotes_finished {proposal : Option OnlineConsensusReq} {votes : List DPosVoteInfo}
    (h : (serv.consensusVotes node env proposal votes).outbox = serv.outbox ++ [.finished prop]) :
    proposal = some prop ∧ serv.msgCheck.leader = prop.leader ∧ ∃ first rest, votes = first :: rest ∧
      node.engine.SignedByQuorum env.reader 10 (serv.cells first.data).signHash
        (votes.map fun v => (serv.cells v.data).sign) := by
  rcases consensusVotes_cases node serv env proposal votes with
    hsame | ⟨prop', first, rest, stateMap, hprop, hvotes, hleader, hquorum, hsent⟩
  · rw [hsame] at h
    exact absurd h (by simp)
  · rw [hsent] at h
    cases append_cancel_left h
    exact ⟨hprop, hleader, first, rest, hvotes, hquorum⟩

theorem count_of_finished
    (hwork : serv.work node env votes w = .ok (serv',first,votes'))
    (h : serv'.outbox = serv.outbox ++ [.finished prop]) :
    ∃ proposal counted, w = .count proposal counted ∧
      serv' = serv.consensusVotes node env proposal counted := by
  cases w with
  | leaderChange leader =>
    cases hwork
    unfold leaderChangeNotifyHandler checkTopNodeState sendRequest at h
    split_ifs at h
    · dsimp only at h
      split_ifs at h
      · exact absurd h (by simp)
      · cases append_cancel_left h
    · exact absurd h (by simp)
  | request item =>
    cases item with
    | none => cases hwork
    | some item =>
      obtain ⟨-, -, hsame, -⟩ := handleRequest_frame node serv env item
      cases hwork
      exact absurd (hsame.symm.trans h) (by simp)
  | sendVotes =>
    cases hwork
    cases append_cancel_left h
  | vote item cell =>
    cases hwork
    exact absurd (h : serv.outbox = _) (by simp)
  | count proposal counted =>
    cases hwork
    exact ⟨proposal, counted, rfl, rfl⟩

/-- The first vote still shows the hash of the proposal. -/
theorem recordSound_of_step (h : ∃ hashOf, CellInv node hashOf serv) (hfits : CountsFit serv input)
    (hstep : serv.step node input = .ok serv') : RecordSound node serv input serv' := by
  obtain ⟨hashOf, h⟩ := h
  obtain ⟨env, i⟩ := input
  intro prop hout
  have hne : serv.outbox ≠ serv.outbox ++ [.finished prop] := by simp
  have hcase : StepOf node serv serv' env i := stepOf_of_step hstep
  cases hcase with
  | quiet msgCheck stateMap hs =>
    subst hs
    exact absurd hout hne
  | leaderChange msg msgCheck hs =>
    subst hs
    exact absurd hout hne
  | requests reqs hs =>
    subst hs
    exact absurd hout hne
  | votes votes _ hs =>
    subst hs
    exact absurd hout hne
  | go i g w todo first serv₁ votes hg htodo hwork hs =>
    subst hs
    obtain ⟨proposal, counted, rfl, rfl⟩ := count_of_finished hwork hout
    obtain ⟨rfl, hleader, v, rest, rfl, hquorum⟩ := consensusVotes_finished hout
    have hnext : serv.nextWork i = some (.count (some prop) (v :: rest)) := by
      simp [nextWork, hg, htodo]
    simp only [CountsFit, hnext] at hfits
    obtain ⟨hround, hstocks⟩ := hfits hleader
    have hshows : WorkOk node hashOf serv (.count (some prop) (v :: rest)) := by
      refine h.work g (mem_of_getElem? hg) _ ?_
      rw [htodo]
      exact mem_cons_self
    refine ⟨hleader, of_decide_eq_true hround, v :: rest, ?_⟩
    rw [(hshows v mem_cons_self).2.2] at hquorum
    obtain ⟨stocks, hget, hrest⟩ := hquorum
    exact ⟨stocks, hstocks ▸ hget, hrest⟩

/-- Over every run with votes for one proposal each, counted in time and with the right validators,
what is recorded is sound. -/
theorem eachStep_recordSound [Zero Hash] (node : TopNode Hash) (inputs : List (TopNodeEvent Hash))
    (hfits : EachBefore (step node) CountsFit newTopNodeService inputs) :
    EachStep (step node) (RecordSound node) newTopNodeService inputs := by
  have hinit : ∃ hashOf, CellInv node hashOf (newTopNodeService : TopNodeService Hash) := by
    refine ⟨fun _ => 0, ?_, by intro g hg; cases hg⟩
    intro i
    have hslot : (newTopNodeService : TopNodeService Hash).dposRing.slot i = .cleared 0 := by
      simp [newTopNodeService, DPosVoteRing.newDPosVoteRing, SlotRing.slot]
    rw [hslot]
    exact slotOk_cleared 0
  exact eachStep_of_eachBefore (fun s i s' hs hi hstep => step_cellInv hs hi hstep)
    (fun s i s' hs hi hstep => recordSound_of_step hs hi hstep) hinit hfits

instance (serv : TopNodeService Hash) (input : TopNodeEvent Hash) :
    Decidable (CountsFit serv input) := by
  unfold CountsFit
  split
  · infer_instance
  · split <;> infer_instance
  · infer_instance

abbrev ProposalHash := Option OnlineConsensusReq

instance : Zero ProposalHash := ⟨none⟩

instance : DecidableEq (List (TopNodeEffect ProposalHash)) := inferInstance

def sampleTopNode : TopNode ProposalHash where
  engine := ⟨fun _ => none, fun _ sign => some (sign.setWidth 160,true), []⟩
  address := 1
  reqHash := some
  voteHash := fun vote => UInt64.ofNat vote.sign.toNat

def sampleTopEnv : TopNodeEnv ProposalHash where
  reader := ⟨9, fun _ => .ok ⟨0, threeValidators, 0⟩⟩
  orders := ⟨accountOrder, accountOrder⟩
  onlineStates := []
  signWithValidate := fun _ _ => .ok 1

def sampleProposal : OnlineConsensusReq := ⟨7, 1000, 5, onLine⟩

def sampleVote (account : ℕ) : TopNodeInput ProposalHash :=
  .votes [⟨some sampleProposal, 1000, BitVec.ofNat 520 account, 0⟩]

def atSample (inputs : List (TopNodeInput ProposalHash)) : List (TopNodeEvent ProposalHash) :=
  inputs.map fun i => (sampleTopEnv,i)

def proposedInputs : List (TopNodeInput ProposalHash) :=
  [.leaderChange (some ⟨true, 7, 0, 10, 0, 0, 0, 0⟩), .requests [some sampleProposal], .go 1]

/-- A request of round 1001 comes before the votes: they are still counted for the proposal of round
1000. -/
theorem stale_proposal_finished :
    Injective sampleTopNode.reqHash ∧ ∃ serv serv',
      run (step sampleTopNode) newTopNodeService (atSample (proposedInputs ++
        [.requests [some ⟨9, 1001, 6, onLine⟩], .go 2, sampleVote 1, .go 3, .go 3,
          sampleVote 2, .go 4, .go 4, sampleVote 3, .go 5])) = .ok serv ∧
      serv.step sampleTopNode (sampleTopEnv,.go 5) = .ok serv' ∧
      serv'.outbox = serv.outbox ++ [.finished sampleProposal] ∧
      ¬ RecordSound sampleTopNode serv (sampleTopEnv,.go 5) serv' := by
  refine ⟨fun _ _ h => Option.some.inj h, ?_⟩
  have hend : (run (step sampleTopNode) newTopNodeService (atSample (proposedInputs ++
      [.requests [some ⟨9, 1001, 6, onLine⟩], .go 2, sampleVote 1, .go 3, .go 3,
        sampleVote 2, .go 4, .go 4, sampleVote 3, .go 5]))).toOption.map
      (fun serv => (serv.msgCheck.curRound,serv.outbox,
        (serv.step sampleTopNode (sampleTopEnv,.go 5)).toOption.map outbox)) =
      some (1001,[],some [.finished sampleProposal]) := by
    decide +kernel
  obtain ⟨serv, hrun, hend⟩ := exists_ok_of_map_toOption hend
  simp only [Prod.mk.injEq] at hend
  obtain ⟨hround, hout, hlast⟩ := hend
  obtain ⟨serv', hstep, hout'⟩ := exists_ok_of_map_toOption hlast
  have hfinished : serv'.outbox = serv.outbox ++ [.finished sampleProposal] := by
    rw [hout, hout']
    rfl
  refine ⟨serv, serv', hrun, hstep, hfinished, ?_⟩
  intro hsound
  obtain ⟨-, hcur, -⟩ := hsound sampleProposal hfinished
  rw [hround] at hcur
  exact absurd hcur (by decide)

/-- Without it, the proposal is recorded while its round is the current one. -/
theorem eachStep_recordSound_current_round :
    (run (step sampleTopNode) newTopNodeService (atSample (proposedInputs ++
        [sampleVote 1, .go 2, .go 2, sampleVote 2, .go 3, .go 3, sampleVote 3, .go 4,
          .go 4]))).toOption.map outbox = some [.finished sampleProposal] ∧
      EachStep (step sampleTopNode) (RecordSound sampleTopNode) newTopNodeService
        (atSample (proposedInputs ++
          [sampleVote 1, .go 2, .go 2, sampleVote 2, .go 3, .go 3, sampleVote 3, .go 4, .go 4])) :=
  ⟨by decide +kernel, eachStep_recordSound sampleTopNode _ (by decide +kernel)⟩

end TopNodeService

end MatrixNode
