import Mathlib.Data.Prod.Lex
import MatrixNode.FinishedProposals

/-! What the top-node service keeps: what a query does to a ring, which votes of a message are stored,
and whose leader the message checker holds. -/
namespace MatrixNode
open GoLib List

section Queries
variable {Key : Type} {capacity : ℕ}

def DPosVoteState.Records (ds : DPosVoteState Key) : Prop :=
  ds.proposal ≠ none ∨ ds.affirmativeVotes ≠ []

namespace DPosVoteRing
variable (ring : DPosVoteRing Key capacity)

/-- The proposals and votes of a ring, with their hashes. -/
def recorded : Set (DPosVoteState Key) := {ds | ds.Records ∧ ∃ i, ring.slot i = ds}

def Known (hash : Key) : Prop := ∃ i, (ring.slot i).hash = hash

/-- The slot that is taken next can be spared: it records nothing, or what another slot records. -/
def NextSpared : Prop :=
  ¬ (ring.slot ring.next).Records ∨ ∃ i, i ≠ ring.next ∧ ring.slot i = ring.slot ring.next

variable {ring}

theorem recorded_take_iff (hash : Key) :
    ({ ring with last := ring.next }.put ring.next (.cleared hash) : DPosVoteRing Key capacity).recorded =
      ring.recorded ↔ ring.NextSpared := by
  have hslot (i : Fin capacity) : SlotRing.slot
      ({ ring with last := ring.next }.put ring.next (.cleared hash)) i =
      if ring.next = i then .cleared hash else ring.slot i := SlotRing.slot_put ..
  have hcleared : ¬ (DPosVoteState.cleared hash).Records := by
    rintro (hproposal | hvotes)
    · exact hproposal rfl
    · exact hvotes rfl
  constructor
  · intro hsame
    by_cases hrecords : (ring.slot ring.next).Records
    · right
      have hmem : ring.slot ring.next ∈ ring.recorded := ⟨hrecords, ring.next, rfl⟩
      rw [← hsame] at hmem
      obtain ⟨-, i, hi⟩ := hmem
      rw [hslot] at hi
      split_ifs at hi with hnext
      · rw [hi] at hcleared
        exact absurd hrecords hcleared
      · exact ⟨i, Ne.symm hnext, hi⟩
    · exact .inl hrecords
  · intro hspared
    ext ds
    refine and_congr_right ?_
    intro hrecords
    constructor
    · rintro ⟨i, hi⟩
      rw [hslot] at hi
      split_ifs at hi
      · rw [hi] at hcleared
        exact absurd hrecords hcleared
      · exact ⟨i, hi⟩
    · rintro ⟨i, rfl⟩
      by_cases hnext : ring.next = i
      · subst hnext
        rcases hspared with hnone | ⟨j, hj, hsame⟩
        · exact absurd hrecords hnone
        · exact ⟨j, by rw [hslot, if_neg hj.symm, hsame]⟩
      · exact ⟨i, by rw [hslot, if_neg hnext]⟩

variable [DecidableEq Key]

theorem findProposal_of_known {hash : Key} (h : ring.Known hash) :
    (ring.findProposal hash).1 = ring := by
  unfold findProposal SlotRing.findOrTake
  cases hfind : ring.locate (fun ds => ds.hasHash hash) with
  | some i => rfl
  | none =>
    obtain ⟨i, hi⟩ := h
    exact absurd (SlotRing.locate_eq_none hfind i) (by simp [DPosVoteState.hasHash, hi])

theorem recorded_getVotes_iff (hash : Key) :
    (ring.getVotes hash).1.recorded = ring.recorded ↔ ring.Known hash ∨ ring.NextSpared := by
  unfold getVotes findProposal SlotRing.findOrTake
  cases hfind : ring.locate (fun ds => ds.hasHash hash) with
  | some i =>
    have hfound := SlotRing.locate_eq_some hfind
    exact iff_of_true rfl (.inl ⟨i, of_decide_eq_true hfound⟩)
  | none =>
    have hunknown : ¬ ring.Known hash := by
      rintro ⟨i, hi⟩
      exact absurd (SlotRing.locate_eq_none hfind i) (by simp [DPosVoteState.hasHash, hi])
    rw [or_iff_right hunknown]
    exact recorded_take_iff hash

/-- A query keeps what is recorded exactly if its hash is known or the slot it takes can be spared. -/
theorem queries_keep_records_iff (ring : DPosVoteRing Key capacity) (hash : Key) (ts : TopNodeState)
    (node : Address) (state : ℤ) :
    ((ring.getVotes hash).1.recorded = ring.recorded ↔ ring.Known hash ∨ ring.NextSpared) ∧
    ((ts.isFinishedPropocal node state).1.finishedProposal.recorded = ts.finishedProposal.recorded ↔
      ts.finishedProposal.Known (getFinishedPropocalHash node (UInt8.ofInt state)) ∨
        ts.finishedProposal.NextSpared) :=
  ⟨recorded_getVotes_iff hash, recorded_getVotes_iff _⟩

end DPosVoteRing

def finishedReq (k : ℕ) : OnlineConsensusReq := ⟨7, 1000, BitVec.ofNat 160 k, onLine⟩

def sixtyFourFinished : DPosVoteRing (BitVec 256) 64 :=
  (range 64).foldl (fun ring k =>
    (ring.addProposal (getFinishedPropocalHash (finishedReq k).node 1) (finishedReq k)).1)
    (newTopNodeService : TopNodeService ℕ).stateMap.finishedProposal

/-- With 64 nodes finished, asking for another one makes the service forget the first. -/
theorem DPosVoteRing.query_evicts_finished :
    let ts : TopNodeState := ⟨∅, ∅, ∅, sixtyFourFinished⟩
    let ds : DPosVoteState (BitVec 256) := ⟨getFinishedPropocalHash 0 1, some (finishedReq 0), []⟩
    ds ∈ ts.finishedProposal.recorded ∧
      ds ∉ (ts.isFinishedPropocal 64 onLine).1.finishedProposal.recorded := by
  intro ts ds
  constructor
  · exact ⟨.inl nofun, 0, by decide +kernel⟩
  · rintro ⟨-, hslot⟩
    revert hslot
    decide +kernel

end Queries

namespace DPosVoteRing
variable {Hash : Type} [DecidableEq Hash] {capacity : ℕ} {node : TopNode Hash} {cell : ℕ}
  {ring : DPosVoteRing Hash capacity}

/-- A vote of the hash is kept as the pointer. -/
def PointsTo (ring : DPosVoteRing Hash capacity) (cell : ℕ) (hash : Hash) : Prop :=
  ∃ i, (ring.slot i).hash = hash ∧ ∃ e ∈ (ring.slot i).affirmativeVotes, e.data = cell

instance (ring : DPosVoteRing Hash capacity) (cell : ℕ) (hash : Hash) :
    Decidable (ring.PointsTo cell hash) :=
  inferInstanceAs (Decidable (∃ i, (ring.slot i).hash = hash ∧
    ∃ e ∈ (ring.slot i).affirmativeVotes, e.data = cell))

/-- The 64-bit numbers of the votes in the slot that `findProposal` gives for the hash. -/
def numbers (ring : DPosVoteRing Hash capacity) (hash : Hash) : List UInt64 :=
  let (ring,i,_) := ring.findProposal hash
  (ring.slot i).affirmativeVotes.map DPosVoteInfo.hash

/-- What the votes of a message do to the ring. -/
def enterVotes (node : TopNode Hash) (cell : ℕ) (ring : DPosVoteRing Hash capacity)
    (votes : List (ConsensusVote Hash)) : DPosVoteRing Hash capacity :=
  votes.foldl (fun ring v => (ring.addVote v.signHash ⟨node.voteHash v, cell⟩).1) ring

theorem enterVotes_concat (votes : List (ConsensusVote Hash)) (v : ConsensusVote Hash) :
    ring.enterVotes node cell (votes ++ [v]) =
      ((ring.enterVotes node cell votes).addVote v.signHash ⟨node.voteHash v, cell⟩).1 :=
  foldl_concat ..

omit [DecidableEq Hash] in
theorem mem_addVote {ds : DPosVoteState Hash} {ins e : DPosVoteInfo}
    (he : e ∈ (ds.addVote ins).1.affirmativeVotes) : e ∈ ds.affirmativeVotes ∨ e = ins := by
  unfold DPosVoteState.addVote at he
  split_ifs at he
  · exact .inl he
  · exact (mem_append.mp he).imp_right mem_singleton.mp

omit [DecidableEq Hash] in
theorem mem_addVote_of_mem {ds : DPosVoteState Hash} {ins e : DPosVoteInfo}
    (he : e ∈ ds.affirmativeVotes) : e ∈ (ds.addVote ins).1.affirmativeVotes := by
  unfold DPosVoteState.addVote
  split_ifs
  · exact he
  · exact mem_append_left _ he

omit [DecidableEq Hash] in
theorem hash_addVote (ds : DPosVoteState Hash) (ins : DPosVoteInfo) :
    (ds.addVote ins).1.hash = ds.hash := by
  unfold DPosVoteState.addVote
  split_ifs <;> rfl

/-- An entry with another pointer was in a slot of the same hash before. -/
theorem old_of_enterVotes {votes : List (ConsensusVote Hash)} {i : Fin capacity} {e : DPosVoteInfo}
    (he : e ∈ ((ring.enterVotes node cell votes).slot i).affirmativeVotes) (hcell : e.data ≠ cell) :
    ∃ j, (ring.slot j).hash = ((ring.enterVotes node cell votes).slot i).hash ∧
      e ∈ (ring.slot j).affirmativeVotes := by
  have hall : (ring.enterVotes node cell votes).All fun ds => ∀ e ∈ ds.affirmativeVotes,
      e.data ≠ cell → ∃ j, (ring.slot j).hash = ds.hash ∧ e ∈ (ring.slot j).affirmativeVotes := by
    refine foldlRecOn (motive := fun r : DPosVoteRing Hash capacity => r.All _) votes _
      (fun j e he _ => ⟨j, rfl, he⟩) ?_
    intro r hr v _
    refine all_put_findProposal hr nofun
      (f := fun ds => (ds.addVote ⟨node.voteHash v, cell⟩).1) (fun ds hds _ e he hcell => ?_)
    rw [hash_addVote]
    rcases mem_addVote he with hold | rfl
    · exact hds e hold hcell
    · exact absurd rfl hcell
  exact hall i e he hcell

section AddVote
variable {hash : Hash} {number : UInt64}

theorem mem_numbers_iff : number ∈ ring.numbers hash ↔
    ((ring.findProposal hash).1.slot (ring.findProposal hash).2.1).affirmativeVotes.any
      (fun item => item.hash == number) = true := by
  simp [numbers]

/-- A vote whose number is known leaves the slot as `findProposal` gives it. -/
theorem pointsTo_of_addVote (hnumber : number ∈ ring.numbers hash)
    (h : (ring.addVote hash ⟨number, cell⟩).1.PointsTo cell hash) : ring.PointsTo cell hash := by
  have hold : ring.All fun ds =>
      ∀ e ∈ ds.affirmativeVotes, e.data = cell → ring.PointsTo cell ds.hash :=
    fun j e he hcell => ⟨j, rfl, e, he, hcell⟩
  unfold addVote DPosVoteState.addVote at h
  dsimp only at h
  rw [if_pos (mem_numbers_iff.mp hnumber)] at h
  obtain ⟨i, hi, e, he, hcell⟩ := h
  rw [← hi]
  exact all_put_findProposal hold nofun (f := id) (fun _ h _ => h) i e he hcell

theorem PointsTo.addVote (h : ring.PointsTo cell hash) (ins : DPosVoteInfo) :
    (ring.addVote hash ins).1.PointsTo cell hash := by
  obtain ⟨i, hi, e, he, hcell⟩ := h
  refine ⟨i, ?_⟩
  unfold DPosVoteRing.addVote
  rw [SlotRing.slot_put, findProposal_of_known ⟨i, hi⟩]
  split_ifs with hfound
  · rw [hash_addVote, hfound]
    exact ⟨hi, e, mem_addVote_of_mem he, hcell⟩
  · exact ⟨hi, e, he, hcell⟩

theorem pointsTo_addVote_new (hnumber : number ∉ ring.numbers hash) :
    (ring.addVote hash ⟨number, cell⟩).1.PointsTo cell hash := by
  refine ⟨(ring.findProposal hash).2.1, ?_, ⟨number, cell⟩, ?_, rfl⟩
  · unfold addVote
    rw [SlotRing.slot_put_self, hash_addVote, findProposal_hash]
  · unfold addVote DPosVoteState.addVote
    rw [SlotRing.slot_put_self, if_neg (fun h => hnumber (mem_numbers_iff.mpr h))]
    exact mem_append_right _ (mem_singleton_self _)

theorem pointsTo_addVote_iff (hash : Hash) (number : UInt64) :
    (ring.addVote hash ⟨number, cell⟩).1.PointsTo cell hash ↔
      ring.PointsTo cell hash ∨ number ∉ ring.numbers hash := by
  constructor
  · intro h
    by_cases hnumber : number ∈ ring.numbers hash
    · exact .inl (pointsTo_of_addVote hnumber h)
    · exact .inr hnumber
  · rintro (h | hnumber)
    · exact h.addVote _
    · exact pointsTo_addVote_new hnumber

end AddVote

end DPosVoteRing

namespace TopNodeService
variable {Hash : Type}

/-- A pointer in a slot of the hash shows the vote. -/
def StoresFor (serv : TopNodeService Hash) (hash : Hash) (vote : ConsensusVote Hash) : Prop :=
  ∃ i, (serv.dposRing.slot i).hash = hash ∧
    ∃ e ∈ (serv.dposRing.slot i).affirmativeVotes, serv.cells e.data = vote

variable [DecidableEq Hash] (node : TopNode Hash) (env : TopNodeEnv Hash) (cell : ℕ)

def consensusVote (serv : TopNodeService Hash) (item : ConsensusVote Hash) : TopNodeService Hash :=
  let (serv,proposal,counted) := serv.handleVote node item cell
  serv.consensusVotes node env proposal counted

/-- All turns of the loop have the one variable `cell`. -/
def consensusVoteMsgHandler (serv : TopNodeService Hash) (votes : List (ConsensusVote Hash)) :
    TopNodeService Hash :=
  votes.foldl (consensusVote node env cell) serv

/-- The votes of a message that were not stored are stored, and none for a hash that is not its own. -/
def StoresVotes (serv : TopNodeService Hash) (votes : List (ConsensusVote Hash)) : Prop :=
  (∀ v ∈ votes, ¬ serv.StoresFor v.signHash v →
    (consensusVoteMsgHandler node env cell serv votes).StoresFor v.signHash v) ∧
  ∀ hash w, (consensusVoteMsgHandler node env cell serv votes).StoresFor hash w →
    serv.StoresFor hash w ∨ w.signHash = hash

variable {node env cell} {serv : TopNodeService Hash} {votes : List (ConsensusVote Hash)}
  {v : ConsensusVote Hash}

theorem consensusVote_frame (v : ConsensusVote Hash) :
    (serv.consensusVote node env cell v).dposRing =
      (serv.dposRing.addVote v.signHash ⟨node.voteHash v, cell⟩).1 ∧
    (serv.consensusVote node env cell v).cells = Function.update serv.cells cell v := by
  have hsame := consensusVotes_same node (serv.handleVote node v cell).1 env
    (serv.handleVote node v cell).2.1 (serv.handleVote node v cell).2.2
  exact ⟨hsame.dposRing, hsame.cells⟩

theorem dposRing_handler (serv : TopNodeService Hash) (votes : List (ConsensusVote Hash)) :
    (consensusVoteMsgHandler node env cell serv votes).dposRing =
      serv.dposRing.enterVotes node cell votes := by
  induction votes generalizing serv with
  | nil => rfl
  | cons v votes ih =>
    refine (ih _).trans ?_
    rw [(consensusVote_frame v).1]
    rfl

theorem cells_handler {last : ConsensusVote Hash} (hlast : votes.getLast? = some last) :
    (consensusVoteMsgHandler node env cell serv votes).cells = Function.update serv.cells cell last := by
  induction votes generalizing serv with
  | nil => cases hlast
  | cons v votes ih =>
    rcases eq_or_ne votes [] with rfl | hne
    · cases hlast
      exact (consensusVote_frame v).2
    · rw [getLast?_cons_of_ne_nil hne] at hlast
      refine (ih hlast).trans ?_
      rw [(consensusVote_frame v).2, Function.update_idem]

/-- Afterwards a vote is stored that was stored before, or the last one of the message. -/
theorem storesFor_handler {hash : Hash} {w : ConsensusVote Hash}
    (h : (consensusVoteMsgHandler node env cell serv votes).StoresFor hash w) :
    serv.StoresFor hash w ∨
      (votes.getLast? = some w ∧ (serv.dposRing.enterVotes node cell votes).PointsTo cell hash) := by
  obtain ⟨i, hi, e, he, hw⟩ := h
  rw [dposRing_handler] at hi he
  rcases hlast : votes.getLast? with _ | last
  · obtain rfl := getLast?_eq_none_iff.mp hlast
    exact .inl ⟨i, hi, e, he, hw⟩
  · rw [cells_handler hlast] at hw
    by_cases hcell : e.data = cell
    · rw [hcell, Function.update_self] at hw
      exact .inr ⟨congrArg some hw, i, hi, e, he, hcell⟩
    · rw [Function.update_of_ne hcell] at hw
      obtain ⟨j, hj, hold⟩ := DPosVoteRing.old_of_enterVotes he hcell
      exact .inl ⟨j, hj.trans hi, e, hold, hw⟩

theorem storesFor_of_pointsTo {last : ConsensusVote Hash} (hlast : votes.getLast? = some last)
    {hash : Hash} (h : (serv.dposRing.enterVotes node cell votes).PointsTo cell hash) :
    (consensusVoteMsgHandler node env cell serv votes).StoresFor hash last := by
  obtain ⟨i, hi, e, he, hcell⟩ := h
  refine ⟨i, ?_, e, ?_, ?_⟩
  · rw [dposRing_handler, hi]
  · rw [dposRing_handler]
    exact he
  · rw [cells_handler hlast, hcell, Function.update_self]

instance (serv : TopNodeService Hash) (hash : Hash) (vote : ConsensusVote Hash) :
    Decidable (serv.StoresFor hash vote) :=
  inferInstanceAs (Decidable (∃ i, (serv.dposRing.slot i).hash = hash ∧
    ∃ e ∈ (serv.dposRing.slot i).affirmativeVotes, serv.cells e.data = vote))

def otherProposal : OnlineConsensusReq := ⟨7, 1000, 6, onLine⟩

def voteFor (req : OnlineConsensusReq) (account : ℕ) : ConsensusVote ProposalHash :=
  ⟨some req, 1000, BitVec.ofNat 520 account, 0⟩

end TopNodeService

namespace MessageCheck

inductive Delivery where
  | notify (msg : LeaderChangeNotify)
  | request (req : OnlineConsensusReq)
  deriving DecidableEq

def Delivery.round : Delivery → ℕ
  | .notify msg => (msg.number*100+msg.reelectTurn.toNat) % 2^64
  | .request req => req.seq

def Delivery.leaderAfter (leader : Address) : Delivery → Address
  | .notify msg => msg.leader
  | .request _ => leader

def deliver (chk : MessageCheck) : Delivery → MessageCheck
  | .notify msg => (chk.checkLeaderChangeNotify msg).1
  | .request req => (chk.checkOnlineConsensusReq req).1

/-- Among the notifications the one of the greatest height and, there, the greatest turn. -/
def Latest (msgs : List Delivery) (msg : LeaderChangeNotify) : Prop :=
  .notify msg ∈ msgs ∧ ∀ other, .notify other ∈ msgs →
    toLex (other.number,other.consensusTurn) ≤ toLex (msg.number,msg.consensusTurn)

/-- No message has a higher round, and notifications of the same round have the same leader. -/
structure Prevails (chk : MessageCheck) (msgs : List Delivery) (msg : LeaderChangeNotify) : Prop where
  start : chk.curRound ≤ (Delivery.notify msg).round
  rounds : ∀ d ∈ msgs, d.round ≤ (Delivery.notify msg).round
  leaders : ∀ d ∈ msgs, d.round = (Delivery.notify msg).round → d.leaderAfter msg.leader = msg.leader

variable {chk : MessageCheck} {msgs : List Delivery} {msg : LeaderChangeNotify} {n : ℕ}

theorem setRound_eq (round : ℕ) : chk.setRound round =
    if round < chk.curRound then (chk,false) else ({ chk with curRound := round },true) := by
  unfold setRound
  split_ifs with hlow hhigh
  · rfl
  · rfl
  · rw [Nat.le_antisymm (not_lt.mp hhigh) (not_lt.mp hlow)]

/-- What a message does that is not about a leader that is still to be agreed on. -/
def hold (chk : MessageCheck) (d : Delivery) : MessageCheck :=
  if d.round < chk.curRound then chk else ⟨d.leaderAfter chk.leader, d.round⟩

theorem deliver_eq {d : Delivery} (hset : ∀ msg, d = .notify msg → msg.consensusState = true) :
    chk.deliver d = chk.hold d := by
  unfold hold
  cases d with
  | notify msg =>
    rw [deliver, checkLeaderChangeNotify, if_pos (hset msg rfl)]
    dsimp only [Delivery.round, Delivery.leaderAfter]
    rw [setRound_eq]
    split_ifs with hlow <;> simp only [hlow, if_true, if_false]
  | request req =>
    rw [deliver, checkOnlineConsensusReq, setRound_eq, apply_ite Prod.fst]
    rfl

theorem foldl_deliver (hset : ∀ msg, .notify msg ∈ msgs → msg.consensusState = true) :
    msgs.foldl deliver chk = msgs.foldl hold chk :=
  foldl_ext _ _ _ fun _ _ hd => deliver_eq fun msg hmsg => hset msg (hmsg ▸ hd)

/-- Once the checker has the leader at the highest round it keeps it, and it gets there with the first
notification of that round. -/
theorem leader_foldl {leader : Address} (hrounds : ∀ d ∈ msgs, d.round ≤ n)
    (hleaders : ∀ d ∈ msgs, d.round = n → d.leaderAfter leader = leader) (hstart : chk.curRound ≤ n)
    (h : chk = ⟨leader, n⟩ ∨ ∃ msg, .notify msg ∈ msgs ∧ (Delivery.notify msg).round = n) :
    (msgs.foldl hold chk).leader = leader := by
  induction msgs generalizing chk with
  | nil =>
    rcases h with rfl | ⟨msg, hmsg, -⟩
    · rfl
    · cases hmsg
  | cons d msgs ih =>
    obtain ⟨hd, hrounds⟩ := forall_mem_cons.mp hrounds
    obtain ⟨hleader, hleaders⟩ := forall_mem_cons.mp hleaders
    refine ih hrounds hleaders ?_ ?_
    · unfold hold
      split_ifs
      · exact hstart
      · exact hd
    · rcases h with rfl | ⟨msg, hmsg, hround⟩
      · left
        unfold hold
        split_ifs with hlow
        · rfl
        · have heq := Nat.le_antisymm hd (not_lt.mp hlow)
          rw [heq, hleader heq]
      · rcases mem_cons.mp hmsg with rfl | hmsg
        · left
          rw [hold, hround, if_neg (not_lt.mpr hstart)]
          exact congrArg (MessageCheck.mk · n) (hleader hround)
        · exact .inr ⟨msg, hmsg, hround⟩

/-- The leader of the notification is no other's, and not the one that the checker starts with. -/
def Apart (chk : MessageCheck) (msgs : List Delivery) (msg : LeaderChangeNotify) : Prop :=
  chk.leader ≠ msg.leader ∧ ∀ other, .notify other ∈ msgs → other.leader = msg.leader → other = msg

/-- A leader whose notifications all come too late is never held. -/
theorem leader_ne_of_late {leader : Address} (hleader : chk.leader ≠ leader)
    (hlate : ∀ msg, .notify msg ∈ msgs → msg.leader = leader →
      (Delivery.notify msg).round < chk.curRound) :
    (msgs.foldl hold chk).leader ≠ leader := by
  induction msgs generalizing chk with
  | nil => exact hleader
  | cons d msgs ih =>
    refine ih ?_ ?_
    · unfold hold
      split_ifs with hlow
      · exact hleader
      · cases d with
        | notify msg => exact fun hmsg => hlow (hlate msg mem_cons_self hmsg)
        | request req => exact hleader
    · intro msg hmsg hown
      refine (hlate msg (mem_cons_of_mem _ hmsg) hown).trans_le ?_
      unfold hold
      split_ifs with hlow
      · exact le_rfl
      · exact not_lt.mp hlow

theorem curRound_foldl_le (hrounds : ∀ d ∈ msgs, d.round ≤ n) (hstart : chk.curRound ≤ n) :
    (msgs.foldl hold chk).curRound ≤ n := by
  refine foldlRecOn (motive := fun chk : MessageCheck => chk.curRound ≤ n) msgs hold hstart ?_
  intro chk hchk d hd
  unfold hold
  split_ifs
  · exact hchk
  · exact hrounds d hd

/-- A message of a higher round may come first, and a notification of the same round last. -/
theorem prevails_of_orders (hapart : chk.Apart msgs msg)
    (h : ∀ msgs', msgs' ~ msgs → (msgs'.foldl hold chk).leader = msg.leader) :
    chk.Prevails msgs msg := by
  obtain ⟨hleader, hother⟩ := hapart
  have hstart : chk.curRound ≤ (Delivery.notify msg).round := by
    by_contra hlow
    refine leader_ne_of_late hleader ?_ (h msgs (Perm.refl _))
    intro other hmem hown
    rw [hother other hmem hown]
    exact not_le.mp hlow
  have hrounds : ∀ d ∈ msgs, d.round ≤ (Delivery.notify msg).round := by
    intro d hd
    by_contra hhigh
    have hfirst : ((msgs.erase d).foldl hold (chk.hold d)).leader = msg.leader :=
      h _ (perm_cons_erase hd).symm
    rw [hold, if_neg (by omega)] at hfirst
    refine leader_ne_of_late ?_ ?_ hfirst
    · cases d with
      | notify m => exact fun hown => hhigh (hother m hd hown ▸ le_rfl)
      | request req => exact hleader
    · intro m hm hown
      rw [hother m (mem_of_mem_erase hm) hown]
      exact not_le.mp hhigh
  refine ⟨hstart, hrounds, ?_⟩
  intro d hd hround
  cases d with
  | request req => rfl
  | notify m =>
    have hperm := (perm_append_singleton (.notify m) (msgs.erase (.notify m))).trans
      (perm_cons_erase hd).symm
    have hle : ((msgs.erase (.notify m)).foldl hold chk).curRound ≤ (Delivery.notify msg).round :=
      curRound_foldl_le (fun d hd => hrounds d (mem_of_mem_erase hd)) hstart
    have hlast := h _ hperm
    rw [foldl_concat, hold, if_neg (by omega)] at hlast
    exact hlast

/-- In whatever order the messages come, the checker holds the leader of the latest notification if
that one prevails over all of them; and if no other notification has its leader, only then. -/
theorem leader_of_latest (hset : ∀ msg, .notify msg ∈ msgs → msg.consensusState = true)
    (hlatest : Latest msgs msg) :
    (chk.Prevails msgs msg →
      ∀ msgs', msgs' ~ msgs → (msgs'.foldl deliver chk).leader = msg.leader) ∧
    (chk.Apart msgs msg →
      (∀ msgs', msgs' ~ msgs → (msgs'.foldl deliver chk).leader = msg.leader) →
        chk.Prevails msgs msg) := by
  have hhold {msgs' : List Delivery} (hperm : msgs' ~ msgs) :
      msgs'.foldl deliver chk = msgs'.foldl hold chk :=
    foldl_deliver fun m hm => hset m (hperm.mem_iff.mp hm)
  constructor
  · intro hprevails msgs' hperm
    rw [hhold hperm]
    exact leader_foldl (fun d hd => hprevails.rounds d (hperm.mem_iff.mp hd))
      (fun d hd => hprevails.leaders d (hperm.mem_iff.mp hd)) hprevails.start
      (.inr ⟨msg, hperm.mem_iff.mpr hlatest.1, rfl⟩)
  · intro hapart h
    refine prevails_of_orders hapart fun msgs' hperm => ?_
    rw [← hhold hperm]
    exact h msgs' hperm

def notice (leader : Address) (number : ℕ) (turn : UInt32) : LeaderChangeNotify :=
  ⟨true, leader, 0, number, turn, 0, 0, 0⟩

theorem leader_of_latest_next_height :
    ([.notify (notice 2 11 0), .request ⟨1, 1000, 5, onLine⟩, .notify (notice 1 10 0)].foldl
      deliver ⟨0, 0⟩).leader = 2 := by
  change _ = (notice 2 11 0).leader
  refine (leader_of_latest ?_ ⟨by simp, ?_⟩).1 ⟨by decide, ?_, ?_⟩ _ (Perm.refl _)
  · simp [notice]
  · simp [notice, Prod.Lex.toLex_le_toLex]
  · decide
  · decide

/-- The second turn comes before the first and is forgotten; after a request of a high round the next
height is not noticed. -/
theorem latest_leader_missed :
    Latest [.notify (notice 2 10 1), .notify (notice 1 10 0)] (notice 2 10 1) ∧
    ([.notify (notice 2 10 1), .notify (notice 1 10 0)].foldl deliver ⟨0, 0⟩).leader = 1 ∧
    Latest [.notify (notice 1 10 0), .request ⟨3, 2000, 5, onLine⟩, .notify (notice 2 11 0)]
      (notice 2 11 0) ∧
    ([.notify (notice 1 10 0), .request ⟨3, 2000, 5, onLine⟩, .notify (notice 2 11 0)].foldl
      deliver ⟨0, 0⟩).leader = 1 := by
  refine ⟨⟨by simp, ?_⟩, rfl, ⟨by simp, ?_⟩, rfl⟩
  · simp [notice, Prod.Lex.toLex_le_toLex]
  · simp [notice, Prod.Lex.toLex_le_toLex]

end MessageCheck

end MatrixNode
