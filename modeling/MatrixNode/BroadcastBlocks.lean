import MatrixNode.GenProgress
import MatrixNode.NetTopology

/-! The rule for broadcast blocks is written three times: `verifyBroadcastBlock` of the engine,
`startBlockInsert` and `preVerifyBroadcastMinerResult`. -/
namespace MatrixNode
open GoLib

/-- `ca.GetAccountOriginalRole`, without its error: the configured broadcast nodes come first, then the
elected nodes of a height. -/
def getAccountOriginalRole (broadCastNodes : List Address)
    (getOriginalElect : ℕ → Except GoError (List Elect)) (account : Address) (number : ℕ) : RoleType :=
  if broadCastNodes.contains account then .broadcast
  else match getOriginalElect number with
    | .error _ => .nil
    | .ok ori => ((ori.find? (·.account = account)).map fun elect => transfer2CommonRole elect.type).getD .nil

theorem transfer2CommonRole_ne_broadcast (ert : UInt8) : transfer2CommonRole ert ≠ .broadcast := by
  unfold transfer2CommonRole
  split_ifs <;> decide

theorem getAccountOriginalRole_eq_broadcast_iff {broadCastNodes : List Address}
    {getOriginalElect : ℕ → Except GoError (List Elect)} {account : Address} {number : ℕ} :
    getAccountOriginalRole broadCastNodes getOriginalElect account number = .broadcast ↔
      broadCastNodes.contains account = true := by
  unfold getAccountOriginalRole
  split_ifs with hmem
  · exact iff_of_true rfl hmem
  · refine iff_of_false ?_ hmem
    rcases getOriginalElect number with err | ori
    · exact RoleType.noConfusion
    · rcases hfind : ori.find? (·.account = account) with _ | elect
      · simp [hfind]
      · simpa [hfind] using transfer2CommonRole_ne_broadcast elect.type

namespace DposEngine
variable {Hash : Type} (D : DposEngine Hash) {header : Header Hash}

theorem verifyBroadcastBlock_ok_iff :
    D.verifyBroadcastBlock header = .ok () ↔ ∃ sign account, header.signatures = [sign] ∧
      D.recover (D.hashNoSignsAndNonce header) sign = some (account,true) ∧
      D.isBroadcastRole account = true := by
  unfold verifyBroadcastBlock
  rcases hsigns : header.signatures with _ | ⟨sign, _ | ⟨second, rest⟩⟩
  · simp
  · rcases hrecover : D.recover (D.hashNoSignsAndNonce header) sign with _ | ⟨account, validate⟩
    · simp [hrecover]
    · cases hrole : D.isBroadcastRole account <;> cases validate <;> simp [hrecover, hrole]
  · simp

end DposEngine

namespace GenProcess
variable {Hash State Tx Receipt : Type} (node : GenNode Hash Tx Receipt)
  (env : GenEnv Hash State Tx Receipt) (p : GenProcess Hash State Tx Receipt)

section Rule
variable [DecidableEq Hash]

def AttemptsInsert (header : Header Hash) : Prop :=
  p.startBlockInsert node env header = .ok (p.insertNotified node env header)

/-- A notification is handled by the rule of the engine, and without a panic. -/
def NotifyFollowsRule (header : Header Hash) : Prop :=
  (∀ err, p.startBlockInsert node env header ≠ .error err) ∧
    (p.AttemptsInsert node env header ↔ node.engine.verifyBroadcastBlock header = .ok ())

/-- The process waits for the block of a broadcast height. None of the responses before this one could
be executed; this one can, and the node is the one that inserts the block. -/
structure AwaitsResponse [Zero Hash] (result : BlockData Hash Tx)
    (block : BlockLocalVerifyOK Hash State Tx Receipt) : Prop where
  state : p.state = .minerResultVerify
  height : isBroadcastNumber p.number = true
  number : result.header.number = p.number
  first : pickBroadcast env p.broadcastRstCache = none
  executed : executeBroadcast env result = some block
  inserts : p.Inserts node

omit [DecidableEq Hash] in
/-- The process with the block of the response ready for insertion. -/
def responseReady (result : BlockData Hash Tx) (block : BlockLocalVerifyOK Hash State Tx Receipt) :
    GenProcess Hash State Tx Receipt :=
  let p : GenProcess Hash State Tx Receipt :=
    { p with broadcastRstCache := p.broadcastRstCache ++ [⟨block.header, result.txs⟩] }
  { (p.saveReadyBlock block).record (.newBlockReady block.header) with state := .blockInsert }

/-- A response that the process waits for leads to `insertAndBcBlock` exactly if the rule of the engine
accepts it. -/
def ResponseFollowsRule [Zero Hash] (result : BlockData Hash Tx)
    (block : BlockLocalVerifyOK Hash State Tx Receipt) : Prop :=
  p.addBroadcastMinerResult node env result = (p.responseReady result block).afterInsert node env ↔
    node.engine.verifyBroadcastBlock result.header = .ok ()

/-- There is a signature. If the first one is of a broadcast node, then a single one is of the leader
exactly if it agrees, and the first of several is not of the leader. -/
def FitsNotify (D : DposEngine Hash) (header : Header Hash) : Prop :=
  ∃ sign rest, header.signatures = sign :: rest ∧
    ∀ account validate, D.recover (D.hashNoSignsAndNonce header) sign = some (account,validate) →
      D.isBroadcastRole account = true →
      (account = header.leader ↔ rest = [] ∧ validate = true)

omit [DecidableEq Hash] in
def FitsResponse (D : DposEngine Hash) (header : Header Hash) : Prop :=
  ∀ sign account, header.signatures = [sign] →
    D.recover (D.hashNoSignsAndNonce header) sign = some (account,true) →
    D.isBroadcastRole account = true → account = header.leader

variable {node env p} {header : Header Hash}

theorem insertNotified_ne : p.insertNotified node env header ≠ p := by
  obtain ⟨effects, hins⟩ := insertNotified_continues node env p header
  intro heq
  have hlen := congrArg (fun q => q.insertBlockHash.length) (hins.symm.trans heq)
  simp at hlen

omit [DecidableEq Hash] in
theorem pickBroadcast_append [Zero Hash] {results : List (BlockData Hash Tx)} {result : BlockData Hash Tx}
    {block : BlockLocalVerifyOK Hash State Tx Receipt} (hnone : pickBroadcast env results = none)
    (h : executeBroadcast env result = some block) :
    pickBroadcast env (results ++ [result]) = some (results ++ [⟨block.header, result.txs⟩], block) := by
  induction results with
  | nil => simp [pickBroadcast, h]
  | cons first rest ih =>
    unfold pickBroadcast at hnone
    rw [List.cons_append, pickBroadcast]
    rcases hfirst : executeBroadcast env first with _ | other
    · rw [hfirst] at hnone
      rw [ih (Option.map_eq_none_iff.mp hnone)]
      rfl
    · rw [hfirst] at hnone
      cases hnone

theorem afterInsert_trace (node : GenNode Hash Tx Receipt) (env : GenEnv Hash State Tx Receipt)
    (p : GenProcess Hash State Tx Receipt) :
    ∃ effects, (p.afterInsert node env).trace = p.trace ++ effects := by
  obtain ⟨effects, hins⟩ := insertAndBcBlock_continues node env p none
  refine ⟨effects, ?_⟩
  unfold afterInsert
  revert hins
  rcases p.insertAndBcBlock node env none with ⟨q, err | hash⟩
  · rintro rfl
    rfl
  · rintro rfl
    rfl

section Roles
variable {getOriginalElect : ℕ → Except GoError (List Elect)}
  (hrole : env.accountRole = getAccountOriginalRole node.engine.broadCastNodes getOriginalElect)
include hrole

omit [DecidableEq Hash] in
theorem accountRole_eq_broadcast_iff (account : Address) (number : ℕ) :
    env.accountRole account number = .broadcast ↔ node.engine.isBroadcastRole account = true := by
  rw [hrole]
  exact getAccountOriginalRole_eq_broadcast_iff

/-- The flag of the signature is not looked at: any `validate` will do. -/
theorem startBlockInsert_cases (hnew : node.blockHash header ∉ p.insertBlockHash)
    (hb : isBroadcastNumber p.number = true) :
    (header.signatures = [] ∧ p.startBlockInsert node env header = .error indexOutOfRange) ∨
    ∃ sign rest, header.signatures = sign :: rest ∧
      (((∃ validate, node.engine.recover (node.engine.hashNoSignsAndNonce header) sign =
            some (header.leader,validate)) ∧ node.engine.isBroadcastRole header.leader = true ∧
          p.startBlockInsert node env header = .ok (p.insertNotified node env header)) ∨
        (¬((∃ validate, node.engine.recover (node.engine.hashNoSignsAndNonce header) sign =
            some (header.leader,validate)) ∧ node.engine.isBroadcastRole header.leader = true) ∧
          p.startBlockInsert node env header = .ok p)) := by
  have hrole' := accountRole_eq_broadcast_iff hrole
  unfold startBlockInsert
  rw [if_neg hnew, if_pos hb]
  rcases hsigns : header.signatures with _ | ⟨sign, rest⟩
  · exact .inl ⟨rfl, rfl⟩
  · refine .inr ⟨sign, rest, rfl, ?_⟩
    dsimp only
    rcases hrecover : node.engine.recover (node.engine.hashNoSignsAndNonce header) sign with
      _ | ⟨account, validate⟩
    · exact .inr ⟨by simp, rfl⟩
    · dsimp only
      by_cases hleader : account = header.leader
      · rw [if_neg (not_not.mpr hleader)]
        by_cases hbroadcast : node.engine.isBroadcastRole account = true
        · rw [if_neg (not_not.mpr ((hrole' _ _).mpr hbroadcast))]
          exact .inl ⟨⟨validate, by rw [hleader]⟩, hleader ▸ hbroadcast, rfl⟩
        · rw [if_pos (fun hno => hbroadcast ((hrole' _ _).mp hno))]
          exact .inr ⟨fun hboth => hbroadcast (hleader ▸ hboth.2), rfl⟩
      · rw [if_pos hleader]
        refine .inr ⟨?_, rfl⟩
        rintro ⟨⟨v, heq⟩, -⟩
        exact hleader (congrArg Prod.fst (Option.some.inj heq))

/-- A block that is handed on has to be accepted by the rule, and one that is dropped must not be.
-/
theorem notifyFollowsRule_iff (hnew : node.blockHash header ∉ p.insertBlockHash)
    (hb : isBroadcastNumber p.number = true) :
    p.NotifyFollowsRule node env header ↔ FitsNotify node.engine header := by
  unfold NotifyFollowsRule AttemptsInsert FitsNotify
  rw [node.engine.verifyBroadcastBlock_ok_iff]
  rcases startBlockInsert_cases hrole hnew hb with
    ⟨hsigns, hstart⟩ | ⟨sign, rest, hsigns, ⟨⟨validate, hrecover⟩, hbroadcast, hstart⟩ | ⟨hnot, hstart⟩⟩
  · simp [hstart, hsigns]
  · simp only [hstart, hsigns, List.cons.injEq]
    constructor
    · rintro ⟨-, hiff⟩
      obtain ⟨sign', account, ⟨rfl, rfl⟩, hrule, -⟩ := hiff.mp trivial
      refine ⟨sign, [], ⟨rfl, rfl⟩, ?_⟩
      intro account' validate' hrecover' _
      rw [hrecover] at hrule hrecover'
      cases hrule
      cases hrecover'
      exact iff_of_true rfl ⟨rfl, rfl⟩
    · rintro ⟨sign', rest', ⟨rfl, rfl⟩, hfits⟩
      obtain ⟨rfl, rfl⟩ := (hfits _ _ hrecover hbroadcast).mp rfl
      exact ⟨nofun, iff_of_true trivial ⟨sign, header.leader, ⟨rfl, rfl⟩, hrecover, hbroadcast⟩⟩
  · have hne : p ≠ p.insertNotified node env header := insertNotified_ne.symm
    simp only [hstart, hsigns, List.cons.injEq, Except.ok.injEq, hne, false_iff, reduceCtorEq, ne_eq,
      not_false_eq_true, implies_true, true_and]
    constructor
    · intro hrule
      refine ⟨sign, rest, ⟨rfl, rfl⟩, ?_⟩
      intro account validate hrecover hbroadcast
      have hother : account ≠ header.leader := by
        rintro rfl
        exact hnot ⟨⟨validate, hrecover⟩, hbroadcast⟩
      refine iff_of_false hother ?_
      rintro ⟨rfl, rfl⟩
      exact hrule ⟨sign, account, ⟨rfl, rfl⟩, hrecover, hbroadcast⟩
    · rintro ⟨sign', rest', ⟨rfl, rfl⟩, hfits⟩ ⟨sign', account, ⟨rfl, rfl⟩, hrecover, hbroadcast⟩
      have hleader := (hfits _ _ hrecover hbroadcast).mpr ⟨rfl, rfl⟩
      rw [hleader] at hrecover hbroadcast
      exact hnot ⟨⟨true, hrecover⟩, hbroadcast⟩

variable {result : BlockData Hash Tx}

omit [DecidableEq Hash] in
theorem preVerifyBroadcastMinerResult_iff (hb : isBroadcastNumber result.header.number = true) :
    preVerifyBroadcastMinerResult node env result = true ↔ ∃ sign, result.header.signatures = [sign] ∧
      node.engine.recover (node.engine.hashNoSignsAndNonce result.header) sign =
        some (result.header.leader,true) ∧ node.engine.isBroadcastRole result.header.leader = true := by
  have hrole' := accountRole_eq_broadcast_iff hrole result.header.leader result.header.number
  unfold preVerifyBroadcastMinerResult
  rw [Bool.and_eq_true, decide_eq_true_iff, hrole', hb]
  rcases result.header.signatures with _ | ⟨sign, _ | ⟨second, rest⟩⟩
  · simp
  · rcases hrecover : node.engine.recover (node.engine.hashNoSignsAndNonce result.header) sign with
      _ | ⟨account, validate⟩
    · simp [hrecover]
    · simp [hrecover, and_comm]
  · simp

omit [DecidableEq Hash] in
/-- The check takes nothing that the rule refuses; it only asks for the leader in addition. -/
theorem preVerify_follows_iff (hb : isBroadcastNumber result.header.number = true) :
    (preVerifyBroadcastMinerResult node env result = true ↔
      node.engine.verifyBroadcastBlock result.header = .ok ()) ↔
      FitsResponse node.engine result.header := by
  unfold FitsResponse
  rw [node.engine.verifyBroadcastBlock_ok_iff, preVerifyBroadcastMinerResult_iff hrole hb]
  constructor
  · intro hiff sign account hsigns hrecover hbroadcast
    obtain ⟨sign', hsigns', hrecover', -⟩ := hiff.mpr ⟨sign, account, hsigns, hrecover, hbroadcast⟩
    rw [hsigns] at hsigns'
    cases hsigns'
    rw [hrecover] at hrecover'
    cases hrecover'
    rfl
  · intro hfits
    constructor
    · rintro ⟨sign, hsigns, hrecover, hbroadcast⟩
      exact ⟨sign, _, hsigns, hrecover, hbroadcast⟩
    · rintro ⟨sign, account, hsigns, hrecover, hbroadcast⟩
      have hleader := hfits sign account hsigns hrecover hbroadcast
      rw [hleader] at hrecover hbroadcast
      exact ⟨sign, hsigns, hrecover, hbroadcast⟩

variable [Zero Hash] {block : BlockLocalVerifyOK Hash State Tx Receipt}

omit hrole in
theorem AwaitsResponse.attempts_iff (h : p.AwaitsResponse node env result block) :
    p.addBroadcastMinerResult node env result = (p.responseReady result block).afterInsert node env ↔
      preVerifyBroadcastMinerResult node env result = true := by
  unfold addBroadcastMinerResult
  by_cases hpre : preVerifyBroadcastMinerResult node env result = false
  · rw [if_pos hpre]
    refine iff_of_false ?_ (by simp [hpre])
    intro heq
    obtain ⟨effects, htrace⟩ := afterInsert_trace node env (p.responseReady result block)
    rw [← heq] at htrace
    have hlen := congrArg List.length htrace
    simp [responseReady, GenProcess.record, saveReadyBlock] at hlen
  · rw [if_neg hpre]
    refine iff_of_true ?_ (Bool.not_eq_false _ ▸ hpre)
    have hpick := pickBroadcast_append h.first h.executed
    have hinserts : (p.responseReady result block).Inserts node := h.inserts
    unfold processMinerResultVerify
    rw [if_neg (fun hno => hno.2 h.state), if_pos h.height]
    unfold dealMinerResultVerifyBroadcast
    dsimp only
    rw [hpick]
    dsimp only
    rw [if_pos (by exact h.state), processBlockInsert_eq]
    exact if_pos ⟨.inl rfl, hinserts⟩

theorem responseFollowsRule_iff (h : p.AwaitsResponse node env result block) :
    p.ResponseFollowsRule node env result block ↔ FitsResponse node.engine result.header := by
  unfold ResponseFollowsRule
  rw [h.attempts_iff]
  exact preVerify_follows_iff hrole (h.number ▸ h.height)

/-- A response that the rule refuses changes nothing, whatever the process is doing. -/
theorem response_refused (hb : isBroadcastNumber result.header.number = true)
    (hrule : node.engine.verifyBroadcastBlock result.header ≠ .ok ()) :
    p.addBroadcastMinerResult node env result = p := by
  unfold addBroadcastMinerResult
  refine if_pos (Bool.eq_false_iff.mpr (fun hpre => hrule ?_))
  obtain ⟨sign, hsigns, hrecover, hbroadcast⟩ := (preVerifyBroadcastMinerResult_iff hrole hb).mp hpre
  exact node.engine.verifyBroadcastBlock_ok_iff.mpr ⟨sign, _, hsigns, hrecover, hbroadcast⟩

end Roles

end Rule

section Sample

/-- A node with the broadcast nodes 100 and 101. A signature is its account, with a bit for a
disagreement. -/
def broadcastNode : GenNode ℕ ℕ ℕ where
  engine := {
    headerHash := UnsignedHeader.number
    recover := fun _ sign => some (sign.setWidth 160, !sign.getLsbD 200)
    broadCastNodes := [100,101] }
  hashing := twoTxNode.hashing
  address := 100
  blockHash := fun header => header.signatures.length+1

def disagreeing (sign : Signature) : Signature := sign ||| .twoPow 520 200

noncomputable def broadcastEnv : GenEnv ℕ ℕ ℕ ℕ :=
  { twoTxEnv with accountRole := getAccountOriginalRole [100,101] (fun _ => .ok []) }

theorem broadcastEnv_role : broadcastEnv.accountRole =
    getAccountOriginalRole broadcastNode.engine.broadCastNodes (fun _ => .ok []) := rfl

def broadcastHeader (signatures : List Signature) : Header ℕ :=
  { twoTxHeader with leader := 100, number := 20, signatures := signatures }

/-- The process of a validator that leads the next height. -/
def waitingProcess : GenProcess ℕ ℕ ℕ ℕ :=
  { newGenProcess 20 with state := .minerResultVerify, role := .validator, curLeader := 100, nextLeader := 100 }

theorem waitingProcess_awaits (signatures : List Signature) : ∃ block,
    waitingProcess.AwaitsResponse broadcastNode broadcastEnv ⟨broadcastHeader signatures, []⟩ block :=
  ⟨_, rfl, by decide, rfl, rfl, rfl, by decide⟩

end Sample

end GenProcess

end MatrixNode
