import MatrixNode.PoolMessageSafety

/-! Which messages of a peer leave the codes of pooled transactions alone, and which codes that came in
replies go with the next block. -/
namespace MatrixNode
open GoLib

namespace PoolState
variable (p : PoolState)

def Pooled (r : ℕ) : Prop := ∃ hash, p.all.lookup hash = some r

def codeTx (n : UInt32) : Option Txdata := (p.nContainer.lookup n).map fun r => (p.object r).data

def BoundTo (n : UInt32) (d : Txdata) : Prop :=
  ∃ r, p.nContainer.lookup n = some r ∧ Pooled p r ∧ (p.object r).data = d

/-- The code may be taken back, but it is not bound to a different transaction. -/
def KeepsCode (n : UInt32) (p p' : PoolState) : Prop :=
  ∀ d d', BoundTo p n d → codeTx p' n = some d' → d' = d

def filedData (s : ℤ) (d : Txdata) : Txdata := (p.getTxbyS s).elim d fun r => (p.object r).data

/-- The transaction that a turn writes a code for is the one that has the code, if a pooled one
has it. A flooded transaction also gets the S that was named for it. -/
def Agrees : Turn → Prop
  | .checkTx n (some s) => n ≠ 0 → ∀ r d, p.getTxbyS s = some r → BoundTo p n d → (p.object r).data = d
  | .recvConsensusFloodTx n (some tx) =>
    ∀ s d, tx.s = some s → n ≠ 0 → BoundTo p n d → p.filedData s tx = d
  | .recvFloodTx _ n (some f) _ => ∀ s, p.mapNs.lookup n = some (some s) → n ≠ 0 →
      (∀ r m, p.getTxbyS s = some r → p.nContainer.lookup m = some r → Pooled p r →
        (p.object r).data.s = some s) ∧
      ∀ d, BoundTo p n d → { p.filedData s (setFloodData f) with s := some s } = d
  | _ => True

def InputAgrees : Input → Prop
  | .message t => Agrees p t
  | _ => True

section Codes
variable {p q p' : PoolState} {n : UInt32} {r : ℕ}

theorem codeTx_eq_some_iff {d : Txdata} :
    codeTx p n = some d ↔ ∃ r, p.nContainer.lookup n = some r ∧ (p.object r).data = d :=
  Option.map_eq_some_iff

theorem KeepsCode.trans_keeps (h : KeepsCode n p q) (hkeeps : Keeps q p') : KeepsCode n p p' := by
  intro d d' hbound hcode
  apply h d d' hbound
  obtain ⟨r, hr, hdata⟩ := codeTx_eq_some_iff.mp hcode
  rw [hkeeps.object] at hdata
  exact codeTx_eq_some_iff.mpr ⟨r, hkeeps.bound n r hr, hdata⟩

def KeepsPooled (p q : PoolState) : Prop :=
  ∀ m r, p.nContainer.lookup m = some r → Pooled p r → (q.object r).data = (p.object r).data

theorem keepsCode_of_same (hcodes : ∀ r, q.nContainer.lookup n = some r → p.nContainer.lookup n = some r)
    (hdata : KeepsPooled p q) : KeepsCode n p q := by
  rintro d d' ⟨r, hr, hpooled, rfl⟩ hcode
  obtain ⟨r', hr', rfl⟩ := codeTx_eq_some_iff.mp hcode
  have hsame : r' = r := Option.some.inj ((hcodes r' hr').symm.trans hr)
  rw [hsame]
  exact hdata n r hr hpooled

theorem KeepsCode.refl (n : UInt32) (p : PoolState) : KeepsCode n p p :=
  keepsCode_of_same (fun _ hr => hr) fun _ _ _ _ => rfl

/-- Every other code has the entry that it had. -/
theorem keepsCode_setnTx (hcodes : q.nContainer = p.nContainer) (hdata : KeepsPooled p q)
    (hwritten : ∀ d, BoundTo p n d → (q.object r).data = d) (m : UInt32) :
    KeepsCode m p (q.setnTx n r) := by
  by_cases hm : m = n
  · subst hm
    intro d d' hbound hcode
    obtain ⟨r', hr', rfl⟩ := codeTx_eq_some_iff.mp hcode
    cases (Finmap.lookup_insert _).symm.trans hr'
    exact hwritten d hbound
  · apply keepsCode_of_same
    · intro r' hr'
      rw [← hcodes]
      exact (Finmap.lookup_insert_of_ne _ hm).symm.trans hr'
    · exact hdata

@[simp] theorem data_setTxNum (p : PoolState) (r r' : ℕ) (n : UInt32) :
    ((p.setTxNum r n).object r').data = (p.object r').data := by
  by_cases hr : r' = r
  · rw [hr, setTxNum, object_store_self]
  · rw [setTxNum, object_store_of_ne hr]

theorem keepsPooled_alloc (h : Inv p) (d : Txdata) : KeepsPooled p (p.alloc d) := by
  intro m r _ hpooled
  obtain ⟨hash, hr⟩ := hpooled
  have hlt : r < p.next := h.allocated r (h.pooled hash r hr)
  show ((p.store p.next ⟨d, []⟩).object r).data = _
  rw [object_store_of_ne hlt.ne]

theorem keepsPooled_filedOr (h : Inv p) (s : ℤ) (d : Txdata) : KeepsPooled p (p.filedOr s d).2 := by
  cases hs : p.getTxbyS s with
  | none =>
    rw [filedOr_of_none d hs]
    exact keepsPooled_alloc h d
  | some r =>
    rw [filedOr_of_some d hs]
    exact fun _ _ _ _ => rfl

theorem getTxbyS_of_filedOr (h : Inv p) {s : ℤ} {d : Txdata} (hpooled : Pooled p (p.filedOr s d).1) :
    p.getTxbyS s = some (p.filedOr s d).1 := by
  cases hs : p.getTxbyS s with
  | none =>
    rw [filedOr_of_none d hs] at hpooled
    obtain ⟨hash, hr⟩ := hpooled
    exact absurd (h.allocated _ (h.pooled hash _ hr)) (Nat.lt_irrefl _)
  | some r => rw [filedOr_of_some d hs]

theorem data_filedOr (p : PoolState) (s : ℤ) (d : Txdata) :
    ((p.filedOr s d).2.object (p.filedOr s d).1).data = p.filedData s d := by
  cases hs : p.getTxbyS s with
  | none =>
    rw [filedOr_of_none d hs, filedData, hs]
    simp [alloc, store]
  | some r => rw [filedOr_of_some d hs, filedData, hs, Option.elim_some]

theorem nContainer_filedOr (p : PoolState) (s : ℤ) (d : Txdata) :
    (p.filedOr s d).2.nContainer = p.nContainer := by
  cases hs : p.getTxbyS s with
  | none => rw [filedOr_of_none d hs]; rfl
  | some r => rw [filedOr_of_some d hs]

end Codes

section Turns
variable {Hash : Type} {C : TxCrypto Hash} {txHash : Txdata → BitVec 256} {p p' : PoolState}

variable {n : UInt32}

/-- The transaction may have the code among its own numbers already, which changes none of its data.
-/
theorem checkTx_keepsCode {s : Option ℤ} (hagrees : Agrees p (.checkTx n s))
    (hp' : p.checkTx n s = .ok p') (m : UInt32) : KeepsCode m p p' := by
  cases s with
  | none =>
    cases hp'
    exact .refl m p
  | some s =>
    rw [checkTx] at hp'
    by_cases hn : n = 0
    · rw [if_pos hn] at hp'
      cases hp'
      exact .refl m p
    · rw [if_neg hn] at hp'
      cases hs : p.getTxbyS s with
      | none =>
        rw [hs] at hp'
        cases hp'
        exact .refl m p
      | some r =>
        rw [hs] at hp'
        cases hp'
        have hwritten := fun d hbound => hagrees hn r d hs hbound
        split_ifs
        · exact keepsCode_setnTx rfl (fun _ _ _ _ => rfl) hwritten m
        · apply keepsCode_setnTx
          · rfl
          · intro _ r' _ _
            exact data_setTxNum _ r r' n
          · intro d hbound
            rw [data_setTxNum]
            exact hwritten d hbound

/-- `mapNs` is written first, which neither the codes nor the transactions depend on. -/
theorem recvConsensusFloodTx_keepsCode (h : Inv p) {tx : Option Txdata}
    (hagrees : Agrees p (.recvConsensusFloodTx n tx)) (hp' : p.recvConsensusFloodTx n tx = .ok p')
    (m : UInt32) : KeepsCode m p p' := by
  cases tx with
  | none => cases hp'
  | some d =>
    rw [recvConsensusFloodTx] at hp'
    cases hs : d.s with
    | none =>
      rw [hs] at hp'
      cases hp'
      exact .refl m p
    | some s =>
      simp only [hs] at hp'
      by_cases hn : n = 0
      · rw [if_pos hn] at hp'
        cases hp'
        exact .refl m p
      · rw [if_neg hn] at hp'
        cases hp'
        apply keepsCode_setnTx
        · exact nContainer_filedOr (p.storeNs n (some s)) s d
        · intro k r hr hpooled
          rw [data_setTxNum]
          exact keepsPooled_filedOr (h.storeNs n (some s)) s d k r hr hpooled
        · intro d' hbound
          rw [data_setTxNum, data_filedOr]
          exact hagrees s d' hs hn hbound

/-- The code is written before S, but neither write looks at the other. -/
theorem floodTarget_keepsCode (h : Inv p) {s : ℤ} {f : Floodtxdata}
    (hsame : ∀ r m, p.getTxbyS s = some r → p.nContainer.lookup m = some r → Pooled p r →
      (p.object r).data.s = some s)
    (hwritten : ∀ d, BoundTo p n d → { p.filedData s (setFloodData f) with s := some s } = d)
    (m : UInt32) : KeepsCode m p (p.floodTarget n s f).2 := by
  let target := p.filedOr s (setFloodData f)
  have hcommute : (p.floodTarget n s f).2 =
      ((target.2.setTxNum target.1 n).setTxS target.1 s).setnTx n target.1 := rfl
  rw [hcommute]
  apply keepsCode_setnTx
  · exact nContainer_filedOr p s _
  · intro k r hr hpooled
    have hkept := keepsPooled_filedOr h s (setFloodData f) k r hr hpooled
    by_cases htarget : r = target.1
    · subst htarget
      have hS := hsame _ k (getTxbyS_of_filedOr h hpooled) hr hpooled
      rw [setTxS, object_store_self, data_setTxNum, hkept, ← hS]
    · rw [setTxS, object_store_of_ne htarget, data_setTxNum]
      exact hkept
  · intro d hbound
    rw [setTxS, object_store_self, data_setTxNum]
    rw [data_filedOr]
    exact hwritten d hbound

variable {outcome : AddOutcome}

theorem recvFloodTx_keepsCode (h : Inv p) {view : TxPool} {ftx : Option Floodtxdata}
    (hagrees : Agrees p (.recvFloodTx view n ftx outcome))
    (hp' : recvFloodTx C txHash view p n ftx outcome = .ok p') (m : UInt32) : KeepsCode m p p' := by
  rcases named_or_unnamed p n with ⟨s, hs, hn⟩ | hzero
  · obtain ⟨f, rfl, -⟩ := (recvFloodTx_returns_iff h hs hn).mp ⟨p', hp'⟩
    obtain ⟨hsame, hwritten⟩ := hagrees s hs hn
    have htarget := floodTarget_keepsCode h hsame hwritten m
    exact htarget.trans_keeps (recvFloodTx_keeps h hs hn hp').2
  · cases (recvFloodTx_of_unnamed ftx outcome hzero).symm.trans hp'
    exact .refl m p

theorem addNew_keepsCode (h : Inv p) {view : TxPool} {d : Txdata}
    (hp' : addNew C txHash view p d outcome = .ok p') (m : UInt32) : KeepsCode m p p' := by
  have halloc : KeepsCode m p (p.alloc d) := by
    apply keepsCode_of_same
    · exact fun _ hr => hr
    · exact keepsPooled_alloc h d
  exact halloc.trans_keeps (addNew_keeps h hp').2

theorem turn_keepsCode (h : Inv p) {t : Turn} (hagrees : Agrees p t)
    (hp' : turn C txHash p t = .ok p') (m : UInt32) : KeepsCode m p p' := by
  cases t with
  | deref isNil =>
    cases isNil <;> cases hp'
    exact .refl m p
  | checkTx n s => exact checkTx_keepsCode hagrees hp' m
  | recvFloodTx view n ftx outcome => exact recvFloodTx_keepsCode h hagrees hp' m
  | recvConsensusFloodTx n tx => exact recvConsensusFloodTx_keepsCode h hagrees hp' m
  | recvErrTx s =>
    cases s <;> cases hp'
    exact .refl m p
  | broadCast view txMx err outcome =>
    obtain ⟨d, -, hadd⟩ := bind_eq_ok_iff.mp hp'
    cases err with
    | some e =>
      cases hadd
      exact .refl m p
    | none => exact addNew_keepsCode h hadd m

theorem step_keepsCode (h : Inv p) {i : Input} (hagrees : InputAgrees p i)
    (hp' : step C txHash p i = .ok p') (hown : ∀ s, i ≠ .packageSN s n) : KeepsCode n p p' := by
  cases i with
  | message t => exact turn_keepsCode h hagrees hp' n
  | submit view tx outcome => exact addNew_keepsCode h hp' n
  | maintain effects =>
    obtain ⟨p₁, hrun, -, hkeeps⟩ := run_effect_spec h effects
    cases hrun.symm.trans hp'
    exact (KeepsCode.refl n p).trans_keeps hkeeps
  | packageSN s code =>
    cases hp'
    have hcode : n ≠ code := fun heq => hown s (by rw [heq])
    rw [packageSN]
    cases p.getTxbyS s with
    | none => exact .refl n p
    | some r =>
      simp only
      split_ifs
      · apply keepsCode_of_same
        · intro r' hr'
          exact (Finmap.lookup_insert_of_ne _ hcode).symm.trans hr'
        · intro _ r' _ _
          exact data_setTxNum p r r' code
      · exact .refl n p
  | deletnTx code =>
    cases hp'
    exact keepsCode_of_same (fun _ hr => GoMap.lookup_of_lookup_erase hr) fun _ _ _ _ => rfl

def MessageKeepsCodes (p : PoolState) (i : Input) (p' : PoolState) : Prop :=
  ∀ t, i = .message t → ∀ n, KeepsCode n p p'

/-- The code stands for a pooled transaction, and the pool does not give it out again. -/
def Held (n : UInt32) (p : PoolState) (i : Input) : Prop :=
  (∃ d, BoundTo p n d) ∧ ∀ s, i ≠ .packageSN s n

theorem BoundTo.codeTx_eq {d : Txdata} (h : BoundTo p n d) : codeTx p n = some d := by
  obtain ⟨r, hr, -, hdata⟩ := h
  exact codeTx_eq_some_iff.mpr ⟨r, hr, hdata⟩

/-- The code is still bound after the step, either because the run ends or because it is held. -/
theorem codeTx_of_run {inputs : List Input} (h : Inv p)
    (hagrees : EachBefore (step C txHash) InputAgrees p inputs)
    (hheld : EachBefore (step C txHash) (Held n) p inputs)
    (hrun : run (step C txHash) p inputs = .ok p') {d d' : Txdata} (hd : codeTx p n = some d)
    (hd' : codeTx p' n = some d') : d' = d := by
  induction inputs generalizing p with
  | nil =>
    cases hrun
    exact Option.some.inj (hd'.symm.trans hd)
  | cons i inputs ih =>
    rw [run_cons, bind_eq_ok_iff] at hrun
    obtain ⟨p₁, h₁, hrun⟩ := hrun
    obtain ⟨⟨d₀, hbound⟩, hown⟩ := hheld.1
    have hbefore : d₀ = d := Option.some.inj (hbound.codeTx_eq.symm.trans hd)
    have hstep := step_keepsCode h hagrees.1 h₁ hown
    have hafter : codeTx p₁ n = some d := by
      cases inputs with
      | nil =>
        cases hrun
        rw [hd', hstep d₀ d' hbound hd', hbefore]
      | cons j inputs =>
        obtain ⟨d₁, hbound₁⟩ := (hheld.2 p₁ h₁).1.1
        rw [hbound₁.codeTx_eq, hstep d₀ d₁ hbound hbound₁.codeTx_eq, hbefore]
    exact ih (step_inv h h₁) (hagrees.2 p₁ h₁) (hheld.2 p₁ h₁) hrun hafter

/-- If every message agrees with the codes that it finds, no message rebinds one that stands for a
pooled transaction. -/
theorem codes_stay_bound {inputs : List Input}
    (hagrees : EachBefore (step C txHash) InputAgrees empty inputs) :
    EachStep (step C txHash) MessageKeepsCodes empty inputs ∧
      ∀ before after p p' n d d', inputs = before ++ after →
        run (step C txHash) empty before = .ok p → run (step C txHash) p after = .ok p' →
        EachBefore (step C txHash) (Held n) p after →
        codeTx p n = some d → codeTx p' n = some d' → d' = d := by
  constructor
  · refine eachStep_of_eachBefore (fun _ _ _ h _ hp' => step_inv h hp') ?_ inv_empty hagrees
    rintro p i p' h hinput hp' t rfl n
    exact turn_keepsCode h hinput hp' n
  · rintro before after p p' n d d' rfl hbefore hafter hheld hd hd'
    have hinv := run_inv inv_empty hbefore
    exact codeTx_of_run hinv (hagrees.of_append hbefore) hheld hafter hd hd'

/-- A peer repeats what the assigner of the code has sent. -/
theorem codes_stay_bound_repeated :
    EachStep (step everySignature sampleHash) MessageKeepsCodes empty
      (numberedInputs ++ [.message (.checkTx 128 (some 5))]) := by
  have hagrees : EachBefore (step everySignature sampleHash) InputAgrees empty
      (numberedInputs ++ [.message (.checkTx 128 (some 5))]) := by
    refine ⟨trivial, fun p₁ h₁ => ⟨trivial, fun p₂ h₂ => ⟨trivial, fun p₃ h₃ => ⟨?_, ?_⟩⟩⟩⟩
    · cases h₁
      cases h₂
      cases h₃
      rintro - r d hfiled ⟨r', hr', -, rfl⟩
      have hzero : r = 0 := Option.some.inj (hfiled.symm.trans (by decide +kernel))
      have hzero' : r' = 0 := Option.some.inj (hr'.symm.trans (by decide +kernel))
      rw [hzero, hzero']
    · exact fun _ _ => trivial
  exact (codes_stay_bound hagrees).1

/-- A peer floods the S of the second transaction for the code of the first one. -/
theorem code_rebound_by_peer :
    ∃ p p', run (step everySignature sampleHash) empty numberedInputs = .ok p ∧
      step everySignature sampleHash p (.message (.checkTx 128 (some 6))) = .ok p' ∧
      BoundTo p 128 (.ofTransaction (sampleNumbered 1 5)) ∧
      codeTx p' 128 = some (.ofTransaction (sampleNumbered 2 6)) := by
  refine ⟨_, _, rfl, rfl, ⟨0, ?_, ⟨5, ?_⟩, ?_⟩, ?_⟩
  · decide +kernel
  · decide +kernel
  · decide +kernel
  · decide +kernel

end Turns

end PoolState

/-- The pool with the codes that the replies at each height brought. -/
structure CodePool extends PoolState where
  mapHighttx : GoMap ℕ (List UInt32)
  currentBlock : ℕ

namespace CodePool
open PoolState List

/-- The `nlist` of a reply whose map is visited in this order. -/
def nlist (order : List (UInt32 × Option Txdata)) : List UInt32 :=
  (order.filter fun e => e.1 ≠ 0 ∧ (e.2.bind Txdata.s).isSome).map Prod.fst

def msgRecvConsensusFloodTx (pool : CodePool) (order : List (UInt32 × Option Txdata)) :
    Except GoError CodePool := do
  let p ← run (fun p e => p.recvConsensusFloodTx e.1 e.2) pool.toPoolState order
  return { pool with
    toPoolState := p
    mapHighttx :=
      if 0 < (nlist order).length then pool.mapHighttx.insert pool.currentBlock (nlist order)
      else pool.mapHighttx }

/-- `loop` with the event of the next block. The effects are those of `reset`, which calls `deleteMap`
for the transactions of the pool that it drops. -/
def chainHead (pool : CodePool) (effects : List PoolEffect) : Except GoError CodePool := do
  let p ← run effect pool.toPoolState effects
  let h := pool.currentBlock
  let txlist := (pool.mapHighttx.lookup h).getD []
  return {
    toPoolState := { p with nContainer := txlist.foldl (fun m n => m.erase n) p.nContainer }
    mapHighttx := pool.mapHighttx.erase h
    currentBlock := h+1 }

/-- The code is one of a transaction that the effects drop. -/
def Drops (p : PoolState) (effects : List PoolEffect) (n : UInt32) : Prop :=
  ∃ r ∈ p.accepted, .deleteMap r ∈ effects ∧ n ∈ (p.object r).numbers

section Steps
variable {p p' : PoolState} {pool pool' : CodePool} {n : UInt32}
  {replies : List (List (UInt32 × Option Txdata))}

theorem mem_foldl_erase {V : Type} {codes : List UInt32} {m : GoMap UInt32 V} :
    n ∈ codes.foldl (fun m n => m.erase n) m ↔ n ∈ m ∧ n ∉ codes := by
  rw [← Finmap.lookup_isSome, GoMap.lookup_foldl_erase]
  split_ifs with hmem <;> simp [hmem, Finmap.lookup_isSome]

theorem mem_nContainer_turn {k : UInt32} {tx : Option Txdata}
    (h : p.recvConsensusFloodTx k tx = .ok p') :
    n ∈ p'.nContainer ↔ n ∈ p.nContainer ∨ n ∈ nlist [(k,tx)] := by
  rcases tx with _ | d
  · cases h
  · rcases hs : d.s with _ | s
    · simp only [recvConsensusFloodTx, hs, Except.ok.injEq] at h
      subst h
      simp [nlist, hs, storeNs]
    · simp only [recvConsensusFloodTx, hs] at h
      split_ifs at h with hk
      · cases h
        simp [nlist, hk, storeNs]
      · cases h
        simp [nlist, hk, hs, setnTx, setTxNum, store, nContainer_filedOr, storeNs, or_comm]

theorem mem_nContainer_reply {order : List (UInt32 × Option Txdata)}
    (h : run (fun p e => p.recvConsensusFloodTx e.1 e.2) p order = .ok p') :
    n ∈ p'.nContainer ↔ n ∈ p.nContainer ∨ n ∈ nlist order := by
  induction order generalizing p with
  | nil =>
    cases h
    simp [nlist]
  | cons e order ih =>
    rw [run_cons, bind_eq_ok_iff] at h
    obtain ⟨p₁, hturn, hrun⟩ := h
    rw [ih hrun, mem_nContainer_turn hturn, or_assoc, ← mem_append]
    simp only [nlist, ← map_append, ← filter_append]
    rfl

/-- After the replies at a height their codes are all there, and the list of the height is that of the
last one with a code. -/
theorem replies_spec (h : run msgRecvConsensusFloodTx pool replies = .ok pool') :
    (∀ n, n ∈ pool'.nContainer ↔ n ∈ pool.nContainer ∨ ∃ order ∈ replies, n ∈ nlist order) ∧
    pool'.currentBlock = pool.currentBlock ∧
    pool'.mapHighttx.lookup pool.currentBlock =
      ((replies.map nlist).filter (· ≠ [])).getLast?.or (pool.mapHighttx.lookup pool.currentBlock) := by
  induction replies generalizing pool with
  | nil =>
    cases h
    simp
  | cons order replies ih =>
    rw [run_cons, bind_eq_ok_iff] at h
    obtain ⟨pool₁, hreply, hrun⟩ := h
    simp only [msgRecvConsensusFloodTx, bind_eq_ok_iff, pure_eq_ok, Except.ok.injEq] at hreply
    obtain ⟨p₁, hp₁, rfl⟩ := hreply
    obtain ⟨hmem, hblock, hlist⟩ := ih hrun
    refine ⟨fun n => ?_, hblock, hlist.trans ?_⟩
    · rw [hmem n]
      dsimp only
      rw [mem_nContainer_reply hp₁]
      simp [or_assoc]
    · rcases hn : nlist order with _ | ⟨n, ns⟩
      · simp [hn]
      · simp [hn, getLast?_cons, Option.or_some]

/-- An effect changes no transaction, and takes away only the codes of one that it drops. -/
theorem effect_codes {e : PoolEffect} (h : p.effect e = .ok p') :
    p'.object = p.object ∧ p'.accepted = p.accepted ∧
      ∀ n, n ∈ p'.nContainer ↔ n ∈ p.nContainer ∧ ¬ Drops p [e] n := by
  have hsame (hcontainer : p'.nContainer = p.nContainer) (he : ∀ r ∈ p.accepted, e ≠ .deleteMap r)
      (n : UInt32) : n ∈ p'.nContainer ↔ n ∈ p.nContainer ∧ ¬ Drops p [e] n := by
    rw [hcontainer, and_iff_left]
    rintro ⟨r, hr, hmem, -⟩
    exact he r hr (mem_singleton.mp hmem).symm
  cases e with
  | read r | setsTx r =>
    rw [effect] at h
    split_ifs at h
    · simp only [bind_eq_ok_iff, pure_eq_ok, Except.ok.injEq] at h
      obtain ⟨s, -, rfl⟩ := h
      exact ⟨rfl, rfl, hsame rfl (by simp)⟩
    · cases h
      exact ⟨rfl, rfl, hsame rfl (by simp)⟩
  | allAdd hash r =>
    rw [effect] at h
    split_ifs at h <;> cases h <;> exact ⟨rfl, rfl, hsame rfl (by simp)⟩
  | allRemove hash =>
    cases h
    exact ⟨rfl, rfl, hsame rfl (by simp)⟩
  | deleteMap r =>
    rw [effect] at h
    split_ifs at h with hr
    · unfold deleteMap at h
      split at h
      · cases h
      · cases h
        refine ⟨rfl, rfl, fun n => ?_⟩
        rw [mem_foldl_erase]
        simp [Drops, hr]
    · cases h
      refine ⟨rfl, rfl, hsame rfl ?_⟩
      rintro r' hr' ⟨⟩
      exact hr hr'

theorem mem_nContainer_effects {effects : List PoolEffect} (h : run effect p effects = .ok p')
    (n : UInt32) : n ∈ p'.nContainer ↔ n ∈ p.nContainer ∧ ¬ Drops p effects n := by
  induction effects generalizing p with
  | nil =>
    cases h
    simp [Drops]
  | cons e effects ih =>
    rw [run_cons, bind_eq_ok_iff] at h
    obtain ⟨p₁, heffect, hrun⟩ := h
    obtain ⟨hobject, haccepted, hmem⟩ := effect_codes heffect
    have hdrops : Drops p (e :: effects) n ↔ Drops p [e] n ∨ Drops p₁ effects n := by
      unfold Drops
      rw [hobject, haccepted]
      simp only [mem_cons, not_mem_nil, or_false, or_and_right, exists_or, and_or_left]
    rw [ih hrun, hmem, hdrops, not_or, and_assoc]

end Steps

/-- A code that came in a reply goes with the next block exactly if it is in the last reply of the
height, or if it is a code of a transaction that the pool drops with the block. -/
theorem codes_removed_iff {start pool pool' : CodePool}
    {replies : List (List (UInt32 × Option Txdata))} {effects : List PoolEffect}
    (hreplies : run msgRecvConsensusFloodTx start replies = .ok pool)
    (hhead : pool.chainHead effects = .ok pool') :
    (∀ order ∈ replies, ∀ n ∈ nlist order, n ∉ pool'.nContainer) ↔
      ∀ order ∈ replies, ∀ n ∈ nlist order,
        (∃ last ∈ ((replies.map nlist).filter (· ≠ [])).getLast?, n ∈ last) ∨
          Drops pool.toPoolState effects n := by
  obtain ⟨hmem, hblock, hlist⟩ := replies_spec hreplies
  simp only [chainHead, bind_eq_ok_iff, pure_eq_ok, Except.ok.injEq] at hhead
  obtain ⟨p, hreset, rfl⟩ := hhead
  refine forall₂_congr fun order horder => forall₂_congr fun n hn => ?_
  have hentered : n ∈ pool.nContainer := (hmem n).mpr (.inr ⟨order, horder, hn⟩)
  have hcode : nlist order ∈ (replies.map nlist).filter (· ≠ []) := by
    simpa using ⟨⟨order, horder, rfl⟩, ne_nil_of_mem hn⟩
  obtain ⟨last, hlast⟩ : ∃ last, ((replies.map nlist).filter (· ≠ [])).getLast? = some last :=
    ⟨_, getLast?_eq_some_getLast (ne_nil_of_mem hcode)⟩
  dsimp only
  rw [mem_foldl_erase, mem_nContainer_effects hreset, hblock, hlist, hlast]
  simp [hentered, imp_iff_not_or, or_comm]

/-- A pool with one transaction, whose S is 9. -/
def pooledNine : CodePool where
  toPoolState := { empty with
    object := fun _ => ⟨{ Txdata.zero with s := some 9 }, []⟩
    next := 1
    sContainer := (∅ : GoMap _ _).insert 9 0
    accepted := {0} }
  mapHighttx := ∅
  currentBlock := 5

def replyWith (n : UInt32) (s : ℤ) : List (UInt32 × Option Txdata) :=
  [(n,some { Txdata.zero with s := some s })]

/-- The code of the first reply goes with its transaction, which the new block has. -/
theorem codes_removed_with_block : ∃ pool pool',
    run msgRecvConsensusFloodTx pooledNine [replyWith 1 9, replyWith 2 8] = .ok pool ∧
      pool.chainHead [.deleteMap 0] = .ok pool' ∧ 1 ∉ pool'.nContainer ∧ 2 ∉ pool'.nContainer := by
  refine ⟨_, _, rfl, rfl, ?_⟩
  have hremoved := (@codes_removed_iff pooledNine _ _ [replyWith 1 9, replyWith 2 8] [.deleteMap 0]
    rfl rfl).mpr (by
      intro order horder n hn
      rcases mem_pair.mp horder with rfl | rfl
      · obtain rfl : n = 1 := by simpa [nlist, replyWith] using hn
        exact .inr ⟨0, by decide, mem_cons_self, by decide⟩
      · exact .inl ⟨_, rfl, hn⟩)
  exact ⟨hremoved _ mem_cons_self 1 (by decide), hremoved _ (mem_cons_of_mem _ mem_cons_self) 2
    (by decide)⟩

/-- Without that the code of the first reply stays, and no list has it any more. -/
theorem first_code_stays : ∃ pool pool',
    run msgRecvConsensusFloodTx pooledNine [replyWith 1 9, replyWith 2 8] = .ok pool ∧
      pool.chainHead [] = .ok pool' ∧ 1 ∈ pool'.nContainer ∧ 2 ∉ pool'.nContainer ∧
      pool'.mapHighttx = ∅ := by
  refine ⟨_, _, rfl, rfl, ?_⟩
  decide +kernel

end CodePool

end MatrixNode
