import MatrixNode.PoolMessages

/-! Which messages of a peer make the transaction pool dereference nil. -/
namespace MatrixNode
namespace PoolState
open GoLib Option Finset

structure Inv (p : PoolState) : Prop where
  complete : ∀ r ∈ p.accepted, (p.object r).data.Complete
  allocated : ∀ r ∈ p.accepted, r < p.next
  filed : ∀ h r, p.sContainer.lookup h = some r → r ∈ p.accepted
  pooled : ∀ h r, p.all.lookup h = some r → r ∈ p.accepted

structure Keeps (p p' : PoolState) : Prop where
  object : p'.object = p.object
  next : p'.next = p.next
  accepted : p.accepted ⊆ p'.accepted
  bound : ∀ n r, p'.nContainer.lookup n = some r → p.nContainer.lookup n = some r

theorem Keeps.refl (p : PoolState) : Keeps p p := ⟨rfl, rfl, Subset.refl _, fun _ _ h => h⟩

theorem Keeps.trans {p p' p'' : PoolState} (h : Keeps p p') (h' : Keeps p' p'') : Keeps p p'' :=
  ⟨h'.object.trans h.object, h'.next.trans h.next, h.accepted.trans h'.accepted,
    fun n r hn => h.bound n r (h'.bound n r hn)⟩

theorem keeps_containers (p : PoolState) (filed pooled : GoMap (BitVec 256) ℕ) :
    Keeps p { p with sContainer := filed, all := pooled } :=
  ⟨rfl, rfl, Subset.refl _, fun _ _ hn => hn⟩

theorem inv_empty : Inv empty :=
  ⟨fun r hr => absurd hr (notMem_empty r), fun r hr => absurd hr (notMem_empty r),
    fun _ _ hr => (by cases hr), fun _ _ hr => (by cases hr)⟩

section Store
variable {p : PoolState} {r : ℕ}

@[simp] theorem object_store_self (p : PoolState) (r : ℕ) (tx : TxObject) :
    (p.store r tx).object r = tx := Function.update_self ..

theorem object_store_of_ne {r' : ℕ} (h : r' ≠ r) (tx : TxObject) :
    (p.store r tx).object r' = p.object r' := Function.update_of_ne h ..

theorem Inv.store (h : Inv p) (tx : TxObject) (hdata : r ∈ p.accepted → tx.data.Complete) :
    Inv (p.store r tx) := by
  refine ⟨?_, h.allocated, h.filed, h.pooled⟩
  intro r' hr'
  by_cases hr : r' = r
  · subst hr
    rw [object_store_self]
    exact hdata hr'
  · rw [object_store_of_ne hr]
    exact h.complete r' hr'

theorem Inv.setTxNum (h : Inv p) (n : UInt32) : Inv (p.setTxNum r n) := h.store _ (h.complete r)

/-- S is the only field that changes, and it is there afterwards. -/
theorem Inv.setTxS (h : Inv p) (s : ℤ) : Inv (p.setTxS r s) := by
  refine h.store _ fun hr => ?_
  have hcomplete := h.complete r hr
  exact ⟨hcomplete.price, hcomplete.amount, hcomplete.v, hcomplete.r, some_ne_none s,
    hcomplete.payments⟩

theorem Inv.alloc (h : Inv p) (d : Txdata) : Inv (p.alloc d) := by
  have hfresh : p.next ∉ p.accepted := fun hmem => Nat.lt_irrefl _ (h.allocated _ hmem)
  obtain ⟨hcomplete, hallocated, hfiled, hpooled⟩ := h.store ⟨d, []⟩ fun hr => absurd hr hfresh
  exact ⟨hcomplete, fun r hr => (hallocated r hr).trans (Nat.lt_succ_self _), hfiled, hpooled⟩

theorem Inv.setnTx (h : Inv p) (n : UInt32) : Inv (p.setnTx n r) :=
  ⟨h.complete, h.allocated, h.filed, h.pooled⟩

theorem Inv.storeNs (h : Inv p) (n : UInt32) (s : Option ℤ) : Inv (p.storeNs n s) :=
  ⟨h.complete, h.allocated, h.filed, h.pooled⟩

theorem Inv.accept (h : Inv p) (hr : r < p.next) (hcomplete : (p.object r).data.Complete) :
    Inv { p with accepted := insert r p.accepted } := by
  refine ⟨?_, ?_, fun k r' hr' => mem_insert_of_mem (h.filed k r' hr'),
    fun k r' hr' => mem_insert_of_mem (h.pooled k r' hr')⟩
  · exact forall_mem_insert _ _ _ |>.mpr ⟨hcomplete, h.complete⟩
  · exact forall_mem_insert _ _ _ |>.mpr ⟨hr, h.allocated⟩

end Store

section Effects
variable {p : PoolState} {r : ℕ}

theorem readNumbers_of_complete {d : Txdata} (h : d.Complete) : readNumbers d = .ok () := by
  rw [readNumbers, if_pos]
  have hto : ∀ ex ∈ d.extraTo, ex.amount ≠ none := by
    intro ex hex
    have hall : ex ∈ d.allExtraTo := by
      cases hextra : d.extra with
      | nil => simp [Txdata.extraTo, hextra] at hex
      | cons e rest =>
        have hfirst : ex ∈ e.extraTo := by simpa [Txdata.extraTo, hextra] using hex
        simp [Txdata.allExtraTo, hextra, hfirst]
    exact (h.payments (List.ne_nil_of_mem hex)).2 ex hall
  simp only [List.all_cons, List.all_map, Bool.and_eq_true, isSome_iff_ne_none, List.all_eq_true,
    Function.comp_apply]
  exact ⟨h.price, h.amount, h.v, h.r, h.s, fun ex hex => hto ex hex⟩

theorem deleteMap_spec (h : Inv p) (hs : (p.object r).data.s ≠ none) :
    ∃ p', p.deleteMap r = .ok p' ∧ Inv p' ∧ Keeps p p' := by
  obtain ⟨s, hs⟩ := ne_none_iff_exists'.mp hs
  rw [PoolState.deleteMap, hs]
  refine ⟨_, rfl, ⟨h.complete, h.allocated, ?_, h.pooled⟩, ⟨rfl, rfl, Subset.refl _, ?_⟩⟩
  · intro k r' hr'
    exact h.filed k r' (GoMap.lookup_of_lookup_erase hr')
  · intro n r' hr'
    rw [GoMap.lookup_foldl_erase] at hr'
    split_ifs at hr'
    exact hr'

/-- This is where an incomplete transaction would be read through nil. -/
theorem effect_spec (h : Inv p) (e : PoolEffect) :
    ∃ p', p.effect e = .ok p' ∧ Inv p' ∧ Keeps p p' := by
  cases e with
  | read r =>
    rw [effect]
    split_ifs with hr
    · rw [readNumbers_of_complete (h.complete r hr)]
      exact ⟨p, rfl, h, .refl p⟩
    · exact ⟨p, rfl, h, .refl p⟩
  | allAdd hash r =>
    rw [effect]
    split_ifs with hr
    · have hpooled := GoMap.forall_lookup_insert (k := hash) h.pooled hr
      exact ⟨_, rfl, ⟨h.complete, h.allocated, h.filed, hpooled⟩, keeps_containers p _ _⟩
    · exact ⟨p, rfl, h, .refl p⟩
  | allRemove hash =>
    have hpooled : ∀ k r, (p.all.erase hash).lookup k = some r → r ∈ p.accepted :=
      fun k r hr => h.pooled k r (GoMap.lookup_of_lookup_erase hr)
    exact ⟨_, rfl, ⟨h.complete, h.allocated, h.filed, hpooled⟩, keeps_containers p _ _⟩
  | setsTx r =>
    rw [effect]
    split_ifs with hr
    · obtain ⟨s, hs⟩ := ne_none_iff_exists'.mp (h.complete r hr).s
      have hfiled := GoMap.forall_lookup_insert (k := hashOfS s) h.filed hr
      rw [hs]
      exact ⟨_, rfl, ⟨h.complete, h.allocated, hfiled, h.pooled⟩, keeps_containers p _ _⟩
    · exact ⟨p, rfl, h, .refl p⟩
  | deleteMap r =>
    rw [effect]
    split_ifs with hr
    · exact deleteMap_spec h (h.complete r hr).s
    · exact ⟨p, rfl, h, .refl p⟩

theorem run_effect_spec (h : Inv p) (effects : List PoolEffect) :
    ∃ p', run effect p effects = .ok p' ∧ Inv p' ∧ Keeps p p' := by
  induction effects generalizing p with
  | nil => exact ⟨p, rfl, h, .refl p⟩
  | cons e effects ih =>
    obtain ⟨p₁, h₁, hinv₁, hkeeps₁⟩ := effect_spec h e
    obtain ⟨p', hrun, hinv, hkeeps⟩ := ih hinv₁
    refine ⟨p', ?_, hinv, hkeeps₁.trans hkeeps⟩
    rw [run_cons, h₁]
    exact hrun

end Effects

section Add
variable {Hash : Type} {C : TxCrypto Hash} {txHash : Txdata → BitVec 256} {view : TxPool}
  {p : PoolState} {r : ℕ} {outcome : AddOutcome}

/-- The call of `addTx` with a new transaction comes to a pointer that is nil. -/
def AddReadsNil (C : TxCrypto Hash) (txHash : Txdata → BitVec 256) (view : TxPool) (p : PoolState)
    (d : Txdata) : Prop :=
  (isBroadcast d = true ∧ d.SenderReadsNil view.signer) ∨
    (isBroadcast d = false ∧ p.all.lookup (txHash d) = none ∧ d.ValidateReadsNil C view)

theorem addTx_reads_nil (hnew : r ∉ p.accepted)
    (hnil : AddReadsNil C txHash view p (p.object r).data) :
    addTx C txHash view p r outcome = .error nilDereference := by
  rw [addTx, if_neg hnew]
  rcases hnil with ⟨hbroadcast, hsender⟩ | ⟨hbroadcast, hunknown, hvalidate⟩
  · rw [if_pos hbroadcast, Txdata.sender_eq_error_iff.mpr ⟨hsender, rfl⟩]
    rfl
  · rw [if_neg (by rw [hbroadcast]; decide), if_neg (not_not.mpr hunknown),
      Txdata.validateTx_nil_iff.mpr hvalidate]
    rfl

/-- Behind the checks the transaction is complete, and the rest of the pool may have it. -/
theorem addTx_spec (outcome : AddOutcome) (h : Inv p) (hr : r < p.next)
    (hok : r ∈ p.accepted ∨ ¬ AddReadsNil C txHash view p (p.object r).data) :
    ∃ p' err, addTx C txHash view p r outcome = .ok (p', err) ∧ Inv p' ∧ Keeps p p' := by
  rw [addTx]
  by_cases haccepted : r ∈ p.accepted
  · obtain ⟨p', hrun, hinv, hkeeps⟩ := run_effect_spec h outcome.effects
    rw [if_pos haccepted, hrun]
    exact ⟨p', _, rfl, hinv, hkeeps⟩
  · have hnil := hok.resolve_left haccepted
    rw [if_neg haccepted]
    by_cases hbroadcast : isBroadcast (p.object r).data = true
    · rw [if_pos hbroadcast]
      cases hsender : (p.object r).data.sender C view.signer with
      | error e =>
        exact absurd (.inl ⟨hbroadcast, (Txdata.sender_eq_error_iff.mp hsender).1⟩) hnil
      | ok account => exact ⟨p, _, rfl, h, .refl p⟩
    · rw [if_neg hbroadcast]
      by_cases hknown : p.all.lookup (txHash (p.object r).data) ≠ none
      · rw [if_pos hknown]
        exact ⟨p, _, rfl, h, .refl p⟩
      · rw [if_neg hknown]
        cases hvalidate : (p.object r).data.validateTx C view with
        | ok _ =>
          have hinv := h.accept hr (Txdata.complete_of_validateTx hvalidate)
          obtain ⟨p', hrun, hinv', hkeeps⟩ := run_effect_spec hinv outcome.effects
          have hstart : Keeps p { p with accepted := insert r p.accepted } :=
            ⟨rfl, rfl, subset_insert _ _, fun _ _ hn => hn⟩
          refine ⟨p', outcome.err, ?_, hinv', hstart.trans hkeeps⟩
          simp only [hrun]
          rfl
        | error e =>
          have hreturned : e ≠ nilDereference := by
            rintro rfl
            have hreads := Txdata.validateTx_nil_iff.mp hvalidate
            exact hnil (.inr ⟨Bool.eq_false_iff.mpr hbroadcast, not_not.mp hknown, hreads⟩)
          simp only [hreturned, if_false]
          exact ⟨p, _, rfl, h, .refl p⟩

theorem addTx_returns_iff (h : Inv p) (hr : r < p.next) :
    (∃ added, addTx C txHash view p r outcome = .ok added) ↔
      (r ∈ p.accepted ∨ ¬ AddReadsNil C txHash view p (p.object r).data) := by
  constructor
  · rintro ⟨added, hadd⟩
    by_contra hbad
    rw [not_or, not_not] at hbad
    rw [addTx_reads_nil hbad.1 hbad.2] at hadd
    cases hadd
  · intro hok
    obtain ⟨p', err, hadd, -⟩ := addTx_spec outcome h hr hok
    exact ⟨_, hadd⟩

theorem addTx_keeps {added : PoolState × Option GoError} (h : Inv p) (hr : r < p.next)
    (hadd : addTx C txHash view p r outcome = .ok added) : Inv added.1 ∧ Keeps p added.1 := by
  have hok := (addTx_returns_iff h hr).mp ⟨added, hadd⟩
  obtain ⟨p', err, hadd', hinv, hkeeps⟩ := addTx_spec outcome h hr hok
  rw [hadd] at hadd'
  cases hadd'
  exact ⟨hinv, hkeeps⟩

/-- A transaction that is refused is taken out of the containers by its S. -/
theorem addFlood_spec (outcome : AddOutcome) (h : Inv p) (hr : r < p.next)
    (hs : (p.object r).data.s ≠ none)
    (hok : r ∈ p.accepted ∨ ¬ AddReadsNil C txHash view p (p.object r).data) :
    ∃ p', addFlood C txHash view p r outcome = .ok p' ∧ Inv p' ∧ Keeps p p' := by
  obtain ⟨p₁, err, hadd, hinv, hkeeps⟩ := addTx_spec outcome h hr hok
  rw [addFlood, hadd, ok_bind]
  split_ifs
  · have hs₁ : (p₁.object r).data.s ≠ none := by rwa [hkeeps.object]
    obtain ⟨p', hdelete, hinv', hkeeps'⟩ := deleteMap_spec hinv hs₁
    exact ⟨p', hdelete, hinv', hkeeps.trans hkeeps'⟩
  · exact ⟨p₁, rfl, hinv, hkeeps⟩

theorem addFlood_returns_iff (h : Inv p) (hr : r < p.next) (hs : (p.object r).data.s ≠ none) :
    (∃ p', addFlood C txHash view p r outcome = .ok p') ↔
      (r ∈ p.accepted ∨ ¬ AddReadsNil C txHash view p (p.object r).data) := by
  constructor
  · rintro ⟨p', hflood⟩
    obtain ⟨added, hadd, -⟩ := bind_eq_ok_iff.mp hflood
    exact (addTx_returns_iff h hr).mp ⟨added, hadd⟩
  · intro hok
    obtain ⟨p', hflood, -⟩ := addFlood_spec outcome h hr hs hok
    exact ⟨p', hflood⟩

theorem alloc_spec (h : Inv p) (d : Txdata) :
    p.next < (p.alloc d).next ∧ p.next ∉ (p.alloc d).accepted ∧
      ((p.alloc d).object p.next).data = d := by
  have hfresh : p.next ∉ p.accepted := fun hmem => Nat.lt_irrefl _ (h.allocated _ hmem)
  refine ⟨Nat.lt_succ_self _, hfresh, ?_⟩
  simp [alloc, store]

theorem addNew_returns_iff (h : Inv p) {d : Txdata} :
    (∃ p', addNew C txHash view p d outcome = .ok p') ↔ ¬ AddReadsNil C txHash view p d := by
  obtain ⟨hlt, hfresh, hdata⟩ := alloc_spec h d
  have hadd : (∃ added, addTx C txHash view (p.alloc d) p.next outcome = .ok added) ↔
      ¬ AddReadsNil C txHash view p d := by
    rw [addTx_returns_iff (h.alloc d) hlt, or_iff_right hfresh, hdata]
    rfl
  rw [← hadd]
  constructor
  · rintro ⟨p', hp'⟩
    obtain ⟨added, hadded, -⟩ := bind_eq_ok_iff.mp hp'
    exact ⟨added, hadded⟩
  · rintro ⟨added, hadded⟩
    exact ⟨added.1, bind_eq_ok_iff.mpr ⟨added, hadded, rfl⟩⟩

theorem addNew_keeps {p' : PoolState} {d : Txdata} (h : Inv p)
    (hp' : addNew C txHash view p d outcome = .ok p') : Inv p' ∧ Keeps (p.alloc d) p' := by
  obtain ⟨added, hadded, hfirst⟩ := bind_eq_ok_iff.mp hp'
  cases hfirst
  exact addTx_keeps (h.alloc d) (alloc_spec h d).1 hadded

end Add

section Turns
variable {Hash : Type} {C : TxCrypto Hash} {txHash : Txdata → BitVec 256} {view : TxPool}
  {p : PoolState}

variable {p' : PoolState} {s : ℤ} {outcome : AddOutcome}

theorem filedOr_of_some {r : ℕ} (d : Txdata) (h : p.getTxbyS s = some r) :
    p.filedOr s d = (r,p) := by
  rw [filedOr, h]

theorem filedOr_of_none (d : Txdata) (h : p.getTxbyS s = none) :
    p.filedOr s d = (p.next, p.alloc d) := by
  rw [filedOr, h]

theorem Inv.filedOr (h : Inv p) (s : ℤ) (d : Txdata) : Inv (p.filedOr s d).2 := by
  cases hs : p.getTxbyS s with
  | none =>
    rw [filedOr_of_none d hs]
    exact h.alloc d
  | some r =>
    rw [filedOr_of_some d hs]
    exact h

def floodTarget (p : PoolState) (n : UInt32) (s : ℤ) (ftx : Floodtxdata) : ℕ × PoolState :=
  let target := p.filedOr s (setFloodData ftx)
  (target.1, ((target.2.setTxNum target.1 n).setnTx n target.1).setTxS target.1 s)

variable {n : UInt32}

theorem recvFloodTx_eq {ftx : Floodtxdata} (hs : p.mapNs.lookup n = some (some s)) (hn : n ≠ 0) :
    recvFloodTx C txHash view p n (some ftx) outcome =
      addFlood C txHash view (p.floodTarget n s ftx).2 (p.floodTarget n s ftx).1 outcome := by
  rw [recvFloodTx, hs]
  exact if_neg hn

def withS (ftx : Floodtxdata) (s : ℤ) : Txdata := { setFloodData ftx with s := some s }

/-- The transaction is built from the message, at an address where nothing was accepted. -/
theorem floodTarget_spec (h : Inv p) (n : UInt32) (s : ℤ) (ftx : Floodtxdata) :
    Inv (p.floodTarget n s ftx).2 ∧ (p.floodTarget n s ftx).1 < (p.floodTarget n s ftx).2.next ∧
      ((p.floodTarget n s ftx).2.object (p.floodTarget n s ftx).1).data.s = some s ∧
      (p.floodTarget n s ftx).2.all = p.all ∧
      ((p.floodTarget n s ftx).1 ∈ (p.floodTarget n s ftx).2.accepted ↔ p.getTxbyS s ≠ none) ∧
      (p.getTxbyS s = none →
        ((p.floodTarget n s ftx).2.object (p.floodTarget n s ftx).1).data = withS ftx s) := by
  have hinv : Inv (p.floodTarget n s ftx).2 := (((h.filedOr s _).setTxNum n).setnTx n).setTxS s
  refine ⟨hinv, ?_⟩
  rw [floodTarget]
  cases hs : p.getTxbyS s with
  | none =>
    rw [filedOr_of_none _ hs]
    have hfresh : p.next ∉ p.accepted := fun hmem => Nat.lt_irrefl _ (h.allocated _ hmem)
    refine ⟨Nat.lt_succ_self _, ?_, rfl, iff_of_false hfresh (not_not.mpr rfl), fun _ => ?_⟩
    · simp [setTxS]
    · simp [setTxS, setTxNum, setnTx, alloc, withS, store]
  | some r =>
    rw [filedOr_of_some _ hs]
    have haccepted := h.filed _ r hs
    refine ⟨h.allocated r haccepted, ?_, rfl, iff_of_true haccepted (some_ne_none r), ?_⟩
    · simp [setTxS]
    · intro hnone
      cases hnone

theorem floodTarget_s_ne_none (h : Inv p) (n : UInt32) (s : ℤ) (f : Floodtxdata) :
    ((p.floodTarget n s f).2.object (p.floodTarget n s f).1).data.s ≠ none := by
  rw [(floodTarget_spec h n s f).2.2.1]
  exact some_ne_none s

/-- A transaction that is filed under S was accepted; a new one has the data of the message. -/
theorem recvFloodTx_returns_iff (h : Inv p) {ftx : Option Floodtxdata}
    (hs : p.mapNs.lookup n = some (some s)) (hn : n ≠ 0) :
    (∃ p', recvFloodTx C txHash view p n ftx outcome = .ok p') ↔
      ∃ f, ftx = some f ∧ (p.getTxbyS s = none → ¬ AddReadsNil C txHash view p (withS f s)) := by
  cases ftx with
  | none =>
    refine iff_of_false ?_ fun ⟨f, hf, _⟩ => by cases hf
    rintro ⟨p', hp'⟩
    rw [recvFloodTx, hs] at hp'
    simp only [if_neg hn] at hp'
    cases hp'
  | some f =>
    obtain ⟨hinv, hlt, -, hall, haccepted, hnew⟩ := floodTarget_spec h n s f
    have hsome := floodTarget_s_ne_none h n s f
    rw [recvFloodTx_eq hs hn, addFlood_returns_iff hinv hlt hsome, haccepted, AddReadsNil, hall]
    by_cases hfiled : p.getTxbyS s = none
    · rw [hnew hfiled]
      simp [hfiled, AddReadsNil]
    · simp [hfiled]

theorem recvFloodTx_keeps (h : Inv p) {f : Floodtxdata} (hs : p.mapNs.lookup n = some (some s))
    (hn : n ≠ 0) (hp' : recvFloodTx C txHash view p n (some f) outcome = .ok p') :
    Inv p' ∧ Keeps (p.floodTarget n s f).2 p' := by
  obtain ⟨hinv, hlt, -⟩ := floodTarget_spec h n s f
  have hsome := floodTarget_s_ne_none h n s f
  rw [recvFloodTx_eq hs hn] at hp'
  have hok := (addFlood_returns_iff hinv hlt hsome).mp ⟨p', hp'⟩
  obtain ⟨p₁, hflood, hinv₁, hkeeps⟩ := addFlood_spec outcome hinv hlt hsome hok
  rw [hp'] at hflood
  cases hflood
  exact ⟨hinv₁, hkeeps⟩

variable {txMx : Option MxData} {err : Option GoError}

/-- The conversion comes first: a nil transaction fails also if the error would have ended the case.
-/
theorem broadCast_returns_iff (h : Inv p) :
    (∃ p', broadCast C txHash view p txMx err outcome = .ok p') ↔
      txMx ≠ none ∧ (err = none →
        ∀ d, MxData.setTransactionMx txMx = .ok d → ¬ AddReadsNil C txHash view p d) := by
  cases txMx with
  | none =>
    refine iff_of_false ?_ fun hsome => hsome.1 rfl
    rintro ⟨p', hp'⟩
    cases hp'
  | some mx =>
    obtain ⟨d, hd⟩ : ∃ d, MxData.setTransactionMx (some mx) = .ok d := ⟨_, rfl⟩
    rw [broadCast, hd, ok_bind]
    cases err with
    | some e => exact iff_of_true ⟨p, rfl⟩ ⟨some_ne_none mx, fun herr => by cases herr⟩
    | none =>
      rw [addNew_returns_iff h]
      constructor
      · intro hok
        refine ⟨some_ne_none mx, fun _ d' hd' => ?_⟩
        cases hd'
        exact hok
      · intro hok
        exact hok.2 rfl d rfl

theorem broadCast_inv (h : Inv p) (hp' : broadCast C txHash view p txMx err outcome = .ok p') :
    Inv p' := by
  obtain ⟨d, -, hadd⟩ := bind_eq_ok_iff.mp hp'
  cases err with
  | some e =>
    cases hadd
    exact h
  | none => exact (addNew_keeps h hadd).1

theorem checkTx_spec (h : Inv p) (n : UInt32) (s : Option ℤ) :
    ∃ p', p.checkTx n s = .ok p' ∧ Inv p' := by
  cases s with
  | none => exact ⟨p, rfl, h⟩
  | some s =>
    rw [checkTx]
    split_ifs with hn
    · exact ⟨p, rfl, h⟩
    · have hstored := h.storeNs n (some s)
      cases p.getTxbyS s with
      | none => exact ⟨_, rfl, hstored⟩
      | some r =>
        refine ⟨_, rfl, ?_⟩
        apply Inv.setnTx
        split_ifs
        · exact hstored
        · exact hstored.setTxNum n

theorem recvConsensusFloodTx_spec (h : Inv p) (n : UInt32) (d : Txdata) :
    ∃ p', p.recvConsensusFloodTx n (some d) = .ok p' ∧ Inv p' := by
  rw [recvConsensusFloodTx]
  cases d.s with
  | none => exact ⟨_, rfl, h.storeNs n none⟩
  | some s =>
    have hstored := h.storeNs n (some s)
    split_ifs with hn
    · exact ⟨_, rfl, hstored⟩
    · exact ⟨_, rfl, ((hstored.filedOr s d).setTxNum n).setnTx n⟩

/-- Before the turn nothing that it uses is nil: not the entry, nor what the checks in `addTx` come
to. -/
def Harmless (C : TxCrypto Hash) (txHash : Txdata → BitVec 256) (p : PoolState) : Turn → Prop
  | .deref isNil => isNil = false
  | .checkTx _ _ => True
  | .recvFloodTx view n ftx _ => ∀ s, p.mapNs.lookup n = some (some s) → n ≠ 0 →
      ∃ f, ftx = some f ∧ (p.getTxbyS s = none → ¬ AddReadsNil C txHash view p (withS f s))
  | .recvConsensusFloodTx _ tx => tx ≠ none
  | .recvErrTx s => s ≠ none
  | .broadCast view txMx err _ => txMx ≠ none ∧ (err = none →
      ∀ d, MxData.setTransactionMx txMx = .ok d → ¬ AddReadsNil C txHash view p d)

theorem named_or_unnamed (p : PoolState) (n : UInt32) :
    (∃ s, p.mapNs.lookup n = some (some s) ∧ n ≠ 0) ∨
      ∀ s, p.mapNs.lookup n = some (some s) → n = 0 := by
  by_cases hnamed : ∃ s, p.mapNs.lookup n = some (some s) ∧ n ≠ 0
  · exact .inl hnamed
  · right
    intro s hs
    by_contra hn
    exact hnamed ⟨s, hs, hn⟩

theorem recvFloodTx_of_unnamed (ftx : Option Floodtxdata) (outcome : AddOutcome)
    (h : ∀ s, p.mapNs.lookup n = some (some s) → n = 0) :
    recvFloodTx C txHash view p n ftx outcome = .ok p := by
  rw [recvFloodTx]
  cases hs : p.mapNs.lookup n with
  | none => rfl
  | some named =>
    cases named with
    | none => rfl
    | some s => exact if_pos (h s hs)

/-- Without a known S for the code, null is never looked at. -/
theorem turn_returns_iff (h : Inv p) (t : Turn) :
    (∃ p', turn C txHash p t = .ok p') ↔ Harmless C txHash p t := by
  cases t with
  | deref isNil => cases isNil <;> simp [turn, Harmless]
  | checkTx n s =>
    obtain ⟨p', hp', -⟩ := checkTx_spec h n s
    exact iff_of_true ⟨p', hp'⟩ trivial
  | recvFloodTx view n ftx outcome =>
    rcases named_or_unnamed p n with ⟨s, hs, hn⟩ | hzero
    · refine (recvFloodTx_returns_iff h hs hn).trans ⟨fun hok s' hs' _ => ?_, fun hok => hok s hs hn⟩
      rw [hs] at hs'
      cases hs'
      exact hok
    · exact iff_of_true ⟨p, recvFloodTx_of_unnamed ftx outcome hzero⟩
        fun s hs hn => absurd (hzero s hs) hn
  | recvConsensusFloodTx n tx =>
    cases tx with
    | none => simp [turn, Harmless, recvConsensusFloodTx]
    | some d =>
      obtain ⟨p', hp', -⟩ := recvConsensusFloodTx_spec h n d
      exact iff_of_true ⟨p', hp'⟩ (some_ne_none d)
  | recvErrTx s => cases s <;> simp [turn, Harmless, recvErrTx]
  | broadCast view txMx err outcome => exact broadCast_returns_iff h

theorem turn_inv (h : Inv p) {t : Turn} (hp' : turn C txHash p t = .ok p') : Inv p' := by
  cases t with
  | deref isNil =>
    cases isNil <;> cases hp'
    exact h
  | checkTx n s =>
    obtain ⟨p₁, hp₁, hinv⟩ := checkTx_spec h n s
    cases hp₁.symm.trans hp'
    exact hinv
  | recvFloodTx view n ftx outcome =>
    rcases named_or_unnamed p n with ⟨s, hs, hn⟩ | hzero
    · obtain ⟨f, rfl, -⟩ := (recvFloodTx_returns_iff h hs hn).mp ⟨p', hp'⟩
      exact (recvFloodTx_keeps h hs hn hp').1
    · cases (recvFloodTx_of_unnamed ftx outcome hzero).symm.trans hp'
      exact h
  | recvConsensusFloodTx n tx =>
    cases tx with
    | none => cases hp'
    | some d =>
      obtain ⟨p₁, hp₁, hinv⟩ := recvConsensusFloodTx_spec h n d
      cases hp₁.symm.trans hp'
      exact hinv
  | recvErrTx s =>
    cases s with
    | none => cases hp'
    | some s =>
      cases hp'
      exact h
  | broadCast view txMx err outcome => exact broadCast_inv h hp'

theorem packageSN_inv (h : Inv p) (s : ℤ) (code : UInt32) : Inv (packageSN p s code) := by
  rw [packageSN]
  cases p.getTxbyS s with
  | none => exact h
  | some r =>
    simp only
    split_ifs
    · exact (h.setTxNum code).setnTx code
    · exact h

theorem step_inv (h : Inv p) {i : Input} (hp' : step C txHash p i = .ok p') : Inv p' := by
  cases i with
  | message t => exact turn_inv h hp'
  | submit view tx outcome => exact (addNew_keeps h hp').1
  | maintain effects =>
    obtain ⟨p₁, hrun, hinv, -⟩ := run_effect_spec h effects
    cases hrun.symm.trans hp'
    exact hinv
  | packageSN s code =>
    cases hp'
    exact packageSN_inv h s code
  | deletnTx n =>
    cases hp'
    exact ⟨h.complete, h.allocated, h.filed, h.pooled⟩

theorem run_inv (h : Inv p) {inputs : List Input} (hrun : run (step C txHash) p inputs = .ok p') :
    Inv p' :=
  run_preserves (fun _ _ _ (_ : True) h hp' => step_inv h hp') (fun _ _ => trivial) h hrun

/-- In every pool, a message is handled without a nil dereference exactly if each of its turns is
harmless in the pool that it finds. -/
theorem processMsg_returns_iff {inputs : List Input}
    (hrun : run (step C txHash) empty inputs = .ok p) (data : List (Option MsgStruct))
    (c : Choices) :
    (∃ p', processMsg C txHash view p data c = .ok p') ↔
      EachBefore (turn C txHash) (Harmless C txHash) p (turns view c data) :=
  run_returns_iff (fun _ _ _ h hp' => turn_inv h hp') (fun _ t hinv => turn_returns_iff hinv t)
    (run_inv inv_empty hrun)

noncomputable def sampleChoices : Choices := ⟨default, default, default, fun _ => ⟨none, [], none⟩⟩

def sampleCrypto : TxCrypto SigContent := .sampleTxCrypto (.frontier TxPool.paidBody)

def everySignature : TxCrypto SigContent := { sampleCrypto with ecrecover := fun _ _ => .ok [4] }

def sampleNumbered (nonce : UInt64) (s : ℕ) : Transaction :=
  { TxPool.paidBody with accountNonce := nonce, extra := [], v := 27, r := 1, s := s }

def sampleHash (d : Txdata) : BitVec 256 := .ofInt 256 (d.s.getD 0)

def numberedInputs : List Input :=
  [.submit TxPool.samplePool (sampleNumbered 1 5) ⟨none, [.allAdd 5 0, .setsTx 0], none⟩,
   .submit TxPool.samplePool (sampleNumbered 2 6) ⟨none, [.allAdd 6 1, .setsTx 1], none⟩,
   .packageSN 5 128]

/-- The pool has two transactions, and a peer reports the S of one of them. -/
theorem processMsg_returns_for_pooled : ∃ p p',
    run (step everySignature sampleHash) empty numberedInputs = .ok p ∧ p.getTxbyS 5 = some 0 ∧
      processMsg everySignature sampleHash TxPool.samplePool p
        [some ⟨recvErr, some (.array [.integer false 5])⟩] sampleChoices = .ok p' := by
  have hrun : run (step everySignature sampleHash) empty numberedInputs = .ok _ := rfl
  obtain ⟨p', hp'⟩ := (processMsg_returns_iff hrun [some ⟨recvErr, some (.array [.integer false 5])⟩]
    sampleChoices).mpr ⟨rfl, fun p hp => ⟨some_ne_none 5, fun _ _ => trivial⟩⟩
  exact ⟨_, p', hrun, by decide +kernel, hp'⟩

/-- A transaction that is no JSON, one without numbers, and a list of S with null in it. -/
theorem malformed_messages_crash :
    processMsg sampleCrypto (fun _ => 0) TxPool.samplePool empty [some ⟨broadCastTx, none⟩]
        sampleChoices = .error nilDereference ∧
      processMsg sampleCrypto (fun _ => 0) TxPool.samplePool empty
        [some ⟨broadCastTx, some (.object [])⟩] sampleChoices = .error nilDereference ∧
      processMsg sampleCrypto (fun _ => 0) TxPool.samplePool empty
        [some ⟨recvErr, some (.array [.null])⟩] sampleChoices = .error nilDereference :=
  ⟨rfl, rfl, rfl⟩

end Turns

end PoolState

end MatrixNode
