import MatrixNode.SenderNonces

/-! Replay protection: a transaction that has been applied leaves its sender with a higher nonce, and
nothing that is applied later brings the old one back. -/
namespace MatrixNode
open GoLib List

namespace TxCrypto
variable {Hash : Type} {C : TxCrypto Hash} {tx : Transaction} {signer signer' : Signer}
  {a b : Address}

theorem recoverPlain_unique {sighash : Hash} {r s : ℕ} {vb : ℤ} {homestead homestead' : Bool}
    (ha : C.recoverPlain sighash r s vb homestead = .ok a)
    (hb : C.recoverPlain sighash r s vb homestead' = .ok b) : a = b := by
  obtain ⟨-, -, pub, hpub, -, rfl⟩ := recoverPlain_eq_ok_iff.mp ha
  obtain ⟨-, -, pub', hpub', -, rfl⟩ := recoverPlain_eq_ok_iff.mp hb
  rw [hpub] at hpub'
  cases hpub'
  rfl

theorem unprotected_of_recoverPlain {sighash : Hash} {homestead : Bool}
    (h : C.recoverPlain sighash tx.r tx.s tx.v homestead = .ok a) : isProtectedV tx.v = false := by
  obtain ⟨hsize, hvalid, -⟩ := recoverPlain_eq_ok_iff.mp h
  rw [Int.natAbs_natCast] at hsize hvalid
  have hv : UInt8.ofNat tx.v-27 = 0 ∨ UInt8.ofNat tx.v-27 = 1 := by
    unfold validateSignatureValues at hvalid
    split_ifs at hvalid
    simp only [Bool.and_eq_true, Bool.or_eq_true, beq_iff_eq] at hvalid
    exact hvalid.2
  rw [isProtectedV_eq_false_iff]
  have hback : UInt8.ofNat tx.v = UInt8.ofNat tx.v-27+27 := (UInt8.sub_add_cancel ..).symm
  have hnat : (UInt8.ofNat tx.v).toNat = tx.v := by
    rw [UInt8.toNat_ofNat', Nat.mod_eq_of_lt hsize]
  rcases hv with hv | hv
  · left
    rw [← hnat, hback, hv]
    rfl
  · right
    rw [← hnat, hback, hv]
    rfl

theorem sender_cases (h : C.sender signer tx = .ok a) :
    (isProtectedV tx.v = false ∧ ∃ homestead,
      C.recoverPlain (C.signerHash .frontier tx) tx.r tx.s tx.v homestead = .ok a) ∨
    (isProtectedV tx.v = true ∧ C.recoverPlain (C.signerHash (.eip155 (deriveChainId tx.v)) tx) tx.r
      tx.s (plainV (deriveChainId tx.v) tx.v) true = .ok a) := by
  cases signer with
  | frontier => exact .inl ⟨unprotected_of_recoverPlain h, false, h⟩
  | homestead => exact .inl ⟨unprotected_of_recoverPlain h, true, h⟩
  | eip155 chainId =>
    rcases hv : isProtectedV tx.v with _ | _
    · simp only [sender, hv, if_true] at h
      exact .inl ⟨rfl, true, h⟩
    · have hchain : deriveChainId tx.v = chainId := by
        simp only [sender, hv, Bool.true_eq_false, if_false, throw_eq_error, ite_error_eq_ok] at h
        exact not_not.mp h.1
      rw [hchain]
      exact .inr ⟨rfl, sender_protected hv h⟩

theorem sender_unique (ha : C.sender signer tx = .ok a) (hb : C.sender signer' tx = .ok b) :
    a = b := by
  rcases sender_cases ha with ⟨hplain, _, ha⟩ | ⟨hprotected, ha⟩ <;>
    rcases sender_cases hb with ⟨hplain', _, hb⟩ | ⟨hprotected', hb⟩
  · exact recoverPlain_unique ha hb
  · rw [hplain] at hprotected'
    cases hprotected'
  · rw [hprotected] at hplain'
    cases hplain'
  · exact recoverPlain_unique ha hb

end TxCrypto

/-- The nonce `t` of the account is behind it for good. A nonce below the marker never comes back;
for a higher one it matters that the account cannot be deleted. -/
structure AccountCore.Spent (t : UInt64) (c : AccountCore) : Prop where
  lt : t < c.nonce
  marked : nonceAddOne ≤ c.nonce
  plain : nonceAddOne ≤ t → c.code = [] ∧ c.suicided = false

namespace AccountCore
variable {t n : UInt64} {c : AccountCore}

theorem Spent.secure (h : Spent t c) (ht : nonceAddOne ≤ t) : c.Secure :=
  ⟨(h.plain ht).1, UInt64.lt_of_le_of_lt ht h.lt, (h.plain ht).2⟩

theorem Spent.of_unmarked (ht : ¬ nonceAddOne ≤ t) (hc : nonceAddOne ≤ c.nonce) : Spent t c where
  lt := UInt64.lt_of_lt_of_le (UInt64.not_le.mp ht) hc
  marked := hc
  plain := fun h => absurd h ht

theorem Spent.trans (h : Spent n c) (ht : t < n) : Spent t c where
  lt := UInt64.lt_trans ht h.lt
  marked := h.marked
  plain := fun hm => h.plain (UInt64.le_trans hm (UInt64.le_of_lt ht))

theorem lasting_of_unmarked (ht : ¬ nonceAddOne ≤ t) : Lasting (Spent t) where
  created := .of_unmarked ht (UInt64.le_refl _)
  nonce c nonce _ := by
    refine .of_unmarked ht ?_
    rw [UInt64.le_iff_toNat_le]
    dsimp only
    rw [UInt64.toNat_or]
    exact Nat.right_le_or
  code c code h := .of_unmarked ht h.marked
  suicided c h := .of_unmarked ht h.marked

theorem kept_spent (t : UInt64) : Kept (Spent t) := by
  by_cases ht : nonceAddOne ≤ t
  · right
    intro c hc
    exact hc.secure ht
  · exact .inl (lasting_of_unmarked ht)

def Raised (n : UInt64) (j : ℕ) (c : AccountCore) : Prop :=
  if j = 0 then c = ⟨n, [], false⟩
  else Spent n c ∧ (nonceAddOne ≤ n → c.nonce.toNat ≤ n.toNat+j*2^53)

theorem raised_succ {j : ℕ} : Raised n (j+1) c ↔
    Spent n c ∧ (nonceAddOne ≤ n → c.nonce.toNat ≤ n.toNat+(j+1)*2^53) := by
  unfold Raised
  rw [if_neg (Nat.succ_ne_zero j)]

theorem kept_raised (n : UInt64) (j : ℕ) : Kept (Raised n (j+1)) := by
  by_cases hn : nonceAddOne ≤ n
  · right
    intro c hc
    exact (raised_succ.mp hc).1.secure hn
  · left
    have hsame : Raised n (j+1) = Spent n := by
      funext c
      rw [eq_iff_iff]
      exact ⟨And.left, fun h => ⟨h, fun hm => absurd hm hn⟩⟩
    rw [hsame]
    exact lasting_of_unmarked hn

/-- The account has no code, and its nonce is at most so far above `n` that nothing wraps. -/
theorem Raised.next {j : ℕ} (h : Raised n j c) (hj : j ≤ txCount) (hroom : n.toNat < 2^63) :
    Raised n (j+1) { c with nonce := nextNonce c.nonce } := by
  have hmarked : nonceAddOne ≤ nextNonce c.nonce := Nat.right_le_or
  by_cases hn : nonceAddOne ≤ n
  · have hplain : c.code = [] ∧ c.suicided = false := by
      unfold Raised at h
      split_ifs at h with hzero
      · rw [h]
        exact ⟨rfl, rfl⟩
      · exact h.1.plain hn
    have hbound : n ≤ c.nonce ∧ c.nonce.toNat ≤ n.toNat+j*2^53 := by
      unfold Raised at h
      split_ifs at h with hzero
      · rw [h]
        exact ⟨UInt64.le_refl _, Nat.le_add_right ..⟩
      · exact ⟨UInt64.le_of_lt h.1.lt, h.2 hn⟩
    have hfits : c.nonce.toNat+1 < 2^64 := by
      unfold txCount at hj
      omega
    have hlt := UInt64.lt_of_le_of_lt hbound.1 (lt_nextNonce hfits)
    have hle := toNat_nextNonce_le hfits
    exact ⟨⟨hlt, hmarked, fun _ => hplain⟩, fun _ => by dsimp only; omega⟩
  · exact ⟨.of_unmarked hn hmarked, fun hm => absurd hm hn⟩

end AccountCore

namespace AppliedTxs
variable {Hash : Type} (C : TxCrypto Hash)

/-- The transaction is no broadcast transaction, and its sender is an account without code whose
nonce has room. -/
def Protected (s : AppliedTxs) (call : ApplyCall) : Prop :=
  ∀ account ∈ (call.sender C).toOption, call.isBroadcast = false ∧
    s.db.getCode account = [] ∧ (s.db.core account).suicided = false ∧
    (s.db.getNonce account).toNat < 2^63

instance (s : AppliedTxs) (call : ApplyCall) : Decidable (Protected C s call) :=
  Option.decidableForallMem (call.sender C).toOption

structure SpentInv (s : AppliedTxs) : Prop where
  nodup : s.applied.Nodup
  spent : ∀ tx ∈ s.applied, ∀ signer account, C.sender signer tx = .ok account →
    (s.db.core account).Spent tx.accountNonce

variable {C} {s s' : AppliedTxs} {call : ApplyCall} {account y : Address} {t : UInt64}

theorem creations_le (extraTo : List TxTo) : Message.creations extraTo ≤ extraTo.length :=
  countP_le_length

theorem raised_of_protected (h : Protected C s call) (hsender : call.sender C = .ok account) :
    ((call.applyTransaction C s.db).db.core account = s.db.core account ∧
      (call.applyTransaction C s.db).result.isOk = false) ∨
    ((call.applyTransaction C s.db).db.core account).Spent (s.db.getNonce account) := by
  obtain ⟨hmessage, hcode, hsuicided, hroom⟩ := h account (by rw [hsender]; rfl)
  have hstart : s.db.core account = ⟨s.db.getNonce account, [], false⟩ := by
    rw [← hcode, ← hsuicided]
    rfl
  have hcounts : call.tx.extraTo.length < txCount → (call.tx.asMessage account).Counts account
      (AccountCore.Raised (s.db.getNonce account)) (Message.creations call.tx.extraTo+1) := by
    intro hlength
    have hle := creations_le call.tx.extraTo
    refine ⟨?_, fun j _ => AccountCore.kept_raised _ j⟩
    intro j hj c hc
    have hself : account = (call.tx.asMessage account).sender := rfl
    rw [if_pos hself]
    exact hc.next (by omega) hroom
  rcases ApplyCall.applyTransaction_counts hsender hmessage hcounts hstart with
    ⟨hsame, hfailed⟩ | ⟨i, -, -, hnext⟩
  · exact .inl ⟨hsame.trans hstart.symm, hfailed⟩
  · exact .inr (AccountCore.raised_succ.mp hnext).1

theorem spent_of_protected (h : Protected C s call) (hspent : (s.db.core y).Spent t) :
    ((call.applyTransaction C s.db).db.core y).Spent t := by
  rcases hsender : call.sender C with err | account
  · rwa [ApplyCall.applyTransaction_unsigned hsender]
  by_cases hy : y = account
  · subst hy
    rcases raised_of_protected h hsender with ⟨hsame, -⟩ | hraised
    · rwa [hsame]
    · exact hraised.trans hspent.lt
  · obtain ⟨hmessage, -⟩ := h account (by rw [hsender]; rfl)
    have hcounts : call.tx.extraTo.length < txCount → (call.tx.asMessage account).Counts y
        (fun _ => AccountCore.Spent t) (Message.creations call.tx.extraTo+1) := by
      intro _
      refine ⟨?_, fun _ _ => AccountCore.kept_spent t⟩
      intro j _ c hc
      have hother : ¬ y = (call.tx.asMessage account).sender := hy
      rwa [if_neg hother]
    rcases ApplyCall.applyTransaction_counts hsender hmessage hcounts hspent with
      ⟨hkept, -⟩ | ⟨i, -, -, hkept⟩
    · exact hkept
    · exact hkept

/-- Its nonce would have to be both the current one and a spent one. -/
theorem step_spentInv (hinv : SpentInv C s) (h : Protected C s call)
    (hstep : step C s call = .ok s') : SpentInv C s' := by
  cases hstep
  have hold : ∀ tx ∈ s.applied, ∀ signer account, C.sender signer tx = .ok account →
      ((call.applyTransaction C s.db).db.core account).Spent tx.accountNonce :=
    fun tx htx signer account hsigned => spent_of_protected h (hinv.spent tx htx signer account hsigned)
  by_cases hok : (call.applyTransaction C s.db).result.isOk = true
  · rcases hsender : call.sender C with err | account
    · rw [ApplyCall.applyTransaction_unsigned hsender] at hok
      cases hok
    have hmessage := (h account (by rw [hsender]; rfl)).1
    have hnonce := ApplyCall.nonce_of_applied hsender hmessage hok
    have hnew : call.tx ∉ s.applied := by
      intro htx
      have hlt := (hinv.spent call.tx htx _ account hsender).lt
      rw [StateDB.core_nonce, hnonce] at hlt
      exact UInt64.lt_irrefl _ hlt
    have hraised : ((call.applyTransaction C s.db).db.core account).Spent call.tx.accountNonce := by
      rcases raised_of_protected h hsender with ⟨-, hfailed⟩ | hraised
      · rw [hok] at hfailed
        cases hfailed
      · rwa [hnonce] at hraised
    refine ⟨?_, ?_⟩
    · rw [if_pos hok, nodup_append_comm]
      exact nodup_cons.mpr ⟨hnew, hinv.nodup⟩
    · intro tx htx signer account' hsigned
      rw [if_pos hok, mem_append, mem_singleton] at htx
      rcases htx with htx | rfl
      · exact hold tx htx signer account' hsigned
      · rwa [C.sender_unique hsigned hsender]
  · refine ⟨?_, ?_⟩
    · rw [if_neg hok]
      exact hinv.nodup
    · rw [if_neg hok]
      exact hold

/-- Whatever is applied, from any state on and by any signer, no transaction is applied twice. -/
theorem run_applied_nodup {db : StateDB} {calls : List ApplyCall}
    (hprotected : EachBefore (step C) (Protected C) ⟨db, []⟩ calls)
    (hrun : run (step C) ⟨db, []⟩ calls = .ok s) : s.applied.Nodup := by
  have hinit : SpentInv C ⟨db, []⟩ := ⟨nodup_nil, fun tx htx => by cases htx⟩
  have hstep : ∀ s call s', SpentInv C s → Protected C s call → step C s call = .ok s' →
      SpentInv C s' := fun _ _ _ hinv h hs => step_spentInv hinv h hs
  exact (run_preserves_of_eachBefore hstep hinit hprotected hrun).nodup

def broadcastTx : Transaction := samplePayment nonceAddOne [⟨1, 0, []⟩]

def broadcastCall : ApplyCall := sampleCall broadcastTx (by decide)

def paymentCall : ApplyCall := sampleCall (samplePayment nonceAddOne []) (by decide)

/-- It can be applied as often as one likes. -/
theorem broadcast_applied_twice : ∃ s,
    run (step oneSigner) fundedState [broadcastCall, broadcastCall] = .ok s ∧
    s.applied = [broadcastTx, broadcastTx] ∧ ¬ s.applied.Nodup := by
  obtain ⟨s, hrun, happlied⟩ := exists_ok_of_map_toOption (b := [broadcastTx, broadcastTx])
    (f := AppliedTxs.applied)
    (x := run (step oneSigner) fundedState [broadcastCall, broadcastCall])
    (by decide +kernel)
  refine ⟨s, hrun, happlied, ?_⟩
  rw [happlied]
  decide

/-- A payment is applied once, and refused when it comes again. -/
theorem run_applied_nodup_repeated_payment : ∃ s,
    run (step oneSigner) fundedState [paymentCall, paymentCall] = .ok s ∧
    s.applied = [samplePayment nonceAddOne []] ∧ s.applied.Nodup := by
  obtain ⟨s, hrun, happlied⟩ := exists_ok_of_map_toOption (b := [samplePayment nonceAddOne []])
    (f := AppliedTxs.applied)
    (x := run (step oneSigner) fundedState [paymentCall, paymentCall])
    (by decide +kernel)
  exact ⟨s, hrun, happlied, run_applied_nodup (by decide +kernel) hrun⟩

end AppliedTxs

end MatrixNode
