import MatrixNode.EvmAccounts
import MatrixNode.StepRun
import MatrixNode.TxPool

/-! `ApplyTransaction` of `core/state_processor.go` and `Finalise` of `core/state/statedb.go`, and
how often a transaction raises the nonce of its sender. -/
namespace MatrixNode
open GoLib StateDB

def Account.empty (o : Account) : Bool := o.nonce = 0 && o.balance = 0 && o.code = []

def StateDB.finalise (s : StateDB) (dirties : Address → Bool) (deleteEmptyObjects : Bool) :
    StateDB where
  accounts := fun addr => (s.accounts addr).filter
    (fun o => !(dirties addr && (o.suicided || (deleteEmptyObjects && o.empty))))
  refund := 0

/-- `types.Receipt`, without the logs and the root of the state. -/
structure Receipt where
  failed : Bool
  cumulativeGasUsed : UInt64
  gasUsed : UInt64
  contractAddress : Option Address

inductive ApplyError where
  | sender (err : GoError)
  | message (err : TxError)

/-- The arguments of a call of `ApplyTransaction`, with what it finds of the block and of the journal
of the state. The payloads are slices of Go, so the intrinsic gas of the extra recipients can be
counted. -/
structure ApplyCall where
  evm : Evm
  isEIP155 : Bool
  chainId : ℕ
  gp : UInt64
  usedGas : UInt64
  dirties : Address → Bool
  tx : Transaction
  short : Message.ShortPayloads tx.extraTo

structure ApplyOutcome where
  db : StateDB
  gp : UInt64
  result : Except ApplyError Receipt

def makeSigner (isEIP155 isHomestead : Bool) (chainId : ℕ) : Signer :=
  if isEIP155 then .eip155 chainId
  else if isHomestead then .homestead
  else .frontier

namespace ApplyCall
variable {Hash : Type} (C : TxCrypto Hash) (call : ApplyCall)

def sender : Except GoError Address :=
  C.sender (makeSigner call.isEIP155 call.evm.rules.isHomestead call.chainId) call.tx

def isBroadcast : Bool := (call.tx.extra.head?.getD ⟨0, 0, []⟩).txType = 1

def settleState (db : StateDB) : StateDB :=
  db.finalise call.dirties (call.evm.rules.isByzantium || call.evm.rules.isEIP158)

def receipt (account : Address) (gas : UInt64) (failed : Bool) : Receipt where
  failed := failed
  cumulativeGasUsed := call.usedGas+gas
  gasUsed := gas
  contractAddress :=
    if call.tx.recipient = none then some (call.evm.createAddress account call.tx.accountNonce)
    else none

def applyTransaction (db : StateDB) : ApplyOutcome :=
  match call.sender C with
  | .error err => ⟨db, call.gp, .error (.sender err)⟩
  | .ok account =>
    if call.isBroadcast then
      ⟨call.settleState db, call.gp, .ok (call.receipt account 0 true)⟩
    else
      let out := (call.tx.asMessage account).transitionDb call.evm db call.gp
      match out.result with
      | .error err => ⟨out.db, out.gp, .error (.message err)⟩
      | .ok (_, gas, failed) =>
        ⟨call.settleState out.db, out.gp, .ok (call.receipt account gas failed)⟩

end ApplyCall

section Finalise
variable {P : AccountCore → Prop} {s : StateDB} {x : Address}

/-- A secure account is neither empty nor destroyed. -/
theorem StateDB.finalise_keeps (hkept : AccountCore.Kept P) (h : P (s.core x))
    (dirties : Address → Bool) (deleteEmptyObjects : Bool) :
    P ((s.finalise dirties deleteEmptyObjects).core x) := by
  unfold core object finalise
  dsimp only
  rcases hacc : s.accounts x with _ | o
  · have hobject : s.core x = newObject.core := by
      unfold core object
      rw [hacc]
      rfl
    rwa [hobject] at h
  · have hobject : s.core x = o.core := by
      unfold core object
      rw [hacc]
      rfl
    rw [hobject] at h
    rw [Option.filter_some]
    split_ifs with hleft
    · exact h
    · rcases hkept with hlasting | hsecure
      · exact hlasting.created
      · exfalso
        obtain ⟨-, hnonce, hsuicided⟩ := hsecure _ h
        have hsuicided' : o.suicided = false := hsuicided
        have hempty : o.empty = false := by
          have hne : o.nonce ≠ 0 := by
            intro hzero
            have hlt : nonceAddOne < o.nonce := hnonce
            rw [hzero] at hlt
            exact absurd hlt (by decide)
          simp [Account.empty, hne]
        simp [hsuicided', hempty] at hleft

end Finalise

namespace Message
variable {msg : Message} {E : Evm} {x : Address} {P : ℕ → AccountCore → Prop} {db : StateDB}
  {gas gp : UInt64}

/-- Facts about an account of which one after the other holds as the sender raises its nonce, `k`
times at most. -/
structure Counts (msg : Message) (x : Address) (P : ℕ → AccountCore → Prop) (k : ℕ) : Prop where
  raised : ∀ j < k, ∀ c, P j c →
    P (j+1) (if x = msg.sender then { c with nonce := nextNonce c.nonce } else c)
  kept : ∀ j < k, AccountCore.Kept (P (j+1))

def creations (extraTo : List TxTo) : ℕ := extraTo.countP (fun ex => ex.recipient.isNone)

theorem Counts.setNonce {j k : ℕ} (hP : msg.Counts x P k) (hj : j < k) (h : P j (db.core x)) :
    P (j+1) ((db.setNonce msg.sender (db.getNonce msg.sender+1)).core x) := by
  have hraised := hP.raised j hj _ h
  rw [core_setNonce]
  split_ifs at hraised ⊢ with hx
  · subst hx
    exact hraised
  · exact hraised

theorem outermost_create (caller : Address) (code : Bytes) (value : ℕ) :
    E.outermost false (.create caller code gas value) ⟨db, []⟩ =
      E.create (E.handler callCreateDepth) 0 false caller code gas value ⟨db, []⟩ := rfl

variable (msg E gas) in
theorem callOrCreate_call {Q : AccountCore → Prop} (hQ : AccountCore.Kept Q) (h : Q (db.core x))
    (addr : Address) (payload : Bytes) (amount : ℕ) :
    Q ((msg.callOrCreate E (some addr) payload amount db gas).1.core x) := by
  have hkeeps := E.handler_upholds hQ x (callCreateDepth+1) false
    (.call msg.sender addr payload gas amount) ⟨db, []⟩
  exact hkeeps (fun hx => by cases hx) h

variable (E gas) in
theorem callOrCreate_create {j k : ℕ} (hP : msg.Counts x P k) (hj : j < k) (h : P j (db.core x))
    (payload : Bytes) (amount : ℕ) :
    ((msg.callOrCreate E none payload amount db gas).2.err = some .insufficientBalance ∧
      (msg.callOrCreate E none payload amount db gas).1 = db) ∨
    P (j+1) ((msg.callOrCreate E none payload amount db gas).1.core x) := by
  unfold callOrCreate
  rw [outermost_create]
  have hdepth : ¬ callCreateDepth < 0 := Nat.not_lt_zero _
  by_cases hcan : db.canTransfer msg.sender amount = false
  · left
    unfold Evm.create
    rw [if_pos hcan]
    exact ⟨rfl, rfl⟩
  · right
    exact E.create_upholds (hP.kept j hj) (E.handler_upholds (hP.kept j hj) x _) hdepth hcan
      (hP.setNonce hj h)

variable (E gas) in
theorem mainCall_counts {k : ℕ} (hP : msg.Counts x P k) (hk : 0 < k) (h : P 0 (db.core x)) :
    ((msg.mainCall E db gas).2.err = some .insufficientBalance ∧
      P 0 ((msg.mainCall E db gas).1.core x)) ∨
    P 1 ((msg.mainCall E db gas).1.core x) := by
  unfold mainCall
  rcases hrecipient : msg.recipient with _ | addr
  · rw [if_pos rfl]
    rcases callOrCreate_create E gas hP hk h msg.data msg.amount with
      ⟨herr, hsame⟩ | hnext
    · left
      exact ⟨herr, by rwa [hsame]⟩
    · exact .inr hnext
  · right
    exact callOrCreate_call msg E gas (hP.kept 0 hk) (hP.setNonce hk h) addr msg.data msg.amount

theorem extraCalls_counts {k : ℕ} (hP : msg.Counts x P k) (extraTo : List TxTo) {j : ℕ}
    (hj : j+1+creations extraTo ≤ k) (s : StateDB × CallReturn) (h : P (j+1) (s.1.core x)) :
    ∃ i ≤ creations extraTo, P (j+1+i) ((msg.extraCalls E extraTo s).1.core x) := by
  induction extraTo generalizing j s with
  | nil => exact ⟨0, le_rfl, h⟩
  | cons ex rest ih =>
    obtain ⟨db, r⟩ := s
    have hcreations : creations (ex :: rest) =
        creations rest+if ex.recipient.isNone = true then 1 else 0 := List.countP_cons ..
    unfold extraCalls
    dsimp only
    rcases hrecipient : ex.recipient with _ | addr
    · rw [hrecipient, Option.isNone_none, if_pos rfl] at hcreations
      rcases callOrCreate_create E r.gas hP (by omega : j+1 < k) h ex.payload
        ex.amount with ⟨herr, hsame⟩ | hnext
      · rw [if_neg (by rw [herr]; simp), hsame]
        exact ⟨0, Nat.zero_le _, h⟩
      · split_ifs
        · obtain ⟨i, hi, hrest⟩ := ih (by omega) _ hnext
          exact ⟨i+1, by omega, by rwa [show j+1+(i+1) = j+1+1+i by omega]⟩
        · exact ⟨1, by omega, hnext⟩
    · have hsame := callOrCreate_call msg E r.gas (hP.kept j (by omega)) h addr ex.payload ex.amount
      split_ifs
      · obtain ⟨i, hi, hrest⟩ := ih (by omega) _ hsame
        exact ⟨i, by omega, hrest⟩
      · exact ⟨0, Nat.zero_le _, hsame⟩

variable (E gas) in
theorem calls_counts (hP : msg.Counts x P (creations msg.extra.extraTo+1)) (h : P 0 (db.core x)) :
    ((msg.calls E db gas).2.err = some .insufficientBalance ∧
      P 0 ((msg.calls E db gas).1.core x)) ∨
    ∃ i ≤ creations msg.extra.extraTo, P (i+1) ((msg.calls E db gas).1.core x) := by
  have hmain := mainCall_counts E gas hP (Nat.succ_pos _) h
  unfold calls
  dsimp only
  split_ifs with hgo
  · right
    have hnext : P 1 ((msg.mainCall E db gas).1.core x) := by
      rcases hmain with ⟨herr, -⟩ | hnext
      · rw [herr] at hgo
        cases hgo
      · exact hnext
    obtain ⟨i, hi, hrest⟩ := extraCalls_counts (E := E) hP msg.extra.extraTo (j := 0) (by omega) _
      hnext
    exact ⟨i, hi, by rwa [show i+1 = 0+1+i by omega]⟩
  · rcases hmain with hfailed | hnext
    · exact .inl hfailed
    · exact .inr ⟨0, Nat.zero_le _, hnext⟩

section Transition
variable {msg : Message}

theorem finish_core (s : StateDB × CallReturn) : (msg.finish gp s).db.core x = s.1.core x := by
  unfold finish
  split_ifs
  · rfl
  · split
    · rfl
    next db' gp' used hrefund =>
      unfold refundGas at hrefund
      simp only [bind_eq_ok_iff, pure_eq_ok, Except.ok.injEq, Prod.mk.injEq] at hrefund
      obtain ⟨gp₁, -, rfl, -, -⟩ := hrefund
      exact core_addBalance ..

theorem finish_insufficient {s : StateDB × CallReturn} (h : s.2.err = some .insufficientBalance) :
    (msg.finish gp s).result = .error (.vm .insufficientBalance) := by
  unfold finish
  rw [if_pos h]

theorem execute_counts
    (hP : msg.extra.extraTo.length < txCount → msg.Counts x P (creations msg.extra.extraTo+1))
    (hshort : ShortPayloads msg.extra.extraTo) (h : P 0 (db.core x)) :
    (P 0 ((msg.execute E db gp gas).db.core x) ∧
      ∃ err, (msg.execute E db gp gas).result = .error err) ∨
    ∃ i ≤ creations msg.extra.extraTo, msg.extra.extraTo.length < txCount ∧
      P (i+1) ((msg.execute E db gp gas).db.core x) := by
  obtain ⟨total, htotal⟩ := extraGas_eq_ok E.rules.isHomestead hshort gas
  unfold execute
  by_cases hcount : txCount-1 < msg.extra.extraTo.length
  · left
    rw [if_pos hcount]
    exact ⟨h, _, rfl⟩
  rw [if_neg hcount, htotal]
  have hlength : msg.extra.extraTo.length < txCount := by
    unfold txCount at hcount ⊢
    omega
  dsimp only
  by_cases hlimit : msg.gasLimit < total
  · left
    rw [if_pos hlimit]
    exact ⟨h, _, rfl⟩
  · rw [if_neg hlimit, finish_core]
    rcases calls_counts E (msg.gasLimit-total) (hP hlength) h with
      ⟨herr, hsame⟩ | ⟨i, hi, hnext⟩
    · exact .inl ⟨hsame, _, finish_insufficient herr⟩
    · exact .inr ⟨i, hi, hlength, hnext⟩

variable (E gp) in
theorem transitionDb_counts
    (hP : msg.extra.extraTo.length < txCount → msg.Counts x P (creations msg.extra.extraTo+1))
    (hshort : ShortPayloads msg.extra.extraTo) (h : P 0 (db.core x)) :
    (P 0 ((msg.transitionDb E db gp).db.core x) ∧
      ∃ err, (msg.transitionDb E db gp).result = .error err) ∨
    ∃ i ≤ creations msg.extra.extraTo, msg.extra.extraTo.length < txCount ∧
      P (i+1) ((msg.transitionDb E db gp).db.core x) := by
  unfold transitionDb
  rcases hpre : msg.preCheck db gp with err | ⟨db₁, gp₁⟩
  · exact .inl ⟨h, err, rfl⟩
  obtain ⟨-, -, -, rfl, -⟩ := preCheck_eq_ok_iff.mp hpre
  have hbought : P 0 ((db.subBalance msg.sender msg.gasCost).core x) := by
    rwa [core_subBalance]
  rcases intrinsicGas msg.data msg.recipient.isNone E.rules.isHomestead with err | gas
  · exact .inl ⟨hbought, _, rfl⟩
  · exact execute_counts hP hshort hbought

theorem nonce_of_transitionDb_ok (hcheck : msg.checkNonce = true)
    {r : Bytes × UInt64 × Bool} (h : (msg.transitionDb E db gp).result = .ok r) :
    db.getNonce msg.sender = msg.nonce := by
  unfold transitionDb at h
  rcases hpre : msg.preCheck db gp with err | ⟨db₁, gp₁⟩
  · rw [hpre] at h
    cases h
  · exact (preCheck_eq_ok_iff.mp hpre).1 hcheck

end Transition

end Message

end MatrixNode
