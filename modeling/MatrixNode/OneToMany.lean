import MatrixNode.StateTransition

/-! A transaction with extra recipients as a whole: what the loop of calls in `TransitionDb` does to
the balances, and what it leaves behind when one of the calls fails. -/
namespace MatrixNode
open GoLib StateDB Evm List

namespace Message
variable (msg : Message)

def payments : List (Address × ℕ) :=
  msg.recipient.toList.map (·, msg.amount) ++
    msg.extra.extraTo.filterMap (fun ex => ex.recipient.map (·, ex.amount))

/-- All recipients are accounts without code, and not precompiled contracts. -/
structure Plain (db : StateDB) : Prop where
  main : ∃ a, msg.recipient = some a ∧ PlainAccount db a
  extra : ∀ ex ∈ msg.extra.extraTo, ∃ a, ex.recipient = some a ∧ PlainAccount db a

/-- If the transition succeeds then the sender has made the payments and paid for the gas that was
used, and the price of the gas is all that leaves the accounts. -/
def Conserves (E : Evm) (db : StateDB) (gp : UInt64) : Prop :=
  ∀ db' gp' ret used, msg.transitionDb E db gp = ⟨db', gp', .ok (ret, used, false)⟩ →
    (∀ a, db'.getBalance a+
        (if a = msg.sender then paidTotal msg.payments+used.toNat*msg.gasPrice else 0) =
      db.getBalance a+received a msg.payments) ∧
    db'.totalSupply+used.toNat*msg.gasPrice = db.totalSupply

section Plain
variable {msg} {E : Evm} {db : StateDB}

theorem callOrCreate_paid {a : Address} {v : ℕ} (hp : PlainAccount db a)
    (hv : v ≤ db.getBalance msg.sender) (payload : Bytes) (gas : UInt64) :
    ∃ db', msg.callOrCreate E (some a) payload v db gas = (db', ⟨[], gas, none, 0⟩) ∧
      Paid db db' msg.sender a v := by
  have hskip : E.skips 0 = false := by simp [skips]
  have hcall : msg.callOrCreate E (some a) payload v db gas =
      ((E.call (E.handler callCreateDepth) 0 false msg.sender a payload gas v ⟨db, []⟩).1.db,
        (E.call (E.handler callCreateDepth) 0 false msg.sender a payload gas v ⟨db, []⟩).2) := rfl
  have hplain : ∃ db', E.call (E.handler callCreateDepth) 0 false msg.sender a payload gas v ⟨db, []⟩ =
      (⟨db', []⟩, ⟨[], gas, none, 0⟩) ∧ Paid db db' msg.sender a v :=
    call_plain hskip (Nat.zero_le _) hp hv
  obtain ⟨db', hres, hpaid⟩ := hplain
  rw [hcall, hres]
  exact ⟨db', rfl, hpaid⟩

theorem callOrCreate_insufficient {a : Address} {v : ℕ} (hv : ¬ v ≤ db.getBalance msg.sender)
    (payload : Bytes) (gas : UInt64) :
    (msg.callOrCreate E (some a) payload v db gas).2.err = some .insufficientBalance := by
  change (E.call (E.handler callCreateDepth) 0 false msg.sender a payload gas v ⟨db, []⟩).2.err = _
  unfold call
  rw [if_neg (by simp [skips]), if_neg (Nat.not_lt_zero _),
    if_pos (by simpa [canTransfer] using hv)]

/-- The effect of the whole loop: all payments are made, and nothing else happens. -/
structure AllPaid (db db' : StateDB) (src : Address) (payments : List (Address × ℕ)) : Prop where
  balance : PaysAll src payments db.getBalance db'.getBalance
  supply : db'.totalSupply = db.totalSupply

theorem AllPaid.cons {db₁ db' : StateDB} {src a : Address} {v : ℕ} {payments : List (Address × ℕ)}
    (hpaid : Paid db db₁ src a v) (hv : v ≤ db.getBalance src) (h : AllPaid db₁ db' src payments) :
    AllPaid db db' src ((a, v) :: payments) where
  balance := by
    have hrest := h.balance
    rw [hpaid.balance] at hrest
    exact hrest.cons hv
  supply := by
    rw [h.supply, totalSupply, hpaid.balance]
    exact sum_pay hv

/-- A payment changes no code, so the remaining recipients are still plain. -/
theorem extraCalls_plain (extraTo : List TxTo) (s : StateDB × CallReturn) (hs : s.2.err = none)
    (hp : ∀ ex ∈ extraTo, ∃ a, ex.recipient = some a ∧ PlainAccount s.1 a) :
    (msg.extraCalls E extraTo s).2.err = some .insufficientBalance ∨
    ((msg.extraCalls E extraTo s).2.err = none ∧ AllPaid s.1 (msg.extraCalls E extraTo s).1 msg.sender
      (extraTo.filterMap (fun ex => ex.recipient.map (·, ex.amount)))) := by
  induction extraTo generalizing s with
  | nil => exact .inr ⟨hs, .nil _ _, rfl⟩
  | cons ex rest ih =>
    obtain ⟨a, ha, hplain⟩ := hp ex mem_cons_self
    unfold extraCalls
    rw [ha]
    by_cases hv : ex.amount ≤ s.1.getBalance msg.sender
    · obtain ⟨db', hres, hpaid⟩ := callOrCreate_paid (E := E) hplain hv ex.payload s.2.gas
      rw [hres]
      have hrest : ∀ ex ∈ rest, ∃ a, ex.recipient = some a ∧ PlainAccount db' a := by
        intro x hx
        obtain ⟨b, hb, hb'⟩ := hp x (mem_cons_of_mem _ hx)
        exact ⟨b, hb, hb'.1, by rw [hpaid.code]; exact hb'.2⟩
      rcases ih (db', ⟨[], s.2.gas, none, 0⟩) rfl hrest with hfunds | ⟨hok, hall⟩
      · exact .inl hfunds
      · refine .inr ⟨hok, ?_⟩
        rw [filterMap_cons, ha]
        exact hall.cons hpaid hv
    · left
      have hfunds := callOrCreate_insufficient (E := E) (a := a) hv ex.payload s.2.gas
      have hfailed : (msg.callOrCreate E (some a) ex.payload ex.amount s.1 s.2.gas).2.err ≠ none := by
        rw [hfunds]
        exact Option.some_ne_none _
      rw [if_neg hfailed]
      exact hfunds

theorem Plain.of_code {db' : StateDB} (h : msg.Plain db) (hcode : db'.getCode = db.getCode) :
    msg.Plain db' := by
  have hplain (a : Address) (ha : PlainAccount db a) : PlainAccount db' a :=
    ⟨ha.1, by rw [hcode]; exact ha.2⟩
  obtain ⟨⟨a, ha, hmain⟩, hextra⟩ := h
  refine ⟨⟨a, ha, hplain a hmain⟩, ?_⟩
  intro ex hex
  obtain ⟨b, hb, hb'⟩ := hextra ex hex
  exact ⟨b, hb, hplain b hb'⟩

/-- Only the nonce changes before the main call. -/
theorem calls_plain (h : msg.Plain db) (gas : UInt64) :
    (msg.calls E db gas).2.err = some .insufficientBalance ∨
    ((msg.calls E db gas).2.err = none ∧ AllPaid db (msg.calls E db gas).1 msg.sender msg.payments) := by
  obtain ⟨a, ha, -⟩ := h.main
  obtain ⟨db₁, hdb₁⟩ : ∃ db₁, db₁ = db.setNonce msg.sender (db.getNonce msg.sender+1) := ⟨_, rfl⟩
  have hbalance : db₁.getBalance = db.getBalance := by
    rw [hdb₁]
    exact funext (fun _ => getBalance_setNonce ..)
  have hcode : db₁.getCode = db.getCode := by
    rw [hdb₁]
    exact funext (fun _ => getCode_setNonce ..)
  have hmain : msg.mainCall E db gas = msg.callOrCreate E (some a) msg.data msg.amount db₁ gas := by
    unfold mainCall
    rw [if_neg (by rw [ha]; exact nofun), ha, hdb₁]
  have hpayments : msg.payments = (a, msg.amount) ::
      msg.extra.extraTo.filterMap (fun ex => ex.recipient.map (·, ex.amount)) := by
    rw [payments, ha]
    rfl
  have hplain := h.of_code hcode
  obtain ⟨a', ha', hp⟩ := hplain.main
  cases ha.symm.trans ha'
  unfold calls
  rw [hmain]
  by_cases hv : msg.amount ≤ db₁.getBalance msg.sender
  swap
  · left
    have hfunds := callOrCreate_insufficient (E := E) (a := a) hv msg.data gas
    rw [if_neg (by rw [hfunds]; exact nofun)]
    exact hfunds
  obtain ⟨db₂, hres, hpaid⟩ := callOrCreate_paid (E := E) hp hv msg.data gas
  rw [hres, if_pos rfl]
  have hextra := (hplain.of_code hpaid.code).extra
  rcases extraCalls_plain (E := E) msg.extra.extraTo (db₂, ⟨[], gas, none, 0⟩) rfl hextra with
    hfunds | ⟨hok, hall⟩
  · exact .inl hfunds
  · refine .inr ⟨hok, ?_⟩
    have hpaidAll := hall.cons hpaid hv
    rw [hpayments]
    refine ⟨?_, ?_⟩
    · rw [← hbalance]
      exact hpaidAll.balance
    · rw [hpaidAll.supply, totalSupply, hbalance]
      rfl

end Plain

section Conserves
variable {msg} {E : Evm} {db db' db₁ : StateDB} {gp gp' gp₁ gas : UInt64}

theorem refundGas_settles (hpre : msg.preCheck db gp = .ok (db₁, gp₁)) {mid : StateDB}
    {used : UInt64} (hgas : gas ≤ msg.gasLimit)
    (h : msg.refundGas mid gp₁ gas = .ok (db', gp', used)) :
    ∃ left, left*msg.gasPrice+used.toNat*msg.gasPrice = msg.gasCost ∧
      db' = mid.addBalance msg.sender (left*msg.gasPrice) := by
  obtain ⟨left, hleft, hres⟩ := refundGas_eq_ok mid (pool_after_preCheck hpre) hgas
  rw [hres] at h
  cases h
  refine ⟨left.toNat, ?_, rfl⟩
  have hleft' := UInt64.le_iff_toNat_le.mp hleft
  rw [UInt64.toNat_sub_of_le _ _ hleft, ← Nat.add_mul]
  congr 1
  omega

/-- The gas was bought, the payments made and the rest of the gas given back; what remains is
arithmetic. -/
theorem conserves_of_finish (hp : msg.Plain db) (hreach : msg.Reaches E db gp db₁ gp₁ gas)
    {used : UInt64} {ret : Bytes}
    (h : msg.finish gp₁ (msg.calls E db₁ gas) = ⟨db', gp', .ok (ret, used, false)⟩) :
    (∀ a, db'.getBalance a+
        (if a = msg.sender then paidTotal msg.payments+used.toNat*msg.gasPrice else 0) =
      db.getBalance a+received a msg.payments) ∧
    db'.totalSupply+used.toNat*msg.gasPrice = db.totalSupply := by
  obtain ⟨hfunds, -, hrefund⟩ := finish_ok h
  obtain ⟨-, hcost, -, hdb₁, -⟩ := preCheck_eq_ok_iff.mp hreach.bought
  have hcode : db₁.getCode = db.getCode := by
    rw [hdb₁]
    exact funext (fun _ => getCode_subBalance ..)
  obtain ⟨-, hall⟩ := (calls_plain (E := E) (hp.of_code hcode) gas).resolve_left hfunds
  obtain ⟨left, hprice, hdb'⟩ := refundGas_settles hreach.bought hreach.gas_le hrefund
  generalize (msg.calls E db₁ gas).1 = mid at hall hdb'
  subst hdb' hdb₁
  constructor
  · intro a
    have hpaid := hall.balance a
    rw [getBalance_subBalance] at hpaid
    rw [getBalance_addBalance]
    by_cases ha : a = msg.sender
    · subst ha
      simp only [if_true] at hpaid ⊢
      omega
    · simp only [ha, if_false] at hpaid ⊢
      exact hpaid
  · have hbought := totalSupply_subBalance db msg.sender hcost
    rw [totalSupply_addBalance, hall.supply]
    omega

/-- A transition to plain accounts conserves the balances but for the price of the gas. -/
theorem conserves_of_plain (E : Evm) (gp : UInt64) (hp : msg.Plain db)
    (hshort : ShortPayloads msg.extra.extraTo) : msg.Conserves E db gp := by
  intro db' gp' ret used h
  rcases reaches_of_ok h with ⟨-, hlong⟩ | ⟨db₁, gp₁, gas, hreach, hfinish⟩
  · exact absurd hshort hlong
  · exact conserves_of_finish hp hreach hfinish

end Conserves

section Sample

/-- Account 100 sends 10 to account 200, and `amount` to account 300. -/
def sampleMessage (amount : ℕ) : Message where
  sender := 100
  recipient := some 200
  nonce := nonceAddOne
  amount := 10
  gasLimit := 100000
  gasPrice := 1
  data := []
  checkNonce := true
  extra := ⟨0, 0, [⟨some 300, amount, []⟩]⟩

def sampleFunds : StateDB := (⟨fun _ => none, 0⟩ : StateDB).addBalance 100 1000000

/-- Account 200 is paid twice, account 100 pays itself, and gas is left over. -/
def repeatedMessage : Message :=
  { sampleMessage 0 with extra := ⟨0, 0, [⟨some 200, 7, [1]⟩, ⟨some 100, 3, []⟩]⟩ }

theorem repeatedMessage_conserves :
    (repeatedMessage.transitionDb (sampleEvm 1) sampleFunds 200000).result = .ok ([], 63068, false) ∧
    repeatedMessage.Conserves (sampleEvm 1) sampleFunds 200000 := by
  refine ⟨rfl, conserves_of_plain _ _ ⟨⟨200, rfl, by decide, by decide⟩, ?_⟩ (by decide)⟩
  intro ex hex
  rcases mem_pair.mp hex with rfl | rfl
  · exact ⟨200, rfl, by decide, by decide⟩
  · exact ⟨100, rfl, by decide, by decide⟩

end Sample

/-- If the transition reports a failed call then the sender has paid for the gas that was used, its
nonce may have changed, and that is all. -/
def AllOrNothing (E : Evm) (db : StateDB) (gp : UInt64) : Prop :=
  ∀ db' gp' ret used, msg.transitionDb E db gp = ⟨db', gp', .ok (ret, used, true)⟩ →
    used.toNat*msg.gasPrice ≤ db.getBalance msg.sender ∧
    ∀ a, db'.object a = if a = msg.sender then
        { db.object a with
          nonce := (db'.object a).nonce
          balance := db.getBalance a-used.toNat*msg.gasPrice }
      else db.object a

def exceptNonce (db : StateDB) (x a : Address) : Account :=
  if a = x then { db.object a with nonce := 0 } else db.object a

def SameButNonce (x : Address) (db db' : StateDB) : Prop := exceptNonce db x = exceptNonce db' x

namespace MadeCall

/-- The failure is reported as such, and not as an error of the transition. -/
def Fails (E : Evm) (c : MadeCall) : Prop :=
  ∃ err, (c.result msg E).2.err = some err ∧ err ≠ .insufficientBalance

/-- What a call that fails leaves behind, the nonce apart: the state it was made in. Before Homestead
a creation that cannot pay for its code is not reverted. -/
def leaves (E : Evm) (c : MadeCall) : StateDB :=
  if E.rules.isHomestead = false ∧ (c.result msg E).2.err = some .codeStoreOutOfGas then
    (c.result msg E).1
  else c.db

end MadeCall

def OnlyMainCall (E : Evm) (db : StateDB) (gp : UInt64) : Prop :=
  ∀ db₁ gp₁ gas, msg.Reaches E db gp db₁ gp₁ gas → (msg.callsMade E db₁ gas).tail = []

section AllOrNothing
variable {msg} {E : Evm} {db db' db₁ : StateDB} {gp gp' gp₁ gas : UInt64} {c : MadeCall}

theorem sameButNonce_setNonce (x : Address) (db : StateDB) (nonce : UInt64) :
    SameButNonce x db (db.setNonce x nonce) := by
  funext a
  unfold exceptNonce setNonce
  rw [object_modify]
  split_ifs <;> rfl

theorem sameButNonce_leaves (h : (c.result msg E).2.err ≠ none) :
    SameButNonce msg.sender (c.leaves msg E) (c.result msg E).1 := by
  unfold MadeCall.leaves
  split_ifs with hfrontier
  · rfl
  obtain ⟨start, gas, recipient, payload, amount⟩ := c
  unfold MadeCall.result callOrCreate at h hfrontier ⊢
  rcases recipient with _ | a
  · have hrules : E.rules.isHomestead = true ∨
        (E.create (E.handler callCreateDepth) 0 false msg.sender payload gas amount ⟨start, []⟩).2.err ≠
          some .codeStoreOutOfGas := by
      by_contra hno
      rw [not_or, not_not] at hno
      exact hfrontier ⟨Bool.not_eq_true _ ▸ hno.1, hno.2⟩
    rcases create_failed hrules h with hsame | hnonce
    · exact congrArg (exceptNonce · msg.sender) hsame.symm
    · refine (sameButNonce_setNonce ..).trans (congrArg (exceptNonce · msg.sender) hnonce.symm)
  · exact congrArg (exceptNonce · msg.sender) (call_failed h).symm

/-- Once the gas that was bought is settled, all but the nonce is as it was exactly if the calls have
left it so. -/
theorem settled_iff (hpre : msg.preCheck db gp = .ok (db₁, gp₁)) {mid : StateDB} {back paid : ℕ}
    (hprice : back+paid = msg.gasCost) (hdb' : db' = mid.addBalance msg.sender back) :
    (paid ≤ db.getBalance msg.sender ∧ ∀ a, db'.object a = if a = msg.sender then
        { db.object a with
          nonce := (db'.object a).nonce
          balance := db.getBalance a-paid }
      else db.object a) ↔ SameButNonce msg.sender db₁ mid := by
  obtain ⟨-, hcost, -, rfl, -⟩ := preCheck_eq_ok_iff.mp hpre
  subst hdb'
  unfold SameButNonce exceptNonce getBalance at *
  rw [funext_iff]
  have hobject (a : Address) : ((mid.addBalance msg.sender back).object a = if a = msg.sender then
        { db.object a with
          nonce := ((mid.addBalance msg.sender back).object a).nonce
          balance := (db.object a).balance-paid }
      else db.object a) ↔
      (if a = msg.sender then
          { (db.subBalance msg.sender msg.gasCost).object a with nonce := 0 }
        else (db.subBalance msg.sender msg.gasCost).object a) =
      if a = msg.sender then { mid.object a with nonce := 0 } else mid.object a := by
    unfold addBalance subBalance
    rw [object_modify, object_modify]
    by_cases ha : a = msg.sender
    · subst ha
      simp only [if_true, Account.mk.injEq, true_and]
      constructor
      · rintro ⟨hb, hc, hs, hd⟩
        exact ⟨by omega, hc.symm, hs.symm, hd.symm⟩
      · rintro ⟨hb, hc, hs, hd⟩
        exact ⟨by omega, hc.symm, hs.symm, hd.symm⟩
    · simp only [ha, if_false]
      exact eq_comm
  simp only [hobject]
  exact ⟨fun h => h.2, fun h => ⟨by omega, h⟩⟩

theorem allOrNothing_iff_leaves : msg.AllOrNothing E db gp ↔
    ∀ c, msg.Makes E db gp c → c.Fails msg E →
      SameButNonce msg.sender (db.subBalance msg.sender msg.gasCost) (c.leaves msg E) := by
  constructor
  · rintro h c ⟨db₁, gp₁, gas, hreach, hc⟩ ⟨err, herr, hfunds⟩
    obtain ⟨-, -, -, hdb₁, -⟩ := preCheck_eq_ok_iff.mp hreach.bought
    rw [← hdb₁]
    have hfailed : (c.result msg E).2.err ≠ none := by
      rw [herr]
      exact nofun
    have hcalls := calls_of_failed hc hfailed
    obtain ⟨left, hleft, hrun⟩ := transitionDb_calls hreach (by
      rw [hcalls, herr]
      exact fun heq => hfunds (Option.some.inj heq))
    rw [hcalls, decide_eq_true hfailed] at hrun
    have hprice : left.toNat*msg.gasPrice+(msg.gasLimit-left).toNat*msg.gasPrice = msg.gasCost := by
      have hleft' := UInt64.le_iff_toNat_le.mp hleft
      rw [UInt64.toNat_sub_of_le _ _ hleft, ← Nat.add_mul, Nat.add_sub_cancel' hleft', gasCost]
    exact ((settled_iff hreach.bought hprice rfl).mp (h _ _ _ _ hrun)).trans
      (sameButNonce_leaves hfailed).symm
  · intro h db' gp' ret used hrun
    obtain ⟨hfailed, -⟩ | ⟨db₁, gp₁, gas, hreach, hfinish⟩ := reaches_of_ok hrun
    · cases hfailed
    obtain ⟨hfunds, hfailed, hrefund⟩ := finish_ok hfinish
    obtain ⟨left, hprice, hdb'⟩ := refundGas_settles hreach.bought hreach.gas_le hrefund
    obtain ⟨c, hc, hres⟩ := exists_failed_call (hfailed.mp rfl)
    have hfailed' : (c.result msg E).2.err ≠ none := by
      rw [hres]
      exact hfailed.mp rfl
    obtain ⟨err, herr⟩ := Option.ne_none_iff_exists'.mp hfailed'
    refine (settled_iff hreach.bought hprice hdb').mpr ?_
    rw [← hres] at hfunds ⊢
    have hleaves := h c ⟨db₁, gp₁, gas, hreach, hc⟩ ⟨err, herr, fun heq => hfunds (heq ▸ herr)⟩
    obtain ⟨-, -, -, hdb₁, -⟩ := preCheck_eq_ok_iff.mp hreach.bought
    rw [← hdb₁] at hleaves
    exact hleaves.trans (sameButNonce_leaves hfailed')

theorem allOrNothing_of_onlyMainCall (hcall : msg.recipient ≠ none ∨ E.rules.isHomestead = true)
    (honly : msg.OnlyMainCall E db gp) : msg.AllOrNothing E db gp := by
  refine allOrNothing_iff_leaves.mpr ?_
  rintro c ⟨db₁, gp₁, gas, hreach, hc⟩ ⟨err, herr, -⟩
  obtain ⟨-, -, -, hdb₁, -⟩ := preCheck_eq_ok_iff.mp hreach.bought
  rw [← hdb₁]
  have hmain : c = ⟨msg.mainStart db₁, gas, msg.recipient, msg.data, msg.amount⟩ := by
    have htail := honly db₁ gp₁ gas hreach
    unfold callsMade at hc htail
    dsimp only at hc
    rw [tail_cons] at htail
    rwa [htail, mem_singleton] at hc
  have hfailed : (c.result msg E).2.err ≠ none := by
    rw [herr]
    exact nofun
  have hstart : SameButNonce msg.sender db₁ c.db := by
    rw [hmain]
    unfold mainStart
    split_ifs
    · rfl
    · exact sameButNonce_setNonce ..
  unfold MadeCall.leaves
  split_ifs with hfrontier
  · rcases hcall with hcall | hhomestead
    · obtain ⟨a, ha⟩ := Option.ne_none_iff_exists'.mp hcall
      have hsame : (c.result msg E).1 = c.db := by
        subst hmain
        unfold MadeCall.result callOrCreate at hfailed ⊢
        rw [ha] at hfailed ⊢
        exact call_failed hfailed
      rwa [hsame]
    · rw [hhomestead] at hfrontier
      cases hfrontier.1
  · exact hstart

theorem allOrNothing_of_plain (hplain : msg.Plain db) : msg.AllOrNothing E db gp := by
  intro db' gp' ret used hrun
  obtain ⟨hfailed, -⟩ | ⟨db₁, gp₁, gas, hreach, hfinish⟩ := reaches_of_ok hrun
  · cases hfailed
  obtain ⟨hfunds, hfailed, -⟩ := finish_ok hfinish
  obtain ⟨-, -, -, hdb₁, -⟩ := preCheck_eq_ok_iff.mp hreach.bought
  have hcode : db₁.getCode = db.getCode := by
    rw [hdb₁]
    exact funext (fun _ => getCode_subBalance ..)
  rcases calls_plain (E := E) (hplain.of_code hcode) gas with hno | ⟨hok, -⟩
  · exact absurd hno hfunds
  · exact absurd hok (hfailed.mp rfl)

/-- Code is an invalid opcode, and account 300 has code. -/
def failingEvm : Evm := { sampleEvm 1 with bytecode := fun _ _ => .fail "invalid opcode 0xfe" }

def codedFunds : StateDB := sampleFunds.setCode 300 [0xfe]

end AllOrNothing

end Message

end MatrixNode
