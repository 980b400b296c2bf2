import MatrixNode.TxPool
import MatrixNode.Txdata

/-! `validateTx` and `types.Sender` on transactions whose numbers can be nil or negative, as a peer's
JSON leaves them: which checks come to which pointer, in the order of the source. -/
namespace MatrixNode
open GoLib List

namespace Txdata

/-- The fields with zero for what is nil, as RLP writes them. -/
def filled (d : Txdata) : Transaction where
  accountNonce := d.accountNonce
  price := (d.price.getD 0).toNat
  gasLimit := d.gasLimit
  recipient := d.recipient
  amount := (d.amount.getD 0).toNat
  payload := d.payload
  extra := d.extra.map fun e =>
    ⟨e.txType, e.lockHeight, e.extraTo.map fun ex =>
      ⟨ex.recipient, (ex.amount.getD 0).toNat, ex.payload⟩⟩
  v := (d.v.getD 0).toNat
  r := (d.r.getD 0).toNat
  s := (d.s.getD 0).toNat

def extraTo (d : Txdata) : List TxdataTo := (d.extra.head?.map TxdataExtra.extraTo).getD []

def allExtraTo (d : Txdata) : List TxdataTo := d.extra.flatMap TxdataExtra.extraTo

def numbers (d : Txdata) : List (Option ℤ) :=
  [d.price, d.amount, d.v, d.r, d.s] ++ d.allExtraTo.map TxdataTo.amount

def size (d : Txdata) : ℕ :=
  if ∃ x ∈ d.numbers, ∃ n ∈ x, n < 0 then 0 else d.filled.size

/-- The argument V of `recoverPlain`, if it applies the homestead rule, and the signer that hashes. -/
structure Recovery where
  v : ℤ
  homestead : Bool
  hashSigner : Signer

/-- `deriveChainId`. `BitLen` and `Uint64` do not see the sign. -/
def chainIdOf (v : ℤ) : ℤ :=
  let v := if 128 < v then v-128 else v
  if Nat.size v.natAbs ≤ 64 then deriveChainId1 v.natAbs else (v-35)/2

/-- What a signer makes of V before it looks at R and S, unless the chain is another one. -/
def recovery (v : ℤ) : Signer → Option Recovery
  | .frontier => some ⟨v, false, .frontier⟩
  | .homestead => some ⟨v, true, .homestead⟩
  | .eip155 chainId =>
    if isProtectedV v.natAbs = false then some ⟨v, true, .homestead⟩
    else if chainIdOf v ≠ chainId then none
    else some ⟨(if 128 < v then v-128 else v)-2*chainId-8, true, .eip155 chainId⟩

section Checks
variable {Hash : Type} (C : TxCrypto Hash) (pool : TxPool)

/-- `types.Sender` without its cache: no account if an error is returned. S is compared only if R
is positive. -/
def sender (signer : Signer) (d : Txdata) : Except GoError (Option Address) :=
  match d.v with
  | none => .error nilDereference
  | some v =>
    match recovery v signer with
    | none => .ok none
    | some rec =>
      if 8 < Nat.size rec.v.natAbs then .ok none
      else
        match d.r with
        | none => .error nilDereference
        | some r =>
          -- `||` of `ValidateSignatureValues` stops here.
          if r < 1 then .ok none
          else
            match d.s with
            | none => .error nilDereference
            | some s =>
              if s < 1 then .ok none
              else
                .ok (C.recoverPlain (C.signerHash rec.hashSigner d.filled) r.toNat s.toNat rec.v
                  rec.homestead).toOption

def checkPayments (seen : List Address) : List TxdataTo → Except GoError Unit
  | [] => .ok ()
  | ex :: rest =>
    match ex.amount with
    | none => .error nilDereference
    | some amount =>
      if amount < 0 then .error (.error "negative value")
      else
        match ex.recipient with
        | none => checkPayments seen rest
        | some a =>
          if a ∈ seen then .error (.error "Contains duplicate transfer accounts")
          else checkPayments (a :: seen) rest

def countPayments (d : Txdata) : Except GoError ℕ :=
  if d.extraTo = [] then .ok 1
  else
    match d.recipient with
    | none => .error nilDereference
    | some main => do
      checkPayments [main] d.allExtraTo
      return 1+d.allExtraTo.length

def checkSize (d : Txdata) : Except GoError Unit :=
  if d.extra = [] then
    if 32*1024 < d.size then .error (.error "oversized data") else .ok ()
  else do
    let txcount ← countPayments d
    if 32*1024*txcount < d.size then .error (.error "oversized data")
    else if txCount < txcount then .error (.error "Transaction quantity spillover")
    else .ok ()

def cost (price amount : ℤ) (d : Txdata) : ℤ :=
  price*d.gasLimit.toNat+amount+(d.extraTo.map fun ex => ex.amount.getD 0).sum

def checkSigned (d : Txdata) (v amount : ℤ) (account : Address) : Except GoError Unit :=
  if 128 < v ∧ d.extra = [] then .error (.error "transaction is unlawful")
  else
    match d.price with
    | none => .error nilDereference
    | some price =>
      if price < pool.gasPrice then .error (.error "transaction underpriced")
      else if d.accountNonce < pool.currentState.getNonce account then
        .error (.error "nonce too low")
      else if pool.currentState.getBalance account < cost price amount d then
        .error (.error "insufficient funds for gas * price + value")
      else pool.checkGas d.filled

def validateTx (d : Txdata) : Except GoError Unit :=
  match checkSize d with
  | .error e => .error e
  | .ok () =>
    match d.amount with
    | none => .error nilDereference
    | some amount =>
      if amount < 0 then .error (.error "negative value")
      else if pool.currentMaxGas < d.gasLimit then .error (.error "exceeds block gas limit")
      else
        match sender C pool.signer d with
        | .error e => .error e
        | .ok none => .error (.error "invalid sender")
        | .ok (some account) => checkSigned pool d (d.v.getD 0) amount account

end Checks

section NilReads
variable {Hash : Type} {C : TxCrypto Hash} {pool : TxPool} {d : Txdata}

/-- The sender is asked for and V is nil, or the checks of V pass and R is, or those of R and S is. -/
def SenderReadsNil (signer : Signer) (d : Txdata) : Prop :=
  d.v = none ∨ ∃ v rec, d.v = some v ∧ recovery v signer = some rec ∧ Nat.size rec.v.natAbs ≤ 8 ∧
    (d.r = none ∨ ∃ r, d.r = some r ∧ 1 ≤ r ∧ d.s = none)

theorem sender_eq_error_iff {signer : Signer} {e : GoError} :
    sender C signer d = .error e ↔ SenderReadsNil signer d ∧ e = nilDereference := by
  rw [sender, SenderReadsNil]
  cases hv : d.v with
  | none => simp [eq_comm]
  | some v =>
    cases hrec : recovery v signer with
    | none => simp [hrec]
    | some rec =>
      by_cases hsize : 8 < Nat.size rec.v.natAbs
      · simp [hrec, hsize]
      · cases hr : d.r with
        | none => simp [hrec, hsize, eq_comm, not_lt.mp hsize]
        | some r =>
          by_cases hpos : r < 1
          · simp [hrec, hsize, hpos]
          · cases hs : d.s with
            | none => simp [hrec, hsize, hpos, eq_comm, not_lt.mp hsize, not_lt.mp hpos]
            | some s =>
              simp only [hrec, hsize, hpos, if_false]
              split_ifs <;> simp

variable {seen : List Address} {amount : ℤ}

theorem checkPayments_step (seen : List Address) {ex : TxdataTo}
    (hamount : ex.amount = some amount) :
    (∃ e, e ≠ nilDereference ∧ ∀ entries, checkPayments seen (ex :: entries) = .error e) ∨
    ∃ seen', ∀ entries, checkPayments seen (ex :: entries) = checkPayments seen' entries := by
  by_cases hneg : amount < 0
  · left
    refine ⟨.error "negative value", nofun, ?_⟩
    intro entries
    rw [checkPayments, hamount]
    exact if_pos hneg
  · cases hrecipient : ex.recipient with
    | none =>
      right
      refine ⟨seen, ?_⟩
      intro entries
      rw [checkPayments, hamount, hrecipient]
      exact if_neg hneg
    | some a =>
      by_cases hseen : a ∈ seen
      · left
        refine ⟨.error "Contains duplicate transfer accounts", nofun, ?_⟩
        intro entries
        rw [checkPayments, hamount, hrecipient]
        exact (if_neg hneg).trans (if_pos hseen)
      · right
        refine ⟨a :: seen, ?_⟩
        intro entries
        rw [checkPayments, hamount, hrecipient]
        exact (if_neg hneg).trans (if_neg hseen)

/-- The loop comes to an amount that is nil. -/
def PaymentsReadNil (seen : List Address) (entries : List TxdataTo) : Prop :=
  ∃ before ex after, entries = before ++ ex :: after ∧ ex.amount = none ∧
    checkPayments seen before = .ok ()

theorem not_paymentsReadNil_nil : ¬ PaymentsReadNil seen [] := by
  rintro ⟨before, ex, after, hsplit, -⟩
  cases before <;> cases hsplit

theorem paymentsReadNil_cons_iff {ex : TxdataTo} {rest : List TxdataTo}
    (hamount : ex.amount = some amount) :
    PaymentsReadNil seen (ex :: rest) ↔ ∃ before ex' after, rest = before ++ ex' :: after ∧
      ex'.amount = none ∧ checkPayments seen (ex :: before) = .ok () := by
  constructor
  · rintro ⟨before, ex', after, hsplit, hnil, hbefore⟩
    cases before with
    | nil =>
      obtain ⟨rfl, -⟩ := cons.inj hsplit
      rw [hamount] at hnil
      cases hnil
    | cons ex'' before =>
      obtain ⟨rfl, hrest⟩ := cons.inj hsplit
      exact ⟨before, ex', after, hrest, hnil, hbefore⟩
  · rintro ⟨before, ex', after, rfl, hnil, hbefore⟩
    exact ⟨ex :: before, ex', after, rfl, hnil, hbefore⟩

variable {entries : List TxdataTo}

theorem checkPayments_nil_iff :
    checkPayments seen entries = .error nilDereference ↔ PaymentsReadNil seen entries := by
  induction entries generalizing seen with
  | nil => exact iff_of_false (by simp [checkPayments]) not_paymentsReadNil_nil
  | cons ex rest ih =>
    cases hamount : ex.amount with
    | none =>
      refine iff_of_true ?_ ⟨[], ex, rest, rfl, hamount, rfl⟩
      rw [checkPayments, hamount]
    | some amount =>
      rw [paymentsReadNil_cons_iff hamount]
      rcases checkPayments_step seen hamount with ⟨e, hother, hstep⟩ | ⟨seen', hstep⟩
      · simp [hstep, hother]
      · simp only [hstep, ih]
        rfl

theorem checkPayments_ok (h : checkPayments seen entries = .ok ()) :
    ∀ ex ∈ entries, ex.amount ≠ none := by
  induction entries generalizing seen with
  | nil => exact fun ex hex => absurd hex not_mem_nil
  | cons ex rest ih =>
    cases hamount : ex.amount with
    | none =>
      rw [checkPayments, hamount] at h
      cases h
    | some amount =>
      rw [forall_mem_cons, hamount]
      refine ⟨Option.some_ne_none amount, ?_⟩
      rcases checkPayments_step seen hamount with ⟨e, -, hstep⟩ | ⟨seen', hstep⟩
      · rw [hstep] at h
        cases h
      · rw [hstep] at h
        exact ih h

/-- The recipient of a transaction with extra recipients is nil, or one of the amounts is. -/
def SizeReadsNil (d : Txdata) : Prop :=
  d.extraTo ≠ [] ∧ (d.recipient = none ∨
    ∃ main, d.recipient = some main ∧ PaymentsReadNil [main] d.allExtraTo)

theorem extra_ne_nil_of_extraTo (h : d.extraTo ≠ []) : d.extra ≠ [] := by
  intro hnil
  rw [extraTo, hnil] at h
  exact h rfl

theorem countPayments_nil_iff : countPayments d = .error nilDereference ↔ SizeReadsNil d := by
  rw [countPayments, SizeReadsNil]
  by_cases hto : d.extraTo = []
  · simp [hto]
  · cases hmain : d.recipient with
    | none => simp [hto]
    | some main =>
      have hmain : (∃ main', some main = some main' ∧ PaymentsReadNil [main'] d.allExtraTo) ↔
          checkPayments [main] d.allExtraTo = .error nilDereference := by
        simp [checkPayments_nil_iff]
      rw [hmain]
      cases hpayments : checkPayments [main] d.allExtraTo <;> simp [hpayments, hto]

theorem checkSize_nil_iff : checkSize d = .error nilDereference ↔ SizeReadsNil d := by
  rw [checkSize]
  by_cases hextra : d.extra = []
  · refine iff_of_false ?_ fun h => extra_ne_nil_of_extraTo h.1 hextra
    split_ifs <;> simp [nilDereference]
  · rw [if_neg hextra, ← countPayments_nil_iff]
    cases countPayments d with
    | error e => simp
    | ok txcount =>
      rw [ok_bind]
      split_ifs <;> simp [nilDereference]

structure ReachesSender (pool : TxPool) (d : Txdata) : Prop where
  size : checkSize d = .ok ()
  amount : ∃ amount, d.amount = some amount ∧ 0 ≤ amount
  gas : ¬ pool.currentMaxGas < d.gasLimit

/-- `validateTx` comes to a pointer that is nil. -/
def ValidateReadsNil (C : TxCrypto Hash) (pool : TxPool) (d : Txdata) : Prop :=
  SizeReadsNil d ∨ (checkSize d = .ok () ∧ d.amount = none) ∨
    ReachesSender pool d ∧ (SenderReadsNil pool.signer d ∨
      (∃ account, sender C pool.signer d = .ok (some account)) ∧
        ¬ (128 < d.v.getD 0 ∧ d.extra = []) ∧ d.price = none)

theorem checkGas_ne_nil {tx : Transaction} : pool.checkGas tx ≠ .error nilDereference := by
  rw [TxPool.checkGas]
  cases pool.intrinsicTotal tx with
  | error e => simp [nilDereference]
  | ok gas =>
    simp only
    split_ifs <;> simp [nilDereference]

theorem checkSigned_nil_iff {v : ℤ} {account : Address} :
    checkSigned pool d v amount account = .error nilDereference ↔
      ¬ (128 < v ∧ d.extra = []) ∧ d.price = none := by
  rw [checkSigned]
  by_cases hlaw : 128 < v ∧ d.extra = []
  · rw [if_pos hlaw]
    exact iff_of_false (by simp [nilDereference]) fun h => h.1 hlaw
  · rw [if_neg hlaw]
    cases hprice : d.price with
    | none => exact iff_of_true rfl ⟨hlaw, rfl⟩
    | some price =>
      refine iff_of_false ?_ fun h => by cases h.2
      simp only
      split_ifs
      · simp [nilDereference]
      · simp [nilDereference]
      · simp [nilDereference]
      · exact checkGas_ne_nil

theorem validateTx_nil_iff :
    validateTx C pool d = .error nilDereference ↔ ValidateReadsNil C pool d := by
  have hsize : SizeReadsNil d ↔ checkSize d = .error nilDereference := checkSize_nil_iff.symm
  rw [validateTx, ValidateReadsNil, hsize]
  cases hcheck : checkSize d with
  | error e =>
    have hstop : ¬ ReachesSender pool d := by
      intro h
      rw [h.size] at hcheck
      cases hcheck
    simp [hstop]
  | ok _ =>
    cases hamount : d.amount with
    | none => simp
    | some amount =>
      by_cases hneg : amount < 0
      · have hstop : ¬ ReachesSender pool d := by
          intro h
          obtain ⟨a, ha, hpos⟩ := h.amount
          rw [hamount] at ha
          cases ha
          exact absurd hneg (not_lt.mpr hpos)
        simp [hneg, hstop, nilDereference]
      · by_cases hgas : pool.currentMaxGas < d.gasLimit
        · have hstop : ¬ ReachesSender pool d := fun h => h.gas hgas
          simp [hneg, hgas, hstop, nilDereference]
        · have hreach : ReachesSender pool d := ⟨hcheck, ⟨amount, hamount, not_lt.mp hneg⟩, hgas⟩
          simp only [hneg, hgas, if_false, hreach, true_and]
          cases hsender : sender C pool.signer d with
          | error e =>
            obtain ⟨hreads, rfl⟩ := sender_eq_error_iff.mp hsender
            simp [hreads]
          | ok found =>
            have hreads : ¬ SenderReadsNil pool.signer d := by
              intro h
              rw [sender_eq_error_iff.mpr ⟨h, rfl⟩] at hsender
              cases hsender
            cases found with
            | none => simp [hreads, nilDereference]
            | some account => simp [hreads, checkSigned_nil_iff]

structure Complete (d : Txdata) : Prop where
  price : d.price ≠ none
  amount : d.amount ≠ none
  v : d.v ≠ none
  r : d.r ≠ none
  s : d.s ≠ none
  payments : d.extraTo ≠ [] → d.recipient ≠ none ∧ ∀ ex ∈ d.allExtraTo, ex.amount ≠ none

theorem sender_ok {signer : Signer} {account : Address}
    (h : sender C signer d = .ok (some account)) : d.v ≠ none ∧ d.r ≠ none ∧ d.s ≠ none := by
  rw [sender] at h
  cases hv : d.v with
  | none =>
    rw [hv] at h
    cases h
  | some v =>
    rw [hv] at h
    cases hrec : recovery v signer with
    | none => simp [hrec] at h
    | some rec =>
      simp only [hrec] at h
      split_ifs at h
      · cases h
      · cases hr : d.r with
        | none => simp [hr] at h
        | some r =>
          simp only [hr] at h
          split_ifs at h
          · cases h
          · cases hs : d.s with
            | none => simp [hs] at h
            | some s => simp

theorem checkSize_ok (h : checkSize d = .ok ()) (hto : d.extraTo ≠ []) :
    d.recipient ≠ none ∧ ∀ ex ∈ d.allExtraTo, ex.amount ≠ none := by
  rw [checkSize, if_neg (extra_ne_nil_of_extraTo hto)] at h
  obtain ⟨txcount, hcount, -⟩ := bind_eq_ok_iff.mp h
  rw [countPayments, if_neg hto] at hcount
  cases hmain : d.recipient with
  | none =>
    rw [hmain] at hcount
    cases hcount
  | some main =>
    rw [hmain] at hcount
    obtain ⟨_, hpayments, -⟩ := bind_eq_ok_iff.mp hcount
    exact ⟨Option.some_ne_none main, checkPayments_ok hpayments⟩

/-- The amount is not negative and the gas is within the limit, so the sender was asked for. -/
theorem complete_of_validateTx (h : validateTx C pool d = .ok ()) : d.Complete := by
  rw [validateTx] at h
  cases hcheck : checkSize d with
  | error e =>
    rw [hcheck] at h
    cases h
  | ok _ =>
    rw [hcheck] at h
    cases hamount : d.amount with
    | none =>
      rw [hamount] at h
      cases h
    | some amount =>
      rw [hamount] at h
      have hgas := (ite_error_eq_ok.mp (ite_error_eq_ok.mp h).2).2
      cases hsender : sender C pool.signer d with
      | error e =>
        rw [hsender] at hgas
        cases hgas
      | ok found =>
        rw [hsender] at hgas
        cases found with
        | none => cases hgas
        | some account =>
          obtain ⟨hv, hr, hs⟩ := sender_ok hsender
          have hsigned : checkSigned pool d (d.v.getD 0) amount account = .ok () := hgas
          have hprice : d.price ≠ none := by
            intro hnil
            rw [checkSigned, hnil] at hsigned
            cases (ite_error_eq_ok.mp hsigned).2
          have hsome : d.amount ≠ none := by
            rw [hamount]
            exact Option.some_ne_none amount
          exact ⟨hprice, hsome, hv, hr, hs, checkSize_ok hcheck⟩

end NilReads

def ofTxTo (ex : TxTo) : TxdataTo := ⟨ex.recipient, some ex.amount, ex.payload⟩

/-- A transaction that came as RLP, which leaves no pointer nil. -/
def ofTransaction (tx : Transaction) : Txdata where
  accountNonce := tx.accountNonce
  price := some tx.price
  gasLimit := tx.gasLimit
  recipient := tx.recipient
  amount := some tx.amount
  payload := tx.payload
  v := some tx.v
  r := some tx.r
  s := some tx.s
  extra := tx.extra.map fun e => ⟨e.txType, e.lockHeight, e.extraTo.map ofTxTo⟩

end Txdata

end MatrixNode
