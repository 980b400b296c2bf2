import MatrixNode.EvmCalls

/-! What a call tree can make of one account besides paying it: its nonce, its code and whether it is
to be deleted. -/
namespace MatrixNode
open GoLib StateDB

structure AccountCore where
  nonce : UInt64
  code : Bytes
  suicided : Bool

def Account.core (o : Account) : AccountCore := ⟨o.nonce, o.code, o.suicided⟩

def nextNonce (nonce : UInt64) : UInt64 := (nonce+1) ||| nonceAddOne

section Nonce
variable {nonce : UInt64}

theorem toNat_succ_of_lt (h : nonce.toNat+1 < 2^64) : (nonce+1).toNat = nonce.toNat+1 :=
  Nat.mod_eq_of_lt h

theorem lt_nextNonce (h : nonce.toNat+1 < 2^64) : nonce < nextNonce nonce := by
  have hle : (nonce+1).toNat ≤ (nextNonce nonce).toNat :=
    Nat.left_le_or
  rw [UInt64.lt_iff_toNat_lt]
  rw [toNat_succ_of_lt h] at hle
  omega

theorem toNat_nextNonce_le (h : nonce.toNat+1 < 2^64) :
    (nextNonce nonce).toNat ≤ nonce.toNat+2^53 := by
  have hhigh : (nextNonce nonce).toNat/2^53 = (nonce.toNat+1)/2^53 := by
    rw [nextNonce, UInt64.toNat_or, toNat_succ_of_lt h, Nat.or_div_two_pow]
    exact Nat.or_zero _
  omega

end Nonce

namespace StateDB

def core (s : StateDB) (addr : Address) : AccountCore := (s.object addr).core

section Core
variable (s : StateDB) (addr a : Address)

@[simp] theorem core_nonce : (s.core a).nonce = s.getNonce a := rfl

@[simp] theorem core_addBalance (v : ℕ) : (s.addBalance addr v).core a = s.core a :=
  object_modify_field s addr a (g := Account.core) (fun _ => rfl)

@[simp] theorem core_subBalance (v : ℕ) : (s.subBalance addr v).core a = s.core a :=
  object_modify_field s addr a (g := Account.core) (fun _ => rfl)

@[simp] theorem core_setState (key value : Word) : (s.setState addr key value).core a = s.core a :=
  object_modify_field s addr a (g := Account.core) (fun _ => rfl)

@[simp] theorem core_transfer (src dst : Address) (v : ℕ) :
    (s.transfer src dst v).core a = s.core a := by
  rw [transfer, core_addBalance, core_subBalance]

theorem core_setNonce (nonce : UInt64) : (s.setNonce addr nonce).core a =
    if a = addr then { s.core a with nonce := nonce ||| nonceAddOne } else s.core a := by
  unfold core setNonce
  rw [object_modify]
  split_ifs <;> rfl

theorem core_setCode (code : Bytes) : (s.setCode addr code).core a =
    if a = addr then { s.core a with code := code } else s.core a := by
  unfold core setCode
  rw [object_modify]
  split_ifs <;> rfl

theorem core_createAccount : (s.createAccount addr).core a =
    if a = addr then newObject.core else s.core a := by
  unfold core createAccount
  rw [object_modify]
  split_ifs <;> rfl

theorem core_suicide_of_ne (h : a ≠ addr) : (s.suicide addr).core a = s.core a := by
  unfold core suicide
  split_ifs
  · rw [object_modify, if_neg h]
  · rfl

theorem core_suicide_self : (s.suicide a).core a = s.core a ∨
    (s.suicide a).core a = { s.core a with suicided := true } := by
  unfold core suicide
  split_ifs
  · right
    rw [object_modify, if_pos rfl]
    rfl
  · exact .inl rfl

end Core

end StateDB

namespace AccountCore
variable (P : AccountCore → Prop)

/-- Nobody can act for the account: it has no code, its nonce shows that it is in use, so that no
contract takes its address, and it is not about to be deleted. -/
structure Secure (c : AccountCore) : Prop where
  code : c.code = []
  nonce : nonceAddOne < c.nonce
  suicided : c.suicided = false

/-- What holds of an account whatever is done to it. -/
structure Lasting : Prop where
  created : P newObject.core
  nonce : ∀ c nonce, P c → P { c with nonce := nonce ||| nonceAddOne }
  code : ∀ c code, P c → P { c with code := code }
  suicided : ∀ c, P c → P { c with suicided := true }

def Kept : Prop := Lasting P ∨ ∀ c, P c → c.Secure

variable {P}

theorem Kept.lasting {c : AccountCore} (h : Kept P) (hc : P c)
    (hopen : c.code ≠ [] ∨ c.nonce = nonceAddOne) : Lasting P := by
  rcases h with hlasting | hsecure
  · exact hlasting
  · exfalso
    obtain ⟨hcode, hnonce, -⟩ := hsecure c hc
    rcases hopen with hcode' | hnonce'
    · exact hcode' hcode
    · rw [hnonce'] at hnonce
      exact UInt64.lt_irrefl _ hnonce

end AccountCore

/-- The account whose nonce, code and end a request can write, the frames below it apart. -/
def Request.writer : Request → Option Address
  | .call .. | .staticCall .. => none
  | .callCode caller .. | .create caller .. => some caller
  | .delegateCall parent .. => some parent.address

/-- Requests leave `P` true of the account `x`. Those of `x` itself do so if `P` is lasting. -/
def Handler.Upholds (sub : Handler) (P : AccountCore → Prop) (x : Address) : Prop :=
  ∀ readOnly request m, (request.writer = some x → AccountCore.Lasting P) → P (m.db.core x) →
    P ((sub readOnly request m).1.db.core x)

namespace MatrixDeposit
variable {contract : Contract} {db : StateDB} {n : ℕ} {x : Address}

theorem StorageOnly.core {db' : StateDB} (h : StorageOnly db db') : db'.core x = db.core x := by
  obtain ⟨storage, hobject⟩ := h.object x
  rw [StateDB.core, hobject]
  rfl

theorem core_run (input : Bytes) : (MatrixDeposit.run contract db n input).1.core x = db.core x := by
  rcases run_storage contract db n input with h | ⟨db', value, h, -, hpaid⟩
  · exact h.core
  · rw [hpaid, core_transfer, h.core]

end MatrixDeposit

namespace Evm
variable {E : Evm} {sub : Handler} {P : AccountCore → Prop} {x : Address} {m : Machine}
  {contract : Contract}

theorem core_runPrecompiledContract (p : Precompiled) (input : Bytes) :
    (E.runPrecompiledContract p input contract m).1.db.core x = m.db.core x := by
  exact runPrecompiledContract_db (Q := fun s => s.core x = m.db.core x) rfl
    (fun _ => MatrixDeposit.core_run input)

theorem Asks.writer_eq {readOnly : Bool} {gas spent : UInt64} {request : Request}
    (h : Asks E readOnly contract gas request spent) (hx : request.writer = some x) :
    contract.address = x := by
  cases h with
  | create | callCode | delegateCall => exact Option.some.inj hx
  | call | staticCall => cases hx

theorem exec_upholds (hsub : sub.Upholds P x) (hown : contract.address = x → AccountCore.Lasting P)
    (readOnly : Bool) (program : Program) (gas : UInt64) (m : Machine) (h : P (m.db.core x)) :
    P ((E.exec sub readOnly contract program gas m).1.db.core x) := by
  refine exec_induction (fun _ m => P (m.db.core x)) (fun result => P (result.1.db.core x))
    ?_ ?_ ?_ ?_ ?_ ?_ program gas m h
  · intro gas m ret err _ h
    exact h
  · intro gas m cost _ h
    exact h
  · intro gas m g h
    exact h
  · intro gas m loc val _ h
    rwa [core_setState]
  · intro gas m request spent hask h
    exact hsub readOnly request m (fun hx => hown (hask.writer_eq hx)) h
  · intro gas m beneficiary _ h
    by_cases hx : x = contract.address
    · subst hx
      rcases core_suicide_self (m.db.addBalance beneficiary
        (m.db.getBalance contract.address)) contract.address with hsame | hmarked
      · rwa [hsame, core_addBalance]
      · rw [hmarked, core_addBalance]
        exact (hown rfl).suicided _ h
    · rwa [core_suicide_of_ne _ _ _ hx, core_addBalance]

theorem run_upholds (hsub : sub.Upholds P x)
    (hown : contract.code ≠ [] → contract.address = x → AccountCore.Lasting P)
    (readOnly : Bool) (input : Bytes) (h : P (m.db.core x)) :
    P ((E.run sub readOnly contract input m).1.db.core x) := by
  unfold run
  split
  · rwa [core_runPrecompiledContract]
  · split_ifs with hcode
    · exact h
    · exact exec_upholds hsub (hown hcode) readOnly _ _ m h

section Create
variable {depth : ℕ} {readOnly : Bool} {caller : Address} {code : Bytes} {gas : UInt64} {value : ℕ}

theorem core_enterCall (db : StateDB) (caller addr : Address) (value : ℕ) :
    (enterCall db caller addr value).core x = db.core x := by
  unfold enterCall
  rw [core_transfer]
  split_ifs with hexist
  · rfl
  · have hmissing : db.exist addr = false := by simpa using hexist
    exact congrArg Account.core (object_createAccount db addr x hmissing)

theorem create_refused (h : callCreateDepth < depth ∨ m.db.canTransfer caller value = false) :
    (E.create sub depth readOnly caller code gas value m).1 = m := by
  unfold create
  by_cases hdepth : callCreateDepth < depth
  · rw [if_pos hdepth]
  · rw [if_neg hdepth, if_pos (h.resolve_left hdepth)]

/-- Only an address that is not in use can be taken. -/
theorem create_upholds (hkept : AccountCore.Kept P) (hsub : sub.Upholds P x)
    (hdepth : ¬ callCreateDepth < depth) (hcan : ¬ m.db.canTransfer caller value = false)
    (h : P ((m.db.setNonce caller (m.db.getNonce caller+1)).core x)) :
    P ((E.create sub depth readOnly caller code gas value m).1.db.core x) := by
  unfold create
  rw [if_neg hdepth, if_neg hcan]
  dsimp only
  generalize m.db.setNonce caller (m.db.getNonce caller+1) = snapshot at h ⊢
  generalize E.createAddress caller (m.db.getNonce caller) = addr
  split
  next => exact h
  next hfree =>
    rw [not_or, not_not] at hfree
    have hown : addr = x → AccountCore.Lasting P := by
      rintro rfl
      exact hkept.lasting h (.inr hfree.1)
    have hready : P ((transfer (if E.rules.isEIP158 then
        (snapshot.createAccount addr).setNonce addr 1
        else snapshot.createAccount addr) caller addr value).core x) := by
      have hnew : P ((snapshot.createAccount addr).core x) := by
        rw [core_createAccount]
        split_ifs with hx
        · exact (hown hx.symm).created
        · exact h
      rw [core_transfer]
      split_ifs
      · rw [core_setNonce]
        split_ifs with hx
        · exact (hown hx.symm).nonce _ _ hnew
        · exact hnew
      · exact hnew
    split
    · exact hready
    · refine settleCreate_db (Q := fun s => P (s.core x)) h
        (run_upholds hsub (fun _ => hown) readOnly [] hready) ?_
      intro hran
      rw [core_setCode]
      by_cases hx : x = addr
      · rw [if_pos hx]
        exact (hown hx.symm).code _ _ hran
      · rwa [if_neg hx]

end Create

theorem Opens.upholds {readOnly mode : Bool} {request : Request} {input : Bytes} {db : StateDB}
    (hkept : AccountCore.Kept P) (h : Opens readOnly m request mode contract input db)
    (hown : request.writer = some x → AccountCore.Lasting P) (hP : P (m.db.core x)) :
    P (db.core x) ∧ (contract.code ≠ [] → contract.address = x → AccountCore.Lasting P) := by
  cases h with
  | call caller addr _ gas value =>
    have henter : P ((enterCall m.db caller addr value).core x) := by rwa [core_enterCall]
    refine ⟨henter, ?_⟩
    rintro hcode rfl
    exact hkept.lasting henter (.inl hcode)
  | callCode | delegateCall =>
    refine ⟨hP, ?_⟩
    intro _ hself
    exact hown (congrArg some hself)
  | staticCall caller addr _ gas =>
    refine ⟨hP, ?_⟩
    rintro hcode rfl
    exact hkept.lasting hP (.inl hcode)

theorem handle_upholds (hkept : AccountCore.Kept P) (hsub : sub.Upholds P x) (depth : ℕ) :
    Handler.Upholds (E.handle sub depth) P x := by
  intro readOnly request m hown h
  rcases E.handle_cases sub depth readOnly request m with ⟨caller, code, gas, value, rfl⟩ |
    ⟨err, hrefused⟩ | ⟨mode, contract, input, db, hopens, hrun⟩
  · change P ((E.create sub depth readOnly caller code gas value m).1.db.core x)
    by_cases hgo : callCreateDepth < depth ∨ m.db.canTransfer caller value = false
    · rwa [create_refused hgo]
    · rw [not_or] at hgo
      refine create_upholds hkept hsub hgo.1 hgo.2 ?_
      rw [core_setNonce]
      split_ifs with hx
      · exact (hown (congrArg some hx.symm)).nonce _ _ h
      · exact h
  · rwa [hrefused]
  · obtain ⟨hstart, hframe⟩ := hopens.upholds hkept hown h
    rw [hrun]
    exact settle_db (Q := fun s => P (s.core x)) h (run_upholds hsub hframe mode input hstart)

theorem handler_upholds (hkept : AccountCore.Kept P) (x : Address) (left : ℕ) :
    Handler.Upholds (E.handler left) P x := by
  induction left with
  | zero => exact handle_upholds hkept (fun _ _ _ _ h => h) _
  | succ left ih => exact handle_upholds hkept ih _

end Evm

end MatrixNode
