import Mathlib.Data.BitVec
import Mathlib.Data.Fintype.BigOperators
import MatrixNode.CommonTypes
import MatrixNode.Ledger

/-! `core/state/statedb.go`: the accounts of a world state as the virtual machine reads and
writes them. A snapshot is the whole value, and reverting is going back to it. -/
namespace MatrixNode
open GoLib Function

abbrev Word := BitVec 256

instance : Fintype Address := Fintype.ofEquiv _ BitVec.equivFin.toEquiv.symm

structure Account where
  nonce : UInt64
  balance : ℕ
  code : Bytes
  storage : Word → Word
  suicided : Bool

def newObject : Account := ⟨nonceAddOne, 0, [], fun _ => 0, false⟩

structure StateDB where
  accounts : Address → Option Account
  refund : UInt64

namespace StateDB
variable (s : StateDB)

/-- `GetOrNewStateObject`. The getters return for a missing account what they would return
for a new one. -/
def object (addr : Address) : Account := (s.accounts addr).getD newObject

def exist (addr : Address) : Bool := (s.accounts addr).isSome

def getBalance (addr : Address) : ℕ := (s.object addr).balance

def getNonce (addr : Address) : UInt64 := (s.object addr).nonce

def getCode (addr : Address) : Bytes := (s.object addr).code

def getState (addr : Address) (key : Word) : Word := (s.object addr).storage key

def setStateObject (addr : Address) (object : Account) : StateDB :=
  { s with accounts := update s.accounts addr (some object) }

def modify (addr : Address) (f : Account → Account) : StateDB :=
  s.setStateObject addr (f (s.object addr))

def addBalance (addr : Address) (amount : ℕ) : StateDB :=
  s.modify addr (fun o => { o with balance := o.balance+amount })

/-- The callers have checked that the balance is sufficient. -/
def subBalance (addr : Address) (amount : ℕ) : StateDB :=
  s.modify addr (fun o => { o with balance := o.balance-amount })

def setNonce (addr : Address) (nonce : UInt64) : StateDB :=
  s.modify addr (fun o => { o with nonce := nonce ||| nonceAddOne })

def setCode (addr : Address) (code : Bytes) : StateDB :=
  s.modify addr (fun o => { o with code := code })

def setState (addr : Address) (key value : Word) : StateDB :=
  s.modify addr (fun o => { o with storage := update o.storage key value })

/-- An account that is made again keeps its balance only. -/
def createAccount (addr : Address) : StateDB :=
  s.modify addr (fun o => { newObject with balance := o.balance })

def suicide (addr : Address) : StateDB :=
  if s.exist addr then s.modify addr (fun o => { o with balance := 0, suicided := true }) else s

def addRefund (gas : UInt64) : StateDB := { s with refund := s.refund+gas }

def canTransfer (addr : Address) (amount : ℕ) : Bool := amount ≤ s.getBalance addr

def transfer (sender recipient : Address) (amount : ℕ) : StateDB :=
  (s.subBalance sender amount).addBalance recipient amount

def totalSupply : ℕ := ∑ addr, s.getBalance addr

section Object
variable (s : StateDB) (addr a : Address)

theorem object_modify (f : Account → Account) :
    (s.modify addr f).object a = if a = addr then f (s.object a) else s.object a := by
  unfold modify setStateObject object
  by_cases h : a = addr
  · subst h
    simp
  · simp [h]

theorem object_modify_field {β : Type} {f : Account → Account} {g : Account → β}
    (h : ∀ o, g (f o) = g o) : g ((s.modify addr f).object a) = g (s.object a) := by
  rw [object_modify]
  split_ifs
  · exact h _
  · rfl

variable (nonce : UInt64) (v : ℕ)

theorem getBalance_addBalance :
    (s.addBalance addr v).getBalance a = if a = addr then s.getBalance a+v else s.getBalance a := by
  unfold addBalance getBalance
  rw [object_modify]
  split_ifs <;> rfl

theorem getBalance_subBalance :
    (s.subBalance addr v).getBalance a = if a = addr then s.getBalance a-v else s.getBalance a := by
  unfold subBalance getBalance
  rw [object_modify]
  split_ifs <;> rfl

@[simp] theorem getBalance_setState (key value : Word) :
    (s.setState addr key value).getBalance a = s.getBalance a :=
  object_modify_field s addr a (fun _ => rfl)

@[simp] theorem getBalance_setNonce : (s.setNonce addr nonce).getBalance a = s.getBalance a :=
  object_modify_field s addr a (fun _ => rfl)

@[simp] theorem getBalance_createAccount : (s.createAccount addr).getBalance a = s.getBalance a :=
  object_modify_field s addr a (fun _ => rfl)

theorem object_createAccount (h : s.exist addr = false) :
    (s.createAccount addr).object a = s.object a := by
  unfold createAccount
  rw [object_modify]
  split_ifs with ha
  · have hn : s.object a = newObject := by
      rw [exist, ← ha, Option.isSome_eq_false_iff, Option.isNone_iff_eq_none] at h
      rw [object, h]
      rfl
    rw [hn]
  · rfl

@[simp] theorem getState_addBalance : (s.addBalance addr v).getState a = s.getState a :=
  object_modify_field s addr a (g := Account.storage) (fun _ => rfl)

@[simp] theorem getState_subBalance : (s.subBalance addr v).getState a = s.getState a :=
  object_modify_field s addr a (g := Account.storage) (fun _ => rfl)

@[simp] theorem getState_transfer (src dst : Address) (v : ℕ) :
    (s.transfer src dst v).getState a = s.getState a := by
  rw [transfer, getState_addBalance, getState_subBalance]

@[simp] theorem getCode_addBalance : (s.addBalance addr v).getCode a = s.getCode a :=
  object_modify_field s addr a (g := Account.code) (fun _ => rfl)

@[simp] theorem getCode_subBalance : (s.subBalance addr v).getCode a = s.getCode a :=
  object_modify_field s addr a (g := Account.code) (fun _ => rfl)

@[simp] theorem getCode_setNonce : (s.setNonce addr nonce).getCode a = s.getCode a :=
  object_modify_field s addr a (g := Account.code) (fun _ => rfl)

@[simp] theorem getCode_transfer (src dst : Address) (v : ℕ) :
    (s.transfer src dst v).getCode a = s.getCode a := by
  rw [transfer, getCode_addBalance, getCode_subBalance]

theorem getState_setState (key value k : Word) : (s.setState addr key value).getState a k =
    if a = addr ∧ k = key then value else s.getState a k := by
  unfold setState getState
  rw [object_modify]
  by_cases ha : a = addr
  · simp [ha, update_apply]
  · simp [ha]

@[simp] theorem getState_setState_self (key value : Word) :
    (s.setState addr key value).getState addr = update (s.getState addr) key value := by
  funext k
  simp [getState_setState, update_apply]

theorem getBalance_transfer (src dst : Address) (v : ℕ) :
    (s.transfer src dst v).getBalance = pay s.getBalance src dst v := by
  funext a
  unfold transfer pay
  rw [getBalance_addBalance]
  simp only [getBalance_subBalance, update_apply]
  split_ifs with hd hs <;> simp_all

theorem totalSupply_transfer {src : Address} (dst : Address) {v : ℕ} (h : v ≤ s.getBalance src) :
    (s.transfer src dst v).totalSupply = s.totalSupply := by
  unfold totalSupply
  rw [getBalance_transfer]
  exact sum_pay h

theorem totalSupply_addBalance : (s.addBalance a v).totalSupply = s.totalSupply+v := by
  unfold totalSupply
  simp only [getBalance_addBalance]
  have hsum := sum_replace_summand (Finset.mem_univ a) s.getBalance (s.getBalance a+v)
  have hupdate (x : Address) : update s.getBalance a (s.getBalance a+v) x =
      if x = a then s.getBalance x+v else s.getBalance x := by
    rw [update_apply]
    split_ifs with h
    · rw [h]
    · rfl
  simp only [hupdate] at hsum
  omega

theorem totalSupply_subBalance {v : ℕ} (hv : v ≤ s.getBalance a) :
    (s.subBalance a v).totalSupply+v = s.totalSupply := by
  have hback : (s.subBalance a v).addBalance a v = s.transfer a a v := rfl
  rw [← totalSupply_addBalance, hback, totalSupply_transfer s a hv]

end Object

end StateDB

end MatrixNode
