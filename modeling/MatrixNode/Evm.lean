import MatrixNode.MatrixDeposit

/-! `core/vm/evm.go` and `interpreter.go`: calls, contract creation and the read-only mode.
What bytecode computes is left open: a frame runs an arbitrary program that can do whatever
the instructions can do to the state and to the rest of the machine. -/
namespace MatrixNode
open GoLib

def callCreateDepth : ℕ := 1024

def callStipend : UInt64 := 2300

def callValueTransferGas : UInt64 := 9000

def createDataGas : UInt64 := 200

def maxCodeSize : ℕ := 24576

structure Rules where
  isHomestead : Bool
  isEIP150 : Bool
  isEIP158 : Bool
  isByzantium : Bool

/-- A precompiled contract that only computes. -/
structure StandardContract where
  requiredGas : Bytes → UInt64
  run : Bytes → Except String Bytes

structure CallReturn where
  ret : Bytes
  gas : UInt64
  err : Option VmError
  contractAddr : Address

/-- The run of one frame's bytecode. It ends, because instructions cost gas. What an instruction
costs besides the gas it hands to a call is a `useGas` before it. -/
inductive Program where
  | stop (ret : Bytes)
  | revert (ret : Bytes)
  | fail (msg : String)
  | useGas (cost : UInt64) (next : Program)
  | addRefund (gas : UInt64) (next : Program)
  | read (next : StateDB → UInt64 → Program)
  | sstore (loc val : Word) (next : Program)
  | log (next : Program)
  | create (code : Bytes) (value : ℕ) (next : CallReturn → Program)
  | call (addr : Address) (input : Bytes) (gas : UInt64) (value : ℕ) (next : CallReturn → Program)
  | callCode (addr : Address) (input : Bytes) (gas : UInt64) (value : ℕ)
      (next : CallReturn → Program)
  | delegateCall (addr : Address) (input : Bytes) (gas : UInt64) (next : CallReturn → Program)
  | staticCall (addr : Address) (input : Bytes) (gas : UInt64) (next : CallReturn → Program)
  | selfdestruct (beneficiary : Address)

/-- What is fixed while a transaction runs: the context of the block, the configuration, and the
parts of the machine that are not modelled further. -/
structure Evm where
  rules : Rules
  blockNumber : ℕ
  noRecursion : Bool
  createAddress : Address → UInt64 → Address
  standard : Address → StandardContract
  bytecode : Contract → Bytes → Program

inductive Precompiled where
  | standard
  | deposit
  deriving DecidableEq

def depositAddress : Address := 10

def precompiles (addr : Address) : Option Precompiled :=
  if addr ∈ [1, 2, 3, 4, 5, 6, 7, 8] then some .standard
  else if addr = depositAddress then some .deposit
  else none

/-- The state, and a record of the precompiled contracts that have been run with their input,
whether or not their effects were reverted later. -/
structure Machine where
  db : StateDB
  entered : List (Address × Bytes)

inductive Request where
  | call (caller addr : Address) (input : Bytes) (gas : UInt64) (value : ℕ)
  | callCode (caller addr : Address) (input : Bytes) (gas : UInt64) (value : ℕ)
  | delegateCall (parent : Contract) (addr : Address) (input : Bytes) (gas : UInt64)
  | staticCall (caller addr : Address) (input : Bytes) (gas : UInt64)
  | create (caller : Address) (code : Bytes) (gas : UInt64) (value : ℕ)

abbrev Handler := Bool → Request → Machine → Machine × CallReturn

namespace Evm
variable (E : Evm) (sub : Handler)

def writeProtected (readOnly : Bool) : Bool := E.rules.isByzantium && readOnly

/-- The gas a call with `g` gas takes from its caller, without the fixed parts of its price. -/
def callCost (g : UInt64) (value : ℕ) : ℕ :=
  g.toNat+if value ≠ 0 then callValueTransferGas.toNat else 0

def callGas (g : UInt64) (value : ℕ) : UInt64 :=
  if value ≠ 0 then g+callStipend else g

/-- The main loop of `Interpreter.Run`; `sub` serves the requests of the frame. -/
def exec (sub : Handler) (readOnly : Bool) (contract : Contract) :
    Program → UInt64 → Machine → Machine × CallReturn
  | .stop ret, gas, m => (m, ⟨ret, gas, none, 0⟩)
  | .revert ret, gas, m => (m, ⟨ret, gas, some .executionReverted, 0⟩)
  | .fail msg, gas, m => (m, ⟨[], gas, some (.other msg), 0⟩)
  | .useGas cost next, gas, m =>
    if gas < cost then (m, ⟨[], gas, some .outOfGas, 0⟩)
    else exec sub readOnly contract next (gas-cost) m
  | .addRefund g next, gas, m =>
    exec sub readOnly contract next gas { m with db := m.db.addRefund g }
  | .read next, gas, m => exec sub readOnly contract (next m.db gas) gas m
  | .sstore loc val next, gas, m =>
    if E.writeProtected readOnly then (m, ⟨[], gas, some .writeProtection, 0⟩)
    else exec sub readOnly contract next gas
      { m with db := m.db.setState contract.address loc val }
  | .log next, gas, m =>
    if E.writeProtected readOnly then (m, ⟨[], gas, some .writeProtection, 0⟩)
    else exec sub readOnly contract next gas m
  | .create code value next, gas, m =>
    if E.writeProtected readOnly then (m, ⟨[], gas, some .writeProtection, 0⟩)
    else
      let given := if E.rules.isEIP150 then gas-gas/64 else gas
      let (m, r) := sub readOnly (.create contract.address code given value) m
      exec sub readOnly contract (next r) (gas-given+r.gas) m
  | .call addr input g value next, gas, m =>
    -- A call writes only if it moves a value.
    if E.writeProtected readOnly && value ≠ 0 then (m, ⟨[], gas, some .writeProtection, 0⟩)
    else if gas.toNat < callCost g value then (m, ⟨[], gas, some .outOfGas, 0⟩)
    else
      let (m, r) := sub readOnly (.call contract.address addr input (callGas g value) value) m
      exec sub readOnly contract (next r) (gas-UInt64.ofNat (callCost g value)+r.gas) m
  -- `enforceRestrictions` lets a `CALLCODE` with a value pass: its value goes to the caller itself.
  | .callCode addr input g value next, gas, m =>
    if gas.toNat < callCost g value then (m, ⟨[], gas, some .outOfGas, 0⟩)
    else
      let (m, r) := sub readOnly (.callCode contract.address addr input (callGas g value) value) m
      exec sub readOnly contract (next r) (gas-UInt64.ofNat (callCost g value)+r.gas) m
  | .delegateCall addr input g next, gas, m =>
    if gas < g then (m, ⟨[], gas, some .outOfGas, 0⟩)
    else
      let (m, r) := sub readOnly (.delegateCall { contract with gas := gas-g } addr input g) m
      exec sub readOnly contract (next r) (gas-g+r.gas) m
  | .staticCall addr input g next, gas, m =>
    if gas < g then (m, ⟨[], gas, some .outOfGas, 0⟩)
    else
      let (m, r) := sub readOnly (.staticCall contract.address addr input g) m
      exec sub readOnly contract (next r) (gas-g+r.gas) m
  | .selfdestruct beneficiary, gas, m =>
    if E.writeProtected readOnly then (m, ⟨[], gas, some .writeProtection, 0⟩)
    else
      let balance := m.db.getBalance contract.address
      let db := (m.db.addBalance beneficiary balance).suicide contract.address
      ({ m with db := db }, ⟨[], gas, none, 0⟩)

/-- `RunPrecompiledContract`. The read-only mode is not looked at. -/
def runPrecompiledContract (p : Precompiled) (input : Bytes) (contract : Contract) (m : Machine) :
    Machine × CallReturn :=
  let required := match p with
    | .standard => (E.standard contract.codeAddr).requiredGas input
    | .deposit => MatrixDeposit.requiredGas input
  if contract.gas < required then (m, ⟨[], contract.gas, some .outOfGas, 0⟩)
  else
    let (db, result) := match p with
      | .standard => (m.db, ((E.standard contract.codeAddr).run input).mapError VmError.other)
      | .deposit => MatrixDeposit.run contract m.db E.blockNumber input
    let m := { db := db, entered := m.entered ++ [(contract.codeAddr, input)] }
    match result with
    | .ok ret => (m, ⟨ret, contract.gas-required, none, 0⟩)
    | .error err => (m, ⟨[], contract.gas-required, some err, 0⟩)

def run (readOnly : Bool) (contract : Contract) (input : Bytes) (m : Machine) :
    Machine × CallReturn :=
  match precompiles contract.codeAddr with
  | some p => E.runPrecompiledContract p input contract m
  | none =>
    if contract.code = [] then (m, ⟨[], contract.gas, none, 0⟩)
    else E.exec sub readOnly contract (E.bytecode contract input) contract.gas m

/-- After an error the state is that of the snapshot; only a revert leaves gas. -/
def settle (snapshot : StateDB) (result : Machine × CallReturn) : Machine × CallReturn :=
  match result with
  | (m, r) =>
    match r.err with
    | none => (m, r)
    | some err =>
      ({ m with db := snapshot }, { r with gas := if err ≠ .executionReverted then 0 else r.gas })

/-- Recursion is switched off for everything but the outermost call. -/
def skips (depth : ℕ) : Bool := E.noRecursion && 0 < depth

def enterCall (db : StateDB) (caller addr : Address) (value : ℕ) : StateDB :=
  (if db.exist addr then db else db.createAccount addr).transfer caller addr value

def call (depth : ℕ) (readOnly : Bool) (caller addr : Address) (input : Bytes) (gas : UInt64)
    (value : ℕ) (m : Machine) : Machine × CallReturn :=
  if E.skips depth then (m, ⟨[], gas, none, 0⟩)
  else if callCreateDepth < depth then (m, ⟨[], gas, some .depth, 0⟩)
  else if m.db.canTransfer caller value = false then (m, ⟨[], gas, some .insufficientBalance, 0⟩)
  else if m.db.exist addr = false ∧ precompiles addr = none ∧ E.rules.isEIP158 = true ∧ value = 0 then
    (m, ⟨[], gas, none, 0⟩)
  else
    let db := enterCall m.db caller addr value
    let contract : Contract := ⟨caller, addr, addr, db.getCode addr, gas, value⟩
    settle m.db (E.run sub readOnly contract input { m with db := db })

def callCode (depth : ℕ) (readOnly : Bool) (caller addr : Address) (input : Bytes) (gas : UInt64)
    (value : ℕ) (m : Machine) : Machine × CallReturn :=
  if E.skips depth then (m, ⟨[], gas, none, 0⟩)
  else if callCreateDepth < depth then (m, ⟨[], gas, some .depth, 0⟩)
  else if m.db.canTransfer caller value = false then (m, ⟨[], gas, some .insufficientBalance, 0⟩)
  else
    let contract : Contract := ⟨caller, caller, addr, m.db.getCode addr, gas, value⟩
    settle m.db (E.run sub readOnly contract input m)

/-- The caller and the value are those of the frame that delegates. -/
def delegateCall (depth : ℕ) (readOnly : Bool) (parent : Contract) (addr : Address) (input : Bytes)
    (gas : UInt64) (m : Machine) : Machine × CallReturn :=
  if E.skips depth then (m, ⟨[], gas, none, 0⟩)
  else if callCreateDepth < depth then (m, ⟨[], gas, some .depth, 0⟩)
  else
    let contract : Contract :=
      ⟨parent.callerAddress, parent.address, addr, m.db.getCode addr, gas, parent.value⟩
    settle m.db (E.run sub readOnly contract input m)

/-- The frames below are read-only, whatever the mode was before. -/
def staticCall (depth : ℕ) (caller addr : Address) (input : Bytes) (gas : UInt64) (m : Machine) :
    Machine × CallReturn :=
  if E.skips depth then (m, ⟨[], gas, none, 0⟩)
  else if callCreateDepth < depth then (m, ⟨[], gas, some .depth, 0⟩)
  else
    let contract : Contract := ⟨caller, addr, addr, m.db.getCode addr, gas, 0⟩
    settle m.db (E.run sub true contract input m)

/-- The end of `Create`: the code is paid for and stored, or the state goes back to the snapshot.
Before Homestead code that cannot be paid for is left out, and the rest stays. -/
def settleCreate (snapshot : StateDB) (contractAddr : Address) (result : Machine × CallReturn) :
    Machine × CallReturn :=
  match result with
  | (m, r) =>
    let maxCodeSizeExceeded : Bool := E.rules.isEIP158 && maxCodeSize < r.ret.length
    let dataGas := UInt64.ofNat r.ret.length*createDataGas
    let stored := r.err = none ∧ maxCodeSizeExceeded = false ∧ dataGas ≤ r.gas
    let err := if r.err = none ∧ maxCodeSizeExceeded = false ∧ r.gas < dataGas then
      some VmError.codeStoreOutOfGas else r.err
    let gas := if stored then r.gas-dataGas else r.gas
    let db := if stored then m.db.setCode contractAddr r.ret else m.db
    let reverts := maxCodeSizeExceeded = true ∨
      (err ≠ none ∧ (E.rules.isHomestead = true ∨ err ≠ some .codeStoreOutOfGas))
    let db := if reverts then snapshot else db
    let gas := if reverts ∧ err ≠ some .executionReverted then 0 else gas
    let err := if maxCodeSizeExceeded = true ∧ err = none then some .maxCodeSizeExceeded else err
    ({ m with db := db }, ⟨r.ret, gas, err, contractAddr⟩)

def create (depth : ℕ) (readOnly : Bool) (caller : Address) (code : Bytes) (gas : UInt64)
    (value : ℕ) (m : Machine) : Machine × CallReturn :=
  if callCreateDepth < depth then (m, ⟨[], gas, some .depth, 0⟩)
  else if m.db.canTransfer caller value = false then (m, ⟨[], gas, some .insufficientBalance, 0⟩)
  else
    let nonce := m.db.getNonce caller
    let snapshot := m.db.setNonce caller (nonce+1)
    let contractAddr := E.createAddress caller nonce
    if snapshot.getNonce contractAddr ≠ nonceAddOne ∨ snapshot.getCode contractAddr ≠ [] then
      ({ m with db := snapshot }, ⟨[], 0, some .contractAddressCollision, 0⟩)
    else
      let db := snapshot.createAccount contractAddr
      let db := if E.rules.isEIP158 then db.setNonce contractAddr 1 else db
      let db := db.transfer caller contractAddr value
      let contract : Contract := ⟨caller, contractAddr, contractAddr, code, gas, value⟩
      if E.skips depth then ({ m with db := db }, ⟨[], gas, none, contractAddr⟩)
      else E.settleCreate snapshot contractAddr
        (E.run sub readOnly contract [] { m with db := db })

/-- Serving a request at a call depth, given how the frames below it are served. -/
def handle (depth : ℕ) : Handler := fun readOnly request m =>
  match request with
  | .call caller addr input gas value => E.call sub depth readOnly caller addr input gas value m
  | .callCode caller addr input gas value =>
    E.callCode sub depth readOnly caller addr input gas value m
  | .delegateCall parent addr input gas => E.delegateCall sub depth readOnly parent addr input gas m
  | .staticCall caller addr input gas => E.staticCall sub depth caller addr input gas m
  | .create caller code gas value => E.create sub depth readOnly caller code gas value m

/-- The machine with `left` more levels: no request that can be served lies beyond the limit, so
what would serve it there does not matter. -/
def handler : ℕ → Handler
  | 0 => E.handle (fun _ _ m => (m, ⟨[], 0, some .depth, 0⟩)) (callCreateDepth+1)
  | left+1 => E.handle (handler left) (callCreateDepth-left)

def outermost : Handler := E.handler (callCreateDepth+1)

end Evm

def sampleEvm (number : ℕ) : Evm where
  rules := ⟨true, true, true, true⟩
  blockNumber := number
  noRecursion := false
  createAddress := fun caller _ => caller
  standard := fun _ => ⟨fun _ => 0, fun _ => .ok []⟩
  bytecode := fun _ _ => .stop []

end MatrixNode
