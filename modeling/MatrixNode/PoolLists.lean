import MatrixNode.GoMap
import MatrixNode.StepRun
import MatrixNode.TxList

/-! `core/tx_pool.go`: the lists of pending and of queued transactions, how transactions get into
them, and how a new head of the chain sorts them anew. -/
namespace MatrixNode
open GoLib

structure TxPoolConfig where
  priceBump : ℕ
  accountSlots : ℕ
  globalSlots : ℕ
  accountQueue : ℕ
  globalQueue : ℕ

/-- The pool with its lists. `all` has the transactions that the pool knows. -/
structure PoolLists extends TxPool where
  config : TxPoolConfig
  locals : Finset Address
  pending : GoMap Address TxList
  queue : GoMap Address TxList
  all : Finset Transaction

def newTxPool (pool : TxPool) (config : TxPoolConfig) : PoolLists :=
  { pool with config := config, locals := ∅, pending := ∅, queue := ∅, all := ∅ }

/-- The orders in which loops of one call visit accounts: that of a `range` over a map, that of the
priority queue of large senders, and that of the last signs of life. -/
structure LoopOrders where
  accounts : List Address
  spammers : List Address
  heartbeats : List Address

/-- A transaction that arrives, and what the heap of prices says in case the pool is full: whether
the price is too low, and the transactions to be discarded. -/
structure Arrival where
  tx : Transaction
  isLocal : Bool
  underpriced : Bool
  discards : List Transaction

/-- `types.Sender` where its error is dropped. -/
def TxPool.account {Hash : Type} (C : TxCrypto Hash) (pool : TxPool) (tx : Transaction) : Address :=
  (C.sender pool.signer tx).toOption.getD 0

def checkRange (keys : Finset Address) (order : List Address) : Except GoError Unit :=
  if order.Nodup ∧ order.toFinset = keys then .ok () else .error (.error "no range order")

def storeList (m : GoMap Address TxList) (addr : Address) (l : TxList) : GoMap Address TxList :=
  if l.empty then m.erase addr else m.insert addr l

namespace PoolLists
variable {Hash : Type} (C : TxCrypto Hash) (p : PoolLists)

def sender (tx : Transaction) : Address := p.toTxPool.account C tx

def forget (txs : List Transaction) : PoolLists := { p with all := txs.foldl Finset.erase p.all }

def learn (old : Option Transaction) (tx : Transaction) : PoolLists :=
  { p with all := insert tx ((old.map p.all.erase).getD p.all) }

/-- `enqueueTx`: the pool, and whether a transaction was replaced if there was no error. -/
def enqueueTx (tx : Transaction) : PoolLists × Option Bool :=
  let account := p.sender C tx
  match ((p.queue.lookup account).getD (newTxList false)).add tx p.config.priceBump with
  | (l, none) => ({ p with queue := p.queue.insert account l }, none)
  | (l, some old) =>
    (({ p with queue := p.queue.insert account l }).learn old tx, some old.isSome)

def promoteTx (addr : Address) (tx : Transaction) : PoolLists :=
  match ((p.pending.lookup addr).getD (newTxList true)).add tx p.config.priceBump with
  | (l, none) => ({ p with pending := p.pending.insert addr l }).forget [tx]
  | (l, some old) => ({ p with pending := p.pending.insert addr l }).learn old tx

def enqueueAll (txs : List Transaction) : PoolLists :=
  txs.foldl (fun p tx => (p.enqueueTx C tx).1) p

def removeQueued (addr : Address) (tx : Transaction) : PoolLists :=
  match p.queue.lookup addr with
  | none => p
  | some future =>
    match future.remove tx with
    | none => { p with queue := storeList p.queue addr future }
    | some (l, _) => { p with queue := storeList p.queue addr l }

/-- `removeTx`. A pending list is searched for the nonce of the transaction only. -/
def removeTx (tx : Transaction) : PoolLists :=
  if tx ∉ p.all then p
  else
    let addr := p.sender C tx
    let p := p.forget [tx]
    match (p.pending.lookup addr).bind (fun l => l.remove tx) with
    | some (l, invalids) =>
      ({ p with pending := storeList p.pending addr l }).enqueueAll C invalids
    | none => p.removeQueued addr tx

def removeAll (txs : List Transaction) : PoolLists := txs.foldl (fun p tx => p.removeTx C tx) p

def demoteAccount (addr : Address) : PoolLists :=
  match p.pending.lookup addr with
  | none => p
  | some l =>
    let (l, old) := l.forward (p.currentState.getNonce addr)
    let (l, drops, invalids) := l.filter (p.currentState.getBalance addr) p.currentMaxGas
    (({ p with pending := storeList p.pending addr l }).forget (old ++ drops)).enqueueAll C invalids

def demoteUnexecutables (order : List Address) : Except GoError PoolLists := do
  checkRange p.pending.keys order
  pure (order.foldl (fun p addr => p.demoteAccount C addr) p)

def promoteAccount (addr : Address) : PoolLists :=
  match p.queue.lookup addr with
  | none => p
  | some l =>
    let (l, old) := l.forward (p.currentState.getNonce addr)
    let (l, drops, _) := l.filter (p.currentState.getBalance addr) p.currentMaxGas
    let (l, ready) := l.ready
    let p := ready.foldl (fun p tx => p.promoteTx addr tx) (p.forget (old ++ drops))
    let (l, excess) := if addr ∈ p.locals then (l, []) else l.cap p.config.accountQueue
    ({ p with queue := storeList p.queue addr l }).forget excess

def pendingLen (addr : Address) : ℕ := ((p.pending.lookup addr).map TxList.len).getD 0

def count (m : GoMap Address TxList) : ℕ := ∑ addr ∈ m.keys, ((m.lookup addr).map TxList.len).getD 0

def capPending (addr : Address) : PoolLists :=
  match p.pending.lookup addr with
  | none => p
  | some l =>
    let (l, drops) := l.cap (l.len-1)
    ({ p with pending := p.pending.insert addr l }).forget drops

def capEach (offenders : List Address) : PoolLists :=
  offenders.foldl (fun p addr => p.capPending addr) p

/-- The loop that takes one transaction from each offender while there are more than `pending` may
be and `addr` has more than `threshold`. Each round takes one at least. -/
def capWhile (offenders : List Address) (addr : Address) (threshold : ℕ) :
    ℕ → ℕ → PoolLists → PoolLists × ℕ
  | 0, pending, p => (p, pending)
  | fuel+1, pending, p =>
    if p.config.globalSlots < pending ∧ threshold < p.pendingLen addr then
      capWhile offenders addr threshold fuel (pending-offenders.length) (p.capEach offenders)
    else (p, pending)

/-- The loop over the large senders: those seen so far are brought down to the next one. -/
def equalize : List Address → List Address → ℕ → PoolLists → PoolLists × ℕ × List Address
  | offenders, [], pending, p => (p, pending, offenders)
  | offenders, offender :: rest, pending, p =>
    if p.config.globalSlots < pending then
      let (p, pending) := match offenders.getLast? with
        | none => (p, pending)
        | some last => capWhile offenders last (p.pendingLen offender) pending pending p
      equalize (offenders ++ [offender]) rest pending p
    else (p, pending, offenders)

/-- If there are too many pending transactions, large senders lose some. -/
def limitPending (spammers : List Address) : PoolLists :=
  let pending := count p.pending
  if p.config.globalSlots < pending then
    let (p, pending, offenders) := equalize [] (spammers.filter (fun addr =>
      addr ∉ p.locals && p.config.accountSlots < p.pendingLen addr)) pending p
    match offenders.getLast? with
    | none => p
    | some last => (capWhile offenders last p.config.accountSlots pending pending p).1
  else p

/-- The loop that drops queued transactions, from the account that was active last on. -/
def dropQueued : List Address → ℕ → PoolLists → PoolLists
  | [], _, p => p
  | addr :: rest, drop, p =>
    if drop = 0 then p
    else
      let txs := ((p.queue.lookup addr).map TxList.txs).getD []
      if txs.length ≤ drop then dropQueued rest (drop-txs.length) (p.removeAll C txs)
      else p.removeAll C (txs.reverse.take drop)

/-- If there are too many queued transactions, they are dropped. -/
def limitQueue (heartbeats : List Address) : PoolLists :=
  if p.config.globalQueue < count p.queue then
    dropQueued C (heartbeats.filter (fun addr => addr ∉ p.locals ∧ addr ∈ p.queue.keys)).reverse
      (count p.queue-p.config.globalQueue) p
  else p

/-- `promoteExecutables`; without a list of accounts it goes over the whole queue. -/
def promoteExecutables (accounts : Option (Finset Address)) (orders : LoopOrders) :
    Except GoError PoolLists := do
  checkRange (accounts.getD p.queue.keys) orders.accounts
  let p := orders.accounts.foldl (fun p addr => p.promoteAccount addr) p
  pure ((p.limitPending orders.spammers).limitQueue C orders.heartbeats)

/-- The part of `add` that makes room in a full pool, unless the price is too low. -/
def makeRoom (arrival : Arrival) : Option PoolLists :=
  if p.config.globalSlots+p.config.globalQueue ≤ p.all.card then
    if !arrival.isLocal && arrival.underpriced then none else some (p.removeAll C arrival.discards)
  else some p

/-- The transaction is queued. The account is returned if its queue is to be looked at. -/
def queueTx (arrival : Arrival) : PoolLists × Option Address :=
  match p.enqueueTx C arrival.tx with
  | (q, none) => (q, none)
  | (q, some replaced) =>
    ({ q with
      locals := if arrival.isLocal then insert (p.sender C arrival.tx) q.locals else q.locals },
      if replaced then none else some (p.sender C arrival.tx))

/-- The end of `add`: the transaction replaces a pending one, or is queued. -/
def insertTx (arrival : Arrival) : PoolLists × Option Address :=
  let account := p.sender C arrival.tx
  match p.pending.lookup account with
  | none => p.queueTx C arrival
  | some l =>
    if l.overlaps arrival.tx then
      match l.add arrival.tx p.config.priceBump with
      | (_, none) => (p, none)
      | (l, some old) =>
        (({ p with pending := p.pending.insert account l }).learn old arrival.tx,
          if old.isSome then none else some account)
    else p.queueTx C arrival

/-- `add`. Broadcast transactions go to a map of their own. -/
def add (arrival : Arrival) : PoolLists × Option Address :=
  if (arrival.tx.extra.head?.getD ⟨0, 0, []⟩).txType = 1 then (p, none)
  else if arrival.tx ∈ p.all then (p, none)
  else
    match p.validateTx C arrival.tx with
    | .error _ => (p, none)
    | .ok () =>
      match p.makeRoom C arrival with
      | none => (p, none)
      | some p => p.insertTx C arrival

def addEach (arrivals : List Arrival) : PoolLists × Finset Address :=
  arrivals.foldl (fun s arrival =>
    let (p, account) := s.1.add C arrival
    (p, (account.map (insert · s.2)).getD s.2)) (p, ∅)

def setHead (state : StateDB) (maxGas : UInt64) : PoolLists :=
  { p with currentState := state, currentMaxGas := maxGas }

end PoolLists

structure PoolRun where
  pool : PoolLists
  sorted : List PoolLists

/-- The inputs of the pool: transactions, a new head with those of blocks off the chain, and those
to be taken out. -/
inductive PoolInput where
  | addTxs (arrivals : List Arrival) (orders : LoopOrders)
  | reset (state : StateDB) (maxGas : UInt64) (reinject : List Arrival)
      (added demoted promoted : LoopOrders)
  | removeTxs (txs : List Transaction)

namespace PoolRun
variable {Hash : Type} (C : TxCrypto Hash) (r : PoolRun)

def record (pool : PoolLists) : PoolRun := ⟨pool, r.sorted ++ [pool]⟩

def addTxsLocked (arrivals : List Arrival) (orders : LoopOrders) : Except GoError PoolRun :=
  let (p, dirty) := r.pool.addEach C arrivals
  if dirty = ∅ then pure { r with pool := p }
  else do
    let p ← p.promoteExecutables C (some dirty) orders
    pure (r.record p)

def reset (state : StateDB) (maxGas : UInt64) (reinject : List Arrival)
    (added demoted promoted : LoopOrders) : Except GoError PoolRun := do
  let r ← ({ r with pool := r.pool.setHead state maxGas }).addTxsLocked C reinject added
  let p ← r.pool.demoteUnexecutables C demoted.accounts
  let r := r.record p
  let p ← r.pool.promoteExecutables C none promoted
  pure (r.record p)

def step : PoolInput → Except GoError PoolRun
  | .addTxs arrivals orders => r.addTxsLocked C arrivals orders
  | .reset state maxGas reinject added demoted promoted =>
    r.reset C state maxGas reinject added demoted promoted
  | .removeTxs txs => pure { r with pool := r.pool.removeAll C txs }

end PoolRun

end MatrixNode
