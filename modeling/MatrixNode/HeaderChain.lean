import MatrixNode.TopologyStore

/-! Writing headers and blocks: `core/headerchain.go` and `core/blockchain.go`. Of a block only the
header matters here. Both ways into the chain end with a call of `WriteTopologyGraph`, whose error
is logged and dropped. -/
namespace MatrixNode
open GoLib

def errUnknownAncestor : GoError := .error "unknown ancestor"

structure BlockChain (Hash : Type) extends ChainDb Hash where
  bodies : Finset (ℕ × Hash)
  currentBlock : Header Hash

namespace ChainDb
variable {Hash : Type} [DecidableEq Hash] (hash : Header Hash → Hash) (db : ChainDb Hash)

def getTd (h : Hash) (number : ℕ) : Option ℕ := db.tds.lookup (number,h)

/-- The difficulty of the chain below a header. Nothing is filed under the number before 0. -/
def parentTd (header : Header Hash) : Option ℕ :=
  if header.number = 0 then none else db.getTd header.parentHash (header.number-1)

def saveTopology (header : Header Hash) : Except GoError (ChainDb Hash) :=
  match db.writeTopologyGraph hash header with
  | .ok db' => .ok db'
  | .error (.error _) => .ok db
  | .error (.panic msg) => .error (.panic msg)

def storeHeader (header : Header Hash) (td : ℕ) : ChainDb Hash :=
  { db with
    tds := db.tds.insert (header.number,hash header) td
    headers := db.headers.insert (header.number,hash header) header }

/-- The canonical entries from `i` on, up to the first number without one, are deleted. The loop has
at most as many turns as there are entries. -/
def deleteFrom : ℕ → GoMap ℕ Hash → ℕ → GoMap ℕ Hash
  | 0, canonicalHash, _ => canonicalHash
  | turns+1, canonicalHash, i =>
    if i ∈ canonicalHash then deleteFrom turns (canonicalHash.erase i) (i+1) else canonicalHash

/-- The entries of another branch are overwritten, from the parent of the new head down to the
first ancestor that is canonical already. -/
def overwriteStale (canonicalHash : GoMap ℕ Hash) (headHash : Hash) :
    ℕ → Except GoError (GoMap ℕ Hash)
  | 0 =>
    -- Only the genesis header has number 0, and it is always canonical.
    if canonicalHash.lookup 0 = some headHash then pure canonicalHash
    else throw nilDereference
  | headNumber+1 =>
    if canonicalHash.lookup (headNumber+1) = some headHash then pure canonicalHash
    else
      match db.getHeader headHash (headNumber+1) with
      | none => throw nilDereference
      | some headHeader =>
        overwriteStale (canonicalHash.insert (headNumber+1) headHash) headHeader.parentHash headNumber

def outweighs (localTd externTd : ℕ) (coin : Bool) : Bool :=
  localTd < externTd || (externTd = localTd && coin)

/-- The canonical chain is led to a new head. -/
def reroute (header : Header Hash) : Except GoError (ChainDb Hash) := do
  let canonicalHash := deleteFrom db.canonicalHash.len db.canonicalHash (header.number+1)
  let canonicalHash ← db.overwriteStale canonicalHash header.parentHash (header.number-1)
  pure { db with
    canonicalHash := canonicalHash.insert header.number (hash header)
    currentHeader := header }

def writeHeader (header : Header Hash) (coin : Bool) : Except GoError (ChainDb Hash) :=
  match db.parentTd header with
  | none => throw errUnknownAncestor
  | some ptd =>
    match db.getTd (hash db.currentHeader) db.currentHeader.number with
    | none => throw nilDereference
    | some localTd =>
      let externTd := header.difficulty+ptd
      let stored := db.storeHeader hash header externTd
      if outweighs localTd externTd coin then do
        let rerouted ← stored.reroute hash header
        rerouted.saveTopology hash header
      else stored.saveTopology hash header

/-- `BlockChain.insert`: the entry of the block's number is written, and the head header follows
if it was another one. -/
def insertBlock (block : Header Hash) : Except GoError (ChainDb Hash) :=
  let updateHeads := db.canonicalHash.lookup block.number ≠ some (hash block)
  { db with
    canonicalHash := db.canonicalHash.insert block.number (hash block)
    currentHeader := if updateHeads then block else db.currentHeader }.saveTopology hash block

def insertBlocks (blocks : List (Header Hash)) : Except GoError (ChainDb Hash) :=
  blocks.foldlM (fun db block => db.insertBlock hash block) db

end ChainDb

namespace BlockChain
variable {Hash : Type} [DecidableEq Hash] (hash : Header Hash → Hash) (bc : BlockChain Hash)

def getBlock (h : Hash) (number : ℕ) : Option (Header Hash) :=
  if (number,h) ∈ bc.bodies then bc.getHeader h number else none

def parentBlock (block : Header Hash) : Option (Header Hash) :=
  if block.number = 0 then none else bc.getBlock block.parentHash (block.number-1)

def descend : ℕ → Header Hash → Option (List (Header Hash) × Header Hash)
  | 0, block => some ([], block)
  | n+1, block =>
    (bc.parentBlock block).bind (fun parent =>
      (descend n parent).map (fun found => (block :: found.1, found.2)))

/-- The new branch of two blocks of one number, from the new block down to the common ancestor. -/
def newBranch : ℕ → Header Hash → Header Hash → Except GoError (List (Header Hash))
  | 0, oldBlock, newBlock =>
    if hash oldBlock = hash newBlock then pure [] else throw (.error "Invalid old chain")
  | n+1, oldBlock, newBlock =>
    if hash oldBlock = hash newBlock then pure []
    else
      match bc.parentBlock oldBlock, bc.parentBlock newBlock with
      | none, _ => throw (.error "Invalid old chain")
      | some _, none => throw (.error "Invalid new chain")
      | some oldParent, some newParent => do
        let branch ← newBranch n oldParent newParent
        pure (newBlock :: branch)

/-- The blocks that `reorg` makes canonical, the new block first. The higher of the two chains is
cut to the length of the other one before they are compared. -/
def reorgChain (oldBlock newBlock : Header Hash) : Except GoError (List (Header Hash)) :=
  match bc.descend (oldBlock.number-newBlock.number) oldBlock with
  | none => throw (.error "Invalid old chain")
  | some (_, oldBlock) =>
    match bc.descend (newBlock.number-oldBlock.number) newBlock with
    | none => throw (.error "Invalid new chain")
    | some (newChain, newBlock) => do
      let branch ← bc.newBranch hash oldBlock.number oldBlock newBlock
      pure (newChain ++ branch)

/-- A block with the higher total difficulty becomes the head; of two with the same the lower one
does, and of two with the same number a coin decides. -/
def reorgs (localTd externTd : ℕ) (block : Header Hash) (coin : Bool) : Bool :=
  localTd < externTd || (externTd = localTd &&
    (block.number < bc.currentBlock.number || (block.number = bc.currentBlock.number && coin)))

def writeBlock (block : Header Hash) : BlockChain Hash :=
  { bc with
    headers := bc.headers.insert (block.number,hash block) block
    bodies := insert (block.number,hash block) bc.bodies }

def writeTd (block : Header Hash) (td : ℕ) : BlockChain Hash :=
  { bc with tds := bc.tds.insert (block.number,hash block) td }

def headBranch (block : Header Hash) : Except GoError (List (Header Hash)) :=
  if block.parentHash = hash bc.currentBlock then pure []
  else bc.reorgChain hash bc.currentBlock block

def setHead (block : Header Hash) : Except GoError (BlockChain Hash) := do
  let branch ← bc.headBranch hash block
  let db ← bc.toChainDb.insertBlocks hash branch.reverse
  let bc := ({ bc with toChainDb := db } : BlockChain Hash).writeBlock hash block
  let db ← bc.toChainDb.insertBlock hash block
  pure { bc with toChainDb := db, currentBlock := block }

/-- `BlockChain.WriteBlockWithState`, after the state of the block was committed. An error of
`reorg` leaves the total difficulty behind. -/
def writeBlockWithState (block : Header Hash) (coin : Bool) : Except GoError (BlockChain Hash) :=
  match bc.parentTd block with
  | none => throw errUnknownAncestor
  | some ptd =>
    if hash bc.currentBlock = hash block then throw (.error "the same block")
    else
      match bc.getTd (hash bc.currentBlock) bc.currentBlock.number with
      | none => throw nilDereference
      | some localTd =>
        let externTd := block.difficulty+ptd
        let stored := bc.writeTd hash block externTd
        if bc.reorgs localTd externTd block coin then
          match stored.setHead hash block with
          | .ok bc' => .ok bc'
          | .error (.error _) => .ok stored
          | .error (.panic msg) => .error (.panic msg)
        else .ok (stored.writeBlock hash block)

def writeBlockWithoutState (block : Header Hash) (td : ℕ) : BlockChain Hash :=
  (bc.writeTd hash block td).writeBlock hash block

inductive Call (Hash : Type) where
  | writeHeader (header : Header Hash) (coin : Bool)
  | writeBlockWithState (block : Header Hash) (coin : Bool)
  | writeBlockWithoutState (block : Header Hash) (td : ℕ)

def Call.header : Call Hash → Header Hash
  | .writeHeader header _ => header
  | .writeBlockWithState block _ => block
  | .writeBlockWithoutState block _ => block

/-- A call that returns an error leaves the chain as it is, up to the total difficulty that
`WriteBlockWithState` has written; a panic ends the run. -/
def handle (call : Call Hash) : Except GoError (BlockChain Hash) :=
  let result : Except GoError (BlockChain Hash) :=
    match call with
    | .writeHeader header coin => do
      let db ← bc.toChainDb.writeHeader hash header coin
      pure { bc with toChainDb := db }
    | .writeBlockWithState block coin => bc.writeBlockWithState hash block coin
    | .writeBlockWithoutState block td => .ok (bc.writeBlockWithoutState hash block td)
  match result with
  | .ok bc' => .ok bc'
  | .error (.error _) => .ok bc
  | .error (.panic msg) => .error (.panic msg)

def newBlockChain (genesis : Header Hash) : Except GoError (BlockChain Hash) := do
  let db : ChainDb Hash := {
    canonicalHash := (∅ : GoMap ℕ Hash).insert 0 (hash genesis)
    headers := (∅ : GoMap (ℕ × Hash) (Header Hash)).insert (0,hash genesis) genesis
    tds := (∅ : GoMap (ℕ × Hash) ℕ).insert (0,hash genesis) genesis.difficulty
    graphs := ∅
    currentHeader := genesis }
  let db ← db.saveTopology hash genesis
  pure { toChainDb := db, bodies := {(0,hash genesis)}, currentBlock := genesis }

end BlockChain

end MatrixNode
