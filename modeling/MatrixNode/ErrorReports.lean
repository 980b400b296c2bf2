import MatrixNode.PoolMessages

/-! `core/tx_pool.go`: flooded transactions that the pool refused, and what other nodes report about
them. `mapErrorTxs` is keyed by pointers; the place of a number in memory is its pointer. -/
namespace MatrixNode
open GoLib

def errTxConsensus : ℕ := 6

/-- Transactions stand for themselves by their hashes. `removed` are the calls of `removeTx` that the
reports have led to. -/
structure ErrorTxs (Hash : Type) where
  numbers : List ℤ
  sContainer : GoMap (BitVec 256) ℕ
  mapNs : GoMap UInt32 ℕ
  mapErrorTxs : GoMap ℕ Hash
  mapDelErrtxs : GoMap Hash ℕ
  mapCaclErrtxs : GoMap Hash (List Address)
  removed : List Hash

namespace ErrorTxs
variable {Hash : Type} [DecidableEq Hash] (p : ErrorTxs Hash)

def empty : ErrorTxs Hash := ⟨[], ∅, ∅, ∅, ∅, ∅, []⟩

/-- A number that was just decoded is at a place of its own. -/
def alloc (s : ℤ) : ErrorTxs Hash := { p with numbers := p.numbers ++ [s] }

/-- `mapNs.Store`, for a decoded S or for that of a decoded transaction. -/
def storeNs (n : UInt32) (s : ℤ) : ErrorTxs Hash :=
  { p.alloc s with mapNs := p.mapNs.insert n p.numbers.length }

/-- The end of a turn of `msg_RecvFloodTx` for a transaction with these codes. -/
def recvFloodTx (n : UInt32) (hash : Hash) (codes : List UInt32) (err : Option GoError) :
    ErrorTxs Hash :=
  match p.mapNs.lookup n with
  | none => p
  | some s =>
    if n = 0 then p
    else if err ≠ none ∧ err ≠ some errKownTransaction then
      let p :=
        if s ∈ p.mapErrorTxs then p
        else { p with
          mapErrorTxs := p.mapErrorTxs.insert s hash
          mapDelErrtxs := p.mapDelErrtxs.insert hash s }
      -- `deleteMap`
      { p with
        mapNs := codes.foldl (fun m n => m.erase n) p.mapNs
        sContainer := p.sContainer.erase (hashOfS (p.numbers.getD s 0)) }
    else p

/-- `blockTiming` for a transaction that has been there for too long. -/
def blockTiming (hash : Hash) : ErrorTxs Hash :=
  let p := { p with mapCaclErrtxs := p.mapCaclErrtxs.erase hash }
  match p.mapDelErrtxs.lookup hash with
  | none => p
  | some s => { p with
      mapErrorTxs := p.mapErrorTxs.erase s
      mapDelErrtxs := p.mapDelErrtxs.erase hash }

/-- One turn of `msg_RecvErrTx`. `BigToHash` does not take the nil pointer. -/
def recvErrTx (addr : Address) (p : ErrorTxs Hash) : Option ℤ → Except GoError (ErrorTxs Hash)
  | none => .error nilDereference
  | some s =>
    let ptr := p.numbers.length
    let p := p.alloc s
    if p.sContainer.lookup (hashOfS s) ≠ none then .ok p
    else
      match p.mapErrorTxs.lookup ptr with
      | none => .ok p
      | some hash =>
        let accs := (p.mapCaclErrtxs.lookup hash).getD []
        if addr ∈ accs then .ok p
        else
          let p := { p with mapCaclErrtxs := p.mapCaclErrtxs.insert hash (accs ++ [addr]) }
          if errTxConsensus ≤ (accs ++ [addr]).length then .ok { p with removed := p.removed ++ [hash] }
          else .ok p

/-- What the pool does: messages, its timer, and what the rest of it does to the containers. -/
inductive Input (Hash : Type) where
  | storeNs (n : UInt32) (s : ℤ)
  | recvFloodTx (n : UInt32) (hash : Hash) (codes : List UInt32) (err : Option GoError)
  | recvErrTx (addr : Address) (listS : List (Option ℤ))
  | blockTiming (hash : Hash)
  | rest (sContainer : GoMap (BitVec 256) ℕ) (codes : List UInt32)

def step : Input Hash → Except GoError (ErrorTxs Hash)
  | .storeNs n s => .ok (p.storeNs n s)
  | .recvFloodTx n hash codes err => .ok (p.recvFloodTx n hash codes err)
  | .recvErrTx addr listS => run (recvErrTx addr) p listS
  | .blockTiming hash => .ok (p.blockTiming hash)
  | .rest sContainer codes => .ok { p with
      sContainer := sContainer
      mapNs := codes.foldl (fun m n => m.erase n) p.mapNs }

/-- The nodes that report the number, each one once. -/
def reporters (s : ℤ) (inputs : List (Input Hash)) : List Address :=
  (inputs.filterMap fun
    | .recvErrTx addr listS => if some s ∈ listS then some addr else none
    | _ => none).dedup

/-- The transaction is kept under a number with this value. -/
def Recorded (hash : Hash) (s : ℤ) : Prop :=
  ∃ ptr, p.mapErrorTxs.lookup ptr = some hash ∧ p.numbers[ptr]? = some s

/-- Once enough nodes have reported the number of a recorded transaction, each of them is counted once
and the transaction is gone. Nobody counts for another number. -/
def Handled (p' : ErrorTxs Hash) (hash : Hash) (s : ℤ) (inputs : List (Input Hash)) : Prop :=
  (p.Recorded hash s → errTxConsensus ≤ (reporters s inputs).length →
    (∀ addr ∈ reporters s inputs, ((p'.mapCaclErrtxs.lookup hash).getD []).count addr = 1) ∧
      hash ∈ p'.removed) ∧
  ∀ addr ∈ (p'.mapCaclErrtxs.lookup hash).getD [], addr ∈ reporters s inputs

/-- The pointers that the pool keeps are older than every number decoded from now on. -/
structure Older (p : ErrorTxs Hash) : Prop where
  ns : ∀ n ptr, p.mapNs.lookup n = some ptr → ptr < p.numbers.length
  errors : ∀ ptr ∈ p.mapErrorTxs, ptr < p.numbers.length
  counted : p.mapCaclErrtxs = ∅
  removed : p.removed = []

variable {p p' : ErrorTxs Hash}

omit [DecidableEq Hash] in
theorem Older.alloc (h : Older p) (s : ℤ) : Older (p.alloc s) := by
  have hlength : (p.alloc s).numbers.length = p.numbers.length+1 := List.length_append
  refine ⟨?_, ?_, h.counted, h.removed⟩
  · intro n ptr hn
    have hlt := h.ns n ptr hn
    omega
  · intro ptr hptr
    have hlt := h.errors ptr hptr
    omega

omit [DecidableEq Hash] in
theorem Older.erased (h : Older p) {codes : List UInt32} {n : UInt32} {ptr : ℕ}
    (hn : (codes.foldl (fun m n => m.erase n) p.mapNs).lookup n = some ptr) : ptr < p.numbers.length := by
  rw [GoMap.lookup_foldl_erase] at hn
  split_ifs at hn
  exact h.ns n ptr hn

theorem Older.recvFloodTx (h : Older p) (n : UInt32) (hash : Hash) (codes : List UInt32)
    (err : Option GoError) : Older (p.recvFloodTx n hash codes err) := by
  unfold ErrorTxs.recvFloodTx
  cases hn : p.mapNs.lookup n with
  | none => exact h
  | some s =>
    dsimp only
    split_ifs with hzero hfailed hknown
    · exact h
    · exact ⟨fun _ _ => h.erased, h.errors, h.counted, h.removed⟩
    · refine ⟨fun _ _ => h.erased, ?_, h.counted, h.removed⟩
      intro ptr hptr
      rcases Finmap.mem_insert.mp hptr with rfl | hold
      · exact h.ns n ptr hn
      · exact h.errors ptr hold
    · exact h

theorem Older.blockTiming (h : Older p) (hash : Hash) : Older (p.blockTiming hash) := by
  have hcounted : p.mapCaclErrtxs.erase hash = ∅ := by
    rw [h.counted]
    rfl
  unfold ErrorTxs.blockTiming
  dsimp only
  split
  · exact ⟨h.ns, h.errors, hcounted, h.removed⟩
  · exact ⟨h.ns, fun ptr hptr => h.errors ptr (Finmap.mem_erase.mp hptr).2, hcounted, h.removed⟩

/-- A number that a report brings is not among those that the pool keeps. -/
theorem Older.recvErrTx (h : Older p) {addr : Address} {s : Option ℤ}
    (hturn : recvErrTx addr p s = .ok p') : Older p' := by
  cases s with
  | none => cases hturn
  | some s =>
    have hnew : p.mapErrorTxs.lookup p.numbers.length = none :=
      Finmap.lookup_eq_none.mpr fun hmem => lt_irrefl _ (h.errors _ hmem)
    have hsame : p' = p.alloc s := by
      simpa [ErrorTxs.recvErrTx, ErrorTxs.alloc, hnew, eq_comm] using hturn
    rw [hsame]
    exact h.alloc s

theorem Older.step {i : Input Hash} (h : Older p) (hstep : step p i = .ok p') : Older p' := by
  cases i with
  | storeNs n s =>
    cases hstep
    refine ⟨?_, (h.alloc s).errors, h.counted, h.removed⟩
    intro k ptr hk
    rcases GoMap.lookup_insert_cases hk with ⟨-, rfl⟩ | ⟨-, hold⟩
    · exact List.length_append ▸ Nat.lt_succ_self _
    · exact (h.alloc s).ns k ptr hold
  | recvFloodTx n hash codes err =>
    cases hstep
    exact h.recvFloodTx n hash codes err
  | recvErrTx addr listS =>
    exact run_preserves (fun p s p' _ h hturn => Older.recvErrTx h hturn) (fun _ _ => trivial) h hstep
  | blockTiming hash =>
    cases hstep
    exact h.blockTiming hash
  | rest sContainer codes =>
    cases hstep
    exact ⟨fun _ _ => h.erased, h.errors, h.counted, h.removed⟩

/-- No report is ever counted, and no transaction removed for it: reports are handled exactly if they
do not concern a recorded transaction or are too few. -/
theorem handled_iff_not_due {before after : List (Input Hash)}
    (hbefore : run step empty before = .ok p) (hafter : run step p after = .ok p') (hash : Hash) (s : ℤ) :
    (p.Handled p' hash s after ↔
      ¬ (p.Recorded hash s ∧ errTxConsensus ≤ (reporters s after).length)) ∧
    p'.mapCaclErrtxs = ∅ ∧ p'.removed = [] := by
  have hempty : Older (empty : ErrorTxs Hash) := ⟨nofun, nofun, rfl, rfl⟩
  have hrun {q q' : ErrorTxs Hash} {inputs : List (Input Hash)} (hq : Older q)
      (h : run step q inputs = .ok q') : Older q' :=
    run_preserves (fun _ _ _ _ h hstep => h.step hstep) (fun _ _ => trivial) hq h
  have hold : Older p' := hrun (hrun hempty hbefore) hafter
  refine ⟨?_, hold.counted, hold.removed⟩
  unfold Handled
  rw [hold.counted, hold.removed]
  constructor
  · rintro ⟨hhandled, -⟩ ⟨hrecorded, henough⟩
    exact List.not_mem_nil (hhandled hrecorded henough).2
  · intro hdue
    exact ⟨fun hrecorded henough => absurd ⟨hrecorded, henough⟩ hdue, nofun⟩

/-- The number 9 was named for code 1, and the transaction with hash 77 that came for it was refused. -/
def refused : List (Input ℕ) := [.storeNs 1 9, .recvFloodTx 1 77 [1] (some errInvalidSig)]

/-- Six nodes report the number in messages of their own, with another number before it. -/
def sixReports : List (Input ℕ) :=
  (List.range 6).map fun addr => .recvErrTx (.ofNat _ addr) [some 8, some 9]

theorem six_reports_not_handled : ∃ p p', run step empty refused = .ok p ∧
    run step p sixReports = .ok p' ∧ ¬ p.Handled p' 77 9 sixReports := by
  refine ⟨_, _, rfl, rfl, fun h => ?_⟩
  refine (@handled_iff_not_due _ _ _ _ refused _ rfl rfl 77 9).1.mp h ⟨⟨0, rfl, rfl⟩, ?_⟩
  decide +kernel

/-- The transaction stays, and nobody is counted. -/
theorem six_reports_not_counted :
    ∃ p p' : ErrorTxs ℕ, run step empty refused = .ok p ∧ p.Recorded 77 9 ∧
      run step p sixReports = .ok p' ∧ p'.Recorded 77 9 ∧ (reporters 9 sixReports).length = 6 ∧
      p'.mapCaclErrtxs.lookup 77 = none ∧ p'.removed = [] :=
  ⟨_, _, rfl, ⟨0, rfl, rfl⟩, rfl, ⟨0, rfl, rfl⟩, rfl, rfl, rfl⟩

end ErrorTxs

end MatrixNode
