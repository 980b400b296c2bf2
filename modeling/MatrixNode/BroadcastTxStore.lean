import MatrixNode.GoJson
import MatrixNode.TransactionSigning

/-! `core/tx_pool.go`, chain-head handler: the keys, heartbeats and roll calls of a
broadcast block are collected from its special transactions into four maps. -/
namespace MatrixNode
open GoLib GoMap List

inductive BroadcastKind where
  | publickey
  | privatekey
  | heartbeat
  | callTheRoll
  deriving DecidableEq

def BroadcastKind.name : BroadcastKind → String
  | .publickey => "SeedPublicKey"
  | .privatekey => "SeedPrivateKey"
  | .heartbeat => "Heartbeat"
  | .callTheRoll => "CallTheRoll"

def stringsContains (s substr : String) : Bool := decide (substr.toList <:+: s.toList)

/-- The branch that a payload key takes; a key can contain several names. -/
def keyKind (keydata : String) : Option BroadcastKind :=
  if stringsContains keydata BroadcastKind.publickey.name then some .publickey
  else if stringsContains keydata BroadcastKind.privatekey.name then some .privatekey
  else if stringsContains keydata BroadcastKind.heartbeat.name then some .heartbeat
  else if stringsContains keydata BroadcastKind.callTheRoll.name then some .callTheRoll
  else none

abbrev BroadcastMaps := BroadcastKind → GoMap Address Bytes

/-- The handler's surroundings: sender recovery with the pool's signer, and the grammar of JSON. -/
structure BroadcastPool (Hash : Type) where
  crypto : TxCrypto Hash
  signer : Signer
  parse : Bytes → JsonText

namespace BroadcastPool
variable {Hash : Type} (B : BroadcastPool Hash)

/-- The error of `Sender` is dropped, which leaves the zero address. -/
def senderOf (tx : Transaction) : Address :=
  match B.crypto.sender B.signer tx with
  | .ok account => account
  | .error _ => 0

/-- The keys of a payload, and the error of `json.Unmarshal`. -/
def payloadKeys (tx : Transaction) : GoMap String Bytes × Option GoError :=
  unmarshal ∅ (.stringMap [] .byteSlice) (B.parse tx.payload)

def isBroadcastTx (tx : Transaction) : Bool :=
  match tx.extra with
  | [] => false
  | e :: _ => e.txType == 1

def storeKey (account : Address) (maps : BroadcastMaps) (e : String × Bytes) : BroadcastMaps :=
  match keyKind e.1 with
  | none => maps
  -- A second key of the kind overwrites the value of the first.
  | some kind => Function.update maps kind ((maps kind).insert account e.2)

/-- The error of `json.Unmarshal` is dropped. -/
def storeTx (maps : BroadcastMaps) (tx : Transaction) (R : Ranger String Bytes) : BroadcastMaps :=
  if isBroadcastTx tx then
    (R.order (B.payloadKeys tx).1).foldl (storeKey (B.senderOf tx)) maps
  else maps

def collect (txs : List Transaction) (R : ℕ → Ranger String Bytes) : BroadcastMaps :=
  txs.zipIdx.foldl (fun maps e => B.storeTx maps e.1 (R e.2)) fun _ => ∅

/-- What the handler puts into the database for one kind: the text whose hash is the
database key, and the map. -/
def storedMap (number : ℕ) (txs : List Transaction) (R : ℕ → Ranger String Bytes)
    (kind : BroadcastKind) : Option (String × GoMap Address Bytes) :=
  if isBroadcastNumber number then
    let maps := B.collect txs R
    if 0 < (maps kind).len then
      some (kind.name ++ toString (number/broadcastInterval), maps kind)
    else none
  else none

def StoresDeterministically (number : ℕ) (txs : List Transaction) : Prop :=
  ∀ (R R' : ℕ → Ranger String Bytes) (kind : BroadcastKind),
    B.storedMap number txs R kind = B.storedMap number txs R' kind

def writes (kind : BroadcastKind) (account : Address) (tx : Transaction) : Bool :=
  isBroadcastTx tx && decide (B.senderOf tx = account) &&
    decide (∃ k ∈ (B.payloadKeys tx).1.keys, keyKind k = some kind)

def lastWriter (kind : BroadcastKind) (account : Address) (txs : List Transaction) :
    Option Transaction :=
  (txs.filter (B.writes kind account)).getLast?

def OneValue (kind : BroadcastKind) (tx : Transaction) : Prop :=
  ∀ k k' v v', (B.payloadKeys tx).1.lookup k = some v →
    (B.payloadKeys tx).1.lookup k' = some v' →
    keyKind k = some kind → keyKind k' = some kind → v = v'

variable {B}

theorem foldl_storeKey_lookup (o : List (String × Bytes)) (maps : BroadcastMaps)
    (account a : Address) (kind : BroadcastKind) :
    ((o.foldl (storeKey account) maps) kind).lookup a = if a = account then
        (lastValue (fun k => decide (keyKind k = some kind)) o).or ((maps kind).lookup a)
      else (maps kind).lookup a := by
  induction o using reverseRecOn with
  | nil => simp [lastValue]
  | append_singleton o e ih =>
    rw [foldl_append, foldl_cons, foldl_nil, lastValue_concat, storeKey]
    rcases hk : keyKind e.1 with _ | kind'
    · simpa using ih
    · by_cases hkind : kind = kind'
      · subst hkind
        dsimp only
        by_cases ha : a = account
        · subst ha
          simp
        · simpa [ha] using ih
      · have hne : ¬ kind' = kind := fun h => hkind h.symm
        simpa [Function.update_of_ne hkind, hne] using ih

variable (kind : BroadcastKind)

theorem writes_eq_true_iff (account : Address) (tx : Transaction) (R : Ranger String Bytes) :
    B.writes kind account tx = true ↔ isBroadcastTx tx = true ∧ B.senderOf tx = account ∧
      (lastValue (fun k => decide (keyKind k = some kind))
        (R.order (B.payloadKeys tx).1)).isSome = true := by
  have hkeys : (∃ k ∈ (B.payloadKeys tx).1.keys, keyKind k = some kind) ↔
      ∃ e ∈ R.order (B.payloadKeys tx).1, keyKind e.1 = some kind := by
    rw [← (R.isRange _).keys_toFinset]
    simp
  simp only [writes, Bool.and_eq_true, decide_eq_true_eq, and_assoc, lastValue_isSome_iff, hkeys]

theorem storeTx_lookup (maps : BroadcastMaps) (tx : Transaction) (R : Ranger String Bytes)
    (kind : BroadcastKind) (a : Address) :
    (B.storeTx maps tx R kind).lookup a = if B.writes kind a tx then
        lastValue (fun k => decide (keyKind k = some kind)) (R.order (B.payloadKeys tx).1)
      else (maps kind).lookup a := by
  have hw := writes_eq_true_iff (B := B) kind a tx R
  unfold storeTx
  by_cases hb : isBroadcastTx tx = true
  · rw [if_pos hb, foldl_storeKey_lookup]
    rcases hv : lastValue (fun k => decide (keyKind k = some kind))
        (R.order (B.payloadKeys tx).1) with _ | v
    · have hn : ¬ B.writes kind a tx = true := by
        rw [hw, hv]
        simp
      simp [hn]
    · by_cases ha : a = B.senderOf tx
      · rw [if_pos ha, if_pos (hw.mpr ⟨hb, ha.symm, by simp [hv]⟩), Option.some_or]
      · rw [if_neg ha, if_neg fun h => ha (hw.mp h).2.1.symm]
  · rw [if_neg hb, if_neg fun h => hb (hw.mp h).1]

theorem collect_concat (txs : List Transaction) (tx : Transaction)
    (R : ℕ → Ranger String Bytes) :
    B.collect (txs ++ [tx]) R = B.storeTx (B.collect txs R) tx (R txs.length) := by
  simp [collect, zipIdx_append]

theorem lastWriter_concat (account : Address) (txs : List Transaction) (tx : Transaction) :
    B.lastWriter kind account (txs ++ [tx]) =
      if B.writes kind account tx then some tx else B.lastWriter kind account txs := by
  unfold lastWriter
  split_ifs with h <;> simp [filter_append, h]

theorem lastValue_ranger_iff (tx : Transaction) (n : ℕ) :
    (∀ R R' : ℕ → Ranger String Bytes, lastValue (fun k => decide (keyKind k = some kind))
        ((R n).order (B.payloadKeys tx).1) =
      lastValue (fun k => decide (keyKind k = some kind))
        ((R' n).order (B.payloadKeys tx).1)) ↔ B.OneValue kind tx := by
  have hone : B.OneValue kind tx ↔ ∀ k k' v v', (B.payloadKeys tx).1.lookup k = some v →
      (B.payloadKeys tx).1.lookup k' = some v' →
      decide (keyKind k = some kind) = true → decide (keyKind k' = some kind) = true → v = v' := by
    simp only [OneValue, decide_eq_true_eq]
  rw [hone, ← lastValue_order_independent_iff]
  constructor
  · intro h o o' ho ho'
    obtain ⟨R, rfl⟩ := Ranger.exists_order_eq ho
    obtain ⟨R', rfl⟩ := Ranger.exists_order_eq ho'
    exact h (fun _ => R) (fun _ => R')
  · intro h R R'
    exact h _ _ ((R n).isRange _) ((R' n).isRange _)

theorem collect_lookup_deterministic_iff (a : Address) (txs : List Transaction) :
    (∀ R R', (B.collect txs R kind).lookup a = (B.collect txs R' kind).lookup a) ↔
      ∀ tx, B.lastWriter kind a txs = some tx → B.OneValue kind tx := by
  induction txs using reverseRecOn with
  | nil => simp [collect, lastWriter]
  | append_singleton txs tx ih =>
    simp only [collect_concat, storeTx_lookup, lastWriter_concat]
    by_cases hw : B.writes kind a tx = true
    · simp only [if_pos hw, Option.some.injEq, forall_eq']
      exact lastValue_ranger_iff kind tx txs.length
    · simp only [if_neg hw]
      exact ih

theorem storedMap_eq_iff {number : ℕ} (hn : isBroadcastNumber number = true)
    (txs : List Transaction) (R R' : ℕ → Ranger String Bytes) (kind : BroadcastKind) :
    B.storedMap number txs R kind = B.storedMap number txs R' kind ↔
      B.collect txs R kind = B.collect txs R' kind := by
  constructor
  · intro h
    simp only [storedMap, hn, if_true] at h
    split_ifs at h with h1 h2 h2
    · exact (Prod.ext_iff.mp (Option.some.inj h)).2
    · rw [eq_empty_of_len_eq_zero h1, eq_empty_of_len_eq_zero h2]
  · intro h
    simp only [storedMap, h]

theorem storesDeterministically_iff_lookup {number : ℕ} (hn : isBroadcastNumber number = true)
    (txs : List Transaction) :
    B.StoresDeterministically number txs ↔
      ∀ kind a R R', (B.collect txs R kind).lookup a = (B.collect txs R' kind).lookup a := by
  simp only [StoresDeterministically, storedMap_eq_iff hn]
  constructor
  · intro h kind a R R'
    rw [h R R' kind]
  · intro h R R' kind
    exact Finmap.ext_lookup fun a => h kind a R R'

/-- What is stored is independent of all iteration orders exactly when the last transaction of a
sender with keys of a kind gives all of them one value. -/
theorem storesDeterministically_iff {number : ℕ} (hn : isBroadcastNumber number = true)
    (txs : List Transaction) :
    B.StoresDeterministically number txs ↔
      ∀ kind a tx, B.lastWriter kind a txs = some tx → B.OneValue kind tx := by
  rw [storesDeterministically_iff_lookup hn]
  simp only [collect_lookup_deterministic_iff]

/-- The payload with two public keys, of which one has the value 1. -/
def twoKeysPayload (second : String) : Bytes :=
  ("\x7b\"SeedPublicKey\":\"AQ==\",\"SeedPublicKey2\":\"" ++ second ++ "\"\x7d").toUTF8.toList

def samplePool (second : String) : BroadcastPool SigContent where
  crypto := TxCrypto.sampleTxCrypto (.frontier TxCrypto.sampleBody)
  signer := .eip155 1
  parse b :=
    if b = twoKeysPayload second then
      some (.object [("SeedPublicKey".toList, .text "AQ=="), ("SeedPublicKey2".toList, .text second)])
    else none

def sampleBroadcastTx (payload : Bytes) : Transaction :=
  { TxCrypto.sampleBody with payload := payload, extra := [⟨1, 0, []⟩], v := 27, r := 1, s := 1 }

theorem storesDeterministically_same_value :
    (samplePool "AQ==").StoresDeterministically 20 [sampleBroadcastTx (twoKeysPayload "AQ==")] := by
  refine (storesDeterministically_iff (by decide) _).mpr fun kind a tx htx => ?_
  have hmem := (mem_filter.mp (mem_of_getLast? htx)).1
  obtain rfl := mem_singleton.mp hmem
  have hkey (k : String) (v : Bytes) (hk : ((samplePool "AQ==").payloadKeys
      (sampleBroadcastTx (twoKeysPayload "AQ=="))).1.lookup k = some v) : v = [1] := by
    have heq : ((samplePool "AQ==").payloadKeys (sampleBroadcastTx (twoKeysPayload "AQ=="))).1 =
        ((∅ : GoMap String Bytes).insert "SeedPublicKey" [1]).insert "SeedPublicKey2" [1] := by
      decide +kernel
    rw [heq] at hk
    rcases lookup_insert_cases hk with ⟨-, rfl⟩ | ⟨-, hk⟩
    · rfl
    rcases lookup_insert_cases hk with ⟨-, rfl⟩ | ⟨-, hk⟩
    · rfl
    · cases hk
  intro k k' v v' hk hk' _ _
  rw [hkey k v hk, hkey k' v' hk']

/-- A block at a broadcast height whose only transaction carries two public keys. -/
theorem two_public_keys_order_dependent :
    isBroadcastNumber 20 = true ∧
    ¬ (samplePool "Ag==").StoresDeterministically 20 [sampleBroadcastTx (twoKeysPayload "Ag==")] := by
  refine ⟨by decide, fun h => ?_⟩
  have hwriter : (samplePool "Ag==").lastWriter .publickey
      ((samplePool "Ag==").senderOf (sampleBroadcastTx (twoKeysPayload "Ag==")))
      [sampleBroadcastTx (twoKeysPayload "Ag==")] =
      some (sampleBroadcastTx (twoKeysPayload "Ag==")) := by
    decide +kernel
  rw [storesDeterministically_iff_lookup (by decide)] at h
  have hone := (collect_lookup_deterministic_iff _ _ _).mp (h .publickey _) _ hwriter
  have heq := hone "SeedPublicKey" "SeedPublicKey2" [1] [2] (by decide +kernel) (by decide +kernel)
    (by decide +kernel) (by decide +kernel)
  cases heq

end BroadcastPool

end MatrixNode
