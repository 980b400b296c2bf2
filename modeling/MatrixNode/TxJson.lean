import MatrixNode.GoMap
import MatrixNode.HexText
import MatrixNode.SignatureValues

/-! The JSON form of transactions (`core/types/gen_tx_json.go`) and the messages that carry it between
transaction pools. The list of extra recipients is not part of it. -/
namespace MatrixNode
open GoLib HexText TxCrypto Transaction List

/-- The JSON object of a `txdata`: what stands under each name, if it is there and not null. -/
structure TxdataJson (Hash : Type) where
  nonce : Option HexText
  gasPrice : Option HexText
  gas : Option HexText
  recipient : Option HexText
  value : Option HexText
  input : Option HexText
  v : Option HexText
  r : Option HexText
  s : Option HexText
  hash : Option Hash

/-- A field that may be missing. -/
def readField {α : Type} (decode : HexText → Except GoError α) :
    Option HexText → Except GoError (Option α)
  | none => pure none
  | some text => do
    let a ← decode text
    pure (some a)

/-- The check for a required field of a generated decoder. -/
def requireField {α : Type} (struct name : String) : Option α → Except GoError α
  | none => throw (.error ("missing required field '" ++ name ++ "' for " ++ struct))
  | some a => pure a

section Fields

theorem readField_big {β : Type} (n : ℕ) (next : Option ℕ → Except GoError β) (b : β) :
    (readField unmarshalBig (some (marshalBig n)) >>= next) = .ok b ↔
      n < 2^256 ∧ next (some n) = .ok b := by
  rw [readField, unmarshalBig_marshalBig]
  by_cases hn : n < 2^256
  · rw [if_pos hn]
    exact ⟨fun h => ⟨hn, h⟩, fun h => h.2⟩
  · rw [if_neg hn]
    constructor
    · intro h
      cases h
    · intro h
      exact absurd h.1 hn

theorem readField_uint64 (n : UInt64) :
    readField unmarshalUint64 (some (marshalUint64 n)) = .ok (some n) := by
  rw [readField, unmarshalUint64_marshalUint64]
  rfl

theorem readField_bytes (b : Bytes) :
    readField unmarshalBytes (some (marshalBytes b)) = .ok (some b) := by
  rw [readField, unmarshalBytes_marshalBytes]
  rfl

theorem readField_address (a : Option Address) :
    readField unmarshalAddress (a.map marshalAddress) = .ok a := by
  cases a with
  | none => rfl
  | some a =>
    rw [Option.map_some, readField, unmarshalAddress_marshalAddress]
    rfl

end Fields

namespace Transaction
variable {Hash : Type} (tx : Transaction)

def marshalTxdata (hash : Option Hash) : TxdataJson Hash where
  nonce := some (marshalUint64 tx.accountNonce)
  gasPrice := some (marshalBig tx.price)
  gas := some (marshalUint64 tx.gasLimit)
  recipient := tx.recipient.map marshalAddress
  value := some (marshalBig tx.amount)
  input := some (marshalBytes tx.payload)
  v := some (marshalBig tx.v)
  r := some (marshalBig tx.r)
  s := some (marshalBig tx.s)
  hash := hash

/-- `txdata.UnmarshalJSON`. All fields are read before the first is required. -/
def unmarshalTxdata (json : TxdataJson Hash) : Except GoError Transaction := do
  let nonce ← readField unmarshalUint64 json.nonce
  let gasPrice ← readField unmarshalBig json.gasPrice
  let gas ← readField unmarshalUint64 json.gas
  let recipient ← readField unmarshalAddress json.recipient
  let value ← readField unmarshalBig json.value
  let input ← readField unmarshalBytes json.input
  let v ← readField unmarshalBig json.v
  let r ← readField unmarshalBig json.r
  let s ← readField unmarshalBig json.s
  -- The recipient is not required; the list of extra recipients is not in the text at all.
  let accountNonce ← requireField "txdata" "nonce" nonce
  let price ← requireField "txdata" "gasPrice" gasPrice
  let gasLimit ← requireField "txdata" "gas" gas
  let amount ← requireField "txdata" "value" value
  let payload ← requireField "txdata" "input" input
  let v ← requireField "txdata" "v" v
  let r ← requireField "txdata" "r" r
  let s ← requireField "txdata" "s" s
  pure {
    accountNonce := accountNonce
    price := price
    gasLimit := gasLimit
    recipient := recipient
    amount := amount
    payload := payload
    extra := []
    v := v
    r := r
    s := s }

def marshalJSON (txHash : Transaction → Hash) : TxdataJson Hash :=
  tx.marshalTxdata (some (txHash tx))

/-- The recovery id that `UnmarshalJSON` makes of V, with numbers of 64 bits. -/
def recoveryByte (v : ℕ) : UInt8 :=
  if isProtectedV v then (UInt64.ofNat v-35-2*UInt64.ofNat (deriveChainId v)).toUInt8
  else (UInt64.ofNat v-27).toUInt8

def unmarshalJSON (json : TxdataJson Hash) : Except GoError Transaction := do
  let dec ← unmarshalTxdata json
  if validateSignatureValues (recoveryByte dec.v) dec.r dec.s false = false then
    throw errInvalidSig
  pure dec

structure Below256 : Prop where
  price : tx.price < 2^256
  amount : tx.amount < 2^256
  v : tx.v < 2^256
  r : tx.r < 2^256
  s : tx.s < 2^256

section Txdata
variable {tx}

theorem unmarshalTxdata_marshalTxdata {hash : Option Hash} {tx' : Transaction} :
    unmarshalTxdata (tx.marshalTxdata hash) = .ok tx' ↔
      tx.Below256 ∧ tx' = { tx with extra := [] } := by
  unfold unmarshalTxdata marshalTxdata
  simp only [readField_uint64, readField_bytes, readField_address, ok_bind, readField_big,
    requireField, pure_eq_ok, Except.ok.injEq]
  constructor
  · rintro ⟨hprice, hamount, hv, hr, hs, htx⟩
    exact ⟨⟨hprice, hamount, hv, hr, hs⟩, htx.symm⟩
  · rintro ⟨hbelow, htx⟩
    exact ⟨hbelow.price, hbelow.amount, hbelow.v, hbelow.r, hbelow.s, htx.symm⟩

/-- The chain id is taken from V less 128, but the 128 itself stays in the difference. -/
theorem recoveryByte_iff (v : ℕ) : recoveryByte v = 0 ∨ recoveryByte v = 1 ↔ v ≤ 128 := by
  have hbyte (x : UInt8) : x = 0 ∨ x = 1 ↔ x.toNat < 2 := by
    rw [← UInt8.toNat_inj, ← UInt8.toNat_inj]
    change x.toNat = 0 ∨ x.toNat = 1 ↔ x.toNat < 2
    omega
  rw [hbyte]
  unfold recoveryByte
  split_ifs with hprot
  · have h35 : (35 : UInt64).toNat = 35 := rfl
    have h2 : (2 : UInt64).toNat = 2 := rfl
    have hv : ¬ (v = 27 ∨ v = 28) := by
      rw [← isProtectedV_eq_false_iff, hprot]
      decide
    rw [UInt64.toNat_toUInt8, UInt64.toNat_sub, UInt64.toNat_sub, UInt64.toNat_mul,
      UInt64.toNat_ofNat', UInt64.toNat_ofNat', h35, h2]
    unfold deriveChainId deriveChainId1
    simp only [Nat.size_le]
    split_ifs <;> omega
  · rw [Bool.not_eq_true, isProtectedV_eq_false_iff] at hprot
    rcases hprot with rfl | rfl <;> decide

end Txdata

/-- The transactions that the JSON form carries: no extra recipients, a V up to 128, and numbers of
at most 256 bits. -/
structure JsonFits : Prop where
  extra : tx.extra = []
  v : tx.v ≤ 128
  price : tx.price < 2^256
  amount : tx.amount < 2^256

def JsonKeeps (C : TxCrypto Hash) (txHash : Transaction → Hash) (signer : Signer) : Prop :=
  ∃ tx', unmarshalJSON (tx.marshalJSON txHash) = .ok tx' ∧ txHash tx' = txHash tx ∧
    C.sender signer tx' = C.sender signer tx

section Json
variable {tx} {C : TxCrypto Hash} {txHash : Transaction → Hash} {signer : Signer} {account : Address}

theorem recoverPlain_ranges {h : Hash} {r s : ℕ} {vb : ℤ} {homestead : Bool}
    (hok : C.recoverPlain h r s vb homestead = .ok account) :
    (1 ≤ r ∧ r < secp256k1N) ∧ (1 ≤ s ∧ s < secp256k1N) := by
  obtain ⟨-, hvalid, -⟩ := recoverPlain_eq_ok_iff.mp hok
  obtain ⟨hr, hs, -⟩ := validateSignatureValues_eq_true_iff.mp hvalid
  exact ⟨hr, hs⟩

theorem sender_ranges (hsigned : C.sender signer tx = .ok account) :
    (1 ≤ tx.r ∧ tx.r < secp256k1N) ∧ (1 ≤ tx.s ∧ tx.s < secp256k1N) := by
  cases signer with
  | frontier => exact recoverPlain_ranges hsigned
  | homestead => exact recoverPlain_ranges hsigned
  | eip155 chainId =>
    obtain ⟨i, -, ⟨-, hok⟩ | ⟨-, hok⟩⟩ := sender_eip155_iff.mp hsigned
    · exact recoverPlain_ranges hok
    · exact recoverPlain_ranges hok

theorem unmarshalJSON_marshalJSON (hsigned : C.sender signer tx = .ok account) {tx' : Transaction} :
    unmarshalJSON (tx.marshalJSON txHash) = .ok tx' ↔
      (tx.v ≤ 128 ∧ tx.price < 2^256 ∧ tx.amount < 2^256) ∧ tx' = { tx with extra := [] } := by
  obtain ⟨hr, hs⟩ := sender_ranges hsigned
  have hN : secp256k1N < 2^256 := by norm_num [secp256k1N]
  have hvalid (v : ℕ) :
      validateSignatureValues (recoveryByte v) tx.r tx.s false = true ↔ v ≤ 128 := by
    rw [validateSignatureValues_eq_true_iff, ← recoveryByte_iff]
    simp [hr, hs]
  unfold unmarshalJSON marshalJSON
  rw [bind_eq_ok_iff]
  constructor
  · rintro ⟨dec, hdec, h⟩
    obtain ⟨hbelow, rfl⟩ := unmarshalTxdata_marshalTxdata.mp hdec
    simp only [throw_eq_error, error_bind, ite_error_eq_ok, Bool.not_eq_false, hvalid, pure_eq_ok,
      Except.ok.injEq] at h
    exact ⟨⟨h.1, hbelow.price, hbelow.amount⟩, h.2.symm⟩
  · rintro ⟨⟨hv, hprice, hamount⟩, rfl⟩
    have hbelow : tx.Below256 := ⟨hprice, hamount, by omega, by omega, by omega⟩
    refine ⟨_, unmarshalTxdata_marshalTxdata.mpr ⟨hbelow, rfl⟩, ?_⟩
    simp only [throw_eq_error, error_bind, ite_error_eq_ok, Bool.not_eq_false, hvalid, pure_eq_ok]
    exact ⟨hv, trivial⟩

theorem eq_without_extra_iff : ({ tx with extra := [] } : Transaction) = tx ↔ tx.extra = [] := by
  constructor
  · intro h
    rw [← h]
  · intro h
    rw [← h]

theorem jsonKeeps_iff (hinj : Function.Injective txHash)
    (hsigned : C.sender signer tx = .ok account) :
    tx.JsonKeeps C txHash signer ↔ tx.JsonFits := by
  constructor
  · rintro ⟨tx', hback, hhash, -⟩
    obtain ⟨⟨hv, hprice, hamount⟩, rfl⟩ := (unmarshalJSON_marshalJSON hsigned).mp hback
    exact ⟨eq_without_extra_iff.mp (hinj hhash), hv, hprice, hamount⟩
  · rintro ⟨hextra, hv, hprice, hamount⟩
    refine ⟨tx, ?_, rfl, rfl⟩
    rw [unmarshalJSON_marshalJSON hsigned]
    exact ⟨⟨hv, hprice, hamount⟩, (eq_without_extra_iff.mpr hextra).symm⟩

end Json

end Transaction

structure TxCache where
  ntx : GoMap UInt32 Transaction
  height : ℕ

structure NumberedTxs where
  nContainer : GoMap UInt32 Transaction

namespace NumberedTxs
variable {Hash : Type}

def collect (source : UInt32 → Option Transaction) (listN : List UInt32)
    (mapNtx : GoMap UInt32 Transaction) : GoMap UInt32 Transaction :=
  listN.foldl (fun m n =>
    match source n with
    | some tx => m.insert n tx
    | none => m) mapNtx

def getTxByNCache (caches : List TxCache) (listN : List UInt32) (height : ℕ) :
    Option (GoMap UInt32 Transaction) :=
  (caches.find? (fun txc => txc.height = height+1)).map
    (fun txc => collect txc.ntx.lookup listN ∅)

/-- The map that `msg_GetConsensusTxByN` sends, if it sends one. -/
def msgGetConsensusTxByN (pool : NumberedTxs) (caches : List TxCache) (height : ℕ)
    (listN : List UInt32) : Option (GoMap UInt32 Transaction) :=
  if listN.length ≤ 0 then none
  else
    let mapNtx := collect pool.nContainer.lookup listN ∅
    if mapNtx.len ≠ listN.length then
      match getTxByNCache caches listN height with
      | none => some mapNtx
      | some tmpMap =>
        if tmpMap.len = listN.length then some tmpMap
        else some (collect (fun n => (pool.nContainer.lookup n).or (tmpMap.lookup n)) listN mapNtx)
    else some mapNtx

/-- `json.Unmarshal` into a map of transactions. The first one that is refused ends it; the error is
dropped, and what was read so far stays. -/
def unmarshalTxMap (ntx : GoMap UInt32 Transaction) :
    List (UInt32 × TxdataJson Hash) → GoMap UInt32 Transaction
  | [] => ntx
  | (n, json) :: entries =>
    match unmarshalJSON json with
    | .ok tx => unmarshalTxMap (ntx.insert n tx) entries
    | .error _ => ntx

section Sent
variable {pool : NumberedTxs} {caches : List TxCache} {height : ℕ} {listN : List UInt32}
  {mapNtx : GoMap UInt32 Transaction} {n : UInt32} {tx : Transaction}

variable {source : UInt32 → Option Transaction}

theorem lookup_collect :
    (collect source listN mapNtx).lookup n =
      if n ∈ listN then (source n).or (mapNtx.lookup n) else mapNtx.lookup n := by
  induction listN generalizing mapNtx with
  | nil => rfl
  | cons k listN ih =>
    rw [collect, foldl_cons]
    refine ih.trans ?_
    by_cases hk : n = k
    · subst hk
      cases source n <;> simp
    · cases source k <;> simp [hk, Finmap.lookup_insert_of_ne]

theorem source_of_lookup_collect (h : (collect source listN ∅).lookup n = some tx) :
    source n = some tx := by
  rw [lookup_collect] at h
  split_ifs at h
  · simpa using h
  · cases h

/-- The pool does not have all of them: those of the cache are taken, or both are merged. -/
theorem msgGetConsensusTxByN_source
    (h : pool.msgGetConsensusTxByN caches height listN = some mapNtx)
    (hn : mapNtx.lookup n = some tx) :
    pool.nContainer.lookup n = some tx ∨ ∃ txc ∈ caches, txc.ntx.lookup n = some tx := by
  have hpool (h : (collect pool.nContainer.lookup listN ∅).lookup n = some tx) :
      pool.nContainer.lookup n = some tx := source_of_lookup_collect h
  have hcache {tmpMap : GoMap UInt32 Transaction}
      (hcached : getTxByNCache caches listN height = some tmpMap)
      (h : tmpMap.lookup n = some tx) : ∃ txc ∈ caches, txc.ntx.lookup n = some tx := by
    obtain ⟨txc, htxc, rfl⟩ := Option.map_eq_some_iff.mp hcached
    exact ⟨txc, mem_of_find?_eq_some htxc, source_of_lookup_collect h⟩
  unfold msgGetConsensusTxByN at h
  dsimp only at h
  split_ifs at h with hnone hall
  · split at h
    · cases h
      exact .inl (hpool hn)
    · rename_i tmpMap hcached
      split_ifs at h
      · cases h
        exact .inr (hcache hcached hn)
      · cases h
        rw [lookup_collect] at hn
        split_ifs at hn
        · rcases Option.or_eq_some_iff.mp hn with hn | ⟨-, hn⟩
          · rcases Option.or_eq_some_iff.mp hn with hn | ⟨-, hn⟩
            · exact .inl hn
            · exact .inr (hcache hcached hn)
          · exact .inl (hpool hn)
        · exact .inl (hpool hn)
  · cases h
    exact .inl (hpool hn)

end Sent

section Received
variable {C : TxCrypto Hash} {txHash : Transaction → Hash} {signer : Signer}
  {order : List (UInt32 × Transaction)} {ntx : GoMap UInt32 Transaction} {n : UInt32}
  {tx : Transaction}

def wireEntries (txHash : Transaction → Hash) (order : List (UInt32 × Transaction)) :
    List (UInt32 × TxdataJson Hash) :=
  order.map (fun e => (e.1, e.2.marshalJSON txHash))

/-- The transaction is handed to `msg_RecvConsensusFloodTx` under its number, with its hash and its
sender. -/
def Arrives (C : TxCrypto Hash) (txHash : Transaction → Hash) (signer : Signer)
    (order : List (UInt32 × Transaction)) (n : UInt32) (tx : Transaction) : Prop :=
  ∃ tx', (unmarshalTxMap ∅ (wireEntries txHash order)).lookup n = some tx' ∧
    txHash tx' = txHash tx ∧ C.sender signer tx' = C.sender signer tx

theorem lookup_unmarshalTxMap {entries : List (UInt32 × TxdataJson Hash)}
    (h : (unmarshalTxMap ntx entries).lookup n = some tx) :
    ntx.lookup n = some tx ∨ ∃ json, (n, json) ∈ entries ∧ unmarshalJSON json = .ok tx := by
  induction entries generalizing ntx with
  | nil => exact .inl h
  | cons e entries ih =>
    obtain ⟨k, json⟩ := e
    rw [unmarshalTxMap] at h
    split at h
    · rename_i found hfound
      rcases ih h with h | ⟨json', hmem, hread⟩
      · rcases GoMap.lookup_insert_cases h with ⟨rfl, rfl⟩ | ⟨-, h⟩
        · exact .inr ⟨json, mem_cons_self .., hfound⟩
        · exact .inl h
      · exact .inr ⟨json', mem_cons_of_mem _ hmem, hread⟩
    · exact .inl h

theorem unmarshalTxMap_all (hnodup : (order.map Prod.fst).Nodup)
    (hread : ∀ e ∈ order, unmarshalJSON (e.2.marshalJSON txHash) = .ok e.2)
    (h : (n,tx) ∈ order ∨ (n ∉ order.map Prod.fst ∧ ntx.lookup n = some tx)) :
    (unmarshalTxMap ntx (wireEntries txHash order)).lookup n = some tx := by
  induction order generalizing ntx with
  | nil =>
    rcases h with h | h
    · cases h
    · exact h.2
  | cons e order ih =>
    obtain ⟨k, found⟩ := e
    rw [map_cons, nodup_cons] at hnodup
    rw [wireEntries, map_cons, unmarshalTxMap, hread _ (mem_cons_self ..)]
    apply ih hnodup.2 (fun e he => hread e (mem_cons_of_mem _ he))
    rcases h with h | ⟨hne, h⟩
    · rcases mem_cons.mp h with h | h
      · cases h
        exact .inr ⟨hnodup.1, Finmap.lookup_insert _⟩
      · exact .inl h
    · rw [map_cons, mem_cons, not_or] at hne
      refine .inr ⟨hne.2, ?_⟩
      rw [Finmap.lookup_insert_of_ne _ hne.1]
      exact h

/-- The entry under this number is the transaction that was sent. -/
theorem arrives_iff (hinj : Function.Injective txHash) (horder : GoMap.IsRange ntx order)
    (hsigned : ∀ n tx, ntx.lookup n = some tx → ∃ account, C.sender signer tx = .ok account) :
    (∀ n tx, ntx.lookup n = some tx → Arrives C txHash signer order n tx) ↔
      ∀ n tx, ntx.lookup n = some tx → tx.JsonFits := by
  constructor
  · intro h n tx hn
    obtain ⟨tx', hlookup, hhash, hsender⟩ := h n tx hn
    obtain ⟨account, haccount⟩ := hsigned n tx hn
    rcases lookup_unmarshalTxMap hlookup with hnil | ⟨json, hmem, hread⟩
    · cases hnil
    · obtain ⟨⟨k, sent⟩, hsent, heq⟩ := mem_map.mp hmem
      cases heq
      have hsame : sent = tx := by
        have hlook := (horder.mem_iff _ sent).mp hsent
        rw [hn, Option.some.injEq] at hlook
        exact hlook.symm
      subst hsame
      exact (jsonKeeps_iff hinj haccount).mp ⟨tx', hread, hhash, hsender⟩
  · intro h n tx hn
    have hread : ∀ e ∈ order, unmarshalJSON (e.2.marshalJSON txHash) = .ok e.2 := by
      intro e he
      have hlook := (horder.mem_iff e.1 e.2).mp he
      obtain ⟨account, haccount⟩ := hsigned e.1 e.2 hlook
      obtain ⟨hextra, hv, hprice, hamount⟩ := h e.1 e.2 hlook
      rw [unmarshalJSON_marshalJSON haccount]
      exact ⟨⟨hv, hprice, hamount⟩, (eq_without_extra_iff.mpr hextra).symm⟩
    refine ⟨tx, ?_, rfl, rfl⟩
    exact unmarshalTxMap_all horder.nodup_keys hread (.inl ((horder.mem_iff n tx).mpr hn))

/-- JSON keeps exactly the signed transactions that fit, each on its own and in the message from one
pool to another. -/
theorem json_keeps_signed_iff (hinj : Function.Injective txHash) :
    (∀ tx account, C.sender signer tx = .ok account →
      (tx.JsonKeeps C txHash signer ↔ tx.JsonFits)) ∧
    ∀ (pool : NumberedTxs) caches height listN mapNtx order,
      pool.msgGetConsensusTxByN caches height listN = some mapNtx → GoMap.IsRange mapNtx order →
      (∀ n tx, (pool.nContainer.lookup n = some tx ∨ ∃ txc ∈ caches, txc.ntx.lookup n = some tx) →
        ∃ account, C.sender signer tx = .ok account) →
      ((∀ n tx, mapNtx.lookup n = some tx → Arrives C txHash signer order n tx) ↔
        ∀ n tx, mapNtx.lookup n = some tx → tx.JsonFits) := by
  constructor
  · intro tx account hsigned
    exact jsonKeeps_iff hinj hsigned
  · intro pool caches height listN mapNtx order hsent horder hsigned
    refine arrives_iff hinj horder ?_
    intro n tx hn
    exact hsigned n tx (msgGetConsensusTxByN_source hsent hn)

end Received

section Sample

def pairedHash (tx : Transaction) : SigContent :=
  .eip155Extra tx.toTxBody tx.extra (Nat.pair tx.v (Nat.pair tx.r tx.s))

theorem pairedHash_injective : Function.Injective pairedHash := by
  intro tx tx' h
  injection h with hbody hextra hpair
  obtain ⟨hv, hrs⟩ := Nat.pair_eq_pair.mp hpair
  obtain ⟨hr, hs⟩ := Nat.pair_eq_pair.mp hrs
  have hcontent := content_ext hbody hextra
  cases tx
  cases tx'
  cases hcontent
  cases hv
  cases hr
  cases hs
  rfl

def jsonCrypto : TxCrypto SigContent := echoCrypto (fun _ => true)

theorem json_keeps_protected :
    sampleProtectedTx.JsonKeeps jsonCrypto pairedHash (.eip155 1) ∧
    Arrives jsonCrypto pairedHash (.eip155 1) [(1, sampleProtectedTx)] 1
      sampleProtectedTx := by
  obtain ⟨tx, htx⟩ : ∃ tx, tx = sampleProtectedTx := ⟨_, rfl⟩
  rw [← htx]
  have hsigned : jsonCrypto.sender (.eip155 1) tx = .ok 1024 := by
    rw [htx]
    decide +kernel
  have hfits : tx.JsonFits := by
    rw [htx]
    exact ⟨rfl, by decide, by decide +kernel, by decide +kernel⟩
  obtain ⟨heach, hmessage⟩ :=
    @json_keeps_signed_iff _ jsonCrypto pairedHash (.eip155 1) pairedHash_injective
  have hlookup {n : UInt32} {tx' : Transaction}
      (h : ((∅ : GoMap UInt32 Transaction).insert 1 tx).lookup n = some tx') : tx' = tx := by
    rcases GoMap.lookup_insert_cases h with ⟨-, rfl⟩ | ⟨-, h⟩
    · rfl
    · cases h
  have hrange : GoMap.IsRange ((∅ : GoMap UInt32 Transaction).insert 1 tx) [(1,tx)] :=
    GoMap.IsRange.cons_of_erase (GoMap.IsRange.nil_iff.mpr rfl)
  refine ⟨(heach tx 1024 hsigned).mpr hfits, ?_⟩
  refine (hmessage ⟨(∅ : GoMap UInt32 Transaction).insert 1 tx⟩ [] 0 [1] _ [(1,tx)] rfl hrange
    ?_).mpr ?_ 1 tx (Finmap.lookup_insert _)
  · rintro n tx' (h | ⟨txc, hmem, -⟩)
    · rw [hlookup h]
      exact ⟨1024, hsigned⟩
    · cases hmem
  · intro n tx' h
    rw [hlookup h]
    exact hfits

def markedTx : Transaction := { sampleExtendedTx with v := 165 }

/-- The signed transaction is refused, and nothing arrives. -/
theorem json_refuses_marked :
    jsonCrypto.sender (.eip155 1) markedTx = .ok 1024 ∧
    ¬ markedTx.JsonKeeps jsonCrypto pairedHash (.eip155 1) ∧
    ¬ Arrives jsonCrypto pairedHash (.eip155 1) [(1, markedTx)] 1 markedTx := by
  have hsigned : jsonCrypto.sender (.eip155 1) markedTx = .ok 1024 := by
    decide +kernel
  have hrefused (tx' : Transaction) :
      unmarshalJSON (markedTx.marshalJSON pairedHash) ≠ .ok tx' := by
    intro h
    exact absurd ((unmarshalJSON_marshalJSON hsigned).mp h).1.1 (by decide)
  refine ⟨hsigned, ?_, ?_⟩
  · rintro ⟨tx', hread, -⟩
    exact hrefused tx' hread
  · rintro ⟨tx', hlookup, -⟩
    rcases lookup_unmarshalTxMap hlookup with h | ⟨json, hmem, hread⟩
    · cases h
    · rw [wireEntries, map_cons, map_nil, mem_singleton] at hmem
      cases hmem
      exact hrefused tx' hread

end Sample

end NumberedTxs

end MatrixNode
