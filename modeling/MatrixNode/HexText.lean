import MatrixNode.CommonTypes

/-! `common/hexutil`: numbers and byte strings as hex texts. A number has no leading zeros and at
most 64 digits when it is read; it is written with as many as it needs. -/
namespace MatrixNode
open GoLib List

abbrev HexText := List Char

namespace HexText

def errSyntax : GoError := .error "invalid hex string"

def errMissingPrefix : GoError := .error "hex string without 0x prefix"

def errOddLength : GoError := .error "hex string of odd length"

def errEmptyNumber : GoError := .error "hex string \"0x\""

def errLeadingZero : GoError := .error "hex number with leading zero digits"

def errUint64Range : GoError := .error "hex number > 64 bits"

def errBig256Range : GoError := .error "hex number > 256 bits"

def decodeNibble (c : Char) : Option ℕ :=
  if '0' ≤ c ∧ c ≤ '9' then some (c.toNat - '0'.toNat)
  else if 'A' ≤ c ∧ c ≤ 'F' then some (c.toNat - 'A'.toNat + 10)
  else if 'a' ≤ c ∧ c ≤ 'f' then some (c.toNat - 'a'.toNat + 10)
  else none

def bytesHave0xPrefix : HexText → Bool
  | '0' :: c :: _ => c = 'x' || c = 'X'
  | _ => false

def checkText (input : HexText) : Except GoError HexText :=
  -- Empty strings are allowed.
  if input = [] then pure []
  else if bytesHave0xPrefix input = false then throw errMissingPrefix
  else if (input.drop 2).length%2 ≠ 0 then throw errOddLength
  else pure (input.drop 2)

def checkNumberText (input : HexText) : Except GoError HexText :=
  if input = [] then pure []
  else if bytesHave0xPrefix input = false then throw errMissingPrefix
  else if input.drop 2 = [] then throw errEmptyNumber
  else if 1 < (input.drop 2).length ∧ (input.drop 2).head? = some '0' then throw errLeadingZero
  else pure (input.drop 2)

def pushNibble (n : ℕ) (c : Char) : Except GoError ℕ :=
  match decodeNibble c with
  | none => throw errSyntax
  | some nib => pure (n*16+nib)

def unmarshalNumber (maxNibbles : ℕ) (errRange : GoError) (input : HexText) : Except GoError ℕ := do
  let raw ← checkNumberText input
  if maxNibbles < raw.length then throw errRange
  raw.foldlM pushNibble 0

def unmarshalBig : HexText → Except GoError ℕ := unmarshalNumber 64 errBig256Range

def unmarshalUint64 (input : HexText) : Except GoError UInt64 := do
  let n ← unmarshalNumber 16 errUint64Range input
  pure (UInt64.ofNat n)

def digits (n : ℕ) : HexText :=
  if n = 0 then ['0'] else (Nat.digits 16 n).reverse.map Nat.digitChar

def marshalBig (n : ℕ) : HexText := '0' :: 'x' :: digits n

def marshalUint64 (n : UInt64) : HexText := '0' :: 'x' :: digits n.toNat

def hexPair (c : UInt8) : HexText := [Nat.digitChar (c.toNat/16), Nat.digitChar (c.toNat%16)]

def marshalBytes (b : Bytes) : HexText := '0' :: 'x' :: b.flatMap hexPair

def decodePairs : HexText → Except GoError Bytes
  | [] => pure []
  | [_] => throw errOddLength
  | high :: low :: rest =>
    match decodeNibble high, decodeNibble low with
    | some x, some y => do
      let b ← decodePairs rest
      pure (UInt8.ofNat (x*16+y) :: b)
    | _, _ => throw errSyntax

def unmarshalBytes (input : HexText) : Except GoError Bytes := do
  let raw ← checkText input
  decodePairs raw

def unmarshalFixedText (typname : String) (len : ℕ) (input : HexText) : Except GoError Bytes := do
  let raw ← checkText input
  if raw.length/2 ≠ len then
    throw (.error ("hex string has length " ++ toString raw.length ++ ", want " ++
      toString (len*2) ++ " for " ++ typname))
  decodePairs raw

def marshalFixed {w : ℕ} (len : ℕ) (x : BitVec w) : HexText := marshalBytes (fixedBytes len x.toNat)

def unmarshalFixed (typname : String) (len w : ℕ) (input : HexText) : Except GoError (BitVec w) := do
  let b ← unmarshalFixedText typname len input
  pure (BitVec.ofNat w (beNat b))

def marshalAddress (a : Address) : HexText := marshalFixed 20 a

def unmarshalAddress : HexText → Except GoError Address := unmarshalFixed "common.Address" 20 160

section Numbers

theorem decodeNibble_digitChar {d : ℕ} (hd : d < 16) : decodeNibble (Nat.digitChar d) = some d := by
  interval_cases d <;> decide

theorem digitChar_eq_zero {d : ℕ} (hd : d < 16) (h : Nat.digitChar d = '0') : d = 0 := by
  have hnib := decodeNibble_digitChar hd
  rw [h] at hnib
  exact (Option.some.inj hnib).symm

theorem foldlM_pushNibble {ds : List ℕ} (hds : ∀ d ∈ ds, d < 16) (n : ℕ) :
    (ds.reverse.map Nat.digitChar).foldlM pushNibble n =
      .ok (n*16^ds.length+Nat.ofDigits 16 ds) := by
  induction ds generalizing n with
  | nil => simp
  | cons d ds ih =>
    have hd : d < 16 := hds d (mem_cons_self ..)
    have hrest : ∀ d ∈ ds, d < 16 := fun d' h => hds d' (mem_cons_of_mem _ h)
    rw [reverse_cons, map_append, foldlM_append, ih hrest]
    simp only [map_cons, map_nil, foldlM_cons, foldlM_nil, pushNibble,
      decodeNibble_digitChar hd, pure_eq_ok, ok_bind]
    rw [Nat.ofDigits_cons, length_cons]
    congr 1
    ring

theorem foldlM_digits (n : ℕ) : (digits n).foldlM pushNibble 0 = .ok n := by
  unfold digits
  split_ifs with hn
  · rw [hn]
    rfl
  · rw [foldlM_pushNibble (fun d hd => Nat.digits_lt_base (by norm_num) hd), Nat.ofDigits_digits,
      Nat.zero_mul, Nat.zero_add]

theorem digits_length_le_iff {n k : ℕ} (hk : 1 ≤ k) : (digits n).length ≤ k ↔ n < 16^k := by
  unfold digits
  split_ifs with hn
  · rw [hn]
    exact iff_of_true hk (by positivity)
  · rw [length_map, length_reverse]
    exact Nat.digits_length_le_iff (by norm_num) n

theorem checkNumberText_digits (n : ℕ) : checkNumberText ('0' :: 'x' :: digits n) = .ok (digits n) := by
  have hne : digits n ≠ [] := by
    unfold digits
    split_ifs with hn
    · exact cons_ne_nil _ _
    · simpa [Nat.digits_ne_nil_iff_ne_zero] using hn
  have hlead : ¬ (1 < (digits n).length ∧ (digits n).head? = some '0') := by
    rintro ⟨hlen, hhead⟩
    unfold digits at hlen hhead
    split_ifs at hlen hhead with hn
    · exact absurd hlen (by decide)
    · rw [head?_map, head?_reverse] at hhead
      obtain ⟨d, hd, hzero⟩ := Option.map_eq_some_iff.mp hhead
      have hmem : d ∈ Nat.digits 16 n := mem_of_getLast? hd
      have hlast := Nat.getLast_digit_ne_zero 16 hn
      rw [getLast?_eq_some_getLast (Nat.digits_ne_nil_iff_ne_zero.mpr hn), Option.some.injEq] at hd
      exact hlast (hd.trans (digitChar_eq_zero (Nat.digits_lt_base (by norm_num) hmem) hzero))
  simp only [checkNumberText, drop_succ_cons, drop_zero, bytesHave0xPrefix]
  rw [if_neg (cons_ne_nil _ _), if_neg hne, if_neg hlead]
  rfl

theorem unmarshalNumber_digits {maxNibbles : ℕ} (hmax : 1 ≤ maxNibbles) (errRange : GoError) (n : ℕ) :
    unmarshalNumber maxNibbles errRange ('0' :: 'x' :: digits n) =
      if n < 16^maxNibbles then .ok n else .error errRange := by
  have hlen : maxNibbles < (digits n).length ↔ ¬ n < 16^maxNibbles := by
    rw [← digits_length_le_iff hmax, not_le]
  unfold unmarshalNumber
  rw [checkNumberText_digits, ok_bind]
  by_cases hn : n < 16^maxNibbles
  · rw [if_pos hn, if_neg (fun h => hlen.mp h hn)]
    exact foldlM_digits n
  · rw [if_neg hn, if_pos (hlen.mpr hn)]
    rfl

theorem unmarshalBig_marshalBig (n : ℕ) :
    unmarshalBig (marshalBig n) = if n < 2^256 then .ok n else .error errBig256Range := by
  have hpow : (16 : ℕ)^64 = 2^256 := by norm_num
  rw [unmarshalBig, marshalBig, unmarshalNumber_digits (by norm_num), hpow]

theorem unmarshalUint64_marshalUint64 (n : UInt64) : unmarshalUint64 (marshalUint64 n) = .ok n := by
  have hlt : n.toNat < 16^16 := n.toNat_lt
  rw [unmarshalUint64, marshalUint64, unmarshalNumber_digits (by norm_num), if_pos hlt, ok_bind,
    UInt64.ofNat_toNat]
  rfl

end Numbers

section Strings

variable (b : Bytes)

theorem decodePairs_flatMap : decodePairs (b.flatMap hexPair) = .ok b := by
  induction b with
  | nil => rfl
  | cons c b ih =>
    have hc := c.toNat_lt
    have hhigh := decodeNibble_digitChar (d := c.toNat/16) (by omega)
    have hlow := decodeNibble_digitChar (d := c.toNat%16) (by omega)
    have hbyte : UInt8.ofNat (c.toNat/16*16+c.toNat%16) = c := by
      rw [Nat.div_add_mod', UInt8.ofNat_toNat]
    simp only [flatMap_cons, hexPair, cons_append, nil_append, decodePairs, hhigh,
      hlow, ih, ok_bind, hbyte, pure_eq_ok]

theorem flatMap_hexPair_length : (b.flatMap hexPair).length = 2*b.length := by
  induction b with
  | nil => rfl
  | cons c b ih =>
    rw [flatMap_cons, length_append, length_cons, hexPair]
    simp only [length_cons, length_nil]
    omega

theorem checkText_marshalBytes : checkText (marshalBytes b) = .ok (b.flatMap hexPair) := by
  have hlen := flatMap_hexPair_length b
  simp only [checkText, marshalBytes, drop_succ_cons, drop_zero, bytesHave0xPrefix]
  rw [if_neg (cons_ne_nil _ _), if_neg (by decide), if_neg (by omega)]
  rfl

theorem unmarshalBytes_marshalBytes : unmarshalBytes (marshalBytes b) = .ok b := by
  rw [unmarshalBytes, checkText_marshalBytes]
  exact decodePairs_flatMap b

theorem unmarshalFixedText_marshalBytes (typname : String) (b : Bytes) :
    unmarshalFixedText typname b.length (marshalBytes b) = .ok b := by
  have hlen := flatMap_hexPair_length b
  unfold unmarshalFixedText
  rw [checkText_marshalBytes, ok_bind, if_neg (by omega)]
  exact decodePairs_flatMap b

theorem unmarshalFixed_marshalFixed (typname : String) {len w : ℕ} (hw : w = 8*len) (x : BitVec w) :
    unmarshalFixed typname len w (marshalFixed len x) = .ok x := by
  have hpow : 2^w = 256^len := by
    rw [hw, pow_mul]
    norm_num
  have hlen : (fixedBytes len x.toNat).length = len := length_fixedBytes (hpow ▸ x.isLt)
  have hfixed := unmarshalFixedText_marshalBytes typname (fixedBytes len x.toNat)
  rw [hlen] at hfixed
  rw [unmarshalFixed, marshalFixed, hfixed, ok_bind, beNat_fixedBytes, BitVec.ofNat_toNat,
    BitVec.setWidth_eq]
  rfl

theorem unmarshalAddress_marshalAddress (a : Address) :
    unmarshalAddress (marshalAddress a) = .ok a :=
  unmarshalFixed_marshalFixed _ (by norm_num) a

end Strings

end HexText

end MatrixNode
