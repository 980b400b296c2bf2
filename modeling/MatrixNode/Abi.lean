import Mathlib.Data.Nat.Size
import MatrixNode.CommonTypes

/-! `accounts/abi`: the argument and result encodings that the deposit contract uses. -/
namespace MatrixNode
open GoLib List

def addressBytes (addr : Address) : Bytes := fixedBytes 20 addr.toNat

def bytesToAddress (b : Bytes) : Address :=
  BitVec.ofNat 160 (beNat (if 20 < b.length then b.drop (b.length-20) else b))

def wordAt (output : Bytes) (index : ℕ) : ℕ := beNat ((output.drop index).take 32)

def lengthPrefixPointsTo (index : ℕ) (output : Bytes) : Except GoError (ℕ × ℕ) :=
  let outputLength := output.length
  let offsetEnd := wordAt output index+32
  let length := wordAt output (offsetEnd-32)
  let totalSize := offsetEnd+length
  if outputLength < offsetEnd then
    .error (.error s!"abi: cannot marshal in to go slice: offset {offsetEnd} would go over slice boundary (len={outputLength})")
  else if 63 < Nat.size offsetEnd then
    .error (.error s!"abi offset larger than int64: {offsetEnd}")
  else if 63 < Nat.size totalSize then
    .error (.error s!"abi length larger than int64: {totalSize}")
  else if outputLength < totalSize then
    .error (.error s!"abi: cannot marshal in to go type: length insufficient {outputLength} require {totalSize}")
  else .ok (offsetEnd, length)

def errInsufficient (length required : ℕ) : GoError :=
  .error s!"abi: cannot marshal in to go type: length insufficient {length} require {required}"

def unpackBytes (data : Bytes) : Except GoError Bytes :=
  if data.length < 32 then .error (errInsufficient data.length 32)
  else do
    let (start, length) ← lengthPrefixPointsTo 0 data
    pure ((data.drop start).take length)

def unpackAddress (data : Bytes) : Except GoError Address :=
  if data.length < 32 then .error (errInsufficient data.length 32)
  else .ok (bytesToAddress (data.take 32))

def packNum (n : ℕ) : Bytes := fixedBytes 32 (n%2^256)

/-- The padding is computed from `l`, which for a list is its number of elements. -/
def packBytesSlice (bytes : Bytes) (l : ℕ) : Bytes :=
  packNum l ++ (bytes ++ replicate ((l+31)/32*32-bytes.length) 0)

def packBytes (bytes : Bytes) : Bytes := packNum 32 ++ packBytesSlice bytes bytes.length

def packAddresses (addrs : List Address) : Bytes :=
  packNum 32 ++ packBytesSlice (addrs.flatMap (fun a => fixedBytes 32 a.toNat)) addrs.length

theorem length_packNum (n : ℕ) : (packNum n).length = 32 := by
  have h : n%2^256 < 256^32 := by
    have := Nat.mod_lt n (show 0 < 2^256 by norm_num)
    norm_num at this ⊢
    exact this
  exact length_fixedBytes h

theorem beNat_packNum {n : ℕ} (h : n < 2^256) : beNat (packNum n) = n := by
  rw [packNum, Nat.mod_eq_of_lt h, beNat_fixedBytes]

theorem wordAt_packNum {n : ℕ} (h : n < 2^256) (front rest : Bytes) :
    wordAt (front ++ (packNum n ++ rest)) front.length = n := by
  have hl : (packNum n).length = 32 := length_packNum n
  rw [wordAt, drop_left, take_left' hl, beNat_packNum h]

/-- The first word is the offset of the length, the second one the length. -/
theorem unpackBytes_packBytes {bytes : Bytes} (h : bytes.length < 2^62) :
    unpackBytes (packBytes bytes) = .ok bytes := by
  have hp : (packNum 32).length = 32 := length_packNum 32
  have hq : (packNum bytes.length).length = 32 := length_packNum _
  have hoff : wordAt (packBytes bytes) 0 = 32 := by
    have := wordAt_packNum (n := 32) (by norm_num) [] (packBytesSlice bytes bytes.length)
    rwa [nil_append] at this
  have hlen : wordAt (packBytes bytes) 32 = bytes.length := by
    have := wordAt_packNum (n := bytes.length) (by omega) (packNum 32)
      (bytes ++ replicate ((bytes.length+31)/32*32-bytes.length) 0)
    rwa [hp] at this
  have htotal : 64+bytes.length ≤ (packBytes bytes).length := by
    simp only [packBytes, packBytesSlice, length_append, hp, hq]
    omega
  have hpoint : lengthPrefixPointsTo 0 (packBytes bytes) = .ok (64, bytes.length) := by
    have h1 : Nat.size (32+32) ≤ 63 := Nat.size_le.mpr (by norm_num)
    have h2 : Nat.size (32+32+bytes.length) ≤ 63 := Nat.size_le.mpr (by omega)
    simp only [lengthPrefixPointsTo, hoff, Nat.add_sub_cancel, hlen]
    rw [if_neg (by omega), if_neg (by omega), if_neg (by omega), if_neg (by omega)]
  have hdrop : (packBytes bytes).drop 64 =
      bytes ++ replicate ((bytes.length+31)/32*32-bytes.length) 0 := by
    rw [packBytes, packBytesSlice, ← append_assoc, drop_left' (by simp [hp, hq])]
  rw [unpackBytes, if_neg (by omega), hpoint]
  change Except.ok (((packBytes bytes).drop 64).take bytes.length) = _
  rw [hdrop, take_left]

end MatrixNode
