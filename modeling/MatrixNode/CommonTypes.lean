import MatrixNode.GoBytes

/-! Fixed-size byte arrays, roles and block-number arithmetic of package `common`.
A `[n]byte` is a bit vector: its big-endian value. -/
namespace MatrixNode
open GoLib

abbrev Bytes := List UInt8

abbrev Address := BitVec 160

instance : LawfulBEq Address := inferInstance

abbrev Signature := BitVec 520

/-- `common.BytesToHash`: a longer string is cropped from the left, a shorter one
is padded there. -/
def bytesToHash (b : Bytes) : BitVec 256 :=
  BitVec.ofNat 256 (beNat (if 32 < b.length then b.drop (b.length-32) else b))

inductive RoleType where
  | nil
  | default
  | bucket
  | backupMiner
  | miner
  | innerMiner
  | backupValidator
  | validator
  | backupBroadcast
  | broadcast
  deriving DecidableEq

def nonceAddOne : UInt64 := 0x0010000000000000

def broadcastInterval : ℕ := 20

def reelectionInterval : ℕ := 60

def isBroadcastNumber (number : ℕ) : Bool := number%broadcastInterval == 0

def isReElectionNumber (number : ℕ) : Bool := number%reelectionInterval == 0

structure VerifiedSign where
  sign : Signature
  account : Address
  validate : Bool
  stock : UInt16
  deriving DecidableEq

theorem bytesToHash_toNat (b : Bytes) : (bytesToHash b).toNat = beNat b%2^256 := by
  rw [bytesToHash, BitVec.toNat_ofNat]
  split_ifs with hb
  · have hl : b.length-(b.length-32) = 32 := by omega
    rw [beNat_drop, hl]
    norm_num
  · rfl

theorem isBroadcastNumber_iff (n : ℕ) : isBroadcastNumber n = true ↔ 20 ∣ n := by
  simp only [isBroadcastNumber, broadcastInterval, beq_iff_eq]
  exact (Nat.dvd_iff_mod_eq_zero).symm

theorem isReElectionNumber_iff (n : ℕ) : isReElectionNumber n = true ↔ 60 ∣ n := by
  simp only [isReElectionNumber, reelectionInterval, beq_iff_eq]
  exact (Nat.dvd_iff_mod_eq_zero).symm

theorem isBroadcastNumber_of_isReElectionNumber {n : ℕ} (h : isReElectionNumber n = true) :
    isBroadcastNumber n = true := by
  rw [isBroadcastNumber_iff]
  rw [isReElectionNumber_iff] at h
  exact Nat.dvd_trans (by norm_num) h

theorem isBroadcastNumber_of_succ {n : ℕ} (h : isBroadcastNumber (n+1) = true) :
    isBroadcastNumber n = false := by
  rw [isBroadcastNumber_iff] at h
  rw [← Bool.not_eq_true, isBroadcastNumber_iff]
  omega

end MatrixNode
