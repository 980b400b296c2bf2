import Mathlib.Data.Nat.Digits.Lemmas
import Mathlib.Tactic

/-! Byte strings of a Go program: big-endian integers, slice expressions, and the
two ways in which a call can fail to return a value. -/
namespace GoLib
open List

/-- A returned error and a run-time panic are told apart: only the first is
something a caller can handle. -/
inductive GoError where
  | error (msg : String)
  | panic (msg : String)
  deriving DecidableEq

def GoError.text : GoError → String
  | .error msg => msg
  | .panic msg => msg

def nilDereference : GoError := .panic "invalid memory address or nil pointer dereference"

def indexOutOfRange : GoError := .panic "index out of range"

section Except
variable {ε α β : Type}

@[simp] theorem ok_bind (a : α) (f : α → Except ε β) : (Except.ok a >>= f) = f a := rfl

@[simp] theorem error_bind (e : ε) (f : α → Except ε β) : (Except.error e >>= f) = .error e := rfl

@[simp] theorem throw_eq_error (e : ε) : (throw e : Except ε α) = .error e := rfl

@[simp] theorem pure_eq_ok (a : α) : (pure a : Except ε α) = .ok a := rfl

variable {x : Except ε α}

variable {f : α → Except ε β}

theorem bind_eq_ok_iff {b : β} : (x >>= f) = .ok b ↔ ∃ a, x = .ok a ∧ f a = .ok b := by
  cases x <;> simp

theorem bind_eq_error_iff {e : ε} :
    (x >>= f) = .error e ↔ x = .error e ∨ ∃ a, x = .ok a ∧ f a = .error e := by
  cases x <;> simp

theorem exists_ok_of_map_toOption {f : α → β} {b : β} (h : x.toOption.map f = some b) :
    ∃ a, x = .ok a ∧ f a = b := by
  cases x with
  | error e => cases h
  | ok a => exact ⟨a, rfl, Option.some.inj h⟩

@[simp] theorem ite_error_eq_ok {c : Prop} [Decidable c] {e : ε} {a : α} :
    (if c then .error e else x) = .ok a ↔ ¬ c ∧ x = .ok a := by
  split_ifs with h <;> simp [h]

end Except

def beNat (b : List UInt8) : ℕ := b.foldl (fun n c => n*256+c.toNat) 0

def beBytes (n : ℕ) : List UInt8 := (Nat.digits 256 n).reverse.map UInt8.ofNat

def fixedBytes (len n : ℕ) : List UInt8 := replicate (len-(beBytes n).length) 0 ++ beBytes n

def sliceTo (b : List UInt8) (n : ℕ) : Except GoError (List UInt8) :=
  if n ≤ b.length then .ok (b.take n) else .error (.panic "slice bounds out of range")

def updateByte (b : List UInt8) (i : ℕ) (f : UInt8 → UInt8) : Except GoError (List UInt8) :=
  if i < b.length then .ok (b.modify i f) else .error indexOutOfRange

def byteAt (b : List UInt8) (i : ℕ) : Except GoError UInt8 :=
  match b[i]? with
  | some c => .ok c
  | none => .error indexOutOfRange

variable (b : List UInt8) (n : ℕ)

theorem beNat_fold : b.foldl (fun n c => n*256+c.toNat) n = n*256^b.length+beNat b := by
  induction b generalizing n with
  | nil => simp [beNat]
  | cons c b ih =>
    have hc : beNat (c :: b) = (0*256+c.toNat)*256^b.length+beNat b := ih (0*256+c.toNat)
    rw [foldl_cons, ih, hc, length_cons, pow_succ]
    ring

@[simp] theorem beNat_nil : beNat [] = 0 := rfl

theorem beNat_cons (c : UInt8) (b : List UInt8) :
    beNat (c :: b) = c.toNat*256^b.length+beNat b := by
  rw [beNat, foldl_cons, beNat_fold]
  simp

theorem beNat_append (a b : List UInt8) : beNat (a ++ b) = beNat a*256^b.length+beNat b := by
  rw [beNat, foldl_append, beNat_fold]
  rfl

theorem beNat_lt : beNat b < 256^b.length := by
  induction b with
  | nil => simp
  | cons c b ih =>
    have hc : c.toNat+1 ≤ 256 := c.toNat_lt
    rw [beNat_cons, length_cons, pow_succ]
    calc
      _ < c.toNat*256^b.length+256^b.length := by omega
      _ = (c.toNat+1)*256^b.length := by ring
      _ ≤ 256*256^b.length := Nat.mul_le_mul_right _ hc
      _ = _ := by ring

theorem beNat_replicate_zero : beNat (replicate n 0) = 0 := by
  induction n with
  | zero => rfl
  | succ n ih => rw [replicate_succ, beNat_cons, ih]; simp

theorem beNat_drop : beNat (b.drop n) = beNat b%256^(b.length-n) := by
  have hb : beNat b = beNat (b.take n)*256^(b.length-n)+beNat (b.drop n) := by
    conv_lhs => rw [← take_append_drop n b]
    rw [beNat_append, length_drop]
  have hl : beNat (b.drop n) < 256^(b.length-n) := by
    simpa only [length_drop] using beNat_lt (b.drop n)
  rw [hb, Nat.add_comm, Nat.add_mul_mod_self_right, Nat.mod_eq_of_lt hl]

theorem beNat_beBytes : beNat (beBytes n) = n := by
  have hr (l : List ℕ) (hl : ∀ d ∈ l, d < 256) :
      beNat (l.reverse.map UInt8.ofNat) = Nat.ofDigits 256 l := by
    induction l with
    | nil => rfl
    | cons d l ih =>
      have hd : (UInt8.ofNat d).toNat = d := by
        simpa using Nat.mod_eq_of_lt (hl d (by simp))
      rw [reverse_cons, map_append, beNat_append, ih (fun e he => hl e (by simp [he])),
        Nat.ofDigits_cons]
      simp only [map_cons, map_nil, length_singleton, pow_one, beNat_cons,
        length_nil, pow_zero, beNat_nil, hd]
      ring
  rw [beBytes, hr _ (fun d hd => Nat.digits_lt_base (by norm_num) hd), Nat.ofDigits_digits]

theorem beBytes_length_le_iff (k : ℕ) : (beBytes n).length ≤ k ↔ n < 256^k := by
  rw [beBytes, length_map, length_reverse]
  exact Nat.digits_length_le_iff (by norm_num) n

theorem length_fixedBytes {len n : ℕ} (h : n < 256^len) : (fixedBytes len n).length = len := by
  have hle := (beBytes_length_le_iff n len).mpr h
  rw [fixedBytes, length_append, length_replicate]
  omega

theorem beNat_fixedBytes (len n : ℕ) : beNat (fixedBytes len n) = n := by
  rw [fixedBytes, beNat_append, beNat_replicate_zero, beNat_beBytes, Nat.zero_mul, Nat.zero_add]

theorem updateByte_last {b : List UInt8} {i : ℕ} (f : UInt8 → UInt8) (c : UInt8) (h : b.length = i) :
    updateByte (b ++ [c]) i f = .ok (b ++ [f c]) := by
  subst h
  rw [updateByte, if_pos (by simp), modify_eq_set_getElem?]
  simp

theorem byteAt_last {b : List UInt8} {i : ℕ} (c : UInt8) (h : b.length = i) :
    byteAt (b ++ [c]) i = .ok c := by
  subst h
  simp [byteAt]

/-- An integer as a number of type `int64`. -/
def int64 (x : ℤ) : ℤ := x.bmod (2^64)

section Int64

theorem int64_sub_int64 (x y : ℤ) : int64 (int64 x-y) = int64 (x-y) := Int.bmod_sub_bmod

theorem int64_sub_of_int64 (x y : ℤ) : int64 (x-int64 y) = int64 (x-y) := Int.sub_bmod_bmod

theorem int64_add_int64 (x y : ℤ) : int64 (int64 x+y) = int64 (x+y) := Int.bmod_add_bmod

theorem int64_add_of_int64 (x y : ℤ) : int64 (x+int64 y) = int64 (x+y) := Int.add_bmod_bmod

theorem int64_eq_self {x : ℤ} (hlow : -2^63 ≤ x) (hhigh : x < 2^63) : int64 x = x := by
  apply Int.bmod_eq_of_le <;> norm_num <;> omega

theorem int64_lt (x : ℤ) : int64 x < 2^63 := by
  have h : int64 x < ((2^64 : ℕ)+1)/2 := Int.bmod_lt (by norm_num)
  omega

end Int64

end GoLib
