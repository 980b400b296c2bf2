import MatrixNode.CommonTypes

/-! `rlp/encode.go`: the encoder builds a writer for the type of a value before it
writes a byte, and `types.RlpHash` hashes what was written, whatever the outcome. -/
namespace MatrixNode
open GoLib

/-- The types that reflection shows the encoder. A struct is the list of the types
of its exported fields. -/
inductive GoType where
  | uint (bits : ℕ)
  | int (name : String)
  | bool
  | string
  | bigInt
  | interface
  | encoder
  | other (name : String)
  | slice (elem : GoType)
  | array (len : ℕ) (elem : GoType)
  | ptr (elem : GoType)
  | struct (fields : List GoType)

/-- A value with its type. Byte slices and byte arrays are kept apart from other
sequences, and a value with its own `EncodeRLP` is the bytes that it writes. -/
inductive GoVal where
  | uint (bits n : ℕ)
  | int (name : String) (i : ℤ)
  | bool (b : Bool)
  | string (s : Bytes)
  | bigInt (i : ℤ)
  | bytes (b : Bytes)
  | byteArray (len : ℕ) (b : Bytes)
  | interface (v : Option GoVal)
  | encoder (b : Bytes)
  | other (name : String)
  | slice (elem : GoType) (vs : List GoVal)
  | array (elem : GoType) (vs : List GoVal)
  | ptr (elem : GoType) (v : Option GoVal)
  | struct (fields : List GoVal)

def GoVal.typeOf : GoVal → GoType
  | .uint bits _ => .uint bits
  | .int name _ => .int name
  | .bool _ => .bool
  | .string _ => .string
  | .bigInt _ => .bigInt
  | .bytes _ => .slice (.uint 8)
  | .byteArray len _ => .array len (.uint 8)
  | .interface _ => .interface
  | .encoder _ => .encoder
  | .other name => .other name
  | .slice elem _ => .slice elem
  | .array elem vs => .array vs.length elem
  | .ptr elem _ => .ptr elem
  | .struct fields => .struct (typesOf fields)
where
  typesOf : List GoVal → List GoType
    | [] => []
    | v :: vs => v.typeOf :: typesOf vs

def GoType.isByte : GoType → Bool
  | .uint bits => bits == 8
  | _ => false

/-- Whether a writer can be made for a type: every type it is built from is walked,
struct fields in their order. -/
def makeWriter : GoType → Except GoError Unit
  | .encoder | .interface | .bigInt | .uint _ | .bool | .string => pure ()
  | .slice elem => if elem.isByte then pure () else makeWriter elem
  | .array _ elem => if elem.isByte then pure () else makeWriter elem
  | .struct fields => makeStructWriter fields
  | .ptr elem => makeWriter elem
  | .int name | .other name => throw (.error ("rlp: type " ++ name ++ " is not RLP-serializable"))
where
  makeStructWriter : List GoType → Except GoError Unit
    | [] => pure ()
    | typ :: fields => do
      makeWriter typ
      makeStructWriter fields

structure ListHead where
  offset : ℕ
  size : ℕ

/-- The encoder's buffer: list headers are only put between the string data when
all sizes are known. -/
structure EncBuf where
  str : Bytes := []
  lheads : List ListHead := []
  lhsize : ℕ := 0

namespace EncBuf
variable (w : EncBuf)

def size : ℕ := w.str.length+w.lhsize

def append (b : Bytes) : EncBuf := { w with str := w.str ++ b }

def list : EncBuf × ℕ :=
  ({ w with lheads := w.lheads ++ [⟨w.str.length, w.lhsize⟩] }, w.lheads.length)

def puthead (smalltag largetag : UInt8) (size : ℕ) : Bytes :=
  if size < 56 then [smalltag+UInt8.ofNat size]
  else (largetag+UInt8.ofNat (beBytes size).length) :: beBytes size

def headsize (size : ℕ) : ℕ :=
  if size < 56 then 1 else 1+(beBytes size).length

def listEnd (lh : ℕ) : EncBuf :=
  match w.lheads[lh]? with
  | none => w
  | some head =>
    let size := w.size-head.offset-head.size
    { w with
      lheads := w.lheads.set lh ⟨head.offset, size⟩
      lhsize := w.lhsize+headsize size }

def encodeString (b : Bytes) : EncBuf :=
  match b with
  | [c] => if c ≤ 0x7F then w.append [c] else w.append (puthead 0x80 0xB7 1 ++ [c])
  | b => w.append (puthead 0x80 0xB7 b.length ++ b)

def toBytes : Bytes :=
  let r := w.lheads.foldl (fun (out,strpos) head =>
    (out ++ (w.str.take head.offset).drop strpos ++ puthead 0xC0 0xF7 head.size,
      max strpos head.offset)) (([],0) : Bytes × ℕ)
  r.1 ++ w.str.drop r.2

def writeUint (i : ℕ) : EncBuf :=
  if i = 0 then w.append [0x80]
  else if i < 128 then w.append [UInt8.ofNat i]
  else w.append ((0x80+UInt8.ofNat (beBytes i).length) :: beBytes i)

def writeBigInt (i : ℤ) : Except GoError EncBuf :=
  if i < 0 then throw (.error "rlp: cannot encode negative *big.Int")
  else if i = 0 then pure (w.append [0x80])
  else pure (w.encodeString (beBytes i.toNat))

/-- What a nil pointer to the type writes: a struct or an array is not expanded, of
anything else the zero value is written. -/
def writeNil (w : EncBuf) : GoType → EncBuf
  | .array _ elem =>
    if elem.isByte then w.append [0x80]
    else let (w,lh) := w.list; w.listEnd lh
  | .slice elem =>
    if elem.isByte then w.append [0x80]
    else let (w,lh) := w.list; w.listEnd lh
  | .struct _ => let (w,lh) := w.list; w.listEnd lh
  | .interface => w.append [0xC0]
  | .ptr elem => w.writeNil elem
  | _ => w.append [0x80]

def inList (body : EncBuf → Except GoError EncBuf) (w : EncBuf) : Except GoError EncBuf := do
  let (w,lh) := w.list
  let w ← body w
  pure (w.listEnd lh)

def write : GoVal → EncBuf → Except GoError EncBuf
  | .uint _ n, w => pure (w.writeUint n)
  | .bool b, w => pure (w.append [if b then 0x01 else 0x80])
  | .string s, w => pure (w.encodeString s)
  | .bigInt i, w => w.writeBigInt i
  | .bytes b, w => pure (w.encodeString b)
  | .byteArray _ b, w => pure (w.encodeString b)
  | .interface none, w => pure (w.append [0xC0])
  | .interface (some v), w => do
    makeWriter v.typeOf
    write v w
  | .encoder b, w => pure (w.append b)
  | .slice _ vs, w => inList (writeAll vs) w
  | .array _ vs, w => inList (writeAll vs) w
  | .ptr elem none, w => pure (w.writeNil elem)
  | .ptr _ (some v), w => write v w
  | .struct fields, w => inList (writeAll fields) w
  -- No writer exists for these two, so `makeWriter` has failed before.
  | .int name _, _ | .other name, _ => throw (.panic ("no writer for " ++ name))
where
  writeAll : List GoVal → EncBuf → Except GoError EncBuf
    | [], w => pure w
    | v :: vs, w => do
      let w ← write v w
      writeAll vs w

end EncBuf

def rlpEncode (v : GoVal) : Except GoError Bytes := do
  makeWriter v.typeOf
  let w ← EncBuf.write v {}
  pure w.toBytes

/-- `types.RlpHash`: the error of the encoder is dropped, and on an error nothing has
reached the hash. -/
def rlpHash {Hash : Type} (keccak256 : Bytes → Hash) (v : GoVal) : Hash :=
  match rlpEncode v with
  | .ok b => keccak256 b
  | .error _ => keccak256 []

def Serializable (t : GoType) : Prop := makeWriter t = .ok ()

section Serializable

theorem not_serializable_int (name : String) : ¬ Serializable (.int name) := by
  intro h
  cases h

theorem serializable_ptr_iff (t : GoType) : Serializable (.ptr t) ↔ Serializable t := Iff.rfl

theorem serializable_struct_iff (fields : List GoType) :
    Serializable (.struct fields) ↔ ∀ t ∈ fields, Serializable t := by
  change makeWriter.makeStructWriter fields = .ok () ↔ _
  induction fields with
  | nil => simp [makeWriter.makeStructWriter]
  | cons t fields ih =>
    rw [makeWriter.makeStructWriter, bind_eq_ok_iff, List.forall_mem_cons, ← ih]
    constructor
    · rintro ⟨⟨⟩, ht, hf⟩
      exact ⟨ht, hf⟩
    · rintro ⟨ht, hf⟩
      exact ⟨(), ht, hf⟩

theorem rlpHash_of_not_serializable {Hash : Type} (keccak256 : Bytes → Hash) {v : GoVal}
    (h : ¬ Serializable v.typeOf) : rlpHash keccak256 v = keccak256 [] := by
  unfold rlpHash rlpEncode
  rcases hw : makeWriter v.typeOf with e | u
  · rfl
  · exact absurd hw h

end Serializable

example : rlpEncode (.struct [.uint 64 1024, .slice .string [.string [0x63], .string []]]) =
    .ok [0xC6, 0x82, 0x04, 0x00, 0xC2, 0x63, 0x80] := by
  decide +kernel

end MatrixNode
