import MatrixNode.GoMap

/-! `encoding/json`: how a document is read into Go values. A mismatch of types is remembered and
reading goes on; an error of a value's own method ends it. What was read before stays: a name that
an object gives twice is read twice into the same place. -/
namespace GoLib

/-- A JSON document. Numbers without fraction and exponent are told apart from the others, and a
string says if it is written with escapes. -/
inductive Json where
  | null
  | bool (b : Bool)
  | integer (negative : Bool) (n : ℕ)
  | float (literal : List Char)
  | string (text : List Char) (escaped : Bool)
  | array (items : List Json)
  | object (members : List (List Char × Json))

/-- A byte string as the library sees it: no document if it is not JSON. -/
abbrev JsonText := Option Json

namespace Json

def kind : Json → String
  | .null => "null"
  | .bool _ => "bool"
  | .integer .. => "number"
  | .float _ => "number"
  | .string .. => "string"
  | .array _ => "array"
  | .object _ => "object"

def text (s : String) : Json := .string s.toList false

/-- Two letters outside of ASCII fold to `s` and `k`. -/
def foldChar (c : Char) : Char :=
  if c = Char.ofNat 0x17F then 's' else if c = Char.ofNat 0x212A then 'k' else c.toLower

/-- Names of struct fields are compared without regard to case. -/
def foldName (name : List Char) : List Char := name.map foldChar

def valuesOf (name : String) (members : List (List Char × Json)) : List Json :=
  members.filterMap fun m => if foldName m.1 = foldName name.toList then some m.2 else none

def members : Json → List (List Char × Json)
  | .object members => members
  | _ => []

def values (name : String) : JsonText → List Json
  | some j => valuesOf name j.members
  | none => []

/-- The value that counts, unless it is read into what earlier ones left. -/
def given (name : String) (data : JsonText) : Option Json := (values name data).getLast?

def listed (name : String) (data : JsonText) : List Json :=
  match given name data with
  | some (.array items) => items
  | _ => []

def fillSlots : List (List Json) → List Json → List (List Json)
  | slots, [] => slots
  | slots, j :: items => (slots.headD [] ++ [j]) :: fillSlots slots.tail items

/-- A shorter array leaves the elements behind its end as they are, for a longer one to come. Null
and the empty array make the slice a new one. -/
def keepSlots (slots : List (List Json)) : Json → List (List Json)
  | .null => []
  | .array [] => []
  | .array items => fillSlots slots items
  | _ => slots

def slots (docs : List Json) : List (List Json) := docs.foldl keepSlots []

def slotsOf (docs : List Json) : List (List Json) :=
  match docs.getLast? with
  | some (.array items) => (slots docs).take items.length
  | _ => []

def sinceNull (docs : List Json) : List Json :=
  docs.foldl (fun kept j => match j with
    | .null => []
    | j => kept ++ [j]) []

end Json

def cannotUnmarshal (value goType : String) : GoError :=
  .error ("json: cannot unmarshal " ++ value ++ " into Go value of type " ++ goType)

def errJsonSyntax : GoError := .error "invalid character"

/-- What reading leaves: the value, the first mismatch, and the error that ended it. -/
structure Decoded (α : Type) where
  value : α
  saved : Option GoError
  stopped : Option GoError

/-- Reads a document into a value that is there already. The list has the documents that were read
into the same place before, since it was new. -/
abbrev Decoder (α : Type) := List Json → α → Json → Decoded α

namespace Decoded
variable {α β : Type}

def ok (a : α) : Decoded α := ⟨a, none, none⟩

def mismatch (a : α) (j : Json) (goType : String) : Decoded α :=
  ⟨a, some (cannotUnmarshal j.kind goType), none⟩

def map (f : α → β) (d : Decoded α) : Decoded β := ⟨f d.value, d.saved, d.stopped⟩

def andThen (d : Decoded α) (next : α → Decoded α) : Decoded α :=
  match d.stopped with
  -- Nothing more is read, and what is there stays.
  | some _ => d
  | none => { next d.value with saved := d.saved <|> (next d.value).saved }

/-- The error that `Unmarshal` returns. -/
def error (d : Decoded α) : Option GoError := d.stopped <|> d.saved

@[simp] theorem error_map (f : α → β) (d : Decoded α) : (d.map f).error = d.error := rfl

variable {d : Decoded α}

theorem error_eq_none_iff : d.error = none ↔ d.stopped = none ∧ d.saved = none := by
  cases hs : d.stopped <;> simp [error, hs]

variable {next : α → Decoded α}

theorem error_andThen :
    (d.andThen next).error = none ↔ d.error = none ∧ (next d.value).error = none := by
  rw [error_eq_none_iff, error_eq_none_iff, error_eq_none_iff]
  cases hs : d.stopped with
  | some e => simp [andThen, hs]
  | none =>
    cases hd : d.saved <;> simp [andThen, hs, hd]

theorem andThen_ok (a : α) (next : α → Decoded α) : (ok a).andThen next = next a := by
  rw [andThen, ok]
  cases next a
  rfl

theorem andThen_assoc (d : Decoded α) (f g : α → Decoded α) :
    (d.andThen f).andThen g = d.andThen fun a => (f a).andThen g := by
  cases hd : d.stopped with
  | some e => simp [andThen, hd]
  | none =>
    cases hf : (f d.value).stopped with
    | some e => simp [andThen, hd, hf]
    | none => cases hs : d.saved <;> simp [andThen, hd, hf, hs]

theorem value_andThen (h : d.error = none) : (d.andThen next).value = (next d.value).value := by
  rw [andThen, (error_eq_none_iff.mp h).1]

end Decoded

namespace Decoder
open Decoded
variable {α β : Type}

def ofUnmarshalJSON (read : α → Json → Except GoError α) : Decoder α := fun _ a j =>
  match read a j with
  | .ok b => .ok b
  | .error e => ⟨a, none, some e⟩

/-- A value with an `UnmarshalText`, which is called for strings only. -/
def ofUnmarshalText (goType : String) (read : List Char → Except GoError α) : Decoder α := fun _ a j =>
  match j with
  | .null => .ok a
  | .string text _ =>
    match read text with
    | .ok b => .ok b
    | .error e => ⟨a, none, some e⟩
  | j => mismatch a j goType

/-- A pointer: null makes it nil, anything else is read into what it points to, or into a new zero
value. -/
def pointer (zero : α) (read : Decoder α) : Decoder (Option α) := fun earlier p j =>
  match j with
  | .null => .ok none
  | j => (read (Json.sinceNull earlier) (p.getD zero) j).map some

def uint (bits : ℕ) (ofNat : ℕ → α) : Decoder α := fun _ a j =>
  match j with
  | .null => .ok a
  | .integer false n => if n < 2^bits then .ok (ofNat n) else mismatch a j ("uint" ++ toString bits)
  | j => mismatch a j ("uint" ++ toString bits)

def intValue (negative : Bool) (n : ℕ) : ℤ := if negative then -n else n

def int (bits : ℕ) : Decoder ℤ := fun _ a j =>
  match j with
  | .null => .ok a
  | .integer negative n =>
    if -2^(bits-1) ≤ intValue negative n ∧ intValue negative n < 2^(bits-1) then
      .ok (intValue negative n)
    else mismatch a j ("int" ++ toString bits)
  | j => mismatch a j ("int" ++ toString bits)

def bigInt : Decoder (Option ℤ) :=
  pointer 0 (ofUnmarshalJSON fun _ j =>
    match j with
    | .integer negative n => .ok (intValue negative n)
    | j => .error (.error ("math/big: cannot unmarshal " ++ j.kind ++ " into a *big.Int")))

def readAll (read : Decoder α) : List Json → α → List Json → Decoded α
  | _, a, [] => .ok a
  | earlier, a, j :: docs => (read earlier a j).andThen fun a => readAll read (earlier ++ [j]) a docs

/-- The elements of a slice keep what was read into them before. The one that ends the reading is
kept as it is. -/
def readItems (zero : α) (read : Decoder α) :
    List (List Json) → List α → List Json → Decoded (List α)
  | _, xs, [] => .ok xs
  | slots, xs, j :: items =>
    let earlier := slots.headD []
    ((read earlier (readAll read [] zero earlier).value j).map fun x => xs ++ [x]).andThen fun xs =>
      readItems zero read slots.tail xs items

def slice (goType : String) (zero : α) (read : Decoder α) : Decoder (List α) := fun earlier xs j =>
  match j with
  | .null => .ok []
  | .array items => readItems zero read (Json.slots earlier) [] items
  | j => mismatch xs j ("[]" ++ goType)

/-- The bytes of an array are read one by one; missing ones become zero and others are skipped. -/
def readBytes : List UInt8 → List Json → Decoded (List UInt8)
  | [], _ => .ok []
  | _ :: bytes, [] => (readBytes bytes []).map (0 :: ·)
  | c :: bytes, j :: items =>
    let head := uint 8 UInt8.ofNat [] c j
    let rest := readBytes bytes items
    ⟨head.value :: rest.value, head.saved <|> rest.saved, none⟩

def byteArray (len w : ℕ) : Decoder (BitVec w) := fun _ x j =>
  match j with
  | .null => .ok x
  | .array items => (readBytes (fixedBytes len x.toNat) items).map fun b => BitVec.ofNat w (beNat b)
  | j => mismatch x j ("[" ++ toString len ++ "]uint8")

def base64Digit (c : Char) : Option ℕ :=
  if 'A' ≤ c ∧ c ≤ 'Z' then some (c.toNat-65)
  else if 'a' ≤ c ∧ c ≤ 'z' then some (c.toNat-71)
  else if '0' ≤ c ∧ c ≤ '9' then some (c.toNat+4)
  else if c = '+' then some 62
  else if c = '/' then some 63
  else none

def quantum (n : ℕ) (a b c d : ℕ) : List UInt8 := (fixedBytes 3 (((a*64+b)*64+c)*64+d)).take n

def base64Quads : List Char → Option (List UInt8)
  | [] => some []
  | a :: b :: c :: d :: rest =>
    if rest = [] ∧ c = '=' ∧ d = '=' then do
      return quantum 1 (← base64Digit a) (← base64Digit b) 0 0
    else if rest = [] ∧ d = '=' then do
      return quantum 2 (← base64Digit a) (← base64Digit b) (← base64Digit c) 0
    else do
      let head := quantum 3 (← base64Digit a) (← base64Digit b) (← base64Digit c) (← base64Digit d)
      return head ++ (← base64Quads rest)
  | _ => none

/-- Line breaks are skipped. -/
def base64 (text : List Char) : Option (List UInt8) :=
  base64Quads (text.filter fun c => c != '\n' && c != '\r')

def asArrays : Json → List Json
  | .string text _ =>
    match base64 text with
    | some bytes => [.null, .array (bytes.map fun c => .integer false c.toNat)]
    | none => []
  | j => [j]

def byteSlice : Decoder (List UInt8) := fun earlier b j =>
  match j with
  | .string text _ =>
    match base64 text with
    | some bytes => .ok bytes
    | none => ⟨b, some (.error "illegal base64 data"), none⟩
  | j => slice "uint8" 0 (uint 8 UInt8.ofNat) (earlier.flatMap asArrays) b j

def parseUint (bits : ℕ) (key : List Char) : Option ℕ :=
  if key ≠ [] ∧ key.all Char.isDigit then
    let n := key.foldl (fun n c => 10*n+(c.toNat-48)) 0
    if n < 2^bits then some n else none
  else none

/-- `map[uintN]T`: a key that is no number of the type is a mismatch. Values are always new ones, and
one that ends the reading is not stored. -/
def readEntries {K : Type} [DecidableEq K] (bits : ℕ) (ofNat : ℕ → K) (read : Json → Decoded α) :
    GoMap K α → List (List Char × Json) → Decoded (GoMap K α)
  | m, [] => .ok m
  | m, (key,j) :: entries =>
    -- The value is read before the key is looked at.
    let entry : Decoded (GoMap K α) :=
      match (read j).stopped, parseUint bits key with
      | some e, _ => ⟨m, (read j).saved, some e⟩
      | none, some n => ⟨m.insert (ofNat n) (read j).value, (read j).saved, none⟩
      | none, none =>
        ⟨m, (read j).saved <|> some (cannotUnmarshal "number" ("uint" ++ toString bits)), none⟩
    entry.andThen fun m => readEntries bits ofNat read m entries

def uintMap {K : Type} [DecidableEq K] (bits : ℕ) (ofNat : ℕ → K) (zero : α) (read : Decoder α) :
    Decoder (GoMap K α) := fun _ m j =>
  match j with
  | .null => .ok ∅
  | .object entries => readEntries bits ofNat (read [] zero) m entries
  | j => mismatch m j "map"

def readTexts (read : Json → Decoded α) :
    GoMap String α → List (List Char × Json) → Decoded (GoMap String α)
  | m, [] => .ok m
  | m, (key,j) :: entries =>
    let entry : Decoded (GoMap String α) :=
      match (read j).stopped with
      | some e => ⟨m, (read j).saved, some e⟩
      | none => ⟨m.insert (String.ofList key) (read j).value, (read j).saved, none⟩
    entry.andThen fun m => readTexts read m entries

def stringMap (zero : α) (read : Decoder α) : Decoder (GoMap String α) := fun _ m j =>
  match j with
  | .null => .ok ∅
  | .object entries => readTexts (read [] zero) m entries
  | j => mismatch m j "map"

end Decoder

structure JsonField (α : Type) where
  name : String
  read : Decoder α

namespace JsonField
open Decoded
variable {α β : Type}

def of (name : String) (get : α → β) (set : α → β → α) (read : Decoder β) : JsonField α where
  name := name
  read earlier a j := (read earlier (get a) j).map (set a)

def find (fields : List (JsonField α)) (key : List Char) : Option (JsonField α) :=
  fields.find? (fun f => decide (f.name.toList = key)) <|>
    fields.find? fun f => decide (Json.foldName f.name.toList = Json.foldName key)

def valuesFor (fields : List (JsonField α)) (name : String) (members : List (List Char × Json)) :
    List Json :=
  members.filterMap fun m => if (find fields m.1).map JsonField.name = some name then some m.2 else none

def readMember (fields : List (JsonField α)) (before : List (List Char × Json)) (a : α)
    (key : List Char) (j : Json) : Decoded α :=
  match find fields key with
  | none => .ok a
  | some f => f.read (valuesFor fields f.name before) a j

def readMembers (fields : List (JsonField α)) :
    List (List Char × Json) → α → List (List Char × Json) → Decoded α
  | _, a, [] => .ok a
  | before, a, (key,j) :: members =>
    (readMember fields before a key j).andThen fun a => readMembers fields (before ++ [(key,j)]) a members

end JsonField

namespace Decoder
open Decoded
variable {α β : Type}

/-- Keys that no field has are skipped, and null changes nothing. -/
def struct (goType : String) (fields : List (JsonField α)) : Decoder α := fun earlier a j =>
  match j with
  | .null => .ok a
  | .object members => JsonField.readMembers fields (earlier.flatMap Json.members) a members
  | j => mismatch a j goType

end Decoder

/-- `json.Unmarshal` into a zero value: what is left there, and the error. -/
def unmarshal {α : Type} (zero : α) (read : Decoder α) : JsonText → α × Option GoError
  | none => (zero, some errJsonSyntax)
  | some j => ((read [] zero j).value, (read [] zero j).error)

section ReadAll
open Decoded Decoder
variable {α β : Type} {read : Decoder α}

theorem readAll_append (earlier : List Json) (a : α) (docs docs' : List Json) :
    readAll read earlier a (docs ++ docs') =
      (readAll read earlier a docs).andThen fun a => readAll read (earlier ++ docs) a docs' := by
  induction docs generalizing earlier a with
  | nil => simp [readAll, andThen_ok]
  | cons j docs ih =>
    have hnext (b : α) : readAll read (earlier ++ [j]) b (docs ++ docs') =
        (readAll read (earlier ++ [j]) b docs).andThen fun a =>
          readAll read (earlier ++ j :: docs) a docs' := by
      rw [ih, List.append_assoc]
      rfl
    simp only [List.cons_append, readAll, andThen_assoc, hnext]

variable {zero : α} {docs : List Json}

variable {j : Json}

theorem readAll_concat {a : α} (h : (readAll read [] a (docs ++ [j])).error = none) :
    (readAll read [] a docs).error = none ∧
    (read docs (readAll read [] a docs).value j).error = none ∧
    (readAll read [] a (docs ++ [j])).value = (read docs (readAll read [] a docs).value j).value := by
  rw [readAll_append] at h ⊢
  obtain ⟨hdocs, hlast⟩ := error_andThen.mp h
  have hone := (error_andThen.mp hlast).1
  refine ⟨hdocs, hone, ?_⟩
  rw [value_andThen hdocs]
  exact value_andThen hone

theorem error_readAll_concat {a : α} (hdocs : (readAll read [] a docs).error = none)
    (hlast : (read docs (readAll read [] a docs).value j).error = none) :
    (readAll read [] a (docs ++ [j])).error = none := by
  rw [readAll_append]
  exact error_andThen.mpr ⟨hdocs, error_andThen.mpr ⟨hlast, rfl⟩⟩

theorem value_pointer_eq_none_iff {earlier : List Json} {p : Option α} :
    (pointer zero read earlier p j).value = none ↔ j = .null := by
  cases j <;> simp [pointer, ok, map]

theorem readAll_pointer_eq_none_iff (h : (readAll (.pointer zero read) [] none docs).error = none) :
    (readAll (.pointer zero read) [] none docs).value = none ↔
      docs.getLast? = none ∨ docs.getLast? = some .null := by
  rcases List.eq_nil_or_concat docs with rfl | ⟨docs, j, rfl⟩
  · exact iff_of_true rfl (.inl rfl)
  · rw [List.concat_eq_append] at h ⊢
    rw [(readAll_concat h).2.2, value_pointer_eq_none_iff]
    simp

/-- The elements that are read, and all that are kept, come from the documents of their slots. -/
theorem readItems_spec {slots : List (List Json)} {xs : List α} {items : List Json}
    (hslots : ∀ docs ∈ slots, (readAll read [] zero docs).error = none)
    (h : (readItems zero read slots xs items).error = none) :
    (readItems zero read slots xs items).value = xs ++
        ((Json.fillSlots slots items).take items.length).map (fun docs =>
          (readAll read [] zero docs).value) ∧
      ∀ docs ∈ Json.fillSlots slots items, (readAll read [] zero docs).error = none := by
  induction items generalizing slots xs with
  | nil => exact ⟨by simp [readItems, ok], hslots⟩
  | cons j items ih =>
    rw [readItems] at h ⊢
    obtain ⟨hhead, htail⟩ := error_andThen.mp h
    have hearlier : (readAll read [] zero (slots.headD [])).error = none := by
      cases slots with
      | nil => rfl
      | cons docs slots => exact hslots docs List.mem_cons_self
    have hdocs := error_readAll_concat hearlier hhead
    have hrest : ∀ docs ∈ slots.tail, (readAll read [] zero docs).error = none :=
      fun docs hmem => hslots docs (List.mem_of_mem_tail hmem)
    obtain ⟨hvalue, hkept⟩ := ih hrest htail
    rw [value_andThen hhead, hvalue, Json.fillSlots]
    refine ⟨?_, List.forall_mem_cons.mpr ⟨hdocs, hkept⟩⟩
    rw [List.length_cons, List.take_succ_cons, List.map_cons, (readAll_concat hdocs).2.2, map,
      List.append_assoc]
    rfl

/-- The last document alone decides the length, but its elements start from the slots of the others.
-/
theorem readAll_slice {goType : String}
    (h : (readAll (.slice goType zero read) [] [] docs).error = none) :
    (readAll (.slice goType zero read) [] [] docs).value =
        (Json.slotsOf docs).map (fun slot => (readAll read [] zero slot).value) ∧
      ∀ slot ∈ Json.slots docs, (readAll read [] zero slot).error = none := by
  induction docs using List.reverseRecOn with
  | nil => exact ⟨rfl, fun slot hslot => absurd hslot List.not_mem_nil⟩
  | append_singleton docs j ih =>
    obtain ⟨hdocs, hlast, hvalue⟩ := readAll_concat h
    have hslots := (ih hdocs).2
    have hkeep : Json.slots (docs ++ [j]) = Json.keepSlots (Json.slots docs) j :=
      List.foldl_concat ..
    rw [hvalue, Json.slotsOf, List.getLast?_concat, hkeep]
    cases j with
    | null => exact ⟨rfl, fun slot hslot => absurd hslot List.not_mem_nil⟩
    | array items =>
      obtain ⟨hitems, hkept⟩ := readItems_spec hslots hlast
      cases items with
      | nil => exact ⟨rfl, fun slot hslot => absurd hslot List.not_mem_nil⟩
      | cons item items => exact ⟨hitems, hkept⟩
    | _ => cases hlast

theorem getLast?_fillSlots (slots : List (List Json)) (items : List Json) :
    ((Json.fillSlots slots items).take items.length).map List.getLast? = items.map some := by
  induction items generalizing slots with
  | nil => rfl
  | cons j items ih =>
    rw [Json.fillSlots, List.length_cons, List.take_succ_cons, List.map_cons, ih,
      List.getLast?_concat, List.map_cons]

/-- The last document of each slot is the element that the last array has for it. -/
theorem getLast?_slotsOf (name : String) (data : JsonText) :
    (Json.slotsOf (Json.values name data)).map List.getLast? = (Json.listed name data).map some := by
  rw [Json.slotsOf, Json.listed, Json.given]
  rcases List.eq_nil_or_concat (Json.values name data) with hnil | ⟨docs, j, hdocs⟩
  · rw [hnil]
    rfl
  · have hkeep : Json.slots (docs ++ [j]) = Json.keepSlots (Json.slots docs) j :=
      List.foldl_concat ..
    rw [hdocs, List.concat_eq_append, List.getLast?_concat, hkeep]
    cases j with
    | array items =>
      cases items with
      | nil => rfl
      | cons item items => exact getLast?_fillSlots (Json.slots docs) (item :: items)
    | _ => rfl

theorem mem_slots_of_mem_slotsOf {slot : List Json} (h : slot ∈ Json.slotsOf docs) :
    slot ∈ Json.slots docs := by
  rw [Json.slotsOf] at h
  split at h
  · exact List.mem_of_mem_take h
  · exact absurd h List.not_mem_nil

end ReadAll

section Documents
open Decoded Decoder
variable {α β : Type}

/-- The field `name` of a struct is read by `read`, and the other fields leave it alone. -/
structure ReadsField (fields : List (JsonField α)) (name : String) (get : α → β)
    (read : Decoder β) : Prop where
  names : (fields.map fun f => Json.foldName f.name.toList).Nodup
  mem : ∃ f ∈ fields, f.name = name
  value : ∀ f ∈ fields, f.name = name → ∀ docs a j,
    get (f.read docs a j).value = (read docs (get a) j).value
  error : ∀ f ∈ fields, f.name = name → ∀ docs a j,
    (f.read docs a j).error = (read docs (get a) j).error
  other : ∀ f ∈ fields, f.name ≠ name → ∀ docs a j, get (f.read docs a j).value = get a

theorem find_eq_some {fields : List (JsonField α)} {key : List Char} {f : JsonField α}
    (h : JsonField.find fields key = some f) :
    f ∈ fields ∧ Json.foldName f.name.toList = Json.foldName key := by
  rw [JsonField.find, Option.orElse_eq_some] at h
  rcases h with h | ⟨_, h⟩
  · have hkey := List.find?_some h
    exact ⟨List.mem_of_find?_eq_some h, congrArg Json.foldName (of_decide_eq_true hkey)⟩
  · have hkey := List.find?_some h
    exact ⟨List.mem_of_find?_eq_some h, of_decide_eq_true hkey⟩

variable {fields : List (JsonField α)} {name : String} {get : α → β} {read : Decoder β}

section
variable (hread : ReadsField fields name get read)
include hread

/-- No two names of the struct agree up to case. -/
theorem ReadsField.find_iff (key : List Char) :
    (∃ f, JsonField.find fields key = some f ∧ f.name = name) ↔
      Json.foldName key = Json.foldName name.toList := by
  constructor
  · rintro ⟨f, hfind, rfl⟩
    exact (find_eq_some hfind).2.symm
  · intro hkey
    obtain ⟨f, hmem, rfl⟩ := hread.mem
    have hfound : (fields.find? fun g =>
        decide (Json.foldName g.name.toList = Json.foldName key)).isSome := by
      rw [List.find?_isSome]
      exact ⟨f, hmem, decide_eq_true hkey.symm⟩
    obtain ⟨g, hg⟩ : ∃ g, JsonField.find fields key = some g := by
      rw [← Option.isSome_iff_exists, JsonField.find]
      cases fields.find? fun f => decide (f.name.toList = key) with
      | none => exact hfound
      | some g => rfl
    refine ⟨g, hg, ?_⟩
    obtain ⟨hgmem, hgkey⟩ := find_eq_some hg
    have hsame : g = f := List.inj_on_of_nodup_map hread.names hgmem hmem (hgkey.trans hkey)
    rw [hsame]

theorem ReadsField.valuesFor (members : List (List Char × Json)) :
    JsonField.valuesFor fields name members = Json.valuesOf name members := by
  have hkey (m : List Char × Json) : (JsonField.find fields m.1).map JsonField.name = some name ↔
      Json.foldName m.1 = Json.foldName name.toList := by
    rw [← hread.find_iff, Option.map_eq_some_iff]
  simp only [JsonField.valuesFor, Json.valuesOf, hkey]

theorem ReadsField.readMember (before : List (List Char × Json)) (a : α) (key : List Char)
    (j : Json) (h : (JsonField.readMember fields before a key j).error = none) :
    (Json.foldName key = Json.foldName name.toList ∧
        (read (Json.valuesOf name before) (get a) j).error = none ∧
        get (JsonField.readMember fields before a key j).value =
          (read (Json.valuesOf name before) (get a) j).value) ∨
      (Json.foldName key ≠ Json.foldName name.toList ∧
        get (JsonField.readMember fields before a key j).value = get a) := by
  rw [JsonField.readMember] at h ⊢
  by_cases hkey : Json.foldName key = Json.foldName name.toList
  · obtain ⟨f, hfind, hname⟩ := (hread.find_iff key).mpr hkey
    have hmem := (find_eq_some hfind).1
    have hearlier : JsonField.valuesFor fields f.name before = Json.valuesOf name before := by
      rw [hname, hread.valuesFor]
    simp only [hfind, hearlier] at h ⊢
    refine .inl ⟨hkey, ?_, hread.value f hmem hname ..⟩
    rw [← hread.error f hmem hname]
    exact h
  · refine .inr ⟨hkey, ?_⟩
    cases hfind : JsonField.find fields key with
    | none => rfl
    | some f =>
      apply hread.other f (find_eq_some hfind).1
      intro hname
      exact hkey ((hread.find_iff key).mp ⟨f, hfind, hname⟩)

/-- A member adds a value for this field, or it is one of another field. -/
theorem ReadsField.readMembers {before : List (List Char × Json)} {a : α}
    {members : List (List Char × Json)}
    (h : (JsonField.readMembers fields before a members).error = none) :
    (readAll read (Json.valuesOf name before) (get a) (Json.valuesOf name members)).error = none ∧
      get (JsonField.readMembers fields before a members).value =
        (readAll read (Json.valuesOf name before) (get a) (Json.valuesOf name members)).value := by
  induction members generalizing before a with
  | nil => exact ⟨rfl, rfl⟩
  | cons m members ih =>
    obtain ⟨key, j⟩ := m
    rw [JsonField.readMembers] at h ⊢
    obtain ⟨hmember, hrest⟩ := error_andThen.mp h
    obtain ⟨herror, hvalue⟩ := ih hrest
    rw [value_andThen hmember, hvalue]
    rcases hread.readMember before a key j hmember with ⟨hkey, hone, hget⟩ | ⟨hkey, hget⟩
    · have hvalues : Json.valuesOf name ((key,j) :: members) = j :: Json.valuesOf name members := by
        simp [Json.valuesOf, hkey]
      have hbefore : Json.valuesOf name (before ++ [(key,j)]) = Json.valuesOf name before ++ [j] := by
        simp [Json.valuesOf, hkey]
      rw [hget, hbefore] at herror ⊢
      rw [hvalues, readAll]
      refine ⟨error_andThen.mpr ⟨hone, herror⟩, ?_⟩
      rw [value_andThen hone]
    · have hvalues : Json.valuesOf name ((key,j) :: members) = Json.valuesOf name members := by
        simp [Json.valuesOf, hkey]
      have hbefore : Json.valuesOf name (before ++ [(key,j)]) = Json.valuesOf name before := by
        simp [Json.valuesOf, hkey]
      rw [hget, hbefore] at herror ⊢
      rw [hvalues]
      exact ⟨herror, rfl⟩

/-- Anything else is a mismatch, which is an error. -/
theorem ReadsField.struct {goType : String} {earlier : List Json} {a : α} {j : Json}
    (h : (Decoder.struct goType fields earlier a j).error = none) :
    (readAll read (Json.valuesOf name (earlier.flatMap Json.members)) (get a)
        (Json.valuesOf name j.members)).error = none ∧
      get (Decoder.struct goType fields earlier a j).value =
        (readAll read (Json.valuesOf name (earlier.flatMap Json.members)) (get a)
          (Json.valuesOf name j.members)).value := by
  cases j with
  | null => exact ⟨rfl, rfl⟩
  | object members => exact hread.readMembers h
  | _ => cases h

theorem ReadsField.readAll {goType : String} {earlier docs : List Json} {a : α}
    (h : (Decoder.readAll (.struct goType fields) earlier a docs).error = none) :
    (Decoder.readAll read (Json.valuesOf name (earlier.flatMap Json.members)) (get a)
        (Json.valuesOf name (docs.flatMap Json.members))).error = none ∧
      get (Decoder.readAll (.struct goType fields) earlier a docs).value =
        (Decoder.readAll read (Json.valuesOf name (earlier.flatMap Json.members)) (get a)
          (Json.valuesOf name (docs.flatMap Json.members))).value := by
  induction docs generalizing earlier a with
  | nil => exact ⟨rfl, rfl⟩
  | cons j docs ih =>
    rw [Decoder.readAll] at h ⊢
    obtain ⟨hone, hrest⟩ := error_andThen.mp h
    obtain ⟨herror₁, hget₁⟩ := hread.struct hone
    obtain ⟨herror, hget⟩ := ih hrest
    have hearlier : Json.valuesOf name ((earlier ++ [j]).flatMap Json.members) =
        Json.valuesOf name (earlier.flatMap Json.members) ++ Json.valuesOf name j.members := by
      simp [Json.valuesOf]
    have hvalues : Json.valuesOf name ((j :: docs).flatMap Json.members) =
        Json.valuesOf name j.members ++ Json.valuesOf name (docs.flatMap Json.members) := by
      simp [Json.valuesOf]
    rw [hearlier, hget₁] at herror hget
    rw [hvalues, readAll_append, value_andThen hone, value_andThen herror₁]
    exact ⟨error_andThen.mpr ⟨herror₁, herror⟩, hget⟩

end

section Unmarshal
variable {goType : String} {zero : α} {data : JsonText}

theorem unmarshal_field (hread : ReadsField fields name get read)
    (h : (unmarshal zero (.struct goType fields) data).2 = none) :
    (readAll read [] (get zero) (Json.values name data)).error = none ∧
      get (unmarshal zero (.struct goType fields) data).1 =
        (readAll read [] (get zero) (Json.values name data)).value := by
  cases data with
  | none => cases h
  | some j => exact hread.struct h

theorem unmarshal_pointer_eq_none_iff {γ : Type} {get : α → Option γ} {init : γ}
    {read : Decoder γ} (hread : ReadsField fields name get (.pointer init read))
    (hzero : get zero = none) (h : (unmarshal zero (.struct goType fields) data).2 = none) :
    get (unmarshal zero (.struct goType fields) data).1 = none ↔
      Json.given name data = none ∨ Json.given name data = some .null := by
  obtain ⟨herror, hget⟩ := unmarshal_field hread h
  rw [hzero] at herror hget
  rw [hget]
  exact readAll_pointer_eq_none_iff herror

theorem unmarshal_slice {γ : Type} {get : α → List γ} {elemType : String} {init : γ}
    {read : Decoder γ} (hread : ReadsField fields name get (.slice elemType init read))
    (hzero : get zero = []) (h : (unmarshal zero (.struct goType fields) data).2 = none) :
    get (unmarshal zero (.struct goType fields) data).1 =
        (Json.slotsOf (Json.values name data)).map (fun slot => (readAll read [] init slot).value) ∧
      ∀ slot ∈ Json.slotsOf (Json.values name data), (readAll read [] init slot).error = none := by
  obtain ⟨herror, hget⟩ := unmarshal_field hread h
  rw [hzero] at herror hget
  obtain ⟨hvalue, hslots⟩ := readAll_slice herror
  exact ⟨hget.trans hvalue, fun slot hslot => hslots slot (mem_slots_of_mem_slotsOf hslot)⟩

end Unmarshal

end Documents

end GoLib
