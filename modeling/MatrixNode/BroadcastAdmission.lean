import MatrixNode.BroadcastTxStore
import MatrixNode.StepRun

/-! `TxPool.add` on broadcast transactions: a key of the payload is entered in `Special` if the
number of the next broadcast period occurs anywhere in it, and for whatever sender recovery left. -/
namespace MatrixNode
open GoLib GoMap List

structure SpecialEnv (Hash : Type) extends BroadcastPool Hash where
  rlpHash : String → Hash
  addressString : Address → String

structure Admission where
  key : String
  tx : Transaction
  height : ℕ

structure SpecialPool (Hash : Type) where
  special : GoMap Hash Transaction
  height : ℕ
  admitted : List Admission

def nextPeriod (height : ℕ) : ℕ := height/broadcastInterval+1

namespace SpecialPool
variable {Hash : Type} [DecidableEq Hash] (E : SpecialEnv Hash) (p : SpecialPool Hash)

def keyHash (tx : Transaction) (key : String) : Hash :=
  E.rlpHash (key ++ E.addressString (E.senderOf tx))

def enter (tx : Transaction) (key : String) : SpecialPool Hash where
  special := p.special.insert (keyHash E tx key) tx
  height := p.height
  admitted := p.admitted ++ [⟨key, tx, p.height⟩]

/-- The loop over the keys. A known key ends it; what was entered before stays. -/
def addKeys (tx : Transaction) : SpecialPool Hash → List (String × Bytes) →
    SpecialPool Hash × Option GoError
  | p, [] => (p, none)
  | p, (keydata,_) :: rest =>
    if p.special.lookup (keyHash E tx keydata) ≠ none then
      (p, some (.error "known broadcast transaction"))
    else if stringsContains keydata (toString (nextPeriod p.height)) then
      addKeys tx (p.enter E tx keydata) rest
    else addKeys tx p rest

/-- `add`, as far as `Special` goes: transactions of other types do not come near it. -/
def add (tx : Transaction) (R : Ranger String Bytes) : SpecialPool Hash × Option GoError :=
  if BroadcastPool.isBroadcastTx tx then
    match (E.payloadKeys tx).2 with
    | some e => (p, some e)
    | none => addKeys E tx p (R.order (E.payloadKeys tx).1)
  else (p, none)

inductive Op where
  | add (tx : Transaction) (R : Ranger String Bytes)
  | newHead (height : ℕ)
  -- The block generator takes everything out.
  | getAllSpecialTxs

def step : Op → Except GoError (SpecialPool Hash)
  | .add tx R => .ok (p.add E tx R).1
  | .newHead height => .ok { p with height := height }
  | .getAllSpecialTxs => .ok { p with special := ∅ }

structure Proper (a : Admission) : Prop where
  signed : ∃ account, E.crypto.sender E.signer a.tx = .ok account
  key : ∃ kind : BroadcastKind, a.key = kind.name ++ toString (nextPeriod a.height)

structure WellAdmitted (p : SpecialPool Hash) : Prop where
  proper : ∀ a ∈ p.admitted, Proper E a
  entered : ∀ hash tx, p.special.lookup hash = some tx →
    ∃ a ∈ p.admitted, a.tx = tx ∧ hash = keyHash E tx a.key

def KeyFits (height : ℕ) (key : String) : Prop :=
  ∃ (kind : BroadcastKind) (m : ℕ), key = kind.name ++ toString m ∧
    (toString m).toList.length ≤ (toString (nextPeriod height)).toList.length

/-- Every new key of the payload in which the number of the next period occurs. -/
def Fits : Op → Prop
  | .add tx _ => BroadcastPool.isBroadcastTx tx = true → (E.payloadKeys tx).2 = none →
    ∀ key ∈ (E.payloadKeys tx).1, p.special.lookup (keyHash E tx key) = none →
      stringsContains key (toString (nextPeriod p.height)) = true →
      (∃ account, E.crypto.sender E.signer tx = .ok account) ∧ KeyFits p.height key
  | .newHead _ => True
  | .getAllSpecialTxs => True

section Digits

theorem isDigit_of_mem_toString {n : ℕ} {c : Char} (h : c ∈ (toString n).toList) :
    c.isDigit = true := by
  rw [Nat.toString_eq_repr, Nat.toList_repr] at h
  exact Nat.isDigit_of_mem_toDigits (by decide) (by decide) h

theorem toString_ne_nil (n : ℕ) : (toString n).toList ≠ [] := by
  rw [Nat.toString_eq_repr, Nat.toList_repr]
  exact Nat.toDigits_ne_nil

theorem not_isDigit_of_mem_name {kind : BroadcastKind} {c : Char} (h : c ∈ kind.name.toList) :
    c.isDigit = false := by
  have hall : kind.name.toList.all (fun c => !c.isDigit) = true := by
    cases kind <;> decide
  simpa using all_eq_true.mp hall c h

/-- A name has no digits, so digits that occur in a key occur in its number. -/
theorem infix_of_infix_append {digits name rest : List Char} (hne : digits ≠ [])
    (hdigits : ∀ c ∈ digits, c.isDigit = true) (hname : ∀ c ∈ name, c.isDigit = false)
    (h : digits <:+: name ++ rest) : digits <:+: rest := by
  obtain ⟨s, t, hst⟩ := h
  rw [append_assoc, append_eq_append_iff] at hst
  rcases hst with ⟨u, hu, hrest⟩ | ⟨u, hu, hrest⟩
  · cases u with
    | nil => exact ⟨[], t, by simpa using hrest⟩
    | cons c u =>
      obtain ⟨d, ds, rfl⟩ := exists_cons_of_ne_nil hne
      obtain ⟨rfl, -⟩ := cons.inj hrest
      have hc := hname d (by rw [hu]; simp)
      rw [hdigits d mem_cons_self] at hc
      cases hc
  · exact ⟨u, t, by rw [hrest, append_assoc]⟩

/-- The names have no digits, so the number occurs within the number of the key, which is not
longer. -/
theorem eq_of_keyFits {height : ℕ} {key : String} (h : KeyFits height key)
    (hcontains : stringsContains key (toString (nextPeriod height)) = true) :
    ∃ kind : BroadcastKind, key = kind.name ++ toString (nextPeriod height) := by
  obtain ⟨kind, m, rfl, hlen⟩ := h
  refine ⟨kind, ?_⟩
  have hinfix := of_decide_eq_true hcontains
  rw [String.toList_append] at hinfix
  have hin : (toString (nextPeriod height)).toList <:+: (toString m).toList :=
    infix_of_infix_append (toString_ne_nil _) (fun c => isDigit_of_mem_toString)
      (fun c => not_isDigit_of_mem_name) hinfix
  have hsame : toString (nextPeriod height) = toString m :=
    String.toList_inj.mp (hin.eq_of_length_le hlen)
  rw [hsame]

end Digits

variable {E} {p : SpecialPool Hash}

variable {tx : Transaction}

theorem WellAdmitted.enter (h : WellAdmitted E p) {key : String}
    (hproper : Proper E ⟨key, tx, p.height⟩) : WellAdmitted E (p.enter E tx key) := by
  refine ⟨?_, ?_⟩
  · intro a ha
    rcases mem_append.mp ha with ha | ha
    · exact h.proper a ha
    · rw [mem_singleton.mp ha]
      exact hproper
  · intro hash tx' hlookup
    rcases lookup_insert_cases hlookup with ⟨rfl, rfl⟩ | ⟨_, hold⟩
    · exact ⟨_, mem_append_right _ mem_cons_self, rfl, rfl⟩
    · obtain ⟨a, ha, htx, hhash⟩ := h.entered hash tx' hold
      exact ⟨a, mem_append_left _ ha, htx, hhash⟩

/-- A key that is unknown after this turn was unknown before. -/
theorem WellAdmitted.addKeys (h : WellAdmitted E p) {order : List (String × Bytes)}
    (hfits : ∀ e ∈ order, p.special.lookup (keyHash E tx e.1) = none →
      stringsContains e.1 (toString (nextPeriod p.height)) = true →
      Proper E ⟨e.1, tx, p.height⟩) : WellAdmitted E (SpecialPool.addKeys E tx p order).1 := by
  induction order generalizing p with
  | nil => exact h
  | cons e rest ih =>
    obtain ⟨key, value⟩ := e
    obtain ⟨hkey, hrest⟩ := forall_mem_cons.mp hfits
    rw [SpecialPool.addKeys]
    split_ifs with hknown hcontains
    · exact h
    · apply ih (h.enter (hkey (not_not.mp hknown) hcontains))
      intro e he hnone
      apply hrest e he
      by_cases hsame : keyHash E tx e.1 = keyHash E tx key
      · rw [SpecialPool.enter, hsame, Finmap.lookup_insert] at hnone
        cases hnone
      · rwa [SpecialPool.enter, Finmap.lookup_insert_of_ne _ hsame] at hnone
    · exact ih h hrest

theorem addKeys_admitted (E : SpecialEnv Hash) (tx : Transaction) (order : List (String × Bytes))
    (p : SpecialPool Hash) :
    ∃ rest, (SpecialPool.addKeys E tx p order).1.admitted = p.admitted ++ rest := by
  induction order generalizing p with
  | nil => exact ⟨[], (append_nil _).symm⟩
  | cons e order ih =>
    rw [SpecialPool.addKeys]
    split_ifs
    · exact ⟨[], (append_nil _).symm⟩
    · obtain ⟨rest, hrest⟩ := ih (p.enter E tx e.1)
      exact ⟨⟨e.1, tx, p.height⟩ :: rest, by rw [hrest, SpecialPool.enter, append_assoc]; rfl⟩
    · exact ih p

/-- What the loop goes through are the keys of the payload, in some order. -/
theorem WellAdmitted.step (h : WellAdmitted E p) {op : Op} {p' : SpecialPool Hash}
    (hfits : Fits E p op) (hstep : p.step E op = .ok p') : WellAdmitted E p' := by
  cases op with
  | newHead height =>
    cases hstep
    exact ⟨h.proper, h.entered⟩
  | getAllSpecialTxs =>
    cases hstep
    exact ⟨h.proper, fun hash tx hlookup => by cases hlookup⟩
  | add tx R =>
    cases hstep
    rw [SpecialPool.add]
    split_ifs with hbroadcast
    · cases herr : (E.payloadKeys tx).2 with
      | some e => exact h
      | none =>
        apply h.addKeys
        intro e he hnone hcontains
        have hmem : e.1 ∈ (E.payloadKeys tx).1 := by
          have hlookup := ((R.isRange _).mem_iff e.1 e.2).mp he
          exact Finmap.mem_of_lookup_eq_some hlookup
        obtain ⟨hsigned, hkey⟩ := hfits hbroadcast herr e.1 hmem hnone hcontains
        exact ⟨hsigned, eq_of_keyFits hkey hcontains⟩
    · exact h

/-- Over every run whose additions all fit, whatever is in `Special` was entered properly. -/
theorem special_well_admitted (E : SpecialEnv Hash) (height : ℕ) (ops : List Op)
    (p : SpecialPool Hash) (hfits : EachStep (step E) (fun p op _ => Fits E p op) ⟨∅, height, []⟩ ops)
    (hrun : run (step E) ⟨∅, height, []⟩ ops = .ok p) : WellAdmitted E p := by
  have hstart : WellAdmitted E (⟨∅, height, []⟩ : SpecialPool Hash) :=
    ⟨fun a ha => absurd ha not_mem_nil, fun hash tx hlookup => by cases hlookup⟩
  exact run_preserves_of_eachBefore (fun p op p' h hop hstep => h.step (hop p' hstep) hstep) hstart
    hfits.eachBefore hrun

/-- Nothing keeps the loop from coming to this key first. -/
theorem exists_improper_of_not_fits {R : Ranger String Bytes} (h : ¬ Fits E p (.add tx R)) :
    ∃ R' a rest, (p.add E tx R').1.admitted = p.admitted ++ a :: rest ∧ ¬ Proper E a := by
  simp only [Fits, not_forall] at h
  obtain ⟨hbroadcast, herr, key, hmem, hnone, hcontains, hbad⟩ := h
  obtain ⟨value, hlookup⟩ := Finmap.mem_iff.mp hmem
  obtain ⟨order, horder⟩ := exists_isRange ((E.payloadKeys tx).1.erase key)
  have hfirst : IsRange (E.payloadKeys tx).1 ((key,value) :: order) := by
    rw [← insert_eq_self hlookup]
    exact horder.cons_of_erase
  obtain ⟨R', hR'⟩ := Ranger.exists_order_eq hfirst
  have hadd : (p.add E tx R').1 = (SpecialPool.addKeys E tx (p.enter E tx key) order).1 := by
    rw [SpecialPool.add, if_pos hbroadcast, herr, hR', SpecialPool.addKeys,
      if_neg (not_not.mpr hnone), if_pos hcontains]
  obtain ⟨rest, hrest⟩ := addKeys_admitted E tx order (p.enter E tx key)
  refine ⟨R', ⟨key, tx, p.height⟩, rest, ?_, ?_⟩
  · rw [hadd, hrest, SpecialPool.enter, append_assoc]
    rfl
  · intro hproper
    obtain ⟨kind, hkey⟩ := hproper.key
    exact hbad ⟨hproper.signed, kind, _, hkey, le_rfl⟩

section Sample

def samplePayload (key : String) : Bytes := ("\x7b\"" ++ key ++ "\":\"AQ==\"\x7d").toUTF8.toList

def sampleKeyTx (key : String) : Transaction :=
  { TxCrypto.sampleBody with
    payload := samplePayload key, extra := [⟨1, 0, []⟩], v := 27, r := 1, s := 1 }

def sampleEnv (key : String) : SpecialEnv SigContent where
  crypto := TxCrypto.sampleTxCrypto (.frontier (sampleKeyTx key).toTxBody)
  signer := .eip155 1
  parse b := if b = samplePayload key then some (.object [(key.toList, .text "AQ==")]) else none
  rlpHash s := .frontier { TxCrypto.sampleBody with payload := s.toUTF8.toList }
  addressString a := toString a.toNat

theorem payloadKeys_sample (key : String) :
    (sampleEnv key).payloadKeys (sampleKeyTx key) =
      ((∅ : GoMap String Bytes).insert key [1], none) := by
  have hparse : (sampleEnv key).parse (sampleKeyTx key).payload =
      some (.object [(key.toList, .text "AQ==")]) := if_pos rfl
  rw [BroadcastPool.payloadKeys, hparse]
  have hkey : String.ofList key.toList = key := String.ofList_toList
  simp only [unmarshal, Decoder.stringMap, Decoder.readTexts, hkey]
  rfl

theorem isRange_sample (key : String) :
    IsRange ((∅ : GoMap String Bytes).insert key [1]) [(key,[1])] := by
  apply IsRange.cons_of_erase
  exact IsRange.nil_iff.mpr rfl

def startPool : SpecialPool SigContent := ⟨∅, 0, []⟩

theorem add_sample {key : String}
    (hcontains : stringsContains key (toString (nextPeriod startPool.height)) = true) :
    ∃ R, (startPool.add (sampleEnv key) (sampleKeyTx key) R).1.admitted =
      [⟨key, sampleKeyTx key, 0⟩] := by
  have hrange : IsRange ((sampleEnv key).payloadKeys (sampleKeyTx key)).1 [(key,[1])] := by
    rw [payloadKeys_sample]
    exact isRange_sample key
  obtain ⟨R, hR⟩ := Ranger.exists_order_eq hrange
  refine ⟨R, ?_⟩
  have herr : ((sampleEnv key).payloadKeys (sampleKeyTx key)).2 = none := by
    rw [payloadKeys_sample]
  have hbroadcast : BroadcastPool.isBroadcastTx (sampleKeyTx key) = true := rfl
  have hnew : startPool.special.lookup (keyHash (sampleEnv key) (sampleKeyTx key) key) = none :=
    Finmap.lookup_empty _
  rw [SpecialPool.add, if_pos hbroadcast, herr, hR, SpecialPool.addKeys, if_neg (not_not.mpr hnew),
    if_pos hcontains]
  rfl

theorem special_well_admitted_publickey :
    ∃ R p, run (step (sampleEnv "SeedPublicKey1")) startPool
        [.add (sampleKeyTx "SeedPublicKey1") R] = .ok p ∧
      p.admitted ≠ [] ∧ WellAdmitted (sampleEnv "SeedPublicKey1") p := by
  have hcontains : stringsContains "SeedPublicKey1" (toString (nextPeriod startPool.height)) = true := by
    decide
  obtain ⟨R, hR⟩ := add_sample hcontains
  refine ⟨R, _, rfl, by rw [hR]; exact cons_ne_nil _ _, ?_⟩
  refine special_well_admitted _ 0 [.add (sampleKeyTx "SeedPublicKey1") R] _ ?_ rfl
  intro p' _
  refine ⟨?_, trivial⟩
  intro _ _ key hkey _ _
  rw [payloadKeys_sample] at hkey
  obtain rfl | hkey := Finmap.mem_insert.mp hkey
  swap
  · exact absurd hkey Finmap.notMem_empty
  exact ⟨⟨77, by decide +kernel⟩, .publickey, 1, by decide, by decide⟩

/-- Before the first broadcast block the key of period 10 is entered. -/
theorem period_ten_admitted_for_period_one :
    ∃ R p, run (step (sampleEnv "SeedPublicKey10")) startPool
        [.add (sampleKeyTx "SeedPublicKey10") R] = .ok p ∧
      ¬ WellAdmitted (sampleEnv "SeedPublicKey10") p := by
  have hcontains : stringsContains "SeedPublicKey10" (toString (nextPeriod startPool.height)) = true := by
    decide
  obtain ⟨R, hR⟩ := add_sample hcontains
  refine ⟨R, _, rfl, ?_⟩
  intro h
  obtain ⟨_, kind, hkey⟩ := h.proper ⟨"SeedPublicKey10", sampleKeyTx "SeedPublicKey10", 0⟩
    (by rw [hR]; exact mem_cons_self)
  cases kind <;> exact absurd hkey (by decide)

end Sample

end SpecialPool

end MatrixNode
