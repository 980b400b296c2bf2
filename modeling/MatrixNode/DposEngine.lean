import Mathlib.Algebra.Order.Floor.Semiring
import Mathlib.Data.Rat.Floor
import MatrixNode.ChainTypes
import MatrixNode.GoMap
import MatrixNode.Quorum

/-! `consensus/mtxdpos/mtxdpos.go`: a block or a request is accepted when enough
of the validators of its height signed agreement with its hash. -/
namespace MatrixNode
open GoLib

def dposTargetSignCountRatio : ℚ := 66667/100000

/-- The stock requirement is switched off in the source. -/
def dposTargetStockRatio : ℚ := 0

def dposMinStockCount : ℕ := 3

def dposFullSignThreshold : ℕ := 7

def errStockCountErr : GoError := .error "stock count is less then min count"

def errSignCountErr : GoError := .error "sign count is not enough"

def errSignStockErr : GoError := .error "sign stock is not enough"

def errDisagreeCountErr : GoError := .error "consensus failed, cause to disagree count is too much"

def errDisagreeStockErr : GoError := .error "consensus failed, cause to disagree stock is too much"

def errBroadcastSignCount : GoError := .error "broadcast block's sign count err, not one"

def errBroadcastVerifySign : GoError := .error "broadcast block's sign is not from broadcast node"

def errBroadcastVerifySignFalse : GoError := .error "broadcast block's sign is false"

structure DposTarget where
  totalCount : ℕ
  totalStock : ℕ
  targetCount : ℕ
  targetStock : ℕ
  maxDisagreeCount : ℕ
  maxDisagreeStock : ℕ

structure DposOrders where
  stocks : GoMap.Ranger Address UInt16
  signs : GoMap.Ranger Address VerifiedSign

noncomputable instance : Inhabited DposOrders := ⟨default, default⟩

/-- What the engine uses of its node: header hashing, signature recovery to an
account and an opinion, and the configured broadcast nodes. -/
structure DposEngine (Hash : Type) where
  headerHash : UnsignedHeader Hash → Hash
  recover : Hash → Signature → Option (Address × Bool)
  broadCastNodes : List Address

namespace DposEngine

def targetSignCount (totalCount : ℕ) : ℕ :=
  if totalCount ≤ dposFullSignThreshold then totalCount
  else ⌈(totalCount : ℚ)*dposTargetSignCountRatio⌉₊

def calculateDPOSTarget (stocks : GoMap Address UInt16) (O : DposOrders) :
    Except GoError DposTarget := do
  let totalCount := stocks.len
  if totalCount < dposMinStockCount then
    throw errStockCountErr
  let totalStock := (O.stocks.order stocks).foldl (fun n e => n+e.2.toNat) 0
  let targetCount := targetSignCount totalCount
  let targetStock :=
    if totalCount ≤ dposFullSignThreshold then totalStock
    else ⌈(totalStock : ℚ)*dposTargetStockRatio⌉₊
  pure {
    totalCount := totalCount, totalStock := totalStock
    targetCount := targetCount, targetStock := targetStock
    maxDisagreeCount := totalCount-targetCount, maxDisagreeStock := totalStock-targetStock }

/-- One account counts once, and its agreement wins over its disagreement. -/
def mergeSign (signs : GoMap Address VerifiedSign) (s : VerifiedSign) : GoMap Address VerifiedSign :=
  match signs.lookup s.account with
  | some existData =>
    if existData.validate = false ∧ s.validate = true then signs.insert s.account s else signs
  | none => signs.insert s.account s

/-- A signature of an account without stock is discarded. -/
def addSign (stocks : GoMap Address UInt16) (signs : GoMap Address VerifiedSign)
    (sign : Signature) (account : Address) (validate : Bool) : GoMap Address VerifiedSign :=
  match stocks.lookup account with
  | none => signs
  | some stock => mergeSign signs ⟨sign, account, validate, stock⟩

def parseVerifiedSigns (verifiedSigns : List VerifiedSign) (stocks : GoMap Address UInt16) :
    GoMap Address VerifiedSign :=
  verifiedSigns.foldl (fun m s => addSign stocks m s.sign s.account s.validate) ∅

structure DposTally where
  agreeCount : ℕ := 0
  disagreeCount : ℕ := 0
  agreeStock : ℕ := 0
  disagreeStock : ℕ := 0
  rightSigns : List Signature := []

def DposTally.add (t : DposTally) (s : VerifiedSign) : DposTally :=
  if s.validate then
    { t with
      agreeCount := t.agreeCount+1
      agreeStock := t.agreeStock+s.stock.toNat
      rightSigns := t.rightSigns ++ [s.sign] }
  else
    { t with
      disagreeCount := t.disagreeCount+1
      disagreeStock := t.disagreeStock+s.stock.toNat }

/-- One turn of the loop of `verifyDPOS`, which stops at the first excess of
disagreement. -/
def DposTally.count (target : DposTarget) (t : DposTally) (s : VerifiedSign) :
    Except GoError DposTally :=
  let t := t.add s
  if s.validate then pure t
  else if target.maxDisagreeCount < t.disagreeCount then throw errDisagreeCountErr
  else if target.maxDisagreeStock < t.disagreeStock then throw errDisagreeStockErr
  else pure t

def verifyDPOS (verifiedSigns : GoMap Address VerifiedSign) (target : DposTarget) (O : DposOrders) :
    Except GoError (List Signature) := do
  let t ← (O.signs.order verifiedSigns).foldlM (fun t e => DposTally.count target t e.2) {}
  if t.agreeCount < target.targetCount then
    throw errSignCountErr
  if t.agreeStock < target.targetStock then
    throw errSignStockErr
  pure t.rightSigns

def graph2ValidatorStocks (graph : TopologyGraph) : GoMap Address UInt16 :=
  graph.nodeList.foldl (fun stocks node =>
    if node.type ≠ .validator then stocks
    else if node.account ∈ stocks then stocks
    else stocks.insert node.account node.stock) ∅

def getValidatorStocks (reader : ValidatorReader) (number : ℕ) :
    Except GoError (GoMap Address UInt16) := do
  let graph ← reader.getValidatorByNumber (number-1)
  pure (graph2ValidatorStocks graph)

variable {Hash : Type} (D : DposEngine Hash) (reader : ValidatorReader)

def isBroadcastRole (address : Address) : Bool := D.broadCastNodes.contains address

def hashNoSignsAndNonce (h : Header Hash) : Hash := D.headerHash h.toUnsignedHeader

def verifySigns (signHash : Hash) (signs : List Signature) (stocks : GoMap Address UInt16) :
    GoMap Address VerifiedSign :=
  signs.foldl (fun m sign =>
    match D.recover signHash sign with
    | none => m
    | some (account,signValidate) => addSign stocks m sign account signValidate) ∅

def verifyHashWithStocks (signHash : Hash) (signs : List Signature) (stocks : GoMap Address UInt16)
    (O : DposOrders) : Except GoError (List Signature) := do
  let target ← calculateDPOSTarget stocks O
  if signs.length < target.targetCount then
    throw errSignCountErr
  -- Signatures that do not recover or repeat an account are gone here.
  let verifiedSigns := D.verifySigns signHash signs stocks
  if verifiedSigns.len < target.targetCount then
    throw errSignCountErr
  verifyDPOS verifiedSigns target O

def verifyHashWithNumber (signHash : Hash) (signs : List Signature) (number : ℕ) (O : DposOrders) :
    Except GoError (List Signature) := do
  let stocks ← getValidatorStocks reader number
  D.verifyHashWithStocks signHash signs stocks O

/-- The variant for signatures that were recovered when they arrived. -/
def verifyHashWithVerifiedSignsAndNumber (signs : List VerifiedSign) (number : ℕ) (O : DposOrders) :
    Except GoError (List Signature) := do
  let stocks ← getValidatorStocks reader number
  let target ← calculateDPOSTarget stocks O
  if signs.length < target.targetCount then
    throw errSignCountErr
  let verifiedSigns := parseVerifiedSigns signs stocks
  if verifiedSigns.len < target.targetCount then
    throw errSignCountErr
  verifyDPOS verifiedSigns target O

def verifyBroadcastBlock (header : Header Hash) : Except GoError Unit :=
  match header.signatures with
  | [sign] => do
    let some (account,result) := D.recover (D.hashNoSignsAndNonce header) sign
      | throw (.error "signature recovery failed")
    if D.isBroadcastRole account = false then
      throw errBroadcastVerifySign
    if result = false then
      throw errBroadcastVerifySignFalse
  | _ => throw errBroadcastSignCount

def verifyBlock (header : Header Hash) (O : DposOrders) : Except GoError Unit := do
  if isBroadcastNumber header.number then
    D.verifyBroadcastBlock header
  else
    let stocks ← getValidatorStocks reader header.number
    let _ ← D.verifyHashWithStocks (D.hashNoSignsAndNonce header) header.signatures stocks O

end DposEngine

def accountOrder {V : Type} : GoMap.Ranger Address V :=
  .byKey BitVec.toNat fun _ _ => BitVec.eq_of_toNat_eq

def threeValidators : List TopologyNodeInfo :=
  [1,2,3].map fun account => ⟨account, 0, .validator, 1, 0⟩

end MatrixNode
