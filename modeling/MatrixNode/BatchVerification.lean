import MatrixNode.DposQuorum
import MatrixNode.TopologyStore

/-! `MtxDPOS.VerifyBlocks` verifies a run of headers before any of them is stored, following the
validators from graph to graph. It is compared here with importing the headers one by one. -/
namespace MatrixNode
open GoLib TopologyGraph DposEngine Finmap List

def errInputHeaderErr : GoError := .error "input param header err"

abbrev Place := Address × UInt16 × RoleType

def TopologyNodeInfo.place (node : TopologyNodeInfo) : Place :=
  (node.account, node.position, node.type)

def TopologyGraph.places (graph : TopologyGraph) : List Place :=
  graph.nodeList.map TopologyNodeInfo.place

namespace Place

def isValidator (p : Place) : Bool := p.2.2 = .validator

def Fits (chgInfo : NetTopologyData) (p : Place) : Prop :=
  chgInfo.position = p.2.1 ∨ (chgInfo.position = posOffline ∧ chgInfo.account = p.1)

/-- What an entry of a change does to the places: the first one it is about gets the new account,
or goes. -/
def change (chgInfo : NetTopologyData) : List Place → List Place
  | [] => []
  | p :: rest =>
    if chgInfo.position = p.2.1 then (chgInfo.account, p.2) :: rest
    else if chgInfo.position = posOffline ∧ chgInfo.account = p.1 then rest
    else p :: change chgInfo rest

def changes (data : List NetTopologyData) (places : List Place) : List Place :=
  data.foldl (fun places chgInfo => change chgInfo places) places

def OneFits (chgInfo : NetTopologyData) (places : List Place) : Prop :=
  places.Pairwise (fun p q => ¬ (Fits chgInfo p ∧ Fits chgInfo q))

section Change
variable {chgInfo : NetTopologyData} {places places' : List Place}

theorem change_of_none (h : ∀ p ∈ places, ¬ Fits chgInfo p) : change chgInfo places = places := by
  induction places with
  | nil => rfl
  | cons p rest ih =>
    have hp := h p mem_cons_self
    unfold Fits at hp
    push Not at hp
    rw [change, if_neg hp.1, if_neg (fun hoff => hp.2 hoff.1 hoff.2),
      ih (fun q hq => h q (mem_cons_of_mem _ hq))]

theorem OneFits.rest {p : Place} (h : OneFits chgInfo (p :: places)) (hp : Fits chgInfo p) :
    ∀ q ∈ places, ¬ Fits chgInfo q := by
  intro q hq hfits
  exact (pairwise_cons.mp h).1 q hq ⟨hp, hfits⟩

/-- The validators after a change are what the change makes of the validators before it. -/
theorem filter_change (h : OneFits chgInfo places) :
    (change chgInfo places).filter isValidator = change chgInfo (places.filter isValidator) := by
  induction places with
  | nil => rfl
  | cons p rest ih =>
    have hrest := (pairwise_cons.mp h).2
    have hkeep (hp : Fits chgInfo p) :
        change chgInfo (rest.filter isValidator) = rest.filter isValidator := by
      apply change_of_none
      intro q hq
      exact h.rest hp q (mem_filter.mp hq).1
    have hrole : isValidator (chgInfo.account, p.2) = isValidator p := rfl
    rw [change]
    by_cases hv : isValidator p = true
    · rw [filter_cons_of_pos hv, change]
      split_ifs with hpos hoff
      · rw [filter_cons_of_pos (hrole.trans hv)]
      · rfl
      · rw [filter_cons_of_pos hv, ih hrest]
    · rw [filter_cons_of_neg hv]
      split_ifs with hpos hoff
      · rw [filter_cons_of_neg (by rw [hrole]; exact hv), hkeep (.inl hpos)]
      · rw [hkeep (.inr hoff)]
      · rw [filter_cons_of_neg hv, ih hrest]

/-- What is about a place that is missing in the part changes nothing there. -/
theorem change_sublist (h : OneFits chgInfo places) (hsub : places'.Sublist places) :
    (change chgInfo places').Sublist (change chgInfo places) := by
  induction hsub with
  | slnil => exact .slnil
  | @cons part rest p hsub ih =>
    have hkeep (hp : Fits chgInfo p) : change chgInfo part = part := by
      apply change_of_none
      intro q hq
      exact h.rest hp q (hsub.subset hq)
    rw [change]
    split_ifs with hpos hoff
    · rw [hkeep (.inl hpos)]
      exact hsub.cons _
    · rw [hkeep (.inr hoff)]
      exact hsub
    · exact (ih (pairwise_cons.mp h).2).cons p
  | @cons_cons part rest p hsub ih =>
    rw [change, change]
    split_ifs with hpos hoff
    · exact hsub.cons_cons _
    · exact hsub
    · exact (ih (pairwise_cons.mp h).2).cons_cons p

theorem positions_change (chgInfo : NetTopologyData) (places : List Place) :
    ((change chgInfo places).map (fun p => p.2.1)).Sublist (places.map (fun p => p.2.1)) := by
  induction places with
  | nil => exact .slnil
  | cons p rest ih =>
    rw [change]
    split_ifs with hpos hoff
    · exact .refl _
    · exact sublist_cons_self _ _
    · exact ih.cons_cons _

/-- With distinct positions an entry is about one place at most, unless it lists an account as
offline that has two places. -/
theorem oneFits_of_distinct (hpos : (places.map (fun p => p.2.1)).Nodup)
    (hnone : posOffline ∉ places.map (fun p => p.2.1))
    (hoff : chgInfo.position = posOffline → (places.map Prod.fst).count chgInfo.account ≤ 1) :
    OneFits chgInfo places := by
  induction places with
  | nil => exact .nil
  | cons p rest ih =>
    rw [map_cons, nodup_cons] at hpos
    rw [map_cons, mem_cons, not_or] at hnone
    refine pairwise_cons.mpr ⟨?_, ih hpos.2 hnone.2 ?_⟩
    · rintro q hq ⟨hp, hfits⟩
      have hqpos : q.2.1 ∈ rest.map (fun p => p.2.1) := mem_map_of_mem hq
      rcases hp with hp | ⟨hoffline, hp⟩
      · rcases hfits with hfits | ⟨hoffline, -⟩
        · exact hpos.1 (hp ▸ hfits ▸ hqpos)
        · exact hnone.1 (hoffline ▸ hp)
      · rcases hfits with hfits | ⟨-, hfits⟩
        · exact hnone.2 (hoffline ▸ hfits ▸ hqpos)
        · have hcount := hoff hoffline
          rw [map_cons, hp, count_cons_self] at hcount
          have hmem : p.1 ∈ rest.map Prod.fst := by
            rw [← hp, hfits]
            exact mem_map_of_mem hq
          have hpositive := count_pos_iff.mpr hmem
          omega
    · intro hoffline
      have hcount := hoff hoffline
      rw [map_cons, count_cons] at hcount
      omega

end Change

end Place

namespace TopologyGraph
variable {graph graph' next : TopologyGraph} {electList electList' : List Elect}

theorem places_change (graph : TopologyGraph) (chgInfo : NetTopologyData) :
    (graph.change electList chgInfo).places = Place.change chgInfo graph.places := by
  unfold places change
  generalize graph.curNodeNumber = curNodeNumber
  induction graph.nodeList with
  | nil => rfl
  | cons node rest ih =>
    have hposition : node.place.2.1 = node.position := rfl
    have haccount : node.place.1 = node.account := rfl
    rw [changeNode, map_cons, Place.change, hposition, haccount]
    by_cases hpos : chgInfo.position = node.position
    · rw [if_pos hpos, if_pos hpos]
      rfl
    · rw [if_neg hpos, if_neg hpos]
      by_cases hoff : chgInfo.position = posOffline ∧ chgInfo.account = node.account
      · rw [if_pos hoff, if_pos hoff]
      · rw [if_neg hoff, if_neg hoff]
        exact congrArg (node.place :: ·) ih

theorem places_foldl_change (data : List NetTopologyData) (graph : TopologyGraph) :
    (data.foldl (change electList) graph).places = Place.changes data graph.places := by
  induction data generalizing graph with
  | nil => rfl
  | cons chgInfo rest ih =>
    rw [foldl_cons, ih, places_change]
    rfl

structure Tidy (graph : TopologyGraph) : Prop where
  accounts : (graph.places.map Prod.fst).Nodup
  positions : (graph.places.map (fun p => p.2.1)).Nodup
  notOnline : posOnline ∉ graph.places.map (fun p => p.2.1)
  notOffline : posOffline ∉ graph.places.map (fun p => p.2.1)

/-- No entry of a change lists an account as offline while the entries before it have left the
account in two places. -/
def Settled (places : List Place) (data : List NetTopologyData) : Prop :=
  ∀ before chgInfo after, data = before ++ chgInfo :: after → chgInfo.position = posOffline →
    ((before.foldl (fun places chgInfo => Place.change chgInfo places) places).map Prod.fst).count
      chgInfo.account ≤ 1

theorem settled_nil (places : List Place) : Settled places [] := by
  intro before chgInfo after hsplit
  exact absurd hsplit.symm (append_ne_nil_of_right_ne_nil _ (cons_ne_nil _ _))

theorem settled_cons {places : List Place} {chgInfo : NetTopologyData} {rest : List NetTopologyData} :
    Settled places (chgInfo :: rest) ↔
      (chgInfo.position = posOffline → (places.map Prod.fst).count chgInfo.account ≤ 1) ∧
      Settled (Place.change chgInfo places) rest := by
  constructor
  · intro h
    refine ⟨h [] chgInfo rest rfl, ?_⟩
    intro before other after hsplit hoff
    exact h (chgInfo :: before) other after (by rw [hsplit]; rfl) hoff
  · rintro ⟨hfirst, hrest⟩ before other after hsplit hoff
    rcases before with _ | ⟨first, before⟩
    · cases hsplit
      exact hfirst hoff
    · rw [cons_append, cons.injEq] at hsplit
      obtain ⟨rfl, hsplit⟩ := hsplit
      exact hrest before other after hsplit hoff

structure Mirrors (graph' graph : TopologyGraph) : Prop where
  number : graph'.number = graph.number
  sublist : graph'.places.Sublist graph.places
  validators : graph'.places.filter Place.isValidator = graph.places.filter Place.isValidator

theorem mirrors_validatorsOnly (graph : TopologyGraph) : Mirrors graph.validatorsOnly graph := by
  have hrole : Place.isValidator ∘ TopologyNodeInfo.place =
      fun node => decide (node.type = .validator) := rfl
  refine ⟨rfl, filter_sublist.map _, ?_⟩
  unfold places validatorsOnly
  rw [filter_map, filter_map, hrole, filter_filter]
  simp only [Bool.and_self]

theorem changes_mirrors (data : List NetTopologyData) {places places' : List Place}
    (hsub : places'.Sublist places)
    (hvalid : places'.filter Place.isValidator = places.filter Place.isValidator)
    (hpos : (places.map (fun p => p.2.1)).Nodup) (hnone : posOffline ∉ places.map (fun p => p.2.1))
    (hsettled : Settled places data) :
    (Place.changes data places').Sublist (Place.changes data places) ∧
      (Place.changes data places').filter Place.isValidator =
        (Place.changes data places).filter Place.isValidator := by
  induction data generalizing places places' with
  | nil => exact ⟨hsub, hvalid⟩
  | cons chgInfo rest ih =>
    obtain ⟨hfirst, hrest⟩ := settled_cons.mp hsettled
    have hfits : Place.OneFits chgInfo places := Place.oneFits_of_distinct hpos hnone hfirst
    have hfits' : Place.OneFits chgInfo places' := hfits.sublist hsub
    have hpositions := Place.positions_change chgInfo places
    refine ih (Place.change_sublist hfits hsub) ?_ (hpositions.nodup hpos)
      (fun hmem => hnone (hpositions.subset hmem)) hrest
    rw [Place.filter_change hfits, Place.filter_change hfits', hvalid]

theorem number_foldl_addNode (electList : List Elect) (data : List NetTopologyData)
    (graph : TopologyGraph) : (data.foldl (addNode electList) graph).number = graph.number := by
  induction data generalizing graph with
  | nil => rfl
  | cons d rest ih => rw [foldl_cons, ih, addNode]

theorem number_foldl_change (electList : List Elect) (data : List NetTopologyData)
    (graph : TopologyGraph) :
    (data.foldl (change electList) graph).number = graph.number := by
  induction data generalizing graph with
  | nil => rfl
  | cons d rest ih => rw [foldl_cons, ih, change]

theorem places_foldl_addNode (electList : List Elect) (data : List NetTopologyData)
    (hnil : graph.nodeList = []) :
    (data.foldl (addNode electList) graph).places =
      data.map (fun d => (d.account, d.position, getRoleTypeFromPosition d.position)) := by
  have hfold := foldl_addNode_places electList data graph
  rw [hnil, map_nil] at hfold
  exact hfold

/-- A full list makes both graphs anew. -/
theorem Mirrors.transfer2NextGraph (h : Mirrors graph' graph) (htidy : graph.Tidy)
    (electList electList' : List Elect) (number : ℕ) (topology : NetTopology)
    (hsettled : topology.type = netTopoTypeChange → Settled graph.places topology.netTopologyData) :
    (∃ err err', graph.transfer2NextGraph electList number topology = .error err ∧
      graph'.transfer2NextGraph electList' number topology = .error err') ∨
    ∃ next next', graph.transfer2NextGraph electList number topology = .ok next ∧
      graph'.transfer2NextGraph electList' number topology = .ok next' ∧ Mirrors next' next := by
  unfold TopologyGraph.transfer2NextGraph
  rw [h.number]
  split_ifs with hnum hall hchange
  · exact .inl ⟨_, _, rfl, rfl⟩
  · refine .inr ⟨_, _, rfl, rfl, ?_, ?_, ?_⟩
    · rw [number_foldl_addNode, number_foldl_addNode]
    · rw [places_foldl_addNode _ _ rfl, places_foldl_addNode _ _ rfl]
    · rw [places_foldl_addNode _ _ rfl, places_foldl_addNode _ _ rfl]
  · have hmirrors := changes_mirrors topology.netTopologyData h.sublist h.validators
      htidy.positions htidy.notOffline (hsettled hchange)
    refine .inr ⟨_, _, rfl, rfl, ?_, ?_, ?_⟩
    · rw [number_foldl_change, number_foldl_change]
    · rw [places_foldl_change, places_foldl_change]
      exact hmirrors.1
    · rw [places_foldl_change, places_foldl_change]
      exact hmirrors.2
  · exact .inl ⟨_, _, rfl, rfl⟩

end TopologyGraph

namespace DposEngine
variable {Hash : Type} (D : DposEngine Hash)

def verifyBlocksFrom (O : DposOrders) : TopologyGraph → List (Header Hash) → Except GoError Unit
  | _, [] => pure ()
  | preGraph, header :: rest => do
    if isBroadcastNumber header.number then
      ChainDb.annotate
        ("header(number:" ++ toString header.number ++ ") verify Broadcast Block err: ")
        (D.verifyBroadcastBlock header)
    else
      let _ ← ChainDb.annotate ("header(number:" ++ toString header.number ++ ") dpos verify err: ")
        (D.verifyHashWithStocks (D.hashNoSignsAndNonce header) header.signatures
          (graph2ValidatorStocks preGraph) O)
    let preGraph ←
      ChainDb.annotate ("header(number:" ++ toString header.number ++ ") gen next topology err: ")
        (preGraph.transfer2NextGraph [] header.number header.netTopology)
    verifyBlocksFrom O preGraph rest

def verifyBlocks (reader : ValidatorReader) (headers : List (Header Hash)) (O : DposOrders) :
    Except GoError Unit :=
  match headers with
  | [] => throw errInputHeaderErr
  | header :: _ => do
    let preGraph ← reader.getValidatorByNumber (header.number-1)
    D.verifyBlocksFrom O preGraph headers

variable {D}

/-- A second node of an account adds nothing. -/
theorem mem_foldl_validatorStocks {a : Address} (nodes : List TopologyNodeInfo)
    (stocks : GoMap Address UInt16) :
    a ∈ nodes.foldl (fun stocks node =>
      if node.type ≠ .validator then stocks
      else if node.account ∈ stocks then stocks
      else stocks.insert node.account node.stock) stocks ↔
    a ∈ stocks ∨
      a ∈ ((nodes.map TopologyNodeInfo.place).filter Place.isValidator).map Prod.fst := by
  induction nodes generalizing stocks with
  | nil => simp
  | cons node rest ih =>
    rw [foldl_cons, ih, map_cons]
    by_cases hv : node.type = .validator
    · have hplace : Place.isValidator node.place = true := decide_eq_true hv
      rw [filter_cons_of_pos hplace, map_cons, mem_cons, if_neg (not_not.mpr hv)]
      have haccount : node.place.1 = node.account := rfl
      by_cases hin : node.account ∈ stocks
      · rw [if_pos hin]
        constructor
        · rintro (h | h)
          · exact .inl h
          · exact .inr (.inr h)
        · rintro (h | rfl | h)
          · exact .inl h
          · exact .inl hin
          · exact .inr h
      · rw [if_neg hin, mem_insert]
        tauto
    · have hplace : ¬ Place.isValidator node.place = true := fun h => hv (of_decide_eq_true h)
      rw [filter_cons_of_neg hplace, if_pos hv]

theorem mem_graph2ValidatorStocks {graph : TopologyGraph} {a : Address} :
    a ∈ (graph2ValidatorStocks graph).keys ↔
      a ∈ (graph.places.filter Place.isValidator).map Prod.fst := by
  rw [Finmap.mem_keys, graph2ValidatorStocks, mem_foldl_validatorStocks]
  constructor
  · rintro (h | h)
    · exact absurd h notMem_empty
    · exact h
  · intro h
    exact .inr h

theorem keys_graph2ValidatorStocks {graph graph' : TopologyGraph} (h : graph'.Mirrors graph) :
    (graph2ValidatorStocks graph').keys = (graph2ValidatorStocks graph).keys := by
  ext a
  rw [mem_graph2ValidatorStocks, mem_graph2ValidatorStocks, h.validators]

theorem accepts_congr {stocks stocks' : GoMap Address UInt16} (h : stocks.keys = stocks'.keys)
    (signHash : Hash) (signs : List Signature) (O O' : DposOrders) :
    D.Accepts signHash signs stocks O ↔ D.Accepts signHash signs stocks' O' := by
  unfold Accepts
  rw [verifyHashWithStocks_isOk_iff, verifyHashWithStocks_isOk_iff]
  unfold agreeAccounts GoMap.len
  rw [h]

theorem verifyBlocks_cons (reader : ValidatorReader) (header : Header Hash)
    (rest : List (Header Hash)) (O : DposOrders) :
    D.verifyBlocks reader (header :: rest) O = reader.getValidatorByNumber (header.number-1) >>=
      fun preGraph => D.verifyBlocksFrom O preGraph (header :: rest) := rfl

theorem verifyBlocksFrom_cons {O : DposOrders} {preGraph : TopologyGraph} {header : Header Hash}
    {rest : List (Header Hash)} :
    D.verifyBlocksFrom O preGraph (header :: rest) = .ok () ↔
      (if isBroadcastNumber header.number then D.verifyBroadcastBlock header = .ok ()
        else D.Accepts (D.hashNoSignsAndNonce header) header.signatures
          (graph2ValidatorStocks preGraph) O) ∧
      ∃ next, preGraph.transfer2NextGraph [] header.number header.netTopology = .ok next ∧
        D.verifyBlocksFrom O next rest = .ok () := by
  rw [verifyBlocksFrom]
  split_ifs with hb
  · simp only [bind_eq_ok_iff, ChainDb.annotate_eq_ok]
    constructor
    · rintro ⟨u, hbroadcast, next, hnext, hrest⟩
      exact ⟨hbroadcast, next, hnext, hrest⟩
    · rintro ⟨hbroadcast, next, hnext, hrest⟩
      exact ⟨(), hbroadcast, next, hnext, hrest⟩
  · simp only [bind_eq_ok_iff, ChainDb.annotate_eq_ok]
    constructor
    · rintro ⟨right, haccepts, next, hnext, hrest⟩
      exact ⟨⟨right, haccepts⟩, next, hnext, hrest⟩
    · rintro ⟨⟨right, haccepts⟩, next, hnext, hrest⟩
      exact ⟨right, haccepts, next, hnext, hrest⟩

end DposEngine

namespace ChainDb
variable {Hash : Type} [DecidableEq Hash] (hash : Header Hash → Hash) (db : ChainDb Hash)

def extend (header : Header Hash) (graph : TopologyGraph) : ChainDb Hash :=
  { db with
    canonicalHash := db.canonicalHash.insert header.number (hash header)
    headers := db.headers.insert (header.number,hash header) header
    graphs := db.graphs.insert (header.number,hash header) graph
    currentHeader := header }

def importHeaders (D : DposEngine Hash) (O : DposOrders) :
    ChainDb Hash → List (Header Hash) → Except GoError (ChainDb Hash)
  | db, [] => pure db
  | db, header :: rest => do
    D.verifyBlock (db.reader hash) header O
    let graph ← db.newTopologyGraph hash header
    importHeaders D O (db.extend hash header graph) rest

def Consecutive (number : ℕ) : List (Header Hash) → Prop
  | [] => True
  | header :: rest => header.number = number+1 ∧ Consecutive (number+1) rest

def ElectAvailable (headers : List (Header Hash)) : Prop :=
  ∀ header ∈ headers, ∀ k ∈ electNumbers header.number, k ≤ db.currentHeader.number →
    (db.getHeaderByNumber k).isSome

/-- Every graph along a run is tidy. -/
def TidyRun : ChainDb Hash → List (Header Hash) → Prop
  | _, [] => True
  | db, header :: rest =>
    (∀ graph, db.getTopologyGraphByNumber hash (header.number-1) = .ok graph → graph.Tidy) ∧
    ∀ graph, db.newTopologyGraph hash header = .ok graph →
      graph.Tidy ∧ TidyRun (db.extend hash header graph) rest

/-- Every change along a run is settled. -/
def SettledRun : ChainDb Hash → List (Header Hash) → Prop
  | _, [] => True
  | db, header :: rest =>
    (header.netTopology.type = netTopoTypeChange →
      ∀ graph, db.getTopologyGraphByNumber hash (header.number-1) = .ok graph →
        Settled graph.places header.netTopology.netTopologyData) ∧
    ∀ graph, db.newTopologyGraph hash header = .ok graph →
      SettledRun (db.extend hash header graph) rest

section Extend
variable {hash db} {header : Header Hash} {graph : TopologyGraph}

theorem getHeaderByNumber_extend (number : ℕ) :
    (db.extend hash header graph).getHeaderByNumber number =
      if number = header.number then some header else db.getHeaderByNumber number := by
  unfold getHeaderByNumber getHeader extend
  split_ifs with h
  · rw [h, lookup_insert, Option.bind_some, lookup_insert]
  · rw [lookup_insert_of_ne _ h]
    have hkey (k : Hash) : (number,k) ≠ (header.number,hash header) := by
      intro hkey
      exact h (congrArg Prod.fst hkey)
    simp only [lookup_insert_of_ne _ (hkey _)]

theorem getTopologyGraphByNumber_extend :
    (db.extend hash header graph).getTopologyGraphByNumber hash header.number = .ok graph := by
  rw [getTopologyGraphByNumber_eq_ok]
  refine ⟨header, ?_, ?_⟩
  · rw [getHeaderByNumber_extend, if_pos rfl]
  · exact lookup_insert _

theorem ElectAvailable.extend {rest : List (Header Hash)}
    (h : db.ElectAvailable (header :: rest)) (hnum : header.number = db.currentHeader.number+1) :
    (db.extend hash header graph).ElectAvailable rest := by
  intro other hother k hk hle
  rw [getHeaderByNumber_extend]
  split_ifs with hnew
  · rfl
  · apply h other (mem_cons_of_mem _ hother) k hk
    have hcurrent : (db.extend hash header graph).currentHeader.number = header.number := rfl
    omega

end Extend

section Import
variable {hash db} {D : DposEngine Hash} {header : Header Hash} {graph : TopologyGraph}

theorem verifyBlock_reader (O : DposOrders)
    (hgraph : db.getTopologyGraphByNumber hash (header.number-1) = .ok graph) :
    D.verifyBlock (db.reader hash) header O = .ok () ↔
      if isBroadcastNumber header.number then D.verifyBroadcastBlock header = .ok ()
      else D.Accepts (D.hashNoSignsAndNonce header) header.signatures
        (graph2ValidatorStocks graph) O := by
  unfold verifyBlock
  split_ifs with hb
  · rfl
  · have hstocks : getValidatorStocks (db.reader hash) header.number =
        .ok (graph2ValidatorStocks graph.validatorsOnly) := by
      unfold getValidatorStocks
      dsimp only [reader]
      rw [getValidatorByNumber, hgraph]
      rfl
    have hkeys := keys_graph2ValidatorStocks graph.mirrors_validatorsOnly
    rw [← accepts_congr hkeys _ _ O O, hstocks, ok_bind, bind_eq_ok_iff]
    constructor
    · rintro ⟨right, hright, -⟩
      exact ⟨right, hright⟩
    · rintro ⟨right, hright⟩
      exact ⟨right, hright, rfl⟩

variable {rest : List (Header Hash)}

theorem importHeaders_cons {O : DposOrders} :
    (∃ db', importHeaders hash D O db (header :: rest) = .ok db') ↔
      D.verifyBlock (db.reader hash) header O = .ok () ∧
      ∃ next, db.newTopologyGraph hash header = .ok next ∧
        ∃ db', importHeaders hash D O (db.extend hash header next) rest = .ok db' := by
  rw [importHeaders]
  simp only [bind_eq_ok_iff]
  constructor
  · rintro ⟨db', u, hverify, next, hnext, hrest⟩
    exact ⟨hverify, next, hnext, db', hrest⟩
  · rintro ⟨hverify, next, hnext, db', hrest⟩
    exact ⟨db', (), hverify, next, hnext, hrest⟩

theorem newTopologyGraph_iff_transfer (hnum : header.number = db.currentHeader.number+1)
    (helect : db.ElectAvailable (header :: rest))
    (hgraph : db.getTopologyGraphByNumber hash (header.number-1) = .ok graph) :
    ∃ electList, ∀ next, db.newTopologyGraph hash header = .ok next ↔
      graph.transfer2NextGraph electList header.number header.netTopology = .ok next := by
  obtain ⟨electList, helectList⟩ : ∃ electList,
      db.getOriginalElect header.number = .ok electList := by
    apply originalElect_isOk
    intro k hk
    have hlt := electNumbers_lt (by omega) hk
    exact helect header mem_cons_self k hk (by omega)
  refine ⟨electList, ?_⟩
  intro next
  rw [newTopologyGraph_eq_ok (by omega), hgraph, helectList]
  simp

/-- The two ways of verifying go hand in hand: the batch carries a graph that mirrors the graph of
the head of the chain. -/
theorem verifyBlocksFrom_iff_importHeaders {headers : List (Header Hash)} {preGraph : TopologyGraph}
    (O O' : DposOrders) (hnum : Consecutive db.currentHeader.number headers)
    (helect : db.ElectAvailable headers) (htidy : TidyRun hash db headers)
    (hsettled : SettledRun hash db headers)
    (hgraph : db.getTopologyGraphByNumber hash db.currentHeader.number = .ok graph)
    (hmirrors : Mirrors preGraph graph) :
    D.verifyBlocksFrom O preGraph headers = .ok () ↔
      ∃ db', importHeaders hash D O' db headers = .ok db' := by
  induction headers generalizing db preGraph graph with
  | nil => exact iff_of_true rfl ⟨db, rfl⟩
  | cons header rest ih =>
    obtain ⟨hheader, hrest⟩ := hnum
    have hbelow : header.number-1 = db.currentHeader.number := by omega
    have hgraph' : db.getTopologyGraphByNumber hash (header.number-1) = .ok graph := by
      rw [hbelow]
      exact hgraph
    have hkeys := keys_graph2ValidatorStocks hmirrors
    rw [verifyBlocksFrom_cons, importHeaders_cons, verifyBlock_reader O' hgraph',
      accepts_congr hkeys _ _ O O']
    apply and_congr_right
    intro _
    obtain ⟨electList, hnew⟩ := newTopologyGraph_iff_transfer hheader helect hgraph'
    rcases hmirrors.transfer2NextGraph (htidy.1 graph hgraph') electList [] header.number
        header.netTopology (fun htype => hsettled.1 htype graph hgraph') with
      ⟨err, err', herr, herr'⟩ | ⟨next, next', hnext, hnext', hmirrors'⟩
    · constructor
      · rintro ⟨next', hnext', -⟩
        rw [herr'] at hnext'
        cases hnext'
      · rintro ⟨next, hnext, -⟩
        rw [hnew, herr] at hnext
        cases hnext
    · have hnext'' := (hnew next).mpr hnext
      have hcurrent : (db.extend hash header next).currentHeader.number = header.number := rfl
      have hconsecutive : Consecutive (db.extend hash header next).currentHeader.number rest := by
        rw [hcurrent, hheader]
        exact hrest
      have hgo := ih hconsecutive (helect.extend hheader) (htidy.2 next hnext'').2
        (hsettled.2 next hnext'') getTopologyGraphByNumber_extend hmirrors'
      constructor
      · rintro ⟨found, hfound, hverify⟩
        rw [hnext', Except.ok.injEq] at hfound
        subst hfound
        exact ⟨next, hnext'', hgo.mp hverify⟩
      · rintro ⟨found, hfound, himport⟩
        rw [hnext'', Except.ok.injEq] at hfound
        subst hfound
        exact ⟨next', hnext', hgo.mpr himport⟩

end Import

/-- If all graphs on the way are tidy and all changes settled, the batch is accepted exactly when
the headers can be imported one by one. -/
theorem verifyBlocks_iff_importHeaders (D : DposEngine Hash) (hash : Header Hash → Hash)
    (db : ChainDb Hash) (headers : List (Header Hash)) (O O' : DposOrders) (hne : headers ≠ [])
    (hnum : Consecutive db.currentHeader.number headers) (helect : db.ElectAvailable headers)
    (htidy : TidyRun hash db headers) (hsettled : SettledRun hash db headers) :
    D.verifyBlocks (db.reader hash) headers O = .ok () ↔
      ∃ db', importHeaders hash D O' db headers = .ok db' := by
  obtain ⟨header, rest, rfl⟩ := exists_cons_of_ne_nil hne
  have hheader := hnum.1
  have hbelow : header.number-1 = db.currentHeader.number := by omega
  rw [verifyBlocks_cons]
  dsimp only [reader]
  rw [hbelow, getValidatorByNumber]
  rcases hgraph : db.getTopologyGraphByNumber hash db.currentHeader.number with err | graph
  · rw [error_bind, importHeaders_cons]
    constructor
    · intro h
      cases h
    · rintro ⟨-, next, hnext, -⟩
      rw [newTopologyGraph_eq_ok (by omega), hbelow] at hnext
      obtain ⟨preGraph, -, hpre, -⟩ := hnext
      rw [hgraph] at hpre
      cases hpre
  · exact verifyBlocksFrom_iff_importHeaders O O' hnum helect htidy hsettled hgraph
      graph.mirrors_validatorsOnly

section Sample

def changeHeader (number : ℕ) (data : List NetTopologyData) (signatures : List Signature) :
    Header ℕ :=
  { emptyHeader with
    number := number, netTopology := ⟨netTopoTypeChange, data⟩, signatures := signatures }

def fourValidators : TopologyGraph where
  number := 0
  nodeList := [⟨9, 0x0000, .miner, 1, 0⟩, ⟨1, 0x2000, .validator, 1, 1⟩,
    ⟨2, 0x2001, .validator, 1, 2⟩, ⟨3, 0x2002, .validator, 1, 3⟩, ⟨4, 0x2003, .validator, 1, 4⟩]
  curNodeNumber := 4

def sampleChain : ChainDb ℕ where
  canonicalHash := (∅ : GoMap ℕ ℕ).insert 0 0
  headers := (∅ : GoMap (ℕ × ℕ) (Header ℕ)).insert (0,0) (changeHeader 0 [] [])
  tds := (∅ : GoMap (ℕ × ℕ) ℕ).insert (0,0) 1
  graphs := (∅ : GoMap (ℕ × ℕ) TopologyGraph).insert (0,0) fourValidators
  currentHeader := changeHeader 0 [] []

def numberHash (header : Header ℕ) : ℕ := header.number

theorem sampleChain_graph :
    sampleChain.getTopologyGraphByNumber numberHash 0 = .ok fourValidators := rfl

theorem sampleChain_elect (headers : List (Header ℕ)) : sampleChain.ElectAvailable headers := by
  intro header hheader k hk hle
  have hzero : k = 0 := Nat.le_zero.mp hle
  rw [hzero]
  rfl

instance (graph : TopologyGraph) : Decidable graph.Tidy :=
  decidable_of_iff ((graph.places.map Prod.fst).Nodup ∧ (graph.places.map (fun p => p.2.1)).Nodup ∧
      posOnline ∉ graph.places.map (fun p => p.2.1) ∧ posOffline ∉ graph.places.map (fun p => p.2.1))
    ⟨fun h => ⟨h.1, h.2.1, h.2.2.1, h.2.2.2⟩, fun h => ⟨h.1, h.2, h.3, h.4⟩⟩

theorem fourValidators_tidy : fourValidators.Tidy := by decide +kernel

/-- Account 5 takes the place of validator 4, and the miner goes offline. -/
def replacingHeader : Header ℕ := changeHeader 1 [⟨5, 0x2003⟩, ⟨9, posOffline⟩] [1,2,3,4]

def afterReplacing : TopologyGraph where
  number := 1
  nodeList := [⟨1, 0x2000, .validator, 1, 1⟩, ⟨2, 0x2001, .validator, 1, 2⟩,
    ⟨3, 0x2002, .validator, 1, 3⟩, ⟨5, 0x2003, .validator, 1, 5⟩]
  curNodeNumber := 5

/-- The validators are now 1, 2, 3 and 5, and 2 goes offline. -/
def offlineHeader : Header ℕ := changeHeader 2 [⟨2, posOffline⟩] [1,2,3,5]

def afterOffline : TopologyGraph where
  number := 2
  nodeList := [⟨1, 0x2000, .validator, 1, 1⟩, ⟨3, 0x2002, .validator, 1, 3⟩,
    ⟨5, 0x2003, .validator, 1, 5⟩]
  curNodeNumber := 5

theorem newTopologyGraph_replacing :
    sampleChain.newTopologyGraph numberHash replacingHeader = .ok afterReplacing := rfl

theorem newTopologyGraph_offline : (sampleChain.extend numberHash replacingHeader
    afterReplacing).newTopologyGraph numberHash offlineHeader = .ok afterOffline := rfl

theorem afterReplacing_graph : (sampleChain.extend numberHash replacingHeader
    afterReplacing).getTopologyGraphByNumber numberHash (offlineHeader.number-1) = .ok afterReplacing :=
  rfl

theorem tidyRun_replacing : TidyRun numberHash sampleChain [replacingHeader, offlineHeader] := by
  have htidy : afterReplacing.Tidy := by decide +kernel
  refine ⟨?_, ?_⟩
  · intro graph hgraph
    cases sampleChain_graph.symm.trans hgraph
    exact fourValidators_tidy
  · intro graph hgraph
    cases newTopologyGraph_replacing.symm.trans hgraph
    refine ⟨htidy, ?_, ?_⟩
    · intro graph hgraph
      cases afterReplacing_graph.symm.trans hgraph
      exact htidy
    · intro graph hgraph
      cases newTopologyGraph_offline.symm.trans hgraph
      exact ⟨by decide +kernel, trivial⟩

theorem settledRun_replacing : SettledRun numberHash sampleChain [replacingHeader, offlineHeader] := by
  refine ⟨?_, ?_⟩
  · intro _ graph hgraph
    cases sampleChain_graph.symm.trans hgraph
    refine settled_cons.mpr ⟨by decide, settled_cons.mpr ⟨fun _ => ?_, settled_nil _⟩⟩
    decide +kernel
  · intro graph hgraph
    cases newTopologyGraph_replacing.symm.trans hgraph
    refine ⟨?_, fun _ _ => trivial⟩
    intro _ graph hgraph
    cases afterReplacing_graph.symm.trans hgraph
    exact settled_cons.mpr ⟨fun _ => by decide +kernel, settled_nil _⟩

/-- The batch follows the validators through both changes, so the headers can be imported. -/
theorem verifyBlocks_iff_importHeaders_replacing :
    sampleEngine.verifyBlocks (sampleChain.reader numberHash) [replacingHeader, offlineHeader] default =
      .ok () ∧
    ∃ db', importHeaders numberHash sampleEngine default sampleChain
      [replacingHeader, offlineHeader] = .ok db' := by
  have hfirst : (sampleChain.reader numberHash).getValidatorByNumber (replacingHeader.number-1) =
      .ok fourValidators.validatorsOnly := rfl
  have hverify : sampleEngine.verifyBlocks (sampleChain.reader numberHash)
      [replacingHeader, offlineHeader] default = .ok () := by
    rw [verifyBlocks_cons, hfirst, ok_bind, verifyBlocksFrom_cons]
    refine ⟨?_, _, rfl, ?_⟩
    · exact (accepts_iff_card _ _ (by decide +kernel) _).mpr (by decide +kernel)
    · rw [verifyBlocksFrom_cons]
      refine ⟨?_, _, rfl, rfl⟩
      exact (accepts_iff_card _ _ (by decide +kernel) _).mpr (by decide +kernel)
  have hnum : Consecutive sampleChain.currentHeader.number [replacingHeader, offlineHeader] :=
    ⟨rfl, rfl, trivial⟩
  exact ⟨hverify, (verifyBlocks_iff_importHeaders sampleEngine numberHash sampleChain _ default default
    (cons_ne_nil _ _) hnum (sampleChain_elect _) tidyRun_replacing settledRun_replacing).mp hverify⟩

def unsettledHeader : Header ℕ := changeHeader 1 [⟨1, 0x0000⟩, ⟨1, posOffline⟩] [1,2,3,4]

def threeSignedHeader : Header ℕ := changeHeader 2 [] [2,3,4]

/-- The graph with all its nodes loses the place of the miner, and account 1 stays a validator. -/
def afterUnsettled : TopologyGraph where
  number := 1
  nodeList := [⟨1, 0x2000, .validator, 1, 1⟩, ⟨2, 0x2001, .validator, 1, 2⟩,
    ⟨3, 0x2002, .validator, 1, 3⟩, ⟨4, 0x2003, .validator, 1, 4⟩]
  curNodeNumber := 5

theorem newTopologyGraph_unsettled :
    sampleChain.newTopologyGraph numberHash unsettledHeader = .ok afterUnsettled := rfl

theorem tidyRun_unsettled :
    TidyRun numberHash sampleChain [unsettledHeader, threeSignedHeader] := by
  refine ⟨?_, ?_⟩
  · intro graph hgraph
    cases sampleChain_graph.symm.trans hgraph
    exact fourValidators_tidy
  · intro graph hgraph
    cases newTopologyGraph_unsettled.symm.trans hgraph
    have htidy : afterUnsettled.Tidy := by decide +kernel
    refine ⟨htidy, ?_, ?_⟩
    · intro graph hgraph
      have hafter : (sampleChain.extend numberHash unsettledHeader afterUnsettled).getTopologyGraphByNumber
          numberHash (threeSignedHeader.number-1) = .ok afterUnsettled := rfl
      cases hafter.symm.trans hgraph
      exact htidy
    · intro graph hgraph
      cases show Except.ok { afterUnsettled with number := 2 } = .ok graph from hgraph
      exact ⟨by decide +kernel, trivial⟩

/-- The batch loses validator 1 and accepts the second header, which cannot be imported on its own. An
empty run is refused by the batch only. -/
theorem batch_accepts_unimportable :
    (sampleEngine.verifyBlocks (sampleChain.reader numberHash) [] default ≠ .ok () ∧
      ∃ db', importHeaders numberHash sampleEngine default sampleChain [] = .ok db') ∧
    Consecutive sampleChain.currentHeader.number [unsettledHeader, threeSignedHeader] ∧
    sampleChain.ElectAvailable [unsettledHeader, threeSignedHeader] ∧
    TidyRun numberHash sampleChain [unsettledHeader, threeSignedHeader] ∧
    (∀ O, sampleEngine.verifyBlocks (sampleChain.reader numberHash)
      [unsettledHeader, threeSignedHeader] O = .ok ()) ∧
    ∀ O, ¬ ∃ db', importHeaders numberHash sampleEngine O sampleChain
      [unsettledHeader, threeSignedHeader] = .ok db' := by
  refine ⟨⟨?_, sampleChain, rfl⟩, ⟨rfl, rfl, trivial⟩, sampleChain_elect _, tidyRun_unsettled, ?_, ?_⟩
  · intro h
    cases h
  · intro O
    have hfirst : (sampleChain.reader numberHash).getValidatorByNumber (unsettledHeader.number-1) =
        .ok fourValidators.validatorsOnly := rfl
    rw [verifyBlocks_cons, hfirst, ok_bind, verifyBlocksFrom_cons]
    refine ⟨?_, _, rfl, ?_⟩
    · exact (accepts_iff_card _ _ (by decide +kernel) O).mpr (by decide +kernel)
    · rw [verifyBlocksFrom_cons]
      refine ⟨?_, _, rfl, rfl⟩
      exact (accepts_iff_card _ _ (by decide +kernel) O).mpr (by decide +kernel)
  · intro O h
    obtain ⟨-, next, hnext, h⟩ := importHeaders_cons.mp h
    cases newTopologyGraph_unsettled.symm.trans hnext
    obtain ⟨hverify, -⟩ := importHeaders_cons.mp h
    have hgraph : (sampleChain.extend numberHash unsettledHeader afterUnsettled).getTopologyGraphByNumber
        numberHash (threeSignedHeader.number-1) = .ok afterUnsettled := rfl
    rw [verifyBlock_reader O hgraph] at hverify
    have hcount := (accepts_iff_card _ _ (by decide +kernel) O).mp hverify
    exact absurd hcount (by decide +kernel)

end Sample

end ChainDb

end MatrixNode
