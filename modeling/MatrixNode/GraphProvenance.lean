import MatrixNode.HeaderChain

/-! Where the stored topology graphs come from. -/
namespace MatrixNode
open GoLib Finmap List Option

namespace ChainDb
variable {Hash : Type} [DecidableEq Hash] (hash : Header Hash → Hash) (db db' : ChainDb Hash)

def back : ℕ → Header Hash → Option (Header Hash)
  | 0, header => some header
  | n+1, header =>
    (db.getHeader header.parentHash (header.number-1)).bind (fun parent => back n parent)

def ancestorAt (header : Header Hash) (number : ℕ) : Option (Header Hash) :=
  db.back (header.number-number) header

/-- A graph is derived from the graph of the header's own parent and the elections of its own
ancestors. -/
def Derived (header : Header Hash) (graph : TopologyGraph) : Prop :=
  (header.number = 0 ∧ newGenesisTopologyGraph header = .ok graph) ∨
  (header.number ≠ 0 ∧ ∃ preGraph electList,
    db.graphs.lookup (header.number-1,header.parentHash) = some preGraph ∧
    originalElect (db.ancestorAt header) header.number = .ok electList ∧
    preGraph.transfer2NextGraph electList header.number header.netTopology = .ok graph)

/-- At every lower height the canonical header is the header's own ancestor. -/
def OwnChain (header : Header Hash) : Prop :=
  ∀ k < header.number, ∃ a, db.ancestorAt header k = some a ∧ db.getHeaderByNumber k = some a

def StandsAt (header : Header Hash) : Prop :=
  db.canonicalHash.lookup header.number = some (hash header) ∧ db.OwnChain header

/-- The canonical chain is the chain of each of its headers. -/
def Linked : Prop :=
  ∀ number h, db.canonicalHash.lookup number = some h →
    ∃ header, db.getHeader h number = some header ∧ db.OwnChain header

def Provenance (S : Set (Header Hash)) : Prop :=
  ∀ header ∈ S, ∀ graph, db.graphs.lookup (header.number,hash header) = some graph →
    db.Derived header graph

/-- Headers and difficulties are filed under their own number and hash, which no two of the headers
share, and the graphs are derived. -/
structure Traced (S : Set (Header Hash)) : Prop where
  inj : Set.InjOn hash S
  headers : ∀ number h header, db.headers.lookup (number,h) = some header →
    header ∈ S ∧ header.number = number ∧ hash header = h
  tds : ∀ number h td, db.tds.lookup (number,h) = some td →
    ∃ header ∈ S, header.number = number ∧ hash header = h
  derived : db.Provenance hash S

structure Grows : Prop where
  headers : ∀ key header, db.headers.lookup key = some header → db'.headers.lookup key = some header
  graphs : ∀ key graph, db.graphs.lookup key = some graph → db'.graphs.lookup key = some graph

section Growth
variable {hash db db'} {db'' : ChainDb Hash} {header : Header Hash} {graph : TopologyGraph}

theorem Grows.refl (db : ChainDb Hash) : Grows db db := ⟨fun _ _ h => h, fun _ _ h => h⟩

theorem Grows.trans (h : Grows db db') (h' : Grows db' db'') : Grows db db'' :=
  ⟨fun key header hk => h'.headers key header (h.headers key header hk),
    fun key graph hk => h'.graphs key graph (h.graphs key graph hk)⟩

theorem Grows.of_same (hheaders : db'.headers = db.headers) (hgraphs : db'.graphs = db.graphs) :
    Grows db db' := by
  constructor
  · rw [hheaders]
    exact fun _ _ hk => hk
  · rw [hgraphs]
    exact fun _ _ hk => hk

theorem Grows.back (h : Grows db db') {n : ℕ} {a : Header Hash}
    (hback : db.back n header = some a) : db'.back n header = some a := by
  induction n generalizing header with
  | zero => exact hback
  | succ n ih =>
    obtain ⟨parent, hparent, hback⟩ := bind_eq_some_iff.mp hback
    have hparent' : db'.getHeader header.parentHash (header.number-1) = some parent :=
      h.headers _ _ hparent
    rw [ChainDb.back, hparent']
    exact ih hback

theorem Derived.mono (h : db.Derived header graph) (hgrows : Grows db db') :
    db'.Derived header graph := by
  rcases h with h | ⟨hpos, preGraph, electList, hpre, helect, htransfer⟩
  · exact .inl h
  · refine .inr ⟨hpos, preGraph, electList, hgrows.graphs _ _ hpre, ?_, htransfer⟩
    exact originalElect_mono (fun k a ha => hgrows.back ha) helect

theorem OwnChain.mono (h : db.OwnChain header) (hgrows : Grows db db')
    (hcanonical : ∀ k < header.number, db'.canonicalHash.lookup k = db.canonicalHash.lookup k) :
    db'.OwnChain header := by
  intro k hk
  obtain ⟨a, hancestor, hnumber⟩ := h k hk
  refine ⟨a, hgrows.back hancestor, ?_⟩
  obtain ⟨key, hkey, hheader⟩ := bind_eq_some_iff.mp hnumber
  rw [getHeaderByNumber, hcanonical k hk, hkey]
  exact hgrows.headers _ _ hheader

theorem StandsAt.mono (h : db.StandsAt hash header) (hgrows : Grows db db')
    (hcanonical : ∀ k ≤ header.number, db'.canonicalHash.lookup k = db.canonicalHash.lookup k) :
    db'.StandsAt hash header := by
  refine ⟨?_, h.2.mono hgrows (fun k hk => hcanonical k hk.le)⟩
  rw [hcanonical _ le_rfl]
  exact h.1

theorem Provenance.mono {S : Set (Header Hash)} (h : db.Provenance hash S) (hgrows : Grows db db')
    (hgraphs : db'.graphs = db.graphs) : db'.Provenance hash S := by
  intro header hheader graph hgraph
  rw [hgraphs] at hgraph
  exact (h header hheader graph hgraph).mono hgrows

theorem Traced.of_same {S : Set (Header Hash)} (h : db.Traced hash S)
    (hheaders : db'.headers = db.headers) (htds : db'.tds = db.tds)
    (hgraphs : db'.graphs = db.graphs) : db'.Traced hash S := by
  refine ⟨h.inj, ?_, ?_, h.derived.mono (.of_same hheaders hgraphs) hgraphs⟩
  · rw [hheaders]
    exact h.headers
  · rw [htds]
    exact h.tds

end Growth

section Save
variable {hash db db'} {S : Set (Header Hash)} {header : Header Hash} {graph : TopologyGraph}

theorem OwnChain.parent (h : db.OwnChain header) (ht : db.Traced hash S)
    (hpos : header.number ≠ 0) :
    ∃ parent, db.getHeader header.parentHash (header.number-1) = some parent ∧
      db.getHeaderByNumber (header.number-1) = some parent ∧
      parent.number = header.number-1 ∧ hash parent = header.parentHash := by
  obtain ⟨parent, hancestor, hnumber⟩ := h (header.number-1) (by omega)
  have hone : header.number-(header.number-1) = 1 := by omega
  rw [ancestorAt, hone] at hancestor
  obtain ⟨found, hfound, hback⟩ := bind_eq_some_iff.mp hancestor
  rw [back, some.injEq] at hback
  subst hback
  obtain ⟨-, hnum, hhash⟩ := ht.headers _ _ _ hfound
  exact ⟨found, hfound, hnumber, hnum, hhash⟩

theorem derived_of_ownChain (h : db.OwnChain header) (ht : db.Traced hash S)
    (hgraph : db.newTopologyGraph hash header = .ok graph) : db.Derived header graph := by
  by_cases hpos : header.number = 0
  · rw [newTopologyGraph, if_pos hpos] at hgraph
    exact .inl ⟨hpos, hgraph⟩
  · right
    obtain ⟨preGraph, electList, hpre, helect, htransfer⟩ := (newTopologyGraph_eq_ok hpos).mp hgraph
    obtain ⟨parent, -, hnumber, hnum, hhash⟩ := h.parent ht hpos
    obtain ⟨found, hfound, hlookup⟩ := getTopologyGraphByNumber_eq_ok.mp hpre
    rw [hnumber, some.injEq] at hfound
    subst hfound
    refine ⟨hpos, preGraph, electList, ?_, ?_, htransfer⟩
    · rw [← hnum, ← hhash]
      exact hlookup
    · rw [← helect]
      apply originalElect_congr
      intro k hk
      obtain ⟨a, hancestor, hcanonical⟩ := h k (electNumbers_lt hpos hk)
      rw [hancestor, hcanonical]

theorem saveTopology_cases (h : db.saveTopology hash header = .ok db') :
    db' = db ∨ ((header.number,hash header) ∉ db.graphs ∧ ∃ graph,
      db.newTopologyGraph hash header = .ok graph ∧
      db' = { db with graphs := db.graphs.insert (header.number,hash header) graph }) := by
  unfold saveTopology at h
  split at h
  · rename_i written hwrite
    cases h
    unfold writeTopologyGraph at hwrite
    split_ifs at hwrite with hhas
    · cases hwrite
      exact .inl rfl
    · obtain ⟨graph, hgraph, hwrite⟩ := bind_eq_ok_iff.mp hwrite
      cases hwrite
      exact .inr ⟨hhas, graph, hgraph, rfl⟩
  · cases h
    exact .inl rfl
  · cases h

theorem saveTopology_keeps (h : db.saveTopology hash header = .ok db') :
    db'.headers = db.headers ∧ db'.tds = db.tds ∧ db'.canonicalHash = db.canonicalHash ∧
      Grows db db' := by
  rcases saveTopology_cases h with rfl | ⟨hnew, graph, -, rfl⟩
  · exact ⟨rfl, rfl, rfl, .refl _⟩
  · refine ⟨rfl, rfl, rfl, fun _ _ hk => hk, ?_⟩
    intro key found hfound
    have hne : key ≠ (header.number,hash header) := by
      rintro rfl
      exact hnew (mem_of_lookup_eq_some hfound)
    rw [lookup_insert_of_ne _ hne]
    exact hfound

/-- The key is the one of the header, and no other known header has it. -/
theorem Traced.saveTopology (ht : db.Traced hash S) (hheader : header ∈ S)
    (hown : db.OwnChain header) (h : db.saveTopology hash header = .ok db') : db'.Traced hash S := by
  obtain ⟨-, -, -, hgrows⟩ := saveTopology_keeps h
  rcases saveTopology_cases h with rfl | ⟨hnew, graph, hgraph, rfl⟩
  · exact ht
  · refine ⟨ht.inj, ht.headers, ht.tds, ?_⟩
    intro other hother found hfound
    rcases GoMap.lookup_insert_cases hfound with ⟨hkey, rfl⟩ | ⟨-, hfound⟩
    · have hsame : other = header := ht.inj hother hheader (congrArg Prod.snd hkey)
      rw [hsame]
      exact (derived_of_ownChain hown ht hgraph).mono hgrows
    · exact (ht.derived other hother found hfound).mono hgrows

end Save

section Write
variable {hash db db'} {S : Set (Header Hash)} {header : Header Hash}

theorem Traced.grows_of_insert (h : db.Traced hash S) (hheader : header ∈ S)
    (hheaders : db'.headers = db.headers.insert (header.number,hash header) header)
    (hgraphs : db'.graphs = db.graphs) : Grows db db' := by
  constructor
  · intro key found hfound
    rw [hheaders]
    by_cases hkey : key = (header.number,hash header)
    · subst hkey
      obtain ⟨hin, -, hhash⟩ := h.headers _ _ _ hfound
      rw [lookup_insert, h.inj hin hheader hhash]
    · rw [lookup_insert_of_ne _ hkey]
      exact hfound
  · intro key found hfound
    rw [hgraphs]
    exact hfound

theorem Traced.of_insert (h : db.Traced hash S) (hheader : header ∈ S)
    (hheaders : db'.headers = db.headers.insert (header.number,hash header) header)
    (hgraphs : db'.graphs = db.graphs)
    (htds : ∀ number k td, db'.tds.lookup (number,k) = some td →
      (number,k) = (header.number,hash header) ∨ db.tds.lookup (number,k) = some td) :
    db'.Traced hash S := by
  refine ⟨h.inj, ?_, ?_, h.derived.mono (h.grows_of_insert hheader hheaders hgraphs) hgraphs⟩
  · intro number k found hfound
    rw [hheaders] at hfound
    rcases GoMap.lookup_insert_cases hfound with ⟨hkey, rfl⟩ | ⟨-, hfound⟩
    · exact ⟨hheader, (congrArg Prod.fst hkey).symm, (congrArg Prod.snd hkey).symm⟩
    · exact h.headers number k found hfound
  · intro number k td htd
    rcases htds number k td htd with hkey | htd
    · exact ⟨header, hheader, (congrArg Prod.fst hkey).symm, (congrArg Prod.snd hkey).symm⟩
    · exact h.tds number k td htd

theorem Traced.storeHeader (h : db.Traced hash S) (hheader : header ∈ S) (td : ℕ) :
    (db.storeHeader hash header td).Traced hash S := by
  refine h.of_insert hheader rfl rfl ?_
  intro number k td' htd
  exact (GoMap.lookup_insert_cases htd).imp And.left And.right

theorem Linked.mono (h : db.Linked) (hgrows : Grows db db')
    (hcanonical : db'.canonicalHash = db.canonicalHash) : db'.Linked := by
  intro number k hk
  rw [hcanonical] at hk
  obtain ⟨found, hfound, hown⟩ := h number k hk
  exact ⟨found, hgrows.headers _ _ hfound, hown.mono hgrows (fun _ _ => by rw [hcanonical])⟩

variable {parent : Header Hash}

theorem ancestorAt_child {k : ℕ} (ht : db.Traced hash S)
    (hparent : db.getHeader header.parentHash (header.number-1) = some parent)
    (hk : k < header.number) : db.ancestorAt header k = db.ancestorAt parent k := by
  obtain ⟨-, hnum, -⟩ := ht.headers _ _ _ hparent
  have hsteps : header.number-k = (parent.number-k)+1 := by omega
  rw [ancestorAt, hsteps, back, hparent]
  rfl

theorem OwnChain.child (h : db.OwnChain parent) (ht : db.Traced hash S)
    (hparent : db.getHeader header.parentHash (header.number-1) = some parent)
    (hcanonical : db.canonicalHash.lookup (header.number-1) = some header.parentHash) :
    db.OwnChain header := by
  obtain ⟨-, hnum, -⟩ := ht.headers _ _ _ hparent
  intro k hk
  rw [ancestorAt_child ht hparent hk]
  by_cases hlast : k = parent.number
  · refine ⟨parent, ?_, ?_⟩
    · rw [hlast, ancestorAt, Nat.sub_self]
      rfl
    · rw [hlast, hnum, getHeaderByNumber, hcanonical]
      exact hparent
  · exact h k (by omega)

theorem StandsAt.ownChain_child (h : db.StandsAt hash parent) (ht : db.Traced hash S)
    (hparent : db.getHeader header.parentHash (header.number-1) = some parent) :
    db.OwnChain header := by
  obtain ⟨-, hnum, hhash⟩ := ht.headers _ _ _ hparent
  refine h.2.child ht hparent ?_
  rw [← hnum, ← hhash]
  exact h.1

variable {canonicalHash : GoMap ℕ Hash}

omit [DecidableEq Hash] in
theorem lookup_deleteFrom {turns i k : ℕ} (hk : k < i) :
    (deleteFrom turns canonicalHash i).lookup k = canonicalHash.lookup k := by
  induction turns generalizing canonicalHash i with
  | zero => rfl
  | succ turns ih =>
    rw [deleteFrom]
    split_ifs
    · rw [ih (by omega), lookup_erase_ne (by omega)]
    · rfl

def withCanonical (canonicalHash : GoMap ℕ Hash) : ChainDb Hash :=
  { db with canonicalHash := canonicalHash }

theorem Traced.withCanonical (h : db.Traced hash S) (canonicalHash : GoMap ℕ Hash) :
    (db.withCanonical canonicalHash).Traced hash S :=
  h.of_same rfl rfl rfl

theorem OwnChain.withCanonical (h : db.OwnChain header)
    (hsame : ∀ k < header.number, canonicalHash.lookup k = db.canonicalHash.lookup k) :
    (db.withCanonical canonicalHash).OwnChain header :=
  h.mono (.of_same rfl rfl) hsame

def LinkedBelow (db : ChainDb Hash) (canonicalHash : GoMap ℕ Hash) (n : ℕ) : Prop :=
  ∀ k ≤ n, ∀ key, canonicalHash.lookup k = some key →
    ∃ a, db.getHeader key k = some a ∧ (db.withCanonical canonicalHash).OwnChain a

theorem LinkedBelow.congr {n m : ℕ} {canonicalHash' : GoMap ℕ Hash}
    (h : db.LinkedBelow canonicalHash n) (ht : db.Traced hash S) (hm : m ≤ n)
    (hsame : ∀ k ≤ m, canonicalHash'.lookup k = canonicalHash.lookup k) :
    db.LinkedBelow canonicalHash' m := by
  intro k hk key hkey
  rw [hsame k hk] at hkey
  obtain ⟨a, ha, hown⟩ := h k (hk.trans hm) key hkey
  obtain ⟨-, hanum, -⟩ := ht.headers _ _ _ ha
  exact ⟨a, ha, hown.withCanonical (fun j hj => hsame j (by omega))⟩

variable {headNumber : ℕ} {headHash : Hash}

/-- Once the loop has come to an entry that was canonical on its own chain, the whole branch above
it is canonical. -/
theorem overwriteStale_stands {found : GoMap ℕ Hash} (ht : db.Traced hash S)
    (h : db.overwriteStale canonicalHash headHash headNumber = .ok found)
    (hlinked : db.LinkedBelow canonicalHash headNumber) :
    (∀ k, headNumber < k → found.lookup k = canonicalHash.lookup k) ∧
    found.lookup headNumber = some headHash ∧
    ∃ a, db.getHeader headHash headNumber = some a ∧ (db.withCanonical found).OwnChain a := by
  induction headNumber generalizing headHash canonicalHash with
  | zero =>
    rw [overwriteStale] at h
    split_ifs at h with hmatch
    · cases h
      exact ⟨fun _ _ => rfl, hmatch, hlinked 0 le_rfl headHash hmatch⟩
  | succ headNumber ih =>
    rw [overwriteStale] at h
    split_ifs at h with hmatch
    · cases h
      exact ⟨fun _ _ => rfl, hmatch, hlinked _ le_rfl headHash hmatch⟩
    · split at h
      · cases h
      · rename_i headHeader hheader
        obtain ⟨-, hnum, -⟩ := ht.headers _ _ _ hheader
        have hlinked' : db.LinkedBelow (canonicalHash.insert (headNumber+1) headHash) headNumber :=
          hlinked.congr ht (by omega) (fun k hk => lookup_insert_of_ne _ (by omega))
        obtain ⟨habove, hat, parent, hparent, hown⟩ := ih h hlinked'
        have hbefore : headHeader.number-1 = headNumber := by omega
        refine ⟨?_, ?_, headHeader, hheader, ?_⟩
        · intro k hk
          rw [habove k (by omega), lookup_insert_of_ne _ (by omega)]
        · rw [habove _ (by omega), lookup_insert]
        · apply hown.child (ht.withCanonical found)
          · rw [hbefore]
            exact hparent
          · rw [hbefore]
            exact hat

theorem overwriteStale_of_match (h : canonicalHash.lookup headNumber = some headHash) :
    db.overwriteStale canonicalHash headHash headNumber = .ok canonicalHash := by
  cases headNumber with
  | zero => rw [overwriteStale, if_pos h]; rfl
  | succ headNumber => rw [overwriteStale, if_pos h]; rfl

/-- A new head ends up on its own chain if its parent is canonical with all its ancestors, or if
the canonical chain was linked. -/
theorem ownChain_reroute (ht : db.Traced hash S) (hpos : header.number ≠ 0)
    (hown : db.OwnChain header ∨ db.Linked) (h : db.reroute hash header = .ok db') :
    db'.headers = db.headers ∧ db'.tds = db.tds ∧ db'.graphs = db.graphs ∧ db'.OwnChain header := by
  obtain ⟨found, hfound, h⟩ := bind_eq_ok_iff.mp h
  cases h
  obtain ⟨kept, hkept⟩ : ∃ kept, kept =
    deleteFrom db.canonicalHash.len db.canonicalHash (header.number+1) := ⟨_, rfl⟩
  rw [← hkept] at hfound
  have hbelow (k : ℕ) (hk : k ≤ header.number) : kept.lookup k = db.canonicalHash.lookup k := by
    rw [hkept]
    exact lookup_deleteFrom (by omega)
  have hchain : (db.withCanonical found).OwnChain header := by
    rcases hown with hown | hlinked
    · obtain ⟨parent, hparent, hnumber, hnum, hhash⟩ := hown.parent ht hpos
      obtain ⟨key, hkey, hheader⟩ := bind_eq_some_iff.mp hnumber
      obtain ⟨-, -, hkeyhash⟩ := ht.headers _ _ _ hheader
      have hmatch : kept.lookup (header.number-1) = some header.parentHash := by
        rw [hbelow _ (by omega), hkey, ← hkeyhash, hhash]
      rw [overwriteStale_of_match hmatch, Except.ok.injEq] at hfound
      rw [← hfound]
      exact hown.withCanonical (fun k hk => hbelow k hk.le)
    · have hlinked' : db.LinkedBelow kept (header.number-1) :=
        LinkedBelow.congr (fun k _ => hlinked k) ht le_rfl (fun k hk => hbelow k (by omega))
      obtain ⟨-, hat, parent, hparent, hown⟩ := overwriteStale_stands ht hfound hlinked'
      exact hown.child (ht.withCanonical found) hparent hat
  refine ⟨rfl, rfl, rfl, ?_⟩
  refine hchain.mono (.of_same rfl rfl) ?_
  intro k hk
  exact lookup_insert_of_ne _ (by omega)

/-- The header is written on top of its own chain, or as the head of a linked one. -/
def WritesOwn (hash : Header Hash → Hash) (db : ChainDb Hash) (header : Header Hash) (coin : Bool) :
    Prop :=
  db.OwnChain header ∨
  (db.Linked ∧ ∀ localTd ptd, db.getTd (hash db.currentHeader) db.currentHeader.number = some localTd →
    db.parentTd header = some ptd → outweighs localTd (header.difficulty+ptd) coin = true)

theorem number_ne_zero_of_parentTd {ptd : ℕ} (h : db.parentTd header = some ptd) :
    header.number ≠ 0 := by
  intro hzero
  rw [parentTd, if_pos hzero] at h
  cases h

theorem writeHeader_cases {coin : Bool} (h : db.writeHeader hash header coin = .ok db') :
    ∃ ptd localTd stored, db.parentTd header = some ptd ∧
      db.getTd (hash db.currentHeader) db.currentHeader.number = some localTd ∧
      stored = db.storeHeader hash header (header.difficulty+ptd) ∧
      ((outweighs localTd (header.difficulty+ptd) coin = true ∧
          ∃ rerouted, stored.reroute hash header = .ok rerouted ∧
            rerouted.saveTopology hash header = .ok db') ∨
        (outweighs localTd (header.difficulty+ptd) coin ≠ true ∧
          stored.saveTopology hash header = .ok db')) := by
  unfold writeHeader at h
  split at h
  · cases h
  rename_i ptd hptd
  split at h
  · cases h
  rename_i localTd hlocal
  dsimp only at h
  refine ⟨ptd, localTd, _, hptd, hlocal, rfl, ?_⟩
  split_ifs at h with hheavier
  · exact .inl ⟨hheavier, bind_eq_ok_iff.mp h⟩
  · exact .inr ⟨hheavier, h⟩

/-- A header that stays off the canonical chain must be on top of it. -/
theorem Traced.writeHeader {coin : Bool} (ht : db.Traced hash S) (hheader : header ∈ S)
    (hown : db.WritesOwn hash header coin) (h : db.writeHeader hash header coin = .ok db') :
    db'.Traced hash S ∧ Grows db db' := by
  obtain ⟨ptd, localTd, stored, hptd, hlocal, hstored, hcases⟩ := writeHeader_cases h
  have hgrows : Grows db stored := by
    rw [hstored]
    exact ht.grows_of_insert hheader rfl rfl
  have ht' : stored.Traced hash S := by
    rw [hstored]
    exact ht.storeHeader hheader _
  have hcanonical : stored.canonicalHash = db.canonicalHash := by
    rw [hstored]
    rfl
  have hstay (hchain : db.OwnChain header) : stored.OwnChain header :=
    hchain.mono hgrows (fun _ _ => by rw [hcanonical])
  rcases hcases with ⟨-, rerouted, hreroute, hsave⟩ | ⟨hlighter, hsave⟩
  · have hchain : stored.OwnChain header ∨ stored.Linked := by
      rcases hown with hown | ⟨hlinked, -⟩
      · exact .inl (hstay hown)
      · exact .inr (hlinked.mono hgrows hcanonical)
    obtain ⟨hheaders, htds, hgraphs, hon⟩ :=
      ownChain_reroute ht' (number_ne_zero_of_parentTd hptd) hchain hreroute
    have hgrows' : Grows stored rerouted := .of_same hheaders hgraphs
    exact ⟨(ht'.of_same hheaders htds hgraphs).saveTopology hheader hon hsave,
      hgrows.trans (hgrows'.trans (saveTopology_keeps hsave).2.2.2)⟩
  · have hon : stored.OwnChain header := by
      rcases hown with hown | ⟨-, hheavy⟩
      · exact hstay hown
      · exact absurd (hheavy localTd ptd hlocal hptd) hlighter
    exact ⟨ht'.saveTopology hheader hon hsave, hgrows.trans (saveTopology_keeps hsave).2.2.2⟩

end Write

section Blocks
variable {hash db db'} {S : Set (Header Hash)} {header block : Header Hash}

theorem StandsAt.parent {parent : Header Hash} (h : db.StandsAt hash header)
    (ht : db.Traced hash S) (hpos : header.number ≠ 0)
    (hparent : db.getHeader header.parentHash (header.number-1) = some parent) :
    db.StandsAt hash parent := by
  obtain ⟨found, hfound, hnumber, hnum, hhash⟩ := h.2.parent ht hpos
  rw [hparent, some.injEq] at hfound
  subst hfound
  obtain ⟨key, hkey, hheader⟩ := bind_eq_some_iff.mp hnumber
  obtain ⟨-, -, hkeyhash⟩ := ht.headers _ _ _ hheader
  refine ⟨?_, ?_⟩
  · rw [hnum, hkey, hkeyhash]
  · intro k hk
    rw [← ancestorAt_child ht hparent (by omega)]
    exact h.2 k (by omega)

/-- First the number of the block is given to it, then its graph is made. -/
theorem insertBlock_stands (ht : db.Traced hash S) (hblock : block ∈ S) (hown : db.OwnChain block)
    (h : db.insertBlock hash block = .ok db') :
    db'.headers = db.headers ∧ db'.Traced hash S ∧ db'.StandsAt hash block := by
  unfold insertBlock at h
  obtain ⟨headed, hheaded⟩ : ∃ headed : ChainDb Hash, headed = { db with
    canonicalHash := db.canonicalHash.insert block.number (hash block)
    currentHeader := if db.canonicalHash.lookup block.number ≠ some (hash block) then block
      else db.currentHeader } := ⟨_, rfl⟩
  dsimp only at h
  rw [← hheaded] at h
  have hgrows : Grows db headed := .of_same (by rw [hheaded]) (by rw [hheaded])
  have hcanonical : headed.canonicalHash = db.canonicalHash.insert block.number (hash block) := by
    rw [hheaded]
  have ht' : headed.Traced hash S :=
    ht.of_same (by rw [hheaded]) (by rw [hheaded]) (by rw [hheaded])
  have hstands : headed.StandsAt hash block := by
    refine ⟨?_, hown.mono hgrows ?_⟩
    · rw [hcanonical, lookup_insert]
    · intro k hk
      rw [hcanonical, lookup_insert_of_ne _ (by omega)]
  obtain ⟨hheaders, -, hsame, hgrows'⟩ := saveTopology_keeps h
  refine ⟨?_, ht'.saveTopology hblock hstands.2 h, hstands.mono hgrows' (fun _ _ => by rw [hsame])⟩
  rw [hheaders, hheaded]

def Path (db : ChainDb Hash) : Header Hash → List (Header Hash) → Prop
  | _, [] => True
  | common, block :: rest =>
    db.getHeader block.parentHash (block.number-1) = some common ∧ Path db block rest

theorem getLastD_append {α : Type} (a : α) (l r : List α) :
    (l ++ r).getLastD a = r.getLastD (l.getLastD a) := by
  simp [getLastD_eq_getLast?, getLast?_append]

variable {common : Header Hash} {blocks : List (Header Hash)}

theorem Path.append {rest : List (Header Hash)} (h : db.Path common blocks)
    (hrest : db.Path (blocks.getLastD common) rest) : db.Path common (blocks ++ rest) := by
  induction blocks generalizing common with
  | nil => exact hrest
  | cons block blocks ih =>
    refine ⟨h.1, ih h.2 ?_⟩
    rw [getLastD_cons] at hrest
    exact hrest

theorem Path.of_headers (h : db.Path common blocks) (hheaders : db'.headers = db.headers) :
    db'.Path common blocks := by
  induction blocks generalizing common with
  | nil => trivial
  | cons block blocks ih =>
    refine ⟨?_, ih h.2⟩
    rw [getHeader, hheaders]
    exact h.1

/-- The blocks of a branch, the highest first, lead from the block below them up to `high`. -/
structure Climbs (db : ChainDb Hash) (S : Set (Header Hash)) (low high : Header Hash)
    (branch : List (Header Hash)) : Prop where
  path : db.Path low branch.reverse
  last : branch.reverse.getLastD low = high
  mem : ∀ b ∈ branch, b ∈ S

theorem Climbs.refl (db : ChainDb Hash) (S : Set (Header Hash)) (block : Header Hash) :
    db.Climbs S block block [] :=
  ⟨trivial, rfl, by simp⟩

theorem Climbs.push {low parent : Header Hash} {branch : List (Header Hash)}
    (h : db.Climbs S low parent branch) (hblock : block ∈ S)
    (hparent : db.getHeader block.parentHash (block.number-1) = some parent) :
    db.Climbs S low block (block :: branch) := by
  refine ⟨?_, ?_, forall_mem_cons.mpr ⟨hblock, h.mem⟩⟩
  · rw [reverse_cons]
    refine h.path.append ⟨?_, trivial⟩
    rw [h.last]
    exact hparent
  · rw [reverse_cons, getLastD_concat]

theorem Climbs.append {low mid high : Header Hash} {lower upper : List (Header Hash)}
    (h : db.Climbs S low mid lower) (h' : db.Climbs S mid high upper) :
    db.Climbs S low high (upper ++ lower) := by
  refine ⟨?_, ?_, forall_mem_append.mpr ⟨h'.mem, h.mem⟩⟩
  · rw [reverse_append]
    refine h.path.append ?_
    rw [h.last]
    exact h'.path
  · rw [reverse_append, getLastD_append, h.last, h'.last]

theorem insertBlocks_stands (ht : db.Traced hash S) (hpath : db.Path common blocks)
    (hin : ∀ block ∈ blocks, block ∈ S) (hstands : db.StandsAt hash common)
    (h : db.insertBlocks hash blocks = .ok db') :
    db'.Traced hash S ∧ db'.StandsAt hash (blocks.getLastD common) := by
  induction blocks generalizing db common with
  | nil =>
    cases h
    exact ⟨ht, hstands⟩
  | cons block blocks ih =>
    obtain ⟨inserted, hinsert, h⟩ := bind_eq_ok_iff.mp h
    have hown : db.OwnChain block := hstands.ownChain_child ht hpath.1
    obtain ⟨hheaders, ht', hstands'⟩ := insertBlock_stands ht (hin block (by simp)) hown hinsert
    rw [getLastD_cons]
    exact ih ht' (hpath.2.of_headers hheaders) (fun b hb => hin b (mem_cons_of_mem _ hb)) hstands' h

end Blocks

end ChainDb

namespace BlockChain
open ChainDb
variable {Hash : Type} [DecidableEq Hash] {hash : Header Hash → Hash} {bc bc' : BlockChain Hash}
  {S : Set (Header Hash)} {block : Header Hash}

section Reorg

theorem parentBlock_eq_some {parent : Header Hash} (h : bc.parentBlock block = some parent) :
    block.number ≠ 0 ∧ bc.getHeader block.parentHash (block.number-1) = some parent := by
  unfold parentBlock at h
  split_ifs at h with hpos
  unfold getBlock at h
  split_ifs at h
  exact ⟨hpos, h⟩

theorem climbs_of_descend (ht : bc.Traced hash S) (hblock : block ∈ S) {n : ℕ}
    {passed : List (Header Hash)} {low : Header Hash} (h : bc.descend n block = some (passed,low)) :
    bc.Climbs S low block passed ∧ low ∈ S ∧ (bc.StandsAt hash block → bc.StandsAt hash low) := by
  induction n generalizing block passed with
  | zero =>
    cases h
    exact ⟨.refl _ _ _, hblock, id⟩
  | succ n ih =>
    obtain ⟨parent, hparent, h⟩ := bind_eq_some_iff.mp h
    obtain ⟨⟨rest, found⟩, hrest, h⟩ := map_eq_some_iff.mp h
    cases h
    obtain ⟨hpos, hheader⟩ := parentBlock_eq_some hparent
    obtain ⟨hclimbs, hlow, hstands⟩ := ih (ht.headers _ _ _ hheader).1 hrest
    exact ⟨hclimbs.push hblock hheader, hlow, fun h => hstands (h.parent ht hpos hheader)⟩

variable {oldBlock newBlock : Header Hash} {branch : List (Header Hash)}

/-- Without a parent on either side the search ends in an error. -/
theorem newBranch_cases {n : ℕ} (h : bc.newBranch hash n oldBlock newBlock = .ok branch) :
    (hash oldBlock = hash newBlock ∧ branch = []) ∨
    ∃ m oldParent newParent rest, n = m+1 ∧ bc.parentBlock oldBlock = some oldParent ∧
      bc.parentBlock newBlock = some newParent ∧
      bc.newBranch hash m oldParent newParent = .ok rest ∧ branch = newBlock :: rest := by
  cases n with
  | zero =>
    rw [newBranch] at h
    split_ifs at h with hsame
    cases h
    exact .inl ⟨hsame, rfl⟩
  | succ m =>
    rw [newBranch] at h
    split_ifs at h with hsame
    · cases h
      exact .inl ⟨hsame, rfl⟩
    · right
      split at h
      · cases h
      · cases h
      · rename_i oldParent newParent holdParent hnewParent
        obtain ⟨rest, hrest, h⟩ := bind_eq_ok_iff.mp h
        cases h
        exact ⟨m, oldParent, newParent, rest, rfl, holdParent, hnewParent, hrest, rfl⟩

theorem climbs_of_newBranch (ht : bc.Traced hash S) {n : ℕ}
    (hold : oldBlock ∈ S) (hnew : newBlock ∈ S) (hstands : bc.StandsAt hash oldBlock)
    (h : bc.newBranch hash n oldBlock newBlock = .ok branch) :
    ∃ common, bc.StandsAt hash common ∧ bc.Climbs S common newBlock branch := by
  induction n using Nat.strongRecOn generalizing oldBlock newBlock branch with
  | ind n ih =>
    obtain ⟨hsame, rfl⟩ | ⟨m, oldParent, newParent, rest, rfl, holdParent, hnewParent, hrest, rfl⟩ :=
      newBranch_cases h
    · rw [ht.inj hold hnew hsame] at hstands
      exact ⟨newBlock, hstands, .refl _ _ _⟩
    · obtain ⟨hpos, holdHeader⟩ := parentBlock_eq_some holdParent
      obtain ⟨-, hnewHeader⟩ := parentBlock_eq_some hnewParent
      obtain ⟨common, hcommon, hclimbs⟩ :=
        ih m m.lt_succ_self (ht.headers _ _ _ holdHeader).1 (ht.headers _ _ _ hnewHeader).1
          (hstands.parent ht hpos holdHeader) hrest
      exact ⟨common, hcommon, hclimbs.push hnew hnewHeader⟩

theorem climbs_of_reorgChain (ht : bc.Traced hash S) (hold : oldBlock ∈ S) (hnew : newBlock ∈ S)
    (hstands : bc.StandsAt hash oldBlock)
    (h : bc.reorgChain hash oldBlock newBlock = .ok branch) :
    ∃ common, bc.StandsAt hash common ∧ bc.Climbs S common newBlock branch := by
  unfold reorgChain at h
  split at h
  · cases h
  rename_i oldPassed oldLow holdLow
  split at h
  · cases h
  rename_i newPassed newLow hnewLow
  obtain ⟨rest, hrest, h⟩ := bind_eq_ok_iff.mp h
  cases h
  obtain ⟨-, holdIn, hstands'⟩ := climbs_of_descend ht hold holdLow
  obtain ⟨hupper, hnewIn, -⟩ := climbs_of_descend ht hnew hnewLow
  obtain ⟨common, hcommon, hlower⟩ :=
    climbs_of_newBranch ht holdIn hnewIn (hstands' hstands) hrest
  exact ⟨common, hcommon, hlower.append hupper⟩

end Reorg

/-- What holds between two calls: headers and graphs in order, the head block on file. -/
structure Sound (hash : Header Hash → Hash) (S : Set (Header Hash)) (bc : BlockChain Hash) :
    Prop where
  traced : bc.Traced hash S
  current : bc.getHeader (hash bc.currentBlock) bc.currentBlock.number = some bc.currentBlock

section Step

theorem traced_writeBlock (h : bc.Traced hash S) (hblock : block ∈ S) :
    (bc.writeBlock hash block).Traced hash S ∧
      Grows bc.toChainDb (bc.writeBlock hash block).toChainDb :=
  ⟨h.of_insert hblock rfl rfl (fun _ _ _ htd => .inr htd), h.grows_of_insert hblock rfl rfl⟩

variable (h : bc.Sound hash S)
include h

theorem Sound.current_mem : bc.currentBlock ∈ S :=
  (h.traced.headers _ _ _ h.current).1

theorem Sound.writeTd (hblock : block ∈ S) (td : ℕ) : (bc.writeTd hash block td).Sound hash S := by
  have hgrows : Grows bc.toChainDb (bc.writeTd hash block td).toChainDb := .of_same rfl rfl
  refine ⟨⟨h.traced.inj, h.traced.headers, ?_, h.traced.derived.mono hgrows rfl⟩, h.current⟩
  intro number k td' htd
  rcases GoMap.lookup_insert_cases htd with ⟨hkey, -⟩ | ⟨-, htd⟩
  · exact ⟨block, hblock, (congrArg Prod.fst hkey).symm, (congrArg Prod.snd hkey).symm⟩
  · exact h.traced.tds number k td' htd

theorem Sound.writeBlock (hblock : block ∈ S) : (bc.writeBlock hash block).Sound hash S := by
  obtain ⟨ht, hgrows⟩ := traced_writeBlock h.traced hblock
  exact ⟨ht, hgrows.headers _ _ h.current⟩

theorem Sound.getHeader_parent {ptd : ℕ} (htd : bc.parentTd block = some ptd)
    (hparent : block.parentHash = hash bc.currentBlock) :
    bc.getHeader block.parentHash (block.number-1) = some bc.currentBlock := by
  unfold parentTd at htd
  split_ifs at htd
  obtain ⟨found, hfound, hnum, hhash⟩ := h.traced.tds _ _ _ htd
  have hsame : found = bc.currentBlock := h.traced.inj hfound h.current_mem (hhash.trans hparent)
  rw [hparent, ← hnum, hsame]
  exact h.current

/-- A new head stands, whether it extends the old one or comes with its own branch. -/
theorem Sound.setHead (hblock : block ∈ S) (hstands : bc.StandsAt hash bc.currentBlock)
    (hparent : block.parentHash = hash bc.currentBlock →
      bc.getHeader block.parentHash (block.number-1) = some bc.currentBlock)
    (hset : bc.setHead hash block = .ok bc') :
    bc'.Sound hash S ∧ bc'.StandsAt hash bc'.currentBlock := by
  obtain ⟨branch, hbranch, hset⟩ := bind_eq_ok_iff.mp hset
  obtain ⟨db, hdb, hset⟩ := bind_eq_ok_iff.mp hset
  obtain ⟨headed, hheaded, hset⟩ := bind_eq_ok_iff.mp hset
  cases hset
  have hready : db.Traced hash S ∧ db.OwnChain block := by
    unfold headBranch at hbranch
    split_ifs at hbranch with hextends
    · cases hbranch
      cases hdb
      exact ⟨h.traced, hstands.ownChain_child h.traced (hparent hextends)⟩
    · obtain ⟨common, hcommon, hclimbs⟩ :=
        climbs_of_reorgChain h.traced h.current_mem hblock hstands hbranch
      obtain ⟨ht, hstands'⟩ := insertBlocks_stands h.traced hclimbs.path
        (fun b hb => hclimbs.mem b (mem_reverse.mp hb)) hcommon hdb
      rw [hclimbs.last] at hstands'
      exact ⟨ht, hstands'.2⟩
  obtain ⟨ht, hown⟩ := hready
  obtain ⟨reached, hreached⟩ : ∃ reached : BlockChain Hash, reached = { bc with toChainDb := db } :=
    ⟨_, rfl⟩
  have hdb : reached.toChainDb = db := by
    rw [hreached]
  rw [← hdb] at ht hown
  rw [← hreached] at hheaded ⊢
  obtain ⟨ht', hgrows⟩ := traced_writeBlock ht hblock
  obtain ⟨hheaders, ht'', hstands'⟩ :=
    insertBlock_stands ht' hblock (hown.mono hgrows (fun _ _ => rfl)) hheaded
  refine ⟨⟨ht'', ?_⟩, hstands'⟩
  rw [getHeader, hheaders]
  exact lookup_insert _

/-- The total difficulty is written first, and stays whatever comes after it. -/
theorem Sound.writeBlockWithState {coin : Bool} (hblock : block ∈ S)
    (hstands : bc.StandsAt hash bc.currentBlock)
    (hwrite : bc.writeBlockWithState hash block coin = .ok bc') :
    bc'.Sound hash S ∧ bc'.StandsAt hash bc'.currentBlock := by
  unfold BlockChain.writeBlockWithState at hwrite
  split at hwrite
  · cases hwrite
  rename_i ptd hptd
  split_ifs at hwrite with hsame
  split at hwrite
  · cases hwrite
  rename_i localTd hlocal
  dsimp only at hwrite
  have hstored := h.writeTd hblock (block.difficulty+ptd)
  have hgrows : Grows bc.toChainDb (bc.writeTd hash block (block.difficulty+ptd)).toChainDb :=
    .of_same rfl rfl
  have hstands' := hstands.mono hgrows (fun _ _ => rfl)
  split_ifs at hwrite with hreorg
  · split at hwrite
    · rename_i found hset
      cases hwrite
      exact hstored.setHead hblock hstands' (h.getHeader_parent hptd) hset
    · cases hwrite
      exact ⟨hstored, hstands'⟩
    · cases hwrite
  · cases hwrite
    obtain ⟨-, hgrows'⟩ := traced_writeBlock hstored.traced hblock
    exact ⟨hstored.writeBlock hblock, hstands'.mono hgrows' (fun _ _ => rfl)⟩

end Step

/-- A header comes on top of its own chain or becomes the head of a linked one, and a block is
written while its ancestors are canonical. -/
def OnOwnChain (hash : Header Hash → Hash) (bc : BlockChain Hash) : Call Hash → Prop
  | .writeHeader header coin => bc.WritesOwn hash header coin
  | .writeBlockWithState _ _ => bc.StandsAt hash bc.currentBlock
  | .writeBlockWithoutState _ _ => True

section Run

theorem handle_writeHeader {header : Header Hash} {coin : Bool}
    (h : bc.handle hash (.writeHeader header coin) = .ok bc') :
    bc' = bc ∨ ∃ db, bc.toChainDb.writeHeader hash header coin = .ok db ∧
      bc' = { bc with toChainDb := db } := by
  unfold BlockChain.handle at h
  dsimp only at h
  split at h
  · rename_i found hfound
    cases h
    obtain ⟨db, hdb, hfound⟩ := bind_eq_ok_iff.mp hfound
    exact .inr ⟨db, hdb, (Except.ok.inj hfound).symm⟩
  · exact .inl (Except.ok.inj h).symm
  · cases h

theorem handle_writeBlockWithState {coin : Bool}
    (h : bc.handle hash (.writeBlockWithState block coin) = .ok bc') :
    bc' = bc ∨ bc.writeBlockWithState hash block coin = .ok bc' := by
  unfold BlockChain.handle at h
  dsimp only at h
  split at h
  · rename_i found hfound
    cases h
    exact .inr hfound
  · exact .inl (Except.ok.inj h).symm
  · cases h

def Call.OfBlock : Call Hash → Prop
  | .writeHeader _ _ => False
  | .writeBlockWithState _ _ => True
  | .writeBlockWithoutState _ _ => True

/-- A call on a block leaves the head block standing. -/
theorem Sound.handle {call : Call Hash} (h : bc.Sound hash S) (hcall : call.header ∈ S)
    (hown : bc.OnOwnChain hash call) (hhandle : bc.handle hash call = .ok bc') :
    bc'.Sound hash S ∧ (call.OfBlock → bc.StandsAt hash bc.currentBlock →
      bc'.StandsAt hash bc'.currentBlock) := by
  cases call with
  | writeHeader header coin =>
    refine ⟨?_, fun hblock => hblock.elim⟩
    obtain rfl | ⟨db, hdb, rfl⟩ := handle_writeHeader hhandle
    · exact h
    · obtain ⟨ht, hgrows⟩ := h.traced.writeHeader hcall hown hdb
      exact ⟨ht, hgrows.headers _ _ h.current⟩
  | writeBlockWithState block coin =>
    obtain rfl | hwrite := handle_writeBlockWithState hhandle
    · exact ⟨h, fun _ hstands => hstands⟩
    · obtain ⟨hsound, hstands⟩ := h.writeBlockWithState hcall hown hwrite
      exact ⟨hsound, fun _ _ => hstands⟩
  | writeBlockWithoutState block td =>
    cases hhandle
    have hstored := h.writeTd hcall td
    obtain ⟨-, hgrows⟩ := traced_writeBlock hstored.traced hcall
    exact ⟨hstored.writeBlock hcall,
      fun _ hstands => hstands.mono ⟨hgrows.headers, hgrows.graphs⟩ (fun _ _ => rfl)⟩

def seen (genesis : Header Hash) (calls : List (Call Hash)) : Set (Header Hash) :=
  {header | header = genesis ∨ ∃ call ∈ calls, call.header = header}

variable {genesis : Header Hash}

/-- There are no graphs yet, and nothing is below the genesis header. -/
theorem sound_newBlockChain (hgenesis : genesis.number = 0) (hinj : Set.InjOn hash S)
    (hmem : genesis ∈ S) (h : newBlockChain hash genesis = .ok bc) :
    bc.Sound hash S ∧ bc.StandsAt hash bc.currentBlock := by
  obtain ⟨db, hdb, h⟩ := bind_eq_ok_iff.mp h
  cases h
  rw [← hgenesis] at hdb
  have hempty : (⟨∅, ∅, ∅, ∅, genesis⟩ : ChainDb Hash).Traced hash S := by
    refine ⟨hinj, ?_, ?_, ?_⟩
    · intro number k header hheader
      cases hheader
    · intro number k td htd
      cases htd
    · intro header _ graph hgraph
      cases hgraph
  have hown : ∀ db : ChainDb Hash, db.OwnChain genesis := by
    intro db k hk
    omega
  have ht := (hempty.storeHeader hmem genesis.difficulty).withCanonical
    ((∅ : GoMap ℕ Hash).insert genesis.number (hash genesis))
  obtain ⟨hheaders, -, hcanonical, -⟩ := saveTopology_keeps hdb
  refine ⟨⟨ht.saveTopology hmem (hown _) hdb, ?_⟩, ?_, hown _⟩
  · rw [getHeader, hheaders]
    exact lookup_insert _
  · rw [hcanonical]
    exact lookup_insert _

/-- In a run whose calls meet the condition every graph comes from the header's own chain. -/
theorem graphs_from_own_chain {genesis : Header Hash} {calls : List (Call Hash)}
    {bc₀ : BlockChain Hash} (hgenesis : genesis.number = 0)
    (hinj : Set.InjOn hash (seen genesis calls)) (hnew : newBlockChain hash genesis = .ok bc₀)
    (hown : EachStep (handle hash) (fun bc call _ => bc.OnOwnChain hash call) bc₀ calls)
    (hrun : run (handle hash) bc₀ calls = .ok bc) : bc.Provenance hash (seen genesis calls) := by
  have hstart := (sound_newBlockChain hgenesis hinj (.inl rfl) hnew).1
  have hin : ∀ call ∈ calls, call.header ∈ seen genesis calls :=
    fun call hcall => .inr ⟨call, hcall, rfl⟩
  have hend : bc.Sound hash (seen genesis calls) :=
    run_preserves_of_eachBefore
      (fun bc call bc' h hcall hstep => (h.handle hcall.2 (hcall.1 bc' hstep) hstep).1) hstart
      (hown.eachBefore.and (eachBefore_of_forall hin _)) hrun
  exact hend.traced.derived

/-- The head block stands after every call, and this is all that the condition asks for. -/
theorem eachStep_of_blocks {calls : List (Call Hash)} (hgenesis : genesis.number = 0)
    (hinj : Set.InjOn hash (seen genesis calls)) (hnew : newBlockChain hash genesis = .ok bc)
    (hblocks : ∀ call ∈ calls, call.OfBlock) :
    EachStep (handle hash) (fun bc call _ => bc.OnOwnChain hash call) bc calls := by
  have hmeets (bc : BlockChain Hash) (call : Call Hash) (hblock : call.OfBlock)
      (hstands : bc.StandsAt hash bc.currentBlock) : bc.OnOwnChain hash call := by
    cases call with
    | writeHeader header coin => exact hblock.elim
    | writeBlockWithState block coin => exact hstands
    | writeBlockWithoutState block td => trivial
  have hstep : ∀ (bc : BlockChain Hash) call bc',
      (call.header ∈ seen genesis calls ∧ call.OfBlock) →
      (bc.Sound hash (seen genesis calls) ∧ bc.StandsAt hash bc.currentBlock) →
      bc.handle hash call = .ok bc' →
      bc'.Sound hash (seen genesis calls) ∧ bc'.StandsAt hash bc'.currentBlock := by
    intro bc call bc' hcall h hhandle
    obtain ⟨hsound, hstands⟩ := h.1.handle hcall.1 (hmeets bc call hcall.2 h.2) hhandle
    exact ⟨hsound, hstands hcall.2 h.2⟩
  refine eachStep_of_preserves hstep ?_ ?_ (sound_newBlockChain hgenesis hinj (.inl rfl) hnew)
  · intro bc call _ hcall h _
    exact hmeets bc call hcall.2 h.2
  · intro call hcall
    exact ⟨.inr ⟨call, hcall, rfl⟩, hblocks call hcall⟩

end Run

section Sample

def forkHeader (time parentHash number difficulty : ℕ) (netTopology : NetTopology) : Header ℕ :=
  { emptyHeader with
    parentHash := parentHash, difficulty := difficulty, number := number, time := time
    netTopology := netTopology }

def timeHash (header : Header ℕ) : ℕ := header.time

def forkRoot : Header ℕ := forkHeader 10 0 0 1 ⟨netTopoTypeAll, [⟨1, 0x2000⟩]⟩

def quietHeader : Header ℕ := forkHeader 11 10 1 5 ⟨netTopoTypeChange, []⟩

def replacingHeader : Header ℕ := forkHeader 21 10 1 3 ⟨netTopoTypeAll, [⟨2, 0x2000⟩]⟩

def followingHeader (difficulty : ℕ) : Header ℕ :=
  forkHeader 22 21 2 difficulty ⟨netTopoTypeChange, []⟩

theorem injOn_timeHash (call : Header ℕ → Call ℕ) (hcall : ∀ header, (call header).header = header)
    (difficulty : ℕ) : Set.InjOn timeHash (seen forkRoot
      [call quietHeader, call replacingHeader, call (followingHeader difficulty)]) := by
  have hmem : ∀ header ∈ seen forkRoot
      [call quietHeader, call replacingHeader, call (followingHeader difficulty)],
      header ∈ [forkRoot, quietHeader, replacingHeader, followingHeader difficulty] := by
    rintro header (rfl | ⟨c, hc, rfl⟩)
    · simp
    · simp only [mem_cons, not_mem_nil, or_false] at hc
      rcases hc with rfl | rfl | rfl <;> simp [hcall]
  intro a ha b hb hhash
  have ha := hmem a ha
  have hb := hmem b hb
  simp only [mem_cons, not_mem_nil, or_false] at ha hb
  rcases ha with rfl | rfl | rfl | rfl <;> rcases hb with rfl | rfl | rfl | rfl <;>
    first | rfl | exact absurd hhash (Nat.ne_of_beq_eq_false rfl)

/-- Blocks that arrive in this order cause a reorganisation, and the last one has the graph of its
own branch. -/
theorem graphs_from_own_chain_reorganised :
    ∃ bc₀ bc, newBlockChain timeHash forkRoot = .ok bc₀ ∧
      run (handle timeHash) bc₀ [.writeBlockWithState quietHeader false,
        .writeBlockWithState replacingHeader false,
        .writeBlockWithState (followingHeader 4) false] = .ok bc ∧
      bc.Provenance timeHash (seen forkRoot [.writeBlockWithState quietHeader false,
        .writeBlockWithState replacingHeader false,
        .writeBlockWithState (followingHeader 4) false]) ∧
      bc.graphs.lookup (2,22) = some ⟨2, [⟨2, 0x2000, .validator, 1, 1⟩], 1⟩ := by
  have hinj := injOn_timeHash (fun header => .writeBlockWithState header false) (fun _ => rfl) 4
  refine ⟨_, _, rfl, rfl, ?_, rfl⟩
  refine graphs_from_own_chain rfl hinj rfl ?_ rfl
  apply eachStep_of_blocks rfl hinj rfl
  intro call hcall
  simp only [mem_cons, not_mem_nil, or_false] at hcall
  rcases hcall with rfl | rfl | rfl <;> trivial

/-- Headers that arrive in this order stay off the canonical chain, and the last one gets the
graph of the other branch. -/
theorem side_header_takes_canonical_graph :
    ∃ bc₀ bc, newBlockChain timeHash forkRoot = .ok bc₀ ∧
      run (handle timeHash) bc₀ [.writeHeader quietHeader false, .writeHeader replacingHeader false,
        .writeHeader (followingHeader 1) false] = .ok bc ∧
      Set.InjOn timeHash (seen forkRoot [.writeHeader quietHeader false,
        .writeHeader replacingHeader false, .writeHeader (followingHeader 1) false]) ∧
      ¬ bc.Provenance timeHash (seen forkRoot [.writeHeader quietHeader false,
        .writeHeader replacingHeader false, .writeHeader (followingHeader 1) false]) := by
  have hinj := injOn_timeHash (fun header => .writeHeader header false) (fun _ => rfl) 1
  refine ⟨_, _, rfl, rfl, hinj, ?_⟩
  intro h
  have hseen : followingHeader 1 ∈ seen forkRoot [.writeHeader quietHeader false,
      .writeHeader replacingHeader false, .writeHeader (followingHeader 1) false] :=
    .inr ⟨.writeHeader (followingHeader 1) false, by simp, rfl⟩
  rcases h (followingHeader 1) hseen _ rfl with
    ⟨hzero, -⟩ | ⟨-, preGraph, electList, hpre, helect, htransfer⟩
  · cases hzero
  · cases hpre
    cases helect
    cases htransfer

end Sample

end BlockChain

end MatrixNode
