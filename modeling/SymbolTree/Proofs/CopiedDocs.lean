import SymbolTree.Proofs.Columns.Stages
import SymbolTree.Proofs.KeyMap
import Mathlib.Data.List.Chain

/-!
# Copied documentation

The sources of documentation of a symbol form a chain, which ends before it would come back to one of
its nodes. Nodes are filled in place, so a source may have been filled before it is read. What it was
filled with comes from its own chain. This chain starts with the rest of the chain that it is read
for and never leaves that chain, so the first documentation along the chain stays the same.
-/

namespace SymbolTree.Forest

variable {forest later : Forest} {id : NodeId} {chain path : List NodeId}

/-- The node that a node copies documentation from. -/
def docSource? (forest : Forest) (id : NodeId) : Option NodeId :=
  (forest.node id).inheritDoc.bind forest.resolveReference

/-- Nodes that start with a given one, each followed by its source of documentation, none twice. -/
structure DocPath (forest : Forest) (id : NodeId) (path : List NodeId) : Prop where
  /-- The path starts with the node. -/
  head?_eq : path.head? = some id
  /-- Each node is followed by its source. -/
  linked : path.IsChain fun node source => forest.docSource? node = some source
  /-- No node occurs twice. -/
  nodup : path.Nodup

/-- A path along sources of documentation that cannot be continued: its last node names no source, or
none that is found, or one that is on the path. -/
structure DocChain (forest : Forest) (id : NodeId) (chain : List NodeId) : Prop
    extends DocPath forest id chain where
  /-- The chain ends where it would come back. -/
  ends : ∀ {last source}, chain.getLast? = some last → forest.docSource? last = some source →
    source ∈ chain

/-- A node with a source exists. -/
theorem lt_size_of_docSource? {source : NodeId} (h : forest.docSource? id = some source) :
    id < forest.nodes.size := by
  by_contra hsize
  rw [docSource?, node_eq_default (Nat.le_of_not_lt hsize)] at h
  cases h

namespace DocPath

/-- Along a path every node but the last one has a source on the path. -/
theorem last_or_source (h : forest.DocPath id path) {node : NodeId} (hnode : node ∈ path) :
    path.getLast? = some node ∨ ∃ source ∈ path, forest.docSource? node = some source := by
  obtain ⟨before, after, rfl⟩ := List.append_of_mem hnode
  cases after with
  | nil => exact .inl (List.getLast?_concat ..)
  | cons source after =>
    have hlink := (List.isChain_append_cons_cons.mp h.linked).2.1
    exact .inr ⟨source, by simp, hlink⟩

/-- The rest of a path from one of its nodes. -/
theorem suffix {before after : List NodeId} {node : NodeId}
    (h : forest.DocPath id (before ++ node :: after)) : forest.DocPath node (node :: after) :=
  ⟨rfl, h.linked.right_of_append, h.nodup.of_append_right⟩

/-- A path is longer by the source of its last node, if it is not on the path. -/
theorem concat {last source : NodeId} (h : forest.DocPath id path)
    (hlast : path.getLast? = some last) (hsource : forest.docSource? last = some source)
    (hfresh : source ∉ path) : forest.DocPath id (path ++ [source]) := by
  refine ⟨?_, ?_, ?_⟩
  · rw [List.head?_append, h.head?_eq, Option.some_or]
  · refine List.isChain_append.mpr ⟨h.linked, .singleton _, ?_⟩
    intro node hnode next hnext
    rw [Option.mem_def, hlast, Option.some.injEq] at hnode
    rw [Option.mem_def, List.head?_singleton, Option.some.injEq] at hnext
    subst hnode hnext
    exact hsource
  · rw [← List.concat_eq_append]
    exact h.nodup.concat hfresh

/-- A path whose last node has a source is no longer than the number of nodes. -/
theorem length_le (h : forest.DocPath id path) {last source : NodeId}
    (hlast : path.getLast? = some last) (hsource : forest.docSource? last = some source) :
    path.length ≤ forest.nodes.size := by
  have hrange : path ⊆ List.range forest.nodes.size := by
    intro node hnode
    refine List.mem_range.mpr ?_
    rcases h.last_or_source hnode with hend | ⟨_, _, hlink⟩
    · rw [hlast, Option.some.injEq] at hend
      exact hend ▸ lt_size_of_docSource? hsource
    · exact lt_size_of_docSource? hlink
  simpa using (List.subperm_of_subset h.nodup hrange).length_le

/-- A path from the start of a chain is a beginning of the chain. -/
theorem isPrefix (h : forest.DocPath id path) (hchain : forest.DocChain id chain) :
    path <+: chain := by
  induction path using List.reverseRecOn with
  | nil => exact List.nil_prefix
  | append_singleton before source ih =>
    cases hbefore : before.getLast? with
    | none =>
      obtain rfl := List.getLast?_eq_none_iff.mp hbefore
      have hhead : source = id := by simpa using h.head?_eq
      obtain ⟨rest, rfl⟩ := List.head?_eq_some_iff.mp hchain.head?_eq
      exact hhead ▸ List.prefix_append [source] rest
    | some last =>
      have hstart : forest.DocPath id before := by
        refine ⟨?_, h.linked.left_of_append, h.nodup.of_append_left⟩
        have hne : before ≠ [] := by
          rintro rfl
          cases hbefore
        rw [← h.head?_eq, List.head?_append_of_ne_nil _ hne]
      have hsource : forest.docSource? last = some source :=
        (List.isChain_append.mp h.linked).2.2 last hbefore source rfl
      obtain ⟨rest, rfl⟩ := ih hstart
      -- The chain goes on as the path does, or it would end before a node that is not on it.
      cases rest with
      | nil =>
        rw [List.append_nil] at hchain
        have hmem := hchain.ends hbefore hsource
        exact absurd rfl ((List.nodup_append.mp h.nodup).2.2 source hmem source (by simp))
      | cons next rest =>
        have hnext := (List.isChain_append.mp hchain.linked).2.2 last hbefore next rfl
        rw [hsource, Option.some.injEq] at hnext
        subst hnext
        exact ⟨rest, by simp⟩

end DocPath

namespace DocChain

/-- A chain holds the sources of all its nodes. -/
theorem source_mem (h : forest.DocChain id chain) {node source : NodeId} (hnode : node ∈ chain)
    (hsource : forest.docSource? node = some source) : source ∈ chain := by
  rcases h.last_or_source hnode with hlast | ⟨other, hother, hlink⟩
  · exact h.ends hlast hsource
  · rw [hsource, Option.some.injEq] at hlink
    exact hlink ▸ hother

/-- A node has one chain. -/
theorem unique {other : List NodeId} (h : forest.DocChain id chain)
    (hother : forest.DocChain id other) : chain = other :=
  (h.isPrefix hother).eq_of_length_le (hother.isPrefix h).length_le

/-- The chain of a node on a chain never leaves that chain. -/
theorem subset {node : NodeId} {inner : List NodeId} (h : forest.DocChain id chain)
    (hnode : node ∈ chain) (hinner : forest.DocChain node inner) : inner ⊆ chain := by
  refine hinner.linked.induction (· ∈ chain) _ (fun _ _ hlink hmem => h.source_mem hmem hlink) ?_
  intro hne
  have hhead := (List.head?_eq_some_head hne).symm.trans hinner.head?_eq
  exact (Option.some.inj hhead) ▸ hnode

end DocChain

/-- Following sources from the end of a path completes the path to a chain, if the bound leaves room
for all nodes. -/
theorem docChain_append {length : Nat} {visited : List NodeId} {last : NodeId}
    (h : forest.DocPath id path) (hlast : path.getLast? = some last)
    (hvisited : ∀ node, node ∈ visited ↔ node ∈ path)
    (hlength : forest.nodes.size < length + path.length) :
    forest.DocChain id (path ++ forest.docSources length visited last) := by
  induction length generalizing visited path last with
  | zero =>
    rw [docSources, List.append_nil]
    refine ⟨h, fun {node source} hnode hsource => ?_⟩
    have hle := h.length_le hnode hsource
    omega
  | succ length ih =>
    have hstops (hstop : ∀ source, forest.docSource? last = some source → source ∈ path) :
        forest.DocChain id (path ++ []) := by
      rw [List.append_nil]
      refine ⟨h, fun {node source} hnode hsource => hstop source ?_⟩
      rw [hlast, Option.some.injEq] at hnode
      exact hnode ▸ hsource
    rw [docSources]
    cases hsource : (forest.node last).inheritDoc.bind forest.resolveReference with
    | none => exact hstops fun source hfound => by simp [docSource?, hsource] at hfound
    | some source =>
      simp only
      by_cases hmem : source ∈ visited
      · rw [if_pos hmem]
        refine hstops fun other hfound => ?_
        obtain rfl : source = other := Option.some.inj (hsource.symm.trans hfound)
        exact (hvisited source).mp hmem
      · rw [if_neg hmem]
        have hfresh : source ∉ path := fun hpath => hmem ((hvisited source).mpr hpath)
        have hnext := @ih (path ++ [source]) (source :: visited) source
          (h.concat hlast hsource hfresh) (List.getLast?_concat ..)
          (fun node => by simp [hvisited, or_comm])
          (by rw [List.length_append, List.length_singleton]; omega)
        rwa [List.append_assoc] at hnext

/-- A node and the sources that are found for it are its chain. -/
theorem docChain_docSources (forest : Forest) (id : NodeId) :
    forest.DocChain id (id :: forest.docSources forest.nodes.size [id] id) := by
  have hstart : forest.DocPath id [id] := ⟨rfl, .singleton _, List.nodup_singleton _⟩
  exact docChain_append hstart rfl (fun _ => Iff.rfl) (Nat.lt_succ_self _)

/-- The chain of a node on a chain has the same first value as the rest of that chain, if there is
no value before the node. -/
theorem DocChain.findSome?_suffix {β : Type} {original : NodeId → Option β} {node : NodeId}
    {before rest inner : List NodeId} (h : forest.DocChain id (before ++ node :: rest))
    (hinner : forest.DocChain node inner) (hbefore : before.findSome? original = none) :
    inner.findSome? original = (node :: rest).findSome? original := by
  cases hrest : (node :: rest).findSome? original with
  | some value =>
    obtain ⟨more, rfl⟩ := h.suffix.isPrefix hinner
    rw [List.findSome?_append, hrest, Option.some_or]
  | none =>
    have hnone : (before ++ node :: rest).findSome? original = none := by
      rw [List.findSome?_append, hbefore, hrest, Option.none_or]
    rw [List.findSome?_eq_none_iff] at hnone ⊢
    exact fun other hother => hnone other (h.subset (by simp) hinner hother)

/-- The first value along a chain stays the same if some nodes have taken the first value along
their own chains. -/
theorem DocChain.findSome?_eq {β : Type} {original filled : NodeId → Option β}
    (h : forest.DocChain id chain)
    (hfilled : ∀ node ∈ chain, filled node = original node ∨
      ∃ inner, forest.DocChain node inner ∧ filled node = inner.findSome? original) :
    chain.findSome? filled = chain.findSome? original := by
  -- The induction goes along the chain for as long as there has been no value.
  suffices hrest : ∀ before rest, chain = before ++ rest → before.findSome? original = none →
      rest.findSome? filled = rest.findSome? original from hrest [] chain rfl rfl
  intro before rest hsplit hbefore
  induction rest generalizing before with
  | nil => rfl
  | cons node rest ih =>
    have hvalue : filled node = original node ∨
        filled node = (node :: rest).findSome? original := by
      refine (hfilled node (by simp [hsplit])).imp_right ?_
      rintro ⟨inner, hinner, heq⟩
      exact heq.trans ((hsplit ▸ h).findSome?_suffix hinner hbefore)
    rw [List.findSome?_cons] at hvalue
    rw [List.findSome?_cons, List.findSome?_cons]
    cases horiginal : original node with
    | some value =>
      rw [horiginal, or_self] at hvalue
      rw [hvalue]
    | none =>
      have hlater : rest.findSome? filled = rest.findSome? original :=
        ih (before ++ [node]) (by simp [hsplit])
          (by simp [List.findSome?_append, hbefore, horiginal])
      rw [horiginal] at hvalue
      rcases hvalue with heq | heq
      · rw [heq]
        exact hlater
      · rw [heq, hlater]
        cases rest.findSome? original <;> rfl

/-- An attribute that filling in documentation takes from the source where the node lacks it. -/
def Fillable {β : Type} (view : Node → Option β) : Prop :=
  ∀ node source, view (fillDocs node source) = (view node).or (view source)

/-- A text, unless it is empty. -/
def nonEmpty? (text : String) : Option String := if text = "" then none else some text

/-- A text can be read off, empty or not. -/
@[simp] theorem getD_nonEmpty? (text : String) : (nonEmpty? text).getD "" = text := by
  unfold nonEmpty?
  split <;> simp_all

/-- Descriptions are filled in. -/
theorem fillable_description : Fillable fun node => nonEmpty? node.description := by
  intro node source
  by_cases hempty : node.description = "" <;> simp [nonEmpty?, fillDocs, hempty]

/-- Summaries are filled in. -/
theorem fillable_summary : Fillable fun node => nonEmpty? node.summary := by
  intro node source
  by_cases hempty : node.summary = "" <;> simp [nonEmpty?, fillDocs, hempty]

/-- Fields that are passed on are filled in one by one. -/
theorem fillable_extra (key : String) : Fillable fun node => node.extra.get? key :=
  fun node source => KeyMap.get?_foldl_insertIfNew source.extra.entries node.extra key

/-- A node without its documentation. -/
def withoutDocs (node : Node) : Node :=
  { node with description := "", summary := "", extra := .empty }

/-- Nodes with the same documentation that are otherwise the same are equal. -/
theorem node_eq_of_docs {a b : Node} (hrest : withoutDocs a = withoutDocs b)
    (hdocs : ∀ {β : Type} {view : Node → Option β}, Fillable view → view a = view b) : a = b := by
  have htext {x y : String} (h : nonEmpty? x = nonEmpty? y) : x = y := by
    rw [← getD_nonEmpty? x, h, getD_nonEmpty?]
  have hdescription : a.description = b.description := htext (hdocs fillable_description)
  have hsummary : a.summary = b.summary := htext (hdocs fillable_summary)
  have hextra : a.extra = b.extra := KeyMap.ext_get? fun key => hdocs (fillable_extra key)
  cases a
  cases b
  simp_all [withoutDocs]

/-- The node with all documentation that its chain has, as it is in a forest. -/
def documentedNode (forest : Forest) (id : NodeId) : Node :=
  ((forest.docSources forest.nodes.size [id] id).map forest.node).foldl fillDocs (forest.node id)

/-- Filling in from several nodes takes an attribute from the first one that has it. -/
theorem Fillable.foldl {β : Type} {view : Node → Option β} (h : Fillable view) (node : Node)
    (sources : List Node) : view (sources.foldl fillDocs node) = (node :: sources).findSome? view := by
  induction sources generalizing node with
  | nil => simp
  | cons source sources ih =>
    rw [List.foldl_cons, ih, List.findSome?_cons, h]
    cases hview : view node <;> simp [List.findSome?_cons, hview]

/-- Filling in concerns documentation only. -/
theorem withoutDocs_foldl_fillDocs (node : Node) (sources : List Node) :
    withoutDocs (sources.foldl fillDocs node) = withoutDocs node :=
  foldl_keeps withoutDocs
    (fun node source _ => (rfl : withoutDocs (fillDocs node source) = withoutDocs node)) node

/-- A documented node has an attribute from the first node of its chain with this attribute. -/
theorem Fillable.documentedNode {β : Type} {view : Node → Option β} (h : Fillable view)
    (hchain : forest.DocChain id chain) :
    view (forest.documentedNode id) = chain.findSome? fun node => view (forest.node node) := by
  rw [hchain.unique (forest.docChain_docSources id), Forest.documentedNode, h.foldl,
    ← List.map_cons, List.findSome?_map]
  rfl

/-- A node without a source has no sources to fill it in from. -/
theorem docSources_of_no_source (h : forest.docSource? id = none) (length : Nat)
    (visited : List NodeId) : forest.docSources length visited id = [] := by
  cases length with
  | zero => rfl
  | succ length =>
    have hsource : (forest.node id).inheritDoc.bind forest.resolveReference = none := h
    rw [docSources, hsource]

/-- A node without a source is documented as it is. -/
theorem documentedNode_of_no_source (h : forest.docSource? id = none) :
    forest.documentedNode id = forest.node id := by
  rw [documentedNode, docSources_of_no_source h, List.map_nil, List.foldl_nil]

/-- Filling in a node in place from other nodes reads these as they are at the start. -/
theorem node_foldl_fillDocs {sources : List NodeId} (hfresh : id ∉ sources)
    (hid : id < forest.nodes.size) :
    (sources.foldl
      (fun forest source => forest.modify id fun node => fillDocs node (forest.node source))
      forest).node id = (sources.map forest.node).foldl fillDocs (forest.node id) := by
  induction sources generalizing forest with
  | nil => rfl
  | cons source sources ih =>
    have hrest : id ∉ sources := fun hmem => hfresh (List.mem_cons_of_mem _ hmem)
    have hread : sources.map
        (forest.modify id fun node => fillDocs node (forest.node source)).node =
        sources.map forest.node :=
      List.map_congr_left fun other hother => by
        have hne : other ≠ id := fun heq => hrest (heq ▸ hother)
        exact node_modify_of_ne hne _
    rw [List.foldl_cons, ih hrest (by simpa using hid), hread, node_modify_self hid,
      List.map_cons, List.foldl_cons]

/-- Copying documentation fills in one node from the sources that are found for it. -/
theorem node_copyDocs (forest : Forest) (id other : NodeId) :
    (forest.copyDocs id).node other =
      if other = id then forest.documentedNode id else forest.node other := by
  by_cases hother : other = id
  · subst hother
    rw [if_pos rfl]
    have hchain := forest.docChain_docSources other
    by_cases hid : other < forest.nodes.size
    · exact node_foldl_fillDocs (List.nodup_cons.mp hchain.nodup).1 hid
    · have hnone : forest.docSource? other = none :=
        Option.eq_none_iff_forall_ne_some.mpr fun _ hsource => hid (lt_size_of_docSource? hsource)
      rw [copyDocs, docSources_of_no_source hnone, documentedNode_of_no_source hnone,
        List.foldl_nil]
  · rw [if_neg hother]
    exact foldl_keeps (node · other) (fun forest _ _ => node_modify_of_ne hother _) forest

/-- The sources that are found depend on nothing but the source of each node. -/
theorem docSources_congr (h : ∀ node, later.docSource? node = forest.docSource? node)
    (length : Nat) (visited : List NodeId) (id : NodeId) :
    later.docSources length visited id = forest.docSources length visited id := by
  induction length generalizing visited id with
  | zero => rfl
  | succ length ih =>
    have hsource : (later.node id).inheritDoc.bind later.resolveReference =
        (forest.node id).inheritDoc.bind forest.resolveReference := h id
    rw [docSources, docSources, hsource]
    simp only [ih]

/-- While documentation is copied, each node is as it was or has all documentation of its chain. -/
structure DocsCopied (forest : Forest) (done : List NodeId) (later : Forest) : Prop where
  /-- Nothing but nodes changes. -/
  rest_eq : later.rest = forest.rest
  /-- No node comes or goes. -/
  size_eq : later.nodes.size = forest.nodes.size
  /-- The nodes that are done are documented, and the others are as they were. -/
  node_eq : ∀ id, later.node id =
    if id ∈ done then forest.documentedNode id else forest.node id

namespace DocsCopied

variable {done : List NodeId}

/-- Copying changes nothing but documentation. -/
theorem withoutDocs_eq (h : forest.DocsCopied done later) (id : NodeId) :
    withoutDocs (later.node id) = withoutDocs (forest.node id) := by
  rw [h.node_eq id]
  split
  · exact withoutDocs_foldl_fillDocs _ _
  · rfl

/-- Copying changes no source. -/
theorem docSource?_eq (h : forest.DocsCopied done later) (id : NodeId) :
    later.docSource? id = forest.docSource? id := by
  have hlookup := lookup_eq_of_rest_eq h.rest_eq
  have hsource : (withoutDocs (later.node id)).inheritDoc =
      (withoutDocs (forest.node id)).inheritDoc := by rw [h.withoutDocs_eq]
  replace hsource : (later.node id).inheritDoc = (forest.node id).inheritDoc := hsource
  unfold docSource? resolveReference
  rw [hsource, hlookup]

/-- A node that is filled in from nodes that may be documented already gets what it would get from
them as they were. -/
theorem documentedNode_eq (h : forest.DocsCopied done later) (id : NodeId) :
    later.documentedNode id = forest.documentedNode id := by
  refine node_eq_of_docs ?_ fun {β view} hview => ?_
  · rw [Forest.documentedNode, withoutDocs_foldl_fillDocs, h.withoutDocs_eq, Forest.documentedNode,
      withoutDocs_foldl_fillDocs]
  · have hchain := forest.docChain_docSources id
    have hlater : later.DocChain id (id :: forest.docSources forest.nodes.size [id] id) := by
      rw [← docSources_congr h.docSource?_eq, ← h.size_eq]
      exact later.docChain_docSources id
    rw [hview.documentedNode hlater, hview.documentedNode hchain]
    refine hchain.findSome?_eq fun node _ => ?_
    rw [h.node_eq node]
    split
    · exact .inr ⟨_, forest.docChain_docSources node,
        hview.documentedNode (forest.docChain_docSources node)⟩
    · exact .inl rfl

/-- Copying documentation for one more node. -/
theorem copyDocs (h : forest.DocsCopied done later) (id : NodeId) :
    forest.DocsCopied (id :: done) (later.copyDocs id) where
  rest_eq := (rest_copyDocs later id).trans h.rest_eq
  size_eq := by
    have hcolumn : (later.copyDocs id).column Node.location = later.column Node.location :=
      column_copyDocs (fun _ _ => rfl) later id
    exact (size_eq_of_column_eq hcolumn).trans h.size_eq
  node_eq other := by
    rw [node_copyDocs]
    by_cases hother : other = id
    · rw [if_pos hother, h.documentedNode_eq, if_pos (List.mem_cons.mpr (.inl hother)), hother]
    · rw [if_neg hother, h.node_eq]
      simp [hother]

/-- Copying documentation for several nodes, one after another. -/
theorem foldl (h : forest.DocsCopied done later) (order : List NodeId) :
    forest.DocsCopied (order.reverse ++ done) (order.foldl Forest.copyDocs later) := by
  induction order generalizing done later with
  | nil => exact h
  | cons id order ih => simpa using ih (h.copyDocs id)

/-- A run ends with the same forest for all orders of the nodes. -/
theorem unique {other : Forest} {reordered : List NodeId} (h : forest.DocsCopied done later)
    (hother : forest.DocsCopied reordered other) (hsame : ∀ id, id ∈ done ↔ id ∈ reordered) :
    later = other := by
  refine eq_of_rest_eq (h.rest_eq.trans hother.rest_eq.symm) (h.size_eq.trans hother.size_eq.symm)
    fun id => ?_
  rw [h.node_eq, hother.node_eq]
  simp only [hsame]

end DocsCopied

/-- The first text that is not empty, or the empty text if there is none. -/
def firstText (texts : List String) : String := (texts.find? (· ≠ "")).getD ""

/-- The first text is the first one that is there. -/
theorem firstText_map (text : NodeId → String) (chain : List NodeId) :
    firstText (chain.map text) = (chain.findSome? fun node => nonEmpty? (text node)).getD "" := by
  induction chain with
  | nil => rfl
  | cons node chain ih =>
    rw [firstText] at ih ⊢
    by_cases hempty : text node = "" <;> simp_all [nonEmpty?]

/-- Copying documentation equals its closed form on the nodes as they are at the start. Every node has
one chain of sources. Its description and its summary become the first ones along the chain that are
not empty, and each of its further fields has the value of the first node on the chain with this
field. Nodes that name no source stay as they are, and so do those that are left out. The result is
the same in whatever order the nodes are processed. -/
theorem copied_docs_closed_form (forest : Forest) (order : List NodeId) :
    let copied := order.foldl copyDocs forest
    (∀ id ∈ order, ∃ chain, (∀ other, forest.DocChain id other ↔ other = chain) ∧
      (copied.node id).description =
        firstText (chain.map fun node => (forest.node node).description) ∧
      (copied.node id).summary = firstText (chain.map fun node => (forest.node node).summary) ∧
      ∀ key, (copied.node id).extra.get? key =
        chain.findSome? fun node => (forest.node node).extra.get? key) ∧
    (∀ id, (forest.node id).inheritDoc = none ∨ id ∉ order → copied.node id = forest.node id) ∧
    ∀ reordered : List NodeId, reordered.Perm order →
      reordered.foldl copyDocs forest = copied := by
  intro copied
  have hstart : forest.DocsCopied [] forest := ⟨rfl, rfl, fun _ => by simp⟩
  have hcopied (order : List NodeId) :
      forest.DocsCopied (order.reverse ++ []) (order.foldl copyDocs forest) := hstart.foldl order
  have hnode (id : NodeId) : copied.node id =
      if id ∈ order then forest.documentedNode id else forest.node id := by
    simpa using (hcopied order).node_eq id
  refine ⟨fun id hid => ?_, ?_, fun reordered hperm => ?_⟩
  · have hchain := forest.docChain_docSources id
    refine ⟨_, fun other => ⟨fun h => h.unique hchain, fun h => h ▸ hchain⟩, ?_, ?_, fun key => ?_⟩
    · rw [hnode, if_pos hid, firstText_map, ← fillable_description.documentedNode hchain,
        getD_nonEmpty?]
    · rw [hnode, if_pos hid, firstText_map, ← fillable_summary.documentedNode hchain,
        getD_nonEmpty?]
    · rw [hnode, if_pos hid]
      exact (fillable_extra key).documentedNode hchain
  · rintro id (hnone | hskipped)
    · rw [hnode, documentedNode_of_no_source (by rw [docSource?, hnone, Option.bind_none]), ite_self]
    · rw [hnode, if_neg hskipped]
  · refine (hcopied reordered).unique (hcopied order) fun id => ?_
    simp [hperm.mem_iff]

/-- Three methods. The first one copies its documentation from the second, and the other two copy
theirs from each other. -/
def circularDocs : Forest where
  nodes := #[
    .ofRecord { id := "Leaf#show", kind := .method, summary := "Shows.",
                inheritDoc := some "Middle#show" },
    .ofRecord { id := "Middle#show", kind := .method, inheritDoc := some "Base#show" },
    .ofRecord { id := "Base#show", kind := .method, description := "Draws itself.",
                inheritDoc := some "Middle#show" }]
  keys := .empty
  top := [.owned 0, .owned 1, .owned 2]
  lookup := .ofList [("Base#show", 2), ("Leaf#show", 0), ("Middle#show", 1)]
  diagnostics := []

/-- The first method gets the description of the third and keeps its summary, whether the second
one is filled in before or after it. -/
theorem copied_docs_closed_form_of_circularDocs :
    let copied := [0, 1, 2].foldl copyDocs circularDocs
    (copied.node 0).description = "Draws itself." ∧ (copied.node 0).summary = "Shows." ∧
      [2, 1, 0].foldl copyDocs circularDocs = copied := by
  intro copied
  obtain ⟨hfilled, _, hreordered⟩ := copied_docs_closed_form circularDocs [0, 1, 2]
  obtain ⟨chain, hchain, hdescription, hsummary, _⟩ := hfilled 0 (by decide)
  have hsources : circularDocs.docSource? 0 = some 1 ∧ circularDocs.docSource? 1 = some 2 ∧
      circularDocs.docSource? 2 = some 1 := by decide +kernel
  have hthree : circularDocs.DocChain 0 [0, 1, 2] := by
    refine ⟨⟨rfl, ?_, by decide⟩, fun {last source} hlast hsource => ?_⟩
    · exact .cons_cons hsources.1 (.cons_cons hsources.2.1 (.singleton _))
    · obtain rfl : 2 = last := Option.some.inj hlast
      obtain rfl : 1 = source := Option.some.inj (hsources.2.2.symm.trans hsource)
      decide
  obtain rfl := (hchain _).mp hthree
  refine ⟨hdescription.trans ?_, hsummary.trans ?_, hreordered [2, 1, 0] (by decide)⟩
  · decide +kernel
  · decide +kernel

end SymbolTree.Forest
