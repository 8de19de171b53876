import SymbolTree.Proofs.Addresses
import SymbolTree.Proofs.Winners

/-!
# Clashes on ids keep the earliest node

Nodes of several sections can have one id once their sections are dropped. Nesting enters the keyed
nodes in canonical order of their keys, and each of them that is no section asks for its id. An id
ends with the first node of least precedence, and every other node that asked for it has led to one
report.
-/

namespace SymbolTree

namespace Forest

variable {forest named later : Forest} {seen : List Seat}

/-- Whether a node is to be found under an id: it has the id and is no section. -/
def answersTo (forest : Forest) (id : String) (node : NodeId) : Bool :=
  !(forest.node node).isSection && (forest.node node).id == id

/-- The nodes among some seats that are to be found under an id, in the order of the seats. -/
def competitors (forest : Forest) (seats : List Seat) (id : String) : List NodeId :=
  (seats.filter fun seat => forest.answersTo id seat.id).map (·.id)

/-- One more seat adds its node to the competitors for the node's id. -/
theorem competitors_concat (forest : Forest) (seats : List Seat) (seat : Seat) (id : String) :
    forest.competitors (seats ++ [seat]) id =
      forest.competitors seats id ++ if forest.answersTo id seat.id then [seat.id] else [] := by
  rw [competitors, competitors, List.filter_append, List.map_append, List.filter_singleton]
  cases forest.answersTo id seat.id <;> rfl

/-- Entering an id settles who holds it, and no other id is concerned. -/
theorem get?_lookup_enter (forest : Forest) (id other : String) (incoming : NodeId) :
    (forest.enter id incoming).lookup.get? other =
      if other = id then some (nextHolder forest.precedenceOf (forest.lookup.get? id) incoming)
      else forest.lookup.get? other := by
  cases hheld : forest.lookup.get? id with
  | none =>
    rw [enter_of_free hheld, KeyMap.get?_insert]
    rfl
  | some holder =>
    rw [enter_of_held hheld, KeyMap.get?_insert]
    rfl

/-- Entering an id reports a clash with its holder. -/
theorem diagnostics_enter (forest : Forest) (id : String) (incoming : NodeId) :
    (forest.enter id incoming).diagnostics =
      forest.diagnostics ++
        (forest.lookup.get? id).toList.map fun holder => forest.clashReport id holder incoming := by
  cases hheld : forest.lookup.get? id with
  | none =>
    rw [enter_of_free hheld]
    simp
  | some holder =>
    rw [enter_of_held hheld]
    rfl

/-- What each entry keeps: ids are held by the first nodes of least precedence among the competitors
so far, and each competitor but one has led to a report that keeps an earlier location. -/
structure Entered (named : Forest) (seen : List Seat) (later : Forest) : Prop where
  /-- The nodes stay as they are. -/
  nodes_eq : later.nodes = named.nodes
  /-- The competitors for an id settle who holds it. -/
  heldBy : ∀ id, HeldBy named.precedenceOf (named.competitors seen id) (later.lookup.get? id)
  /-- The new reports are clashes, one fewer than there are competitors for each id. -/
  reported : ∃ reports, later.diagnostics = named.diagnostics ++ reports ∧
    (∀ report ∈ reports, report.KeepsEarlier) ∧
    ∀ id, reports.countP (·.isClashOn id) = (named.competitors seen id).length - 1

namespace Entered

/-- Before any node is entered, no id is held. -/
theorem start (hempty : forest.lookup = .empty) : Entered forest [] forest where
  nodes_eq := rfl
  heldBy id := by
    rw [hempty, KeyMap.get?_empty]
    exact .free
  reported := ⟨[], by simp, by simp, fun _ => rfl⟩

/-- A node that is entered under its id. -/
theorem enter (h : Entered named seen later) {seat : Seat}
    (hsection : (named.node seat.id).isSection = false) :
    Entered named (seen ++ [seat]) (later.enter (named.node seat.id).id seat.id) := by
  have hnode : later.node = named.node := funext fun id => node_eq_of_nodes_eq h.nodes_eq id
  have hprecedence : later.precedenceOf = named.precedenceOf := by
    unfold precedenceOf
    rw [hnode]
  have hcompetitors (id : String) : named.competitors (seen ++ [seat]) id =
      named.competitors seen id ++ if (named.node seat.id).id = id then [seat.id] else [] := by
    rw [competitors_concat]
    simp [answersTo, hsection]
  refine ⟨(nodes_enter later _ _).trans h.nodes_eq, fun id => ?_, ?_⟩
  · rw [hcompetitors, get?_lookup_enter, hprecedence]
    by_cases hid : id = (named.node seat.id).id
    · rw [if_pos hid, if_pos hid.symm, ← hid]
      exact (h.heldBy id).next seat.id
    · rw [if_neg hid, if_neg (Ne.symm hid), List.append_nil]
      exact h.heldBy id
  · obtain ⟨reports, hreports, hearlier, hcount⟩ := h.reported
    refine ⟨_, by rw [diagnostics_enter, hreports, List.append_assoc], fun report hreport => ?_,
      fun id => ?_⟩
    · rcases List.mem_append.mp hreport with hold | hnew
      · exact hearlier report hold
      · obtain ⟨holder, _, rfl⟩ := List.mem_map.mp hnew
        exact keepsEarlier_clashReport later _ holder seat.id
    · have hclash (holder : NodeId) : (later.clashReport (named.node seat.id).id holder
          seat.id).isClashOn id = ((named.node seat.id).id == id) := rfl
      have hlength := hcount id
      rw [hcompetitors, List.countP_append, hlength]
      by_cases hid : (named.node seat.id).id = id
      · -- The first competitor finds its id free; each later one clashes with the holder.
        rw [if_pos hid, hid]
        cases hheld : later.lookup.get? id with
        | none =>
          have hnobody := (h.heldBy id).eq_none_iff.mp hheld
          simp [hnobody]
        | some holder =>
          have hcompetes := ((h.heldBy id).eq_some_iff.mp hheld).mem
          have hpos := List.length_pos_of_mem hcompetes
          rw [hid] at hclash
          simp only [Option.toList_some, List.map_singleton, List.countP_singleton, hclash,
            beq_self_eq_true, if_true, List.length_append, List.length_singleton]
          omega
      · rw [if_neg hid, List.append_nil, List.countP_eq_zero.mpr, Nat.add_zero]
        intro report hreport
        obtain ⟨holder, _, rfl⟩ := List.mem_map.mp hreport
        simp [hclash, hid]

/-- Whoever sits next is entered unless it is a section. -/
theorem enterSeat (h : Entered named seen later) (seat : Seat) :
    Entered named (seen ++ [seat]) (later.enterSeat seat) := by
  have hnode : later.node seat.id = named.node seat.id := node_eq_of_nodes_eq h.nodes_eq seat.id
  unfold Forest.enterSeat
  simp only [hnode]
  cases hsection : (named.node seat.id).isSection with
  | true =>
    have hcompetitors (id : String) :
        named.competitors (seen ++ [seat]) id = named.competitors seen id := by
      rw [competitors_concat]
      simp [answersTo, hsection]
    refine ⟨h.nodes_eq, fun id => ?_, ?_⟩
    · rw [hcompetitors]
      exact h.heldBy id
    · simp only [hcompetitors]
      exact h.reported
  | false => exact h.enter hsection

/-- All that sit are entered in turn. -/
theorem foldl (h : Entered named seen later) (seats : List Seat) :
    Entered named (seen ++ seats) (seats.foldl Forest.enterSeat later) := by
  induction seats generalizing seen later with
  | nil => simpa using h
  | cons seat seats ih =>
    have hrest := ih (h.enterSeat seat)
    rwa [List.append_assoc] at hrest

end Entered

/-- What follows the entries adds no report. -/
theorem diagnostics_nest (forest : Forest) :
    forest.nest.diagnostics = forest.withEntries.diagnostics := by
  have htwinned : (forest.seats.foldl nameTwin forest.withTop).rest = forest.withTop.rest :=
    foldl_keeps rest (fun forest seat _ => rest_nameTwin forest seat) forest.withTop
  have hraised : forest.withTop.diagnostics = forest.withEntries.diagnostics := by
    unfold withTop clearRoot
    split <;> rfl
  exact (diagnostics_eq_of_rest_eq htwinned).trans hraised

/-- Nodes are entered by the ids and types that they have after nesting. -/
theorem answersTo_withNames (forest : Forest) :
    forest.withNames.answersTo = forest.nest.answersTo := by
  funext id node
  rw [answersTo, answersTo, isSection_eq forest.types_withNames, ← isSection_eq forest.types_nest,
    view_node_eq_of_column_eq forest.ids_nest]

/-- Nodes are entered with the precedences that they have after nesting. -/
theorem precedenceOf_withNames (forest : Forest) :
    forest.withNames.precedenceOf = forest.nest.precedenceOf := by
  funext node
  have hcolumn : forest.nest.column Node.precedence = forest.withNames.column Node.precedence :=
    column_nest_withNames (fun _ _ => rfl) (fun _ _ => rfl) forest
  exact (view_node_eq_of_column_eq hcolumn node).symm

/-- A keyed node that competes for an id: after nesting it has this id and is no section. -/
structure Competes (forest : Forest) (id key : String) (node : NodeId) : Prop where
  /-- The node is keyed. -/
  keyed : forest.keys.get? key = some node
  /-- It is no section. -/
  not_section : (forest.nest.node node).isSection = false
  /-- It has the id. -/
  id_eq : (forest.nest.node node).id = id

/-- The competitors sit among the keyed nodes. -/
theorem competes_iff {id key : String} {node : NodeId} :
    forest.Competes id key node ↔
      seatOf (key, node) ∈ forest.seats.filter fun seat => forest.nest.answersTo id seat.id := by
  have hanswers : forest.nest.answersTo id node = true ↔
      (forest.nest.node node).isSection = false ∧ (forest.nest.node node).id = id := by
    simp [answersTo]
  rw [List.mem_filter]
  constructor
  · intro h
    exact ⟨mem_seats_iff.mpr ⟨key, node, h.keyed, rfl⟩, hanswers.mpr ⟨h.not_section, h.id_eq⟩⟩
  · rintro ⟨hseat, hanswer⟩
    obtain ⟨hsection, hid⟩ := hanswers.mp hanswer
    exact ⟨get?_keys_of_mem_seats hseat, hsection, hid⟩

/-- The competitors for an id in the order of their keys have a winner of least precedence, and of
least key among those that share it. -/
theorem firstLeast_competitors_iff {id : String} {winner : NodeId} :
    FirstLeast forest.nest.precedenceOf (forest.nest.competitors forest.seats id) winner ↔
      ∃ key, forest.Competes id key winner ∧ ∀ otherKey other, forest.Competes id otherKey other →
        (forest.nest.node winner).precedence.beats (forest.nest.node other).precedence = true ∨
          (forest.nest.node winner).precedence.compare (forest.nest.node other).precedence = .eq ∧
            (compareIds key otherKey).isLE = true := by
  rw [competitors, FirstLeast.map_iff]
  simp only [FirstLeast.iff_of_increasing Seat.key (forest.pairwise_seats.filter _), precedenceOf]
  constructor
  · rintro ⟨seat, rfl, hseat, hleast⟩
    obtain ⟨key, node, _, rfl⟩ := mem_seats_iff.mp (List.mem_filter.mp hseat).1
    exact ⟨key, competes_iff.mpr hseat,
      fun otherKey other hother => hleast (seatOf (otherKey, other)) (competes_iff.mp hother)⟩
  · rintro ⟨key, hcompetes, hleast⟩
    refine ⟨seatOf (key, winner), rfl, competes_iff.mp hcompetes, fun seat hseat => ?_⟩
    obtain ⟨otherKey, other, _, rfl⟩ := mem_seats_iff.mp (List.mem_filter.mp hseat).1
    exact hleast otherKey other (competes_iff.mpr hseat)

/-- There are as many competitors for an id as keyed nodes that are to be found under it. -/
theorem length_competitors (forest : Forest) (id : String) :
    (forest.nest.competitors forest.seats id).length =
      forest.keys.values.countP (forest.nest.answersTo id) := by
  rw [competitors, List.length_map, ← forest.seats_map_id_perm.countP_eq, List.countP_map,
    List.countP_eq_length_filter]
  rfl

end Forest

namespace Collection

/-- For every collection whose sections are guessed, nesting makes exactly the ids of the keyed
nodes that are no sections addressable. An id leads to a node of least precedence among those that
have it, and of several such nodes to the one whose key comes first. The reports that nesting adds
are clashes that keep no later location than they drop, and for each id there is one fewer than
there are nodes with it. -/
theorem nested_lookup_first_least (collection : Collection) :
    let forest := (Forest.ofCollection collection).assignSections
    let nested := forest.nest
    (∀ id, nested.lookup.contains id = true ↔ ∃ key node, forest.Competes id key node) ∧
    (∀ id winner, nested.lookup.get? id = some winner ↔
      ∃ key, forest.Competes id key winner ∧ ∀ otherKey other, forest.Competes id otherKey other →
        (nested.node winner).precedence.beats (nested.node other).precedence = true ∨
          (nested.node winner).precedence.compare (nested.node other).precedence = .eq ∧
            (compareIds key otherKey).isLE = true) ∧
    ∃ reports, nested.diagnostics = forest.diagnostics ++ reports ∧
      (∀ report ∈ reports, report.KeepsEarlier) ∧
      ∀ id, reports.countP (·.isClashOn id) =
        forest.keys.values.countP (nested.answersTo id) - 1 := by
  intro forest nested
  have hempty : forest.withNames.lookup = .empty := by
    rw [Forest.lookup_eq_of_rest_eq forest.rest_withNames, Forest.lookup_assignSections,
      Forest.lookup_ofCollection]
  have hentered : Forest.Entered forest.withNames ([] ++ forest.seats) forest.withEntries :=
    (Forest.Entered.start hempty).foldl forest.seats
  have hcompetitors (id : String) : forest.withNames.competitors ([] ++ forest.seats) id =
      nested.competitors forest.seats id := by
    rw [Forest.competitors, forest.answersTo_withNames]
    rfl
  have hheld (id : String) : HeldBy nested.precedenceOf (nested.competitors forest.seats id)
      (nested.lookup.get? id) := by
    have hheld := hentered.heldBy id
    rwa [hcompetitors, forest.precedenceOf_withNames, ← forest.lookup_nest] at hheld
  refine ⟨fun id => ?_, fun id winner => ?_, ?_⟩
  · rw [KeyMap.contains, (hheld id).isSome_iff]
    constructor
    · rintro ⟨node, hnode⟩
      obtain ⟨seat, hseat, rfl⟩ := List.mem_map.mp hnode
      obtain ⟨key, node, _, rfl⟩ := Forest.mem_seats_iff.mp (List.mem_filter.mp hseat).1
      exact ⟨key, node, Forest.competes_iff.mpr hseat⟩
    · rintro ⟨key, node, hcompetes⟩
      exact ⟨node, List.mem_map.mpr ⟨_, Forest.competes_iff.mp hcompetes, rfl⟩⟩
  · rw [(hheld id).eq_some_iff]
    exact Forest.firstLeast_competitors_iff
  · obtain ⟨reports, hreports, hearlier, hcount⟩ := hentered.reported
    refine ⟨reports, ?_, hearlier, fun id => ?_⟩
    · rw [Forest.diagnostics_nest, hreports,
        Forest.diagnostics_eq_of_rest_eq forest.rest_withNames]
    · rw [hcount, hcompetitors, Forest.length_competitors]

/-- One class in three sections, in the second and the third of them at the same place. -/
def classInThreeSections : List Record :=
  [{ id := "Shared", kind := .class, «section» := some "Alpha", file := ⟨"b"⟩, line := 2 },
    { id := "Shared", kind := .class, «section» := some "Gamma", file := ⟨"a"⟩, line := 1 },
    { id := "Shared", kind := .class, «section» := some "Beta", file := ⟨"a"⟩, line := 1 }]

/-- The class of the second section displaces that of the first and does not give way to that of the
third. -/
theorem nested_lookup_first_least_of_classInThreeSections :
    let forest := (Forest.ofCollection (empty.insertAll classInThreeSections)).assignSections
    let nested := forest.nest
    forest.Competes "Shared" "Gamma.Shared" 3 ∧ nested.lookup.get? "Shared" = some 2 ∧
      (∃ key, forest.Competes "Shared" key 2 ∧
        ((nested.node 2).precedence.beats (nested.node 3).precedence = true ∨
          (nested.node 2).precedence.compare (nested.node 3).precedence = .eq ∧
            (compareIds key "Gamma.Shared").isLE = true)) ∧
      ∃ reports, nested.diagnostics = forest.diagnostics ++ reports ∧
        reports.countP (·.isClashOn "Shared") = 2 := by
  intro forest nested
  obtain ⟨hgamma, hsection, hid, hheld, hcount⟩ :
      forest.keys.get? "Gamma.Shared" = some 3 ∧ (nested.node 3).isSection = false ∧
      (nested.node 3).id = "Shared" ∧ nested.lookup.get? "Shared" = some 2 ∧
      forest.keys.values.countP (nested.answersTo "Shared") = 3 := by
    simp only [nested, forest, Forest.nest_eval, Forest.assignSections_eval]
    decide +kernel
  have hcompetes : forest.Competes "Shared" "Gamma.Shared" 3 := ⟨hgamma, hsection, hid⟩
  obtain ⟨_, hwinner, reports, hreports, _, hclashes⟩ :=
    nested_lookup_first_least (empty.insertAll classInThreeSections)
  obtain ⟨key, hkey, hleast⟩ := (hwinner "Shared" 2).mp hheld
  refine ⟨hcompetes, hheld, ⟨key, hkey, hleast "Gamma.Shared" 3 hcompetes⟩, reports, hreports, ?_⟩
  rw [hclashes, hcount]

end Collection

end SymbolTree
