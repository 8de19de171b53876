import SymbolTree.Proofs.CanonicalOrder
import SymbolTree.Proofs.Precedence
import SymbolTree.Resolution

/-!
# Evaluating a resolution

Every stage of a resolution runs along an order that a merge sort gives. A merge sort recurses on
lengths, and such a recursion is not evaluated by unfolding. An insertion sort recurses on the list
and gives the same order, since both keep the order of items that compare equal. Each stage along
orders that are sorted by insertion is therefore the stage itself, and the resolution of given
records can be evaluated.
-/

namespace SymbolTree

open Std

namespace Forest

/-- The comparison that nodes are placed by: ids first, then precedences. -/
def resolutionOrder (forest : Forest) : NodeId → NodeId → Ordering :=
  compareLex (fun a b => compareIds (forest.node a).id (forest.node b).id) fun a b =>
    (forest.node a).precedence.compare (forest.node b).precedence

instance (forest : Forest) : TransCmp forest.resolutionOrder :=
  have : TransCmp fun a b => compareIds (forest.node a).id (forest.node b).id :=
    transCmp_on compareIds fun id => (forest.node id).id
  have : TransCmp fun a b => (forest.node a).precedence.compare (forest.node b).precedence :=
    transCmp_on Precedence.compare fun id => (forest.node id).precedence
  inferInstanceAs (TransCmp (compareLex _ _))

/-- The order of resolution is this comparison. -/
theorem resolutionLE_eq (forest : Forest) (a b : NodeId) :
    forest.resolutionLE a b = (forest.resolutionOrder a b).isLE := rfl

/-- The order of resolution is transitive. -/
theorem resolutionLE_trans (forest : Forest) (a b c : NodeId)
    (hab : forest.resolutionLE a b = true) (hbc : forest.resolutionLE b c = true) :
    forest.resolutionLE a c = true := by
  rw [resolutionLE_eq] at hab hbc ⊢
  exact TransCmp.isLE_trans hab hbc

/-- The order of resolution is total. -/
theorem resolutionLE_total (forest : Forest) (a b : NodeId) :
    (forest.resolutionLE a b || forest.resolutionLE b a) = true := by
  have hswap : forest.resolutionOrder b a = (forest.resolutionOrder a b).swap :=
    OrientedCmp.eq_swap
  rw [resolutionLE_eq, resolutionLE_eq, hswap]
  cases forest.resolutionOrder a b <;> rfl

/-- The placed nodes, sorted by insertion. -/
def placedByInsertion (forest : Forest) : List NodeId :=
  (forest.reachable.filter fun id => !(forest.node id).isSection).insertionSort
    fun a b => forest.resolutionLE a b = true

/-- Guess sections along keys that are sorted by insertion. -/
def assignSectionsByInsertion (forest : Forest) : Forest :=
  forest.assignSectionsAlong <|
    (forest.keys.keys.filter (· ≠ "")).insertionSort fun a b => (compareIds a b).isLE = true

/-- Nest along seats that are sorted by insertion. -/
def nestByInsertion (forest : Forest) : Forest :=
  forest.nestAlong <|
    (forest.keys.entries.insertionSort fun a b => (compareIds a.1 b.1).isLE = true).map seatOf

/-- Resolve along orders that are sorted by insertion, up to the relations between nodes. -/
def linkedByInsertion (forest : Forest) : Forest :=
  let nested := forest.assignSectionsByInsertion.nestByInsertion
  let classified := nested.classifyAlong nested.placedByInsertion
  classified.linkAlong classified.placedByInsertion

/-- Resolve along orders that are sorted by insertion. -/
def resolveByInsertion (settings : Settings) (forest : Forest) : Forest :=
  let linked := forest.linkedByInsertion
  let shaped := if settings.policy = .liftClasses then linked.liftClasses else linked
  let assigned := shaped.partitioned settings
  assigned.placedByInsertion.foldl (redirectExtension settings) assigned

section Evaluated

variable (forest : Forest)

/-- The order of resolution is that of an insertion sort. -/
theorem placed_eval : forest.placed = forest.placedByInsertion :=
  mergeSort_eq_insertionSort forest.resolutionLE_trans forest.resolutionLE_total _

/-- Sections are guessed along keys that are sorted by insertion. -/
theorem assignSections_eval : forest.assignSections = forest.assignSectionsByInsertion := by
  rw [assignSections, sortedKeys, sortByIds_eq_insertionSort]
  rfl

/-- Nodes are nested along seats that are sorted by insertion. -/
theorem nest_eval : forest.nest = forest.nestByInsertion := by
  rw [nest, seats, sortByIds_eq_insertionSort]
  rfl

/-- Nodes are classified along an order that is sorted by insertion. -/
theorem classify_eval : forest.classify = forest.classifyAlong forest.placedByInsertion := by
  rw [classify, placed_eval]

/-- Up to the relations between nodes, a resolution runs along orders sorted by insertion. -/
theorem linked_eval :
    forest.assignSections.nest.classify.linkRelations = forest.linkedByInsertion := by
  rw [linkRelations, placed_eval, classify_eval, nest_eval, assignSections_eval]
  rfl

/-- A resolution runs along orders that are sorted by insertion. -/
theorem resolve_eval (settings : Settings) :
    forest.resolve settings = forest.resolveByInsertion settings := by
  rw [resolve, assignPartitions, redirected, placed_eval, linked_eval]
  rfl

end Evaluated

end Forest

end SymbolTree
