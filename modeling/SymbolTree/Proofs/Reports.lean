import SymbolTree.Proofs.Ancestry
import SymbolTree.Proofs.Nesting
import SymbolTree.Proofs.Ownership.Lifting

/-!
# Earlier reports

No stage reads the diagnostics, and each only appends to them. A resolution that starts after some
reports therefore ends with the same nodes, top and lookup, and with its own reports after these.
-/

namespace SymbolTree.Forest

/-- A forest whose diagnostics come after earlier ones. -/
def after (earlier : List Diagnostic) (forest : Forest) : Forest :=
  { forest with diagnostics := earlier ++ forest.diagnostics }

variable (earlier : List Diagnostic) (forest : Forest)

/-- Steps that commute with earlier reports do so over a whole run. -/
theorem foldl_after {β : Type} {step : Forest → β → Forest}
    (h : ∀ forest item, step (after earlier forest) item = after earlier (step forest item))
    (items : List β) :
    items.foldl step (after earlier forest) = after earlier (items.foldl step forest) :=
  List.foldl_hom (after earlier) h

/-- The nodes stay. -/
@[simp] theorem node_after (id : NodeId) : (after earlier forest).node id = forest.node id := rfl

/-- The keys stay. -/
@[simp] theorem keys_after : (after earlier forest).keys = forest.keys := rfl

/-- The lookup stays. -/
@[simp] theorem lookup_after : (after earlier forest).lookup = forest.lookup := rfl

private theorem modify_after (id : NodeId) (f : Node → Node) :
    (after earlier forest).modify id f = after earlier (forest.modify id f) := rfl

/-- A choice commutes with earlier reports when both its branches do. -/
private theorem ite_after {condition : Prop} {first second : Decidable condition} {a b c d : Forest}
    (hthen : a = after earlier c) (helse : b = after earlier d) :
    @ite _ condition first a b = after earlier (@ite _ condition second c d) := by
  by_cases h : condition
  · rw [if_pos h, if_pos h, hthen]
  · rw [if_neg h, if_neg h, helse]

/-- A report comes after all earlier ones. -/
theorem report_after (diagnostic : Diagnostic) :
    (after earlier forest).report diagnostic = after earlier (forest.report diagnostic) := by
  simp only [report, after, List.append_assoc]

/-- Linking twins does not depend on earlier reports. -/
theorem linkTwins_after (pair : String × String) :
    (after earlier forest).linkTwins pair = after earlier (forest.linkTwins pair) := by
  simp only [linkTwins, keys_after]
  split <;> rfl

private theorem enter_after (id : String) (incoming : NodeId) :
    (after earlier forest).enter id incoming = after earlier (forest.enter id incoming) := by
  cases hheld : forest.lookup.get? id with
  | none =>
    have hafter : (after earlier forest).lookup.get? id = none := hheld
    rw [enter_of_free hheld, enter_of_free hafter]
    rfl
  | some holder =>
    have hafter : (after earlier forest).lookup.get? id = some holder := hheld
    rw [enter_of_held hheld, enter_of_held hafter]
    simp only [after, List.append_assoc]
    rfl

private theorem rekey_after (oldKey newKey : String) :
    (after earlier forest).rekey oldKey newKey = after earlier (forest.rekey oldKey newKey) := by
  cases hmoving : forest.keys.get? oldKey with
  | none =>
    have hafter : (after earlier forest).keys.get? oldKey = none := hmoving
    rw [rekey_of_absent hmoving, rekey_of_absent hafter]
  | some moving =>
    have hafter : (after earlier forest).keys.get? oldKey = some moving := hmoving
    cases hheld : (forest.keys.erase oldKey).get? newKey with
    | none =>
      have hfree : ((after earlier forest).keys.erase oldKey).get? newKey = none := hheld
      rw [rekey_of_free hmoving hheld, rekey_of_free hafter hfree]
      rfl
    | some holder =>
      have hholder : ((after earlier forest).keys.erase oldKey).get? newKey = some holder := hheld
      rw [rekey_of_held hmoving hheld, rekey_of_held hafter hholder]
      simp only [after, List.append_assoc]
      rfl

/-- Guessing sections does not depend on earlier reports. -/
theorem assignSections_after :
    (after earlier forest).assignSections = after earlier forest.assignSections := by
  refine foldl_after earlier forest (fun forest key => ?_) forest.sortedKeys
  unfold assignSection
  split
  · rfl
  · exact rekey_after earlier forest key _

private theorem withEntries_after :
    (after earlier forest).withEntries = after earlier forest.withEntries := by
  have hseated : (after earlier forest).withChildren = after earlier forest.withChildren :=
    foldl_after earlier forest (fun _ _ => rfl) forest.seats
  have hnamed : (after earlier forest).withNames = after earlier forest.withNames := by
    unfold withNames
    rw [hseated]
    exact foldl_after earlier _ (fun _ _ => rfl) forest.seats
  unfold withEntries
  rw [hnamed]
  refine foldl_after earlier _ (fun forest seat => ?_) forest.seats
  exact ite_after earlier rfl (enter_after earlier forest _ _)

/-- Nesting does not depend on earlier reports. -/
theorem nest_after : (after earlier forest).nest = after earlier forest.nest := by
  have htop : (after earlier forest).withTop = after earlier forest.withTop := by
    unfold withTop
    rw [withEntries_after]
    simp only [clearRoot, keys_after]
    split <;> rfl
  have htwinned : forest.seats.foldl nameTwin (after earlier forest.withTop) =
      after earlier (forest.seats.foldl nameTwin forest.withTop) := by
    refine foldl_after earlier _ (fun forest seat => ?_) forest.seats
    simp only [nameTwin, node_after]
    split <;> rfl
  have hseats : (after earlier forest).seats = forest.seats := rfl
  rw [nest_eq, nest_eq, htop, hseats, htwinned]
  rfl

private theorem branch_after (depth : Nat) : (after earlier forest).branch depth = forest.branch depth := by
  induction depth with
  | zero => rfl
  | succ depth ih =>
    funext id
    simp only [branch, node_after, ih]

private theorem placed_after : (after earlier forest).placed = forest.placed := by
  have hreachable : (after earlier forest).reachable = forest.reachable := by
    unfold reachable
    rw [branch_after]
    rfl
  unfold placed
  rw [hreachable]
  rfl

/-- Classification does not depend on earlier reports. -/
theorem classify_after : (after earlier forest).classify = after earlier forest.classify := by
  unfold classify classifyAlong
  simp only [placed_after, node_after]
  rw [foldl_after earlier forest (fun _ _ => rfl) forest.placed]
  refine foldl_after earlier _ (fun forest rename => ?_) _
  exact ite_after earlier
    (enter_after earlier { forest with lookup := forest.lookup.erase rename.1 } _ _) rfl

private theorem linkAlias_after (id : NodeId) :
    (after earlier forest).linkAlias id = after earlier (forest.linkAlias id) := by
  have hreference : (after earlier forest).resolveReference = forest.resolveReference := rfl
  simp only [linkAlias, node_after, hreference]
  split <;> rfl

private theorem copyDocs_after (id : NodeId) :
    (after earlier forest).copyDocs id = after earlier (forest.copyDocs id) := by
  have hsources (length : Nat) : ∀ visited id, (after earlier forest).docSources length visited id =
      forest.docSources length visited id := by
    induction length with
    | zero => exact fun _ _ => rfl
    | succ length ih =>
      intro visited id
      have hreference : (after earlier forest).resolveReference = forest.resolveReference := rfl
      simp only [docSources, node_after, hreference, ih]
  unfold copyDocs
  rw [hsources]
  exact foldl_after earlier forest (fun _ _ => rfl) _

private theorem linkSuperclass_after (id : NodeId) :
    (after earlier forest).linkSuperclass id = after earlier (forest.linkSuperclass id) := by
  simp only [linkSuperclass, node_after, lookup_after, report_after]
  split
  · split
    · exact ite_after earlier rfl (ite_after earlier (ite_after earlier rfl rfl) rfl)
    · rfl
  · rfl

private theorem mergeInto_after (lineage : Lineage) (id : NodeId) :
    mergeInto lineage (after earlier forest) id = after earlier (mergeInto lineage forest id) := by
  refine ite_after earlier rfl ?_
  simp only [after, modify, List.append_assoc]
  rfl

/-- Linking relations does not depend on earlier reports. -/
theorem linkRelations_after :
    (after earlier forest).linkRelations = after earlier forest.linkRelations := by
  unfold linkRelations linkAlong
  simp only [placed_after]
  rw [foldl_after earlier _ (linkAlias_after earlier),
    foldl_after earlier _ (copyDocs_after earlier),
    foldl_after earlier _ (linkSuperclass_after earlier)]
  exact foldl_after earlier _ (fun forest id => mergeInto_after earlier forest _ id) _

private theorem dropClasses_after (edge : Edge) :
    (after earlier forest).dropClasses edge = after earlier (forest.dropClasses edge) :=
  ite_after earlier rfl rfl

private theorem liftInSection_after (id : NodeId) :
    (after earlier forest).liftInSection id = after earlier (forest.liftInSection id) := by
  unfold liftInSection
  simp only [node_after]
  rw [foldl_after earlier forest (dropClasses_after earlier), modify_after]
  rfl

private theorem liftClasses_after :
    (after earlier forest).liftClasses = after earlier forest.liftClasses := by
  have hraised : (after earlier forest).raised = after earlier forest.raised := by
    have hdropped := foldl_after earlier forest (dropClasses_after earlier) forest.top
    unfold raised
    rw [show (after earlier forest).top = forest.top from rfl, hdropped]
    rfl
  rw [liftClasses_eq, liftClasses_eq, hraised]
  exact foldl_after earlier forest.raised (liftInSection_after earlier) _

private theorem assignBranch_after (settings : Settings) (depth : Nat) (owner : Option String)
    (id : NodeId) :
    assignBranch settings depth owner (after earlier forest) id =
      after earlier (assignBranch settings depth owner forest id) := by
  induction depth generalizing owner forest id with
  | zero => rfl
  | succ depth ih =>
    rw [assignBranch, assignBranch, modify_after]
    exact foldl_after earlier _ (fun forest id => ih forest _ id) _

private theorem moveBranch_after (settings : Settings) (outFile : String) (depth : Nat) (id : NodeId) :
    moveBranch settings outFile depth (after earlier forest) id =
      after earlier (moveBranch settings outFile depth forest id) := by
  induction depth generalizing forest id with
  | zero => rfl
  | succ depth ih =>
    rw [moveBranch, moveBranch, modify_after]
    exact foldl_after earlier _ (fun forest id => ih forest id) _

private theorem redirectExtension_after (settings : Settings) (id : NodeId) :
    redirectExtension settings (after earlier forest) id =
      after earlier (redirectExtension settings forest id) := by
  refine ite_after earlier rfl ?_
  have howner : (after earlier forest).extensionOwner? = forest.extensionOwner? := rfl
  rw [howner]
  split
  · rfl
  · exact moveBranch_after earlier forest settings _ _ id

/-- Assigning output files does not depend on earlier reports. -/
theorem assignPartitions_after (settings : Settings) :
    (after earlier forest).assignPartitions settings =
      after earlier (forest.assignPartitions settings) := by
  have hshaped : (if settings.policy = .liftClasses then (after earlier forest).liftClasses
      else after earlier forest) =
        after earlier (if settings.policy = .liftClasses then forest.liftClasses else forest) :=
    ite_after earlier (liftClasses_after earlier forest) rfl
  unfold assignPartitions
  simp only [hshaped]
  generalize (if settings.policy = .liftClasses then forest.liftClasses else forest) = shaped
  have hassigned : (after earlier shaped).partitioned settings =
      after earlier (shaped.partitioned settings) :=
    foldl_after earlier shaped
      (fun forest id => assignBranch_after earlier forest settings _ none id) _
  rw [hassigned, redirected, placed_after]
  refine foldl_after earlier _ (fun forest id => ?_) _
  exact redirectExtension_after earlier forest settings id

/-- A resolution keeps earlier reports before its own and depends on none of them. -/
theorem resolve_after (settings : Settings) :
    (after earlier forest).resolve settings = after earlier (forest.resolve settings) := by
  unfold resolve
  rw [assignSections_after, nest_after, classify_after, linkRelations_after, assignPartitions_after]

/-- What follows the guessing of sections only adds reports. -/
theorem exists_later_reports (settings : Settings) :
    ∃ later, (forest.nest.classify.linkRelations.assignPartitions settings).diagnostics =
      forest.diagnostics ++ later := by
  let clean : Forest := { forest with diagnostics := [] }
  have hclean : forest = after forest.diagnostics clean := by
    simp only [after, clean, List.append_nil]
  refine ⟨(clean.nest.classify.linkRelations.assignPartitions settings).diagnostics, ?_⟩
  conv_lhs => rw [hclean, nest_after, classify_after, linkRelations_after, assignPartitions_after]
  rfl

end SymbolTree.Forest
