import SymbolTree.Proofs.KeyMap
import SymbolTree.Registry
import Mathlib.Data.Finset.Card
import Mathlib.Dynamics.PeriodicPts.Defs

/-!
# Aliases of extensions

A registry is filled by registrations, and the last alias that is declared for an extension counts.
Following aliases either comes to an extension that stands for itself or goes round a loop. Every
extension on the way that does not stand for itself has an alias of its own, so after as many steps
as there are aliases one of them has come up twice or the way has ended. The bound on the steps
therefore never cuts off a chain that ends, and it never stops before a loop.
-/

namespace SymbolTree

/-- An entry that is made in a registry. -/
inductive Registration where
  /-- A parser for an extension. -/
  | parser (ext : String) (parser : Parser)
  /-- A renderer with a name. -/
  | renderer (name : String) (renderer : Renderer)
  /-- An alias of an extension. -/
  | alias (aliasName canonical : String)

/-- The extension that a registration makes `ext` an alias of. -/
def Registration.aliasOf? (ext : String) : Registration → Option String
  | .alias aliasName canonical =>
    if Registry.normalize aliasName = ext then some (Registry.normalize canonical) else none
  | _ => none

namespace Registry

/-- Make an entry. -/
def register (registry : Registry) : Registration → Registry
  | .parser ext parser => registry.addParser ext parser
  | .renderer name renderer => registry.addRenderer name renderer
  | .alias aliasName canonical => registry.addAlias aliasName canonical

/-- The registry that is filled by some registrations. -/
def ofRegistrations (registrations : List Registration) : Registry :=
  registrations.foldl register {}

/-- The registry of the built-in formats is filled by registrations. -/
theorem builtin_eq_ofRegistrations :
    builtin = ofRegistrations [.parser RecordFormat.json.extension (readRecordFile .json),
      .parser RecordFormat.toml.extension (readRecordFile .toml),
      .renderer "json" renderDocument] := rfl

/-- The aliases of the settings are registered after the entries that are there. -/
theorem applySettings_ofRegistrations (registrations : List Registration) (settings : Settings) :
    (ofRegistrations registrations).applySettings settings =
      settings.aliasPairs.map fun pairs =>
        ofRegistrations (registrations ++ pairs.map fun pair => .alias pair.1 pair.2) := by
  rw [applySettings]
  cases settings.aliasPairs with
  | error error => rfl
  | ok pairs =>
    refine congrArg Except.ok ?_
    simp only [ofRegistrations, List.foldl_append, List.foldl_map]
    rfl

/-- The extension that `ext` was last declared an alias of. -/
def declaredAlias? (registrations : List Registration) (ext : String) : Option String :=
  registrations.reverse.findSome? (·.aliasOf? ext)

/-- The last alias that is declared for an extension counts. -/
theorem get?_aliases_ofRegistrations (registrations : List Registration) :
    (ofRegistrations registrations).aliases.get? = declaredAlias? registrations := by
  induction registrations using List.reverseRecOn with
  | nil => rfl
  | append_singleton registrations last ih =>
    funext ext
    have hdeclared : declaredAlias? (registrations ++ [last]) ext =
        (last.aliasOf? ext).or (declaredAlias? registrations ext) := by
      rw [declaredAlias?, List.reverse_concat, List.findSome?_cons]
      cases last.aliasOf? ext <;> rfl
    rw [hdeclared, ← ih, ofRegistrations, List.foldl_append]
    cases last with
    | parser ext parser => rfl
    | renderer name renderer => rfl
    | «alias» aliasName canonical =>
      refine (KeyMap.get?_insert ..).trans ?_
      by_cases hext : ext = normalize aliasName
      · simp [Registration.aliasOf?, hext]
      · simp [Registration.aliasOf?, hext, Ne.symm hext, ofRegistrations]

/-- The extension that an extension leads to by its alias. -/
def next (aliasOf? : String → Option String) (ext : String) : String := (aliasOf? ext).getD ext

/-- The extension that comes up after a number of aliases. -/
def follow (aliasOf? : String → Option String) (ext : String) (n : Nat) : String :=
  (next aliasOf?)^[n] ext

/-- The last alias that is followed is the one of the extension before. -/
theorem follow_succ (aliasOf? : String → Option String) (ext : String) (n : Nat) :
    follow aliasOf? ext (n + 1) = next aliasOf? (follow aliasOf? ext n) :=
  Function.iterate_succ_apply' ..

/-- Aliases can be followed in two goes. -/
theorem follow_add (aliasOf? : String → Option String) (ext : String) (m n : Nat) :
    follow aliasOf? ext (m + n) = follow aliasOf? (follow aliasOf? ext n) m :=
  Function.iterate_add_apply ..

/-- An extension has no alias or is an alias of itself. -/
def StandsForItself (aliasOf? : String → Option String) (ext : String) : Prop :=
  aliasOf? ext = none ∨ aliasOf? ext = some ext

/-- An extension that stands for itself leads to itself, and no other does. -/
theorem standsForItself_iff {aliasOf? : String → Option String} {ext : String} :
    StandsForItself aliasOf? ext ↔ next aliasOf? ext = ext := by
  unfold StandsForItself next
  cases aliasOf? ext <;> simp

/-- No alias leads away from an extension that stands for itself. -/
theorem StandsForItself.follow_eq {aliasOf? : String → Option String} {ext : String}
    (h : StandsForItself aliasOf? ext) (n : Nat) : follow aliasOf? ext n = ext :=
  Function.iterate_fixed (standsForItself_iff.mp h) n

instance (aliasOf? : String → Option String) : DecidablePred (StandsForItself aliasOf?) :=
  fun ext => inferInstanceAs (Decidable (aliasOf? ext = none ∨ aliasOf? ext = some ext))

/-- The first extension that stands for itself comes up after a number of aliases. -/
def EndsAfter (aliasOf? : String → Option String) (ext : String) (n : Nat) : Prop :=
  StandsForItself aliasOf? (follow aliasOf? ext n) ∧
    ∀ m < n, ¬ StandsForItself aliasOf? (follow aliasOf? ext m)

/-- Some extension that stands for itself comes up first, if any does. -/
theorem exists_endsAfter {aliasOf? : String → Option String} {ext : String}
    (hends : ∃ n, StandsForItself aliasOf? (follow aliasOf? ext n)) :
    ∃ n, EndsAfter aliasOf? ext n :=
  ⟨Nat.find hends, Nat.find_spec hends, fun _ hlt => Nat.find_min hends hlt⟩

/-- Aliases are followed one by one. -/
theorem followAliases_eq (aliases : KeyMap String) (steps : Nat) (ext : String) :
    followAliases aliases steps ext = follow aliases.get? ext steps := by
  induction steps generalizing ext with
  | zero => rfl
  | succ steps ih =>
    rw [followAliases, follow_add aliases.get? ext steps 1]
    cases halias : aliases.get? ext with
    | none =>
      have hself : StandsForItself aliases.get? ext := .inl halias
      rw [hself.follow_eq, hself.follow_eq]
    | some other =>
      have hnext : follow aliases.get? ext 1 = other := by
        rw [follow, Function.iterate_one, next, halias, Option.getD_some]
      simp only [hnext]
      split
      · rename_i hself
        subst hself
        exact (StandsForItself.follow_eq (.inr halias) _).symm
      · exact ih other

section Chain

variable {aliases : KeyMap String} {ext : String}

/-- If no extension stands for itself within as many steps as there are aliases, one comes up
twice. -/
theorem exists_repeat
    (hopen : ∀ n ≤ aliases.size, ¬ StandsForItself aliases.get? (follow aliases.get? ext n)) :
    ∃ i j, i < j ∧ j ≤ aliases.size ∧
      follow aliases.get? ext i = follow aliases.get? ext j := by
  have hkeys : ∀ n ∈ Finset.range (aliases.size + 1),
      follow aliases.get? ext n ∈ aliases.keys.toFinset := by
    intro n hn
    obtain ⟨hnone, _⟩ := not_or.mp (hopen n (Nat.lt_succ_iff.mp (Finset.mem_range.mp hn)))
    exact List.mem_toFinset.mpr (KeyMap.mem_keys_iff.mpr (Option.ne_none_iff_exists'.mp hnone))
  have hcard : aliases.keys.toFinset.card < (Finset.range (aliases.size + 1)).card := by
    rw [List.toFinset_card_of_nodup aliases.nodup_keys, Finset.card_range, KeyMap.keys,
      List.length_map]
    exact Nat.lt_succ_self _
  obtain ⟨i, hi, j, hj, hne, hsame⟩ :=
    Finset.exists_ne_map_eq_of_card_lt_of_maps_to hcard hkeys
  rw [Finset.mem_range, Nat.lt_succ_iff] at hi hj
  rcases Nat.lt_or_gt_of_ne hne with hlt | hlt
  · exact ⟨i, j, hlt, hj, hsame⟩
  · exact ⟨j, i, hlt, hi, hsame.symm⟩

/-- From a repetition on, a way goes round. -/
theorem follow_add_of_repeat {i j n : Nat} (hij : i < j)
    (hrepeat : follow aliases.get? ext i = follow aliases.get? ext j) (hn : i ≤ n) :
    follow aliases.get? ext (n + (j - i)) = follow aliases.get? ext n := by
  have hsplit : n + (j - i) = (n - i) + j := by omega
  have hback : n = (n - i) + i := by omega
  rw [hsplit, follow_add, ← hrepeat, ← follow_add, ← hback]

/-- No more aliases are followed to the end of a chain than there are. -/
theorem EndsAfter.le_size {n : Nat} (h : EndsAfter aliases.get? ext n) : n ≤ aliases.size := by
  obtain ⟨hend, hopen⟩ := h
  by_contra hlong
  have hlate : ∀ m ≤ aliases.size, ¬ StandsForItself aliases.get? (follow aliases.get? ext m) :=
    fun m hm => hopen m (by omega)
  obtain ⟨i, j, hij, hj, hrepeat⟩ := exists_repeat hlate
  -- The end would have come up one round earlier.
  have hround := follow_add_of_repeat (n := n - (j - i)) hij hrepeat (by omega)
  rw [Nat.sub_add_cancel (by omega)] at hround
  exact hopen (n - (j - i)) (by omega) (hround ▸ hend)

end Chain

variable {registry : Registry} {ext : String} {n : Nat}

/-- An extension stands for the end of its chain. -/
theorem EndsAfter.canonicalExtension_eq (h : EndsAfter registry.aliases.get? ext n) :
    registry.canonicalExtension ext = follow registry.aliases.get? ext n := by
  have hsteps : registry.aliases.size + 1 = (registry.aliases.size + 1 - n) + n := by
    have hle := h.le_size
    omega
  rw [canonicalExtension, followAliases_eq, hsteps, follow_add, h.1.follow_eq]

/-- An extension whose chain does not end stands for one that comes up again. -/
theorem canonicalExtension_mem_periodicPts
    (hopen : ∀ n, ¬ StandsForItself registry.aliases.get? (follow registry.aliases.get? ext n)) :
    registry.canonicalExtension ext ∈ Function.periodicPts (next registry.aliases.get?) := by
  obtain ⟨i, j, hij, hj, hrepeat⟩ := exists_repeat fun n _ => hopen n
  refine Function.mk_mem_periodicPts (n := j - i) (by omega) ?_
  rw [canonicalExtension, followAliases_eq]
  refine (follow_add ..).symm.trans ?_
  rw [Nat.add_comm, follow_add_of_repeat hij hrepeat (by omega)]

/-- An alias for an extension leaves the aliases of all others alone. -/
theorem get?_aliases_addAlias {aliasName : String} (hne : normalize aliasName ≠ ext)
    (registry : Registry) (canonical : String) :
    (registry.addAlias aliasName canonical).aliases.get? ext = registry.aliases.get? ext := by
  rw [addAlias, KeyMap.get?_insert, if_neg (Ne.symm hne)]

/-- An alias for an extension that is not on a chain leaves the chain alone. -/
theorem follow_addAlias {aliasName : String}
    (hoff : ∀ m ≤ n, normalize aliasName ≠ follow registry.aliases.get? ext m)
    (canonical : String) :
    ∀ m ≤ n, follow (registry.addAlias aliasName canonical).aliases.get? ext m =
      follow registry.aliases.get? ext m := by
  intro m hm
  induction m with
  | zero => rfl
  | succ m ih =>
    rw [follow_succ, follow_succ, ih (by omega), next, next,
      get?_aliases_addAlias (hoff m (by omega))]

/-- A chain ends where it did after an alias is added for an extension that is not on it. -/
theorem EndsAfter.addAlias (h : EndsAfter registry.aliases.get? ext n) {aliasName : String}
    (hoff : ∀ m ≤ n, normalize aliasName ≠ follow registry.aliases.get? ext m)
    (canonical : String) :
    EndsAfter (registry.addAlias aliasName canonical).aliases.get? ext n := by
  have hsame := follow_addAlias hoff canonical
  have hstands (m : Nat) (hm : m ≤ n) :
      StandsForItself (registry.addAlias aliasName canonical).aliases.get?
          (follow (registry.addAlias aliasName canonical).aliases.get? ext m) ↔
        StandsForItself registry.aliases.get? (follow registry.aliases.get? ext m) := by
    rw [hsame m hm, StandsForItself, StandsForItself, get?_aliases_addAlias (hoff m hm)]
  exact ⟨(hstands n le_rfl).mpr h.1, fun m hm => mt (hstands m hm.le).mp (h.2 m hm)⟩

/-- After any sequence of registrations, let aliases be followed from an extension. If some
extension that has no alias or is an alias of itself ever comes up, the first such extension is the
one that the registry gives, and it gives the same one after an alias is added for an extension that
has not come up until then. Otherwise the registry gives an extension that comes up and comes up
again. -/
theorem canonicalExtension_ends_chain (registrations : List Registration) (ext : String) :
    let registry := ofRegistrations registrations
    let aliasOf? := declaredAlias? registrations
    ((∃ n, StandsForItself aliasOf? (follow aliasOf? ext n)) →
      ∃ n, EndsAfter aliasOf? ext n ∧
        registry.canonicalExtension ext = follow aliasOf? ext n ∧
        ∀ aliasName canonical, (∀ m ≤ n, normalize aliasName ≠ follow aliasOf? ext m) →
          (registry.addAlias aliasName canonical).canonicalExtension ext =
            registry.canonicalExtension ext) ∧
    ((∀ n, ¬ StandsForItself aliasOf? (follow aliasOf? ext n)) →
      (∃ n, registry.canonicalExtension ext = follow aliasOf? ext n) ∧
        registry.canonicalExtension ext ∈ Function.periodicPts (next aliasOf?)) := by
  intro registry aliasOf?
  have hdeclared : registry.aliases.get? = aliasOf? := get?_aliases_ofRegistrations registrations
  rw [← hdeclared]
  refine ⟨fun hends => ?_, fun hopen => ⟨⟨registry.aliases.size + 1, ?_⟩,
    canonicalExtension_mem_periodicPts hopen⟩⟩
  · obtain ⟨n, h⟩ := exists_endsAfter hends
    refine ⟨n, h, h.canonicalExtension_eq, fun aliasName canonical hoff => ?_⟩
    rw [(h.addAlias hoff canonical).canonicalExtension_eq, h.canonicalExtension_eq,
      follow_addAlias hoff canonical n le_rfl]
  · rw [canonicalExtension, followAliases_eq]

/-- Aliases of one extension that lead on to two others, one of them declared again in another
spelling, and three that end in a loop. -/
def chainAndLoop : List Registration :=
  [.alias ".MJS" "json", .alias "es" ".MJS", .alias "mjs" "JS", .alias "js" "js",
    .alias "a" "b", .alias "b" "c", .alias "c" "b"]

/-- The last declaration counts, the chain ends with the alias of itself, and the loop is entered
and not left. -/
theorem canonicalExtension_ends_chain_of_chainAndLoop :
    let registry := ofRegistrations chainAndLoop
    registry.canonicalExtension "es" = "js" ∧
      (registry.addAlias "a" "es").canonicalExtension "es" = "js" ∧
      registry.canonicalExtension "a" ∈
        Function.periodicPts (next (declaredAlias? chainAndLoop)) := by
  intro registry
  obtain ⟨hchain, _⟩ := canonicalExtension_ends_chain chainAndLoop "es"
  obtain ⟨_, hloop⟩ := canonicalExtension_ends_chain chainAndLoop "a"
  have hcanonical : registry.canonicalExtension "es" = "js" := by decide +kernel
  obtain ⟨n, ⟨_, hopen⟩, _, hkept⟩ := hchain ⟨2, by decide +kernel⟩
  have hshort : n ≤ 2 := by
    by_contra hlong
    exact hopen 2 (by omega) (by decide +kernel)
  refine ⟨hcanonical, (hkept "a" "es" fun m hm => ?_).trans hcanonical, (hloop fun n => ?_).2⟩
  · rcases show m = 0 ∨ m = 1 ∨ m = 2 by omega with rfl | rfl | rfl <;> decide +kernel
  · have hstays : follow (declaredAlias? chainAndLoop) "a" n ∈ ["a", "b", "c"] := by
      induction n with
      | zero => decide +kernel
      | succ n ih =>
        have hround : ∀ reached ∈ ["a", "b", "c"],
            next (declaredAlias? chainAndLoop) reached ∈ ["a", "b", "c"] := by decide +kernel
        rw [follow_succ]
        exact hround _ ih
    have hopen : ∀ reached ∈ ["a", "b", "c"],
        ¬ StandsForItself (declaredAlias? chainAndLoop) reached := by decide +kernel
    exact hopen _ hstays

end Registry

end SymbolTree
