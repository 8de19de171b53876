import SymbolTree.Record.Value
import SymbolTree.Proofs.KeyMap

/-!
# Records survive as objects

A record is written as one flat object, its known fields first. Reading an object back files every
field of an unknown name under the extras and nothing else, so what has been read never has a known
name among its extras. A record without such an extra is read back as it was; one with such an extra
is not, because the extra is taken for the known field.
-/

namespace SymbolTree

/-! ## Single fields -/

/-- A line is found again under its number. -/
@[simp] theorem lineOfInt?_toNat (line : UInt32) : lineOfInt? (line.toNat : Int) = some line := by
  have hlt : line.toNat < UInt32.size := line.toNat_lt
  rw [lineOfInt?, if_pos ⟨Int.natCast_nonneg _, Int.ofNat_lt.mpr hlt⟩, Int.toNat_natCast,
    UInt32.ofNat_toNat]

/-- A kind is found again under its name. -/
@[simp] theorem RecordKind.ofText?_text (kind : RecordKind) : ofText? kind.text = some kind := by
  cases kind <;> decide

namespace Json

/-- A written text is read back. -/
@[simp] theorem text?_string (text : String) : (string text).text? = some text := rfl

/-- A written truth value is read back. -/
@[simp] theorem flag?_bool (flag : Bool) : (bool flag).flag? = some flag := rfl

/-- A choice may be given by its name. -/
@[simp] theorem choice?_string {α : Type} (ofText? : String → Option α) (name : String) :
    (string name).choice? ofText? = ofText? name := rfl

/-- A written line is read back. -/
@[simp] theorem line?_ofNat (line : UInt32) : (ofNat line.toNat).line? = some line :=
  lineOfInt?_toNat line

/-- A written list of texts is read back. -/
@[simp] theorem texts?_ofTexts (texts : List String) : (ofTexts texts).texts? = some texts := by
  induction texts with
  | nil => rfl
  | cons text texts ih =>
    simp only [ofTexts, texts?, List.map_cons, List.mapM_cons] at ih ⊢
    simp [ih]

/-- A text that may be absent is read back, and null stands for its absence. -/
@[simp] theorem optional?_ofText? (text : Option String) :
    (ofText? text).optional? (ofText? text).text? = some text := by
  cases text <;> rfl

end Json

namespace PartialRecord

/-- Read the fields of an object in turn. -/
def readAll (fields : List (String × Json)) (gathered : PartialRecord) : Option PartialRecord :=
  fields.foldlM (fun gathered field => gathered.read field.2.fieldReader field.1) gathered

/-- A record, taken apart into its fields. -/
def ofRecord (record : Record) : PartialRecord where
  id := some record.id
  kind := some record.kind
  «section» := some record.section
  description := some record.description
  summary := some record.summary
  file := some record.file.text
  line := some record.line
  superclass := some record.superclass
  inherits := some record.inherits
  aliasOf := some record.aliasOf
  bound := some record.bound
  «extension» := some record.extension
  inheritDoc := some record.inheritDoc
  extra := record.extra

/-- The known fields of a record are all read back. -/
theorem readAll_knownEntries (record : Record) :
    readAll record.knownEntries {} = some { ofRecord record with extra := .empty } := by
  simp [readAll, Record.knownEntries, read, Json.fieldReader, ofRecord]

/-- A field of an unknown name is an extra. -/
theorem read_of_notMem {name : String} (hname : name ∉ knownFields) (value : Json)
    (gathered : PartialRecord) :
    gathered.read value.fieldReader name =
      some { gathered with extra := gathered.extra.insert name value } := by
  unfold read
  split
  all_goals first | exact absurd (by decide) hname | rfl

/-- A known field is no extra. -/
theorem extra_of_read {name : String} {value : Json} {gathered next : PartialRecord}
    (h : gathered.read value.fieldReader name = some next) :
    next.extra =
      if name ∈ knownFields then gathered.extra else gathered.extra.insert name value := by
  by_cases hname : name ∈ knownFields
  · rw [if_pos hname]
    simp only [knownFields, List.mem_cons, List.not_mem_nil, or_false] at hname
    rcases hname with rfl | rfl | rfl | rfl | rfl | rfl | rfl | rfl | rfl | rfl | rfl | rfl | rfl
    all_goals
      obtain ⟨_, _, heq⟩ := Option.bind_eq_some_iff.mp h
      cases heq
      rfl
  · rw [read_of_notMem hname] at h
    rw [if_neg hname, ← Option.some.inj h]

/-- Fields of unknown names are bound in turn. -/
theorem readAll_of_notMem {entries : List (String × Json)}
    (hnames : ∀ entry ∈ entries, entry.1 ∉ knownFields) (gathered : PartialRecord) :
    readAll entries gathered = some { gathered with
      extra := entries.foldl (fun map entry => map.insert entry.1 entry.2) gathered.extra } := by
  induction entries generalizing gathered with
  | nil => rfl
  | cons entry entries ih =>
    obtain ⟨hname, hnames⟩ := List.forall_mem_cons.mp hnames
    rw [readAll, List.foldlM_cons, read_of_notMem hname]
    exact ih hnames _

/-- One field binds its name among the extras unless the name is known. -/
private theorem get?_extra_of_read {field : String × Json} {gathered next : PartialRecord}
    (h : gathered.read field.2.fieldReader field.1 = some next) (name : String) :
    next.extra.get? name =
      if name ∈ knownFields then gathered.extra.get? name
      else ([field].lookup name).or (gathered.extra.get? name) := by
  obtain ⟨key, value⟩ := field
  have hfield : [(key, value)].lookup name = if name = key then some value else none := by
    by_cases heq : name = key
    · simp [heq]
    · have hne : (name == key) = false := by simpa using heq
      simp [List.lookup_cons, heq, hne]
  rw [extra_of_read h, hfield]
  by_cases heq : name = key
  · subst heq
    split <;> simp [KeyMap.get?_insert]
  · rw [if_neg heq, Option.none_or, ite_self]
    split
    · rfl
    · rw [KeyMap.get?_insert, if_neg heq]

/-- What has been read has no new extra of a known name, and of any other name the last value. -/
theorem get?_extra_of_readAll {fields : List (String × Json)} {gathered next : PartialRecord}
    (h : readAll fields gathered = some next) (name : String) :
    next.extra.get? name =
      if name ∈ knownFields then gathered.extra.get? name
      else (fields.reverse.lookup name).or (gathered.extra.get? name) := by
  induction fields generalizing gathered with
  | nil =>
    cases h
    simp
  | cons field fields ih =>
    -- A later field replaces an earlier one, so the first field is asked last.
    rw [readAll, List.foldlM_cons] at h
    obtain ⟨later, hread, hrest⟩ := Option.bind_eq_some_iff.mp h
    rw [ih hrest, get?_extra_of_read hread, List.reverse_cons, List.lookup_append, Option.or_assoc]
    split <;> rfl

end PartialRecord

namespace Record

/-- An object is read field by field. -/
private theorem ofJson?_object (fields : List (String × Json)) :
    ofJson? (.object fields) = (PartialRecord.readAll fields {}).bind (·.finish?) := rfl

/-- A record keeps the extras that were gathered for it. -/
private theorem extra_of_finish? {gathered : PartialRecord} {record : Record}
    (h : gathered.finish? = some record) : record.extra = gathered.extra := by
  obtain ⟨_, _, h⟩ := Option.bind_eq_some_iff.mp h
  obtain ⟨_, _, h⟩ := Option.bind_eq_some_iff.mp h
  cases h
  rfl

/-- The extras of a record that was read are the last values of the fields of unknown names. -/
theorem get?_extra_of_ofJson? {fields : List (String × Json)} {record : Record}
    (h : ofJson? (.object fields) = some record) (name : String) :
    record.extra.get? name = if name ∈ knownFields then none else fields.reverse.lookup name := by
  rw [ofJson?_object] at h
  obtain ⟨gathered, hread, hfinish⟩ := Option.bind_eq_some_iff.mp h
  rw [extra_of_finish? hfinish, PartialRecord.get?_extra_of_readAll hread]
  split <;> simp [KeyMap.get?, KeyMap.empty]

/-- A record that was read has no extra of a known name. -/
theorem extras_unknown_of_ofJson? {value : Json} {record : Record}
    (h : ofJson? value = some record) : ∀ name ∈ record.extra.keys, name ∉ knownFields := by
  intro name hname hknown
  cases value with
  | object fields =>
    obtain ⟨held, hheld⟩ := KeyMap.mem_keys_iff.mp hname
    rw [get?_extra_of_ofJson? h, if_pos hknown] at hheld
    cases hheld
  | _ => cases h

/-- A record without an extra of a known name is read back as it was. -/
theorem ofJson?_toJson_of_extras_unknown {record : Record}
    (hextras : ∀ name ∈ record.extra.keys, name ∉ knownFields) :
    ofJson? record.toJson = some record := by
  have hentries : ∀ entry ∈ record.extra.entries, entry.1 ∉ knownFields := fun entry hentry =>
    hextras entry.1 (List.mem_map_of_mem hentry)
  have hread : PartialRecord.readAll (record.knownEntries ++ record.extra.entries) {} =
      some (PartialRecord.ofRecord record) := by
    rw [PartialRecord.readAll, List.foldlM_append]
    change (PartialRecord.readAll record.knownEntries {}).bind
      (PartialRecord.readAll record.extra.entries) = _
    have hextra : record.extra.entries.foldl (fun map entry => map.insert entry.1 entry.2) .empty =
        record.extra := KeyMap.ofList_entries record.extra
    rw [PartialRecord.readAll_knownEntries, Option.bind_some,
      PartialRecord.readAll_of_notMem hentries, hextra]
    rfl
  rw [toJson, ofJson?_object, hread]
  rfl

/-- A record is read back from its object as it was exactly when none of its extras has the name of
a known field. Whatever is read from a value is such a record, so it is read back from its own
object. -/
theorem ofJson?_toJson_iff :
    (∀ record : Record,
      ofJson? record.toJson = some record ↔ ∀ name ∈ record.extra.keys, name ∉ knownFields) ∧
    ∀ (value : Json) (record : Record), ofJson? value = some record →
      ofJson? record.toJson = some record := by
  refine ⟨fun record => ?_, fun value record h => ?_⟩
  · exact ⟨extras_unknown_of_ofJson?, ofJson?_toJson_of_extras_unknown⟩
  · exact ofJson?_toJson_of_extras_unknown (extras_unknown_of_ofJson? h)

/-- A method with an extra that holds values of several kinds. -/
def methodWithSignatures : Record where
  id := "Ajax.request"
  kind := .method
  file := ⟨"ajax.js"⟩
  line := 12
  extra := KeyMap.empty.insert "signatures"
    (.array [.object [("args", .array []), ("returns", .null), ("since", .ofInt (-2))]])

/-- An object whose fields come in any order, one of them null, and whose type is spelled as an
object. -/
def shuffledObject : Json :=
  .object [("since", .ofInt 2), ("section", .null), ("type", .object [("css_var", .null)]),
    ("id", .string "--gap"), ("bound", .bool true)]

/-- The method is read back as it was, and so is what the object describes. -/
theorem ofJson?_toJson_iff_of_shuffledObject :
    (∀ name ∈ methodWithSignatures.extra.keys, name ∉ knownFields) ∧
      ofJson? methodWithSignatures.toJson = some methodWithSignatures ∧
      ∃ record, ofJson? shuffledObject = some record ∧ record.kind = .cssVar ∧
        record.section = none ∧ record.extra.keys = ["since"] ∧
        ofJson? record.toJson = some record := by
  have hextras : ∀ name ∈ methodWithSignatures.extra.keys, name ∉ knownFields := by decide
  exact ⟨hextras, (ofJson?_toJson_iff.1 methodWithSignatures).mpr hextras, _, rfl, rfl, rfl, rfl,
    ofJson?_toJson_iff.2 shuffledObject _ rfl⟩

end Record

end SymbolTree
