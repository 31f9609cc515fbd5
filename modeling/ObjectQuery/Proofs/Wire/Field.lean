import ObjectQuery.Proofs.Calendar.Timestamp
import ObjectQuery.Proofs.Decimal.Special
import ObjectQuery.Proofs.Wire.Reader
import ObjectQuery.Wire.Encode
import ObjectQuery.Wire.Field
import ObjectQuery.Wire.Literal

namespace ObjectQuery

/-! Written instants and literals, which are read back. -/

namespace Instant

theorem readAs {instant : Instant} (writable : instant.IsWritable) (level : Nat) :
    (Json.text instant.render).ReadAs level ofNode instant := by
  refine (Json.ReadAs.text instant.render).bind ?_
  rw [ofWritten, read_strict_render writable]

theorem readAs_loose {instant : Instant} (writable : instant.IsWritable) (level : Nat) :
    (Json.text instant.render).ReadAs level ofLooseNode instant := by
  refine fun _ => ⟨trivial, fun node shows => ?_⟩
  cases shows
  simp only [ofLooseNode, Node.string, Spelling.read, Except.ok_bind, read_loose_render writable]
  rfl

theorem readAs_range {start stop : Instant} (writableStart : start.IsWritable)
    (writableStop : stop.IsWritable) (level : Nat) :
    (Json.record [("start", .text start.render), ("end", .text stop.render)]).ReadAs level
      (rangeOfNode level) (start, stop) := by
  cases level with
  | zero => exact .record_zero
  | succ level =>
      have fills : Member.Fills level (Member.single assignEnd) ["start", "end"] (none, none)
          [("start", .text start.render), ("end", .text stop.render)]
          (some start.render, some stop.render) :=
        .append (.one rfl (.text start.render)) (.one rfl (.text stop.render))
      refine .record _ ((fills.readOnce (by decide)).bind ?_)
      simp only [Member.required, Except.ok_bind, ofWritten, read_strict_render writableStart,
        read_strict_render writableStop]
      rfl

end Instant

namespace Literal

def ReadsBack (value : Float) : Prop :=
  ∀ negative size, FloatView.ofFloat value = .finite negative size →
    NumberToken.read (Place.ofText (Json.floatText value)) = .ok (.float value, ⟨[], 1⟩)

mutual

/-- Instants have years of four digits, and numbers are read back. -/
def IsWritable : Literal → Prop
  | .float value => ReadsBack value
  | .date instant | .dateTime instant | .time instant => instant.IsWritable
  | .dateTimeRange start stop => start.IsWritable ∧ stop.IsWritable
  | .list items => AreWritable items
  | _ => True

def AreWritable : List ListItem → Prop
  | [] => True
  | .literal value :: rest => value.IsWritable ∧ AreWritable rest
  | _ :: rest => AreWritable rest

end

theorem readAs_float {value : Float} (readsBack : ReadsBack value) (level : Nat) :
    (floatJson value).ReadAs level (Node.float level) value := by
  unfold floatJson
  cases view : FloatView.ofFloat value with
  | nan =>
      refine fun _ => ⟨trivial, fun node shows => ?_⟩
      cases shows
      rw [FloatView.eq_of_nan view]
      rfl
  | infinity negative =>
      refine fun _ => ⟨trivial, fun node shows => ?_⟩
      cases shows
      rw [FloatView.eq_of_infinity view]
      cases negative <;> rfl
  | finite negative size =>
      refine fun _ => ⟨readsBack negative size view, fun node shows => ?_⟩
      cases shows
      rfl

theorem mapM_itemOfField {Q : Type} (items : List ListItem) :
    (items.map Field.ofListItem).mapM (itemOfField (Q := Q)) = .ok items := by
  induction items with
  | nil => rfl
  | cons item rest induction =>
      have found : itemOfField (Field.ofListItem item : Field Q) = .ok item := by
        cases item <;> rfl
      rw [List.map_cons, List.mapM_cons, found, induction]
      rfl

theorem readAs {Q : Type} {fields : Node → Read (List (Field Q))} {level : Nat}
    {literal : Literal} (writable : literal.IsWritable)
    (readItems : ∀ items, literal = .list items →
      (Json.list (ListItem.toJsonAll items)).ReadAs level fields (items.map Field.ofListItem)) :
    literal.toJson.ReadAs level (ofNode level fields literal.typeName) literal := by
  cases literal with
  | null =>
      refine fun _ => ⟨trivial, fun node shows => ?_⟩
      cases shows
      rfl
  | int value =>
      exact (Json.ReadAs.int value).map int
  | float value =>
      exact (readAs_float writable level).map float
  | bool value =>
      exact (Json.ReadAs.flag value).map bool
  | text value =>
      exact (Json.ReadAs.text value).map text
  | bytes value =>
      have each : (Json.list (value.map fun byte => .nat byte.toNat)).ReadAs level
          (Node.listOf level Node.byte) value := by
        cases level with
        | zero => exact .list_zero
        | succ level => exact .listOf fun byte _ => .byte byte
      exact each.map bytes
  | date instant =>
      exact (Instant.readAs writable level).map date
  | dateTime instant =>
      exact (Instant.readAs writable level).map dateTime
  | time instant =>
      exact (Instant.readAs writable level).map time
  | dateTimeRange start stop =>
      exact (Instant.readAs_range writable.1 writable.2 level).map fun ends =>
        dateTimeRange ends.1 ends.2
  | list items =>
      refine (readItems items rfl).bind ?_
      rw [mapM_itemOfField]
      rfl

end Literal

/-! Written fields and condition lists, which are read back. -/

open Member

namespace Field

theorem toJsonAll_eq_map (fields : List (Field Json)) : toJsonAll fields = fields.map toJson := by
  induction fields with
  | nil => rfl
  | cons field rest induction => simp [toJsonAll, induction]

end Field

namespace FieldKind

def nameDraft? : FieldKind Q → Option NameDraft
  | column path | fieldSet path => some (.path path)
  | call name _ | parameter name => some (.word name)
  | relativeDate date => some (.word date.keyword)
  | _ => none

def valueDraft? : FieldKind Q → Option ValueDraft
  | literal .null => none
  | literal value => some (.literal value)
  | relativeDate date => some (.count date.count)
  | _ => none

def subquery? : FieldKind Q → Option Q
  | subquery query => some query
  | _ => none

theorem typeName_map (f : P → Q) (kind : FieldKind P) : (kind.map f).typeName = kind.typeName := by
  cases kind <;> rfl

end FieldKind

namespace FieldDraft

variable {Q : Type} {encode : Q → Json} {level : Nat} {fields : Node → Read (List (Field Q))}
variable {query : Node → Read Q}

/-- What is known of a field when its name and its value have been read. -/
def ofKind (kind : FieldKind Q) : FieldDraft Q :=
  { typeName := some kind.typeName, name := kind.nameDraft?, value := kind.valueDraft? }

/-- What is known of a field when all its members have been read. -/
def ofField (field : Field Q) : FieldDraft Q :=
  { ofKind field.kind with
    arguments := field.kind.arguments
    subquery := field.kind.subquery?
    aliasName := field.aliasName
    notSelected := field.notSelected
    aggregated := field.aggregated
    key := field.key
    columnId := field.columnId
    columnIndex := field.columnIndex }

theorem readAs_path {typeName : String} (isPath : typeName = "Field" ∨ typeName = "FieldSet")
    (path : Path) : path.toJson.ReadAs level (readName level typeName) (.path path) := by
  have same : readName level typeName = fun node => (node.strings level).map .path :=
    funext fun node => if_pos isPath
  rw [same]
  exact (Json.ReadAs.strings path).map NameDraft.path

theorem readAs_word {typeName : String} (plain : ¬(typeName = "Field" ∨ typeName = "FieldSet"))
    (word : String) : (Json.text word).ReadAs level (readName level typeName) (.word word) := by
  have same : readName level typeName = fun node => node.string.map .word :=
    funext fun node => if_neg plain
  rw [same]
  exact (Json.ReadAs.text word).map NameDraft.word

theorem readAs_count (count : Int64) :
    (Json.int count.toInt).ReadAs level (readValue level fields "DateTimeLiteralName")
      (.count count) :=
  (Json.ReadAs.int count).map ValueDraft.count

theorem readAs_literal {value : Literal}
    (readLiteral : value.toJson.ReadAs level (Literal.ofNode level fields value.typeName) value) :
    value.toJson.ReadAs level (readValue level fields value.typeName) (.literal value) := by
  have known : value.typeName ≠ "DateTimeLiteralName" ∧
      Literal.typeNames.contains value.typeName = true := by
    cases value <;> simp [Literal.typeName, Literal.typeNames]
  have same : readValue level fields value.typeName = fun node =>
      (Literal.ofNode level fields value.typeName node).map .literal :=
    funext fun node => by rw [readValue, if_neg known.1, if_pos known.2]
  rw [same]
  exact readLiteral.map ValueDraft.literal

theorem fills_type {typeName : String} {names : List String} {members : List (String × Json)}
    {after : FieldDraft Q} (later : Fills level (assign level fields query) names
      { typeName := some typeName } members after) :
    Fills level (assign level fields query) ("type" :: names) {}
      (("type", .text typeName) :: members) after :=
  .step rfl (.text typeName) later

theorem fills_members {kind : FieldKind Q}
    (readLiteral : ∀ value, kind = .literal value →
      value.toJson.ReadAs level (Literal.ofNode level fields value.typeName) value) :
    Fills level (assign level fields query) ["type", "name", "value"] {}
      (("type", .text (kind.map encode).typeName) :: FieldKind.members (kind.map encode))
      (ofKind kind) := by
  rw [FieldKind.typeName_map]
  cases kind with
  | column path =>
      exact fills_type (.step rfl (readAs_path (.inl rfl) path) (.skip "value" (.nil _)))
  | fieldSet path =>
      exact fills_type (.step rfl (readAs_path (.inr rfl) path) (.skip "value" (.nil _)))
  | call name arguments =>
      exact fills_type (.step rfl (readAs_word (by simp [FieldKind.typeName]) name)
        (.skip "value" (.nil _)))
  | subquery nested => exact fills_type (.skip "name" (.skip "value" (.nil _)))
  | literal value =>
      by_cases null : value = .null
      · subst null
        exact fills_type (.skip "name" (.skip "value" (.nil _)))
      · have known : value.isNull = false ∧
            FieldKind.valueDraft? (Q := Q) (.literal value) = some (.literal value) := by
          cases value <;> simp_all [FieldKind.valueDraft?, Literal.isNull]
        rw [FieldKind.map, FieldKind.members, Literal.members, known.1, ofKind, known.2]
        exact fills_type (.skip "name" (.one rfl (readAs_literal (readLiteral value rfl))))
  | parameter name =>
      exact fills_type (.step rfl (readAs_word (by simp [FieldKind.typeName]) name)
        (.skip "value" (.nil _)))
  | relativeDate date =>
      have named : Fills level (assign level fields query) ["name"]
          { typeName := some "DateTimeLiteralName" } [("name", .text date.keyword)]
          { typeName := some "DateTimeLiteralName", name := some (.word date.keyword) } :=
        .one rfl (readAs_word (by decide) date.keyword)
      exact fills_type (named.append (.one rfl (readAs_count date.count)))

theorem fills_laterMembers {kind : FieldKind Q} (draft : FieldDraft Q)
    (plain : draft.arguments = [] ∧ draft.subquery = none)
    (readArguments : ∀ name arguments, kind = .call name arguments →
      (Json.list (arguments.map fun argument => (argument.map encode).toJson)).ReadAs level fields
        arguments)
    (readQuery : ∀ nested, kind = .subquery nested → (encode nested).ReadAs level query nested) :
    Fills level (assign level fields query) ["parameters", "subQuery"] draft
      (FieldKind.laterMembers (kind.map encode))
      { draft with arguments := kind.arguments, subquery := kind.subquery? } := by
  obtain ⟨typeName, name, value, arguments, subquery, aliasName, notSelected, aggregated, key,
    columnId, columnIndex⟩ := draft
  obtain ⟨rfl, rfl⟩ := plain
  cases kind with
  | call name arguments =>
      have readAs := readArguments name arguments rfl
      have same : FieldKind.laterMembers ((FieldKind.call name arguments).map encode) =
          Json.nonempty "parameters"
            (arguments.map fun argument => (argument.map encode).toJson) ++ [] := by
        simp [FieldKind.map, FieldKind.laterMembers, Field.toJsonAll_eq_map, Function.comp_def]
      rw [same]
      exact .append (.nonempty rfl readAs) (.skip "subQuery" (.nil _))
  | subquery nested => exact .skip "parameters" (.one rfl (readQuery nested rfl))
  | column | fieldSet | literal | parameter | relativeDate =>
      exact .skip "parameters" (.skip "subQuery" (.nil _))

theorem fills_aliasName (aliasName : Option String) (draft : FieldDraft Q)
    (plain : draft.aliasName = none) :
    Fills level (assign level fields query) ["aliasName"] draft
      (Json.optional "aliasName" .text aliasName) { draft with aliasName := aliasName } := by
  have absent : { draft with aliasName := none } = draft := by rw [← plain]
  exact .optional (fun aliasName => { draft with aliasName := aliasName }) rfl
    (fun value _ => .text value) absent rfl

theorem fills_flags (notSelected aggregated : Bool) (key : String) (draft : FieldDraft Q)
    (plain : draft.notSelected = false ∧ draft.aggregated = false ∧ draft.key = "") :
    Fills level (assign level fields query) ["notSelected", "aggregated", "key"] draft
      (Json.flag "notSelected" notSelected ++ Json.flag "aggregated" aggregated ++
        Json.member (key != "") "key" (.text key))
      { draft with notSelected := notSelected, aggregated := aggregated, key := key } := by
  obtain ⟨typeName, name, value, arguments, subquery, aliasName, _, _, _, columnId,
    columnIndex⟩ := draft
  obtain ⟨rfl, rfl, rfl⟩ := plain
  exact .append (.append (.flag notSelected rfl) (.flag aggregated rfl))
    (.member rfl bne_eq_false_iff_eq.1 (.text key))

theorem fills_columnId {columnId : Option Nat} (small : ∀ id ∈ columnId, id < UInt64.size)
    (draft : FieldDraft Q) (plain : draft.columnId = none) :
    Fills level (assign level fields query) ["columnId"] draft
      (Json.optional "columnId" .nat columnId) { draft with columnId := columnId } := by
  have absent : { draft with columnId := none } = draft := by rw [← plain]
  exact .optional (fun columnId => { draft with columnId := columnId }) rfl
    (fun value found => .count (small value found)) absent rfl

theorem fills_columnIndex {columnIndex : Option Nat}
    (small : ∀ index ∈ columnIndex, index < UInt64.size) (draft : FieldDraft Q)
    (plain : draft.columnIndex = none) :
    Fills level (assign level fields query) ["colIndex"] draft
      (Json.optional "colIndex" .nat columnIndex) { draft with columnIndex := columnIndex } := by
  have absent : { draft with columnIndex := none } = draft := by rw [← plain]
  exact .optional (fun columnIndex => { draft with columnIndex := columnIndex }) rfl
    (fun value found => .count (small value found)) absent rfl

theorem kind_ofField (field : Field Q) :
    (ofField field).kind field.kind.typeName = .ok field.kind := by
  obtain ⟨kind, aliasName, notSelected, aggregated, key, columnId, columnIndex⟩ := field
  cases kind with
  | literal value => cases value <;> rfl
  | column | fieldSet | call | subquery | parameter | relativeDate => rfl

theorem finish_ofField (field : Field Q) : (ofField field).finish = .ok field := by
  have typed : (ofField field).typeName = some field.kind.typeName := rfl
  simp only [finish, typed, Member.required, Except.ok_bind, kind_ofField]
  cases field
  rfl

end FieldDraft

namespace Field

variable {Q : Type} {encode : Q → Json} {level : Nat} {fields : Node → Read (List (Field Q))}
variable {query : Node → Read Q}

theorem readAs {field : Field Q} (columnId : ∀ id ∈ field.columnId, id < UInt64.size)
    (columnIndex : ∀ index ∈ field.columnIndex, index < UInt64.size)
    (readLiteral : ∀ value, field.kind = .literal value →
      value.toJson.ReadAs level (Literal.ofNode level fields value.typeName) value)
    (readArguments : ∀ name arguments, field.kind = .call name arguments →
      (Json.list (arguments.map fun argument => (argument.map encode).toJson)).ReadAs level fields
        arguments)
    (readQuery : ∀ nested, field.kind = .subquery nested →
      (encode nested).ReadAs level query nested) :
    (field.map encode).toJson.ReadAs (level + 1) (fun node => do
      let members ← node.members (level + 1) "a field info object"
      (← readAll (FieldDraft.assign level fields query) {} members).finish) field := by
  have finished := FieldDraft.finish_ofField field
  obtain ⟨kind, aliasName, notSelected, aggregated, key, id, index⟩ := field
  have fillsKind : Fills level (FieldDraft.assign level fields query) _ {}
      (("type", .text (kind.map encode).typeName) :: (kind.map encode).members)
      (FieldDraft.ofKind kind) := FieldDraft.fills_members readLiteral
  have fillsField := ((((fillsKind.append
    (FieldDraft.fills_aliasName aliasName _ rfl)).append
    (FieldDraft.fills_laterMembers _ ⟨rfl, rfl⟩ readArguments readQuery)).append
    (FieldDraft.fills_flags notSelected aggregated key _ ⟨rfl, rfl, rfl⟩)).append
    (FieldDraft.fills_columnId columnId _ rfl)).append
    (FieldDraft.fills_columnIndex columnIndex _ rfl)
  rw [Field.map, Field.toJson]
  simp only [List.append_assoc] at fillsField ⊢
  exact .record _ (fillsField.readAll.bind finished)

end Field

namespace ConditionDraft

theorem entryNamed_name (condition : Condition α) :
    entryNamed condition.name = .ok (condition.map fun _ => ()) := by
  cases condition with
  | noop | unknown | operand => rfl
  | operator operator => cases operator <;> rfl

end ConditionDraft

namespace Condition

variable {Q : Type} {encode : Q → Json} {level : Nat} {field : Node → Read (Field Q)}

/-- An entry is read by its name and its operand, the name first. -/
theorem readAs {condition : Condition (Field Q)}
    (readOperand : ∀ operand, condition = .operand operand →
      (operand.map encode).toJson.ReadAs level field operand) :
    (condition.map (·.map encode)).toJson.ReadAs (level + 1) (fun node => do
      let members ← node.members (level + 1) "a condition object"
      (← readAll (ConditionDraft.assign field) {} members).finish) condition := by
  have named : Fills level (ConditionDraft.assign field) ["opcode"] {}
      [("opcode", .text (condition.map (·.map encode)).name)]
      { entry := some (condition.map fun _ => ()) } := by
    refine .cons rfl ((Json.ReadAs.text _).bind ?_) (.nil _)
    rw [ConditionDraft.entryNamed_name]
    cases condition <;> rfl
  cases condition with
  | operand operand =>
      have valued : Fills level (ConditionDraft.assign field) ["value"]
          { entry := some (.operand ()) } [("value", (operand.map encode).toJson)]
          { entry := some (.operand ()), operand := some operand } :=
        .one rfl (readOperand operand rfl)
      exact .record _ ((named.append valued).readAll.bind rfl)
  | noop | unknown | operator => exact .record _ (named.readAll.bind rfl)

end Condition

end ObjectQuery
