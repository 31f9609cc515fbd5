import ObjectQuery.Proofs.Query.Alike
import ObjectQuery.Proofs.Query.Parsed

namespace ObjectQuery

/-! The names in a query as it is read, and those in the queries nested in it. -/

mutual

theorem Field.columns_map (f : P → Q) : (field : Field P) →
    (field.map f).columns = field.columns.map (Field.map f)
  | ⟨kind, aliasName, notSelected, aggregated, key, columnId, columnIndex⟩ =>
      FieldKind.columns_map f kind ⟨kind, aliasName, notSelected, aggregated, key, columnId,
        columnIndex⟩

theorem FieldKind.columns_map (f : P → Q) : (kind : FieldKind P) → (field : Field P) →
    Field.kindColumns (kind.map f) (field.map f) = (Field.kindColumns kind field).map (Field.map f)
  | .call _ arguments, _ => Field.allColumns_mapAll f arguments
  | .column _, _ | .fieldSet _, _ | .subquery _, _ | .literal _, _ | .parameter _, _
  | .relativeDate _, _ => rfl

theorem Field.allColumns_mapAll (f : P → Q) : (fields : List (Field P)) →
    Field.allColumns (Field.mapAll f fields) = (Field.allColumns fields).map (Field.map f)
  | [] => rfl
  | field :: rest => by
      simp only [Field.mapAll, Field.allColumns, List.map_append, Field.columns_map f field,
        Field.allColumns_mapAll f rest]

end

namespace Field

@[simp]
theorem path?_map (f : P → Q) (field : Field P) : (field.map f).kind.path? = field.kind.path? := by
  obtain ⟨kind, aliasName, notSelected, aggregated, key, columnId, columnIndex⟩ := field
  cases kind <;> rfl

end Field

namespace Statement

/-- The names of objects and of columns in a statement. -/
def paths (statement : Statement Q) : List Path :=
  statement.objects.map (·.path) ++
    (Field.allColumns statement.everyField).filterMap (·.kind.path?)

@[simp]
theorem everyField_map (f : P → Q) (statement : Statement P) :
    (statement.map f).everyField = statement.everyField.map (Field.map f) := by
  simp [everyField, map, List.filterMap_map, List.map_filterMap, Function.comp_def,
    Condition.operand?_map, OrderKey.map]

@[simp]
theorem paths_map (f : P → Q) (statement : Statement P) :
    (statement.map f).paths = statement.paths := by
  have objects : (statement.map f).objects.map (·.path) = statement.objects.map (·.path) := by
    simp [map, SourceObject.map, Function.comp_def]
  rw [paths, paths, objects, everyField_map, ← Field.mapAll_eq_map, Field.allColumns_mapAll,
    List.filterMap_map]
  simp only [Function.comp_def, Field.path?_map]

theorem names_iff {property : Path → Prop} {statement : Statement Q} :
    statement.Names property ↔ ∀ field ∈ statement.everyField, field.Names property := by
  simp only [everyField, List.forall_mem_append, List.forall_mem_map]
  constructor
  · exact fun names =>
      ⟨⟨⟨⟨names.fields, names.filter⟩, names.groupBy⟩, names.having⟩, names.orderBy⟩
  · rintro ⟨⟨⟨⟨fields, filter⟩, groupBy⟩, having⟩, orderBy⟩
    exact ⟨fields, filter, groupBy, having, orderBy⟩

/-- Where names hold no dots, those in the clauses of a statement are plain paths. -/
theorem Parsed.undotted {statement : Statement Query} (read : statement.Parsed)
    (undotted : ∀ path ∈ statement.paths, ∀ segment ∈ path, ObjectQuery.Undotted segment) :
    statement.Undotted := by
  obtain ⟨objects, columns⟩ := List.forall_mem_append.1 undotted
  refine ⟨fun object member => ⟨(read.declared object member).1, ?_⟩, names_iff.2 ?_⟩
  · exact objects object.path (List.mem_map_of_mem member)
  · intro field member
    obtain ⟨names, noFieldSet⟩ := names_iff.1 read.names field member
    refine ⟨fun column reads path kind => ?_, noFieldSet⟩
    refine ⟨names column reads path kind, columns path ?_⟩
    exact List.mem_filterMap.2
      ⟨column, Field.mem_allColumns.2 ⟨field, member, reads⟩, congrArg FieldKind.path? kind⟩

end Statement

namespace Query

/-- The names in a query and in those nested in it. -/
def paths (query : Query) : List Path :=
  query.fold fun statement => statement.paths ++ statement.nested.flatten

theorem paths_mk (statement : Statement Query) :
    paths ⟨statement⟩ = statement.paths ++ statement.nested.flatMap paths := by
  rw [paths, fold_mk, Statement.paths_map, Statement.nested_map]
  rfl

theorem Parsed.undotted {query : Query} (read : query.Parsed)
    (undotted : ∀ path ∈ query.paths, ∀ segment ∈ path, ObjectQuery.Undotted segment) :
    query.Throughout fun statement => statement.Parsed ∧ statement.Undotted := by
  induction read with
  | intro own nested induction =>
      rw [paths_mk, List.forall_mem_append] at undotted
      refine .intro ⟨own, own.undotted undotted.1⟩ fun query member => induction query member ?_
      exact fun path given => undotted.2 path (List.mem_flatMap.2 ⟨query, member, given⟩)

end Query

/-!
Names outside of paths: those of functions, parameters and relative dates,
wherever they stand in a query and in the queries nested in it.
-/

/-- A name outside of paths, as it is written. -/
inductive Mention where
  | function (name : String)
  | parameter (name : String)
  | relativeDate (keyword : String)

mutual

/-- The names in a value: those in lists, and in lists in these. -/
def Literal.mentions : Literal → List Mention
  | .list items => ListItem.allMentions items
  | _ => []

def ListItem.mentions : ListItem → List Mention
  | .literal value => value.mentions
  | .parameter name => [.parameter name]
  | .relativeDate date => [.relativeDate date.keyword]

def ListItem.allMentions : List ListItem → List Mention
  | [] => []
  | item :: rest => item.mentions ++ ListItem.allMentions rest

end

section

variable (nested : Q → List Mention)

mutual

def FieldKind.mentions : FieldKind Q → List Mention
  | .call name arguments => .function name :: Field.allMentions arguments
  | .subquery query => nested query
  | .literal value => value.mentions
  | .parameter name => [.parameter name]
  | .relativeDate date => [.relativeDate date.keyword]
  | .column _ | .fieldSet _ => []

/-- The names in a field, where `nested` are those in the queries in it. -/
def Field.mentions : Field Q → List Mention
  | ⟨kind, _, _, _, _, _, _⟩ => kind.mentions

def Field.allMentions : List (Field Q) → List Mention
  | [] => []
  | field :: rest => field.mentions ++ Field.allMentions rest

end

/-- The names in all clauses of a statement, where `nested` are those in the queries in it. -/
def Statement.mentions (statement : Statement Q) : List Mention :=
  Field.allMentions nested statement.everyField ++ statement.bounds.parameters.map .parameter

end

mutual

theorem FieldKind.mentions_map (nested : Q → List Mention) (f : P → Q) : (kind : FieldKind P) →
    (kind.map f).mentions nested = kind.mentions (nested ∘ f)
  | .call name arguments => congrArg _ (Field.allMentions_mapAll nested f arguments)
  | .column _ | .fieldSet _ | .subquery _ | .literal _ | .parameter _ | .relativeDate _ => by
      simp only [FieldKind.map, FieldKind.mentions, Function.comp_apply]

theorem Field.mentions_map (nested : Q → List Mention) (f : P → Q) : (field : Field P) →
    (field.map f).mentions nested = field.mentions (nested ∘ f)
  | ⟨kind, _, _, _, _, _, _⟩ => FieldKind.mentions_map nested f kind

theorem Field.allMentions_mapAll (nested : Q → List Mention) (f : P → Q) :
    (fields : List (Field P)) →
    Field.allMentions nested (Field.mapAll f fields) = Field.allMentions (nested ∘ f) fields
  | [] => rfl
  | field :: rest => by
      simp only [Field.mapAll, Field.allMentions, Field.mentions_map nested f field,
        Field.allMentions_mapAll nested f rest]

end

/-- The entry is no list. -/
def ListItem.IsFlat (item : ListItem) : Prop :=
  ∀ items, item ≠ .literal (.list items)

def Literal.IsFlat : Literal → Prop
  | .list items => ∀ item ∈ items, item.IsFlat
  | _ => True

theorem ListItem.IsFlat.mentions_literal {value : Literal} (flat : (literal value).IsFlat) :
    (literal value).mentions = [] := by
  rw [mentions]
  cases value with
  | list items => exact absurd rfl (flat items)
  | _ => rfl

mutual

def FieldKind.IsFlat : FieldKind Q → Prop
  | .call _ arguments => Field.AreFlat arguments
  | .literal value => value.IsFlat
  | _ => True

/-- No list in the field is an entry of a list, and no argument of a call in it is a query. -/
def Field.IsFlat : Field Q → Prop
  | ⟨kind, _, _, _, _, _, _⟩ => kind.IsFlat

def Field.AreFlat : List (Field Q) → Prop
  | [] => True
  | field :: rest => (field.kind.query? = none ∧ field.IsFlat) ∧ Field.AreFlat rest

end

/-- Queries stand for selected fields and operands only, and lists hold no lists. -/
structure Statement.IsFlat (statement : Statement Q) : Prop where
  fields : ∀ field ∈ statement.everyField, field.IsFlat
  keys : ∀ field ∈ statement.groupBy ++ statement.orderBy.map (·.field), field.kind.query? = none

namespace Field

variable {Q : Type}

theorem isFlat_eq (field : Field Q) : field.IsFlat = field.kind.IsFlat := by
  cases field
  rfl

theorem areFlat_iff {fields : List (Field Q)} :
    AreFlat fields ↔ ∀ field ∈ fields, field.kind.query? = none ∧ field.IsFlat := by
  induction fields with
  | nil => simp [AreFlat]
  | cons field rest induction => rw [AreFlat, induction, List.forall_mem_cons]

theorem mentions_eq (nested : Q → List Mention) (field : Field Q) :
    field.mentions nested = field.kind.mentions nested := by
  cases field
  rfl

theorem allMentions_eq_flatMap (nested : Q → List Mention) (fields : List (Field Q)) :
    allMentions nested fields = fields.flatMap (mentions nested) := by
  induction fields with
  | nil => rfl
  | cons field rest induction => rw [allMentions, induction, List.flatMap_cons]

/-- The names in a field outside of the queries in it. -/
def ownMentions (field : Field Q) : List Mention :=
  field.mentions fun _ => []

mutual

/-- A flat field has no names in queries but those in the query that it stands for. -/
theorem mentions_of_isFlat (nested : Q → List Mention) : (field : Field Q) → field.IsFlat →
    field.mentions nested = field.ownMentions ++ (field.kind.query?.map nested).getD []
  | ⟨kind, _, _, _, _, _, _⟩, flat => kindMentions_of_isFlat nested kind flat

theorem kindMentions_of_isFlat (nested : Q → List Mention) : (kind : FieldKind Q) → kind.IsFlat →
    kind.mentions nested = kind.mentions (fun _ => []) ++ (kind.query?.map nested).getD []
  | .call name arguments, flat => by
      have inner := allMentions_of_areFlat nested arguments flat
      simp [FieldKind.mentions, FieldKind.query?, inner]
  | .subquery query, _ => rfl
  | .literal _, _ | .parameter _, _ | .relativeDate _, _ | .column _, _ | .fieldSet _, _ =>
      (List.append_nil _).symm

theorem allMentions_of_areFlat (nested : Q → List Mention) : (fields : List (Field Q)) →
    AreFlat fields → allMentions nested fields = allMentions (fun _ => []) fields
  | [], _ => rfl
  | field :: rest, ⟨⟨plain, flat⟩, others⟩ => by
      have own := mentions_of_isFlat nested field flat
      rw [plain] at own
      rw [allMentions, allMentions, own, allMentions_of_areFlat nested rest others]
      exact congrArg (· ++ _) (List.append_nil _)

end

end Field

namespace Statement

variable {Q : Type} {statement : Statement Q}

theorem mentions_map (nested : Q → List Mention) (f : P → Q) (statement : Statement P) :
    (statement.map f).mentions nested = statement.mentions (nested ∘ f) := by
  rw [mentions, mentions, everyField_map, ← Field.mapAll_eq_map, Field.allMentions_mapAll]
  rfl

theorem IsFlat.mem_nested_iff (flat : statement.IsFlat) {query : Q} :
    query ∈ statement.nested ↔ ∃ field ∈ statement.everyField, field.kind.query? = some query := by
  have keys : ∀ field ∈ statement.groupBy ++ statement.orderBy.map (·.field),
      field.kind.query? ≠ some query := by
    intro field member
    simp [flat.keys field member]
  rw [← List.mem_filterMap, nested]
  simp only [everyField, List.filterMap_append, List.mem_append]
  have groupBy : query ∉ statement.groupBy.filterMap (·.kind.query?) := by
    intro member
    obtain ⟨field, given, same⟩ := List.mem_filterMap.1 member
    exact keys field (List.mem_append_left _ given) same
  have orderBy : query ∉ (statement.orderBy.map (·.field)).filterMap (·.kind.query?) := by
    intro member
    obtain ⟨field, given, same⟩ := List.mem_filterMap.1 member
    exact keys field (List.mem_append_right _ given) same
  tauto

/-- The names in a statement are those in its clauses, and in the queries nested in it. -/
theorem IsFlat.mem_mentions_iff (flat : statement.IsFlat) (nested : Q → List Mention)
    {mention : Mention} :
    mention ∈ statement.mentions nested ↔
      (∃ field ∈ statement.everyField, mention ∈ field.ownMentions) ∨
        (∃ query ∈ statement.nested, mention ∈ nested query) ∨
          mention ∈ statement.bounds.parameters.map .parameter := by
  have own : (∃ field ∈ statement.everyField, mention ∈ field.mentions nested) ↔
      (∃ field ∈ statement.everyField, mention ∈ field.ownMentions) ∨
        ∃ query ∈ statement.nested, mention ∈ nested query := by
    constructor
    · rintro ⟨field, member, mentioned⟩
      rw [Field.mentions_of_isFlat nested field (flat.fields field member),
        List.mem_append] at mentioned
      refine mentioned.imp (⟨field, member, ·⟩) fun inner => ?_
      cases kind : field.kind.query? with
      | none => simp [kind] at inner
      | some query =>
          rw [kind] at inner
          exact ⟨query, flat.mem_nested_iff.2 ⟨field, member, kind⟩, inner⟩
    · rintro (⟨field, member, mentioned⟩ | ⟨query, inner, mentioned⟩)
      · refine ⟨field, member, ?_⟩
        rw [Field.mentions_of_isFlat nested field (flat.fields field member)]
        exact List.mem_append_left _ mentioned
      · obtain ⟨field, member, same⟩ := flat.mem_nested_iff.1 inner
        refine ⟨field, member, ?_⟩
        rw [Field.mentions_of_isFlat nested field (flat.fields field member), same]
        exact List.mem_append_right _ mentioned
  rw [mentions, Field.allMentions_eq_flatMap, List.mem_append, List.mem_flatMap, own, or_assoc]

end Statement

namespace Query

/-- A query as it is parsed, where it nests queries only as fields and operands. -/
abbrev Written : Query → Prop :=
  Throughout fun statement => statement.Parsed ∧ statement.IsFlat

/-- The names in a query and in those nested in it, at any depth. -/
def mentions (query : Query) : List Mention :=
  query.fold (Statement.mentions id)

theorem mentions_mk (statement : Statement Query) :
    mentions ⟨statement⟩ = statement.mentions mentions := by
  rw [mentions, fold_mk, Statement.mentions_map]
  rfl

end Query

end ObjectQuery
