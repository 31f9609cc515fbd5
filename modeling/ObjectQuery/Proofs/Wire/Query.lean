import ObjectQuery.Proofs.Wire.Field
import ObjectQuery.Proofs.Wire.Metadata
import ObjectQuery.Proofs.Wire.Reader
import ObjectQuery.Query.Fold
import ObjectQuery.Wire.Clause
import ObjectQuery.Wire.Decode
import ObjectQuery.Wire.Encode

namespace ObjectQuery

/-! Written objects, sort keys, row bounds and announced uses, which are read back. -/

section

open Member

namespace AccessClause

theorem readAs (clause : AccessClause) (level : Nat) :
    clause.toJson.ReadAs level (ofNode level) clause := by
  cases level with
  | zero => exact .record_zero
  | succ level =>
      exact .record _ (Fills.readOnce
        (.append (.append (.append (.append (.flag clause.view rfl) (.flag clause.reference rfl))
          (.flag clause.update rfl)) (.flag clause.updateTracking rfl))
          (.flag clause.updateViewstat rfl)) (by decide))

end AccessClause

namespace RowBounds

theorem finish_eq (bounds : RowBounds) :
    BoundsDraft.finish ⟨bounds.offset.bind RowBound.count?, bounds.limit.bind RowBound.count?,
      bounds.offset.bind RowBound.parameter?, bounds.limit.bind RowBound.parameter?⟩ = bounds := by
  have whole : (bound : Option RowBound) →
      BoundsDraft.bound (bound.bind RowBound.count?) (bound.bind RowBound.parameter?) = bound
    | none => rfl
    | some (.count _) => rfl
    | some (.parameter _) => rfl
  simp only [BoundsDraft.finish, whole]

theorem readAs (bounds : RowBounds) (level : Nat) :
    bounds.toJson.ReadAs level (ofNode level) bounds := by
  cases level with
  | zero => exact .record_zero
  | succ level =>
      refine .record _ (.bind (Fills.readOnce
        (.append (.append (.append
          (.orNull rfl fun value _ => ⟨.int value, by simp⟩)
          (.orNull rfl fun value _ => ⟨.int value, by simp⟩))
          (.orNull rfl fun value _ => ⟨.text value, by simp⟩))
          (.orNull rfl fun value _ => ⟨.text value, by simp⟩)) (by decide)) ?_)
      exact congrArg Except.ok (finish_eq bounds)

end RowBounds

namespace SourceObject

variable {Q : Type} {encode : Q → Json} {query : Node → Read Q}

theorem readAs {object : SourceObject Q} {level : Nat}
    (viewId : ∀ id ∈ object.viewId, id < UInt64.size)
    (parentViewId : ∀ id ∈ object.parentViewId, id < UInt64.size)
    (plan : ∀ nested ∈ object.plan,
      (encode nested).ReadAs level query nested ∧ encode nested ≠ .null) :
    (object.map encode).toJson.ReadAs (level + 1) (fun node => do
      let members ← node.members (level + 1) "struct ObjectInfo"
      readOnce (assign level query) { path := [] } members) object := by
  exact .record _ (Fills.readOnce
    (.append (.append (.append (.append (.append (.append (.append
      (.one rfl (.strings object.path))
      (.orNull rfl fun value _ => ⟨.text value, by simp⟩))
      (.member rfl bne_eq_false_iff_eq.1 (.text object.key)))
      (.flag object.hasConditions rfl)) (.flag object.innerJoin rfl))
      (.orNull rfl fun id found => ⟨.count (viewId id found), by simp [Json.nat]⟩))
      (.orNull rfl fun id found => ⟨.count (parentViewId id found), by simp [Json.nat]⟩))
      (.orNull_id rfl plan)) (by decide))

end SourceObject

namespace OrderKey

variable {Q : Type} {encode : Q → Json} {field : Node → Read (Field Q)}

theorem readAs {order : OrderKey Q} {level : Nat}
    (readField : (order.field.map encode).toJson.ReadAs level field order.field) :
    (order.map encode).toJson.ReadAs (level + 1) (fun node => do
      let members ← node.members (level + 1) "struct OrderByInfo"
      (← readOnce (OrderDraft.assign field) {} members).finish) order := by
  refine .record _ (.bind (Fills.readOnce
    (.append (.append (.one rfl readField) (.flag order.descending rfl))
      (.flag order.nullsLast rfl)) (by decide)) ?_)
  rfl

end OrderKey

end

/-!
Written queries, which are read back. What is asked of a query is asked of its
statement, in which the nested queries are replaced by what is asked of them.
-/

open Member

mutual

def FieldKind.IsWritable : FieldKind Prop → Prop
  | .call _ arguments => Field.AreWritable arguments
  | .subquery writable => writable
  | .literal value => value.IsWritable
  | _ => True

/-- Literals can be written, and the numbers are such as 64 bits hold. -/
def Field.IsWritable : Field Prop → Prop
  | ⟨kind, _, _, _, _, columnId, columnIndex⟩ =>
      kind.IsWritable ∧ (∀ id ∈ columnId, id < UInt64.size) ∧
        ∀ index ∈ columnIndex, index < UInt64.size

def Field.AreWritable : List (Field Prop) → Prop
  | [] => True
  | field :: rest => field.IsWritable ∧ Field.AreWritable rest

end

namespace Field

theorem areWritable_iff {fields : List (Field Prop)} :
    AreWritable fields ↔ ∀ field ∈ fields, field.IsWritable := by
  induction fields with
  | nil => simp [AreWritable]
  | cons field rest induction => rw [AreWritable, induction, List.forall_mem_cons]

theorem isWritable_ofListItem {items : List ListItem} (writable : Literal.AreWritable items)
    (property : Q → Prop) :
    ∀ field ∈ items.map ofListItem, (field.map property).IsWritable := by
  induction items with
  | nil => simp
  | cons item rest induction =>
      cases item with
      | literal value =>
          rw [Literal.AreWritable] at writable
          refine List.forall_mem_cons.2 ⟨?_, induction writable.2⟩
          exact ⟨writable.1, by simp, by simp⟩
      | parameter name | relativeDate date =>
          have others : Literal.AreWritable rest := by simpa [Literal.AreWritable] using writable
          refine List.forall_mem_cons.2 ⟨?_, induction others⟩
          exact ⟨trivial, by simp, by simp⟩

theorem toJsonAll_ofListItem (items : List ListItem) (encode : Q → Json) :
    ListItem.toJsonAll items =
      (items.map ofListItem).map fun field => (field.map encode).toJson := by
  induction items with
  | nil => rfl
  | cons item rest induction =>
      have same : item.toJson = ((ofListItem item : Field Q).map encode).toJson := by
        cases item with
        | literal value =>
            simp [ofListItem, ofKind, FieldKind.ofListItem, map, FieldKind.map, toJson,
              ListItem.toJson, Literal.members, FieldKind.typeName, FieldKind.members,
              FieldKind.laterMembers, Json.optional, Json.flag, Json.member]
        | parameter | relativeDate => rfl
      rw [ListItem.toJsonAll, induction, same]
      rfl

end Field

/-- The numbers of the object are such as 64 bits hold, and its query can be written. -/
structure SourceObject.IsWritable (object : SourceObject Prop) : Prop where
  viewId : ∀ id ∈ object.viewId, id < UInt64.size
  parentViewId : ∀ id ∈ object.parentViewId, id < UInt64.size
  plan : ∀ writable ∈ object.plan, writable

def OrderKey.IsWritable (order : OrderKey Prop) : Prop :=
  order.field.IsWritable

def Condition.IsWritable : Condition (Field Prop) → Prop
  | .operand field => field.IsWritable
  | _ => True

/-- The parts of the statement can be written, and its numbers are such as 64 bits hold. -/
structure Statement.IsWritable (statement : Statement Prop) : Prop where
  id : statement.id < UInt64.size
  parentId : ∀ id ∈ statement.parentId, id < UInt64.size
  fields : ∀ field ∈ statement.fields, field.IsWritable
  objects : ∀ object ∈ statement.objects, object.IsWritable
  filter : ∀ condition ∈ statement.filter, condition.IsWritable
  groupBy : ∀ field ∈ statement.groupBy, field.IsWritable
  having : ∀ condition ∈ statement.having, condition.IsWritable
  orderBy : ∀ order ∈ statement.orderBy, order.IsWritable
  residual : ∀ condition ∈ statement.residual, condition.IsWritable
  metadata : ∀ metadata ∈ statement.metadata, metadata.IsWritable

namespace Query

/--
All instants of the query and of the queries nested in it have years of four
digits, all finite numbers in it are read back, and its counts are such as 64
bits hold.
-/
def IsWritable (query : Query) : Prop :=
  query.fold Statement.IsWritable

theorem isWritable_mk (statement : Statement Query) :
    IsWritable ⟨statement⟩ = (statement.map IsWritable).IsWritable :=
  fold_mk Statement.IsWritable statement

theorem toJson_mk (statement : Statement Query) :
    toJson ⟨statement⟩ = (statement.map toJson).toJson :=
  fold_mk Statement.toJson statement

theorem toJson_ne_null (query : Query) : query.toJson ≠ .null := by
  obtain ⟨statement⟩ := query
  rw [toJson_mk, Statement.toJson]
  simp

/-- What can be written of a query is read back where it is no deeper than the level. -/
structure Reads (level : Nat) : Prop where
  field : ∀ field : Field Query, (field.map IsWritable).IsWritable →
    (fieldJson field).ReadAs level (fieldOfNode level) field
  fields : ∀ fields : List (Field Query), (∀ field ∈ fields, (field.map IsWritable).IsWritable) →
    (Json.list (fields.map fieldJson)).ReadAs level (fieldsOfNode level) fields
  condition : ∀ condition : Condition (Field Query),
    (condition.map (·.map IsWritable)).IsWritable →
    (condition.map (·.map toJson)).toJson.ReadAs level (conditionOfNode level) condition
  conditions : ∀ conditions : List (Condition (Field Query)),
    (∀ condition ∈ conditions, (condition.map (·.map IsWritable)).IsWritable) →
    (conditionsJson conditions).ReadAs level (conditionsOfNode level) conditions
  object : ∀ object : SourceObject Query, (object.map IsWritable).IsWritable →
    (object.map toJson).toJson.ReadAs level (objectOfNode level) object
  objects : ∀ objects : List (SourceObject Query),
    (∀ object ∈ objects, (object.map IsWritable).IsWritable) →
    (Json.list (objects.map fun object => (object.map toJson).toJson)).ReadAs level
      (objectsOfNode level) objects
  orderKey : ∀ order : OrderKey Query, (order.map IsWritable).IsWritable →
    (order.map toJson).toJson.ReadAs level (orderKeyOfNode level) order
  orderKeys : ∀ orders : List (OrderKey Query),
    (∀ order ∈ orders, (order.map IsWritable).IsWritable) →
    (Json.list (orders.map fun order => (order.map toJson).toJson)).ReadAs level
      (orderKeysOfNode level) orders
  query : ∀ query : Query, query.IsWritable → query.toJson.ReadAs level (ofNode level) query

namespace Reads

variable {level : Nat}

theorem zero : Reads 0 where
  field field _ := by
    obtain ⟨kind, aliasName, notSelected, aggregated, key, columnId, columnIndex⟩ := field
    rw [fieldJson, Field.map, Field.toJson]
    exact .record_zero
  fields _ _ := .list_zero
  condition _ _ := .record_zero
  conditions _ _ := .list_zero
  object _ _ := .record_zero
  objects _ _ := .list_zero
  orderKey _ _ := .record_zero
  orderKeys _ _ := .list_zero
  query query _ := by
    obtain ⟨statement⟩ := query
    rw [toJson_mk, Statement.toJson]
    exact .record_zero

theorem nextField (reads : Reads level) {field : Field Query}
    (writable : (field.map IsWritable).IsWritable) :
    (fieldJson field).ReadAs (level + 1) (fieldOfNode (level + 1)) field := by
  obtain ⟨kind, aliasName, notSelected, aggregated, key, columnId, columnIndex⟩ := field
  rw [Field.map, Field.IsWritable] at writable
  obtain ⟨isWritable, idWritable, indexWritable⟩ := writable
  refine Field.readAs idWritable indexWritable ?_ ?_ ?_
  · rintro value rfl
    refine Literal.readAs isWritable ?_
    rintro items rfl
    rw [Field.toJsonAll_ofListItem items toJson]
    exact reads.fields _ (Field.isWritable_ofListItem isWritable IsWritable)
  · rintro name arguments rfl
    rw [FieldKind.map, FieldKind.IsWritable, Field.areWritable_iff, Field.mapAll_eq_map,
      List.forall_mem_map] at isWritable
    exact reads.fields arguments isWritable
  · rintro nested rfl
    exact reads.query nested isWritable

theorem nextCondition (reads : Reads level) {condition : Condition (Field Query)}
    (writable : (condition.map (·.map IsWritable)).IsWritable) :
    (condition.map (·.map toJson)).toJson.ReadAs (level + 1) (conditionOfNode (level + 1))
      condition := by
  refine Condition.readAs ?_
  rintro operand rfl
  exact reads.field operand writable

theorem nextObject (reads : Reads level) {object : SourceObject Query}
    (writable : (object.map IsWritable).IsWritable) :
    (object.map toJson).toJson.ReadAs (level + 1) (objectOfNode (level + 1)) object := by
  refine SourceObject.readAs writable.viewId writable.parentViewId fun nested found => ?_
  have isWritable : nested.IsWritable := writable.plan _ (Option.mem_map_of_mem IsWritable found)
  exact ⟨reads.query nested isWritable, nested.toJson_ne_null⟩

theorem nextOrderKey (reads : Reads level) {order : OrderKey Query}
    (writable : (order.map IsWritable).IsWritable) :
    (order.map toJson).toJson.ReadAs (level + 1) (orderKeyOfNode (level + 1)) order :=
  OrderKey.readAs (reads.field order.field writable)

theorem nextQuery (reads : Reads level) {query : Query} (writable : query.IsWritable) :
    query.toJson.ReadAs (level + 1) (ofNode (level + 1)) query := by
  obtain ⟨statement⟩ := query
  rw [isWritable_mk] at writable
  rw [toJson_mk]
  have fields := reads.fields statement.fields (List.forall_mem_map.1 writable.fields)
  have objects := reads.objects statement.objects (List.forall_mem_map.1 writable.objects)
  have filter := reads.conditions statement.filter (List.forall_mem_map.1 writable.filter)
  have groupBy := reads.fields statement.groupBy (List.forall_mem_map.1 writable.groupBy)
  have having := reads.conditions statement.having (List.forall_mem_map.1 writable.having)
  have orderBy := reads.orderKeys statement.orderBy (List.forall_mem_map.1 writable.orderBy)
  have residual := reads.conditions statement.residual (List.forall_mem_map.1 writable.residual)
  have unbounded (plain : (!statement.bounds.isEmpty) = false) : statement.bounds = {} :=
    (RowBounds.isEmpty_iff statement.bounds).1 (by simpa using plain)
  have unannounced (plain : (!statement.access.isEmpty) = false) : statement.access = {} :=
    (AccessClause.isEmpty_iff statement.access).1 (by simpa using plain)
  simp only [Statement.toJson, Statement.map, List.map_map]
  refine .record _ ((Fills.readOnce
    (.append (.append (.append (.append (.append (.append (.append (.append (.append (.append
      (.append (.append (.append
      (.one rfl (.count writable.id))
      (.orNull rfl fun id found => ⟨.count (writable.parentId id found), by simp [Json.nat]⟩))
      (.nonempty rfl fields)) (.nonempty rfl objects)) (.nonempty rfl filter))
      (.nonempty rfl groupBy)) (.nonempty rfl having)) (.nonempty rfl orderBy))
      (.member rfl unbounded (statement.bounds.readAs level)))
      (.member rfl unannounced (statement.access.readAs level)))
      (.flag statement.isAggregation rfl)) (.flag statement.isCorrelated rfl))
      (.nonempty rfl residual))
      (.orNull rfl fun metadata found => ⟨Metadata.readAs (writable.metadata metadata found) level,
        by simp [Metadata.toJson]⟩)) (by decide)).bind ?_)
  rfl

theorem next (reads : Reads level) : Reads (level + 1) where
  field _ := reads.nextField
  fields _ writable := .listOf fun field member => reads.field field (writable field member)
  condition _ := reads.nextCondition
  conditions _ writable :=
    .listOf fun condition member => reads.condition condition (writable condition member)
  object _ := reads.nextObject
  objects _ writable := .listOf fun object member => reads.object object (writable object member)
  orderKey _ := reads.nextOrderKey
  orderKeys _ writable := .listOf fun order member => reads.orderKey order (writable order member)
  query _ := reads.nextQuery

theorem all (level : Nat) : Reads level := by
  induction level with
  | zero => exact zero
  | succ level induction => exact induction.next

end Reads

end Query

/--
What the codec needs of a library for JSON: the document that a value is written
as, and what is found in a document with the place after it. The document of a
sound value shows the value, and nothing follows it.
-/
structure JsonLibrary where
  write : Json → String
  scan : String → Document.Scanned Node
  shows : ∀ json : Json, json.Sound → ∃ node reached,
    scan (write json) = (node, some ⟨[], reached⟩) ∧ json.Shows node

namespace JsonLibrary

/-- Documents on one line. -/
def compact : JsonLibrary where
  write := Json.render
  scan := Document.scan
  shows json sound := Document.scan_chars .compact sound (Layout.toList_render 0 json)

/-- Documents with a line for each item and each member. -/
def pretty : JsonLibrary where
  write := Json.renderPretty 0
  scan := Document.scan
  shows json sound := Document.scan_chars .pretty sound (Layout.toList_renderPretty 0 json)

/-- What a reader makes of a document, at the end of which the text has to end. -/
def decodeAs {α : Type} (library : JsonLibrary) (read : Nat → Node → Read α) (text : String) :
    Read α := do
  let (node, rest) := library.scan text
  let value ← read Query.maxLevel node
  match rest.map Place.skipSpace with
  | none => return value
  | some place =>
      if place.ahead.isEmpty then
        return value
      else
        Read.malformed place.line

/-- A document is read as the value whose written form it shows. -/
theorem decodeAs_write (library : JsonLibrary) {α : Type} {read : Nat → Node → Read α} {json : Json}
    {value : α} (readAs : json.ReadAs Query.maxLevel (read Query.maxLevel) value)
    (shallow : json.depth ≤ Query.maxLevel) :
    library.decodeAs read (library.write json) = .ok value := by
  obtain ⟨sound, reads⟩ := readAs shallow
  obtain ⟨node, reached, scanned, shows⟩ := library.shows json sound
  rw [decodeAs, scanned]
  simp only [reads node shows, Except.ok_bind, Option.map_some]
  rfl

/-- With any library, a query is read back from its written form. -/
theorem decodeAs_query (library : JsonLibrary) (query : Query) (writable : query.IsWritable)
    (shallow : query.toJson.depth < 128) :
    library.decodeAs Query.ofNode (library.write query.toJson) = .ok query :=
  library.decodeAs_write ((Query.Reads.all Query.maxLevel).query query writable)
    (Nat.le_of_lt_succ shallow)

end JsonLibrary

namespace Query

/--
A query is what its written form is read as, on one line or indented, where
fewer than 128 records and lists are open at once.
-/
theorem decode_encode (query : Query) (writable : query.IsWritable)
    (shallow : query.toJson.depth < 128) :
    decode query.encode = .ok query ∧ decode query.encodePretty = .ok query ∧
      (decode query.encode).map encode = .ok query.encode := by
  have plain : decode query.encode = .ok query :=
    JsonLibrary.compact.decodeAs_query query writable shallow
  have indented : decode query.encodePretty = .ok query :=
    JsonLibrary.pretty.decodeAs_query query writable shallow
  refine ⟨plain, indented, ?_⟩
  rw [plain]
  rfl

def contactNames : Query :=
  ⟨{ id := 1, fields := [.ofKind (.column ["Name"])], objects := [{ path := ["Contact"] }] }⟩

def sizes : Literal :=
  .list [.literal (.float 1.5), .literal (.list [.literal (.dateTime .epoch)])]

def accountMetadata : Metadata :=
  { maxQueryDepth := 1, maxViewDepth := 0, nextQueryId := 2, nextViewId := 0, nextColumnId := 0
    queryGraph := .ofList [(0, ⟨none, 0, false⟩), (1, ⟨some 0, 1, false⟩)]
    viewGraph := .empty, functions := .empty, parameters := .empty, relativeDates := .empty }

def accountsWithContacts : Query :=
  ⟨{ fields := [.ofKind (.subquery contactNames)]
     objects := [{ path := ["Account"], plan := some contactNames }]
     filter := [.operand (.ofKind (.column ["Size"])), .operand (.ofKind (.literal sizes)),
      .operator .isIn, .noop, .unknown]
     metadata := some accountMetadata }⟩

theorem isWritable_sizes : sizes.IsWritable := by
  have readsBack : Literal.ReadsBack 1.5 := fun _ _ _ => by decide +kernel
  have epoch : Instant.epoch.IsWritable := ⟨by decide, by decide⟩
  simp [sizes, Literal.IsWritable, Literal.AreWritable, readsBack, epoch]

theorem isWritable_accountMetadata : accountMetadata.IsWritable where
  date := ⟨by decide, by decide⟩
  elapsedTime := by decide
  maxQueryDepth := by decide
  maxViewDepth := by decide
  nextQueryId := by decide
  nextViewId := by decide
  nextColumnId := by decide
  queryNumbers := by decide
  queryNodes := by
    intro entry member
    have decided : ∀ entry ∈ accountMetadata.queryGraph.entries,
      (∀ id ∈ entry.2.parentId, id < UInt64.size) ∧ entry.2.depth < UInt64.size := by decide
    exact ⟨(decided entry member).1, (decided entry member).2⟩
  viewNumbers := by decide
  viewNodes := by simp [accountMetadata, SortedMap.empty]

theorem isWritable_contactNames : contactNames.IsWritable := by
  have object : SourceObject.IsWritable { path := ["Contact"] } := ⟨by simp, by simp, by simp⟩
  rw [contactNames, isWritable_mk]
  constructor <;> simp [Statement.map, Field.ofKind, Field.map, FieldKind.map, Field.IsWritable,
    FieldKind.IsWritable, SourceObject.map, object]

theorem isWritable_accountsWithContacts : accountsWithContacts.IsWritable := by
  have object : SourceObject.IsWritable { path := ["Account"], plan := some True } :=
    ⟨by simp, by simp, by simp⟩
  rw [accountsWithContacts, isWritable_mk]
  constructor <;> simp [Statement.map, Field.ofKind, Field.map, FieldKind.map, Field.IsWritable,
    FieldKind.IsWritable, SourceObject.map, Condition.map, Condition.IsWritable, object,
    isWritable_contactNames, isWritable_sizes, isWritable_accountMetadata]

theorem decode_encode_accountsWithContacts :
    accountsWithContacts.IsWritable ∧ accountsWithContacts.toJson.depth < 128 ∧
      decode accountsWithContacts.encode = .ok accountsWithContacts ∧
      decode accountsWithContacts.encodePretty = .ok accountsWithContacts ∧
      (decode accountsWithContacts.encode).map encode = .ok accountsWithContacts.encode := by
  have shallow : accountsWithContacts.toJson.depth < 128 := by decide +kernel
  exact ⟨isWritable_accountsWithContacts, shallow,
    decode_encode accountsWithContacts isWritable_accountsWithContacts shallow⟩

end Query

end ObjectQuery
