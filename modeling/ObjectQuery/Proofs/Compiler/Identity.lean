import ObjectQuery.Proofs.Compiler.Depth
import ObjectQuery.Proofs.Compiler.Numbering

namespace ObjectQuery

/-!
What the keys and numbers of a compiled query identify. Where no name holds a
dot, columns and objects that share them have the same path, letter case aside.
-/

namespace Path.Plain

variable {path other : Path}

/-- What is registered for a path is found for no other. -/
theorem find?_insert_key (plain : path.Plain) (otherPlain : other.Plain) (aliases : AliasMap)
    (meaning : Path) :
    (aliases.insert path.key meaning).find? other.key =
      if path.same other then some meaning else aliases.find? other.key := by
  split
  · rw [key_eq_of_same ‹_›, SortedMap.find?_insert_self]
  · exact aliases.find?_insert_of_ne meaning (mt (plain.same_of_key_eq otherPlain) ‹_›)

end Path.Plain

namespace Statement

variable {before after : Statement Query}

/-- The columns and field sets of a statement have the keys of their paths. -/
def KeysNames (statement : Statement Query) : Prop :=
  Field.AllNamed Path.Keyed statement.named

theorem Keeps.keysNames (keeps : before.Keeps after) (named : before.KeysNames) :
    after.KeysNames := by
  intro field member
  rcases keeps.named field member with earlier | ⟨_, keyed⟩
  · exact named field earlier
  · exact keyed

theorem Located.keysNames {known : Path → Prop} (located : before.Located known) :
    before.KeysNames :=
  located.named.mono fun _ _ found => found.keyed

end Statement

namespace Query

open Statement (KeysNames)

theorem Heads.reaches {query head : Query} (stands : query.Heads head) : query.Reaches head := by
  rcases stands with rfl | ⟨outer, reaches, member⟩
  · exact .self head
  · exact reaches.trans (.nested (Statement.mem_nested_iff.2 (.inr member)) (.self head))

/-- Each query in a query is a list in one that stands alone or in a condition. -/
theorem Reaches.exists_head {query inner : Query} (reaches : query.Reaches inner) :
    ∃ head, query.Heads head ∧ head.Spans inner := by
  rcases reaches.exists_spans with spans | ⟨outer, head, reached, member, spans⟩
  · exact ⟨query, .inl rfl, spans⟩
  · exact ⟨head, .inr ⟨outer, reached, member⟩, spans⟩

/-- The places of a query, in which names have the keys of their paths, as in all within. -/
structure Identities (site : Site) (result : Statement Query)
    (around : Option (Statement Query)) : Prop where
  places : Places site result around
  keyed : Throughout KeysNames ⟨result⟩

def identities : Outcome := fun site _ _ result around _ =>
  site.Sound → Identities site result around

theorem places_of_identities {site : Site} {statement result : Statement Query}
    {before after : Session} {around : Option (Statement Query)}
    (own : identities site statement before result around after) :
    places site statement before result around after :=
  fun sound => (own sound).places

theorem Lists.keyed {depth done : Nat} {aliases : AliasMap} {own statement : Statement Query}
    {start state : Session} (inherits : Scope.Inherits (fun _ => True) aliases)
    (supplied : own.Supplied)
    (lists : Lists identities depth aliases own start done statement state) :
    ∀ query ∈ listedBefore statement done, query.Throughout KeysNames := by
  induction lists with
  | start => simp [listedBefore]
  | skip lists plain induction => rwa [listedBefore_skip plain]
  | nested lists found grows compiled induction =>
      have keeps := ((lists.mono places_of_identities).placed inherits supplied).1
      have nested := compiled (Site.sound_list inherits (keeps.supplied supplied))
      rw [listedBefore_replaceNested grows found, List.forall_mem_append]
      exact ⟨induction, by simpa using nested.keyed⟩

theorem Operands.keyed {depth : Nat} {around : Statement Query}
    {conditions results : List (Condition (Field Query))} {before after : Session}
    (operands : Operands identities depth around conditions before results after) :
    ∀ query ∈ results.filterMap Condition.query?, query.Throughout KeysNames := by
  have alone : QueryPlace.conditional ≠ .select := by decide
  exact operands.forall_of_outcome fun compiled => (compiled (Site.sound_alone alone)).keyed

theorem identities_of_compiled {site : Site} {statement result : Statement Query}
    {before after : Session} {around : Option (Statement Query)}
    (given : statement.Parsed ∧ statement.Undotted)
    (compiled : Compiled identities site statement before result around after) :
    identities site statement before result around after := by
  intro sound
  refine ⟨places_of_compiled given (compiled.mono places_of_identities) sound, ?_⟩
  obtain ⟨read, undotted⟩ := given
  cases compiled with
  | intro compiled lists begins filtered grouped ends =>
      have supplied := compiled.supplied read undotted sound
      have located := compiled.located read undotted sound
      obtain ⟨inherits, _, numbered, _, _, within, planned, _⟩ := located
      have keeps := ((lists.mono places_of_identities).placed inherits supplied).1.trans
        (keeps_conditions filtered grouped)
      have listed := lists.keyed inherits supplied
      rw [lists.listed] at listed
      refine .intro (keeps.keysNames (within.of_alike planned.alike).keysNames) ?_
      rw [Statement.nested_eq_append, Statement.conditional]
      simp only [List.forall_mem_append]
      exact ⟨listed, filtered.keyed, grouped.keyed⟩

end Query

namespace CompilerOptions

variable {options : CompilerOptions} {source : String} {date : Instant} {elapsedTime : Nat}
  {query : Query}

theorem keysNames_of_compile
    (undotted : ∀ parsed, options.parse source = .ok parsed →
      ∀ path ∈ parsed.paths, ∀ segment ∈ path, Undotted segment)
    (compiled : options.compile source date elapsedTime = .ok query) :
    query.Throughout Statement.KeysNames := by
  obtain ⟨parsed, around, after, body, _, identities, rfl⟩ := outcome_of_compile
    (fun _ given => given.1) Query.identities_of_compiled
    (fun parsed parses => (parsed_of_parse parses).undotted (undotted parsed parses)) compiled
  exact (identities (Site.sound_alone (by decide))).keyed.withMetadata fun own => own

theorem exists_ledger_of_compile (compiled : options.compile source date elapsedTime = .ok query)
    {head : Query} (stands : query.Heads head) :
    ∃ ledger : Ledger, ledger.Sound ∧
      ∀ inner, head.Spans inner → ledger.Consistent inner.body.marks := by
  obtain ⟨parsed, around, after, body, _, numbered, rfl⟩ := outcome_of_compile (fun _ own => own)
    Query.numbers_of_compiled (fun _ => parsed_of_parse) compiled
  exact (numbered (Ledger.sound_empty (Nat.le_refl 1))).exists_ledger stands

/-- Columns of a query and of the lists in it share a number if they have the same path. -/
theorem columnId_eq_iff_same
    (undotted : ∀ parsed, options.parse source = .ok parsed →
      ∀ path ∈ parsed.paths, ∀ segment ∈ path, Undotted segment)
    (compiled : options.compile source date elapsedTime = .ok query) {head left right : Query}
    (stands : query.Heads head) (leftSpans : head.Spans left) (rightSpans : head.Spans right)
    {column other : Field Query} (member : column ∈ left.body.named)
    (memberToo : other ∈ right.body.named) {path otherPath : Path}
    (kind : column.kind = .column path) (otherKind : other.kind = .column otherPath) :
    (column.key = other.key ↔ path.same otherPath = true) ∧
      (column.columnId = other.columnId ↔ path.same otherPath = true) := by
  have keysNames := Query.throughout_iff.1 (keysNames_of_compile undotted compiled)
  have keyed := keysNames left (stands.reaches.trans leftSpans.reaches) column member path
    (congrArg FieldKind.path? kind)
  have otherKeyed := keysNames right (stands.reaches.trans rightSpans.reaches) other memberToo
    otherPath (congrArg FieldKind.path? otherKind)
  obtain ⟨ledger, sound, consistent⟩ := exists_ledger_of_compile compiled stands
  have numbers : column.columnId = other.columnId ↔ column.key = other.key :=
    sound.id_eq_iff (consistent left leftSpans) (consistent right rightSpans)
      (Statement.mark_mem_marks_of_named member) (Statement.mark_mem_marks_of_named memberToo)
      (congrArg FieldKind.isColumn kind) (congrArg FieldKind.isColumn otherKind)
  have keys : column.key = other.key ↔ path.same otherPath = true := by
    rw [keyed.key, otherKeyed.key, keyed.plain.key_eq_iff otherKeyed.plain]
  exact ⟨keys, numbers.trans keys⟩

/-- Objects of a query and of the lists in it share a number if they have the same path. -/
theorem viewId_eq_iff_same
    (undotted : ∀ parsed, options.parse source = .ok parsed →
      ∀ path ∈ parsed.paths, ∀ segment ∈ path, Undotted segment)
    (compiled : options.compile source date elapsedTime = .ok query) {head left right : Query}
    (stands : query.Heads head) (leftSpans : head.Spans left) (rightSpans : head.Spans right)
    {object other : SourceObject Query} (member : object ∈ left.body.objects)
    (memberToo : other ∈ right.body.objects) :
    (object.key = other.key ↔ object.path.same other.path = true) ∧
      (object.viewId = other.viewId ↔ object.path.same other.path = true) := by
  have placed := Query.throughout_iff.1 (placed_of_compile undotted compiled).1
  have own := (placed left (stands.reaches.trans leftSpans.reaches)).supplied.objects object member
  have otherOwn :=
    (placed right (stands.reaches.trans rightSpans.reaches)).supplied.objects other memberToo
  obtain ⟨chart, body, metadata, rfl, sound, charted, _⟩ := exists_charted compiled
  obtain ⟨ledger, known, lists⟩ := charted.exists_lists sound stands
  have numbers : object.viewId = other.viewId ↔ object.key = other.key :=
    known.viewId_eq_iff (lists left leftSpans) (lists right rightSpans) member memberToo
  have keys : object.key = other.key ↔ object.path.same other.path = true := by
    rw [own.key, otherOwn.key, own.plain.key_eq_iff otherOwn.plain]
  exact ⟨keys, numbers.trans keys⟩

/--
Paths have the same key if they have the same pieces between dots, however these
are put together to segments. Where no segment holds a dot, they are then the
same path, letter case aside, and what is registered for one is found for no
other. In a compiled query whose names hold no dots, the columns of a query that
stands alone or in a condition and of the lists of related rows in it share keys
and numbers only with columns of the same path, and so do objects.
-/
theorem same_of_shared (path otherPath : Path) (nonempty : path ≠ [])
    (otherNonempty : otherPath ≠ []) :
    (path.key = otherPath.key ↔ path.pieces = otherPath.pieces) ∧
    (path.Plain → otherPath.Plain →
      (path.key = otherPath.key ↔ path.same otherPath = true) ∧
        ∀ (aliases : AliasMap) (meaning : Path),
          (aliases.insert path.key meaning).find? otherPath.key =
            if path.same otherPath then some meaning else aliases.find? otherPath.key) ∧
    ∀ (options : CompilerOptions) (source : String) (date : Instant) (elapsedTime : Nat)
      (query : Query),
      (∀ parsed, options.parse source = .ok parsed →
        ∀ path ∈ parsed.paths, ∀ segment ∈ path, Undotted segment) →
      options.compile source date elapsedTime = .ok query →
      ∀ head, query.Heads head → ∀ left right, head.Spans left → head.Spans right →
        (∀ column ∈ left.body.named, ∀ other ∈ right.body.named,
          column.kind = .column path → other.kind = .column otherPath →
            (column.key = other.key ↔ path.same otherPath = true) ∧
              (column.columnId = other.columnId ↔ path.same otherPath = true)) ∧
        ∀ object ∈ left.body.objects, ∀ other ∈ right.body.objects,
          object.path = path → other.path = otherPath →
            (object.key = other.key ↔ path.same otherPath = true) ∧
              (object.viewId = other.viewId ↔ path.same otherPath = true) := by
  refine ⟨Path.key_eq_iff_pieces nonempty otherNonempty, fun plain otherPlain =>
    ⟨plain.key_eq_iff otherPlain, plain.find?_insert_key otherPlain⟩, ?_⟩
  intro options source date elapsedTime query undotted compiled head stands left right leftSpans
    rightSpans
  constructor
  · intro column member other memberToo kind otherKind
    exact columnId_eq_iff_same undotted compiled stands leftSpans rightSpans member memberToo kind
      otherKind
  · rintro object member other memberToo rfl rfl
    exact viewId_eq_iff_same undotted compiled stands leftSpans rightSpans member memberToo

theorem undotted_sharedName :
    ∀ parsed, parse {} sharedName = .ok parsed →
      ∀ path ∈ parsed.paths, ∀ segment ∈ path, Undotted segment :=
  undotted_of_parse (by decide +kernel)

theorem same_of_sharedName :
    Path.key ["Contact", "NAME"] = Path.key ["contact", "Name"] ∧
    Path.pieces ["Contact", "NAME"] = Path.pieces ["contact", "Name"] ∧
    ∃ query, compile {} sharedName = .ok query ∧
      query.marks.map (fun mark => (mark.key, mark.id)) = sharedNameIds ∧
      ∀ column ∈ query.body.named, ∀ other ∈ query.body.named,
        column.kind = .column ["Contact", "Name"] → other.kind = .column ["Contact", "Id"] →
          column.columnId ≠ other.columnId := by
  have plain : Path.Plain ["Contact", "NAME"] := ⟨by decide, by simp [Undotted]⟩
  have otherPlain : Path.Plain ["contact", "Name"] := ⟨by decide, by simp [Undotted]⟩
  obtain ⟨pieces, keys, _⟩ := same_of_shared ["Contact", "NAME"] ["contact", "Name"] plain.1
    otherPlain.1
  have same := (keys plain otherPlain).1.2 (by decide)
  obtain ⟨query, compiled, ids⟩ := compile_sharedName
  refine ⟨same, pieces.1 same, query, compiled, ids, ?_⟩
  obtain ⟨_, _, shared⟩ := same_of_shared ["Contact", "Name"] ["Contact", "Id"] (by decide)
    (by decide)
  intro column member other memberToo kind otherKind numbers
  have columns := (shared {} sharedName _ _ query undotted_sharedName compiled query (.inl rfl)
    query query (.self query) (.self query)).1
  have same := (columns column member other memberToo kind otherKind).2.1 numbers
  exact absurd same (by decide)

/-- A column of two segments after the object, and a column of one that holds a dot. -/
def dottedColumn : String :=
  "SELECT a.b FROM Contact GROUP BY \"a.b\""

/-- Different columns share their key and number, so that one is selected where the other groups. -/
theorem shared_of_dottedColumn :
    ∃ query, compile {} dottedColumn = .ok query ∧
      ∃ column ∈ query.body.fields, ∃ other ∈ query.body.groupBy,
        column.kind.path? = some ["Contact", "a", "b"] ∧
        other.kind.path? = some ["Contact", "a.b"] ∧
        Path.same ["Contact", "a", "b"] ["Contact", "a.b"] = false ∧
        column.key = other.key ∧ column.columnId = other.columnId := by
  have run : compilesTo {} dottedColumn (fun query => query.body.fields.any fun column =>
      query.body.groupBy.any fun other =>
        column.kind.path? == some ["Contact", "a", "b"] &&
          (other.kind.path? == some ["Contact", "a.b"] &&
            (column.key == other.key && column.columnId == other.columnId))) = true := by
    decide +kernel
  obtain ⟨query, compiled, holds⟩ := exists_of_compilesTo run
  obtain ⟨column, member, holds⟩ := List.any_eq_true.1 holds
  obtain ⟨other, memberToo, holds⟩ := List.any_eq_true.1 holds
  simp only [Bool.and_eq_true, beq_iff_eq] at holds
  obtain ⟨path, otherPath, key, id⟩ := holds
  exact ⟨query, compiled, column, member, other, memberToo, path, otherPath, by decide, key, id⟩

end CompilerOptions

end ObjectQuery
