import ObjectQuery.Proofs.Resolution.Grouping
import ObjectQuery.Proofs.Resolution.Primary

namespace ObjectQuery

/-!
What can be told of a statement from what it was before its names were resolved:
that no constant takes the place of another field, and for which selected fields
the names in it stand that are aliases of these.
-/

namespace Scope

variable {Q : Type} {start path reached : Path} {scope after : Scope Q}

theorem lasting_startsAt : Lasting fun scope : Scope Q => scope.StartsAt start where
  qualify := qualify_yields fun _ path _ starts => starts.register path
  mention _ _ _ starts := starts

/-- What replaces a beginning of a path leaves its last segment. -/
theorem walkWithin_getLast? {registers : Bool} {steps index : Nat}
    (arrives : walkWithin registers steps index path scope = .arrived reached after) :
    reached.getLast? = path.getLast? := by
  induction steps generalizing index path scope with
  | zero => cases arrives
  | succ steps induction =>
      unfold walkWithin at arrives
      split at arrives
      · rename_i inside
        dsimp only at arrives
        split at arrives
        · have nonempty : path ≠ [] := List.ne_nil_of_length_pos (Nat.zero_lt_of_lt inside)
          rw [induction arrives, List.getLast?_append, List.getLast?_drop,
            if_neg (Nat.not_le.2 inside), List.getLast?_eq_some_getLast nonempty, Option.some_or]
        · split at arrives
          · exact induction arrives
          · cases arrives
      · cases arrives
        rfl

theorem walk_getLast? {registers : Bool}
    (walked : scope.walk registers path = some (reached, after)) :
    reached.getLast? = path.getLast? := by
  unfold walk at walked
  split at walked
  · cases walked
    exact walkWithin_getLast? ‹_›
  · cases walked
  · cases walked
    rfl

/-- Columns keep their names, whatever objects they are found in. -/
theorem qualify_ends (registers : Bool) (path : Path) :
    Step.Yields (fun _ => True) (qualify registers path : Resolver Q Path) fun qualified =>
      ∀ segment, path.getLast? = some segment → ∃ object : Path, qualified = object ++ [segment] := by
  have ends {other : Path} (object : Path) (same : ∀ segment, path.getLast? = some segment →
      other.getLast? = some segment) (segment : String) (last : path.getLast? = some segment) :
      ∃ outer : Path, object ++ other.getLast?.toList = outer ++ [segment] :=
    ⟨object, by rw [same segment last, Option.toList_some]⟩
  refine .after fun scope => ?_
  have started : ∀ segment, path.getLast? = some segment →
      (if path.length = 1 then scope.primary ++ path else path).getLast? = some segment := by
    intro segment last
    split
    · rw [List.getLast?_append, last, Option.some_or]
    · exact last
  dsimp only
  generalize (if path.length = 1 then scope.primary ++ path else path) = whole at started ⊢
  split
  · exact .pure (ends _ started)
  · split
    · exact .throw
    · rename_i walked
      refine .after fun _ => .pure (ends _ fun segment last => ?_)
      rw [walk_getLast? walked]
      split
      · exact started segment last
      · rw [List.getLast?_append, started segment last, Option.some_or]

end Scope

namespace Field

variable {Q : Type}

/-- What of a field can be told from what it was before its names were resolved. -/
structure Becomes (before after : Field Q) : Prop where
  column : ∀ path segment, before.kind = .column path → path.getLast? = some segment →
    ∃ object : Path, after.kind = .column (object ++ [segment])
  constant : after.IsConstant → before.IsConstant
  aliasName : (∀ path, after.kind ≠ .fieldSet path) → after.aliasName = before.aliasName
  isColumn : after.kind.isColumn = before.kind.isColumn

theorem becomes_self {field : Field Q} (other : field.kind.isColumn = false) :
    field.Becomes field where
  column path segment kind := by
    rw [kind] at other
    cases other
  constant := id
  aliasName _ := rfl
  isColumn := rfl

/-- A call stays one, or it becomes the field set that it stands for. -/
theorem becomes_of_call {before after : Field Q} {name : String} {arguments : List (Field Q)}
    (kind : before.kind = .call name arguments) (constant : ¬after.IsConstant)
    (other : after.kind.isColumn = false)
    (aliasName : (∀ path, after.kind ≠ .fieldSet path) → after.aliasName = before.aliasName) :
    before.Becomes after where
  column path segment column := by
    rw [kind] at column
    cases column
  constant given := absurd given constant
  aliasName := aliasName
  isColumn := by
    rw [other, kind]
    rfl

theorem resolveColumn_becomes (use : FieldUse) {path : Path} {field : Field Q}
    (kind : field.kind = .column path) :
    Step.Yields (fun _ => True) (field.resolveColumn use path) field.Becomes := by
  refine resolveColumn_yields (Scope.qualify_ends use.registers path) (fun empty => ?_)
    fun scope qualified _ ends _ => ?_
  · refine ⟨fun other segment same last => ?_, id, fun _ => rfl, rfl⟩
    cases kind.symm.trans same
    rw [empty] at last
    cases last
  · refine ⟨fun other segment same last => ?_,
      fun constant => absurd constant (not_isConstant_of_isColumn rfl), fun _ => rfl,
      by rw [kind]; rfl⟩
    cases kind.symm.trans same
    obtain ⟨object, rfl⟩ := ends segment last
    exact ⟨object, rfl⟩

theorem resolving_becomes :
    Resolving (fun _ : Scope Q => True) (fun _ _ => True) fun _ => Becomes where
  mention _ _ _ := trivial
  count _ _ _ _ _ _ := trivial
  arguments _ _ _ _ := trivial
  column _ kind := resolveColumn_becomes _ kind
  fieldSet _ kind := resolveFieldSet_yields fun _ =>
    becomes_of_call kind (by simp [IsConstant]) rfl fun other => absurd rfl (other _)
  call _ kind _ := resolveCall_yields fun _ =>
    becomes_of_call kind (not_isConstant_of_isCall rfl) rfl fun _ => rfl
  unchanged _ other _ := becomes_self other

/-- The alias of a selected field leads to it, unless it has become a field set. -/
theorem Labels.find? {fields resolved : List (Field Q)} {selected : SelectAliases Q}
    (labels : Labels resolved selected) (becomes : List.Forall₂ Becomes fields resolved)
    {index : Nat} {item : Field Q} (present : fields[index]? = some item) {aliasName : String}
    (named : item.aliasName = some aliasName) :
    ∃ field, resolved[index]? = some field ∧ ((∀ path, field.kind ≠ .fieldSet path) →
      selected.find? (lowerText aliasName) = some field) := by
  obtain ⟨field, found, becomes⟩ := becomes.exists_getElem? present
  exact ⟨field, found, fun other => labels.listed field (List.mem_of_getElem? found) aliasName
    ((becomes.aliasName other).trans named)⟩

/-- A key whose column is found in the primary object gives way to the field with this alias. -/
theorem getD_selectedFor? {selected : SelectAliases Q} {depth : Nat} {before key field : Field Q}
    (becomes : before.Becomes key) {name : String} (kind : before.kind = .column [name])
    (found : selected.find? (lowerText name) = some field) :
    (selectedFor? selected depth key).getD key = field ∨
      ∃ object : Path, ((selectedFor? selected depth key).getD key).kind =
        .column (object ++ [name]) ∧ object.length ≠ depth := by
  obtain ⟨object, column⟩ := becomes.column [name] name kind rfl
  by_cases own : object.length = depth
  · refine .inl ?_
    subst own
    simp [selectedFor?, column, FieldKind.path?, found]
  · refine .inr ⟨object, ?_, own⟩
    simp [selectedFor?, column, FieldKind.path?, own]

end Field

namespace OrderKey

theorem resolve_named {Q : Type} (use : FieldUse) (selected : SelectAliases Q)
    (order : OrderKey Q) :
    Step.Yields (fun _ => True) (order.resolve use selected) fun resolved =>
      ∀ name field, order.field.kind = .column [name] →
        selected.find? (lowerText name) = some field → resolved.field = field := by
  refine resolve_yields
    (fun resolved => ∀ name field, order.field.kind = .column [name] →
      selected.find? (lowerText name) = some field → resolved = field)
    (fun other resolved names found name field kind same => ?_)
    fun unnamed => Step.Yields.whatever.mono fun _ _ name field kind same => ?_
  · rw [kind] at names
    cases names
    exact Option.some_inj.1 (found.symm.trans same)
  · rw [unnamed name (by rw [kind]; rfl)] at same
    cases same

end OrderKey

namespace Statement

variable {Q : Type} {statement : Statement Q}

/-- The name is the alias of the selected field at the index, letter case aside. -/
def Aliases (statement : Statement Q) (name : String) (index : Nat) : Prop :=
  ∃ item aliasName, statement.fields[index]? = some item ∧ item.aliasName = some aliasName ∧
    lowerText aliasName = lowerText name

/--
What of a statement can be told from what it was before its names were resolved.
Names of keys that are aliases of selected fields stand for these, but for field
sets, which lose their aliases. A key of groups does not if its column is found
in an object whose path is longer or shorter than that of the primary object.
-/
structure Traced (before after : Statement Q) : Prop where
  filter : before.ComparesFields → after.ComparesFields
  groupBy : ∀ (place : Nat) (key : Field Q) (name : String) (index : Nat),
    before.groupBy[place]? = some key → key.kind = .column [name] → before.Aliases name index →
    ∃ field, after.fields[index]? = some field ∧ ((∀ path, field.kind ≠ .fieldSet path) →
      ∃ entry, after.groupBy[place]? = some entry ∧ (entry = field ∨
        ∃ object : Path, entry.kind = .column (object ++ [name]) ∧
          object.length ≠ after.primary.length))
  orderBy : ∀ (place : Nat) (order : OrderKey Q) (name : String) (index : Nat),
    before.orderBy[place]? = some order → order.field.kind = .column [name] →
    before.Aliases name index →
    ∃ field, after.fields[index]? = some field ∧ ((∀ path, field.kind ≠ .fieldSet path) →
      ∃ entry, after.orderBy[place]? = some entry ∧ entry.field = field)

theorem resolve_traced (place : QueryPlace) (primary : Path)
    (filtered : Condition.IsFilter statement.filter) (grouped : Condition.IsFilter statement.having)
    {before : Scope Q} (nonempty : before.objects ≠ []) :
    Step.Meets (statement.resolve place primary) before
      (fun result _ => statement.Traced result.1) CompileError.IsSemantic := by
  refine (resolve_course place primary filtered grouped before).mono ?_
  rintro _ _ ⟨course, rfl, rfl⟩
  have sourced := (Scope.resolveObjects_meets place primary nonempty).of_ok course.sources
  have keeps := course.keeps Scope.lasting_startsAt (Scope.exists_startsAt sourced)
  generalize course.sourced.primary = start at keeps
  obtain ⟨groups, _⟩ := Field.resolving_becomes.resolveAll _ statement.groupBy
    (fun _ _ => trivial) trivial course.groups
  obtain ⟨becomes, _⟩ := course.forall₂_fields
    (fun field _ => Field.resolving_becomes.resolveUnlessNested _ field trivial) trivial
  obtain ⟨conditions, _⟩ := course.forall₂_filter
    (fun field _ => Field.resolving_becomes.resolveUnlessNested _ field trivial) trivial
  obtain ⟨orders, _⟩ := course.forall₂_orderBy
    (fun order _ => OrderKey.resolve_named _ course.selected order) trivial
  have selects {index : Nat} {field : Field Q} (present : course.fields[index]? = some field)
      (added : List (Field Q)) : (course.fields ++ added)[index]? = some field := by
    rw [List.getElem?_append_left (List.getElem?_eq_some_iff.1 present).1, present]
  refine ⟨?_, ?_, ?_⟩
  · intro compares
    exact (compares.distribute course.distributes.settled).of_related conditions
      (fun _ _ becomes => mt becomes.constant) fun _ _ _ _ => trivial
  · rintro place key name index present kind ⟨item, aliasName, given, named, same⟩
    obtain ⟨field, found, finds⟩ := course.labels.find? becomes given named
    refine ⟨field, selects found _, fun other => ?_⟩
    obtain ⟨resolved, listed, keyBecomes⟩ := groups.exists_getElem? present
    refine ⟨(Field.selectedFor? course.selected start.length resolved).getD resolved, ?_, ?_⟩
    · change course.groupBy[place]? = _
      rw [course.groupBy_eq, Scope.primary_of_startsAt keeps.selecting, List.getElem?_map, listed,
        Option.map_some]
    · rw [course.primary_resolved keeps.ordering]
      exact Field.getD_selectedFor? keyBecomes kind (same ▸ finds other)
  · rintro place order name index present kind ⟨item, aliasName, given, named, same⟩
    obtain ⟨field, found, finds⟩ := course.labels.find? becomes given named
    refine ⟨field, selects found _, fun other => ?_⟩
    obtain ⟨resolved, listed, gives⟩ := orders.exists_getElem? present
    exact ⟨resolved, listed, gives name field kind (same ▸ finds other)⟩

end Statement

end ObjectQuery
