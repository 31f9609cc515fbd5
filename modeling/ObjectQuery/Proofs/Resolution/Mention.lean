import ObjectQuery.Proofs.Query.Mention
import ObjectQuery.Proofs.Resolution.Kept

namespace ObjectQuery

/-!
Resolving a statement records the names of functions, parameters and relative
dates in it, and no others. Those in nested queries are not looked at here.
-/

/-- The name in the letter case in which names of its kind are recorded. -/
def Mention.folded : Mention → Mention
  | function name => function (lowerText name)
  | parameter name => parameter (lowerText name)
  | relativeDate keyword => relativeDate (upperText keyword)

/-- Names of a kind, in the letter case in which names of this kind are recorded. -/
theorem Mention.mem_folded_iff {make : String → Mention} {fold : String → String}
    (folds : ∀ mention name, mention.folded = make name ↔
      ∃ written, mention = make written ∧ fold written = name)
    {mentions : List Mention} {name : String} :
    make name ∈ mentions.map folded ↔ ∃ written, make written ∈ mentions ∧ fold written = name := by
  rw [List.mem_map]
  constructor
  · rintro ⟨mention, member, same⟩
    obtain ⟨written, rfl, folded⟩ := (folds mention name).1 same
    exact ⟨written, member, folded⟩
  · rintro ⟨written, member, same⟩
    exact ⟨make written, member, (folds _ name).2 ⟨written, rfl, same⟩⟩

namespace Mentions

/-- The name is recorded, as it is given. -/
def Holds (mentions : Mentions) : Mention → Prop
  | .function name => SortedMap.contains mentions.functions name = true
  | .parameter name => SortedMap.contains mentions.parameters name = true
  | .relativeDate keyword => SortedMap.contains mentions.relativeDates keyword = true

/-- These names are recorded in addition, and no others. -/
def Gains (before : Mentions) (gained : List Mention) (after : Mentions) : Prop :=
  ∀ mention, after.Holds mention ↔ before.Holds mention ∨ mention ∈ gained.map Mention.folded

namespace Gains

variable {before middle after : Mentions} {gained more : List Mention}

theorem refl (mentions : Mentions) : mentions.Gains [] mentions := by
  simp [Gains]

theorem trans (first : before.Gains gained middle) (second : middle.Gains more after) :
    before.Gains (gained ++ more) after := by
  intro mention
  rw [second mention, first mention, List.map_append, List.mem_append, or_assoc]

theorem congr (gains : before.Gains gained after)
    (same : ∀ mention, mention ∈ more ↔ mention ∈ gained) : before.Gains more after := by
  intro mention
  rw [gains mention, List.mem_map, List.mem_map]
  simp only [same]

end Gains

theorem gains_function (mentions : Mentions) (name : String) :
    mentions.Gains [.function name] (mentions.addFunction name) := by
  intro mention
  cases mention with
  | function other =>
      simp only [Holds, addFunction, SortedSet.contains_add, List.map_cons, List.map_nil,
        Mention.folded, List.mem_singleton, Mention.function.injEq]
      rw [or_comm, eq_comm (a := other)]
  | parameter _ | relativeDate _ => simp [Holds, addFunction, Mention.folded]

theorem gains_parameter (mentions : Mentions) (name : String) :
    mentions.Gains [.parameter name] (mentions.addParameter name) := by
  intro mention
  cases mention with
  | parameter other =>
      simp only [Holds, addParameter, SortedSet.contains_add, List.map_cons, List.map_nil,
        Mention.folded, List.mem_singleton, Mention.parameter.injEq]
      rw [or_comm, eq_comm (a := other)]
  | function _ | relativeDate _ => simp [Holds, addParameter, Mention.folded]

theorem gains_relativeDate (mentions : Mentions) (date : RelativeDate) :
    mentions.Gains [.relativeDate date.keyword] (mentions.addRelativeDate date) := by
  intro mention
  cases mention with
  | relativeDate other =>
      simp only [Holds, addRelativeDate, SortedSet.contains_add, List.map_cons, List.map_nil,
        Mention.folded, List.mem_singleton, Mention.relativeDate.injEq]
      rw [or_comm, eq_comm (a := other)]
  | function _ | parameter _ => simp [Holds, addRelativeDate, Mention.folded]

theorem gains_parameters (mentions : Mentions) (names : List String) :
    mentions.Gains (names.map .parameter) (names.foldl addParameter mentions) := by
  induction names generalizing mentions with
  | nil => exact .refl mentions
  | cons name rest induction => exact (mentions.gains_parameter name).trans (induction _)

theorem gains_items (mentions : Mentions) {items : List ListItem}
    (flat : (Literal.list items).IsFlat) :
    mentions.Gains (Literal.list items).mentions (mentions.addItems items) := by
  rw [Literal.mentions]
  induction items generalizing mentions with
  | nil => exact .refl mentions
  | cons item rest induction =>
      obtain ⟨first, others⟩ := List.forall_mem_cons.1 flat
      have own : mentions.Gains item.mentions (mentions.addItems [item]) := by
        cases item with
        | literal value =>
            rw [first.mentions_literal]
            exact .refl mentions
        | parameter name => exact mentions.gains_parameter name
        | relativeDate date => exact mentions.gains_relativeDate date
      exact own.trans (induction _ others)

end Mentions

namespace Scope

variable {ε Q α β : Type}

/-- Where the step succeeds, it has recorded these names in addition, and no others. -/
def Gathers (step : EStateM ε (Scope Q) α) (gained : List Mention) : Prop :=
  ∀ ⦃before value after⦄, step before = .ok value after →
    before.mentions.Gains gained after.mentions

namespace Gathers

variable {step first second : EStateM ε (Scope Q) α} {next : α → EStateM ε (Scope Q) β}
  {gained more : List Mention}

theorem pure {value : α} : Gathers (Pure.pure value : EStateM ε (Scope Q) α) [] := by
  rintro before _ _ ⟨⟩
  exact .refl _

theorem bind (gathers : Gathers step gained) (later : ∀ value, Gathers (next value) more) :
    Gathers (step >>= next) (gained ++ more) := by
  intro before value after run
  change EStateM.bind step next before = _ at run
  unfold EStateM.bind at run
  split at run
  · exact (gathers ‹_›).trans (later _ run)
  · cases run

/-- A step that records nothing. -/
theorem after (quiet : Gathers step []) (later : ∀ value, Gathers (next value) more) :
    Gathers (step >>= next) more :=
  quiet.bind later

theorem map (gathers : Gathers step gained) {result : α → β} :
    Gathers (step >>= fun value => Pure.pure (result value)) gained := by
  have returns (value : α) : Gathers (Pure.pure (result value) : EStateM ε (Scope Q) β) [] := pure
  simpa using gathers.bind returns

theorem throw {error : ε} : Gathers (MonadExcept.throw error : EStateM ε (Scope Q) α) gained := by
  rintro before _ _ ⟨⟩

theorem get : Gathers (MonadState.get : EStateM ε (Scope Q) (Scope Q)) [] := by
  rintro before _ _ ⟨⟩
  exact .refl _

theorem mention {change : Mentions → Mentions}
    (gains : ∀ mentions : Mentions, mentions.Gains gained (change mentions)) :
    Gathers (modify fun scope => { scope with mentions := change scope.mentions } :
      EStateM ε (Scope Q) PUnit) gained := by
  rintro before _ _ ⟨⟩
  exact gains before.mentions

theorem quiet {change : Scope Q → Scope Q}
    (same : ∀ scope : Scope Q, (change scope).mentions = scope.mentions) :
    Gathers (modify change : EStateM ε (Scope Q) PUnit) [] := by
  rintro before _ _ ⟨⟩
  exact same before ▸ .refl _

theorem ite {condition : Prop} [Decidable condition] (yes : condition → Gathers first gained)
    (no : ¬condition → Gathers second gained) :
    Gathers (if condition then first else second) gained := by
  split
  · exact yes ‹_›
  · exact no ‹_›

/-- A change of the scope that may be made, and that records nothing. -/
theorem optional {condition : Prop} [Decidable condition] {change : Scope Q → Scope Q}
    {next : PUnit → EStateM ε (Scope Q) α}
    (same : ∀ scope : Scope Q, (change scope).mentions = scope.mentions)
    (later : Gathers (next ⟨⟩) gained) :
    Gathers (if condition then modify change >>= next else next ⟨⟩) gained :=
  ite (fun _ => after (quiet same) fun _ => later) fun _ => later

theorem mapM {step : α → EStateM ε (Scope Q) β} {list : List α} {gained : α → List Mention}
    (each : ∀ value ∈ list, Gathers (step value) (gained value)) :
    Gathers (list.mapM step) (list.flatMap gained) := by
  induction list with
  | nil => exact pure
  | cons value rest induction =>
      obtain ⟨first, others⟩ := List.forall_mem_cons.1 each
      rw [List.mapM_cons, List.flatMap_cons]
      exact first.bind fun _ => (induction others).map

theorem throw_bind {error : ε} {next : α → EStateM ε (Scope Q) β} :
    Gathers (MonadExcept.throw error >>= next) gained := by
  rintro before _ _ ⟨⟩

theorem of_yields
    (keeps : ∀ mentions,
      Step.Yields (fun scope : Scope Q => scope.mentions = mentions) step fun _ => True) :
    Gathers step [] := by
  intro before value after run
  rw [(keeps before.mentions rfl run).2]
  exact .refl _

theorem congr (gathers : Gathers step gained)
    (same : ∀ mention, mention ∈ more ↔ mention ∈ gained) : Gathers step more :=
  fun _ _ _ run => (gathers run).congr same

end Gathers

end Scope

namespace Field

open Scope (Gathers)

variable {Q : Type}

theorem qualify_keeps_mentions (mentions : Mentions) (registers : Bool) (path : Path) :
    Step.Yields (fun scope : Scope Q => scope.mentions = mentions) (Scope.qualify registers path)
      fun _ => True :=
  Scope.qualify_yields (fun _ _ _ same => same) registers path

/-- The argument of a field set is a column, in which there are no names but its path. -/
theorem resolveFieldSet_gathers (name : String) (arguments : List (Field Q)) (field : Field Q) :
    Gathers (field.resolveFieldSet name arguments) (allMentions (fun _ => []) arguments) := by
  have quiet : Gathers (field.resolveFieldSet name arguments) [] :=
    .of_yields fun _ => resolveFieldSet_yields fun _ => trivial
  unfold resolveFieldSet at quiet ⊢
  split
  · rename_i argument
    split
    · rename_i first rest kind
      have none : allMentions (fun _ => []) [argument] = [] := by
        rw [allMentions_eq_flatMap, List.flatMap_singleton, mentions_eq, kind, FieldKind.mentions]
      rw [none]
      simpa only [kind] using quiet
    · exact .throw
  · exact .throw

mutual

theorem resolve_gathers (use : FieldUse) : (field : Field Q) → field.IsFlat →
    Gathers (field.resolve use) field.ownMentions
  | ⟨kind, _, _, _, _, _, _⟩, flat => by
      unfold resolve
      exact resolveKind_gathers use kind _ flat rfl

theorem resolveKind_gathers (use : FieldUse) : (kind : FieldKind Q) → (field : Field Q) →
    kind.IsFlat → field.kind = kind → Gathers (resolveKind use kind field)
      (kind.mentions fun _ => [])
  | .column path, field, _, same => by
      unfold resolveKind
      exact .of_yields fun mentions => resolveColumn_yields
        (qualify_keeps_mentions mentions use.registers path) (fun _ => trivial)
        fun _ _ _ _ _ => trivial
  | .call name arguments, field, flat, same => by
      unfold resolveKind
      have called : Gathers (do
          let arguments ← resolveAll use.ofArguments arguments
          field.resolveCall use (lowerText name) name arguments)
          (allMentions (fun _ => []) arguments) := by
        have call (resolved : List (Field Q)) :
            Gathers (field.resolveCall use (lowerText name) name resolved) [] :=
          .of_yields fun _ => resolveCall_yields fun _ => trivial
        simpa using (resolveAll_gathers use.ofArguments arguments flat).bind call
      refine (Gathers.mention fun mentions => mentions.gains_function name).bind fun _ => ?_
      refine Gathers.get.after fun scope => ?_
      dsimp only
      split
      · exact .throw_bind
      · refine .ite (fun _ => resolveFieldSet_gathers name arguments field) fun _ => ?_
        · split
          · exact .throw_bind
          · refine .ite (fun _ => ?_) fun _ => called
            exact .after (.quiet fun _ => rfl) fun _ => called
  | .fieldSet path, field, _, same => by
      unfold resolveKind
      exact .ite (fun _ => .throw) fun _ => .ite (fun _ => .pure) fun _ => .throw
  | .parameter name, field, _, same => by
      unfold resolveKind
      exact (Gathers.mention fun mentions => mentions.gains_parameter name).map
  | .relativeDate date, field, _, same => by
      unfold resolveKind
      exact (Gathers.mention fun mentions => mentions.gains_relativeDate date).map
  | .literal value, field, flat, same => by
      cases value with
      | list items =>
          unfold resolveKind
          exact (Gathers.mention fun mentions => mentions.gains_items flat).map
      | _ =>
          unfold resolveKind
          exact .pure
  | .subquery query, field, _, same => by
      unfold resolveKind
      exact .pure

theorem resolveAll_gathers (use : FieldUse) : (fields : List (Field Q)) → AreFlat fields →
    Gathers (resolveAll use fields) (allMentions (fun _ => []) fields)
  | [], _ => .pure
  | field :: rest, ⟨⟨_, flat⟩, others⟩ => by
      unfold resolveAll
      exact (resolve_gathers use field flat).bind fun _ =>
        (resolveAll_gathers use rest others).map

end

theorem resolveUnlessNested_gathers (use : FieldUse) {field : Field Q} (flat : field.IsFlat) :
    Gathers (resolveUnlessNested use field) field.ownMentions := by
  refine .ite (fun isSubquery => ?_) fun _ => resolve_gathers use field flat
  have none : field.ownMentions = [] := by
    rw [ownMentions, mentions_eq]
    cases kind : field.kind <;> simp [kind, FieldKind.isSubquery] at isSubquery
    rfl
  rw [none]
  exact .pure

theorem ownMentions_of_path? {field : Field Q} {path : Path} (named : field.kind.path? = some path) :
    field.ownMentions = [] := by
  rw [ownMentions, mentions_eq]
  cases kind : field.kind <;> rw [kind] at named <;> first | rfl | cases named

theorem addAlias_gathers (selected : SelectAliases Q) (field : Field Q) :
    Gathers (addAlias selected field) [] :=
  .of_yields fun _ => addAlias_yields selected field

theorem resolveSelected_gathers (use : FieldUse) (selected : SelectAliases Q)
    {fields : List (Field Q)} (flat : ∀ field ∈ fields, field.IsFlat) :
    Gathers (resolveSelected use selected fields) (fields.flatMap ownMentions) := by
  induction fields generalizing selected with
  | nil => exact .pure
  | cons field rest induction =>
      obtain ⟨first, others⟩ := List.forall_mem_cons.1 flat
      rw [resolveSelected_cons, List.flatMap_cons]
      refine (resolveUnlessNested_gathers use first).bind fun resolved => ?_
      refine (addAlias_gathers selected resolved).after fun selected => ?_
      exact (induction selected others).map

theorem resolveConditions_gathers (use : FieldUse) {conditions : List (Condition (Field Q))}
    (flat : ∀ field ∈ conditions.filterMap Condition.operand?, field.IsFlat) :
    Gathers (resolveConditions use conditions)
      ((conditions.filterMap Condition.operand?).flatMap ownMentions) := by
  induction conditions with
  | nil => exact .pure
  | cons entry rest induction =>
      cases entry with
      | operand field =>
          obtain ⟨first, others⟩ := List.forall_mem_cons.1 flat
          rw [resolveConditions_cons]
          exact (resolveUnlessNested_gathers use first).bind fun _ => (induction others).map
      | noop | unknown | operator op => exact (induction flat).map

end Field

namespace OrderKey

open Scope (Gathers)

/-- A sort key that names a selected field is a column, in which there are no other names. -/
theorem resolve_gathers {Q : Type} (use : FieldUse) (selected : SelectAliases Q)
    {order : OrderKey Q} (flat : order.field.IsFlat) :
    Gathers (order.resolve use selected) order.field.ownMentions := by
  unfold resolve
  dsimp only
  split
  · rename_i field named
    split at named
    · rename_i path
      rw [Field.ownMentions_of_path? path]
      exact .pure
    · cases named
  · exact (Field.resolve_gathers use order.field flat).map

end OrderKey

namespace Scope

variable {Q : Type}

theorem mentions_resolveObject (scope : Scope Q) (object : SourceObject Q) :
    (scope.resolveObject object).2.mentions = scope.mentions := by
  unfold resolveObject nameObject
  have walked : ((scope.walk true (scope.expandFirst object.path)).getD
      (scope.expandFirst object.path, scope)).2.mentions = scope.mentions := by
    cases found : scope.walk true (scope.expandFirst object.path) with
    | none => rfl
    | some reached =>
        obtain ⟨path, after⟩ := reached
        let same (other : Scope Q) : Prop := other.mentions = scope.mentions
        have keeps : same after := walk_keeps (fun _ _ _ kept => kept) rfl found
        exact keeps
  cases object.aliasName <;> exact walked

end Scope

namespace SourceObject

open Scope (Gathers)

variable {Q : Type}

theorem addAlias_gathers (used : SortedSet String) (aliasName : Option String) :
    Gathers (addAlias used aliasName : Resolver Q (SortedSet String)) [] := by
  unfold addAlias
  split
  · exact .pure
  · exact .ite (fun _ => .throw) fun _ => .pure

theorem resolveAll_gathers (primary : Path) (ownPrimary : Bool) (used : SortedSet String)
    (objects : List (SourceObject Q)) :
    Gathers (resolveAll primary ownPrimary used objects) [] := by
  induction objects generalizing ownPrimary used with
  | nil => exact .pure
  | cons object rest induction =>
      have later (object : SourceObject Q) : Gathers (do
          let used ← addAlias used object.aliasName
          return object :: (← resolveAll primary false used rest)) [] :=
        (addAlias_gathers used object.aliasName).after fun used => (induction false used).map
      intro before resolved after run
      have kept := before.mentions_resolveObject
        (if ownPrimary then object else object.qualify before.aliases primary)
      exact kept ▸ later _ run

end SourceObject

namespace Scope

variable {Q : Type}

theorem resolveObjects_gathers (place : QueryPlace) (primary : Path) :
    Gathers (resolveObjects place primary : Resolver Q Unit) [] := by
  refine Gathers.get.after fun scope => .after (.quiet fun _ => rfl) fun _ => ?_
  exact (SourceObject.resolveAll_gathers primary _ .empty scope.objects).after fun _ =>
    .quiet fun _ => rfl

end Scope

namespace Statement

open Scope (Gathers)

variable {Q : Type}

theorem semantic_gathers {α : Type} {resolver : Resolver Q α} {gained : List Mention}
    (gathers : Gathers resolver gained) : Gathers (semantic resolver) gained := by
  intro before value after run
  unfold semantic EStateM.adaptExcept at run
  split at run
  · cases run
  · cases run
    exact gathers ‹_›

theorem exists_distribute {conditions : List (Condition (Field Q))}
    (filter : Condition.IsFilter conditions) : ∃ distributed,
      distribute conditions = (pure distributed : Resolving Q (List (Condition (Field Q)))) ∧
      distributed.filterMap Condition.operand? = conditions.filterMap Condition.operand? := by
  obtain ⟨distributed, settled, _, operands⟩ := filter.distribute
  refine ⟨distributed, ?_, operands⟩
  rw [distribute, settled]

theorem resolveConditions_gathers (use : FieldUse)
    {conditions distributed : List (Condition (Field Q))}
    (operands : distributed.filterMap Condition.operand? = conditions.filterMap Condition.operand?)
    (flat : ∀ field ∈ conditions.filterMap Condition.operand?, field.IsFlat) :
    Gathers (semantic (Field.resolveConditions use distributed))
      ((conditions.filterMap Condition.operand?).flatMap Field.ownMentions) := by
  rw [← operands] at flat ⊢
  exact semantic_gathers (Field.resolveConditions_gathers use flat)

theorem resolveHaving_gathers (use : FieldUse) (primary : Path) (grouped : Bool)
    {having : List (Condition (Field Q))} (filter : Condition.IsFilter having)
    (flat : ∀ field ∈ having.filterMap Condition.operand?, field.IsFlat) :
    Gathers (resolveHaving use primary grouped having)
      ((having.filterMap Condition.operand?).flatMap Field.ownMentions) := by
  refine .ite (fun isEmpty => ?_) fun _ => ?_
  · rw [List.isEmpty_iff.1 isEmpty]
    exact .pure
  · obtain ⟨distributed, settled, operands⟩ := exists_distribute filter
    rw [settled, pure_bind]
    exact .ite (fun _ => .throw_bind) fun _ => resolveConditions_gathers use operands flat

/-- The names in the clauses of a statement are recorded, clause by clause. -/
theorem resolve_gathers (place : QueryPlace) (primary : Path) {statement : Statement Q}
    (filtered : Condition.IsFilter statement.filter) (grouped : Condition.IsFilter statement.having)
    (flat : statement.IsFlat) :
    Gathers (statement.resolve place primary)
      (statement.everyField.flatMap Field.ownMentions) := by
  obtain ⟨fields, filter, groupBy, having, orderBy⟩ := forall_everyField_iff.1 flat.fields
  obtain ⟨groupKeys, _⟩ := List.forall_mem_append.1 flat.keys
  have keys : Field.AreFlat statement.groupBy :=
    Field.areFlat_iff.2 fun key member => ⟨groupKeys key member, groupBy key member⟩
  obtain ⟨distributed, settled, operands⟩ := exists_distribute filtered
  have clauses : Gathers (statement.resolve place primary)
      (Field.allMentions (fun _ => []) statement.groupBy ++
        (statement.fields.flatMap Field.ownMentions ++
          ((statement.filter.filterMap Condition.operand?).flatMap Field.ownMentions ++
            ((statement.having.filterMap Condition.operand?).flatMap Field.ownMentions ++
              statement.orderBy.flatMap (·.field.ownMentions))))) := by
    refine (semantic_gathers (Scope.resolveObjects_gathers place primary)).after fun _ => ?_
    refine (semantic_gathers (Field.resolveAll_gathers _ statement.groupBy keys)).bind
      fun resolvedKeys => ?_
    refine .optional (fun _ => rfl) ?_
    refine (semantic_gathers (Field.resolveSelected_gathers _ .empty fields)).bind
      fun selected => ?_
    refine Gathers.get.after fun scope => ?_
    obtain ⟨replaced, groupKeys⟩ := Field.replaceKeys selected.2 _ _ resolvedKeys
    dsimp only
    rw [settled, pure_bind]
    refine (resolveConditions_gathers _ operands filter).bind fun resolvedFilter => ?_
    refine (resolveHaving_gathers _ primary _ grouped having).bind fun resolvedHaving => ?_
    have orders := Gathers.mapM fun order member =>
      OrderKey.resolve_gathers { place := .orderBy, groupKeys } selected.2 (orderBy order member)
    rw [← List.append_nil (statement.orderBy.flatMap _)]
    exact (semantic_gathers orders).bind fun _ => Gathers.get.map
  refine clauses.congr fun mention => ?_
  have shown : Field.ownMentions = Field.mentions fun _ : Q => [] := rfl
  simp only [everyField, List.flatMap_append, List.flatMap_map, List.mem_append,
    Field.allMentions_eq_flatMap, ← shown]
  tauto

end Statement

end ObjectQuery
