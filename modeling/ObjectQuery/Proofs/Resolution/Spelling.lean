import ObjectQuery.Proofs.Alignment
import ObjectQuery.Proofs.Parallel
import ObjectQuery.Proofs.Query.Likeness
import ObjectQuery.Resolution.Statement

namespace ObjectQuery

/-!
Names are resolved alike, however they are spelled: they are looked up by their
keys, and what is found differs in spellings at most.
-/

/-- The texts show names that differ in spellings at most. -/
def Respelling.Shows (spelling : Respelling) (text other : String) : Prop :=
  spelling.IsExact → text = other

/-- Faults of one kind, which differ in the names they show at most. -/
inductive SemanticError.Respelled (spelling : Respelling) : SemanticError → SemanticError → Prop where
  | qualifiedPrimaryObject {name other : String} (names : spelling.Shows name other) :
      SemanticError.Respelled spelling (.qualifiedPrimaryObject name)
        (.qualifiedPrimaryObject other)
  | duplicateObjectAlias {name other : String} (names : spelling.Shows name other) :
      SemanticError.Respelled spelling (.duplicateObjectAlias name) (.duplicateObjectAlias other)
  | duplicateFieldAlias {name other : String} (names : spelling.Shows name other) :
      SemanticError.Respelled spelling (.duplicateFieldAlias name) (.duplicateFieldAlias other)
  | ancestorSelection {name other primary also : String} (names : spelling.Shows name other)
      (primaries : spelling.Shows primary also) :
      SemanticError.Respelled spelling (.ancestorSelection name primary)
        (.ancestorSelection other also)
  | siblingSelection {name other primary also : String} (names : spelling.Shows name other)
      (primaries : spelling.Shows primary also) :
      SemanticError.Respelled spelling (.siblingSelection name primary)
        (.siblingSelection other also)
  | unregisteredObject {name other primary also : String} (names : spelling.Shows name other)
      (primaries : spelling.Shows primary also) :
      SemanticError.Respelled spelling (.unregisteredObject name primary)
        (.unregisteredObject other also)
  | ungroupedField {name other : String} (names : spelling.Shows name other) :
      SemanticError.Respelled spelling (.ungroupedField name) (.ungroupedField other)
  | havingWithoutGroupBy {name other : String} (names : spelling.Shows name other) :
      SemanticError.Respelled spelling (.havingWithoutGroupBy name) (.havingWithoutGroupBy other)
  | functionNotAllowed {name other : String} (names : spelling.Shows name other)
      (place : CallPlace) :
      SemanticError.Respelled spelling (.functionNotAllowed name place)
        (.functionNotAllowed other place)
  | invalidArguments {name other : String} (names : spelling.Shows name other)
      (fault : ArgumentFault) :
      SemanticError.Respelled spelling (.invalidArguments name fault)
        (.invalidArguments other fault)
  | unknownFieldSetTarget {name other : String} (names : spelling.Shows name other) :
      SemanticError.Respelled spelling (.unknownFieldSetTarget name) (.unknownFieldSetTarget other)
  | ancestorNotFound {name other : String} (names : spelling.Shows name other) :
      SemanticError.Respelled spelling (.ancestorNotFound name) (.ancestorNotFound other)
  | duplicateGroupKey {name other : String} (names : spelling.Shows name other) :
      SemanticError.Respelled spelling (.duplicateGroupKey name) (.duplicateGroupKey other)
  | duplicateOrderKey {name other : String} (names : spelling.Shows name other) :
      SemanticError.Respelled spelling (.duplicateOrderKey name) (.duplicateOrderKey other)
  | nestingTooDeep (depth limit : Nat) :
      SemanticError.Respelled spelling (.nestingTooDeep depth limit) (.nestingTooDeep depth limit)

variable {Q : Type} {spelling : Respelling} {queries : Q → Q → Prop}

theorem Respelling.shows_of_allows {name other : String} (same : spelling.allows name other) :
    spelling.Shows name other :=
  fun exact => exact same

theorem Path.Respelled.shows {path other : Path} (same : path.Respelled spelling other) :
    spelling.Shows path.render other.render :=
  fun exact => congrArg Path.render (same.eq exact)

/-- What is known of queries that differ in spellings at most, while names are resolved. -/
structure Scope.Respelled (spelling : Respelling) (queries : Q → Q → Prop) (scope other : Scope Q) :
    Prop where
  objects : List.Forall₂ (SourceObject.Respelled spelling queries) scope.objects other.objects
  aliases : scope.aliases.Related (Path.Respelled spelling) other.aliases
  isAggregation : scope.isAggregation = other.isAggregation
  mentions : scope.mentions = other.mentions

/-- Steps that resolve alike what differs in spellings at most. -/
abbrev Resolver.Alike (spelling : Respelling) (queries : Q → Q → Prop) {α β : Type}
    (first : Resolver Q α) (second : Resolver Q β) (values : α → β → Prop) : Prop :=
  Step.Parallel (Scope.Respelled spelling queries) (SemanticError.Respelled spelling)
    (fun _ => False) first second values

namespace Scope.Respelled

variable {scope other : Scope Q}

theorem primary (same : scope.Respelled spelling queries other) :
    scope.primary.Respelled spelling other.primary := by
  have objects := same.objects
  unfold Scope.primary
  generalize scope.objects = list at objects ⊢
  generalize other.objects = others at objects ⊢
  cases objects with
  | nil => exact .nil
  | cons first _ => exact first.path

theorem name (same : scope.Respelled spelling queries other) (key : String) {path also : Path}
    (paths : path.Respelled spelling also) :
    (scope.name key path).Respelled spelling queries (other.name key also) :=
  { same with aliases := same.aliases.insert key paths }

theorem register (same : scope.Respelled spelling queries other) {path also : Path}
    (paths : path.Respelled spelling also) :
    (scope.register path).Respelled spelling queries (other.register also) := by
  have named := same.name path.key paths
  unfold Scope.register
  rw [← paths.key_eq]
  exact { named with
    objects := List.rel_append same.objects
      (.cons ⟨paths, .none, rfl, rfl, rfl, rfl, rfl, .none⟩ .nil) }

theorem expandFirst (same : scope.Respelled spelling queries other) {path also : Path}
    (paths : path.Respelled spelling also) :
    (scope.expandFirst path).Respelled spelling (other.expandFirst also) := by
  unfold Scope.expandFirst
  rw [paths.leadingKey_eq 1]
  rcases (same.aliases.find? (also.leadingKey 1)).elim with
    ⟨none, noneToo⟩ | ⟨found, alsoFound, some, someToo, alike⟩
  · rw [none, noneToo]
    exact paths
  · rw [some, someToo]
    exact List.rel_append alike (List.forall₂_drop 1 paths)

end Scope.Respelled

inductive Walk.Respelled (spelling : Respelling) (queries : Q → Q → Prop) : Walk Q → Walk Q → Prop where
  | arrived {path also : Path} {scope other : Scope Q} (paths : path.Respelled spelling also)
      (scopes : scope.Respelled spelling queries other) :
      Walk.Respelled spelling queries (.arrived path scope) (.arrived also other)
  | unregistered : Walk.Respelled spelling queries .unregistered .unregistered
  | endless : Walk.Respelled spelling queries .endless .endless

namespace Scope.Respelled

variable {scope other : Scope Q}

theorem walkWithin (registers : Bool) (steps index : Nat) {path also : Path}
    (paths : path.Respelled spelling also) (same : scope.Respelled spelling queries other) :
    (Scope.walkWithin registers steps index path scope).Respelled spelling queries
      (Scope.walkWithin registers steps index also other) := by
  induction steps generalizing index path also scope other with
  | zero => exact .endless
  | succ steps induction =>
      have beginning : Path.Respelled spelling (path.take (index + 1)) (also.take (index + 1)) :=
        List.forall₂_take _ paths
      unfold Scope.walkWithin
      rw [paths.length_eq]
      split
      · dsimp only
        rw [beginning.key_eq]
        rcases (same.aliases.find? (Path.key (also.take (index + 1)))).elim with
          ⟨none, noneToo⟩ | ⟨found, alsoFound, some, someToo, alike⟩
        · rw [none, noneToo]
          dsimp only
          split
          · exact induction _ paths (same.register beginning)
          · exact .unregistered
        · rw [some, someToo]
          exact induction _ (List.rel_append alike (List.forall₂_drop _ paths)) same
      · exact .arrived paths same

theorem walkBound_eq {aliases also : AliasMap}
    (same : aliases.Related (Path.Respelled spelling) also) {path other : Path}
    (paths : path.Respelled spelling other) :
    walkBound aliases path = walkBound also other := by
  refine same.entries.foldr Eq (by rw [paths.length_eq]) ?_
  rintro entry other bound _ ⟨key, value⟩ rfl
  rw [key, value.length_eq]

theorem walk (registers : Bool) {path also : Path} (paths : path.Respelled spelling also)
    (same : scope.Respelled spelling queries other) :
    Option.Rel (fun reached alsoReached => Path.Respelled spelling reached.1 alsoReached.1 ∧
      Scope.Respelled spelling queries reached.2 alsoReached.2)
      (Scope.walk registers path scope) (Scope.walk registers also other) := by
  have walks := walkWithin registers (walkBound other.aliases also) 0 paths same
  unfold Scope.walk
  rw [walkBound_eq same.aliases paths]
  generalize Scope.walkWithin registers _ 0 path scope = first at walks ⊢
  generalize Scope.walkWithin registers _ 0 also other = second at walks ⊢
  cases walks with
  | arrived paths scopes => exact .some ⟨paths, scopes⟩
  | unregistered => exact .none
  | endless => exact .some ⟨paths, same⟩

theorem withLast {path also : Path} (paths : path.Respelled spelling also) {segment last : String}
    (names : spelling.allows segment last) :
    Path.Respelled spelling (path.withLast segment) (also.withLast last) := by
  cases paths with
  | nil => exact .nil
  | cons first rest =>
      exact List.rel_append (List.Forall₂.cons first rest).dropLast (.cons names .nil)

theorem nameObject (same : scope.Respelled spelling queries other) {path also : Path}
    (paths : path.Respelled spelling also) {aliasName alsoName : Option String}
    (names : Option.Rel spelling.allows aliasName alsoName) :
    (scope.nameObject path aliasName).Respelled spelling queries
      (other.nameObject also alsoName) := by
  have named := same.name path.key paths
  unfold Scope.nameObject
  rw [← paths.key_eq]
  cases names with
  | none => exact named
  | some names =>
      have known := spelling.lowerText_eq names
      dsimp only
      rw [known, (withLast paths names).key_eq]
      exact (named.name _ paths).name _ paths

/-- The path of a column from the primary object on, where it is the name of the column alone. -/
theorem started (same : scope.Respelled spelling queries other) {path also : Path}
    (paths : path.Respelled spelling also) :
    Path.Respelled spelling (if path.length = 1 then scope.primary ++ path else path)
      (if also.length = 1 then other.primary ++ also else also) := by
  rw [paths.length_eq]
  split
  · exact List.rel_append same.primary paths
  · exact paths

theorem resolveObject (same : scope.Respelled spelling queries other)
    {object also : SourceObject Q} (objects : object.Respelled spelling queries also) :
    (scope.resolveObject object).1.Respelled spelling queries (other.resolveObject also).1 ∧
      (scope.resolveObject object).2.Respelled spelling queries (other.resolveObject also).2 := by
  have expanded := same.expandFirst objects.path
  have walked := (walk true expanded same).getD (scope.expandFirst object.path, scope)
    (other.expandFirst also.path, other) ⟨expanded, same⟩
  exact ⟨{ objects with path := walked.1, key := walked.1.key_eq },
    walked.2.nameObject walked.1 objects.aliasName⟩

end Scope.Respelled

namespace SourceObject

open Step (Parallel)

theorem qualify_respelled {aliases alsoAliases : AliasMap}
    (known : aliases.Related (Path.Respelled spelling) alsoAliases) {primary also : Path}
    (paths : primary.Respelled spelling also) {object other : SourceObject Q}
    (same : object.Respelled spelling queries other) :
    (object.qualify aliases primary).Respelled spelling queries
      (other.qualify alsoAliases also) := by
  unfold qualify
  rw [same.path.leadingKey_eq 1, known.contains_eq]
  split
  · exact same
  · exact { same with path := List.rel_append paths same.path }

theorem addAlias_alike (used : SortedSet String) {aliasName also : Option String}
    (names : Option.Rel spelling.allows aliasName also) :
    Resolver.Alike spelling queries (addAlias used aliasName) (addAlias used also) Eq := by
  cases names with
  | none => exact .pure rfl
  | some names =>
      unfold addAlias
      dsimp only
      rw [spelling.lowerText_eq names]
      exact .ite Iff.rfl
        (fun _ _ => .throw (.duplicateObjectAlias (Respelling.shows_of_allows names)))
        fun _ _ => .pure rfl

theorem resolveAll_alike {primary also : Path} (paths : primary.Respelled spelling also)
    (ownPrimary : Bool) (used : SortedSet String) {objects others : List (SourceObject Q)}
    (same : List.Forall₂ (SourceObject.Respelled spelling queries) objects others) :
    Resolver.Alike spelling queries (resolveAll primary ownPrimary used objects)
      (resolveAll also ownPrimary used others)
      (List.Forall₂ (SourceObject.Respelled spelling queries)) := by
  induction same generalizing ownPrimary used with
  | nil => exact .pure .nil
  | @cons object other _ _ first _ induction =>
      unfold resolveAll
      refine Parallel.get.bind fun scope scopeToo scopes => ?_
      have qualified : Respelled spelling queries
          (if ownPrimary then object else object.qualify scope.aliases primary)
          (if ownPrimary then other else other.qualify scopeToo.aliases also) := by
        split
        · exact first
        · exact qualify_respelled scopes.aliases paths first
      obtain ⟨resolved, after⟩ := scopes.resolveObject qualified
      refine (Parallel.set after).bind fun _ _ _ => ?_
      refine (addAlias_alike used resolved.aliasName).bind ?_
      rintro used _ rfl
      exact (induction false used).bind fun _ _ rest => .pure (.cons resolved rest)

end SourceObject

namespace Scope

open Step (Parallel)

theorem resolveObjects_alike (place : QueryPlace) {primary also : Path}
    (paths : primary.Respelled spelling also) :
    Resolver.Alike (Q := Q) spelling queries (resolveObjects place primary)
      (resolveObjects place also) fun _ _ => True := by
  refine Parallel.get.bind fun declared declaredToo scopes => ?_
  refine .modify_bind (fun _ _ same => { same with objects := .nil }) ?_
  refine (SourceObject.resolveAll_alike paths _ _ scopes.objects).bind fun _ _ resolved => ?_
  exact Parallel.modify fun _ _ same =>
    { same with objects := List.rel_append resolved same.objects }

theorem qualify_alike (registers : Bool) {path also : Path} (paths : path.Respelled spelling also) :
    Resolver.Alike (Q := Q) spelling queries (qualify registers path) (qualify registers also)
      (Path.Respelled spelling) := by
  refine Parallel.get.bind fun scope other scopes => ?_
  have primaries := scopes.primary
  have started := scopes.started paths
  dsimp only
  generalize (if path.length = 1 then scope.primary ++ path else path) = first at started ⊢
  generalize (if also.length = 1 then other.primary ++ also else also) = second at started ⊢
  have parents : Path.Respelled spelling (Path.parent first) (Path.parent second) :=
    started.dropLast
  have names := (List.Forall₂.getLast? started).toList
  rw [parents.key_eq, started.leadingKey_eq 1, scopes.aliases.contains_eq]
  rcases (scopes.aliases.find? (Path.key (Path.parent second))).elim with
    ⟨none, noneToo⟩ | ⟨found, alsoFound, some, someToo, alike⟩
  · have walked : Path.Respelled spelling
        (if other.aliases.contains (second.leadingKey 1) then first else scope.primary ++ first)
        (if other.aliases.contains (second.leadingKey 1) then second
          else other.primary ++ second) := by
      split
      · exact started
      · exact List.rel_append primaries started
    rw [none, noneToo]
    dsimp only
    rcases (scopes.walk registers walked).elim with
      ⟨none, noneToo⟩ | ⟨⟨reached, after⟩, ⟨alsoReached, alsoAfter⟩, some, someToo, ends, scopes⟩
    · rw [none, noneToo]
      exact .throw (.unregisteredObject paths.shows primaries.shows)
    · rw [some, someToo]
      refine (Parallel.set scopes).bind fun _ _ _ => .pure ?_
      have parents : Path.Respelled spelling (Path.parent reached) (Path.parent alsoReached) :=
        ends.dropLast
      rw [parents.key_eq]
      exact List.rel_append ((scopes.aliases.find? _).getD _ _ parents)
        (List.Forall₂.getLast? ends).toList
  · rw [some, someToo]
    exact .pure (List.rel_append alike names)

end Scope

namespace Field

open Step (Parallel)

theorem resolveColumn_alike (use : FieldUse) {path also : Path}
    (paths : path.Respelled spelling also) {field other : Field Q}
    (same : field.Respelled spelling queries other) :
    Resolver.Alike spelling queries (field.resolveColumn use path) (other.resolveColumn use also)
      (Field.Respelled spelling queries) := by
  have empty : path.isEmpty = also.isEmpty := by
    cases paths <;> rfl
  refine .ite (by rw [empty]) (fun _ _ => .pure same) fun _ _ => ?_
  refine (Scope.qualify_alike _ paths).bind fun qualified alsoQualified names => ?_
  refine Parallel.get.bind fun scope scopeToo scopes => ?_
  have primaries := scopes.primary
  have resolved : Field.Respelled spelling queries
      { field with kind := .column qualified, key := qualified.key }
      { other with kind := .column alsoQualified, key := alsoQualified.key } :=
    .intro (.column names) same.aliasName same.notSelected_eq same.aggregated_eq names.key_eq
      same.columnId_eq same.columnIndex_eq
  have keys := Grouping.isKey_eq use.groupKeys primaries resolved
  refine .ite Iff.rfl (fun _ _ => ?_) fun _ _ =>
    .guarded (by rw [scopes.isAggregation, keys]) (.ungroupedField names.shows) (.pure resolved)
  refine .guarded (by rw [names.length_eq, primaries.length_eq])
    (.ancestorSelection names.shows primaries.shows) ?_
  refine .guarded (by rw [names.startsWith_eq primaries])
    (.siblingSelection names.shows primaries.shows) ?_
  exact .guarded (by rw [scopes.isAggregation, keys]) (.ungroupedField names.shows) (.pure resolved)

theorem countFault?_eq (function : String) {arguments others : List (Field Q)}
    (same : List.Forall₂ (Field.Respelled spelling queries) arguments others) :
    countFault? function arguments = countFault? function others := by
  have isName : arguments.head?.all (·.kind.isColumn) = others.head?.all (·.kind.isColumn) := by
    cases same with
    | nil => rfl
    | cons first _ => exact first.kind.isColumn_eq
  unfold countFault?
  rw [same.length_eq, isName]

theorem resolveFieldSet_alike {name alsoName : String} (names : spelling.allows name alsoName)
    {arguments others : List (Field Q)}
    (same : List.Forall₂ (Field.Respelled spelling queries) arguments others)
    {field other : Field Q} (fields : field.Respelled spelling queries other) :
    Resolver.Alike spelling queries (field.resolveFieldSet name arguments)
      (other.resolveFieldSet alsoName others) (Field.Respelled spelling queries) := by
  have shows := Respelling.shows_of_allows names
  unfold resolveFieldSet
  rcases same with _ | @⟨argument, alsoArgument, _, _, first, _ | _⟩
  · exact .throw (.invalidArguments shows _)
  · have kinds := first.kind
    dsimp only
    generalize argument.kind = kind at kinds ⊢
    generalize alsoArgument.kind = alsoKind at kinds ⊢
    cases kinds with
    | column paths =>
        cases paths with
        | nil => exact .throw (.invalidArguments shows _)
        | @cons segment alsoSegment rest alsoRest alike later =>
            have paths : Path.Respelled spelling (segment :: rest) (alsoSegment :: alsoRest) :=
              .cons alike later
            refine Parallel.get.bind fun scope scopeToo scopes => ?_
            have started := scopes.started paths
            generalize (if (segment :: rest).length = 1 then scope.primary ++ segment :: rest
              else segment :: rest) = start at started ⊢
            generalize (if (alsoSegment :: alsoRest).length = 1
              then scopeToo.primary ++ alsoSegment :: alsoRest
              else alsoSegment :: alsoRest) = alsoStart at started ⊢
            have parents : Path.Respelled spelling (Path.parent start) (Path.parent alsoStart) :=
              started.dropLast
            rw [parents.key_eq]
            rcases (scopes.aliases.find? (Path.key (Path.parent alsoStart))).elim with
              ⟨none, noneToo⟩ | ⟨found, alsoFound, some, someToo, objects⟩
            · rw [none, noneToo]
              exact .throw (.unknownFieldSetTarget started.shows)
            · have qualified : Path.Respelled spelling (found ++ start.getLast?.toList)
                  (alsoFound ++ alsoStart.getLast?.toList) :=
                List.rel_append objects (List.Forall₂.getLast? started).toList
              rw [some, someToo]
              exact .pure (.intro (.fieldSet qualified) .none fields.notSelected_eq
                fields.aggregated_eq qualified.key_eq fields.columnId_eq fields.columnIndex_eq)
    | _ => exact .throw (.invalidArguments shows _)
  · exact .throw (.invalidArguments shows _)

theorem resolveCall_alike (use : FieldUse) (function : String) {name alsoName : String}
    (names : spelling.allows name alsoName) {arguments others : List (Field Q)}
    (same : List.Forall₂ (Field.Respelled spelling queries) arguments others)
    {field other : Field Q} (fields : field.Respelled spelling queries other) :
    Resolver.Alike spelling queries (field.resolveCall use function name arguments)
      (other.resolveCall use function alsoName others) (Field.Respelled spelling queries) := by
  have resolved (aggregated : Bool) : Field.Respelled spelling queries
      { field with kind := .call name arguments, aggregated }
      { other with kind := .call alsoName others, aggregated } :=
    .intro (.call names same) fields.aliasName fields.notSelected_eq rfl fields.key_eq
      fields.columnId_eq fields.columnIndex_eq
  refine Parallel.get.bind fun scope scopeToo scopes => ?_
  refine .ite (by rw [scopes.isAggregation]) (fun _ _ => ?_) fun _ _ =>
    .pure (fields.withKind (.call names same))
  dsimp only
  have ungrouped := same.find?
    (fun argument => argument.kind.isColumn && argument.key != "" &&
      !Grouping.isKey use.groupKeys scope.primary argument)
    (fun argument => argument.kind.isColumn && argument.key != "" &&
      !Grouping.isKey use.groupKeys scopeToo.primary argument) fun argument also alike => by
        rw [alike.kind.isColumn_eq, alike.key_eq, Grouping.isKey_eq _ scopes.primary alike]
  rw [Grouping.takesColumns_eq same]
  rcases ungrouped.elim with ⟨none, noneToo⟩ | ⟨found, alsoFound, some, someToo, alike⟩
  · rw [none, noneToo]
    exact .pure (resolved _)
  · rw [some, someToo]
    have paths := alike.kind.path?.getD [] [] .nil
    exact .guarded Iff.rfl (.ungroupedField paths.shows) (.pure (resolved _))

theorem addFunction_eq {name other : String} (names : spelling.allows name other)
    (mentions : Mentions) : mentions.addFunction name = mentions.addFunction other := by
  unfold Mentions.addFunction
  rw [spelling.lowerText_eq names]

theorem addParameter_eq {name other : String} (names : spelling.allows name other)
    (mentions : Mentions) : mentions.addParameter name = mentions.addParameter other := by
  unfold Mentions.addParameter
  rw [spelling.lowerText_eq names]

theorem addItems_eq (mentions : Mentions) {items others : List ListItem}
    (same : List.Forall₂ (ListItem.Respelled spelling) items others) :
    mentions.addItems items = mentions.addItems others := by
  refine same.foldl Eq rfl ?_
  rintro mentions _ item other rfl alike
  cases alike with
  | literal => rfl
  | parameter names =>
      exact addParameter_eq names _
  | relativeDate => rfl

theorem mention_alike (mention alsoMention : Mentions → Mentions)
    (same : ∀ mentions, mention mentions = alsoMention mentions) {field other : Field Q}
    (fields : field.Respelled spelling queries other) :
    Resolver.Alike spelling queries
      (do
        modify fun scope => { scope with mentions := mention scope.mentions }
        return field)
      (do
        modify fun scope => { scope with mentions := alsoMention scope.mentions }
        return other)
      (Field.Respelled spelling queries) :=
  .modify_bind (fun _ _ scopes => { scopes with mentions := by rw [scopes.mentions, same] })
    (.pure fields)

mutual

theorem resolve_alike (use : FieldUse) : (field other : Field Q) →
    field.Respelled spelling queries other →
    Resolver.Alike spelling queries (field.resolve use) (other.resolve use)
      (Field.Respelled spelling queries)
  | ⟨kind, _, _, _, _, _, _⟩, ⟨also, _, _, _, _, _, _⟩, same => by
      unfold resolve
      exact resolveKind_alike use kind also _ _ same.kind same

theorem resolveKind_alike (use : FieldUse) : (kind also : FieldKind Q) → (field other : Field Q) →
    kind.Respelled spelling queries also → field.Respelled spelling queries other →
    Resolver.Alike spelling queries (resolveKind use kind field) (resolveKind use also other)
      (Field.Respelled spelling queries)
  | .column path, _, field, other, .column paths, same => by
      unfold resolveKind
      exact resolveColumn_alike use paths same
  | .call name arguments, _, field, other, @FieldKind.Respelled.call _ _ _ _ alsoName _ others names
      alike, same => by
      have shows := Respelling.shows_of_allows names
      have called : Resolver.Alike spelling queries
          (do
            let arguments ← resolveAll use.ofArguments arguments
            field.resolveCall use (lowerText alsoName) name arguments)
          (do
            let arguments ← resolveAll use.ofArguments others
            other.resolveCall use (lowerText alsoName) alsoName arguments)
          (Field.Respelled spelling queries) :=
        (resolveAll_alike use.ofArguments arguments others alike).bind fun _ _ resolved =>
          resolveCall_alike use _ names resolved same
      unfold resolveKind
      rw [spelling.lowerText_eq names]
      refine .modify_bind (fun _ _ scopes => { scopes with
        mentions := by rw [scopes.mentions, addFunction_eq names] }) ?_
      refine Parallel.get.bind fun scope scopeToo scopes => ?_
      rw [scopes.isAggregation]
      dsimp only
      split
      · exact .throw_bind (.functionNotAllowed shows _)
      · refine .ite Iff.rfl (fun _ _ => resolveFieldSet_alike names alike same) fun _ _ => ?_
        rw [countFault?_eq _ alike]
        split
        · exact .throw_bind (.invalidArguments shows _)
        · exact .modify_if Iff.rfl (fun _ _ scopes => { scopes with isAggregation := rfl }) called
  | .fieldSet _, _, field, other, .fieldSet _, same => by
      unfold resolveKind
      refine .ite Iff.rfl (fun _ _ => .throw (.functionNotAllowed (fun _ => rfl) _)) fun _ _ => ?_
      exact .ite Iff.rfl (fun _ _ => .pure same) fun _ _ =>
        .throw (.functionNotAllowed (fun _ => rfl) _)
  | .parameter name, _, field, other, .parameter names, same => by
      unfold resolveKind
      exact mention_alike _ _ (addParameter_eq names) same
  | .relativeDate date, _, field, other, .relativeDate _, same => by
      unfold resolveKind
      exact mention_alike (·.addRelativeDate date) _ (fun _ => rfl) same
  | .literal (.list items), _, field, other, .literal (.list alike), same => by
      unfold resolveKind
      exact mention_alike _ _ (fun mentions => addItems_eq mentions alike) same
  | .literal value, _, field, other, .literal (.same _), same => by
      cases value with
      | list items =>
          unfold resolveKind
          exact mention_alike (·.addItems items) _ (fun _ => rfl) same
      | _ =>
          unfold resolveKind
          exact .pure same
  | .subquery _, _, field, other, .subquery _, same => by
      unfold resolveKind
      exact .pure same

theorem resolveAll_alike (use : FieldUse) : (fields others : List (Field Q)) →
    List.Forall₂ (Field.Respelled spelling queries) fields others →
    Resolver.Alike spelling queries (resolveAll use fields) (resolveAll use others)
      (List.Forall₂ (Field.Respelled spelling queries))
  | [], _, .nil => .pure .nil
  | field :: rest, _, .cons first later => by
      unfold resolveAll
      exact (resolve_alike use field _ first).bind fun _ _ resolved =>
        (resolveAll_alike use rest _ later).bind fun _ _ others => .pure (.cons resolved others)

end

end Field

end ObjectQuery
