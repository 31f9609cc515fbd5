import ObjectQuery.Proofs.Query.Named
import ObjectQuery.Proofs.Resolution.Nested
import ObjectQuery.Proofs.Resolution.Walk

namespace ObjectQuery

/-!
Resolved columns belong to objects that are known. Each has the key of its path,
and the path goes on from that of an object.
-/

namespace Path

variable {Q : Type} {known : Path → Prop} {before after : List (SourceObject Q)}

/-- The path of a column under its key, which goes on from the path of an object. -/
structure FoundIn (known : Path → Prop) (objects : List (SourceObject Q)) (path : Path)
    (key : String) : Prop where
  plain : path.Plain
  key : key = path.key
  parent : path.parent.LocatedIn known objects

theorem FoundIn.mono {path : Path} {key : String} (found : path.FoundIn known before key)
    (keeps : before ⊆ after) : path.FoundIn known after key :=
  { found with parent := found.parent.mono keeps }

/-- The parent of a path is located where the shorter beginnings of the path are known. -/
theorem parent_locatedIn {path : Path} (plain : path.Plain) (long : 2 ≤ path.length)
    (within : ∀ length, 0 < length → length < path.length → Within known after (path.take length)) :
    path.parent.LocatedIn known after := by
  rw [parent, List.dropLast_eq_take, show path.length - 1 = path.length - 2 + 1 by omega]
  refine ⟨plain.take _, fun length positive => ?_⟩
  rw [List.take_take]
  exact within _ (by omega) (by omega)

/-- A column of an object that is known, under the last segment of a path. -/
theorem foundIn_append {object path : Path} (located : object.LocatedIn known after)
    (reached : path.Plain) :
    FoundIn known after (object ++ path.getLast?.toList)
      (Path.key (object ++ path.getLast?.toList)) := by
  rw [List.getLast?_eq_some_getLast reached.1]
  have parent : Path.parent (object ++ [path.getLast reached.1]) = object :=
    List.dropLast_concat
  have column : Path.Plain (object ++ [path.getLast reached.1]) :=
    located.plain.append (by simpa using reached.2 _ (List.getLast_mem reached.1))
  exact ⟨column, rfl, parent.symm ▸ located⟩

end Path

namespace Scope

variable {Q : Type} {known : Path → Prop} {before after : Scope Q}

theorem primary_plain (sound : before.Sound known) (nonempty : before.objects ≠ []) :
    before.primary.Plain := by
  unfold primary
  split
  · exact absurd ‹_› nonempty
  · rename_i object rest objects
    exact (sound.objects object (by simp [objects])).1.plain

theorem append_primary (sound : before.Sound known) (nonempty : before.objects ≠ []) {path : Path}
    (plain : path.Plain) :
    Path.Plain (before.primary ++ path) ∧ 2 ≤ (before.primary ++ path).length := by
  have primary := primary_plain sound nonempty
  refine ⟨primary.append plain.2, ?_⟩
  have first := List.length_pos_iff.2 primary.1
  have second := List.length_pos_iff.2 plain.1
  rw [List.length_append]
  omega

/-- The path of a column from the primary object on, where it is the name of the column alone. -/
theorem started_plain (sound : before.Sound known) (nonempty : before.objects ≠ []) {path : Path}
    (plain : path.Plain) :
    Path.Plain (if path.length = 1 then before.primary ++ path else path) ∧
      2 ≤ (if path.length = 1 then before.primary ++ path else path).length := by
  split
  · exact append_primary sound nonempty plain
  · have length := List.length_pos_iff.2 plain.1
    exact ⟨plain, by omega⟩

theorem qualify_meets (registers : Bool) {path : Path} (sound : before.Sound known)
    (nonempty : before.objects ≠ []) (plain : path.Plain) :
    Step.Meets (qualify registers path) before fun qualified after =>
      Leads known before after ∧ qualified.FoundIn known after.objects qualified.key := by
  refine .get_bind ?_
  obtain ⟨startedPlain, startedLong⟩ := started_plain sound nonempty plain
  dsimp only
  generalize (if path.length = 1 then before.primary ++ path else path) = started
    at startedPlain startedLong ⊢
  split
  · rename_i object found
    exact .pure ⟨.refl sound, Path.foundIn_append (sound.aliases _ _ found).2 startedPlain⟩
  · have walked : Path.Plain (if before.aliases.contains (started.leadingKey 1) then started
          else before.primary ++ started) ∧
        2 ≤ (if before.aliases.contains (started.leadingKey 1) then started
          else before.primary ++ started).length := by
      split
      · exact ⟨startedPlain, startedLong⟩
      · exact append_primary sound nonempty startedPlain
    obtain ⟨walkedPlain, walkedLong⟩ := walked
    split
    · exact .throw trivial
    · rename_i reached scope arrives
      obtain ⟨leads, reachedPlain, long, within⟩ := walk_arrives sound walkedPlain arrives
      have located := Path.parent_locatedIn reachedPlain (by omega) within
      refine .set_bind (.pure ⟨leads, Path.foundIn_append ?_ reachedPlain⟩)
      cases found : scope.aliases.find? (Path.key reached.parent) with
      | none => exact located
      | some object => exact (leads.sound.aliases _ _ found).2

end Scope

namespace Field

open Scope (Leads)

variable {Q : Type} {known : Path → Prop} {before after : Scope Q}

/-- The columns and field sets in the field are found. -/
def Located (known : Path → Prop) (objects : List (SourceObject Q)) (field : Field Q) : Prop :=
  AllNamed (Path.FoundIn known objects) field.named

theorem Located.mono {objects others : List (SourceObject Q)} {field : Field Q}
    (located : field.Located known objects) (keeps : objects ⊆ others) :
    field.Located known others :=
  AllNamed.mono located fun _ _ found => found.mono keeps

theorem located_named {path : Path} {field : Field Q} (kind : field.kind.path? = some path)
    (finds : path.FoundIn known after.objects field.key) : field.Located known after.objects := by
  rw [Located, named_of_path? kind]
  intro named member other same
  cases List.mem_singleton.1 member
  cases kind.symm.trans same
  exact finds

theorem located_of_names_nothing {field : Field Q} (names : kindNamed field.kind field = []) :
    field.Located known after.objects := by
  rw [Located, named_eq, names]
  exact fun _ impossible => by cases impossible

theorem resolveColumn_meets (use : FieldUse) {path : Path} (field : Field Q)
    (sound : before.Sound known) (nonempty : before.objects ≠ []) (plain : path.Plain) :
    Step.Meets (field.resolveColumn use path) before fun resolved after =>
      Leads known before after ∧ resolved.Located known after.objects := by
  refine .ite (fun empty => absurd (List.isEmpty_iff.1 empty) plain.1) fun _ => ?_
  refine (Scope.qualify_meets _ sound nonempty plain).bind ?_
  rintro qualified after ⟨leads, finds⟩
  refine .get_bind ?_
  have resolved : ({ field with kind := .column qualified, key := qualified.key } :
      Field Q).Located known after.objects := located_named rfl finds
  refine .ite (fun _ => ?_) fun _ => .guarded (fun _ => trivial) fun _ => .pure ⟨leads, resolved⟩
  refine .guarded (fun _ => trivial) fun _ => .guarded (fun _ => trivial) fun _ => ?_
  exact .guarded (fun _ => trivial) fun _ => .pure ⟨leads, resolved⟩

theorem resolveFieldSet_meets (name : String) (arguments : List (Field Q)) (field : Field Q)
    (sound : before.Sound known) (nonempty : before.objects ≠ [])
    (plain : AllRead (fun path _ => path.Plain) (allColumns arguments)) :
    Step.Meets (field.resolveFieldSet name arguments) before fun resolved after =>
      Leads known before after ∧ resolved.Located known after.objects := by
  unfold resolveFieldSet
  split
  · split
    · rename_i argument _ first rest kind
      have reads : argument ∈ allColumns [argument] := by
        rw [allColumns, columns_eq, kind]
        exact List.mem_append_left _ (List.mem_singleton_self _)
      have started := Scope.started_plain sound nonempty (plain argument reads _ kind)
      refine .get_bind ?_
      dsimp only
      split
      · exact .throw trivial
      · rename_i object found
        have finds := Path.foundIn_append (sound.aliases _ _ found).2 started.1
        exact .pure ⟨.refl sound, located_named rfl finds⟩
    · exact .throw trivial
  · exact .throw trivial

theorem resolveCall_meets (use : FieldUse) (function name : String) {arguments : List (Field Q)}
    (field : Field Q)
    (located : AllNamed (Path.FoundIn known before.objects) (allNamed arguments)) :
    Step.Meets (field.resolveCall use function name arguments) before fun resolved after =>
      after = before ∧ resolved.Located known after.objects := by
  have resolved (aggregated : Bool) :
      ({ field with kind := .call name arguments, aggregated } : Field Q).Located known
        before.objects :=
    located
  refine .get_bind (.ite (fun _ => ?_) fun _ => .pure ⟨rfl, resolved _⟩)
  dsimp only
  split
  · exact .guarded (fun _ => trivial) fun _ => .pure ⟨rfl, resolved _⟩
  · exact .pure ⟨rfl, resolved _⟩

mutual

theorem resolve_meets (use : FieldUse) : (field : Field Q) → {before : Scope Q} →
    before.Sound known → before.objects ≠ [] →
    AllRead (fun path _ => path.Plain) field.columns →
    (use.isArgument = true ∨ ∀ path, field.kind ≠ .fieldSet path) →
    Step.Meets (field.resolve use) before fun resolved after =>
      Leads known before after ∧ resolved.Located known after.objects
  | ⟨kind, _, _, _, _, _, _⟩, before, sound, nonempty, plain, noFieldSet => by
      unfold resolve
      exact resolveKind_meets use kind _ rfl sound nonempty plain noFieldSet

theorem resolveKind_meets (use : FieldUse) : (kind : FieldKind Q) → (field : Field Q) →
    field.kind = kind → {before : Scope Q} → before.Sound known → before.objects ≠ [] →
    AllRead (fun path _ => path.Plain) (kindColumns kind field) →
    (use.isArgument = true ∨ ∀ path, kind ≠ .fieldSet path) →
    Step.Meets (resolveKind use kind field) before fun resolved after =>
      Leads known before after ∧ resolved.Located known after.objects
  | .column path, field, same, before, sound, nonempty, plain, _ => by
      unfold resolveKind
      exact resolveColumn_meets use field sound nonempty
        (plain field (List.mem_singleton_self _) path same)
  | .call name arguments, field, same, before, sound, nonempty, plain, _ => by
      have called {before : Scope Q} (sound : before.Sound known) (nonempty : before.objects ≠ []) :
          Step.Meets (do
            let arguments ← resolveAll use.ofArguments arguments
            field.resolveCall use (lowerText name) name arguments) before fun resolved after =>
              Leads known before after ∧ resolved.Located known after.objects := by
        refine (resolveAll_meets use.ofArguments arguments sound nonempty plain (.inl rfl)).bind ?_
        rintro resolved after ⟨leads, located⟩
        have names : AllNamed (Path.FoundIn known after.objects) (allNamed resolved) := by
          intro named member
          obtain ⟨argument, given, own⟩ := mem_allNamed.1 member
          exact located argument given named own
        refine (resolveCall_meets use _ name field names).mono ?_
        rintro called _ ⟨rfl, found⟩
        exact ⟨leads, found⟩
      have mentioning := Scope.leads_mention sound before.isAggregation
        (before.mentions.addFunction name)
      have counting := Scope.leads_mention sound true (before.mentions.addFunction name)
      unfold resolveKind
      refine .modify_bind (.get_bind ?_)
      dsimp only
      split
      · exact .throw_bind trivial
      · refine .ite (fun _ => ?_) fun _ => ?_
        · refine (resolveFieldSet_meets name arguments field mentioning.sound nonempty
            plain).mono ?_
          rintro resolved after ⟨leads, located⟩
          exact ⟨mentioning.trans leads, located⟩
        · split
          · exact .throw_bind trivial
          · refine .ite (fun _ => .modify_bind ?_) fun _ => ?_
            · refine (called counting.sound nonempty).mono ?_
              rintro resolved after ⟨leads, located⟩
              exact ⟨counting.trans leads, located⟩
            · refine (called mentioning.sound nonempty).mono ?_
              rintro resolved after ⟨leads, located⟩
              exact ⟨mentioning.trans leads, located⟩
  | .fieldSet path, field, same, before, sound, nonempty, plain, noFieldSet => by
      unfold resolveKind
      refine .ite (fun _ => .throw trivial) fun noArgument => ?_
      exact absurd rfl ((noFieldSet.resolve_left noArgument) path)
  | .parameter name, field, same, before, sound, nonempty, plain, _
  | .relativeDate date, field, same, before, sound, nonempty, plain, _ => by
      unfold resolveKind
      refine .modify_bind (.pure ⟨Scope.leads_mention sound _ _, ?_⟩)
      exact located_of_names_nothing (by simp [same, kindNamed])
  | .literal value, field, same, before, sound, nonempty, plain, _ => by
      have located {scope : Scope Q} : field.Located known scope.objects :=
        located_of_names_nothing (by simp [same, kindNamed])
      cases value with
      | list items =>
          unfold resolveKind
          exact .modify_bind (.pure ⟨Scope.leads_mention sound _ _, located⟩)
      | _ =>
          unfold resolveKind
          exact .pure ⟨.refl sound, located⟩
  | .subquery query, field, same, before, sound, nonempty, plain, _ => by
      unfold resolveKind
      exact .pure ⟨.refl sound,
        located_of_names_nothing (by simp [same, kindNamed])⟩

theorem resolveAll_meets (use : FieldUse) : (fields : List (Field Q)) → {before : Scope Q} →
    before.Sound known → before.objects ≠ [] →
    AllRead (fun path _ => path.Plain) (allColumns fields) →
    (use.isArgument = true ∨ ∀ field ∈ fields, ∀ path, field.kind ≠ .fieldSet path) →
    Step.Meets (resolveAll use fields) before fun resolved after =>
      Leads known before after ∧ ∀ field ∈ resolved, field.Located known after.objects
  | [], before, sound, _, _, _ => .pure ⟨.refl sound, by simp⟩
  | field :: rest, before, sound, nonempty, plain, noFieldSet => by
      unfold resolveAll
      simp only [allColumns, allRead_append] at plain
      simp only [List.forall_mem_cons] at noFieldSet
      refine (resolve_meets use field sound nonempty plain.1 (noFieldSet.imp_right And.left)).bind ?_
      rintro first middle ⟨leads, located⟩
      refine (resolveAll_meets use rest leads.sound (leads.objects_ne_nil nonempty) plain.2
        (noFieldSet.imp_right And.right)).bind ?_
      rintro others after ⟨more, locatedToo⟩
      refine .pure ?_
      exact ⟨leads.trans more,
        List.forall_mem_cons.2 ⟨located.mono more.objects.subset, locatedToo⟩⟩

end

end Field

end ObjectQuery
