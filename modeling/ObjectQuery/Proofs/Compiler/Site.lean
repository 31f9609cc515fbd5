import ObjectQuery.Proofs.Plan.Place
import ObjectQuery.Proofs.Resolution.Primary

namespace ObjectQuery

/-!
Where a query is compiled: what is known there of names and of the query around
it, and what follows for the objects and columns of the query itself.
-/

namespace Site

/-- Names from around the query stand for plain paths, and columns are fetched by their keys. -/
structure Sound (site : Site) : Prop where
  inherits : Scope.Inherits (fun _ => True) site.aliases
  source : ∀ parent ∈ site.source, parent.Supplied

/-- Only a list of related rows knows objects of the query around it. -/
def Knows (site : Site) (_ : Path) : Prop :=
  site.place = .select

theorem Sound.knows {site : Site} (sound : site.Sound) :
    Scope.Inherits site.Knows site.aliases := by
  intro name path found
  obtain ⟨named, plain, _⟩ := sound.inherits name path found
  refine ⟨named, plain, fun _ => ?_⟩
  unfold aliases at found
  split at found
  · assumption
  · cases found

theorem sound_list {depth : Nat} {aliases : AliasMap} {parent : Statement Query}
    (inherits : Scope.Inherits (fun _ => True) aliases) (supplied : parent.Supplied) :
    Sound ⟨.select, depth, aliases, some parent⟩ where
  inherits := inherits
  source := by
    rintro statement ⟨⟩
    exact supplied

theorem sound_alone {site : Site} (alone : site.place ≠ .select) : site.Sound where
  inherits := by
    rw [aliases, if_neg alone]
    exact Scope.inherits_empty _
  source := by
    rw [source, if_neg alone]
    rintro statement ⟨⟩

end Site

namespace Statement

open Correlation (Extends)

variable {site : Site} {statement own : Statement Query} {aliases : AliasMap}
  {around : Option (Statement Query)} {before after : Session}

/--
A statement that stands alone. Its objects lead on from the first, which has a
single name, and its columns and field sets belong to these.
-/
structure SelfContained (statement : Statement Query) : Prop where
  arranged : ∃ start : Path, start.length = 1 ∧ Arranged start (statement.objects.map (·.path))
  objects : ∀ object ∈ statement.objects,
    object.path.LocatedIn (fun _ => False) statement.objects ∧ object.key = object.path.key
  named : ∀ field ∈ statement.named, ∀ path, field.kind.path? = some path →
    path.Keyed field.key ∧ ∃ object ∈ statement.objects, object.path.same path.parent = true

theorem Located.selfContained (located : statement.Located fun _ => False)
    (arranged : ∃ start : Path, start.length = 1 ∧
      Arranged start (statement.objects.map (·.path))) : statement.SelfContained where
  arranged := arranged
  objects := located.objects
  named field member path kind := by
    have found := located.named field member path kind
    obtain ⟨object, given, same⟩ := found.parent.within.resolve_left fun never => never
    exact ⟨found.keyed, object, given, same ▸ Path.same_refl _⟩

theorem paths_of_bare {earlier later : List (SourceObject Query)}
    (same : later.map SourceObject.bare = earlier.map SourceObject.bare) :
    later.map (·.path) = earlier.map (·.path) := by
  simpa [Function.comp_def, SourceObject.bare] using congrArg (List.map (·.path)) same

theorem Keeps.selfContained {earlier later : Statement Query} (keeps : earlier.Keeps later)
    (supplied : later.Supplied) (contained : earlier.SelfContained) : later.SelfContained where
  arranged := by
    rw [paths_of_bare keeps.objects]
    exact contained.arranged
  objects := by
    intro object member
    obtain ⟨own, given, same⟩ := exists_mem_of_map_eq keeps.objects member
    have path : own.path = object.path := congrArg (fun named => named.path) same
    have key : own.key = object.key := congrArg (fun named => named.key) same
    rw [← path, ← key]
    exact (contained.objects own given).imp_left (locatedIn_of_bare keeps.objects)
  named := by
    intro field member path kind
    rcases keeps.named field member with own | ⟨⟨index, _, returned⟩, added⟩
    · obtain ⟨keyed, object, given, same⟩ := contained.named field own path kind
      obtain ⟨other, present, alike⟩ := exists_mem_of_map_eq keeps.objects.symm given
      have path : other.path = object.path := congrArg (fun named => named.path) alike
      exact ⟨keyed, other, present, path ▸ same⟩
    · have keyed := added path kind
      obtain ⟨object, given, same, _⟩ := supplied.exists_object keyed returned
      exact ⟨keyed, object, given, same⟩

theorem primaryPath_alone (alone : site.place ≠ .select) {primary : Path}
    (found : primaryPath site.place site.parent statement = .ok primary) :
    ∃ object, statement.objects.head? = some object ∧ object.path = primary ∧
      primary.length = 1 := by
  unfold primaryPath at found
  split at found
  · cases found
  · exact absurd ‹_› alone
  · rename_i object head _
    split at found
    · cases found
      exact ⟨object, head, rfl, ‹_›⟩
    · cases found
  · rename_i object head _
    split at found
    · cases found
      exact ⟨object, head, rfl, ‹_›⟩
    · cases found

theorem primaryPath_plain (undotted : statement.Undotted) (sound : site.Sound) {primary : Path}
    (found : primaryPath site.place site.parent statement = .ok primary) : primary.Plain := by
  unfold primaryPath at found
  split at found
  · cases found
  · rename_i select
    split at found
    · rename_i object first
      cases found
      obtain ⟨parent, present, head⟩ := Option.bind_eq_some_iff.1 first
      have source : parent ∈ site.source := by
        rw [Site.source, if_pos select]
        exact present
      exact ((sound.source parent source).objects object (List.mem_of_mem_head? head)).plain
    · cases found
  · rename_i object first _
    split at found
    · cases found
      exact undotted.objects object (List.mem_of_mem_head? first)
    · cases found
  · rename_i object first _
    split at found
    · cases found
      exact undotted.objects object (List.mem_of_mem_head? first)
    · cases found

theorem ResolvedAt.located {id : Nat} {resolved : Statement Query}
    (resolvedAt : ResolvedAt site (statement.registered id site.parent) resolved aliases)
    (read : statement.Parsed) (undotted : statement.Undotted) (sound : site.Sound) :
    resolved.Located site.Knows ∧ Scope.Inherits (fun _ => True) aliases := by
  obtain ⟨primary, mentions, selected, scope, found, run, rfl⟩ := resolvedAt.run
  have names := undotted.names
  have registered : (statement.registered id site.parent).Undotted := ⟨undotted.objects,
    ⟨names.fields, names.filter, names.groupBy, names.having, names.orderBy⟩⟩
  have primaryPlain := primaryPath_plain registered sound found
  have objects : (statement.registered id site.parent).objects ≠ [] := read.objects
  have declared : ∀ object ∈ (statement.registered id site.parent).objects, Declared object :=
    read.declared
  have inherits : Scope.Inherits site.Knows
      ((statement.registered id site.parent).scope site.aliases mentions).aliases := sound.knows
  have resolves := resolve_located site.place primaryPlain declared registered read.filter
    read.having rfl objects inherits
  obtain ⟨located, known⟩ := resolves.of_ok run
  refine ⟨located, fun name path found => ?_⟩
  obtain ⟨named, path⟩ := known.aliases name path found
  exact ⟨named, path.plain, fun _ => trivial⟩

theorem ResolvedAt.arranged {id : Nat} {resolved : Statement Query}
    (resolvedAt : ResolvedAt site (statement.registered id site.parent) resolved aliases)
    (read : statement.Parsed) (alone : site.place ≠ .select) :
    ∃ start : Path, start.length = 1 ∧ Arranged start (resolved.objects.map (·.path)) := by
  obtain ⟨primary, mentions, selected, scope, found, run, _⟩ := resolvedAt.run
  obtain ⟨object, head, path, single⟩ := primaryPath_alone alone found
  obtain ⟨rest, objects⟩ := List.head?_eq_some_iff.1 head
  obtain ⟨filtered, grouped⟩ := read.registered id site.parent
  have starts : ((statement.registered id site.parent).scope site.aliases mentions).StartsAt
      primary := ⟨object, rest, objects, path⟩
  have unnamed : ((statement.registered id site.parent).scope site.aliases mentions).aliases =
      .empty := if_neg alone
  exact ⟨primary, single,
    (resolve_arranged alone single filtered grouped starts unnamed).of_ok run⟩

theorem OwnCompiled.located (compiled : OwnCompiled site statement before own around aliases after)
    (read : statement.Parsed) (undotted : statement.Undotted) (sound : site.Sound) :
    Scope.Inherits (fun _ => True) aliases ∧ ∃ (reads : Path → String → Prop)
      (numbered : Statement Query) (finish : Correlation),
      (∀ path key, reads path key → path.Keyed key) ∧ numbered.Located site.Knows ∧
      numbered.Planned reads own
        { indexes := numbered.ownIndexes before.registry.columnIndexes, parent := site.source }
        finish ∧
      around = (if site.place = .select then finish.parent else site.parent) ∧
      after.registry.columnIndexes = finish.indexes := by
  obtain ⟨resolved, numbered, finish, resolvedAt, alike, planned, fetched, indexes⟩ :=
    compiled.planned
  obtain ⟨located, inherits⟩ := resolvedAt.located read undotted sound
  refine ⟨inherits, resolved.Reads, numbered, finish, ?_, located.of_alike alike, planned, fetched,
    indexes⟩
  rintro path key ⟨column, member, kind, rfl⟩
  exact (located.columns column member path kind).keyed

namespace OwnCompiled

variable (compiled : OwnCompiled site statement before own around aliases after)
  (read : statement.Parsed) (undotted : statement.Undotted) (sound : site.Sound)

include compiled read undotted sound

theorem supplied : own.Supplied := by
  obtain ⟨_, _, _, _, _, located, planned, _⟩ := compiled.located read undotted sound
  exact planned.supplied located

theorem fetched : Option.Rel (Grown Path.Keyed) site.parent around := by
  obtain ⟨_, _, _, _, keyed, _, planned, fetched, _⟩ := compiled.located read undotted sound
  have grown := Correlation.rel_mono planned.grows.parent keyed
  rw [fetched]
  unfold Site.source at grown
  split
  · rwa [if_pos ‹_›] at grown
  · exact Correlation.rel_refl site.parent

theorem covers (alone : site.place ≠ .select) : ∀ column ∈ own.columns, own.Covers column := by
  obtain ⟨_, _, _, _, _, located, planned, _⟩ := compiled.located read undotted sound
  exact fun column member => planned.covers located (fun _ => alone) member

omit sound in
theorem selfContained (alone : site.place ≠ .select) : own.SelfContained := by
  obtain ⟨resolved, numbered, _, resolvedAt, alike, planned, _⟩ := compiled.planned
  obtain ⟨located, _⟩ := resolvedAt.located read undotted (Site.sound_alone alone)
  have unknown : site.Knows = fun _ => False := funext fun _ => eq_false alone
  rw [unknown] at located
  refine ((located.of_alike alike).of_alike planned.alike).selfContained ?_
  rw [paths_of_bare (planned.alike.objects.trans alike.objects)]
  exact resolvedAt.arranged read alone

end OwnCompiled

end Statement

end ObjectQuery
