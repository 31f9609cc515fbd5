import ObjectQuery.Proofs.Resolution.Source

namespace ObjectQuery

/-!
The objects that are appended to those that a query declares. They are those that
the paths of declared objects pass through, where these are neither known before
nor declared up to then, and each of them is appended once.
-/

namespace Path

/-- The path goes on from the beginning, which has a segment at least. -/
structure Passes (path beginning : Path) : Prop where
  nonempty : beginning ≠ []
  begins : beginning <+: path
  shorter : beginning.length < path.length

variable {path other beginning : Path} {length : Nat}

theorem passes_take (positive : 0 < length) (less : length < path.length) :
    path.Passes (path.take length) := by
  have taken : (path.take length).length = length := by simp [Nat.le_of_lt less]
  refine ⟨fun empty => ?_, List.take_prefix .., by omega⟩
  rw [empty, List.length_nil] at taken
  omega

theorem Passes.positive (passes : path.Passes beginning) : 0 < beginning.length :=
  List.length_pos_iff.2 passes.nonempty

theorem Passes.take_eq (passes : path.Passes beginning) :
    path.take beginning.length = beginning :=
  (List.prefix_iff_eq_take.1 passes.begins).symm

theorem Plain.of_passes (plain : path.Plain) (passes : path.Passes beginning) : beginning.Plain :=
  ⟨passes.nonempty, fun segment member => plain.2 segment (passes.begins.subset member)⟩

theorem Plain.length_eq_of_key_eq (plain : path.Plain) (otherPlain : other.Plain)
    (keys : path.key = other.key) : path.length = other.length := by
  have lowered := (same_iff _ _).1 (plain.same_of_key_eq otherPlain keys)
  simpa using congrArg List.length lowered

theorem Passes.key_ne (passes : path.Passes beginning) (plain : path.Plain) :
    path.key ≠ beginning.key := fun keys => by
  have lengths := plain.length_eq_of_key_eq (plain.of_passes passes) keys
  have shorter := passes.shorter
  omega

/-- What a path passes through has the key of what the other passes through there. -/
theorem Passes.key_eq (passes : path.Passes beginning) (plain : path.Plain) (otherPlain : other.Plain)
    (keys : path.key = other.key) : beginning.key = Path.key (other.take beginning.length) := by
  have lowered := (same_iff _ _).1 (plain.same_of_key_eq otherPlain keys)
  refine key_eq_of_same ((same_iff _ _).2 ?_)
  rw [List.map_take, ← lowered, ← List.map_take, passes.take_eq]

end Path

namespace AliasMap

/-- The map has a path for the name. -/
def Knows (aliases : AliasMap) (name : String) : Prop :=
  ∃ path, aliases.find? name = some path

/-- With the key of a path, the map knows those of all that the path passes through. -/
def Closed (aliases : AliasMap) : Prop :=
  ∀ path : Path, path.Plain → aliases.Knows path.key →
    ∀ beginning, path.Passes beginning → aliases.Knows beginning.key

/-- Names stand for paths whose beginnings are known, and with a path what it passes through. -/
structure Rooted (aliases : AliasMap) : Prop where
  inherits : Scope.Inherits (fun path => path = [] ∨ aliases.Knows path.key) aliases
  closed : aliases.Closed

theorem rooted_empty : Rooted .empty :=
  ⟨Scope.inherits_empty _, fun _ _ ⟨_, impossible⟩ => by cases impossible⟩

theorem knows_insert_iff {aliases : AliasMap} {name other : String} {path : Path} :
    Knows (aliases.insert name path) other ↔ other = name ∨ aliases.Knows other := by
  unfold Knows
  by_cases same : name = other
  · subst same
    simp
  · rw [SortedMap.find?_insert_of_ne _ _ same]
    simp [Ne.symm same]

theorem Closed.insert {aliases : AliasMap} (closed : aliases.Closed) {name : String} (value : Path)
    (own : ∀ path : Path, path.Plain → path.key = name → ∀ beginning, path.Passes beginning →
      aliases.Knows beginning.key) : Closed (aliases.insert name value) := by
  intro path plain known beginning passes
  rw [knows_insert_iff] at known ⊢
  rcases known with same | known
  · exact .inr (own path plain same beginning passes)
  · exact .inr (closed path plain known beginning passes)

end AliasMap

namespace Scope

variable {Q : Type} {scope after : Scope Q} {path reached : Path} {paths : List Path}

/-- The scope with objects registered one after the other. -/
def registerAll (paths : List Path) (scope : Scope Q) : Scope Q :=
  paths.foldl register scope

/-- An object as it is registered. -/
def implicit (path : Path) : SourceObject Q :=
  { path, key := path.key }

theorem objects_registerAll (paths : List Path) (scope : Scope Q) :
    (scope.registerAll paths).objects = scope.objects ++ paths.map implicit := by
  induction paths generalizing scope with
  | nil => exact (List.append_nil _).symm
  | cons path rest induction =>
      rw [registerAll, List.foldl_cons, ← registerAll, induction, List.map_cons]
      exact List.append_assoc ..

theorem knows_registerAll_iff {name : String} :
    (scope.registerAll paths).aliases.Knows name ↔
      scope.aliases.Knows name ∨ ∃ path ∈ paths, path.key = name := by
  induction paths generalizing scope with
  | nil => simp [registerAll]
  | cons path rest induction =>
      have registered : (scope.register path).aliases.Knows name ↔
          name = path.key ∨ scope.aliases.Knows name :=
        AliasMap.knows_insert_iff
      rw [registerAll, List.foldl_cons, ← registerAll, induction, registered]
      simp only [List.exists_mem_cons_iff, eq_comm (a := name)]
      tauto

/-- A walk to the path registers what this passes through and what was not known, each once. -/
structure Registers (scope after : Scope Q) (reached : Path) (paths : List Path) : Prop where
  registered : after = scope.registerAll paths
  passes : ∀ path ∈ paths, reached.Passes path
  unknown : ∀ path ∈ paths, ¬scope.aliases.Knows path.key
  distinct : (paths.map Path.key).Nodup

theorem Registers.objects (registers : Registers scope after reached paths) :
    after.objects = scope.objects ++ paths.map implicit := by
  rw [registers.registered, objects_registerAll]

theorem Registers.knows_iff (registers : Registers scope after reached paths) {name : String} :
    after.aliases.Knows name ↔ scope.aliases.Knows name ∨ ∃ path ∈ paths, path.key = name := by
  rw [registers.registered, knows_registerAll_iff]

/-- From an unknown beginning on, a walk registers all that the path passes through. -/
theorem walkWithin_unknown {steps index : Nat} (plain : path.Plain)
    (unknown : ∀ length, index < length → length < path.length →
      ¬scope.aliases.Knows (Path.key (path.take length)))
    (arrives : walkWithin true steps index path scope = .arrived reached after) :
    reached = path ∧ ∃ paths, Registers scope after path paths := by
  induction steps generalizing index scope with
  | zero => cases arrives
  | succ steps induction =>
      unfold walkWithin at arrives
      split at arrives
      · rename_i inside
        have new := unknown (index + 1) (Nat.lt_succ_self _) inside
        have absent : scope.aliases.find? (Path.key (path.take (index + 1))) = none :=
          Option.eq_none_iff_forall_ne_some.2 fun value found => new ⟨value, found⟩
        simp only [absent, if_true] at arrives
        have passes := Path.passes_take (Nat.succ_pos index) inside
        have registered {name : String} :
            (scope.register (path.take (index + 1))).aliases.Knows name ↔
              name = Path.key (path.take (index + 1)) ∨ scope.aliases.Knows name :=
          AliasMap.knows_insert_iff
        obtain ⟨same, paths, registers⟩ := induction (fun length longer less known => by
          rcases registered.1 known with keys | known
          · -- Beginnings of different lengths have different keys.
            have further := Path.passes_take (Nat.lt_trans (Nat.succ_pos index) longer) less
            have lengths := (plain.of_passes further).length_eq_of_key_eq (plain.of_passes passes) keys
            simp only [List.length_take] at lengths
            omega
          · exact unknown length (Nat.lt_of_succ_lt longer) less known) arrives
        refine ⟨same, path.take (index + 1) :: paths, registers.registered, ?_, ?_, ?_⟩
        · exact List.forall_mem_cons.2 ⟨passes, registers.passes⟩
        · refine List.forall_mem_cons.2 ⟨new, fun other member known => ?_⟩
          exact registers.unknown other member (registered.2 (.inr known))
        · rw [List.map_cons, List.nodup_cons]
          refine ⟨fun member => ?_, registers.distinct⟩
          obtain ⟨other, given, keys⟩ := List.mem_map.1 member
          exact registers.unknown other given (registered.2 (.inl keys))
      · cases arrives
        exact ⟨rfl, [], rfl, by simp, by simp, by simp⟩

/-- Known beginnings come first on a walk, so what is registered is what the path reached passes. -/
theorem walkWithin_registers {steps index : Nat} (closed : scope.aliases.Closed)
    (values : ∀ name value, scope.aliases.find? name = some value → value.Plain) (plain : path.Plain)
    (arrives : walkWithin true steps index path scope = .arrived reached after) :
    ∃ paths, Registers scope after reached paths := by
  induction steps generalizing index path with
  | zero => cases arrives
  | succ steps induction =>
      cases found : scope.aliases.find? (Path.key (path.take (index + 1))) with
      | some qualified =>
          unfold walkWithin at arrives
          split at arrives
          · simp only [found] at arrives
            exact induction ((values _ _ found).append (plain.undotted_of_mem_drop _)) arrives
          · cases arrives
            exact ⟨[], rfl, by simp, by simp, by simp⟩
      | none =>
          obtain ⟨rfl, registers⟩ := walkWithin_unknown plain (fun length longer less known => by
            -- All that a known path passes through is known.
            have passes := Path.passes_take (Nat.lt_of_le_of_lt (Nat.zero_le _) longer) less
            have first : scope.aliases.Knows (Path.key (path.take (index + 1))) := by
              rcases Nat.eq_or_lt_of_le (Nat.succ_le_of_lt longer) with same | further
              · rwa [← same] at known
              · have taken : (path.take length).length = length := by simp [Nat.le_of_lt less]
                have inner : Path.Passes (path.take length) ((path.take length).take (index + 1)) :=
                  Path.passes_take (Nat.succ_pos index) (by omega)
                rw [List.take_take, Nat.min_eq_left (by omega)] at inner
                exact closed _ (plain.of_passes passes) known _ inner
            obtain ⟨value, impossible⟩ := first
            simp [found] at impossible) arrives
          exact registers

theorem walk_registers (closed : scope.aliases.Closed)
    (values : ∀ name value, scope.aliases.find? name = some value → value.Plain) (plain : path.Plain)
    (arrives : scope.walk true path = some (reached, after)) :
    ∃ paths, Registers scope after reached paths := by
  have enough := walkWithin_ne_endless true (slack_lt_walkBound scope.aliases path)
  unfold walk at arrives
  split at arrives
  · cases arrives
    exact walkWithin_registers closed values plain ‹_›
  · cases arrives
  · exact absurd ‹_› enough

/-- What the path passes through is known where its names are given to an object. -/
theorem closed_nameObject (closed : scope.aliases.Closed) (plain : path.Plain)
    (passed : ∀ beginning, path.Passes beginning → scope.aliases.Knows beginning.key)
    {aliasName : Option String} (undotted : ∀ segment, aliasName = some segment → Undotted segment) :
    (scope.nameObject path aliasName).aliases.Closed := by
  have alike {other beginning : Path} (otherPlain : other.Plain) (keys : other.key = path.key)
      (passes : other.Passes beginning) : scope.aliases.Knows beginning.key := by
    have lengths := otherPlain.length_eq_of_key_eq plain keys
    rw [passes.key_eq otherPlain plain keys]
    exact passed _ (Path.passes_take passes.positive (lengths ▸ passes.shorter))
  have own : (scope.name path.key path).aliases.Closed :=
    closed.insert path fun other otherPlain keys beginning => alike otherPlain keys
  unfold nameObject
  cases aliasName with
  | none => exact own
  | some segment =>
      have single := undotted segment rfl
      have named : ((scope.name path.key path).name (lowerText segment) path).aliases.Closed := by
        refine own.insert path fun other otherPlain keys beginning passes => ?_
        -- A name without dots is that of a single segment, which passes through nothing.
        have none : Path.dots other.key = 0 := keys ▸ List.count_eq_zero.2 single.lowerText
        have length := otherPlain.dots_key
        have positive := passes.positive
        have shorter := passes.shorter
        omega
      refine named.insert path fun other otherPlain keys beginning passes => ?_
      obtain ⟨last, length⟩ := Path.plain_withLast plain single
      have lengths := otherPlain.length_eq_of_key_eq last keys
      have shorter := passes.shorter
      rw [passes.key_eq otherPlain last keys, Path.take_withLast segment (by omega)]
      have known := passed _ (Path.passes_take passes.positive (by omega))
      exact AliasMap.knows_insert_iff.2 (.inr (AliasMap.knows_insert_iff.2 (.inr known)))

theorem knows_nameObject {name : String} {aliasName : Option String}
    (known : name = path.key ∨ scope.aliases.Knows name) :
    (scope.nameObject path aliasName).aliases.Knows name := by
  have own : (scope.name path.key path).aliases.Knows name := AliasMap.knows_insert_iff.2 known
  unfold nameObject
  cases aliasName with
  | none => exact own
  | some segment =>
      exact AliasMap.knows_insert_iff.2 (.inr (AliasMap.knows_insert_iff.2 (.inr own)))

/-- The path is none, known before, or that of a declared object. -/
def Settled (inherited : AliasMap) (declared : List (SourceObject Q)) (path : Path) : Prop :=
  path = [] ∨ inherited.Knows path.key ∨ ∃ object ∈ declared, object.path = path

/-- A declared object has a path through one that is neither known before nor declared up to then. -/
def Missing (inherited : AliasMap) (declared : List (SourceObject Q)) (path : Path) : Prop :=
  ¬inherited.Knows path.key ∧ ∃ earlier object later, declared = earlier ++ object :: later ∧
    object.path.Passes path ∧ ∀ other ∈ earlier, other.key ≠ path.key

/-- The objects of the scope are those that are missing among the declared ones. -/
structure Appending (inherited : AliasMap) (declared : List (SourceObject Q)) (scope : Scope Q) :
    Prop where
  sound : scope.Sound (Settled inherited declared)
  closed : scope.aliases.Closed
  inherits : ∀ name, inherited.Knows name → scope.aliases.Knows name
  plain : ∀ object ∈ declared, object.path.Plain
  listed : ∀ object ∈ declared, object.key = object.path.key ∧ scope.aliases.Knows object.key
  registered : ∀ object ∈ scope.objects,
    object = implicit object.path ∧ scope.aliases.Knows object.key
  distinct : (scope.objects.map (·.key)).Nodup
  exact : ∀ path, (∃ object ∈ scope.objects, object.path = path) ↔ Missing inherited declared path

namespace Appending

variable {inherited : AliasMap} {declared : List (SourceObject Q)}

theorem knows (appending : Appending inherited declared scope) (nonempty : path ≠ [])
    (within : path.Within (Settled inherited declared) scope.objects) :
    scope.aliases.Knows path.key := by
  rcases within with (empty | known | ⟨object, member, rfl⟩) | ⟨object, member, rfl⟩
  · exact absurd empty nonempty
  · exact appending.inherits _ known
  · obtain ⟨key, known⟩ := appending.listed object member
    exact key ▸ known
  · obtain ⟨same, known⟩ := appending.registered object member
    rwa [same] at known

theorem values (appending : Appending inherited declared scope) (name : String) (value : Path)
    (found : scope.aliases.find? name = some value) : value.Plain :=
  (appending.sound.aliases name value found).2.plain

/-- A walk leaves the map closed, as all that the path reached passes through is known then. -/
theorem closed_of_registers (appending : Appending inherited declared scope)
    (registers : Registers scope after reached paths) (plain : reached.Plain)
    (passed : ∀ beginning, reached.Passes beginning → after.aliases.Knows beginning.key) :
    after.aliases.Closed := by
  intro other otherPlain known beginning passes
  rcases registers.knows_iff.1 known with known | ⟨path, given, keys⟩
  · exact registers.knows_iff.2 (.inl (appending.closed other otherPlain known beginning passes))
  · have between := registers.passes path given
    have pathPlain := plain.of_passes between
    have lengths := otherPlain.length_eq_of_key_eq pathPlain keys.symm
    have shorter := passes.shorter
    have further := between.shorter
    have same : path.take beginning.length = reached.take beginning.length := by
      rw [← between.take_eq, List.take_take, Nat.min_eq_left (by omega)]
    rw [passes.key_eq otherPlain pathPlain keys.symm, same]
    exact passed _ (Path.passes_take passes.positive (by omega))

/-- What is missing once more is declared was missing before, or is passed through anew. -/
theorem missing_append_iff {object : SourceObject Q} :
    Missing inherited (declared ++ [object]) path ↔ Missing inherited declared path ∨
      ¬inherited.Knows path.key ∧ object.path.Passes path ∧ ∀ other ∈ declared, other.key ≠ path.key := by
  constructor
  · rintro ⟨unknown, earlier, first, later, split, passes, others⟩
    rcases List.eq_nil_or_concat later with rfl | ⟨more, last, rfl⟩
    · obtain ⟨rfl, same⟩ := List.append_inj' split rfl
      cases same
      exact .inr ⟨unknown, passes, others⟩
    · rw [List.concat_eq_append, ← List.cons_append, ← List.append_assoc] at split
      obtain ⟨same, _⟩ := List.append_inj' split rfl
      exact .inl ⟨unknown, earlier, first, more, same, passes, others⟩
  · rintro (⟨unknown, earlier, first, later, rfl, passes, others⟩ | ⟨unknown, passes, others⟩)
    · exact ⟨unknown, earlier, first, later ++ [object], by simp, passes, others⟩
    · exact ⟨unknown, declared, object, [], rfl, passes, others⟩

/-- What is settled, or is that of an object after a walk, is known then. -/
theorem knows_of_registers (appending : Appending inherited declared scope)
    (registers : Registers scope after reached paths) (nonempty : path ≠ [])
    (within : path.Within (Settled inherited declared) after.objects) :
    after.aliases.Knows path.key := by
  rw [registers.knows_iff]
  rcases within with settled | ⟨object, member, rfl⟩
  · exact .inl (appending.knows nonempty (.inl settled))
  · rw [registers.objects] at member
    rcases List.mem_append.1 member with earlier | new
    · exact .inl (appending.knows nonempty (.inr ⟨object, earlier, rfl⟩))
    · obtain ⟨path, given, rfl⟩ := List.mem_map.1 new
      exact .inr ⟨path, given, rfl⟩

theorem distinct_of_registers (appending : Appending inherited declared scope)
    (registers : Registers scope after reached paths) : (after.objects.map (·.key)).Nodup := by
  rw [registers.objects, List.map_append, List.map_map]
  refine List.nodup_append.2 ⟨appending.distinct, registers.distinct, ?_⟩
  intro key old name new same
  obtain ⟨other, member, rfl⟩ := List.mem_map.1 old
  obtain ⟨path, given, rfl⟩ := List.mem_map.1 new
  have same : other.key = path.key := same
  exact registers.unknown path given (same ▸ (appending.registered other member).2)

/-- After a walk to the path of an object, the objects are those that are missing with it. -/
theorem exact_of_registers (appending : Appending inherited declared scope)
    {object : SourceObject Q} (registers : Registers scope after object.path paths)
    (located : ∀ path, object.path.Passes path →
      path.Within (Settled inherited declared) after.objects) (path : Path) :
    (∃ other ∈ after.objects, other.path = path) ↔
      Missing inherited (declared ++ [object]) path := by
  rw [missing_append_iff, ← appending.exact, registers.objects]
  constructor
  · rintro ⟨other, member, rfl⟩
    rcases List.mem_append.1 member with earlier | new
    · exact .inl ⟨other, earlier, rfl⟩
    · obtain ⟨path, given, rfl⟩ := List.mem_map.1 new
      have unknown := registers.unknown path given
      refine .inr ⟨fun known => unknown (appending.inherits _ known), registers.passes path given,
        fun other member same => unknown ?_⟩
      exact same ▸ (appending.listed other member).2
  · rintro (⟨other, member, rfl⟩ | ⟨unknown, passes, others⟩)
    · exact ⟨other, List.mem_append_left _ member, rfl⟩
    · rw [← registers.objects]
      rcases located path passes with (empty | known | ⟨other, member, rfl⟩) | own
      · exact absurd empty passes.nonempty
      · exact absurd known unknown
      · exact absurd (appending.listed other member).1 (others other member)
      · exact own

theorem resolveObject (appending : Appending inherited declared scope) {object : SourceObject Q}
    (plain : object.path.Plain)
    (undotted : ∀ segment, object.aliasName = some segment → Undotted segment) :
    Appending inherited (declared ++ [(scope.resolveObject object).1])
      (scope.resolveObject object).2 := by
  obtain ⟨_, _, _, sound⟩ := resolveObject_sound appending.sound plain undotted
  have expanded := expandFirst_plain appending.sound plain
  obtain ⟨reached, after, arrives⟩ := exists_walk_eq scope (scope.expandFirst object.path)
  obtain ⟨_, reachedPlain, _, within⟩ := walk_arrives appending.sound expanded arrives
  obtain ⟨paths, registers⟩ := walk_registers appending.closed appending.values expanded arrives
  rw [resolveObject_eq arrives] at sound ⊢
  have located (beginning : Path) (passes : reached.Passes beginning) :
      beginning.Within (Settled inherited declared) after.objects := by
    have own := within beginning.length passes.positive passes.shorter
    rwa [passes.take_eq] at own
  have passed (beginning : Path) (passes : reached.Passes beginning) :
      after.aliases.Knows beginning.key :=
    appending.knows_of_registers registers passes.nonempty (located beginning passes)
  have keeps {name : String} (known : scope.aliases.Knows name) :
      (after.nameObject reached object.aliasName).aliases.Knows name :=
    knows_nameObject (.inr (registers.knows_iff.2 (.inl known)))
  refine ⟨?_, ?_, fun name known => keeps (appending.inherits name known),
    List.forall_mem_append.2 ⟨appending.plain, by simpa using reachedPlain⟩, ?_, ?_, ?_, ?_⟩
  · refine sound.mono ?_
    rintro path ((empty | known | ⟨other, member, rfl⟩) | rfl)
    · exact .inl empty
    · exact .inr (.inl known)
    · exact .inr (.inr ⟨other, List.mem_append_left _ member, rfl⟩)
    · exact .inr (.inr ⟨_, List.mem_append_right _ (List.mem_singleton_self _), rfl⟩)
  · have closed := appending.closed_of_registers registers reachedPlain passed
    exact closed_nameObject closed reachedPlain passed undotted
  · refine List.forall_mem_append.2 ⟨fun other member => ?_, List.forall_mem_singleton.2 ?_⟩
    · exact (appending.listed other member).imp_right keeps
    · exact ⟨rfl, knows_nameObject (.inl rfl)⟩
  · rw [objects_nameObject, registers.objects]
    refine List.forall_mem_append.2 ⟨fun other member => ?_, List.forall_mem_map.2 fun path given => ?_⟩
    · exact (appending.registered other member).imp_right keeps
    · exact ⟨rfl, knows_nameObject (.inr (registers.knows_iff.2 (.inr ⟨path, given, rfl⟩)))⟩
  · rw [objects_nameObject]
    exact appending.distinct_of_registers registers
  · rw [objects_nameObject]
    exact appending.exact_of_registers registers located

end Appending

end Scope

namespace SourceObject

open Scope (Appending)

variable {Q : Type} {inherited : AliasMap}

theorem resolveAll_appending {primary : Path} (primaryPlain : primary.Plain) (ownPrimary : Bool)
    (used : SortedSet String) {objects : List (SourceObject Q)}
    (declared : ∀ object ∈ objects, Statement.Declared object)
    (plain : ∀ object ∈ objects, object.path.Plain) {earlier : List (SourceObject Q)}
    {before : Scope Q} (appending : Appending inherited earlier before) :
    Step.Meets (resolveAll primary ownPrimary used objects) before fun resolved after =>
      Appending inherited (earlier ++ resolved) after ∧ resolved.length = objects.length := by
  induction objects generalizing ownPrimary used earlier before with
  | nil => exact .pure ⟨by simpa using appending, rfl⟩
  | cons object rest induction =>
      obtain ⟨firstDeclared, laterDeclared⟩ := List.forall_mem_cons.1 declared
      obtain ⟨first, later⟩ := List.forall_mem_cons.1 plain
      refine .get_bind ?_
      dsimp only
      have given : (if ownPrimary = true then object
            else object.qualify before.aliases primary).path.Plain ∧
          (if ownPrimary = true then object
            else object.qualify before.aliases primary).aliasName = object.aliasName := by
        split
        · exact ⟨first, rfl⟩
        · exact ⟨qualify_plain primaryPlain first, aliasName_qualify ..⟩
      generalize (if ownPrimary = true then object
        else object.qualify before.aliases primary) = given at given ⊢
      have next := appending.resolveObject given.1 fun segment own =>
        firstDeclared.2 segment (given.2 ▸ own)
      refine .set_bind ?_
      refine (addAlias_meets used _ _).bind fun used _ same => ?_
      subst same
      refine (induction false used laterDeclared later next).bind ?_
      rintro resolved after ⟨appending, length⟩
      refine .pure ⟨?_, congrArg (· + 1) length⟩
      simpa using appending

end SourceObject

namespace Scope

variable {Q : Type} {inherited : AliasMap} {declared : List (SourceObject Q)} {scope : Scope Q}

/-- What paths pass through is known already where one that is declared later has its key. -/
def Orderly (inherited : AliasMap) (declared : List (SourceObject Q)) : Prop :=
  declared.Pairwise fun object later => ∀ beginning, object.path.Passes beginning →
    later.key = beginning.key → inherited.Knows beginning.key

theorem Appending.rooted (appending : Appending inherited declared scope) : scope.aliases.Rooted := by
  refine ⟨fun name path found => ?_, appending.closed⟩
  obtain ⟨named, located⟩ := appending.sound.aliases name path found
  refine ⟨named, located.plain, fun length => ?_⟩
  rcases Nat.eq_zero_or_pos length with rfl | positive
  · exact .inl rfl
  · refine .inr (appending.knows ?_ (located.beginnings length positive))
    rw [Ne, List.take_eq_nil_iff]
    exact fun empty => empty.elim (Nat.ne_of_gt positive) located.plain.1

/-- In orderly lists, what is missing is the path of no declared object at all. -/
theorem Appending.missing_iff (appending : Appending inherited declared scope)
    (orderly : Orderly inherited declared)
    (path : Path) :
    Missing inherited declared path ↔ (∃ object ∈ declared, object.path.Passes path) ∧
      ¬inherited.Knows path.key ∧ ∀ object ∈ declared, object.key ≠ path.key := by
  constructor
  · rintro ⟨unknown, earlier, object, later, rfl, passes, others⟩
    refine ⟨⟨object, by simp, passes⟩, unknown, List.forall_mem_append.2
      ⟨others, List.forall_mem_cons.2 ⟨?_, fun other member same => unknown ?_⟩⟩⟩
    · rw [(appending.listed object (by simp)).1]
      exact passes.key_ne (appending.plain object (by simp))
    · have apart := (List.pairwise_cons.1 (List.pairwise_append.1 orderly).2.1).1
      exact apart other member path passes same
  · rintro ⟨⟨object, member, passes⟩, unknown, others⟩
    obtain ⟨earlier, later, rfl⟩ := List.append_of_mem member
    exact ⟨unknown, earlier, object, later, rfl, passes,
      fun other given => others other (List.mem_append_left _ given)⟩

theorem appending_nil {before : Scope Q} (rooted : before.aliases.Rooted) :
    Appending before.aliases [] ({ before with objects := [] } : Scope Q) where
  sound := {
    objects := by simp
    aliases := fun name path found => by
      obtain ⟨named, plain, knows⟩ := rooted.inherits name path found
      refine ⟨named, plain, fun length _ => .inl ?_⟩
      exact (knows length).imp_right .inl }
  closed := rooted.closed
  inherits _ known := known
  plain := by simp
  listed := by simp
  registered := by simp
  distinct := .nil
  exact path := by simp [Missing]

/--
The objects that are appended to the declared ones are those that a declared path
passes through and that are neither known before nor declared up to then. Each is
appended once. Where no object is declared after another that passes through it,
they are those that are neither known before nor declared at all.
-/
theorem appended_of_resolveObjects {place : QueryPlace} {primary : Path}
    (primaryPlain : primary.Plain) {before after : Scope Q}
    (written : ∀ object ∈ before.objects, Statement.Declared object)
    (plain : ∀ object ∈ before.objects, object.path.Plain) (rooted : before.aliases.Rooted)
    (run : resolveObjects place primary before = .ok () after) :
    ∃ declared appended, after.objects = declared ++ appended ∧
      declared.length = before.objects.length ∧ after.aliases.Rooted ∧
      (∀ object ∈ appended, object = implicit object.path) ∧
      (appended.map (·.key)).Nodup ∧
      (∀ path, (∃ object ∈ appended, object.path = path) ↔
        Missing before.aliases declared path) ∧
      (Orderly before.aliases declared → ∀ path, (∃ object ∈ appended, object.path = path) ↔
        (∃ object ∈ declared, object.path.Passes path) ∧ ¬before.aliases.Knows path.key ∧
          ∀ object ∈ declared, object.key ≠ path.key) := by
  have meets : Step.Meets (resolveObjects place primary) before fun _ after =>
      ∃ declared, declared.length = before.objects.length ∧ ∃ scope : Scope Q,
        Appending before.aliases declared scope ∧
          after = { scope with objects := declared ++ scope.objects } := by
    refine .get_bind (.modify_bind ?_)
    refine (SourceObject.resolveAll_appending primaryPlain _ .empty written plain
      (appending_nil rooted)).bind ?_
    rintro declared scope ⟨appending, length⟩
    exact ⟨declared, length, scope, appending, rfl⟩
  obtain ⟨declared, length, scope, appending, rfl⟩ := meets.of_ok run
  refine ⟨declared, scope.objects, rfl, length, appending.rooted,
    fun object member => (appending.registered object member).1, appending.distinct,
    appending.exact, fun orderly path => ?_⟩
  exact (appending.exact path).trans (appending.missing_iff orderly path)

/-- No key is that of a path that one declared before passes through. -/
theorem orderly_of_pairwise (apart : (declared.map fun object => (object.key, object.path)).Pairwise
    fun object later => ∀ length < object.2.length, later.1 ≠ Path.key (object.2.take length)) :
    Orderly inherited declared := by
  rw [List.pairwise_map] at apart
  refine apart.imp fun apart beginning passes same => ?_
  exact absurd (passes.take_eq.symm ▸ same) (apart beginning.length passes.shorter)

/-- The keys and paths of the objects, where those of the scope are resolved. -/
def resolvedObjects (scope : Scope Query) : Option (List (String × Path)) :=
  match resolveObjects .primary ["Contact"] scope with
  | .error _ _ => none
  | .ok _ after => some (after.objects.map fun object => (object.key, object.path))

theorem exists_of_resolvedObjects {scope : Scope Query} {objects : List (String × Path)}
    (resolved : resolvedObjects scope = some objects) :
    ∃ after, resolveObjects .primary ["Contact"] scope = .ok () after ∧
      after.objects.map (fun object => (object.key, object.path)) = objects := by
  unfold resolvedObjects at resolved
  split at resolved
  · cases resolved
  · exact ⟨_, ‹_›, Option.some_inj.1 resolved⟩

/-- Contacts with their accounts, and with what is two steps away. -/
def withAccounts : Scope Query :=
  ⟨[{ path := ["Contact"], aliasName := some "con" },
    { path := ["con", "Account"], aliasName := some "acc" }, { path := ["PPP", "QQQ"] }],
    .empty, false, {}⟩

theorem appended_of_withAccounts :
    ∃ after declared appended, resolveObjects .primary ["Contact"] withAccounts = .ok () after ∧
      after.objects = declared ++ appended ∧
      declared.map (fun object => (object.key, object.path)) = [("contact", ["Contact"]),
        ("contact.account", ["Contact", "Account"]), ("contact.ppp.qqq", ["Contact", "PPP", "QQQ"])] ∧
      appended.map (fun object => (object.key, object.path)) = [("contact.ppp", ["Contact", "PPP"])] ∧
      ∀ path, (∃ object ∈ appended, object.path = path) ↔
        (∃ object ∈ declared, object.path.Passes path) ∧
          ¬withAccounts.aliases.Knows path.key ∧ ∀ object ∈ declared, object.key ≠ path.key := by
  have run : resolvedObjects withAccounts = some [("contact", ["Contact"]),
      ("contact.account", ["Contact", "Account"]), ("contact.ppp.qqq", ["Contact", "PPP", "QQQ"]),
      ("contact.ppp", ["Contact", "PPP"])] := by
    decide +kernel
  obtain ⟨after, resolved, objects⟩ := exists_of_resolvedObjects run
  have written : ∀ object ∈ withAccounts.objects, Statement.Declared object := by
    simp [withAccounts, Statement.Declared, Undotted]
  have plain : ∀ object ∈ withAccounts.objects, object.path.Plain := by
    simp [withAccounts, Path.Plain, Undotted]
  have primaryPlain : Path.Plain ["Contact"] := by simp [Path.Plain, Undotted]
  obtain ⟨declared, appended, split, length, _, _, _, _, orderly⟩ :=
    appended_of_resolveObjects primaryPlain written plain AliasMap.rooted_empty resolved
  rw [split, List.map_append] at objects
  have parts : declared.map (fun object => (object.key, object.path)) ++
      appended.map (fun object => (object.key, object.path)) =
      [("contact", ["Contact"]), ("contact.account", ["Contact", "Account"]),
        ("contact.ppp.qqq", ["Contact", "PPP", "QQQ"])] ++ [("contact.ppp", ["Contact", "PPP"])] :=
    objects
  obtain ⟨first, second⟩ := List.append_inj parts (by simp [length, withAccounts])
  exact ⟨after, declared, appended, resolved, split, first, second,
    orderly (orderly_of_pairwise (by rw [first]; decide))⟩

/-- Contacts with what is two steps away, and with what lies between. -/
def declaredLate : Scope Query :=
  ⟨[{ path := ["Contact"] }, { path := ["Contact", "a", "b"] }, { path := ["Contact", "a"] }],
    .empty, false, {}⟩

/-- What a path passes through is appended, though it is declared later. -/
theorem appended_of_declaredLate :
    ∃ after declared appended, resolveObjects .primary ["Contact"] declaredLate = .ok () after ∧
      after.objects = declared ++ appended ∧ declared.length = declaredLate.objects.length ∧
      ∃ object ∈ declared, ∃ other ∈ appended, other.key = object.key := by
  have run : resolvedObjects declaredLate = some [("contact", ["Contact"]),
      ("contact.a.b", ["Contact", "a", "b"]), ("contact.a", ["Contact", "a"]),
      ("contact.a", ["Contact", "a"])] := by
    decide +kernel
  obtain ⟨after, resolved, objects⟩ := exists_of_resolvedObjects run
  obtain ⟨first, rest, split, _, others⟩ := List.map_eq_cons_iff.1 objects
  obtain ⟨second, rest, rfl, _, others⟩ := List.map_eq_cons_iff.1 others
  obtain ⟨third, rest, rfl, key, others⟩ := List.map_eq_cons_iff.1 others
  obtain ⟨fourth, rest, rfl, keyToo, none⟩ := List.map_eq_cons_iff.1 others
  cases List.map_eq_nil_iff.1 none
  refine ⟨after, [first, second, third], [fourth], resolved, split, rfl, third, by simp, fourth,
    by simp, ?_⟩
  exact (congrArg (·.1) keyToo).trans (congrArg (·.1) key).symm

end Scope

end ObjectQuery
