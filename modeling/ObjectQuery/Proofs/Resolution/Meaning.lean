import ObjectQuery.Proofs.Resolution.Implicit

namespace ObjectQuery

/-!
What paths stand for, letter case aside. Objects that a walk registers stand for
themselves, as their paths did before, so that walks arrive at the same paths
before and after.
-/

namespace Path

variable {path other rest otherRest : Path}

theorem length_eq_of_same (same : path.same other = true) : path.length = other.length := by
  simpa using congrArg List.length ((same_iff _ _).1 same)

theorem same_append (same : path.same other = true) (later : rest.same otherRest = true) :
    Path.same (path ++ rest) (other ++ otherRest) = true := by
  rw [same_iff] at same later ⊢
  rw [List.map_append, List.map_append, same, later]

theorem same_take (same : path.same other = true) (length : Nat) :
    Path.same (path.take length) (other.take length) = true := by
  rw [same_iff] at same ⊢
  rw [List.map_take, List.map_take, same]

theorem same_drop (same : path.same other = true) (length : Nat) :
    Path.same (path.drop length) (other.drop length) = true := by
  rw [same_iff] at same ⊢
  rw [List.map_drop, List.map_drop, same]

/-- The name is the key of a path that the path passes through. -/
def PassesKey (path : Path) (name : String) : Prop :=
  ∃ beginning, path.Passes beginning ∧ beginning.key = name

theorem PassesKey.of_same (same : path.same other = true) {name : String}
    (passes : path.PassesKey name) : other.PassesKey name := by
  obtain ⟨beginning, passes, rfl⟩ := passes
  have shorter := passes.shorter
  rw [length_eq_of_same same] at shorter
  refine ⟨other.take beginning.length, passes_take passes.positive shorter, ?_⟩
  have taken := same_take same beginning.length
  rw [passes.take_eq] at taken
  exact (key_eq_of_same taken).symm

theorem passesKey_iff_of_same (same : path.same other = true) (name : String) :
    path.PassesKey name ↔ other.PassesKey name :=
  ⟨.of_same same, .of_same (same_symm same)⟩

end Path

namespace AliasMap

variable {aliases before middle after : AliasMap} {path other : Path}

/-- What the path stands for, which is the path itself where its key is no name. -/
def meaning (aliases : AliasMap) (path : Path) : Path :=
  (aliases.find? path.key).getD path

/-- The path stands for itself, letter case aside. -/
def Fixes (aliases : AliasMap) (path : Path) : Prop :=
  ∃ value, aliases.find? path.key = some value ∧ value.same path = true

theorem Fixes.knows (fixes : aliases.Fixes path) : aliases.Knows path.key :=
  ⟨fixes.choose, fixes.choose_spec.1⟩

theorem Fixes.meaning_same (fixes : aliases.Fixes path) : (aliases.meaning path).same path = true := by
  obtain ⟨value, found, same⟩ := fixes
  rwa [meaning, found, Option.getD_some]

theorem Fixes.of_same (fixes : aliases.Fixes path) (same : path.same other = true) :
    aliases.Fixes other := by
  obtain ⟨value, found, own⟩ := fixes
  exact ⟨value, Path.key_eq_of_same same ▸ found, Path.same_trans own same⟩

theorem meaning_same (aliases : AliasMap) (same : path.same other = true) :
    (aliases.meaning path).same (aliases.meaning other) = true := by
  rw [meaning, meaning, Path.key_eq_of_same same]
  cases aliases.find? other.key with
  | none => exact same
  | some value => exact Path.same_refl value

/-- Names stand for paths without dots. -/
def Plain (aliases : AliasMap) : Prop :=
  ∀ name value, aliases.find? name = some value → value.Plain

theorem Plain.meaning (values : aliases.Plain) (plain : path.Plain) :
    (aliases.meaning path).Plain := by
  unfold AliasMap.meaning
  cases found : aliases.find? path.key with
  | none => exact plain
  | some value => exact values _ value found

/-- Names keep what they stand for, and new ones stand for paths that have them as keys. -/
structure Grows (before after : AliasMap) : Prop where
  keeps : ∀ name value, before.find? name = some value → after.find? name = some value
  adds : ∀ name value, after.find? name = some value →
    before.find? name = some value ∨ value.key = name

theorem Grows.refl (aliases : AliasMap) : aliases.Grows aliases :=
  ⟨fun _ _ found => found, fun _ _ found => .inl found⟩

theorem Grows.insert (grows : before.Grows after) (unknown : after.find? path.key = none) :
    before.Grows (after.insert path.key path) := by
  refine ⟨fun name value found => ?_, fun name value found => ?_⟩
  · have different : path.key ≠ name := by
      rintro rfl
      rw [grows.keeps _ _ found] at unknown
      cases unknown
    rw [SortedMap.find?_insert_of_ne _ _ different]
    exact grows.keeps name value found
  · by_cases same : path.key = name
    · subst same
      rw [SortedMap.find?_insert_self] at found
      cases found
      exact .inr rfl
    · rw [SortedMap.find?_insert_of_ne _ _ same] at found
      exact grows.adds name value found

/-- Paths stand for the same under both maps, letter case aside. -/
def Agrees (left right : AliasMap) : Prop :=
  ∀ path : Path, path.Plain → (left.meaning path).same (right.meaning path) = true

theorem Agrees.symm (agrees : before.Agrees after) : after.Agrees before :=
  fun path plain => Path.same_symm (agrees path plain)

theorem Agrees.trans (first : before.Agrees middle) (second : middle.Agrees after) :
    before.Agrees after :=
  fun path plain => Path.same_trans (first path plain) (second path plain)

/-- A path whose key becomes a name stands for itself before and after. -/
theorem Grows.agrees (grows : before.Grows after) (values : after.Plain) : before.Agrees after := by
  intro path plain
  unfold meaning
  cases found : before.find? path.key with
  | some value =>
      rw [grows.keeps _ _ found]
      exact Path.same_refl value
  | none =>
      cases later : after.find? path.key with
      | none => exact Path.same_refl path
      | some value =>
          rcases grows.adds _ _ later with impossible | keys
          · rw [found] at impossible
            cases impossible
          · exact plain.same_of_key_eq (values _ _ later) keys.symm

end AliasMap

namespace Scope

open AliasMap (meaning)

variable {Q : Type} {scope also after alsoAfter : Scope Q} {objects : List (SourceObject Q)}
  {path other reached otherReached : Path} {steps otherSteps index : Nat}

/-- The scope with an object for the path, unless the key of the path is a name. -/
def opened (scope : Scope Q) (path : Path) : Scope Q :=
  if scope.aliases.contains path.key then scope else scope.register path

theorem opened_of_knows (known : scope.aliases.Knows path.key) : scope.opened path = scope := by
  obtain ⟨value, found⟩ := known
  rw [opened, if_pos (by rw [SortedMap.contains, found]; rfl)]

theorem grows_opened (scope : Scope Q) (path : Path) :
    scope.aliases.Grows (scope.opened path).aliases := by
  unfold opened
  split
  · exact .refl _
  · rename_i unknown
    exact (AliasMap.Grows.refl _).insert (by simpa [SortedMap.contains] using unknown)

theorem plain_opened (values : scope.aliases.Plain) (plain : path.Plain) :
    (scope.opened path).aliases.Plain := by
  intro key value found
  unfold opened at found
  split at found
  · exact values key value found
  · by_cases same : path.key = key
    · subst same
      rw [find?_register] at found
      cases found
      exact plain
    · rw [register, name, SortedMap.find?_insert_of_ne _ _ same] at found
      exact values key value found

/-- A step of a walk that may register objects. -/
theorem walkWithin_succ (steps : Nat) (scope : Scope Q) (inside : index + 1 < path.length) :
    walkWithin true (steps + 1) index path scope =
      walkWithin true steps (index + 1)
        (scope.aliases.meaning (path.take (index + 1)) ++ path.drop (index + 1))
        (scope.opened (path.take (index + 1))) := by
  rw [walkWithin, if_pos inside]
  cases found : scope.aliases.find? (Path.key (path.take (index + 1))) with
  | some value => simp [meaning, opened, SortedMap.contains, found]
  | none => simp [meaning, opened, SortedMap.contains, found]

theorem walkWithin_end (registers : Bool) (steps : Nat) (scope : Scope Q)
    (ends : path.length ≤ index + 1) :
    walkWithin registers (steps + 1) index path scope = .arrived path scope := by
  rw [walkWithin, if_neg (by omega)]

/-- Where paths stand for the same, walks along them arrive at the same. -/
theorem walkWithin_same (values : scope.aliases.Plain) (otherValues : also.aliases.Plain)
    (agrees : scope.aliases.Agrees also.aliases) (plain : path.Plain) (otherPlain : other.Plain)
    (same : path.same other = true)
    (arrives : walkWithin true steps index path scope = .arrived reached after)
    (arrivesToo : walkWithin true otherSteps index other also = .arrived otherReached alsoAfter) :
    reached.same otherReached = true := by
  induction steps generalizing otherSteps index path other scope also with
  | zero => cases arrives
  | succ steps induction =>
      cases otherSteps with
      | zero => cases arrivesToo
      | succ otherSteps =>
          have lengths := Path.length_eq_of_same same
          rcases Nat.lt_or_ge (index + 1) path.length with inside | ends
          · rw [walkWithin_succ _ _ inside] at arrives
            rw [walkWithin_succ _ _ (lengths ▸ inside)] at arrivesToo
            have beginnings := Path.same_take same (index + 1)
            have opens := plain_opened values (plain.take index)
            have opensToo := plain_opened otherValues (otherPlain.take index)
            refine induction opens opensToo ?_ ?_ ?_ ?_ arrives arrivesToo
            · exact ((grows_opened _ _).agrees opens).symm.trans
                (agrees.trans ((grows_opened _ _).agrees opensToo))
            · exact (values.meaning (plain.take index)).append (plain.undotted_of_mem_drop _)
            · exact (otherValues.meaning (otherPlain.take index)).append
                (otherPlain.undotted_of_mem_drop _)
            · refine Path.same_append ?_ (Path.same_drop same _)
              exact Path.same_trans (agrees _ (plain.take index))
                (also.aliases.meaning_same beginnings)
          · rw [walkWithin_end _ _ _ ends] at arrives
            rw [walkWithin_end _ _ _ (lengths ▸ ends)] at arrivesToo
            cases arrives
            cases arrivesToo
            exact same

/-- A walk along beginnings that stand for themselves arrives where it is bound for. -/
theorem walkWithin_fixed
    (fixed : ∀ length, index < length → length < path.length →
      scope.aliases.Fixes (path.take length))
    (arrives : walkWithin true steps index path scope = .arrived reached after) :
    reached.same path = true ∧ after = scope := by
  induction steps generalizing index path with
  | zero => cases arrives
  | succ steps induction =>
      rcases Nat.lt_or_ge (index + 1) path.length with inside | ends
      · have fixes := fixed (index + 1) (Nat.lt_succ_self _) inside
        rw [walkWithin_succ _ _ inside, opened_of_knows fixes.knows] at arrives
        have same : Path.same path
            (scope.aliases.meaning (path.take (index + 1)) ++ path.drop (index + 1)) = true := by
          have whole := Path.same_append (Path.same_symm fixes.meaning_same)
            (Path.same_refl (path.drop (index + 1)))
          rwa [List.take_append_drop] at whole
        obtain ⟨reaches, kept⟩ := induction (fun length longer less => by
          rw [← Path.length_eq_of_same same] at less
          exact (fixed length (Nat.lt_of_succ_lt longer) less).of_same
            (Path.same_take same length)) arrives
        exact ⟨Path.same_trans reaches (Path.same_symm same), kept⟩
      · rw [walkWithin_end _ _ _ ends] at arrives
        cases arrives
        exact ⟨Path.same_refl _, rfl⟩

/-- A walk to a name below which all is known goes on from what the name stands for. -/
theorem walkWithin_found {object value : Path} {segment : String} (inside : index < object.length)
    (fixed : ∀ length, index < length → length < object.length →
      scope.aliases.Fixes (object.take length))
    (found : scope.aliases.find? object.key = some value)
    (settled : ∀ length, 0 < length → length ≤ value.length →
      scope.aliases.Fixes (value.take length))
    (arrives : walkWithin true steps index (object ++ [segment]) scope = .arrived reached after) :
    reached.same (value ++ [segment]) = true ∧ after = scope := by
  induction steps generalizing index object with
  | zero => cases arrives
  | succ steps induction =>
      have taken : List.take (index + 1) (object ++ [segment]) = object.take (index + 1) :=
        List.take_append_of_le_length inside
      have dropped : List.drop (index + 1) (object ++ [segment]) =
          object.drop (index + 1) ++ [segment] := List.drop_append_of_le_length inside
      rw [walkWithin_succ _ _ (by simpa using inside), taken, dropped] at arrives
      rcases Nat.lt_or_ge (index + 1) object.length with further | last
      · have fixes := fixed (index + 1) (Nat.lt_succ_self _) further
        rw [opened_of_knows fixes.knows, ← List.append_assoc] at arrives
        have same : Path.same object
            (scope.aliases.meaning (object.take (index + 1)) ++ object.drop (index + 1)) = true := by
          have whole := Path.same_append (Path.same_symm fixes.meaning_same)
            (Path.same_refl (object.drop (index + 1)))
          rwa [List.take_append_drop] at whole
        refine induction ?_ (fun length longer less => ?_) ?_ arrives
        · rw [← Path.length_eq_of_same same]
          exact further
        · rw [← Path.length_eq_of_same same] at less
          exact (fixed length (Nat.lt_of_succ_lt longer) less).of_same (Path.same_take same length)
        · rwa [← Path.key_eq_of_same same]
      · have known : scope.aliases.Knows object.key := ⟨value, found⟩
        rw [List.take_of_length_le last, List.drop_eq_nil_of_le last, List.nil_append,
          opened_of_knows known, meaning, found, Option.getD_some] at arrives
        refine walkWithin_fixed (fun length longer less => ?_) arrives
        have least : length ≤ value.length := by simpa using Nat.le_of_lt_succ (by simpa using less)
        rw [List.take_append_of_le_length least]
        exact settled length (Nat.lt_of_le_of_lt (Nat.zero_le _) longer) least

/-- From the second segment on, a walk registers no object under a name without dots. -/
theorem walkWithin_dotted (values : scope.aliases.Plain) (plain : path.Plain) (begun : 0 < index)
    (arrives : walkWithin true steps index path scope = .arrived reached after) {name : String}
    (single : Path.dots name = 0) (known : after.aliases.Knows name) :
    scope.aliases.Knows name := by
  induction steps generalizing index path scope with
  | zero => cases arrives
  | succ steps induction =>
      rcases Nat.lt_or_ge (index + 1) path.length with inside | ends
      · rw [walkWithin_succ _ _ inside] at arrives
        have beginning := plain.take index
        have earlier := induction (plain_opened values beginning)
          ((values.meaning beginning).append (plain.undotted_of_mem_drop _)) (Nat.succ_pos index)
          arrives
        unfold opened at earlier
        split at earlier
        · exact earlier
        · rcases AliasMap.knows_insert_iff.1 earlier with rfl | known
          · rw [beginning.dots_key, List.length_take] at single
            omega
          · exact known
      · rw [walkWithin_end _ _ _ ends] at arrives
        cases arrives
        exact known

theorem exists_walkWithin (arrives : scope.walk true path = some (reached, after)) :
    ∃ steps, walkWithin true (steps + 1) 0 path scope = .arrived reached after := by
  have enough := walkWithin_ne_endless true (slack_lt_walkBound scope.aliases path)
  unfold walk at arrives
  cases bound : walkBound scope.aliases path with
  | zero =>
      rw [bound] at enough
      exact absurd rfl enough
  | succ steps =>
      rw [bound] at arrives enough
      split at arrives
      · cases arrives
        exact ⟨steps, ‹_›⟩
      · cases arrives
      · exact absurd ‹_› enough

end Scope

end ObjectQuery
