import Mathlib.Algebra.GroupWithZero.Nat
import ObjectQuery.Proofs.Query.Key
import ObjectQuery.Resolution.Scope

namespace ObjectQuery

/-!
Walks along paths. A walk never exceeds its steps, and where it arrives each
shorter beginning of the path is that of an object that is known.
-/

namespace SortedMap

variable {κ ν : Type} [Ord κ]

theorem mem_entries_of_find? [Std.LawfulEqOrd κ] {map : SortedMap κ ν} {key : κ} {value : ν}
    (found : map.find? key = some value) : (key, value) ∈ map.entries := by
  obtain ⟨⟨other, _⟩, present, rfl⟩ := Option.map_eq_some_iff.1 found
  have same : compare other key = .eq := by simpa only [beq_iff_eq] using List.find?_some present
  exact Std.LawfulEqCmp.eq_of_compare same ▸ List.mem_of_find?_eq_some present

theorem sum_insertEntry_le (weight : κ × ν → Nat) (key : κ) (value : ν) (entries : List (κ × ν)) :
    ((insertEntry key value entries).map weight).sum ≤
      weight (key, value) + (entries.map weight).sum := by
  induction entries with
  | nil => simp [insertEntry]
  | cons head rest induction =>
      unfold insertEntry
      split <;> simp only [List.map_cons, List.sum_cons] <;> omega

end SortedMap

namespace Path

variable {Q : Type}

/-- The path is one of those that are known elsewhere, or that of one of the objects. -/
def Within (known : Path → Prop) (objects : List (SourceObject Q)) (path : Path) : Prop :=
  known path ∨ ∃ object ∈ objects, object.path = path

theorem Within.mono {known weaker : Path → Prop} {before after : List (SourceObject Q)}
    {path : Path} (within : path.Within known before) (weaken : known path → weaker path)
    (keeps : before ⊆ after) : path.Within weaker after :=
  within.imp weaken fun ⟨object, member, same⟩ => ⟨object, keeps member, same⟩

/-- Each beginning of the path is known elsewhere, or the path of one of the objects. -/
structure LocatedIn (known : Path → Prop) (objects : List (SourceObject Q)) (path : Path) :
    Prop where
  plain : path.Plain
  beginnings : ∀ length, 0 < length → Within known objects (path.take length)

namespace LocatedIn

variable {known weaker : Path → Prop} {before after : List (SourceObject Q)} {path : Path}

theorem within (located : path.LocatedIn known before) : path.Within known before := by
  have whole := located.beginnings path.length (List.length_pos_iff.2 located.plain.1)
  rwa [List.take_length] at whole

theorem weaken (located : path.LocatedIn known before) (weaken : ∀ path, known path → weaker path)
    (keeps : before ⊆ after) : path.LocatedIn weaker after :=
  ⟨located.plain, fun length positive =>
    (located.beginnings length positive).mono (weaken _) keeps⟩

theorem mono (located : path.LocatedIn known before) (keeps : before ⊆ after) :
    path.LocatedIn known after :=
  located.weaken (fun _ knows => knows) keeps

/-- A path is located where it is known itself, as its beginnings are that are shorter. -/
theorem of_shorter (plain : path.Plain)
    (shorter : ∀ length, 0 < length → length < path.length → Within known before (path.take length))
    (own : path.Within known before) : path.LocatedIn known before where
  plain := plain
  beginnings length positive := by
    rcases Nat.lt_or_ge length path.length with less | all
    · exact shorter length positive less
    · rwa [List.take_of_length_le all]

end LocatedIn

end Path

namespace Scope

variable {Q : Type}

/-- How much an entry may still lengthen a path whose first `index` segments were looked at. -/
def reach (index : Nat) (entry : String × Path) : Nat :=
  (Path.dots entry.1 + 1 - index) * (entry.2.length - index)

/-- What a walk has left of its steps, at the least. -/
def slack (index : Nat) (path : Path) (aliases : AliasMap) : Nat :=
  path.length - index + (aliases.entries.map (reach index)).sum

theorem slack_lt_walkBound (aliases : AliasMap) (path : Path) :
    slack 0 path aliases < walkBound aliases path := by
  unfold slack walkBound
  induction aliases.entries with
  | nil => simp
  | cons entry rest induction =>
      simp only [List.map_cons, List.sum_cons, List.foldr_cons, reach, Path.dots, Nat.sub_zero]
        at induction ⊢
      omega

theorem reach_succ_le (index : Nat) (entry : String × Path) :
    reach (index + 1) entry ≤ reach index entry :=
  Nat.mul_le_mul (by omega) (by omega)

theorem sum_reach_succ_le (index : Nat) (entries : List (String × Path)) :
    (entries.map (reach (index + 1))).sum ≤ (entries.map (reach index)).sum := by
  induction entries with
  | nil => exact Nat.le_refl _
  | cons entry rest induction => exact Nat.add_le_add (reach_succ_le index entry) induction

/-- What an entry gives to a path, it can give less often from then on. -/
theorem length_add_reach_succ_lt {index : Nat} {key : String} (qualified : Path) {length : Nat}
    (inside : index + 1 < length) (dots : index ≤ Path.dots key) :
    qualified.length + (length - (index + 1)) - (index + 1) + reach (index + 1) (key, qualified) <
      length - index + reach index (key, qualified) := by
  unfold reach
  dsimp only
  -- Both factors of the reach get less by one, which outweighs what the path gains.
  obtain ⟨more, same⟩ := Nat.exists_eq_add_of_le dots
  rcases Nat.lt_or_ge index qualified.length with longer | shorter
  · obtain ⟨extra, extended⟩ := Nat.exists_eq_add_of_lt longer
    have before : (Path.dots key + 1 - index) * (qualified.length - index) =
        more * extra + more + extra + 1 := by
      rw [same, extended, show index + more + 1 - index = more + 1 by omega,
        show index + extra + 1 - index = extra + 1 by omega, Nat.succ_mul_succ]
    have after : (Path.dots key + 1 - (index + 1)) * (qualified.length - (index + 1)) =
        more * extra := by
      rw [same, extended, show index + more + 1 - (index + 1) = more by omega,
        show index + extra + 1 - (index + 1) = extra by omega]
    omega
  · rw [Nat.sub_eq_zero_of_le shorter, Nat.sub_eq_zero_of_le (Nat.le_succ_of_le shorter)]
    omega

/-- A beginning that is replaced by what it stands for uses up some of the steps. -/
theorem slack_replace_lt {aliases : AliasMap} {index : Nat} {path qualified : Path}
    (inside : index + 1 < path.length)
    (found : aliases.find? (Path.key (path.take (index + 1))) = some qualified) :
    slack (index + 1) (qualified ++ path.drop (index + 1)) aliases < slack index path aliases := by
  have dots : index ≤ Path.dots (Path.key (path.take (index + 1))) := by
    have length := Path.length_le_dots (path.take (index + 1))
    rw [List.length_take] at length
    omega
  obtain ⟨before, after, entries⟩ :=
    List.append_of_mem (SortedMap.mem_entries_of_find? found)
  have gives := length_add_reach_succ_lt qualified inside dots
  have earlier := sum_reach_succ_le index before
  have later := sum_reach_succ_le index after
  simp only [slack, entries, List.map_append, List.map_cons, List.sum_append, List.sum_cons,
    List.length_append, List.length_drop]
  omega

theorem slack_register_lt (scope : Scope Q) {index : Nat} {path : Path}
    (inside : index + 1 < path.length) :
    slack (index + 1) path (scope.register (path.take (index + 1))).aliases <
      slack index path scope.aliases := by
  have inserted := SortedMap.sum_insertEntry_le (reach (index + 1))
    (Path.key (path.take (index + 1))) (path.take (index + 1)) scope.aliases.entries
  have own : reach (index + 1) (Path.key (path.take (index + 1)), path.take (index + 1)) = 0 := by
    simp only [reach, List.length_take, Nat.mul_eq_zero]
    omega
  have less := sum_reach_succ_le index scope.aliases.entries
  simp only [slack, register, name, SortedMap.insert] at inserted ⊢
  omega

/-- The steps of a walk suffice. -/
theorem walkWithin_ne_endless (registers : Bool) {steps index : Nat} {path : Path}
    {scope : Scope Q} (enough : slack index path scope.aliases < steps) :
    walkWithin registers steps index path scope ≠ .endless := by
  induction steps generalizing index path scope with
  | zero => omega
  | succ steps induction =>
      unfold walkWithin
      split
      · rename_i inside
        dsimp only
        split
        · rename_i qualified found
          have less := slack_replace_lt inside found
          exact induction (by omega)
        · split
          · have less := slack_register_lt scope inside
            exact induction (by omega)
          · exact fun impossible => by cases impossible
      · exact fun impossible => by cases impossible

/-- Objects have the keys of their paths, and names stand for paths of objects. -/
structure Sound (known : Path → Prop) (scope : Scope Q) : Prop where
  objects : ∀ object ∈ scope.objects,
    object.path.LocatedIn known scope.objects ∧ object.key = object.path.key
  aliases : ∀ name path, scope.aliases.find? name = some path →
    path.Named name ∧ path.LocatedIn known scope.objects

/-- Names that stand for paths that are known, like their beginnings. -/
def Inherits (known : Path → Prop) (aliases : AliasMap) : Prop :=
  ∀ name path, aliases.find? name = some path →
    path.Named name ∧ path.Plain ∧ ∀ length, known (path.take length)

theorem inherits_empty (known : Path → Prop) : Inherits known .empty :=
  fun _ _ impossible => by cases impossible

/-- A scope that is sound, with more objects after those from before. -/
structure Leads (known : Path → Prop) (before after : Scope Q) : Prop where
  sound : after.Sound known
  objects : before.objects <+: after.objects

section

variable {known : Path → Prop} {scope before middle after : Scope Q} {path : Path}

theorem Leads.refl (sound : scope.Sound known) : Leads known scope scope :=
  ⟨sound, List.prefix_rfl⟩

theorem Leads.trans (first : Leads known before middle) (second : Leads known middle after) :
    Leads known before after :=
  ⟨second.sound, first.objects.trans second.objects⟩

theorem Leads.objects_ne_nil (leads : Leads known before after) (nonempty : before.objects ≠ []) :
    after.objects ≠ [] := by
  obtain ⟨rest, same⟩ := leads.objects
  exact same ▸ List.append_ne_nil_of_left_ne_nil nonempty rest

theorem Sound.mono {weaker : Path → Prop} (sound : scope.Sound known)
    (weaken : ∀ path, known path → weaker path) : scope.Sound weaker where
  objects object member :=
    (sound.objects object member).imp_left fun located => located.weaken weaken (List.Subset.refl _)
  aliases name path found :=
    (sound.aliases name path found).imp_right fun located =>
      located.weaken weaken (List.Subset.refl _)

theorem Sound.name (sound : scope.Sound known) {key : String} (named : path.Named key)
    (located : path.LocatedIn known scope.objects) : (scope.name key path).Sound known where
  objects := sound.objects
  aliases other value found := by
    by_cases same : key = other
    · subst same
      rw [Scope.name, SortedMap.find?_insert_self] at found
      cases found
      exact ⟨named, located⟩
    · rw [Scope.name, SortedMap.find?_insert_of_ne _ _ same] at found
      exact sound.aliases other value found

theorem leads_mention (sound : scope.Sound known) (isAggregation : Bool) (mentions : Mentions) :
    Leads known scope { scope with isAggregation, mentions } :=
  ⟨⟨sound.objects, sound.aliases⟩, List.prefix_rfl⟩

theorem within_register : path.Within known (scope.register path).objects :=
  .inr ⟨_, List.mem_append_right _ (List.mem_singleton_self _), rfl⟩

theorem leads_register (sound : scope.Sound known)
    (located : path.LocatedIn known (scope.register path).objects) :
    Leads known scope (scope.register path) := by
  have begins : scope.objects <+: (scope.register path).objects := List.prefix_append ..
  refine ⟨⟨?_, fun key other found => ?_⟩, begins⟩
  · refine List.forall_mem_append.2 ⟨fun object member => ?_, by simpa using located⟩
    exact (sound.objects object member).imp_left fun located => located.mono begins.subset
  · by_cases same : path.key = key
    · subst same
      rw [find?_register] at found
      cases found
      exact ⟨located.plain.named_key, located⟩
    · rw [register, name, SortedMap.find?_insert_of_ne _ _ same] at found
      obtain ⟨named, located⟩ := sound.aliases key other found
      exact ⟨named, located.mono begins.subset⟩

/-- Where a walk arrives, the shorter beginnings of the path are those of objects that are known. -/
theorem walkWithin_arrives {registers : Bool} {steps index : Nat} {reached : Path}
    (sound : scope.Sound known) (plain : path.Plain) (inside : index < path.length)
    (looked : ∀ length, 0 < length → length ≤ index →
      Path.Within known scope.objects (path.take length))
    (arrives : walkWithin registers steps index path scope = .arrived reached after) :
    Leads known scope after ∧ reached.Plain ∧ min (index + 2) path.length ≤ reached.length ∧
      ∀ length, 0 < length → length < reached.length →
        Path.Within known after.objects (reached.take length) := by
  induction steps generalizing index path scope with
  | zero => cases arrives
  | succ steps induction =>
      unfold walkWithin at arrives
      split at arrives
      · rename_i more
        dsimp only at arrives
        split at arrives
        · rename_i qualified found
          obtain ⟨named, located⟩ := sound.aliases _ _ found
          have dots : Path.dots (Path.key (path.take (index + 1))) = index := by
            rw [(plain.take index).dots_key, List.length_take]
            omega
          rw [Path.Named, dots] at named
          have nonempty := List.length_pos_iff.2 located.plain.1
          have length : (qualified ++ path.drop (index + 1)).length =
              qualified.length + (path.length - (index + 1)) := by
            rw [List.length_append, List.length_drop]
          have looks : ∀ other, 0 < other → other ≤ index + 1 →
              Path.Within known scope.objects
                ((qualified ++ path.drop (index + 1)).take other) := by
            intro other positive least
            rw [List.take_append_of_le_length (by omega)]
            exact located.beginnings other positive
          obtain ⟨leads, plain, long, within⟩ :=
            induction sound (located.plain.append (plain.undotted_of_mem_drop _)) (by omega) looks
              arrives
          exact ⟨leads, plain, by omega, within⟩
        · split at arrives
          · have located : Path.LocatedIn known (scope.register (path.take (index + 1))).objects
                (path.take (index + 1)) := by
              refine .of_shorter (plain.take index) (fun other positive less => ?_) within_register
              rw [List.length_take] at less
              rw [List.take_take, Nat.min_eq_left (by omega)]
              exact (looked other positive (by omega)).mono id (List.subset_append_left ..)
            have registered := leads_register sound located
            have looks : ∀ length, 0 < length → length ≤ index + 1 →
                Path.Within known (scope.register (path.take (index + 1))).objects
                  (path.take length) := by
              intro other positive least
              have own := located.beginnings other positive
              rwa [List.take_take, Nat.min_eq_left least] at own
            obtain ⟨leads, plain, long, within⟩ :=
              induction registered.sound plain more looks arrives
            exact ⟨registered.trans leads, plain, by omega, within⟩
          · cases arrives
      · cases arrives
        exact ⟨.refl sound, plain, Nat.min_le_right .., fun length positive less =>
          looked length positive (by omega)⟩

theorem walk_arrives {registers : Bool} {reached : Path} (sound : scope.Sound known)
    (plain : path.Plain) (arrives : scope.walk registers path = some (reached, after)) :
    Leads known scope after ∧ reached.Plain ∧ min 2 path.length ≤ reached.length ∧
      ∀ length, 0 < length → length < reached.length →
        Path.Within known after.objects (reached.take length) := by
  have enough := walkWithin_ne_endless registers (slack_lt_walkBound scope.aliases path)
  unfold walk at arrives
  split at arrives
  · cases arrives
    exact walkWithin_arrives sound plain (List.length_pos_iff.2 plain.1)
      (fun _ _ _ => by omega) ‹_›
  · cases arrives
  · exact absurd ‹_› enough

end

end Scope

end ObjectQuery
