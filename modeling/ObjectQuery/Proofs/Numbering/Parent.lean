import ObjectQuery.Proofs.Numbering.View
import ObjectQuery.Proofs.Resolution.Order

namespace ObjectQuery

/-!
The links of objects to those that their paths pass through last. An object is
linked to one that has a number before it. Where no name holds a dot, all objects
with the same key are linked alike, so the node of a number keeps its link.
-/

namespace Ledger

/-- The objects have numbers that keys had before, or such as were not given before. -/
def Numbers (before : Ledger) (objects : List (SourceObject Q)) : Prop :=
  ∀ object ∈ objects, ∃ id, object.viewId = some id ∧
    ((∃ key, before.ids.find? key = some id) ∨ before.next ≤ id)

theorem Numbers.mono {before after : Ledger} {objects : List (SourceObject Q)}
    (numbers : after.Numbers objects) (grows : before.Grows after) : before.Numbers objects := by
  intro object member
  obtain ⟨id, numbered, source⟩ := numbers object member
  refine ⟨id, numbered, ?_⟩
  rcases source with ⟨key, found⟩ | least
  · exact (grows.fresh key id found).imp_left fun known => ⟨key, known⟩
  · exact .inr (Nat.le_trans grows.next least)

theorem Lists.numbers {before after : Ledger} {objects : List (SourceObject Q)}
    (lists : after.Lists objects) (grows : before.Grows after) : before.Numbers objects := by
  intro object member
  obtain ⟨id, numbered, found⟩ := lists object member
  exact ⟨id, numbered, (grows.fresh _ _ found).imp_left fun known => ⟨_, known⟩⟩

/-- Where keys had no numbers before, those of the objects were not given before. -/
theorem Numbers.least {ledger : Ledger} {objects : List (SourceObject Q)}
    (numbers : ledger.apart.Numbers objects) {object : SourceObject Q} (member : object ∈ objects)
    {id : Nat} (numbered : object.viewId = some id) : ledger.next ≤ id := by
  obtain ⟨own, same, source⟩ := numbers object member
  rw [numbered] at same
  cases same
  rcases source with ⟨key, impossible⟩ | least
  · cases impossible
  · exact least

end Ledger

namespace Chart

variable {before middle after chart : Chart} {path : Path} {id parentId : Nat}

/-- The node of the path is linked to the number of the path before its last segment. -/
structure Links (chart : Chart) (path : Path) (id parentId : Nat) : Prop where
  long : 1 < path.length
  own : chart.views.ids.find? path.key = some id
  parent : chart.views.ids.find? (Path.key path.parent) = some parentId
  node : ∃ node, chart.graph.find? id = some node ∧ node.parentViewId = some parentId

/-- The links of paths without dots stay. -/
def KeepsLinks (before after : Chart) : Prop :=
  ∀ path id parentId, path.Plain → before.Links path id parentId → after.Links path id parentId

theorem KeepsLinks.refl (chart : Chart) : chart.KeepsLinks chart :=
  fun _ _ _ _ links => links

theorem KeepsLinks.trans (first : before.KeepsLinks middle) (second : middle.KeepsLinks after) :
    before.KeepsLinks after :=
  fun path id parentId plain links =>
    second path id parentId plain (first path id parentId plain links)

/-- What is recorded apart leaves the links from before. -/
theorem KeepsLinks.rejoin {offset : Nat} (grows : (before.apart offset).Grows after)
    (sound : before.Sound) : before.KeepsLinks (before.rejoin after) := by
  rintro path id parentId _ ⟨long, own, parent, node, recorded, linked⟩
  have below := (sound.views.given _ _ own).2
  exact ⟨long, own, parent, node, (grows.others_of_apart below).trans recorded, linked⟩

/-- The node of the object's number has its link, and keeps it. -/
inductive Settles {Q : Type} (chart : Chart) (object : SourceObject Q) : Prop
  /-- The number is that of a key, whose node is linked as the object. -/
  | linked {id parentId : Nat} (plain : object.path.Plain) (numbered : object.viewId = some id)
      (parent : object.parentViewId = some parentId) (links : chart.Links object.path id parentId)
  /-- The number is that of no key any more. -/
  | free {id : Nat} {node : ViewNode} (numbered : object.viewId = some id)
      (below : id < chart.views.next) (free : ∀ key, chart.views.ids.find? key ≠ some id)
      (recorded : chart.graph.find? id = some node)
      (parent : node.parentViewId = object.parentViewId)

section

variable {Q : Type} {object : SourceObject Q} {objects : List (SourceObject Q)} {dotless : Prop}

theorem Settles.exists_node (settles : chart.Settles object) :
    ∃ id node, object.viewId = some id ∧ chart.graph.find? id = some node ∧
      node.parentViewId = object.parentViewId := by
  cases settles with
  | linked plain numbered parent links =>
      obtain ⟨node, recorded, linked⟩ := links.node
      exact ⟨_, node, numbered, recorded, linked.trans parent.symm⟩
  | free numbered below free recorded parent => exact ⟨_, _, numbered, recorded, parent⟩

theorem Settles.mono (settles : before.Settles object) (grows : before.Grows after)
    (keeps : before.KeepsLinks after) : after.Settles object := by
  cases settles with
  | linked plain numbered parent links =>
      exact .linked plain numbered parent (keeps _ _ _ plain links)
  | free numbered below free recorded parent =>
      exact .free numbered (Nat.lt_of_lt_of_le below grows.views.next)
        (grows.views.not_given below free) ((grows.others _ below free).trans recorded) parent

/-- Objects that were numbered apart keep their nodes once the numbers from before are back. -/
theorem Settles.rejoin {offset : Nat} (settles : after.Settles object)
    (grows : (before.apart offset).Grows after) (sound : before.Sound)
    (least : ∀ id, object.viewId = some id → before.views.next ≤ id) :
    (before.rejoin after).Settles object := by
  have free {id : Nat} (numbered : object.viewId = some id) (key : String) :
      before.views.ids.find? key ≠ some id := fun found =>
    Nat.not_lt_of_le (least id numbered) (sound.views.given key id found).2
  cases settles with
  | linked plain numbered parent links =>
      obtain ⟨node, recorded, linked⟩ := links.node
      exact .free numbered (grows.sound.views.given _ _ links.own).2 (free numbered) recorded
        (linked.trans parent.symm)
  | free numbered below _ recorded parent => exact .free numbered below (free numbered) recorded parent

/-- The object is linked to the number, and so is its node where no name holds a dot. -/
structure Attached (dotless : Prop) (chart : Chart) (object : SourceObject Q) (id : Nat) :
    Prop where
  parent : object.parentViewId = some id
  settles : dotless → chart.Settles object

theorem Attached.mono (attached : Attached dotless before object id) (grows : before.Grows after)
    (keeps : dotless → before.KeepsLinks after) : Attached dotless after object id :=
  ⟨attached.parent, fun plain => (attached.settles plain).mono grows (keeps plain)⟩

theorem Attaches.exists_node (attaches : before.Attaches object after) :
    ∃ id node, object.viewId = some id ∧ after.views.ids.find? object.key = some id ∧
      after.graph.find? id = some node ∧ node.parentViewId = object.parentViewId := by
  obtain ⟨id, node, numbered, recorded, linked⟩ := attaches.node
  obtain ⟨given, _, same, gives, _⟩ := attaches.records.step
  cases numbered.symm.trans same
  exact ⟨id, node, numbered, gives.find?, recorded, linked⟩

theorem Attaches.keepsLinks (attaches : before.Attaches object after) (sound : before.Sound)
    (keyed : object.key = object.path.key) (plain : object.path.Plain) :
    before.KeepsLinks after := by
  rintro path id parentId pathPlain ⟨long, own, parent, node, recorded, linked⟩
  have grows := (attaches.records.grows sound).views
  refine ⟨long, grows.keeps _ _ own, grows.keeps _ _ parent, ?_⟩
  by_cases same : object.key = path.key
  · -- An object with this key is linked to the same number again.
    have alike := (Path.same_iff _ _).1 (plain.same_of_key_eq pathPlain (keyed.symm.trans same))
    have lengths : object.path.length = path.length := by simpa using congrArg List.length alike
    have parents : Path.key object.path.parent = Path.key path.parent := by
      refine Path.key_eq_of_same ((Path.same_iff _ _).2 ?_)
      rw [Path.parent, Path.parent, List.map_dropLast, List.map_dropLast, alike]
    have again := attaches.parent (lengths ▸ long) parentId (parents ▸ grows.keeps _ _ parent)
    obtain ⟨number, node, _, known, recorded, linked⟩ := attaches.exists_node
    rw [same, grows.keeps _ _ own] at known
    cases known
    exact ⟨node, recorded, linked.trans again⟩
  · obtain ⟨number, _, _, gives, _, graph, _⟩ := attaches.records.step
    refine ⟨node, ?_, linked⟩
    rw [graph, SortedMap.find?_insert_of_ne _ _, recorded]
    rintro rfl
    exact same (gives.eq_key sound.views (grows.keeps _ _ own)).symm

theorem Attaches.attached (attaches : before.Attaches object after)
    (keyed : object.key = object.path.key) (plain : dotless → object.path.Plain)
    (long : 1 < object.path.length)
    (found : after.views.ids.find? (Path.key object.path.parent) = some parentId) :
    Attached dotless after object parentId := by
  have parent := attaches.parent long parentId found
  refine ⟨parent, fun dotless => ?_⟩
  obtain ⟨id, node, numbered, known, recorded, linked⟩ := attaches.exists_node
  exact .linked (plain dotless) numbered parent
    ⟨long, keyed ▸ known, found, node, recorded, linked.trans parent⟩

theorem AttachesAll.keepsLinks (attaches : before.AttachesAll objects after) (sound : before.Sound)
    (keyed : ∀ object ∈ objects, object.key = object.path.key)
    (plain : ∀ object ∈ objects, object.path.Plain) : before.KeepsLinks after := by
  induction attaches with
  | nil => exact .refl _
  | cons attaches later induction =>
      obtain ⟨ownKey, keys⟩ := List.forall_mem_cons.1 keyed
      obtain ⟨ownPlain, plains⟩ := List.forall_mem_cons.1 plain
      exact (attaches.keepsLinks sound ownKey ownPlain).trans
        (induction (attaches.records.grows sound).sound keys plains)

/-- Objects are linked to numbers that are known before. -/
theorem AttachesAll.attached (attaches : before.AttachesAll objects after) (sound : before.Sound)
    (keyed : ∀ object ∈ objects, object.key = object.path.key)
    (plain : dotless → ∀ object ∈ objects, object.path.Plain) (member : object ∈ objects)
    (long : 1 < object.path.length)
    (found : before.views.ids.find? (Path.key object.path.parent) = some parentId) :
    Attached dotless after object parentId := by
  induction attaches with
  | nil => cases member
  | @cons before middle after first rest attaches later induction =>
      obtain ⟨ownKey, keys⟩ := List.forall_mem_cons.1 keyed
      have plains (dotless : dotless) := List.forall_mem_cons.1 (plain dotless)
      have grows := attaches.records.grows sound
      have known := grows.views.keeps _ _ found
      rcases List.mem_cons.1 member with rfl | other
      · have own := attaches.attached ownKey (fun dotless => (plains dotless).1) long known
        exact own.mono (later.recordsAll.grows grows.sound).1 fun dotless =>
          later.keepsLinks grows.sound keys (plains dotless).2
      · exact induction grows.sound keys (fun dotless => (plains dotless).2) other known

theorem AttachesAll.exists_append {first second : List (SourceObject Q)}
    (attaches : before.AttachesAll (first ++ second) after) :
    ∃ middle, before.AttachesAll first middle ∧ middle.AttachesAll second after := by
  induction first generalizing before with
  | nil => exact ⟨before, .nil, attaches⟩
  | cons object rest induction =>
      cases attaches with
      | cons own later =>
          obtain ⟨middle, earlier, others⟩ := induction later
          exact ⟨middle, .cons own earlier, others⟩

/-- An object after the first is linked to that of its path before the last segment. -/
theorem AttachesAll.attached_of_ordered {statement : Statement Q}
    (attaches : before.AttachesAll statement.objects after) (sound : before.Sound)
    (ordered : statement.Ordered)
    (plain : dotless → ∀ object ∈ statement.objects, object.path.Plain)
    {parent : SourceObject Q} (member : object ∈ statement.objects.tail)
    (parentMember : parent ∈ statement.objects) (long : 1 < object.path.length)
    (same : parent.path.same object.path.parent = true) :
    ∃ id, parent.viewId = some id ∧ Attached dotless after object id := by
  cases objects : statement.objects with
  | nil => simp [objects] at member
  | cons primary rest =>
      have keyed := ordered.keyed
      have ascending := ordered.ascending
      rw [objects] at attaches keyed plain member parentMember ascending
      obtain ⟨earlier, later, rfl⟩ := List.append_of_mem member
      -- The other objects are no nearer than this one, which is farther than its parent.
      have nearer : parent.path.length < object.path.length := by
        have lengths := congrArg List.length ((Path.same_iff _ _).1 same)
        simp only [List.length_map, Path.parent, List.length_dropLast] at lengths
        omega
      have farther := (List.pairwise_cons.1 (List.pairwise_append.1 ascending).2.1).1
      have listed : parent ∈ primary :: earlier := by
        rcases List.mem_append.1 (show parent ∈ (primary :: earlier) ++ object :: later from
          parentMember) with given | given
        · exact given
        · rcases List.mem_cons.1 given with rfl | given
          · exact absurd nearer (Nat.lt_irrefl _)
          · exact absurd nearer (Nat.not_lt_of_le (farther parent given))
      have parts : before.AttachesAll ((primary :: earlier) ++ object :: later) after := attaches
      obtain ⟨middle, first, second⟩ := parts.exists_append
      obtain ⟨grows, lists⟩ := first.recordsAll.grows sound
      obtain ⟨id, numbered, found⟩ := lists parent listed
      rw [keyed parent parentMember, Path.key_eq_of_same same] at found
      refine ⟨id, numbered, second.attached grows.sound (fun other given => keyed other ?_)
        (fun dotless other given => plain dotless other ?_) List.mem_cons_self long found⟩
      · exact List.mem_cons_of_mem _ (List.mem_append_right _ given)
      · exact List.mem_cons_of_mem _ (List.mem_append_right _ given)

end

end Chart

end ObjectQuery
