import ObjectQuery.Proofs.Wire.Document
import ObjectQuery.Proofs.Wire.Field
import ObjectQuery.Wire.Metadata

namespace ObjectQuery

/-! Written metadata, which is read back. -/

open Member

namespace SortedSet

variable {κ : Type} [Ord κ] [Std.TransOrd κ] [Std.LawfulEqOrd κ]

theorem ofList_toList (set : SortedSet κ) : ofList (toList set) = set := by
  rw [← SortedMap.ofList_entries set, ofList, toList, SortedMap.keys, SortedMap.ofList_entries,
    List.foldl_map]
  exact SortedMap.ofList_entries set

end SortedSet

theorem readAs_set (set : SortedSet String) (level : Nat) :
    (setJson set).ReadAs level (MetadataDraft.set level) set := by
  have readAs : (setJson set).ReadAs level (MetadataDraft.set level)
      (SortedSet.ofList (SortedSet.toList set)) :=
    (Json.ReadAs.strings (SortedSet.toList set)).map SortedSet.ofList
  rwa [SortedSet.ofList_toList] at readAs

namespace Json

theorem quoted_toString (number : Nat) : quoted (toString number) = (toString number).toList := by
  have plain : ∀ digit : Fin 10, escaped digit.val.digitChar = [digit.val.digitChar] := by decide
  rw [quoted, Nat.toString_eq_repr, Nat.toList_repr]
  induction number using Nat.strongRecOn with
  | ind number induction =>
      rw [Nat.toDigits_eq_if (by decide)]
      split
      · rename_i small
        simpa using plain ⟨number, small⟩
      · rw [List.flatMap_append, induction _ (by omega)]
        simpa using plain ⟨number % 10, Nat.mod_lt _ (by decide)⟩

end Json

namespace Member

theorem number_quoted {value : Nat} (small : value < UInt64.size) (after : List Char)
    (line : Nat) :
    number ⟨Json.quoted (toString value) ++ '"' :: after, line⟩ = .ok value := by
  have least : Int64.minValue.toInt ≤ value := Int.le_trans (by decide) (Int.natCast_nonneg value)
  have alone := NumberToken.read_toString least (Int.ofNat_lt.2 small) line
  have ends : NumberToken.Ends ('"' :: after) := NumberToken.ends_cons after (by decide) (by decide)
  have text : (toString (value : Int)).toList = Json.quoted (toString value) :=
    (Json.quoted_toString value).symm
  rw [text] at alone
  rw [number, if_pos (NumberToken.isAhead_of_read alone _ line),
    NumberToken.read_local ends alone]
  simp [Node.count, Node.natural, small]

variable {α : Type} {encode : α → Json} {read : Node → Read α}

theorem readNumbered_foldl {level : Nat} (map : SortedMap Nat α) {entries : List (Nat × α)}
    (numbers : ∀ entry ∈ entries, entry.1 < UInt64.size)
    (readAs : ∀ entry ∈ entries, (encode entry.2).ReadAs level read entry.2) :
    Json.MembersReadAs level (entries.map fun entry => (toString entry.1, encode entry.2))
      (readNumbered read map)
      (entries.foldl (fun map entry => map.insert entry.1 entry.2) map) := by
  intro shallow
  induction entries generalizing map with
  | nil =>
      refine ⟨trivial, fun entries shows => ?_⟩
      cases shows
      rfl
  | cons entry rest induction =>
      obtain ⟨isNumber, areNumbers⟩ := List.forall_mem_cons.1 numbers
      obtain ⟨readFirst, readRest⟩ := List.forall_mem_cons.1 readAs
      obtain ⟨shallowFirst, shallowRest⟩ := Nat.max_le.1 shallow
      obtain ⟨soundFirst, readsFirst⟩ := readFirst shallowFirst
      obtain ⟨soundRest, readsRest⟩ :=
        induction (map.insert entry.1 entry.2) areNumbers readRest shallowRest
      refine ⟨⟨soundFirst, soundRest⟩, fun entries shows => ?_⟩
      cases shows with
      | cons name showsFirst showsRest after line =>
          simp only [readNumbered, number_quoted isNumber, readsFirst _ showsFirst,
            Except.ok_bind, readsRest _ showsRest, List.foldl_cons]

end Member

namespace MetadataDraft

variable {α : Type} {encode : α → Json} {read : Nat → Node → Read α}

/-- A graph is read by its entries, in the order of their numbers. -/
theorem readAs_graph {graph : SortedMap Nat α} {level : Nat}
    (numbers : ∀ entry ∈ graph.entries, entry.1 < UInt64.size)
    (readAs : ∀ entry ∈ graph.entries, ∀ level,
      (encode entry.2).ReadAs level (read level) entry.2) :
    (graphJson encode graph).ReadAs level (MetadataDraft.graph level read) graph := by
  cases level with
  | zero => exact .record_zero
  | succ level =>
      have folded := readNumbered_foldl .empty numbers fun entry member => readAs entry member level
      rw [← SortedMap.ofList, SortedMap.ofList_entries] at folded
      exact .record _ folded

end MetadataDraft

namespace QueryNode

/-- The numbers of a query in the graph are such as 64 bits hold. -/
@[mk_iff]
structure IsWritable (node : QueryNode) : Prop where
  parentId : ∀ id ∈ node.parentId, id < UInt64.size
  depth : node.depth < UInt64.size

instance : DecidablePred IsWritable :=
  fun node => decidable_of_iff _ (isWritable_iff node).symm

theorem readAs {node : QueryNode} (writable : node.IsWritable) (level : Nat) :
    node.toJson.ReadAs level (ofNode level) node := by
  cases level with
  | zero => exact .record_zero
  | succ level =>
      refine .record _ (.bind (Fills.readOnce
        (.append (.append
          (.orNull rfl fun id found => ⟨.count (writable.parentId id found), by simp [Json.nat]⟩)
          (.one rfl (.count writable.depth))) (.flag node.isConditional rfl)) (by decide)) ?_)
      rfl

end QueryNode

namespace ViewNode

/-- The numbers of an object in the graph are such as 64 bits hold. -/
@[mk_iff]
structure IsWritable (node : ViewNode) : Prop where
  parentViewId : ∀ id ∈ node.parentViewId, id < UInt64.size
  queryId : node.queryId < UInt64.size
  depth : node.depth < UInt64.size
  queryDepth : node.queryDepth < UInt64.size

instance : DecidablePred IsWritable :=
  fun node => decidable_of_iff _ (isWritable_iff node).symm

theorem readAs {node : ViewNode} (writable : node.IsWritable) (level : Nat) :
    node.toJson.ReadAs level (ofNode level) node := by
  cases level with
  | zero => exact .record_zero
  | succ level =>
      refine .record _ (.bind (Fills.readOnce
        (.append
          (.orNull rfl fun id found =>
            ⟨.count (writable.parentViewId id found), by simp [Json.nat]⟩)
          (.step rfl (.count writable.queryId) (.step rfl (.count writable.depth)
            (.one rfl (.count writable.queryDepth))))) (by decide)) ?_)
      rfl

end ViewNode

namespace Metadata

/-- The date has a year of four digits, and the numbers are such as 64 bits hold. -/
@[mk_iff]
structure IsWritable (metadata : Metadata) : Prop where
  date : metadata.date.IsWritable
  elapsedTime : metadata.elapsedTime < UInt64.size
  maxQueryDepth : metadata.maxQueryDepth < UInt64.size
  maxViewDepth : metadata.maxViewDepth < UInt64.size
  nextQueryId : metadata.nextQueryId < UInt64.size
  nextViewId : metadata.nextViewId < UInt64.size
  nextColumnId : metadata.nextColumnId < UInt64.size
  queryNumbers : ∀ entry ∈ metadata.queryGraph.entries, entry.1 < UInt64.size
  queryNodes : ∀ entry ∈ metadata.queryGraph.entries, entry.2.IsWritable
  viewNumbers : ∀ entry ∈ metadata.viewGraph.entries, entry.1 < UInt64.size
  viewNodes : ∀ entry ∈ metadata.viewGraph.entries, entry.2.IsWritable

instance : DecidablePred IsWritable :=
  fun metadata => decidable_of_iff _ (isWritable_iff metadata).symm

theorem readAs {metadata : Metadata} (writable : metadata.IsWritable) (level : Nat) :
    metadata.toJson.ReadAs level (ofNode level) metadata := by
  cases level with
  | zero => exact .record_zero
  | succ level =>
      refine .record _ (.bind (Fills.readOnce
        (.step rfl (.text metadata.version)
        (.step rfl (Instant.readAs_loose writable.date level)
        (.step rfl (.natural "u64" writable.elapsedTime (Nat.le_refl _))
        (.step rfl (.text metadata.source)
        (.step rfl (.count writable.maxQueryDepth)
        (.step rfl (.count writable.maxViewDepth)
        (.step rfl (.count writable.nextQueryId)
        (.step rfl (.count writable.nextViewId)
        (.step rfl (.count writable.nextColumnId)
        (.step rfl (MetadataDraft.readAs_graph writable.queryNumbers fun entry member =>
          QueryNode.readAs (writable.queryNodes entry member))
        (.step rfl (MetadataDraft.readAs_graph writable.viewNumbers fun entry member =>
          ViewNode.readAs (writable.viewNodes entry member))
        (.step rfl (readAs_set metadata.functions level)
        (.step rfl (readAs_set metadata.parameters level)
        (.one rfl (readAs_set metadata.relativeDates level))))))))))))))) (by decide)) ?_)
      rfl

end Metadata

end ObjectQuery
