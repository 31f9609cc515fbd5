import Mathlib.Data.List.Forall2
import ObjectQuery.Collection.SortedMap

/-!
Options and lists with related elements in the same places: what is found in
them, and what becomes of them, is related as well.
-/

namespace Option.Rel

variable {α β γ δ : Type} {related : α → β → Prop} {results : γ → δ → Prop} {value : Option α}
  {other : Option β}

theorem refl {related : α → α → Prop} (each : ∀ value, related value value) :
    (value : Option α) → Option.Rel related value value
  | .none => .none
  | .some value => .some (each value)

theorem elim (same : Option.Rel related value other) :
    (value = .none ∧ other = .none) ∨
      ∃ found also, value = .some found ∧ other = .some also ∧ related found also := by
  cases same with
  | none => exact .inl ⟨rfl, rfl⟩
  | some alike => exact .inr ⟨_, _, rfl, rfl, alike⟩

theorem isSome_eq (same : Option.Rel related value other) : value.isSome = other.isSome := by
  cases same <;> rfl

theorem imp {weaker : α → β → Prop} (same : Option.Rel related value other)
    (weaken : ∀ value other, related value other → weaker value other) :
    Option.Rel weaker value other := by
  cases same with
  | none => exact .none
  | some alike => exact .some (weaken _ _ alike)

theorem map {f : α → γ} {g : β → δ} (same : Option.Rel related value other)
    (each : ∀ value other, related value other → results (f value) (g other)) :
    Option.Rel results (Option.map f value) (Option.map g other) := by
  cases same with
  | none => exact .none
  | some alike => exact .some (each _ _ alike)

theorem bind {f : α → Option γ} {g : β → Option δ} (same : Option.Rel related value other)
    (each : ∀ value other, related value other → Option.Rel results (f value) (g other)) :
    Option.Rel results (value.bind f) (other.bind g) := by
  cases same with
  | none => exact .none
  | some alike => exact each _ _ alike

theorem getD (same : Option.Rel related value other) (default : α) (also : β)
    (defaults : related default also) : related (value.getD default) (other.getD also) := by
  cases same with
  | none => exact defaults
  | some alike => exact alike

theorem any {test : α → Bool} {also : β → Bool} (same : Option.Rel related value other)
    (tests : ∀ value other, related value other → test value = also other) :
    value.any test = other.any also := by
  cases same with
  | none => rfl
  | some alike => exact tests _ _ alike

theorem toList (same : Option.Rel related value other) :
    List.Forall₂ related value.toList other.toList := by
  cases same with
  | none => exact .nil
  | some alike => exact .cons alike .nil

theorem eq {value other : Option α} {related : α → α → Prop} (same : Option.Rel related value other)
    (equal : ∀ value other, related value other → value = other) : value = other := by
  cases same with
  | none => rfl
  | some alike => rw [equal _ _ alike]

end Option.Rel

namespace List.Forall₂

variable {α β γ δ : Type} {related : α → β → Prop} {results : γ → δ → Prop}
  {list : List α} {others : List β}

theorem getElem? (same : Forall₂ related list others) (index : Nat) :
    Option.Rel related list[index]? others[index]? := by
  induction same generalizing index with
  | nil => exact .none
  | cons first _ induction =>
      cases index with
      | zero => exact .some first
      | succ index => exact induction index

theorem exists_getElem? (same : Forall₂ related list others) {index : Nat} {value : α}
    (present : list[index]? = some value) :
    ∃ other, others[index]? = some other ∧ related value other := by
  have places := same.getElem? index
  rw [present] at places
  generalize others[index]? = found at places
  cases places with
  | some alike => exact ⟨_, rfl, alike⟩

/-- What is related to two lists put together consists of what is related to each. -/
theorem exists_append {more : List α} (same : Forall₂ related (list ++ more) others) :
    ∃ first second, others = first ++ second ∧ Forall₂ related list first ∧
      Forall₂ related more second := by
  induction list generalizing others with
  | nil => exact ⟨[], others, rfl, .nil, same⟩
  | cons value rest induction =>
      rcases same with _ | ⟨head, tail⟩
      obtain ⟨first, second, rfl, firsts, seconds⟩ := induction tail
      exact ⟨_ :: first, second, rfl, .cons head firsts, seconds⟩

theorem head? (same : Forall₂ related list others) :
    Option.Rel related list.head? others.head? := by
  cases same with
  | nil => exact .none
  | cons first _ => exact .some first

theorem dropLast (same : Forall₂ related list others) :
    Forall₂ related list.dropLast others.dropLast := by
  rw [List.dropLast_eq_take, List.dropLast_eq_take, same.length_eq]
  exact List.forall₂_take _ same

theorem getLast? (same : Forall₂ related list others) :
    Option.Rel related list.getLast? others.getLast? := by
  rw [List.getLast?_eq_getElem?, List.getLast?_eq_getElem?, same.length_eq]
  exact same.getElem? _

theorem any {test : α → Bool} {also : β → Bool} (same : Forall₂ related list others)
    (tests : ∀ value other, related value other → test value = also other) :
    list.any test = others.any also := by
  induction same with
  | nil => rfl
  | cons first _ induction => rw [List.any_cons, List.any_cons, tests _ _ first, induction]

theorem find? (same : Forall₂ related list others) (test : α → Bool) (also : β → Bool)
    (tests : ∀ value other, related value other → test value = also other) :
    Option.Rel related (list.find? test) (others.find? also) := by
  induction same with
  | nil => exact .none
  | cons first _ induction =>
      rw [List.find?_cons, List.find?_cons, tests _ _ first]
      split
      · exact .some first
      · exact induction

theorem filter {test : α → Bool} {also : β → Bool} (same : Forall₂ related list others)
    (tests : ∀ value other, related value other → test value = also other) :
    Forall₂ related (list.filter test) (others.filter also) :=
  List.rel_filter (fun value other alike => iff_of_eq (congrArg (· = true) (tests value other alike)))
    same

theorem map {f : α → γ} {g : β → δ} (same : Forall₂ related list others)
    (each : ∀ value other, related value other → results (f value) (g other)) :
    Forall₂ results (list.map f) (others.map g) :=
  List.rel_map (fun value other alike => each value other alike) same

theorem map_eq_of_mem {f : α → γ} {g : β → γ} (same : Forall₂ related list others)
    (each : ∀ value ∈ list, ∀ other, related value other → f value = g other) :
    list.map f = others.map g := by
  induction same with
  | nil => rfl
  | cons alike _ induction =>
      obtain ⟨first, later⟩ := List.forall_mem_cons.1 each
      rw [List.map_cons, List.map_cons, first _ alike, induction later]

theorem map_eq {f : α → γ} {g : β → γ} (same : Forall₂ related list others)
    (each : ∀ value other, related value other → f value = g other) :
    list.map f = others.map g :=
  same.map_eq_of_mem fun value _ => each value

theorem filterMap {f : α → Option γ} {g : β → Option δ} (same : Forall₂ related list others)
    (each : ∀ value other, related value other → Option.Rel results (f value) (g other)) :
    Forall₂ results (list.filterMap f) (others.filterMap g) :=
  List.rel_filterMap (fun value other alike => each value other alike) same

theorem foldr {f : α → γ → γ} {g : β → δ → δ} {start : γ} {begin : δ}
    (same : Forall₂ related list others) (results : γ → δ → Prop) (begins : results start begin)
    (each : ∀ element other value result, related element other → results value result →
      results (f element value) (g other result)) :
    results (list.foldr f start) (others.foldr g begin) :=
  List.rel_foldr (fun element other also value result alike => each element other value result
    also alike) begins same

theorem foldl {f : γ → α → γ} {g : δ → β → δ} {start : γ} {begin : δ}
    (same : Forall₂ related list others) (results : γ → δ → Prop) (begins : results start begin)
    (each : ∀ value result element other, results value result → related element other →
      results (f value element) (g result other)) :
    results (list.foldl f start) (others.foldl g begin) :=
  List.rel_foldl (fun value result alike element other also => each value result element other
    alike also) begins same

theorem modify {f : α → α} {g : β → β} (same : Forall₂ related list others) (index : Nat)
    (each : ∀ value other, related value other → related (f value) (g other)) :
    Forall₂ related (list.modify index f) (others.modify index g) := by
  induction same generalizing index with
  | nil =>
      rw [List.modify_nil, List.modify_nil]
      exact .nil
  | cons first rest induction =>
      cases index with
      | zero => exact .cons (each _ _ first) rest
      | succ index => exact .cons first (induction index)

theorem mapIdx {f : Nat → α → γ} {g : Nat → β → δ} (same : Forall₂ related list others)
    (each : ∀ index value other, related value other → results (f index value) (g index other)) :
    Forall₂ results (list.mapIdx f) (others.mapIdx g) := by
  induction same generalizing f g with
  | nil => exact .nil
  | cons first _ induction =>
      rw [List.mapIdx_cons, List.mapIdx_cons]
      exact .cons (each 0 _ _ first) (induction fun index => each (index + 1))

theorem eq {list others : List α} {related : α → α → Prop} (same : Forall₂ related list others)
    (equal : ∀ value other, related value other → value = other) : list = others := by
  rw [← List.forall₂_eq_eq_eq]
  exact same.imp equal

/-- The two lists are the two sides of a list of related pairs. -/
theorem exists_pairs (same : Forall₂ related list others) :
    ∃ pairs : List (α × β), pairs.map Prod.fst = list ∧ pairs.map Prod.snd = others ∧
      ∀ pair ∈ pairs, related pair.1 pair.2 := by
  induction same with
  | nil => exact ⟨[], rfl, rfl, by simp⟩
  | @cons value other _ _ first _ induction =>
      obtain ⟨pairs, firsts, seconds, alike⟩ := induction
      refine ⟨(value, other) :: pairs, by rw [List.map_cons, firsts],
        by rw [List.map_cons, seconds], ?_⟩
      exact List.forall_mem_cons.2 ⟨first, alike⟩

theorem of_pairs {pairs : List (α × β)} (alike : ∀ pair ∈ pairs, related pair.1 pair.2) :
    Forall₂ related (pairs.map Prod.fst) (pairs.map Prod.snd) := by
  rw [List.forall₂_map_left_iff, List.forall₂_map_right_iff, List.forall₂_same]
  exact alike

/-- Sorting looks at nothing but the order, which is that of the elements related. -/
theorem mergeSort {before : α → α → Bool} {also : β → β → Bool}
    (same : Forall₂ related list others)
    (orders : ∀ first other second another, related first other → related second another →
      before first second = also other another) :
    Forall₂ related (list.mergeSort before) (others.mergeSort also) := by
  obtain ⟨pairs, rfl, rfl, alike⟩ := same.exists_pairs
  rw [← List.map_mergeSort (r := fun pair other => before pair.1 other.1) fun _ _ _ _ => rfl,
    ← List.map_mergeSort (r := fun pair other => before pair.1 other.1)
      fun pair given other givenToo => orders _ _ _ _ (alike pair given) (alike other givenToo)]
  exact of_pairs fun pair member => alike pair ((List.mergeSort_perm _ _).mem_iff.1 member)

end List.Forall₂

namespace ObjectQuery

/-! Maps with the same keys and related values under them. -/

namespace SortedMap

variable {κ μ ν : Type} [Ord κ]

structure Related (values : μ → ν → Prop) (map : SortedMap κ μ) (other : SortedMap κ ν) : Prop where
  entries : List.Forall₂ (fun entry also => entry.1 = also.1 ∧ values entry.2 also.2)
    map.entries other.entries

namespace Related

variable {values : μ → ν → Prop} {map : SortedMap κ μ} {other : SortedMap κ ν}

theorem empty : Related values (SortedMap.empty : SortedMap κ μ) SortedMap.empty :=
  ⟨.nil⟩

theorem find? (related : map.Related values other) (key : κ) :
    Option.Rel values (map.find? key) (other.find? key) :=
  (related.entries.find? _ _ fun entry also same => by rw [same.1]).map fun _ _ same => same.2

theorem contains_eq (related : map.Related values other) (key : κ) :
    map.contains key = other.contains key :=
  (related.find? key).isSome_eq

theorem keys_eq (related : map.Related values other) : map.keys = other.keys :=
  related.entries.map_eq fun _ _ same => same.1

theorem insert [Std.TransOrd κ] [Std.LawfulEqOrd κ] (related : map.Related values other)
    (key : κ) {value : μ} {also : ν} (same : values value also) :
    (map.insert key value).Related values (other.insert key also) := by
  refine ⟨?_⟩
  have related := related.entries
  unfold SortedMap.insert
  dsimp only
  generalize map.entries = entries at related ⊢
  generalize other.entries = others at related ⊢
  induction related with
  | nil => exact .cons ⟨rfl, same⟩ .nil
  | cons first rest induction =>
      simp only [insertEntry, first.1]
      split
      · exact .cons ⟨rfl, same⟩ (.cons first rest)
      · exact .cons ⟨rfl, same⟩ rest
      · exact .cons first induction

end Related

end SortedMap

end ObjectQuery
