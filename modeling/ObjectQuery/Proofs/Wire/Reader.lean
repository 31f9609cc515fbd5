import ObjectQuery.Proofs.Step
import ObjectQuery.Proofs.Wire.Layout
import ObjectQuery.Wire.Reader

namespace ObjectQuery

/-!
Written values that a reader reads back. Values are read level by level, so the
depth of a value bounds what is said of it.
-/

/--
Whatever part of a document shows the JSON value, the reader reads it as the
value, where the JSON value is no deeper than the level.
-/
def Json.ReadAs {α : Type} (level : Nat) (json : Json) (read : Node → Read α) (value : α) :
    Prop :=
  json.depth ≤ level → json.Sound ∧ ∀ node, json.Shows node → read node = .ok value

/-- The same for the members of a record, which are read together. -/
def Json.MembersReadAs {α : Type} (level : Nat) (members : List (String × Json))
    (read : List Member → Read α) (value : α) : Prop :=
  depthMembers members ≤ level → SoundMembers members ∧
    ∀ entries, ShowsMembers members entries → read entries = .ok value

theorem Json.MembersReadAs.bind {α β : Type} {level : Nat} {members : List (String × Json)}
    {read : List Member → Read α} {value : α} {next : α → Read β} {result : β}
    (readAs : MembersReadAs level members read value) (finished : next value = .ok result) :
    MembersReadAs level members (fun entries => read entries >>= next) result := by
  intro shallow
  obtain ⟨sound, reads⟩ := readAs shallow
  refine ⟨sound, fun entries shows => ?_⟩
  simp only [reads entries shows]
  exact finished

namespace Json.ReadAs

variable {α β : Type} {level : Nat} {json : Json} {read : Node → Read α} {value : α}

theorem bind {next : α → Read β} {result : β} (readAs : json.ReadAs level read value)
    (finished : next value = .ok result) :
    json.ReadAs level (fun node => read node >>= next) result := by
  intro shallow
  obtain ⟨sound, reads⟩ := readAs shallow
  refine ⟨sound, fun node shows => ?_⟩
  simp only [reads node shows]
  exact finished

theorem update {read : Node → Read α} (f : α → β) (readAs : json.ReadAs level read value) :
    json.ReadAs level (fun node => do return f (← read node)) (f value) :=
  readAs.bind rfl

theorem map (f : α → β) (readAs : json.ReadAs level read value) :
    json.ReadAs level (fun node => (read node).map f) (f value) := by
  intro shallow
  obtain ⟨sound, reads⟩ := readAs shallow
  refine ⟨sound, fun node shows => ?_⟩
  simp only [reads node shows, Except.map]

theorem orNull (readAs : json.ReadAs level read value) (some : json ≠ .null) :
    json.ReadAs level (Node.orNull read) (.some value) := by
  intro shallow
  obtain ⟨sound, reads⟩ := readAs shallow
  refine ⟨sound, fun node shows => ?_⟩
  have found := reads node shows
  cases shows with
  | null => exact absurd rfl some
  | bool | int | float | text | list | record => simp [Node.orNull, found, Except.map]

theorem text (value : String) : (Json.text value).ReadAs level Node.string value := by
  refine fun _ => ⟨trivial, fun node shows => ?_⟩
  cases shows
  rfl

theorem flag (value : Bool) : (Json.bool value).ReadAs level Node.flag value := by
  refine fun _ => ⟨trivial, fun node shows => ?_⟩
  cases shows
  rfl

theorem int (value : Int64) : (Json.int value.toInt).ReadAs level Node.int value := by
  have least : Int64.minValue.toInt ≤ value.toInt := Int64.minValue_le_toInt value
  have most : value.toInt ≤ Int64.maxValue.toInt := value.toInt_le
  have words : Int64.maxValue.toInt < UInt64.size := by decide
  refine fun _ => ⟨⟨least, Int.lt_of_le_of_lt most words⟩, fun node shows => ?_⟩
  cases shows
  rw [Node.int, if_pos ⟨least, most⟩, Int64.ofInt_toInt]

theorem natural (expected : String) {value bound : Nat} (small : value < bound)
    (bounded : bound ≤ UInt64.size) :
    (Json.nat value).ReadAs level (Node.natural expected bound) value := by
  have least : Int64.minValue.toInt ≤ value := Int.le_trans (by decide) (Int.natCast_nonneg value)
  have most : (value : Int) < UInt64.size :=
    Int.ofNat_lt.2 (Nat.lt_of_lt_of_le small bounded)
  refine fun _ => ⟨⟨least, most⟩, fun node shows => ?_⟩
  cases shows
  simp [Node.natural, small]

theorem count {value : Nat} (small : value < UInt64.size) :
    (Json.nat value).ReadAs level Node.count value :=
  natural "usize" small (Nat.le_refl _)

theorem byte (value : UInt8) : (Json.nat value.toNat).ReadAs level Node.byte value := by
  have same : value.toNat.toUInt8 = value := UInt8.ofNat_toNat
  have readAs : (Json.nat value.toNat).ReadAs level Node.byte value.toNat.toUInt8 :=
    (natural "u8" value.toNat_lt (by decide)).map Nat.toUInt8
  rwa [same] at readAs

/-- A list is read item by item, one level below it. -/
theorem listOf {encode : α → Json} {values : List α}
    (each : ∀ value ∈ values, (encode value).ReadAs level read value) :
    (Json.list (values.map encode)).ReadAs (level + 1) (Node.listOf (level + 1) read) values := by
  intro shallow
  have below : depthAll (values.map encode) ≤ level := Nat.le_of_succ_le_succ shallow
  have items : SoundAll (values.map encode) ∧
      ∀ nodes, ShowsAll (values.map encode) nodes → nodes.mapM read = .ok values := by
    clear shallow
    induction values with
    | nil =>
        refine ⟨trivial, fun nodes shows => ?_⟩
        cases shows
        rfl
    | cons first rest induction =>
        obtain ⟨readFirst, readRest⟩ := List.forall_mem_cons.1 each
        obtain ⟨shallowFirst, shallowRest⟩ := Nat.max_le.1 below
        obtain ⟨soundFirst, readsFirst⟩ := readFirst shallowFirst
        obtain ⟨soundRest, readsRest⟩ := induction readRest shallowRest
        refine ⟨⟨soundFirst, soundRest⟩, fun nodes shows => ?_⟩
        cases shows with
        | cons showsFirst showsRest =>
            rw [List.mapM_cons, readsFirst _ showsFirst, readsRest _ showsRest]
            rfl
  refine ⟨items.1, fun node shows => ?_⟩
  cases shows with
  | list line shown => exact items.2 _ shown

theorem list_zero {items : List Json} : (Json.list items).ReadAs 0 read value :=
  fun shallow => absurd shallow (Nat.not_succ_le_zero _)

theorem record_zero {members : List (String × Json)} :
    (Json.record members).ReadAs 0 read value :=
  fun shallow => absurd shallow (Nat.not_succ_le_zero _)

/-- A record is read by its members, one level below it. -/
theorem record {members : List (String × Json)} {next : List Member → Read α} (expected : String)
    (readAs : MembersReadAs level members next value) :
    (Json.record members).ReadAs (level + 1)
      (fun node => node.members (level + 1) expected >>= next) value := by
  intro shallow
  obtain ⟨sound, reads⟩ := readAs (Nat.le_of_succ_le_succ shallow)
  refine ⟨sound, fun node shows => ?_⟩
  cases shows with
  | record line shown => exact reads _ shown

theorem strings (texts : List String) :
    (Json.list (texts.map .text)).ReadAs level (Node.strings level) texts := by
  cases level with
  | zero => exact list_zero
  | succ level => exact listOf fun value _ => text value

end Json.ReadAs

theorem Node.marked_of_shows {json : Json} {node : Node} (shows : json.Shows node) :
    node.marked = .ok node := by
  cases shows <;> rfl

namespace Member

/--
Reading written members one after the other turns one state into another. Their
names are some of the given ones, in the same order, and their values are no
deeper than the level.
-/
inductive Fills {σ : Type} (level : Nat) (assign : σ → String → Read (Option (Node → Read σ))) :
    List String → σ → List (String × Json) → σ → Prop where
  | nil (state : σ) : Fills level assign [] state [] state
  | skip {before after : σ} {names : List String} {members : List (String × Json)}
      (name : String) (later : Fills level assign names before members after) :
      Fills level assign (name :: names) before members after
  | cons {before middle after : σ} {names : List String} {members : List (String × Json)}
      {name : String} {json : Json} {read : Node → Read σ}
      (known : assign before name = .ok (some read)) (first : json.ReadAs level read middle)
      (later : Fills level assign names middle members after) :
      Fills level assign (name :: names) before ((name, json) :: members) after

namespace Fills

variable {α σ : Type} {level : Nat} {assign : σ → String → Read (Option (Node → Read σ))}
variable {before middle after state : σ} {name : String} {names others : List String}
variable {members rest : List (String × Json)}

theorem append (first : Fills level assign names before members middle)
    (later : Fills level assign others middle rest after) :
    Fills level assign (names ++ others) before (members ++ rest) after := by
  induction first with
  | nil => exact later
  | skip name _ induction => exact .skip name (induction later)
  | cons known readAs _ induction => exact .cons known readAs (induction later)

theorem step {read : Node → Read α} {json : Json} {update : α → σ} {value : α}
    (known : assign state name = .ok (some fun node => do return update (← read node)))
    (readAs : json.ReadAs level read value) (later : Fills level assign names middle members after)
    (result : update value = middle := by rfl) :
    Fills level assign (name :: names) state ((name, json) :: members) after :=
  .cons known (result ▸ readAs.update update) later

theorem one {read : Node → Read α} {json : Json} {update : α → σ} {value : α}
    (known : assign state name = .ok (some fun node => do return update (← read node)))
    (readAs : json.ReadAs level read value) (result : update value = after := by rfl) :
    Fills level assign [name] state [(name, json)] after :=
  .step known readAs (.nil after) result

/-- A member that is left out where its value is the one it starts with. -/
theorem member {read : Node → Read α} {json : Json} {update : α → σ} {value initial : α}
    {present : Bool}
    (known : assign state name = .ok (some fun node => do return update (← read node)))
    (unchanged : present = false → value = initial) (readAs : json.ReadAs level read value)
    (absent : update initial = state := by rfl) (result : update value = after := by rfl) :
    Fills level assign [name] state (Json.member present name json) after := by
  cases present with
  | false =>
      rw [← result, unchanged rfl, absent]
      exact .skip name (.nil state)
  | true => exact .one known readAs result

theorem flag {update : Bool → σ} (value : Bool)
    (known : assign state name = .ok (some fun node => do return update (← node.flag)))
    (absent : update false = state := by rfl) (result : update value = after := by rfl) :
    Fills level assign [name] state (Json.flag name value) after := by
  cases value with
  | false =>
      rw [← result, absent]
      exact .skip name (.nil state)
  | true => exact .one known (.flag true) result

theorem nonempty {read : Node → Read (List α)} {encode : α → Json} {update : List α → σ}
    {values : List α}
    (known : assign state name = .ok (some fun node => do return update (← read node)))
    (readAs : (Json.list (values.map encode)).ReadAs level read values)
    (absent : update [] = state := by rfl) (result : update values = after := by rfl) :
    Fills level assign [name] state (Json.nonempty name (values.map encode)) after := by
  cases values with
  | nil =>
      rw [← result, absent]
      exact .skip name (.nil state)
  | cons first rest => exact .one known readAs result

/-- A member that is left out where there is no value. -/
theorem optional {read : Node → Read α} {encode : α → Json} (update : Option α → σ)
    {given : Option α}
    (known : assign state name = .ok (some fun node => do return update (some (← read node))))
    (readAs : ∀ value ∈ given, (encode value).ReadAs level read value)
    (absent : update none = state) (result : update given = after) :
    Fills level assign [name] state (Json.optional name encode given) after := by
  cases given with
  | none =>
      rw [← result, absent]
      exact .skip name (.nil state)
  | some value =>
      exact .cons known (result ▸ (readAs value rfl).update (update ∘ some)) (.nil after)

/-- A member that is left out where there is no value, and may be null as well. -/
theorem orNull {read : Node → Read α} {encode : α → Json} {update : Option α → σ}
    {given : Option α}
    (known : assign state name = .ok (some fun node => do return update (← node.orNull read)))
    (readAs : ∀ value ∈ given, (encode value).ReadAs level read value ∧ encode value ≠ .null)
    (absent : update none = state := by rfl) (result : update given = after := by rfl) :
    Fills level assign [name] state (Json.optional name encode given) after := by
  cases given with
  | none =>
      rw [← result, absent]
      exact .skip name (.nil state)
  | some value =>
      obtain ⟨readAs, some⟩ := readAs value rfl
      exact .one known (readAs.orNull some) result

theorem orNull_id {read : Node → Read α} {encode : α → Json} {update : Option α → σ}
    {given : Option α}
    (known : assign state name = .ok (some fun node => do return update (← node.orNull read)))
    (readAs : ∀ value ∈ given, (encode value).ReadAs level read value ∧ encode value ≠ .null)
    (absent : update none = state := by rfl) (result : update given = after := by rfl) :
    Fills level assign [name] state (Json.optional name id (given.map encode)) after := by
  have same : Json.optional name id (given.map encode) = Json.optional name encode given := by
    cases given <;> rfl
  rw [same]
  exact .orNull known readAs absent result

theorem readAll (fills : Fills level assign names before members after) :
    Json.MembersReadAs level members (Member.readAll assign before) after := by
  intro shallow
  induction fills with
  | nil state =>
      refine ⟨trivial, fun entries shows => ?_⟩
      cases shows
      rfl
  | skip _ _ induction => exact induction shallow
  | cons known readAs later induction =>
      obtain ⟨shallowFirst, shallowRest⟩ := Nat.max_le.1 shallow
      obtain ⟨soundFirst, readsFirst⟩ := readAs shallowFirst
      obtain ⟨soundRest, readsRest⟩ := induction shallowRest
      refine ⟨⟨soundFirst, soundRest⟩, fun entries shows => ?_⟩
      cases shows with
      | cons name showsFirst showsRest after line =>
          simp only [Member.readAll, Spelling.read, known, Node.marked_of_shows showsFirst,
            readsFirst _ showsFirst, readsRest _ showsRest, Except.ok_bind]

end Fills

/-- How a name is read that may stand once only, where it stands for the first time. -/
def single {σ : Type} (assign : String → Option (σ → Node → Read σ)) (state : σ) (name : String) :
    Read (Option (Node → Read σ)) :=
  .ok ((assign name).map (· state))

/-- Members are read in their order where no name may stand twice. -/
theorem Fills.readOnce {σ : Type} {level : Nat} {assign : String → Option (σ → Node → Read σ)}
    {before after : σ} {names : List String} {members : List (String × Json)}
    (fills : Fills level (single assign) names before members after) (distinct : names.Nodup) :
    Json.MembersReadAs level members (Member.readOnce assign before) after := by
  intro shallow
  refine ⟨(fills.readAll shallow).1, fun entries shows => ?_⟩
  unfold Member.readOnce
  generalize beforehand : ([] : List String) = seen
  have fresh : ∀ name ∈ names, name ∉ seen := by simp [← beforehand]
  clear beforehand
  induction fills generalizing seen entries with
  | nil state =>
      cases shows
      rfl
  | skip name _ induction =>
      exact induction (List.nodup_cons.1 distinct).2 shallow _ shows seen
        (List.forall_mem_cons.1 fresh).2
  | @cons before middle after names members name json read known first later induction =>
      obtain ⟨shallowFirst, shallowRest⟩ := Nat.max_le.1 shallow
      obtain ⟨newFirst, distinctRest⟩ := List.nodup_cons.1 distinct
      obtain ⟨freshFirst, freshRest⟩ := List.forall_mem_cons.1 fresh
      obtain ⟨reader, found, rfl⟩ := Option.map_eq_some_iff.1 (Except.ok.inj known)
      have readsFirst := (first shallowFirst).2
      have apart : ∀ other ∈ names, other ∉ name :: seen := by
        intro other member inSeen
        rcases List.mem_cons.1 inSeen with rfl | earlier
        · exact newFirst member
        · exact freshRest other member earlier
      cases shows with
      | cons _ showsFirst showsRest after line =>
          have rest := induction distinctRest shallowRest _ showsRest (name :: seen) apart
          simp only [Member.readAll, Spelling.read, found, Node.marked_of_shows showsFirst,
            Except.ok_bind, List.contains_eq_mem, freshFirst, decide_false, Bool.false_eq_true,
            if_false, readsFirst _ showsFirst, Except.map] at rest ⊢
          exact rest

end Member

end ObjectQuery
