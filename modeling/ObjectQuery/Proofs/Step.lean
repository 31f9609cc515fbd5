import Mathlib.Data.List.Forall2

/-! Outcomes that succeed, taken apart. -/

namespace Except

variable {ε α β : Type}

theorem map_eq_ok_iff {f : α → β} {outcome : Except ε α} {result : β} :
    outcome.map f = .ok result ↔ ∃ value, outcome = .ok value ∧ f value = result := by
  cases outcome <;> simp [Except.map]

theorem ok_bind (value : α) (next : α → Except ε β) : Except.ok value >>= next = next value := rfl

theorem bind_eq_ok_iff {next : α → Except ε β} {outcome : Except ε α} {result : β} :
    outcome >>= next = .ok result ↔ ∃ value, outcome = .ok value ∧ next value = .ok result := by
  cases outcome <;> simp [bind, Except.bind]

theorem map_map (outcome : Except ε α) (f : α → β) (g : β → γ) :
    (outcome.map f).map g = outcome.map (g ∘ f) := by
  cases outcome <;> rfl

/-- Both succeed with related values, or both fail with related faults. -/
inductive Related (faults : ε → ε → Prop) (values : α → β → Prop) :
    Except ε α → Except ε β → Prop where
  | ok {value : α} {other : β} (same : values value other) :
      Related faults values (.ok value) (.ok other)
  | error {error fault : ε} (same : faults error fault) :
      Related faults values (.error error) (.error fault)

theorem Related.map {γ δ : Type} {faults : ε → ε → Prop} {values : α → β → Prop}
    {results : γ → δ → Prop} {outcome : Except ε α} {also : Except ε β} {f : α → γ} {g : β → δ}
    (related : Related faults values outcome also)
    (each : ∀ value other, values value other → results (f value) (g other)) :
    Related faults results (outcome.map f) (also.map g) := by
  cases related with
  | ok same => exact .ok (each _ _ same)
  | error same => exact .error same

end Except

namespace ObjectQuery

/-!
What steps with a state return where they succeed, what they make of the state,
and how they may fail. The rules follow the ways in which steps are put together.
-/

namespace Step

variable {ε σ α β : Type} {invariant : σ → Prop}

/--
From the state, the step leads to a value and a state with the property, or
fails with a fault that is allowed.
-/
def Meets (step : EStateM ε σ α) (before : σ) (property : α → σ → Prop)
    (allowed : ε → Prop := fun _ => True) : Prop :=
  match step before with
  | .ok value after => property value after
  | .error error _ => allowed error

namespace Meets

variable {step : EStateM ε σ α} {before after : σ} {property weaker : α → σ → Prop}
  {result : β → σ → Prop} {allowed : ε → Prop} {next : α → EStateM ε σ β}

theorem intro (succeeds : ∀ value after, step before = .ok value after → property value after)
    (fails : ∀ error after, step before = .error error after → allowed error) :
    Meets step before property allowed := by
  unfold Meets
  split
  · exact succeeds _ _ ‹_›
  · exact fails _ _ ‹_›

theorem of_runs (succeeds : ∀ value after, step before = .ok value after → property value after) :
    Meets step before property :=
  intro succeeds fun _ _ _ => trivial

theorem itself : Meets step before fun value after => step before = .ok value after :=
  of_runs fun _ _ run => run

theorem of_ok (meets : Meets step before property allowed) {value : α}
    (run : step before = .ok value after) : property value after := by
  unfold Meets at meets
  rwa [run] at meets

theorem of_error (meets : Meets step before property allowed) {error : ε}
    (run : step before = .error error after) : allowed error := by
  unfold Meets at meets
  rwa [run] at meets

theorem mono (meets : Meets step before property allowed)
    (weaken : ∀ value after, property value after → weaker value after) :
    Meets step before weaker allowed :=
  intro (fun value after run => weaken value after (meets.of_ok run)) fun _ _ => meets.of_error

theorem excuse (meets : Meets step before property allowed) {excused : ε → Prop}
    (excuses : ∀ error, allowed error → excused error) : Meets step before property excused :=
  intro (fun _ _ => meets.of_ok) fun error _ run => excuses error (meets.of_error run)

/-- The property, together with the run that leads to it. -/
theorem run (meets : Meets step before property allowed) :
    Meets step before (fun value after => property value after ∧ step before = .ok value after)
      allowed :=
  intro (fun _ _ run => ⟨meets.of_ok run, run⟩) fun _ _ => meets.of_error

theorem and {other : α → σ → Prop} (meets : Meets step before property allowed)
    (meetsToo : Meets step before other) :
    Meets step before (fun value after => property value after ∧ other value after) allowed :=
  intro (fun _ _ run => ⟨meets.of_ok run, meetsToo.of_ok run⟩) fun _ _ => meets.of_error

theorem pure {value : α} (holds : property value before) :
    Meets (Pure.pure value) before property allowed :=
  holds

theorem bind (first : Meets step before property allowed)
    (later : ∀ value after, property value after → Meets (next value) after result allowed) :
    Meets (step >>= next) before result allowed := by
  unfold Meets at first ⊢
  change match EStateM.bind step next before with
    | .ok value after => result value after
    | .error error _ => allowed error
  unfold EStateM.bind
  cases run : step before with
  | ok value after =>
      rw [run] at first
      exact later value after first
  | error error after =>
      rw [run] at first
      exact first

theorem throw {error : ε} (allows : allowed error) :
    Meets (MonadExcept.throw error : EStateM ε σ α) before property allowed :=
  allows

theorem throw_bind {error : ε} (allows : allowed error) :
    Meets (MonadExcept.throw error >>= next) before result allowed :=
  have never : Meets (MonadExcept.throw error : EStateM ε σ α) before (fun _ _ => False) allowed :=
    throw allows
  never.bind fun _ _ impossible => impossible.elim

theorem get_bind {next : σ → EStateM ε σ β} (later : Meets (next before) before result allowed) :
    Meets (MonadState.get >>= next) before result allowed :=
  later

theorem set_bind {state : σ} {next : PUnit → EStateM ε σ β}
    (later : Meets (next ⟨⟩) state result allowed) :
    Meets (MonadStateOf.set state >>= next) before result allowed :=
  later

theorem modify_bind {change : σ → σ} {next : PUnit → EStateM ε σ β}
    (later : Meets (next ⟨⟩) (change before) result allowed) :
    Meets (modify change >>= next) before result allowed :=
  later

theorem ite {condition : Prop} [Decidable condition] {first second : EStateM ε σ α}
    (yes : condition → Meets first before property allowed)
    (no : ¬condition → Meets second before property allowed) :
    Meets (if condition then first else second) before property allowed := by
  split
  · exact yes ‹_›
  · exact no ‹_›

theorem guarded {condition : Prop} [Decidable condition] {error : ε}
    {next : PUnit → EStateM ε σ α} (allows : condition → allowed error)
    (rest : ¬condition → Meets (next ⟨⟩) before property allowed) :
    Meets (if condition then MonadExcept.throw error >>= next else next ⟨⟩) before property
      allowed :=
  ite (fun holds => throw_bind (allows holds)) rest

theorem modify_if {condition : Prop} [Decidable condition] {change : σ → σ}
    {next : PUnit → EStateM ε σ α}
    (rest : Meets (next ⟨⟩) (if condition then change before else before) property allowed) :
    Meets (if condition then modify change >>= next else next ⟨⟩) before property allowed :=
  ite (fun holds => modify_bind (by rwa [if_pos holds] at rest)) fun fails => by
    rwa [if_neg fails] at rest

/-- A traversal that goes on from earlier results, with a property of these and of the state. -/
theorem mapM {related : α → β → Prop} (reached : List β → σ → Prop) {step : α → EStateM ε σ β}
    {list : List α} {earlier : List β} (begins : reached earlier before)
    (each : ∀ value ∈ list, ∀ results state, reached results state →
      Meets (step value) state
        (fun result after => related value result ∧ reached (results ++ [result]) after) allowed) :
    Meets (list.mapM step) before
      (fun results after => List.Forall₂ related list results ∧ reached (earlier ++ results) after)
      allowed := by
  induction list generalizing earlier before with
  | nil =>
      rw [List.mapM_nil]
      exact pure ⟨.nil, by simpa using begins⟩
  | cons value rest induction =>
      obtain ⟨first, later⟩ := List.forall_mem_cons.1 each
      rw [List.mapM_cons]
      apply (first earlier before begins).bind
      rintro result middle ⟨relation, held⟩
      apply (induction held later).bind
      rintro others after ⟨relations, held⟩
      exact pure ⟨.cons relation relations, by simpa using held⟩

/-- A loop over the numbers below a bound, with a property that counts them. -/
theorem foldlM_range {reached : Nat → β → σ → Prop} {step : β → Nat → EStateM ε σ β} {start : β}
    (begins : reached 0 start before) (bound : Nat)
    (each : ∀ index value state, index < bound → reached index value state →
      Meets (step value index) state (reached (index + 1)) allowed) :
    Meets ((List.range bound).foldlM step start) before (reached bound) allowed := by
  induction bound with
  | zero => exact pure begins
  | succ bound induction =>
      rw [List.range_succ, List.foldlM_append]
      have earlier := induction fun index value state below =>
        each index value state (by omega)
      apply earlier.bind
      intro value after held
      simpa using each bound value after (by omega) held

end Meets

theorem map_eq_of_forall₂ {γ : Type} {view : α → γ} {after : β → γ} {list : List α}
    {results : List β} (same : List.Forall₂ (fun value result => after result = view value)
      list results) : results.map after = list.map view := by
  induction same with
  | nil => rfl
  | cons first others induction => rw [List.map_cons, List.map_cons, first, induction]

theorem exists_of_forall₂ {related : α → β → Prop} {list : List α} {results : List β}
    (relation : List.Forall₂ related list results) {result : β} (member : result ∈ results) :
    ∃ value ∈ list, related value result := by
  induction relation with
  | nil => cases member
  | cons first _ induction =>
      rcases List.mem_cons.1 member with rfl | later
      · exact ⟨_, List.mem_cons_self, first⟩
      · obtain ⟨value, given, holds⟩ := induction later
        exact ⟨value, List.mem_cons_of_mem _ given, holds⟩

theorem forall_of_forall₂ {property : β → Prop} {list : List α} {results : List β}
    (holds : List.Forall₂ (fun _ => property) list results) :
    ∀ result ∈ results, property result := by
  intro result member
  obtain ⟨_, _, held⟩ := exists_of_forall₂ holds member
  exact held

/--
From states with the invariant, the step leads to such states and to values
with the property.
-/
def Yields (invariant : σ → Prop) (step : EStateM ε σ α) (property : α → Prop) : Prop :=
  ∀ ⦃before value after⦄, invariant before → step before = .ok value after →
    property value ∧ invariant after

namespace Yields

variable {property : α → Prop} {result : β → Prop}

theorem meets {step : EStateM ε σ α} (yields : Yields invariant step property) {before : σ}
    (held : invariant before) :
    Meets step before fun value after => property value ∧ invariant after :=
  .of_runs fun _ _ run => yields held run

theorem mono {weaker : α → Prop} {step : EStateM ε σ α} (yields : Yields invariant step property)
    (weaken : ∀ value, property value → weaker value) : Yields invariant step weaker :=
  fun _ _ _ holds run => (yields holds run).imp_left (weaken _)

theorem and {other : α → Prop} {step : EStateM ε σ α} (yields : Yields invariant step property)
    (yieldsToo : Yields (fun _ => True) step other) :
    Yields invariant step fun value => property value ∧ other value :=
  fun _ _ _ held run => ⟨⟨(yields held run).1, (yieldsToo trivial run).1⟩, (yields held run).2⟩

theorem pure {value : α} (holds : property value) :
    Yields invariant (Pure.pure value : EStateM ε σ α) property := by
  intro before returned after held run
  cases run
  exact ⟨holds, held⟩

theorem bind {step : EStateM ε σ α} {next : α → EStateM ε σ β}
    (first : Yields invariant step property)
    (later : ∀ value, property value → Yields invariant (next value) result) :
    Yields invariant (step >>= next) result := by
  intro before value after held run
  change EStateM.bind step next before = _ at run
  unfold EStateM.bind at run
  split at run
  · obtain ⟨holds, kept⟩ := first held ‹_›
    exact later _ holds kept run
  · cases run

theorem whatever {step : EStateM ε σ α} : Yields (fun _ => True) step fun _ => True :=
  fun _ _ _ _ _ => ⟨trivial, trivial⟩

/-- A step whose value does not matter, where there is nothing to keep. -/
theorem after {step : EStateM ε σ α} {next : α → EStateM ε σ β}
    (later : ∀ value, Yields (fun _ => True) (next value) result) :
    Yields (fun _ => True) (step >>= next) result :=
  whatever.bind fun value _ => later value

theorem throw {error : ε} :
    Yields invariant (MonadExcept.throw error : EStateM ε σ α) property := by
  intro before value after held run
  cases run

theorem throw_bind {error : ε} {next : α → EStateM ε σ β} :
    Yields invariant (MonadExcept.throw error >>= next) result :=
  have never : Yields invariant (MonadExcept.throw error : EStateM ε σ α) fun _ => False := throw
  never.bind fun _ impossible => impossible.elim

theorem get : Yields invariant (MonadState.get : EStateM ε σ σ) invariant := by
  intro before value after held run
  cases run
  exact ⟨held, held⟩

theorem set {state : σ} (holds : invariant state) :
    Yields invariant (MonadStateOf.set state : EStateM ε σ PUnit) fun _ => True := by
  intro before value after held run
  cases run
  exact ⟨trivial, holds⟩

theorem modify {change : σ → σ} (keeps : ∀ state, invariant state → invariant (change state)) :
    Yields invariant (modify change : EStateM ε σ PUnit) fun _ => True := by
  intro before value after held run
  cases run
  exact ⟨trivial, keeps before held⟩

theorem ite {condition : Prop} [Decidable condition] {first second : EStateM ε σ α}
    (yes : condition → Yields invariant first property)
    (no : ¬condition → Yields invariant second property) :
    Yields invariant (if condition then first else second) property := by
  split
  · exact yes ‹_›
  · exact no ‹_›

theorem guarded {condition : Prop} [Decidable condition] {error : ε}
    {next : PUnit → EStateM ε σ α} (rest : Yields invariant (next ⟨⟩) property) :
    Yields invariant (if condition then MonadExcept.throw error >>= next else next ⟨⟩) property :=
  ite (fun _ => throw_bind) fun _ => rest

theorem mapM {related : α → β → Prop} {step : α → EStateM ε σ β} {list : List α}
    (each : ∀ value ∈ list, Yields invariant (step value) (related value)) :
    Yields invariant (list.mapM step) (List.Forall₂ related list) := by
  induction list with
  | nil => exact pure .nil
  | cons value rest induction =>
      rw [List.mapM_cons]
      refine (each value (by simp)).bind fun first relation => ?_
      refine (induction fun other member => each other (by simp [member])).bind
        fun others relations => ?_
      exact pure (.cons relation relations)

end Yields

end Step

end ObjectQuery
