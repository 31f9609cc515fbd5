import Mathlib.Data.List.Forall2

namespace ObjectQuery

/-!
Steps that run side by side from related states, and limits under which they
may run. Where the first step succeeds, so does the second, with a related value
in a related state; where the first fails, the second fails alike, unless the
fault of the first is excused.
-/

/-- Nothing that the limit allows is forbidden by the higher one. -/
def AtMost (limit higher : Option Nat) : Prop :=
  ∀ bound ∈ higher, ∃ lower ∈ limit, lower ≤ bound

theorem AtMost.refl (limit : Option Nat) : AtMost limit limit :=
  fun bound given => ⟨bound, given, Nat.le_refl bound⟩

theorem AtMost.all {limit higher : Option Nat} (atMost : AtMost limit higher) {depth : Nat}
    (below : limit.all (depth < ·) = true) : higher.all (depth < ·) = true := by
  rw [Option.all_eq_true] at below ⊢
  intro bound given
  obtain ⟨lower, present, least⟩ := atMost bound given
  exact decide_eq_true (Nat.lt_of_lt_of_le (of_decide_eq_true (below lower present)) least)

namespace Step

variable {ε σ α β γ δ : Type}

def Parallel (states : σ → σ → Prop) (faults : ε → ε → Prop) (excused : ε → Prop)
    (first : EStateM ε σ α) (second : EStateM ε σ β) (values : α → β → Prop) : Prop :=
  ∀ ⦃before other⦄, states before other →
    match first before with
    | .ok value after =>
        ∃ result last, second other = .ok result last ∧ values value result ∧ states after last
    | .error error _ =>
        excused error ∨ ∃ fault last, second other = .error fault last ∧ faults error fault

namespace Parallel

variable {states : σ → σ → Prop} {faults : ε → ε → Prop} {excused : ε → Prop}
  {values : α → β → Prop} {results : γ → δ → Prop} {first : EStateM ε σ α}
  {second : EStateM ε σ β} {next : α → EStateM ε σ γ} {later : β → EStateM ε σ δ}

theorem of_ok (parallel : Parallel states faults excused first second values) {before other : σ}
    (related : states before other) {value : α} {after : σ} (run : first before = .ok value after) :
    ∃ result last, second other = .ok result last ∧ values value result ∧ states after last := by
  have runs := parallel related
  rwa [run] at runs

theorem of_error (parallel : Parallel states faults excused first second values)
    {before other : σ} (related : states before other) {error : ε} {after : σ}
    (run : first before = .error error after) :
    excused error ∨ ∃ fault last, second other = .error fault last ∧ faults error fault := by
  have runs := parallel related
  rwa [run] at runs

theorem intro
    (succeeds : ∀ before other value after, states before other → first before = .ok value after →
      ∃ result last, second other = .ok result last ∧ values value result ∧ states after last)
    (fails : ∀ before other error after, states before other → first before = .error error after →
      excused error ∨ ∃ fault last, second other = .error fault last ∧ faults error fault) :
    Parallel states faults excused first second values := by
  intro before other related
  split
  · exact succeeds _ _ _ _ related ‹_›
  · exact fails _ _ _ _ related ‹_›

theorem mono {weaker : α → β → Prop} (parallel : Parallel states faults excused first second values)
    (weaken : ∀ value result, values value result → weaker value result) :
    Parallel states faults excused first second weaker := by
  refine intro (fun _ _ value after related run => ?_) fun _ _ _ _ related run =>
    parallel.of_error related run
  obtain ⟨result, last, runToo, same, ends⟩ := parallel.of_ok related run
  exact ⟨result, last, runToo, weaken value result same, ends⟩

theorem pure {value : α} {result : β} (related : values value result) :
    Parallel states faults excused (Pure.pure value) (Pure.pure result) values :=
  fun _ other begins => ⟨result, other, rfl, related, begins⟩

theorem throw {error fault : ε} (related : faults error fault) :
    Parallel states faults excused (MonadExcept.throw error) (MonadExcept.throw fault) values :=
  fun _ other _ => .inr ⟨fault, other, rfl, related⟩

/-- It does not matter what the second step does where the first fails so. -/
theorem excuse (fails : ∀ before, ∃ error after, first before = .error error after ∧ excused error) :
    Parallel states faults excused first second values := by
  intro before other _
  obtain ⟨error, after, run, excuses⟩ := fails before
  rw [run]
  exact .inl excuses

theorem bind (parallel : Parallel states faults excused first second values)
    (rest : ∀ value result, values value result →
      Parallel states faults excused (next value) (later result) results) :
    Parallel states faults excused (first >>= next) (second >>= later) results := by
  intro before other related
  change match EStateM.bind first next before with
    | .ok value after => ∃ result last, EStateM.bind second later other = .ok result last ∧
        results value result ∧ states after last
    | .error error _ => excused error ∨
        ∃ fault last, EStateM.bind second later other = .error fault last ∧ faults error fault
  unfold EStateM.bind
  cases run : first before with
  | ok value middle =>
      obtain ⟨result, reached, runToo, same, kept⟩ := parallel.of_ok related run
      rw [runToo]
      exact rest value result same kept
  | error error middle =>
      refine (parallel.of_error related run).imp_right ?_
      rintro ⟨fault, last, runToo, same⟩
      exact ⟨fault, last, by rw [runToo], same⟩

theorem throw_bind {error fault : ε} (related : faults error fault) :
    Parallel states faults excused (MonadExcept.throw error >>= next)
      (MonadExcept.throw fault >>= later) results :=
  have never : Parallel states faults excused (MonadExcept.throw error : EStateM ε σ α)
      (MonadExcept.throw fault : EStateM ε σ β) fun _ _ => False := throw related
  never.bind fun _ _ impossible => impossible.elim

theorem get : Parallel states faults excused (MonadState.get : EStateM ε σ σ) MonadState.get
    states :=
  fun _ other related => ⟨other, other, rfl, related, related⟩

theorem set {state last : σ} (related : states state last) :
    Parallel states faults excused (MonadStateOf.set state : EStateM ε σ PUnit)
      (MonadStateOf.set last : EStateM ε σ PUnit) fun _ _ => True :=
  fun _ _ _ => ⟨⟨⟩, last, rfl, trivial, related⟩

theorem ite {condition also : Prop} [Decidable condition] [Decidable also]
    {firstToo : EStateM ε σ α} {secondToo : EStateM ε σ β} (same : condition ↔ also)
    (yes : condition → also → Parallel states faults excused first second values)
    (no : ¬condition → ¬also → Parallel states faults excused firstToo secondToo values) :
    Parallel states faults excused (if condition then first else firstToo)
      (if also then second else secondToo) values := by
  by_cases holds : condition
  · rw [if_pos holds, if_pos (same.1 holds)]
    exact yes holds (same.1 holds)
  · rw [if_neg holds, if_neg (mt same.2 holds)]
    exact no holds (mt same.2 holds)

theorem guarded {condition also : Prop} [Decidable condition] [Decidable also] {error fault : ε}
    {next : PUnit → EStateM ε σ α} {later : PUnit → EStateM ε σ β} (same : condition ↔ also)
    (related : faults error fault)
    (rest : Parallel states faults excused (next ⟨⟩) (later ⟨⟩) values) :
    Parallel states faults excused
      (if condition then MonadExcept.throw error >>= next else next ⟨⟩)
      (if also then MonadExcept.throw fault >>= later else later ⟨⟩) values :=
  ite same (fun _ _ => throw_bind related) fun _ _ => rest

theorem modify_bind {change alter : σ → σ} {next : PUnit → EStateM ε σ α}
    {later : PUnit → EStateM ε σ β}
    (keeps : ∀ state last, states state last → states (change state) (alter last))
    (rest : Parallel states faults excused (next ⟨⟩) (later ⟨⟩) values) :
    Parallel states faults excused (modify change >>= next) (modify alter >>= later) values := by
  have changes : Parallel states faults excused (modify change : EStateM ε σ PUnit)
      (modify alter : EStateM ε σ PUnit) fun _ _ => True :=
    fun _ other related => ⟨⟨⟩, alter other, rfl, trivial, keeps _ other related⟩
  exact changes.bind fun _ _ _ => rest

theorem modify_if {condition also : Prop} [Decidable condition] [Decidable also]
    {change alter : σ → σ} {next : PUnit → EStateM ε σ α} {later : PUnit → EStateM ε σ β}
    (same : condition ↔ also)
    (keeps : ∀ state last, states state last → states (change state) (alter last))
    (rest : Parallel states faults excused (next ⟨⟩) (later ⟨⟩) values) :
    Parallel states faults excused (if condition then modify change >>= next else next ⟨⟩)
      (if also then modify alter >>= later else later ⟨⟩) values :=
  ite same (fun _ _ => modify_bind keeps rest) fun _ _ => rest

theorem modify {change alter : σ → σ}
    (keeps : ∀ state last, states state last → states (change state) (alter last)) :
    Parallel states faults excused (modify change : EStateM ε σ PUnit)
      (modify alter : EStateM ε σ PUnit) fun _ _ => True :=
  fun _ other related => ⟨⟨⟩, alter other, rfl, trivial, keeps _ other related⟩

theorem mapM {related : α → β → Prop} {step : α → EStateM ε σ γ} {other : β → EStateM ε σ δ}
    {list : List α} {others : List β} (same : List.Forall₂ related list others)
    (each : ∀ value result, related value result →
      Parallel states faults excused (step value) (other result) results) :
    Parallel states faults excused (list.mapM step) (others.mapM other) (List.Forall₂ results) := by
  induction same with
  | nil => exact pure .nil
  | cons alike _ induction =>
      rw [List.mapM_cons, List.mapM_cons]
      exact (each _ _ alike).bind fun _ _ one => induction.bind fun _ _ more => pure (.cons one more)

/-- A loop over the same numbers. -/
theorem foldlM {step : α → Nat → EStateM ε σ α} {other : β → Nat → EStateM ε σ β}
    (numbers : List Nat) {start : α} {begin : β} (begins : values start begin)
    (each : ∀ number value result, values value result →
      Parallel states faults excused (step value number) (other result number) values) :
    Parallel states faults excused (numbers.foldlM step start) (numbers.foldlM other begin)
      values := by
  induction numbers generalizing start begin with
  | nil => exact pure begins
  | cons number rest induction =>
      rw [List.foldlM_cons, List.foldlM_cons]
      exact (each number start begin begins).bind fun _ _ same => induction same

end Parallel

end Step

end ObjectQuery
