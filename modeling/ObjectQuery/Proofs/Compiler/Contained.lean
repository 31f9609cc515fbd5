import ObjectQuery.Proofs.Compiler.Numbering
import ObjectQuery.Proofs.Compiler.View

namespace ObjectQuery

/-!
What a compiled statement repeats of its parts. The queries of its objects and
what is left of its filter have the numbers of its own fields and objects.
-/

namespace Field

variable {Q : Type} {fields others : List (Field Q)}

theorem allMarks_subset (marked : ∀ field ∈ fields, field.marks ⊆ allMarks others) :
    allMarks fields ⊆ allMarks others := by
  intro mark member
  rw [allMarks_eq_flatMap] at member
  obtain ⟨field, given, own⟩ := List.mem_flatMap.1 member
  exact marked field given own

theorem marks_subset {field : Field Q} (member : field ∈ fields) :
    field.marks ⊆ allMarks fields := by
  intro mark own
  rw [allMarks_eq_flatMap]
  exact List.mem_flatMap.2 ⟨field, member, own⟩

theorem allMarks_subset_of_subset (part : fields ⊆ others) : allMarks fields ⊆ allMarks others :=
  allMarks_subset fun _ member => marks_subset (part member)

end Field

namespace SourceObject

/-- The query of the object is one for the object itself, with numbers among the marks. -/
def PlansWithin (marks : List Mark) (object : SourceObject Query) : Prop :=
  ∀ plan, object.plan = some plan → plan.body.marks ⊆ marks ∧
    ∀ own ∈ plan.body.objects, own.unplanned = object.unplanned

theorem PlansWithin.mono {marks others : List Mark} {object : SourceObject Query}
    (within : object.PlansWithin marks) (part : marks ⊆ others) : object.PlansWithin others :=
  fun plan planned => ⟨List.Subset.trans (within plan planned).1 part, (within plan planned).2⟩

theorem allMarks_ownFields_subset (path : Path) (fields : List (Field Query)) :
    Field.allMarks (ownFields path fields) ⊆ Field.allMarks fields := by
  refine Field.allMarks_subset fun field member => ?_
  obtain ⟨index, present⟩ := List.getElem?_of_mem member
  obtain ⟨other, given, _, rfl⟩ := getElem?_ownFields present
  have same : Field.marks { other with columnIndex := some index } = other.marks := by
    rw [Field.marks_eq, Field.marks_eq]
    rfl
  rw [same]
  exact Field.marks_subset given

/-- The query of the object is one for the object itself. -/
def PlansItself (object : SourceObject Query) : Prop :=
  ∀ plan, object.plan = some plan → ∀ own ∈ plan.body.objects, own.unplanned = object.unplanned

theorem plansItself_withPlan (fields : List (Field Query)) (object : SourceObject Query) :
    (object.withPlan fields).PlansItself := by
  rintro _ ⟨⟩ own member
  cases List.mem_singleton.1 member
  rfl

theorem PlansItself.withShare {object : SourceObject Query} (itself : object.PlansItself)
    (statement : Statement Query) (tree : Option (ConditionTree (Field Query))) (isPrimary : Bool) :
    (object.withShare statement tree isPrimary).PlansItself := by
  intro plan planned own member
  obtain ⟨before, given, rfl⟩ := Option.map_eq_some_iff.1 planned
  exact itself before given own member

end SourceObject

namespace Correlation.Fetches

/-- The column that is fetched is among the marks. -/
theorem plansWithin {objectKey : String} {column fetched : Field Query}
    {objects fetching : List (SourceObject Query)} {marks : List Mark}
    (fetches : Fetches objectKey column objects fetching fetched) (own : fetched.marks ⊆ marks)
    (within : ∀ object ∈ objects, object.PlansWithin marks) :
    ∀ object ∈ fetching, object.PlansWithin marks := by
  induction fetches with
  | here rest key planned =>
      obtain ⟨first, others⟩ := List.forall_mem_cons.1 within
      refine List.forall_mem_cons.2 ⟨?_, others⟩
      rintro _ ⟨⟩
      obtain ⟨part, itself⟩ := first _ planned
      refine ⟨?_, itself⟩
      rw [Statement.marks_eq] at part ⊢
      simp only [List.append_subset, Field.allMarks_append] at part ⊢
      obtain ⟨⟨⟨⟨fields, filter⟩, groupBy⟩, having⟩, orderBy⟩ := part
      exact ⟨⟨⟨⟨⟨fields, by simpa [Field.allMarks] using own⟩, filter⟩, groupBy⟩, having⟩, orderBy⟩
  | later fetches induction =>
      obtain ⟨first, others⟩ := List.forall_mem_cons.1 within
      exact List.forall_mem_cons.2 ⟨first, induction own others⟩

end Correlation.Fetches

namespace Statement

variable {site : Site} {statement before after : Statement Query}

/-- The marks of the statement, of what is left of its filter, and of the queries of its objects. -/
def wholeMarks (statement : Statement Query) : List Mark :=
  statement.marks ++ Field.allMarks (statement.residual.filterMap Condition.operand?) ++
    statement.objects.flatMap fun object => (object.plan.map (·.body.marks)).getD []

/-- The objects of the statement and of the queries of its objects. -/
def wholeObjects (statement : Statement Query) : List (SourceObject Query) :=
  statement.objects ++
    statement.objects.flatMap fun object => (object.plan.map (·.body.objects)).getD []

/-- What the statement repeats has the numbers of its own fields and objects. -/
structure Contained (statement : Statement Query) : Prop where
  residual : Field.allMarks (statement.residual.filterMap Condition.operand?) ⊆ statement.marks
  plans : ∀ object ∈ statement.objects, object.PlansWithin statement.marks

theorem mem_plans_iff {α : Type} {part : Statement Query → List α} {value : α}
    {objects : List (SourceObject Query)} :
    (value ∈ objects.flatMap fun object => (object.plan.map fun plan => part plan.body).getD []) ↔
      ∃ object ∈ objects, ∃ plan, object.plan = some plan ∧ value ∈ part plan.body := by
  rw [List.mem_flatMap]
  refine exists_congr fun object => and_congr_right fun _ => ?_
  cases object.plan <;> simp

theorem Contained.wholeMarks (contained : statement.Contained) :
    statement.wholeMarks ⊆ statement.marks := by
  intro mark member
  rcases List.mem_append.1 member with own | planned
  · exact (List.mem_append.1 own).elim (fun given => given) fun left => contained.residual left
  · obtain ⟨object, given, plan, present, own⟩ := mem_plans_iff.1 planned
    exact (contained.plans object given plan present).1 own

theorem Contained.wholeObjects (contained : statement.Contained) {object : SourceObject Query}
    (member : object ∈ statement.wholeObjects) :
    ∃ own ∈ statement.objects, object.unplanned = own.unplanned := by
  rcases List.mem_append.1 member with given | planned
  · exact ⟨object, given, rfl⟩
  · obtain ⟨own, given, plan, present, listed⟩ := mem_plans_iff.1 planned
    exact ⟨own, given, (contained.plans own given plan present).2 object listed⟩

theorem Contained.fetch {path : Path} {column fetched : Field Query}
    {objects : List (SourceObject Query)} (contained : after.Contained)
    (fetches : Correlation.Fetches path.parent.key column after.objects objects fetched) :
    Contained { after with objects, fields := after.fields ++ [fetched] } := by
  have marks : after.marks ⊆ marks { after with objects, fields := after.fields ++ [fetched] } :=
    Field.allMarks_subset_of_subset fun field member => by
      simp only [everyField, List.mem_append] at member ⊢
      tauto
  refine ⟨List.Subset.trans contained.residual marks, fetches.plansWithin ?_ fun object member =>
    (contained.plans object member).mono marks⟩
  exact Field.marks_subset (by simp [everyField])

theorem Grown.contained {reads : Path → String → Prop} (grown : before.Grown reads after)
    (contained : before.Contained) : after.Contained := by
  induction grown with
  | refl => exact contained
  | fetch grown kind holds fetches induction => exact induction.fetch fetches

/-- Only marks matter, and what is repeated. -/
theorem Contained.of_marks {other : Statement Query} (contained : statement.Contained)
    (marks : other.marks = statement.marks) (residual : other.residual = statement.residual)
    (objects : other.objects = statement.objects) : other.Contained := by
  refine ⟨?_, ?_⟩
  · rw [residual, marks]
    exact contained.residual
  · rw [objects, marks]
    exact contained.plans

/-- The query of an object is one for the object itself. -/
theorem PlanCourse.plansItself {parent : Option (Statement Query)} {before : Session}
    (course : PlanCourse statement parent before) :
    ∀ object ∈ course.planned.objects, object.PlansItself := by
  intro object member
  obtain ⟨own, given, isPrimary, rfl⟩ := SourceObject.mem_shareAll member
  rw [course.objects_indexed] at given
  obtain ⟨bare, _, rfl⟩ := List.mem_map.1 given
  exact (bare.plansItself_withPlan statement.fields).withShare course.indexed course.tree isPrimary

theorem Planned.contained {reads : Path → String → Prop} {own : Statement Query}
    {start finish : Correlation} (planned : statement.Planned reads own start finish)
    (same : own.marks = statement.marks) (itself : ∀ object ∈ own.objects, object.PlansItself) :
    own.Contained := by
  have operands {some all : List (Condition (Field Query))} (part : some.Sublist all) :
      Field.allMarks (some.filterMap Condition.operand?) ⊆
        Field.allMarks (all.filterMap Condition.operand?) :=
    Field.allMarks_subset_of_subset (part.filterMap _).subset
  have inFilter : Field.allMarks (own.filter.filterMap Condition.operand?) ⊆ own.marks := by
    rw [marks_eq]
    intro mark member
    simp only [List.mem_append]
    exact .inl (.inl (.inl (.inr member)))
  have inOrders : Field.allMarks (own.orderBy.map (·.field)) ⊆ own.marks := by
    rw [marks_eq]
    exact List.subset_append_right ..
  have inFields : Field.allMarks statement.fields ⊆ own.marks := by
    rw [same, marks_eq]
    intro mark member
    simp only [List.mem_append]
    exact .inl (.inl (.inl (.inl member)))
  refine ⟨List.Subset.trans (operands planned.residual) inFilter, ?_⟩
  intro object member plan given
  refine ⟨?_, itself object member plan given⟩
  obtain ⟨shown, returns, returned⟩ := planned.plans object member
  cases given.symm.trans returns
  have part := planned.parts object member plan given
  rw [marks_eq, returned, part.groupBy, part.having]
  simp only [List.append_subset]
  refine ⟨⟨⟨⟨?_, ?_⟩, by simp [Field.allMarks]⟩, by simp [Field.allMarks]⟩, ?_⟩
  · exact List.Subset.trans (SourceObject.allMarks_ownFields_subset ..) inFields
  · exact List.Subset.trans (operands part.filter) inFilter
  · exact List.Subset.trans (Field.allMarks_subset_of_subset (List.map_subset _ part.orderBy))
      inOrders

theorem compileOwn_contained (read : statement.Parsed) (before : Session) :
    Step.Meets (statement.compileOwn site.place site.depth site.inherited site.parent) before
      fun result _ => result.1.Contained := by
  refine .of_runs fun result after run => ?_
  obtain ⟨course, rfl, rfl⟩ := (compileOwn_course before).of_ok run
  exact (course.isPlanned read).contained course.plan.borrows.1 course.plan.plansItself

end Statement

namespace Query

open Statement (Contained)

def contains : Outcome := fun _ _ _ result _ _ => Throughout Contained ⟨result⟩

theorem Lists.contained {outcome : Outcome} {depth done : Nat} {aliases : AliasMap}
    {own statement : Statement Query} {start state : Session}
    (lists : Lists outcome depth aliases own start done statement state)
    (contained : own.Contained) : statement.Contained := by
  induction lists with
  | start => exact contained
  | skip lists plain induction => exact induction
  | nested lists found grows compiled induction =>
      have present := (grows.nestedAt _).trans found
      exact (grows.contained induction).of_marks (Statement.marks_replaceNested present _) rfl rfl

theorem contains_of_compiled {site : Site} {statement result : Statement Query}
    {before after : Session} {around : Option (Statement Query)} (read : statement.Parsed)
    (compiled : Compiled contains site statement before result around after) :
    contains site statement before result around after := by
  cases compiled with
  | @intro own selected _ _ filter having planned listing starting filtering ending after compiled
      lists begins filtered grouped ends ran =>
      have own := lists.contained ((Statement.compileOwn_contained read before).of_ok ran)
      refine .intro (own.of_marks ?_ rfl rfl) ?_
      · rw [Statement.marks_eq, Statement.marks_eq, filtered.marks, grouped.marks]
      · rw [Statement.nested_eq_append]
        exact List.forall_mem_append.2 ⟨lists.forall_of_outcome fun nested => nested,
          List.forall_mem_append.2 ⟨filtered.forall_of_outcome fun nested => nested,
            grouped.forall_of_outcome fun nested => nested⟩⟩

end Query

end ObjectQuery
