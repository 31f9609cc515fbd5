import ObjectQuery.Proofs.Grammar.Condition
import ObjectQuery.Proofs.Grammar.Operand

namespace ObjectQuery

/-!
Conditions as plain texts spell them. They are printed with a bracket around
each connective, and are read again from this text.
-/

namespace Formula

variable {α : Type}

/-- The properties hold of the left and of the right sides of the comparisons. -/
def Compares (left right : α → Prop) : Formula α → Prop
  | compared first _ second => left first ∧ right second
  | not inner => inner.Compares left right
  | both first second | either first second =>
      first.Compares left right ∧ second.Compares left right

def text (spell : α → String) : Formula α → String
  | compared left comparison right =>
      spell left ++ " " ++ comparison.operator.spelling ++ " " ++ spell right
  | not inner => "NOT (" ++ inner.text spell ++ ")"
  | both left right => "(" ++ (left.text spell ++ " " ++ "AND" ++ " " ++ right.text spell) ++ ")"
  | either left right => "(" ++ (left.text spell ++ " " ++ "OR" ++ " " ++ right.text spell) ++ ")"

theorem pushText_comparison (stack : List String) (left right : String) (comparison : Comparison) :
    Condition.pushText (right :: left :: stack) (.operator comparison.operator) =
      (left ++ " " ++ comparison.operator.spelling ++ " " ++ right) :: stack := by
  obtain ⟨operator, compares⟩ := comparison
  cases operator <;> first | rfl | cases compares

/-- Printing the list of a formula leaves its text on the stack. -/
theorem foldl_pushText (spell : α → String) (formula : Formula α) (stack : List String) :
    (formula.postfixList.map (Condition.map spell)).foldl Condition.pushText stack =
      formula.text spell :: stack := by
  induction formula generalizing stack with
  | compared left comparison right =>
      exact pushText_comparison stack (spell left) (spell right) comparison
  | not inner induction =>
      rw [postfixList, List.map_append, List.foldl_append, induction]
      rfl
  | both left right leftInduction rightInduction
  | either left right leftInduction rightInduction =>
      rw [postfixList, List.map_append, List.map_append, List.foldl_append, List.foldl_append,
        leftInduction, rightInduction]
      rfl

theorem renderConditions_postfixList (formula : Formula (Field Query)) :
    Query.renderConditions formula.postfixList = formula.text Query.renderField := by
  rw [Query.renderConditions, Condition.infixText, foldl_pushText, List.reverse_singleton]
  exact String.intercalate_singleton

section

variable (spell : α → String) (left right : Formula α)

theorem toList_text_compared (first second : α) (comparison : Comparison) :
    ((compared first comparison second).text spell).toList =
      (spell first).toList ++ ([' '] ++ (comparison.operator.spelling.toList ++
        ([' '] ++ (spell second).toList))) := by
  have space : " ".toList = [' '] := rfl
  show (spell first ++ " " ++ comparison.operator.spelling ++ " " ++ spell second).toList = _
  simp only [String.toList_append, List.append_assoc, space]

theorem toList_text_not : ((not left).text spell).toList =
    "NOT ".toList ++ '(' :: ((left.text spell).toList ++ [')']) := by
  show ("NOT (" ++ left.text spell ++ ")").toList = _
  rw [String.toList_append, String.toList_append, List.append_assoc]
  rfl

theorem toList_text_both : ((both left right).text spell).toList =
    '(' :: (((left.text spell).toList ++ (' ' :: "AND".toList ++ [' '] ++
      (right.text spell).toList)) ++ [')']) := by
  show ("(" ++ (left.text spell ++ " " ++ "AND" ++ " " ++ right.text spell) ++ ")").toList = _
  simp

theorem toList_text_either : ((either left right).text spell).toList =
    '(' :: (((left.text spell).toList ++ (' ' :: "OR".toList ++ [' '] ++
      (right.text spell).toList)) ++ [')']) := by
  show ("(" ++ (left.text spell ++ " " ++ "OR" ++ " " ++ right.text spell) ++ ")").toList = _
  simp

end

end Formula

theorem comparison_spelling {operator : Operator} (compares : operator.isLogical = false)
    (rest : List Char) : comparison (operator.spelling.toList ++ ' ' :: rest) =
      .found operator operator.spelling.toList.length := by
  cases operator <;> first | rfl | cases compares

namespace Comparison

theorem exists_spelling (comparison : Comparison) : ∃ first others,
    comparison.operator.spelling.toList = first :: others ∧ isLead first = true ∧
      sameUpper first 'B' = false := by
  have leads : ∀ operator ∈ Operator.all, operator.isLogical = false →
      operator.spelling.toList.head?.any (fun first => isLead first && !sameUpper first 'B') = true := by
    decide
  have lead := leads comparison.operator comparison.operator.mem_all comparison.compares
  cases shown : comparison.operator.spelling.toList with
  | nil => simp [shown] at lead
  | cons first others => exact ⟨first, others, rfl, by simpa [shown] using lead⟩

theorem follows (comparison : Comparison) (rest : List Char) :
    Follows (' ' :: (comparison.operator.spelling.toList ++ rest)) := by
  obtain ⟨first, others, shown, lead, -⟩ := comparison.exists_spelling
  rw [shown]
  exact .word lead _

/-- No operator makes two words that open a clause of the word before it. -/
theorem notPairing (comparison : Comparison) (rest : List Char) :
    NotPairing (' ' :: (comparison.operator.spelling.toList ++ rest)) := by
  obtain ⟨first, others, shown, lead, other⟩ := comparison.exists_spelling
  have solid : isSolid first = true := forall_lead (by decide +kernel) (by decide) lead
  rw [shown]
  exact notPairing_space (isSolid_iff.1 solid).1 other _

theorem blank (comparison : Comparison) (rest : List Char) :
    blankLength (comparison.operator.spelling.toList ++ rest) = .ok 0 := by
  obtain ⟨first, others, shown, lead, -⟩ := comparison.exists_spelling
  rw [shown]
  exact blankLength_solid (forall_lead (by decide +kernel) (by decide) lead) _

end Comparison

namespace Grammar

open ObjectQuery.Parser

variable {subquery : Parser Query} {clause : ConditionClause} {bound : Nat} {rest : List Char}

section Takes

theorem comparisonTerm_takes {left right : Field Query} (isLeft : left.IsLeft clause)
    (leftPrintable : left.IsPrintable) (isRight : right.IsRight clause)
    (rightPrintable : right.IsPrintable) (nested : right.Nests (subquery.TakesQuery bound))
    (comparison : Comparison) (follows : Follows rest) :
    (comparisonTerm subquery clause).Takes bound
      ((Query.renderField left).toList ++ ([' '] ++ (comparison.operator.spelling.toList ++
        ([' '] ++ (Query.renderField right).toList))))
      [.operand left, .operand right, .operator comparison.operator] rest := by
  have after := comparison.follows (' ' :: ((Query.renderField right).toList ++ rest))
  have unreserved := isLeft.isReserved after.breaks (comparison.notPairing _)
  have reserved : isReservedAhead.Takes bound [] false ((Query.renderField left).toList ++
      ' ' :: (comparison.operator.spelling.toList ++
        ' ' :: ((Query.renderField right).toList ++ rest))) := unreserved ▸ .isReservedAhead _
  have leftTaken : (leftOperand clause).Takes bound (Query.renderField left).toList left
      (' ' :: (comparison.operator.spelling.toList ++
        ' ' :: ((Query.renderField right).toList ++ rest))) :=
    leftOperand_takes isLeft leftPrintable after
  have signBlank : skipBlank.Takes bound [' '] ⟨⟩ (comparison.operator.spelling.toList ++
      ' ' :: ((Query.renderField right).toList ++ rest)) :=
    .skipBlank (blankLength_space (comparison.blank _))
  have sign : (lexeme ObjectQuery.comparison).Takes bound comparison.operator.spelling.toList
      (some comparison.operator) (([' '] ++ (Query.renderField right).toList) ++ rest) :=
    .lexeme (comparison_spelling comparison.compares _)
  have rightBlank : skipBlank.Takes bound [' '] ⟨⟩ ((Query.renderField right).toList ++ rest) :=
    .skipBlank (blankLength_space (isRight.blank rightPrintable rest))
  have shape : ([' '] ++ (comparison.operator.spelling.toList ++
      ([' '] ++ (Query.renderField right).toList))) ++ rest =
        ' ' :: (comparison.operator.spelling.toList ++
          ' ' :: ((Query.renderField right).toList ++ rest)) := by
    simp
  refine Takes.step (by rwa [List.append_assoc, shape]) ?_
  refine Takes.bind (by rwa [shape]) (Takes.bind (by simpa using signBlank) (sign.bind ?_))
  exact rightBlank.bind ((rightOperand_takes isRight rightPrintable nested follows).last (.pure _ _))

/-- What stands after conditions: no connective, and nothing that goes on with a value. -/
structure EndsConditions (rest : List Char) : Prop where
  follows : Follows rest
  noAnd : ∀ bound, (keywordAhead .and).Takes bound [] false rest
  noOr : ∀ bound, (keywordAhead .or).Takes bound [] false rest

theorem endsConditions_closing (rest : List Char) : EndsConditions (')' :: rest) := by
  have blank : blankLength ([] ++ ')' :: rest) = .ok 0 := blankLength_solid (by decide) rest
  exact ⟨.closing rest, fun _ => .keywordAhead_absent blank rfl rfl,
    fun _ => .keywordAhead_absent blank rfl rfl⟩

theorem groupTerm_takes {conditions : Parser (List (Condition (Field Query)))} {inner : List Char}
    {list : List (Condition (Field Query))}
    (takes : conditions.Takes (bound - 1) inner list (')' :: rest)) :
    (groupTerm conditions clause).Takes bound ('(' :: (inner ++ [')'])) list rest := by
  have noBlank : skipBlank.Takes (bound - 1) [] ⟨⟩ ([')'] ++ rest) :=
    .skipBlank (blankLength_solid (by decide) rest)
  refine .get_bind fun cursor _ => .opens (.advance ['('] _) rfl ?_
  exact .bind takes (.step noBlank (.last (.takeChar ')' rest) (.leave (.pure _ _))))

theorem negation_absent (bare : Keyword.not.length? rest = none) :
    negation.Takes bound [] false rest :=
  (Takes.takeKeyword_absent bare).step (.pure _ _)

theorem negation_takes (rest : List Char) :
    negation.Takes bound "NOT ".toList true ('(' :: rest) := by
  have taken : (takeKeyword .not).Takes bound "NOT".toList true ([' '] ++ '(' :: rest) :=
    .takeKeyword rfl
  have blank : skipBlank.Takes bound [' '] ⟨⟩ ('(' :: rest) :=
    .skipBlank (blankLength_space (blankLength_solid (by decide) rest))
  exact taken.bind (blank.last (.pure _ _))

section Term

variable {conditions : Parser (List (Condition (Field Query)))}
  {list : List (Condition (Field Query))} {lead text inner : List Char}

theorem unnegated (list : List (Condition (Field Query))) (rest : List Char) :
    (pure (Condition.negatedTimes 0 list) : Parser _).Takes bound [] list rest := by
  rw [show Condition.negatedTimes 0 list = list from List.append_nil list]
  exact .pure _ _

theorem term_comparison (takes : (comparisonTerm subquery clause).Takes bound text list rest)
    (solid : blankLength (text ++ rest) = .ok 0)
    (bare : Keyword.not.length? (text ++ rest) = none)
    (other : (text ++ rest).head? ≠ some '(') (leads : lead = [] ∨ lead = [' ']) :
    (term subquery conditions clause).Takes bound (lead ++ text) list rest := by
  have unbracketed : (isAhead '(').Takes bound [] false (text ++ rest) := by
    rw [← beq_eq_false_iff_ne.2 other]
    exact .isAhead '(' _
  refine (skipBlank_takes leads solid).bind ((Takes.count_none (negation_absent bare)).step ?_)
  exact unbracketed.step (takes.last (unnegated list rest))

theorem term_group (takes : conditions.Takes (bound - 1) inner list (')' :: rest))
    (leads : lead = [] ∨ lead = [' ']) :
    (term subquery conditions clause).Takes bound (lead ++ '(' :: (inner ++ [')'])) list rest := by
  have solid : blankLength ('(' :: (inner ++ [')']) ++ rest) = .ok 0 :=
    blankLength_solid (by decide) _
  have noMore : negation.Takes bound [] false ('(' :: (inner ++ [')']) ++ rest) :=
    negation_absent rfl
  have bracketed : (isAhead '(').Takes bound [] true ('(' :: (inner ++ [')']) ++ rest) :=
    .isAhead '(' _
  refine (skipBlank_takes leads solid).bind ((Takes.count_none noMore).step ?_)
  exact bracketed.step ((groupTerm_takes takes).last (unnegated list rest))

theorem term_negation (takes : conditions.Takes (bound - 1) inner list (')' :: rest))
    (leads : lead = [] ∨ lead = [' ']) : (term subquery conditions clause).Takes bound
      (lead ++ ("NOT ".toList ++ '(' :: (inner ++ [')']))) (list ++ [.operator .not]) rest := by
  have solid : blankLength ("NOT ".toList ++ '(' :: (inner ++ [')']) ++ rest) = .ok 0 :=
    blankLength_solid (by decide) _
  have noMore : negation.Takes bound [] false ('(' :: (inner ++ [')']) ++ rest) :=
    negation_absent rfl
  have bracketed : (isAhead '(').Takes bound [] true ('(' :: (inner ++ [')']) ++ rest) :=
    .isAhead '(' _
  have negated := Takes.count_one (negation_takes _) noMore (by decide)
  refine (skipBlank_takes leads solid).bind (negated.bind (bracketed.step ?_))
  exact (groupTerm_takes takes).last (.pure _ _)

end Term

/-- The formula is taken up as one term, after a blank or none. -/
def TakesTerm (subquery : Parser Query) (clause : ConditionClause) (bound : Nat)
    (formula : Formula (Field Query)) : Prop :=
  ∀ ⦃most : Nat⦄ ⦃rest lead : List Char⦄, lead = [] ∨ lead = [' '] → Follows rest →
    (term subquery (conditionsWithin subquery clause most) clause).Takes (min bound (most + 1))
      (lead ++ (formula.text Query.renderField).toList) formula.postfixList rest

def conjunctionText (group : List (Formula (Field Query))) : List Char :=
  ((' ' :: "AND".toList) ++ [' ']).intercalate
    (group.map fun formula => (formula.text Query.renderField).toList)

def disjunctionText (groups : List (List (Formula (Field Query)))) : List Char :=
  ((' ' :: "OR".toList) ++ [' ']).intercalate (groups.map conjunctionText)

def conjunctionList (group : List (Formula (Field Query))) : List (Condition (Field Query)) :=
  Condition.joined .and (group.map Formula.postfixList)

section

variable (left right : Formula (Field Query))

theorem disjunctionText_one :
    disjunctionText [[left]] = (left.text Query.renderField).toList := by
  simp only [disjunctionText, conjunctionText, List.map_singleton, List.intercalate_singleton]

theorem disjunctionText_and : disjunctionText [[left, right]] =
    (left.text Query.renderField).toList ++ (' ' :: "AND".toList ++ [' '] ++
      (right.text Query.renderField).toList) := by
  simp only [disjunctionText, conjunctionText, List.map_cons, List.map_nil,
    List.intercalate_singleton, List.intercalate_cons_cons, List.append_assoc]

theorem disjunctionText_or : disjunctionText [[left], [right]] =
    (left.text Query.renderField).toList ++ (' ' :: "OR".toList ++ [' '] ++
      (right.text Query.renderField).toList) := by
  simp only [disjunctionText, conjunctionText, List.map_cons, List.map_nil,
    List.intercalate_singleton, List.intercalate_cons_cons, List.append_assoc]

end

/-- Disjunctions of conjunctions of terms are taken up as conditions. -/
theorem conditionsWithin_takes (groups : List (List (Formula (Field Query)))) (some : groups ≠ [])
    (each : ∀ group ∈ groups, group ≠ [] ∧ ∀ formula ∈ group,
      TakesTerm subquery clause bound formula)
    (ends : EndsConditions rest) {lead : List Char} (leads : lead = [] ∨ lead = [' ']) (most : Nat) :
    (conditionsWithin subquery clause most).Takes (min bound most) (lead ++ disjunctionText groups)
      (Condition.joined .or (groups.map conjunctionList)) rest := by
  cases most with
  | zero => exact .mono .zero (Nat.min_le_right _ _)
  | succ most =>
      have blank {first : Char} (solid : isSolid first = true) (others : List Char) :
          blankLength ([' '] ++ first :: others) = .ok 1 :=
        blankLength_space (blankLength_solid solid others)
      have andAhead (following : List Char) : (keywordAhead .and).Takes (min bound (most + 1))
          ([' '] ++ "AND".toList) true ([' '] ++ following) :=
        .keywordAhead (blank (by decide) _) rfl
      have orAhead (following : List Char) : (keywordAhead .or).Takes (min bound (most + 1))
          ([' '] ++ "OR".toList) true ([' '] ++ following) :=
        .keywordAhead (blank (by decide) _) rfl
      refine Takes.last (.separated orAhead (ends.noOr _) ?_ some (by decide) leads) (.pure _ _)
      intro group member lead leads following follow
      obtain ⟨some, terms⟩ := each group member
      have noAnd : (keywordAhead .and).Takes (min bound (most + 1)) [] false following := by
        rcases follow with rfl | ⟨more, rfl⟩
        · exact ends.noAnd _
        · rw [List.append_assoc]
          exact .keywordAhead_absent (blank (by decide) _) rfl rfl
      refine Takes.last (.separated andAhead noAnd ?_ some (by decide) leads) (.pure _ _)
      intro formula isTerm lead leads further next
      refine terms formula isTerm leads ?_
      rcases next with rfl | ⟨more, rfl⟩
      · rcases follow with rfl | ⟨more, rfl⟩
        · exact ends.follows
        · exact .word (by decide) _
      · exact .word (by decide) _

theorem takesTerm_of_compares {formula : Formula (Field Query)}
    (compares : formula.Compares (fun left => left.IsLeft clause ∧ left.IsPrintable)
      fun right => right.IsRight clause ∧ right.IsPrintable ∧
        right.Nests (subquery.TakesQuery bound)) :
    TakesTerm subquery clause bound formula := by
  have fits (most : Nat) : min bound (most + 1) - 1 ≤ min bound most := by omega
  induction formula with
  | compared left comparison right =>
      intro most rest lead leads follows
      obtain ⟨⟨isLeft, leftPrintable⟩, isRight, rightPrintable, nested⟩ := compares
      have after := comparison.follows (' ' :: ((Query.renderField right).toList ++ rest))
      rw [Formula.toList_text_compared]
      refine term_comparison ((comparisonTerm_takes isLeft leftPrintable isRight rightPrintable
        nested comparison follows).mono (Nat.min_le_left _ _)) ?_ ?_ ?_ leads
      · rw [List.append_assoc]
        exact isLeft.isNamed.fronts.blank _
      · simpa using isLeft.bare after.breaks
      · rw [List.append_assoc]
        exact isLeft.isNamed.fronts.head?_ne _ (by decide) (by decide)
  | not inner induction =>
      intro most rest lead leads follows
      rw [Formula.toList_text_not]
      have takes := conditionsWithin_takes [[inner]] (by simp)
        (by simpa using induction compares) (endsConditions_closing rest) (.inl rfl) most
      rw [List.nil_append, disjunctionText_one] at takes
      exact term_negation (takes.mono (fits most)) leads
  | both left right leftInduction rightInduction =>
      intro most rest lead leads follows
      rw [Formula.toList_text_both]
      have takes := conditionsWithin_takes [[left, right]] (by simp)
        (by simpa using ⟨leftInduction compares.1, rightInduction compares.2⟩)
        (endsConditions_closing rest) (.inl rfl) most
      rw [List.nil_append, disjunctionText_and] at takes
      exact term_group (takes.mono (fits most)) leads
  | either left right leftInduction rightInduction =>
      intro most rest lead leads follows
      rw [Formula.toList_text_either]
      have takes := conditionsWithin_takes [[left], [right]] (by simp)
        (by simpa using ⟨leftInduction compares.1, rightInduction compares.2⟩)
        (endsConditions_closing rest) (.inl rfl) most
      rw [List.nil_append, disjunctionText_or] at takes
      exact term_group (takes.mono (fits most)) leads

theorem conditionsWith_takes {formula : Formula (Field Query)}
    (isTerm : TakesTerm subquery clause bound formula) (ends : EndsConditions rest) :
    (conditionsWith subquery clause).Takes bound (formula.text Query.renderField).toList
      formula.postfixList rest := by
  refine .bounded fun most => ?_
  rw [← disjunctionText_one]
  exact conditionsWithin_takes [[formula]] (by simp) (by simpa using isTerm) ends (.inl rfl) most

end Takes

section Reads

open Step

variable {cursor : Cursor} {property : Query → Prop}

theorem meets_negation (plain : cursor.IsPlain) :
    Meets negation cursor fun answer after => after.IsPlain ∧
      (answer = true → after.ahead.length < cursor.ahead.length) ∧
        (answer = false → Keyword.not.length? after.ahead = none) := by
  have taken : Meets (takeKeyword .not) cursor fun answer after => after.IsPlain ∧
      (answer = true → after.ahead.length < cursor.ahead.length) ∧
        (answer = false → Keyword.not.length? after.ahead = none) := by
    refine .get_bind ?_
    cases found : Keyword.not.length? cursor.ahead with
    | none => exact .pure ⟨plain, by simp, fun _ => found⟩
    | some length =>
        obtain ⟨positive, some⟩ := Keyword.length?_pos found
        have unquoted := Keyword.quote_not_mem (by decide) found
        refine .modify_bind (.pure ⟨plain.advance unquoted, fun _ => ?_, by simp⟩)
        have ahead := List.length_pos_of_ne_nil some
        rw [Cursor.ahead_advance, List.length_drop]
        omega
  refine taken.bind ?_
  rintro answer next ⟨plain, shorter, bare⟩
  refine .ite (fun taken => (meets_skipBlank plain).bind ?_) fun stays => .pure ?_
  · rintro ⟨⟩ after ⟨plain, blanks, shape, -⟩
    refine .pure ⟨plain, fun _ => ?_, by simp⟩
    have length := congrArg List.length shape
    have less := shorter taken
    rw [List.length_append] at length
    omega
  · exact ⟨plain, by simp, fun _ => bare (by simpa using stays)⟩

theorem meets_count_negation (plain : cursor.IsPlain) :
    Meets (count negation) cursor fun _ after => after.IsPlain ∧
      Keyword.not.length? after.ahead = none := by
  have within (bound : Nat) {cursor : Cursor} (plain : cursor.IsPlain)
      (fits : cursor.ahead.length ≤ bound) : Meets (countWithin negation bound) cursor fun _ after =>
        after.IsPlain ∧ Keyword.not.length? after.ahead = none := by
    induction bound generalizing cursor with
    | zero =>
        have none : cursor.ahead = [] := List.eq_nil_of_length_eq_zero (Nat.le_zero.1 fits)
        exact .pure ⟨plain, by rw [none]; rfl⟩
    | succ bound induction =>
        refine (meets_negation plain).bind ?_
        rintro answer after ⟨plain, shorter, bare⟩
        refine .ite (fun taken => ?_) fun stays => .pure ⟨plain, bare (by simpa using stays)⟩
        have less := shorter taken
        exact (induction plain (by omega)).bind fun _ after held => .pure held
  exact .get_bind (within _ plain (Nat.le_refl _))

/-- The conditions of a formula over sides of comparisons as they are read. -/
def IsConditions (clause : ConditionClause) (property : Query → Prop)
    (list : List (Condition (Field Query))) : Prop :=
  ∃ formula : Formula (Field Query), list = formula.postfixList ∧
    formula.Compares (·.IsLeft clause) fun right => right.IsRight clause ∧ right.Nests property

theorem meets_comparisonTerm (inner : subquery.Reads property) (plain : cursor.IsPlain)
    (bare : Keyword.not.length? cursor.ahead = none) :
    Meets (comparisonTerm subquery clause) cursor fun list after =>
      IsConditions clause property list ∧ after.IsPlain := by
  refine meets_isReservedAhead.bind ?_
  rintro _ _ ⟨rfl, rfl⟩
  refine .ite (fun _ => meets_fail_bind) fun free => ?_
  refine (meets_leftOperand (by simpa using free) bare plain).bind ?_
  rintro left next ⟨isLeft, plain⟩
  refine (meets_skipBlank plain).bind ?_
  rintro ⟨⟩ next ⟨plain, -⟩
  have signs : Meets (lexeme comparison) next fun found after => after.IsPlain ∧
      ∀ operator ∈ found, operator.isLogical = false := by
    refine meets_lexeme (fun _ => ⟨plain, by simp⟩) fun operator length found => ⟨?_, ?_⟩
    · have lettered : ∀ sign ∈ comparisons, sign.1.isLettered = true := by decide
      obtain ⟨keyword, member, spelled⟩ := exists_of_comparison found
      exact plain.advance (Keyword.quote_not_mem (lettered _ member) spelled)
    · simpa using isLogical_of_comparison found
  refine signs.bind ?_
  rintro found after ⟨plain, compares⟩
  cases found with
  | none => exact meets_fail
  | some operator =>
      refine (meets_skipBlank plain).bind ?_
      rintro ⟨⟩ next ⟨plain, -⟩
      refine (meets_rightOperand inner plain).bind ?_
      rintro right last ⟨isRight, plain⟩
      exact .pure ⟨⟨.compared left ⟨operator, compares operator rfl⟩ right, rfl, isLeft, isRight⟩, plain⟩

namespace IsConditions

variable {list left right : List (Condition (Field Query))}

theorem append_not (given : IsConditions clause property list) :
    IsConditions clause property (list ++ [.operator .not]) := by
  obtain ⟨formula, rfl, compares⟩ := given
  exact ⟨.not formula, rfl, compares⟩

theorem append_and (leftGiven : IsConditions clause property left)
    (rightGiven : IsConditions clause property right) :
    IsConditions clause property (left ++ right ++ [.operator .and]) := by
  obtain ⟨first, rfl, compares⟩ := leftGiven
  obtain ⟨second, rfl, comparesToo⟩ := rightGiven
  exact ⟨.both first second, rfl, compares, comparesToo⟩

theorem append_or (leftGiven : IsConditions clause property left)
    (rightGiven : IsConditions clause property right) :
    IsConditions clause property (left ++ right ++ [.operator .or]) := by
  obtain ⟨first, rfl, compares⟩ := leftGiven
  obtain ⟨second, rfl, comparesToo⟩ := rightGiven
  exact ⟨.either first second, rfl, compares, comparesToo⟩

end IsConditions

theorem meets_groupTerm {conditions : Parser (List (Condition (Field Query)))}
    (reads : conditions.Reads (IsConditions clause property)) (plain : cursor.IsPlain)
    (bracket : cursor.ahead.head? = some '(') :
    Meets (groupTerm conditions clause) cursor fun list after =>
      IsConditions clause property list ∧ after.IsPlain := by
  obtain ⟨others, shape⟩ := List.head?_eq_some_iff.1 bracket
  have inside : (cursor.advance 1).IsPlain := plain.advance (by simp [shape])
  refine .get_bind (.modify_bind ?_)
  refine (enter_reads.meets inside).bind fun _ next held => ?_
  refine (reads.meets held.2).bind fun list next given => ?_
  refine (skipBlank_reads.meets given.2).bind fun _ next held => ?_
  refine (takeChar_offers (by decide) held.2).bind fun closed next held => ?_
  refine .ite (fun _ => ?_) fun _ => .of_runs fun _ _ run => absurd run (by rintro ⟨⟩)
  exact (leave_reads.meets held.1).bind fun _ after held => .pure ⟨given.1, held.2⟩

theorem term_reads {conditions : Parser (List (Condition (Field Query)))}
    (inner : subquery.Reads property) (reads : conditions.Reads (IsConditions clause property)) :
    (term subquery conditions clause).Reads (IsConditions clause property) := by
  have negated {count : Nat} {list : List (Condition (Field Query))} {after : Cursor}
      (held : IsConditions clause property list ∧ after.IsPlain) :
      IsConditions clause property (Condition.negatedTimes count list) ∧ after.IsPlain :=
    ⟨Condition.negatedTimes_induction .append_not held.1 count, held.2⟩
  refine .of_meets fun before plain => (meets_skipBlank plain).bind ?_
  rintro ⟨⟩ next ⟨plain, -⟩
  refine (meets_count_negation plain).bind ?_
  rintro count next ⟨plain, bare⟩
  refine (meets_isAhead '(').bind ?_
  rintro bracket _ ⟨rfl, rfl⟩
  refine .ite (fun bracket => ?_) fun _ => ?_
  · exact (meets_groupTerm reads plain (by simpa using bracket)).bind fun _ _ held =>
      .pure (negated held)
  · exact (meets_comparisonTerm inner plain bare).bind fun _ _ held => .pure (negated held)

theorem conditionsWithin_reads (inner : subquery.Reads property) (bound : Nat) :
    (conditionsWithin subquery clause bound).Reads (IsConditions clause property) := by
  induction bound with
  | zero => exact .fail
  | succ bound induction =>
      have lettered : Keyword.and.isLettered = true := by decide
      have terms := Yields.separatedBy (keywordAhead_offers lettered).reads
        (term_reads inner induction)
      have conjunctions := Yields.separatedBy
        (keywordAhead_offers (show Keyword.or.isLettered = true by decide)).reads
        (terms.bind fun _ given => .pure
          (Condition.joined_induction .append_and given.1 given.2))
      exact conjunctions.bind fun _ given =>
        .pure (Condition.joined_induction .append_or given.1 given.2)

theorem conditionsWith_reads (inner : subquery.Reads property) :
    (conditionsWith subquery clause).Reads (IsConditions clause property) :=
  .bind .get fun _ _ => conditionsWithin_reads inner _

end Reads

end Grammar

end ObjectQuery
