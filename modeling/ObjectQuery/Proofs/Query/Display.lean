import ObjectQuery.Proofs.Grammar.Value
import ObjectQuery.Proofs.Lexical.Word
import ObjectQuery.Proofs.Query.Parsed
import ObjectQuery.Query.Display
import ObjectQuery.Query.Fold

namespace ObjectQuery

/-! The texts of queries and of their parts, as lists of characters. -/

theorem toList_commaText (texts : List String) :
    (commaText texts).toList = ([','] ++ [' ']).intercalate (texts.map String.toList) := by
  rw [commaText, String.toList_intercalate]
  rfl

/-- The texts with commas between them. -/
def listText (spell : α → String) (values : List α) : List Char :=
  ([','] ++ [' ']).intercalate (values.map fun value => (spell value).toList)

theorem toList_commaText_map {α : Type} (spell : α → String) (values : List α) :
    (commaText (values.map spell)).toList = listText spell values := by
  rw [toList_commaText, List.map_map]
  rfl

/-- What follows the first text is the rest or begins with a comma. -/
theorem exists_listText_append {α : Type} (spell : α → String) (first : α) (others : List α)
    (rest : List Char) : ∃ tail, listText spell (first :: others) ++ rest =
      (spell first).toList ++ tail ∧ (tail = rest ∨ ∃ more, tail = ',' :: more) := by
  cases others with
  | nil => exact ⟨rest, by rw [listText, List.map_singleton, List.intercalate_singleton], .inl rfl⟩
  | cons next others =>
      rw [listText, List.map_cons, List.map_cons, List.intercalate_cons_cons, List.append_assoc,
        List.append_assoc]
      exact ⟨_, rfl, .inr ⟨_, rfl⟩⟩

theorem ListItem.renderAll_eq_map (items : List ListItem) :
    renderAll items = items.map render := by
  induction items with
  | nil => rw [renderAll, List.map_nil]
  | cons item rest induction => rw [renderAll, induction, List.map_cons]

theorem Field.renderAll_eq_map (fields : List (Field String)) :
    renderAll fields = fields.map render := by
  induction fields with
  | nil => rw [renderAll, List.map_nil]
  | cons field rest induction => rw [renderAll, induction, List.map_cons]

namespace Query

theorem renderField_column (path : Path) : renderField (.ofKind (.column path)) = path.render := rfl

theorem renderField_listItem (item : ListItem) : renderField (.ofListItem item) = item.render := by
  cases item <;> rfl

theorem renderField_call (name : String) (arguments : List (Field Query)) :
    (renderField (.ofKind (.call name arguments))).toList =
      name.toList ++ '(' :: (listText renderField arguments ++ [')']) := by
  have mark (text : String) : (name ++ "(" ++ text ++ ")").toList =
      name.toList ++ '(' :: (text.toList ++ [')']) := by
    simp
  show (name ++ "(" ++ commaText (Field.renderAll (Field.mapAll render arguments)) ++ ")").toList = _
  rw [Field.renderAll_eq_map, Field.mapAll_eq_map, List.map_map, mark, ← toList_commaText_map]
  rfl

theorem renderField_subquery (query : Query) :
    (renderField (.ofKind (.subquery query))).toList = '(' :: (query.render.toList ++ [')']) := by
  show ("(" ++ query.render ++ ")").toList = _
  rw [String.toList_append, String.toList_append, List.append_assoc]
  rfl

theorem renderField_list (items : List ListItem) :
    (renderField (.ofKind (.literal (.list items)))).toList =
      '(' :: (listText ListItem.render items ++ [')']) := by
  show ("(" ++ commaText (ListItem.renderAll items) ++ ")").toList = _
  rw [ListItem.renderAll_eq_map, String.toList_append, String.toList_append,
    toList_commaText_map, List.append_assoc]
  rfl

/-- An alias stands after a blank. -/
theorem renderField_aliased (kind : FieldKind Query) (name : String) :
    (renderField { kind, aliasName := some name }).toList =
      (renderField (.ofKind kind)).toList ++ ' ' :: name.toList := by
  show (renderField (.ofKind kind) ++ " " ++ name).toList = _
  rw [String.toList_append, String.toList_append, List.append_assoc]
  rfl

end Query

/-- A clause of the text, left out where it is empty. -/
def clauseChars (keyword : Keyword) (isEmpty : Bool) (content : List Char) : List Char :=
  if isEmpty then [] else (' ' :: keyword.spelled) ++ ([' '] ++ content)

namespace RowBound

def clause (keyword : Keyword) (bound : Option RowBound) : List Char :=
  clauseChars keyword bound.isNone (bound.elim [] fun bound => bound.render.toList)

end RowBound

namespace Query

end Query

namespace Condition

variable {α β γ : Type}

theorem map_map (f : α → β) (g : β → γ) (entry : Condition α) :
    (entry.map f).map g = entry.map (g ∘ f) := by
  cases entry <;> rfl

end Condition

namespace Statement

theorem toList_clauseText (text : String) (keyword : Keyword)
    (spelled : text.toList = keyword.spelled) (isEmpty : Bool) (content : String) :
    (clauseText text isEmpty content).toList = clauseChars keyword isEmpty content.toList := by
  cases isEmpty with
  | true => rfl
  | false =>
      simp only [clauseText, clauseChars, Bool.false_eq_true, if_false, String.toList_append,
        spelled, List.append_assoc]
      rfl

theorem render_eq (statement : Statement String)
    (selected : ∀ field ∈ statement.fields, field.notSelected = false) :
    statement.render = "SELECT " ++ commaText (statement.fields.map Field.render) ++
      " FROM " ++ commaText (statement.objects.map SourceObject.render) ++
      clauseText "WHERE" statement.filter.isEmpty (Condition.infixOfFields statement.filter) ++
      clauseText "GROUP BY" statement.groupBy.isEmpty
        (commaText (statement.groupBy.map Field.render)) ++
      clauseText "HAVING" statement.having.isEmpty (Condition.infixOfFields statement.having) ++
      clauseText "ORDER BY" statement.orderBy.isEmpty
        (commaText (statement.orderBy.map OrderKey.render)) ++
      clauseText "OFFSET" statement.bounds.offset.isNone
        (statement.bounds.offset.elim "" RowBound.render) ++
      clauseText "LIMIT" statement.bounds.limit.isNone
        (statement.bounds.limit.elim "" RowBound.render) ++
      (if statement.access.isEmpty then "" else " " ++ statement.access.render) := by
  have all : statement.fields.filter (fun field => !field.notSelected) = statement.fields :=
    List.filter_eq_self.2 fun field member => by simp [selected field member]
  delta render
  rw [all]
  cases statement.bounds.offset <;> cases statement.bounds.limit <;> rfl

end Statement

namespace Query

/-- The text of a query, clause by clause. -/
theorem toList_render (statement : Statement Query)
    (selected : ∀ field ∈ statement.fields, field.notSelected = false) :
    (render ⟨statement⟩).toList =
      "SELECT".toList ++ ([' '] ++ (listText renderField statement.fields ++
        ((' ' :: "FROM".toList) ++ (([' '] ++ listText SourceObject.render statement.objects) ++
          (clauseChars .filter statement.filter.isEmpty (renderConditions statement.filter).toList ++
            (clauseChars .groupBy statement.groupBy.isEmpty
                (listText renderField statement.groupBy) ++
              (clauseChars .having statement.having.isEmpty
                  (renderConditions statement.having).toList ++
                (clauseChars .orderBy statement.orderBy.isEmpty
                    (listText renderOrderKey statement.orderBy) ++
                  ((RowBound.clause .offset statement.bounds.offset ++
                      RowBound.clause .limit statement.bounds.limit) ++
                    (if statement.access.isEmpty then [] else
                      ' ' :: statement.access.render.toList)))))))))) := by
  have conditions (list : List (Condition (Field Query))) :
      Condition.infixOfFields (list.map (·.map (·.map render))) = renderConditions list := by
    simp only [Condition.infixOfFields, renderConditions, List.map_map]
    congr 2
    funext entry
    exact entry.map_map _ _
  have bound (keyword : Keyword) (bound : Option RowBound) :
      clauseChars keyword bound.isNone (bound.elim "" RowBound.render).toList =
        RowBound.clause keyword bound := by
    cases bound <;> rfl
  have access (clause : AccessClause) : (if clause.isEmpty then "" else " " ++ clause.render).toList =
      if clause.isEmpty then [] else ' ' :: clause.render.toList := by
    split
    · rfl
    · rw [String.toList_append]
      rfl
  have unnamed : ∀ field ∈ (statement.map render).fields, field.notSelected = false := by
    intro field member
    obtain ⟨own, given, rfl⟩ := List.mem_map.1 member
    have own := selected own given
    cases ‹Field Query›
    exact own
  have shown : render ⟨statement⟩ = (statement.map render).render := fold_mk _ statement
  rw [shown, Statement.render_eq _ unnamed]
  simp only [String.toList_append, toList_commaText_map, Statement.toList_clauseText "WHERE" .filter rfl,
    Statement.toList_clauseText "GROUP BY" .groupBy rfl, Statement.toList_clauseText "HAVING" .having rfl,
    Statement.toList_clauseText "ORDER BY" .orderBy rfl, Statement.toList_clauseText "OFFSET" .offset rfl,
    Statement.toList_clauseText "LIMIT" .limit rfl, bound, access, List.append_assoc]
  simp only [Statement.map, conditions, List.isEmpty_map, listText, List.map_map]
  rfl

/-- The text of a query begins with its keyword. -/
theorem exists_render_eq (query : Query) :
    ∃ more, query.render.toList = "SELECT".toList ++ ' ' :: more := by
  obtain ⟨statement⟩ := query
  have shown : render ⟨statement⟩ = (statement.map render).render := fold_mk _ statement
  rw [shown]
  delta Statement.render
  simp only [String.toList_append, List.append_assoc]
  exact ⟨_, rfl⟩

end Query

/-! Queries whose values are all read as they are printed. -/

theorem ListItem.arePrintable_iff {items : List ListItem} :
    ArePrintable items ↔ ∀ item ∈ items, item.IsPrintable := by
  induction items with
  | nil => simp [ArePrintable]
  | cons item rest induction => rw [ArePrintable, induction, List.forall_mem_cons]

mutual

def FieldKind.IsPrintable : FieldKind Q → Prop
  | .call _ arguments => Field.ArePrintable arguments
  | .literal value => value.IsPrintable
  | _ => True

/-- The literals in the field, outside of the queries in it, are printable. -/
def Field.IsPrintable : Field Q → Prop
  | ⟨kind, _, _, _, _, _, _⟩ => kind.IsPrintable

def Field.ArePrintable : List (Field Q) → Prop
  | [] => True
  | field :: rest => field.IsPrintable ∧ Field.ArePrintable rest

end

namespace Field

variable {Q : Type}

theorem arePrintable_iff {fields : List (Field Q)} :
    ArePrintable fields ↔ ∀ field ∈ fields, field.IsPrintable := by
  induction fields with
  | nil => simp [ArePrintable]
  | cons field rest induction => rw [ArePrintable, induction, List.forall_mem_cons]

theorem isPrintable_call {name : String} {arguments : List (Field Q)} :
    (ofKind (.call name arguments) : Field Q).IsPrintable ↔
      ∀ argument ∈ arguments, argument.IsPrintable :=
  arePrintable_iff

theorem isPrintable_listItem {item : ListItem} :
    (ofListItem item : Field Q).IsPrintable ↔ item.IsPrintable := by
  cases item with
  | literal value => rfl
  | parameter name => rfl
  | relativeDate date => rfl

theorem isPrintable_list {items : List ListItem} :
    (ofKind (.literal (.list items)) : Field Q).IsPrintable ↔ ∀ item ∈ items, item.IsPrintable :=
  ListItem.arePrintable_iff

end Field

/-- The literals in the fields of the statement are printable. -/
def Statement.IsPrintable (statement : Statement Q) : Prop :=
  ∀ field ∈ statement.everyField, field.IsPrintable

namespace Query

/-- The literals in the query and in the queries nested in it are printable. -/
abbrev IsPrintable : Query → Prop :=
  Throughout Statement.IsPrintable

end Query

end ObjectQuery
