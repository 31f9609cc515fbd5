import ObjectQuery.Grammar.Call
import ObjectQuery.Proofs.Grammar.Name
import ObjectQuery.Proofs.Query.Display

namespace ObjectQuery

/-! Calls and their arguments as plain texts spell them, which are read again from their text. -/

/-- An argument of a call as it is read. -/
inductive Field.IsArgument : Field Query → Prop where
  | item {item : ListItem} (isRead : item.IsRead) : IsArgument (.ofListItem item)
  | column {path : Path} (isPath : IsPath path)
      (free : ∀ first ∈ path.head?, isFreeWord first.toList = true) :
      IsArgument (.ofKind (.column path))
  | call {name : String} {arguments : List (Field Query)} (isName : IsName name)
      (each : ∀ argument ∈ arguments, argument.IsArgument) :
      IsArgument (.ofKind (.call name arguments))

/-- A call by the name as it is read. -/
inductive Field.IsCall : String → Field Query → Prop where
  | intro {name : String} {arguments : List (Field Query)} (isName : IsName name)
      (each : ∀ argument ∈ arguments, argument.IsArgument) :
      IsCall name (.ofKind (.call name arguments))

theorem Field.IsCall.isArgument {name : String} {field : Field Query} (isCall : field.IsCall name) :
    field.IsArgument := by
  obtain ⟨isName, each⟩ := isCall
  exact .call isName each

/-- No call begins here: there is no name, or no bracket after it. -/
inductive Uncalled : List Char → Prop where
  | nameless {chars : List Char} (absent : identifier chars = .absent) : Uncalled chars
  | name {name : String} (isName : IsName name) {blanks after : List Char}
      (ends : isWordEnd (blanks ++ after) = true)
      (blank : blankLength (blanks ++ after) = .ok blanks.length) (flat : brackets blanks = 0)
      (other : after.head? ≠ some '(') : Uncalled (name.toList ++ (blanks ++ after))

namespace Uncalled

variable {rest : List Char}

theorem of_head {first : Char} (other : Identifier.isStart first = false) (others : List Char) :
    Uncalled (first :: others) := by
  refine .nameless ?_
  rw [identifier, if_neg]
  simp [Identifier.isAhead, other]

theorem of_follows {name : String} (isName : IsName name) (follows : Follows rest) :
    Uncalled (name.toList ++ rest) := by
  have ends := follows.isWordEnd
  obtain ⟨blanks, after, rfl, blank, flat, other⟩ := follows.exists_blanks
  exact .name isName ends blank flat (other '(' (by decide) (by decide))

/-- A mark that is no bracket stands right after the name. -/
theorem of_mark {name : String} (isName : IsName name) {mark : Char}
    (solid : isSolid mark = true) (isBreak : isBreak mark = true) (other : mark ≠ '(')
    (others : List Char) : Uncalled (name.toList ++ mark :: others) := by
  have ends : isWordEnd ([] ++ mark :: others) = true := (breaks_cons isBreak others).isWordEnd
  exact .name isName ends (blankLength_solid solid others) rfl (by simpa using other)

theorem of_isPath {path : Path} (isPath : IsPath path) (follows : Follows rest) :
    Uncalled (path.render.toList ++ rest) := by
  obtain ⟨first, others, rfl, isName⟩ := isPath.exists_cons
  obtain ⟨tail, shown, single | ⟨more, dotted⟩⟩ := Path.render_cons first others
  · rw [shown, single.2, List.append_nil]
    exact of_follows isName follows
  · rw [shown, dotted, List.append_assoc]
    exact of_mark isName (by decide) (by decide) (by decide) _

theorem of_opens {text : List Char} (opens : Opens text) (follows : Follows rest) :
    Uncalled (text ++ rest) := by
  cases opens with
  | number begins =>
      cases begins with
      | @digit first digit others =>
          have test : "0123456789".toList.all (fun char => !Identifier.isStart char) = true := by decide
          exact of_head (by simpa using Numeral.forall_digit test digit) _
      | minus digit others => exact of_head (by decide) _
  | negative => exact of_head (by decide) _
  | mark isMark others => exact of_head (by rcases isMark with rfl | rfl <;> decide) _
  | word isName _ => exact of_follows isName follows
  | counted isName _ others =>
      rw [List.append_assoc]
      exact of_mark isName (by decide) (by decide) (by decide) _

end Uncalled

namespace Grammar

open ObjectQuery.Parser

variable {bound : Nat} {rest : List Char}

section Takes

theorem callWithin_absent (uncalled : Uncalled rest) (bound : Nat) :
    (callWithin bound).Takes bound [] none rest := by
  cases bound with
  | zero => exact .zero
  | succ bound =>
      cases uncalled with
      | nameless absent =>
          have nameless : (lexeme identifier).Takes (bound + 1) [] none ([] ++ rest) :=
            .lexeme_absent absent
          exact .get_bind fun cursor _ => nameless.step (.pure _ _)
      | @name name isName blanks after ends blank flat other =>
          have spelled : (lexeme identifier).Takes (bound + 1) name.toList (some name)
              (blanks ++ after) := .lexeme (isName.identifier ends)
          have opened : (takeChar '(').Takes (bound + 1) [] false after := .takeChar_absent other
          have skipped : skipBlank.Takes (bound + 1) blanks ⟨⟩ after := .skipBlank blank
          intro cursor ahead room
          have levels : brackets name.toList + brackets blanks = 0 := by rw [isName.brackets, flat]
          have here : (MonadState.get : Parser Cursor) cursor = .ok cursor cursor := rfl
          have inside : (cursor.advance name.toList.length).ahead = blanks ++ after :=
            Cursor.ahead_advance_of_append ahead
          have flatRoom : ∀ count, (cursor.advance count).HasRoom (bound + 1) 0 := room.advance
          rw [callWithin, run_bind here, run_bind (spelled ahead (isName.brackets ▸ room))]
          dsimp only
          rw [run_bind (skipped inside (flat ▸ flatRoom _)), run_bind (opened
            (Cursor.ahead_advance_of_append inside) ((flatRoom _).advance _))]
          rfl

theorem call_absent (uncalled : Uncalled rest) : call.Takes bound [] none rest := by
  have within (most : Nat) : (callWithin most).Takes (min bound most) [] none rest :=
    (callWithin_absent uncalled most).mono (Nat.min_le_right _ _)
  exact .bounded within

theorem argument_item {item : ListItem} (isRead : item.IsRead) (printable : item.IsPrintable)
    (follows : Follows rest) (bound : Nat) :
    (argument (callWithin bound)).Takes bound item.render.toList (.ofListItem item) rest := by
  have uncalled := Uncalled.of_opens (Opens.of_isRead isRead printable) follows
  have spelled : (lexeme listItem).Takes bound item.render.toList (some item) rest :=
    .lexeme (listItem_render isRead printable follows.stops)
  exact (callWithin_absent uncalled bound).step (spelled.last (.pure _ _))

theorem argument_column {path : Path} (isPath : IsPath path)
    (free : ∀ first ∈ path.head?, isFreeWord first.toList = true) (follows : Follows rest)
    (bound : Nat) : (argument (callWithin bound)).Takes bound path.render.toList
      (.ofKind (.column path)) rest := by
  have uncalled := Uncalled.of_isPath isPath follows
  obtain ⟨first, tail, head, isName, shown, breaks⟩ := isPath.exists_render follows.breaks
  have noItem : (lexeme listItem).Takes bound [] none (path.render.toList ++ rest) := by
    rw [shown, List.append_assoc]
    exact .lexeme_absent (listItem_of_isFreeWord isName breaks (free first head))
  refine (callWithin_absent uncalled bound).step (noItem.step ?_)
  exact (name_takes isPath follows).last (.pure _ _)

/-- Arguments with a blank after each comma are taken up inside the bracket before them. -/
theorem argumentsWith_takes {call : Parser (Option (Field Query))}
    {arguments : List (Field Query)} {spell : Field Query → String}
    (each : ∀ value ∈ arguments, Fronts (spell value).toList ∧ ∀ following, Follows following →
      (argument call).Takes bound (spell value).toList value following) (start : Nat) (rest : List Char) :
    (argumentsWith call start).Takes bound (listText spell arguments ++ [')'])
      arguments rest := by
  cases arguments with
  | nil =>
      have noBlank : skipBlank.Takes bound [] ⟨⟩ ([')'] ++ rest) :=
        .skipBlank (blankLength_solid (by decide) rest)
      exact noBlank.step ((Takes.takeChar ')' rest).last (.pure _ _))
  | cons first others =>
      obtain ⟨fronts, -⟩ := each first List.mem_cons_self
      obtain ⟨tail, shown, -⟩ := exists_listText_append spell first others ([')'] ++ rest)
      have noBlank : skipBlank.Takes bound [] ⟨⟩ ((spell first).toList ++ tail) :=
        .skipBlank (fronts.blank tail)
      have unclosed : (takeChar ')').Takes bound [] false ((spell first).toList ++ tail) :=
        .takeChar_absent (fronts.head?_ne tail (by decide) (by decide))
      rw [← shown, ← List.append_assoc] at noBlank unclosed
      have solid : blankLength (')' :: rest) = .ok 0 := blankLength_solid (by decide) rest
      have noMore : skipBlank.Takes bound [] ⟨⟩ ([')'] ++ rest) := .skipBlank solid
      have items : (separated (charAhead ',') (skipBlank >>= fun _ => argument call)).Takes bound
          ([] ++ listText spell (first :: others)) (first :: others)
          ([')'] ++ rest) := by
        refine .commaSeparated ?_ (Follows.closing rest) Follows.comma
          (.charAhead_of_closing (by decide) rest)
          (List.cons_ne_nil _ _) (.inl rfl)
        intro value member lead leads following follows
        obtain ⟨fronts, takes⟩ := each value member
        exact (skipBlank_takes leads (fronts.blank following)).bind (takes following follows)
      refine noBlank.step (unclosed.step (items.bind (noMore.step ?_)))
      exact (Takes.takeChar ')' rest).last (.pure _ _)

theorem callWithin_takes {name : String} (isName : IsName name) {arguments : List (Field Query)}
    {spell : Field Query → String}
    (each : ∀ value ∈ arguments, Fronts (spell value).toList ∧ ∀ bound following, Follows following →
      (argument (callWithin bound)).Takes bound (spell value).toList value following)
    (bound : Nat) (rest : List Char) :
    (callWithin bound).Takes bound
      (name.toList ++ '(' :: (listText spell arguments ++ [')']))
      (some (.ofKind (.call name arguments))) rest := by
  cases bound with
  | zero => exact .zero
  | succ bound =>
      refine .get_bind fun cursor _ => ?_
      have spelled (after : List Char) : (lexeme identifier).Takes (bound + 1) name.toList (some name)
          ('(' :: after) := .lexeme (isName.identifier rfl)
      have noBlank (after : List Char) : skipBlank.Takes (bound + 1) [] ⟨⟩ ('(' :: after) :=
        .skipBlank (blankLength_solid (by decide) after)
      refine (spelled _).bind ((noBlank _).step ?_)
      refine .opens (.takeChar '(' _) rfl ?_
      have inner : (argumentsWith (callWithin bound) cursor.position).Takes bound
          (listText spell arguments ++ [')']) arguments rest :=
        argumentsWith_takes (fun value member =>
          ⟨(each value member).1, (each value member).2 bound⟩) cursor.position rest
      exact .last inner (.leave (.pure _ _))

/-- An argument as it is read is taken up where it is printed, and begins with no bracket. -/
theorem argument_takes {field : Field Query} (isArgument : field.IsArgument)
    (printable : field.IsPrintable) :
    Fronts (Query.renderField field).toList ∧ ∀ bound rest, Follows rest →
      (argument (callWithin bound)).Takes bound (Query.renderField field).toList field rest := by
  induction isArgument with
  | @item item isRead =>
      have printable := Field.isPrintable_listItem.1 printable
      rw [Query.renderField_listItem]
      exact ⟨(Opens.of_isRead isRead printable).fronts,
        fun bound rest follows => argument_item isRead printable follows bound⟩
  | @column path isPath free =>
      rw [Query.renderField_column]
      refine ⟨?_, fun bound rest follows => argument_column isPath free follows bound⟩
      obtain ⟨first, tail, -, isName, shown, -⟩ := isPath.exists_render Follows.nothing.breaks
      rw [shown]
      exact .name isName tail
  | @call name arguments isName _ induction =>
      have printable := Field.isPrintable_call.1 printable
      rw [Query.renderField_call]
      refine ⟨.name isName _, fun bound rest _ => ?_⟩
      exact (callWithin_takes isName (fun value member => induction value member
        (printable value member)) bound rest).last (.pure _ _)

theorem call_takes {name : String} {field : Field Query} (isCall : field.IsCall name)
    (printable : field.IsPrintable) (rest : List Char) :
    call.Takes bound (Query.renderField field).toList (some field) rest := by
  obtain ⟨isName, each⟩ := isCall
  have printable := Field.isPrintable_call.1 printable
  rw [Query.renderField_call]
  refine .bounded fun most => Takes.mono (callWithin_takes isName (fun value member => ?_) most rest)
    (Nat.min_le_right _ _)
  exact argument_takes (each value member) (printable value member)

end Takes

section Reads

open Step

variable {cursor : Cursor}

theorem Spells.isFreeWord {path : Path} {chars : List Char} (spells : Spells path chars rest)
    (absent : listItem chars = .absent) :
    ∀ first ∈ path.head?, isFreeWord first.toList = true := by
  obtain ⟨first, others, after, rfl, rfl, ends, -⟩ := spells.head
  rintro _ ⟨⟩
  exact isFreeWord_of_listItem (spells.isPath.names _ List.mem_cons_self) ends absent

theorem meets_listItem (plain : cursor.IsPlain) :
    Meets (lexeme listItem) cursor fun found after => after.IsPlain ∧ (∀ item ∈ found, item.IsRead) ∧
      (found = none → after = cursor ∧ listItem cursor.ahead = .absent) := by
  refine meets_lexeme (fun absent => ⟨plain, by simp, fun _ => ⟨rfl, absent⟩⟩)
    fun item length found => ?_
  obtain ⟨isRead, later⟩ := exists_of_listItem found
  refine ⟨?_, by simpa using isRead, by simp⟩
  rw [Cursor.IsPlain, Cursor.ahead_advance]
  exact later plain

theorem argument_reads {call : Parser (Option (Field Query))}
    (calls : call.Reads fun found => ∀ field ∈ found, field.IsArgument) :
    (argument call).Reads Field.IsArgument := by
  refine calls.bind fun found isCall => ?_
  cases found with
  | some field => exact .pure (isCall field rfl)
  | none =>
      refine .of_meets fun before plain => (meets_listItem plain).bind ?_
      rintro item next ⟨plain, isRead, stays⟩
      cases item with
      | some item => exact .pure ⟨.item (isRead item rfl), plain⟩
      | none =>
          obtain ⟨rfl, absent⟩ := stays rfl
          refine (meets_name plain).bind ?_
          rintro path last ⟨later, -, spells⟩
          cases path with
          | none => exact meets_fail
          | some path =>
              have spelled := spells path rfl
              exact .pure ⟨.column spelled.isPath (spelled.isFreeWord absent), later⟩

theorem argumentsWith_reads {call : Parser (Option (Field Query))}
    (calls : call.Reads fun found => ∀ field ∈ found, field.IsArgument) (start : Nat) :
    (argumentsWith call start).Reads fun fields => ∀ field ∈ fields, field.IsArgument := by
  have item : Parser.Reads (do
      skipBlank
      argument call) Field.IsArgument :=
    skipBlank_reads.bind fun _ _ => argument_reads calls
  refine skipBlank_reads.bind fun _ _ => (takeChar_offers (by decide)).reads.bind fun closed _ => ?_
  refine .ite (fun _ => .pure (by simp)) fun _ => ?_
  refine (Yields.separatedBy (charAhead_offers (by decide)).reads item).bind fun fields read => ?_
  refine skipBlank_reads.bind fun _ _ => (takeChar_offers (by decide)).reads.bind fun closed _ => ?_
  exact .ite (fun _ => .pure read.2) fun _ => .failFrom_bind

/-- A call spells its name first, and the cursor stays where there is no call. -/
theorem meets_callWithin (bound : Nat) (plain : cursor.IsPlain) :
    Meets (callWithin bound) cursor fun found after => after.IsPlain ∧
      (found = none → after = cursor) ∧ ∀ field ∈ found, ∃ name rest, field.IsCall name ∧
        cursor.ahead = name.toList ++ rest ∧ isWordEnd rest = true := by
  induction bound generalizing cursor with
  | zero => exact meets_fail
  | succ bound induction =>
      have calls : (callWithin bound).Reads fun found => ∀ field ∈ found, field.IsArgument := by
        refine .of_meets fun before plain => (induction plain).mono ?_
        rintro found after ⟨later, -, isCall⟩
        refine ⟨fun field member => ?_, later⟩
        obtain ⟨name, rest, isCall, -⟩ := isCall field member
        exact isCall.isArgument
      refine .get_bind ((meets_identifier plain).bind ?_)
      rintro found named ⟨plain, stays, names⟩
      cases found with
      | none => exact .pure ⟨plain, fun _ => stays rfl, by simp⟩
      | some name =>
          obtain ⟨isName, ahead, ends⟩ := names name rfl
          refine (skipBlank_reads.meets plain).bind fun _ skipped held => ?_
          refine (takeChar_offers (by decide) held.2).bind fun opened next held => .ite (fun _ => ?_) ?_
          · refine (enter_reads.meets held.1).bind fun _ inside held => ?_
            refine ((argumentsWith_reads calls _).meets held.2).bind fun arguments last read => ?_
            refine (leave_reads.meets read.2).bind fun _ after held => .pure ⟨held.2, by simp, ?_⟩
            rintro _ ⟨⟩
            exact ⟨name, named.ahead, .intro isName read.1, ahead, ends⟩
          · exact fun _ => .set_bind (.pure ⟨‹_›, fun _ => rfl, by simp⟩)

theorem meets_call (plain : cursor.IsPlain) :
    Meets call cursor fun found after => after.IsPlain ∧
      (found = none → after = cursor) ∧ ∀ field ∈ found, ∃ name rest, field.IsCall name ∧
        cursor.ahead = name.toList ++ rest ∧ isWordEnd rest = true :=
  .get_bind (meets_callWithin _ plain)

end Reads

end Grammar

end ObjectQuery
