import ObjectQuery.Proofs.Wire.Layout
import ObjectQuery.Proofs.Wire.NumberToken
import ObjectQuery.Wire.Json
import ObjectQuery.Wire.Quotation

namespace ObjectQuery

/-! Quoted texts, which are read as they were written. -/

namespace Quotation

theorem hex_digits : ∀ code < 32,
    [Json.hexDigit (code / 16), Json.hexDigit (code % 16)].all (Digit.isOf 16) = true ∧
      Digit.number 16 ['0', '0', Json.hexDigit (code / 16), Json.hexDigit (code % 16)] = code := by
  decide

/-- An escaped character is one piece, which joins with others as the character. -/
theorem pieces_escaped (line : Nat) (char : Char) (rest : List Char) :
    ∃ piece, pieces line (Json.escaped char ++ rest) =
        (piece :: (pieces line rest).1, (pieces line rest).2) ∧
      ∀ later, joined? (piece :: later) = (joined? later).map (char :: ·) := by
  unfold Json.escaped
  split
  case h_8 quote backslash _ _ _ _ _ =>
    split
    · rename_i control
      obtain ⟨digits, spelled⟩ := hex_digits char.toNat control
      refine ⟨.unit char.toNat, ?_, ?_⟩
      · have zero : Digit.isOf 16 '0' = true := by decide
        simp only [List.all_cons, Bool.and_eq_true] at digits
        simp [pieces, zero, digits, spelled]
      · intro later
        have lead : isLead char.toNat = false := by
          rw [isLead, decide_eq_false (by omega), Bool.false_and]
        have trail : isTrail char.toNat = false := by
          rw [isTrail, decide_eq_false (by omega), Bool.false_and]
        rw [joined?.eq_def]
        simp [lead, trail]
    · rename_i printed
      refine ⟨.char char, ?_, fun later => rfl⟩
      rw [List.singleton_append, pieces.eq_def]
      simp_all
  all_goals exact ⟨.char _, rfl, fun later => rfl⟩

theorem pieces_quoted (line : Nat) (text rest : List Char) :
    ∃ found, pieces line (text.flatMap Json.escaped ++ '"' :: rest) = (found, .closed rest) ∧
      joined? found = some text := by
  induction text with
  | nil => exact ⟨[], rfl, rfl⟩
  | cons char later induction =>
      obtain ⟨found, closed, joined⟩ := induction
      obtain ⟨piece, taken, joins⟩ :=
        pieces_escaped line char (later.flatMap Json.escaped ++ '"' :: rest)
      refine ⟨piece :: found, ?_, ?_⟩
      · rw [List.flatMap_cons, List.append_assoc, taken, closed]
      · rw [joins, joined]
        rfl

theorem read_quoted (text : String) (rest : List Char) (line : Nat) :
    read ⟨text.toList.flatMap Json.escaped ++ '"' :: rest, line⟩ =
      (.sound text, some ⟨rest, line⟩) := by
  obtain ⟨found, closed, joined⟩ := pieces_quoted line text.toList rest
  simp [read, closed, joined]

end Quotation

/-! Written values, which documents show. -/

namespace Place

theorem skipSpace_solid {first : Char} (solid : isSpace first = false) (rest : List Char)
    (line : Nat) : skipSpace ⟨first :: rest, line⟩ = ⟨first :: rest, line⟩ := by
  simp [skipSpace, skipSpace.after, solid]

theorem skipSpace_blanks {blanks : List Char} (blank : ∀ char ∈ blanks, isSpace char = true)
    {first : Char} (solid : isSpace first = false) (rest : List Char) (line : Nat) :
    ∃ reached, skipSpace ⟨blanks ++ first :: rest, line⟩ = ⟨first :: rest, reached⟩ := by
  induction blanks generalizing line with
  | nil => exact ⟨line, skipSpace_solid solid rest line⟩
  | cons char others induction =>
      obtain ⟨isBlank, areBlank⟩ := List.forall_mem_cons.1 blank
      obtain ⟨reached, skipped⟩ := induction areBlank (lineAfter line char)
      refine ⟨reached, ?_⟩
      rw [← skipped]
      simp [skipSpace, skipSpace.after, isBlank]

end Place

namespace NumberToken

theorem isDigit_of_whole {first : Char} {others read : List Char} {line : Nat} {after : Place}
    (found : whole ⟨first :: others, line⟩ = .ok (read, after)) : isDigit first = true := by
  by_cases zero : first = '0'
  · subst zero
    decide
  · rw [whole_of_ne others line zero, digits] at found
    cases digit : isDigit first with
    | true => rfl
    | false => simp [digit] at found

theorem begins_of_read {text : List Char} {line : Nat} {token : NumberToken} {after : Place}
    (found : read ⟨text, line⟩ = .ok (token, after)) :
    ∃ first others, text = first :: others ∧ (first = '-' ∨ isDigit first = true) := by
  obtain ⟨⟨parts, place⟩, found, -⟩ := Except.map_eq_ok_iff.1 found
  cases text with
  | nil => cases found
  | cons first others =>
      refine ⟨first, others, rfl, ?_⟩
      by_cases minus : first = '-'
      · exact .inl minus
      · rw [parts_of_ne minus] at found
        obtain ⟨⟨digits, rest⟩, found, -⟩ := Except.bind_eq_ok_iff.1 found
        exact .inr (isDigit_of_whole found)

theorem isAhead_of_read {text : List Char} {first : Nat} {token : NumberToken} {after : Place}
    (found : read ⟨text, first⟩ = .ok (token, after)) (rest : List Char) (line : Nat) :
    isAhead ⟨text ++ rest, line⟩ = true := by
  obtain ⟨head, others, rfl, begins⟩ := begins_of_read found
  rcases begins with rfl | digit
  · rfl
  · simp [isAhead, digit]

theorem ne_of_begins {first char : Char} (begins : first = '-' ∨ isDigit first = true)
    (plain : (char == '-' || isDigit char) = false) : first ≠ char := by
  rintro rfl
  rcases begins with rfl | digit
  · simp at plain
  · simp [digit] at plain

theorem ends_nil : Ends [] := by
  simp [Ends]

theorem ends_cons {first : Char} (rest : List Char) (plain : isDigit first = false)
    (other : first ≠ '.' ∧ first ≠ 'e' ∧ first ≠ 'E') : Ends (first :: rest) := by
  intro char isFirst
  cases Option.mem_some.1 isFirst
  exact ⟨plain, other⟩

theorem ends_blanks {blanks : List Char}
    (blank : ∀ char ∈ blanks, Place.isSpace char = true) {rest : List Char} (ends : Ends rest) :
    Ends (blanks ++ rest) := by
  cases blanks with
  | nil => exact ends
  | cons first others =>
      have isBlank := blank first (by simp)
      simp only [Place.isSpace, Bool.or_eq_true, beq_iff_eq] at isBlank
      rcases isBlank with ((rfl | rfl) | rfl) | rfl
      · exact ends_cons _ (by decide) (by decide)
      · exact ends_cons _ (by decide) (by decide)
      · exact ends_cons _ (by decide) (by decide)
      · exact ends_cons _ (by decide) (by decide)

end NumberToken

namespace Document

theorem nextItem_closing {blanks : List Char}
    (blank : ∀ char ∈ blanks, Place.isSpace char = true) {closing : Char}
    (solid : Place.isSpace closing = false) (first : Bool) (rest : List Char) (line : Nat) :
    nextItem closing first ⟨blanks ++ closing :: rest, line⟩ = .ok none := by
  obtain ⟨reached, skipped⟩ := Place.skipSpace_blanks blank solid rest line
  simp [nextItem, skipped]

theorem nextItem_part {blanks : List Char}
    (blank : ∀ char ∈ blanks, Place.isSpace char = true) {closing head : Char}
    (comma : closing ≠ ',') (solid : Place.isSpace head = false) (other : head ≠ closing)
    (first : Bool) (rest : List Char) (line : Nat) :
    ∃ reached, nextItem closing first
      ⟨(if first then [] else [',']) ++ blanks ++ head :: rest, line⟩ =
        .ok (some ⟨head :: rest, reached⟩) := by
  cases first with
  | true =>
      obtain ⟨reached, skipped⟩ := Place.skipSpace_blanks blank solid rest line
      exact ⟨reached, by simp [nextItem, skipped, other]⟩
  | false =>
      obtain ⟨reached, skipped⟩ := Place.skipSpace_blanks blank solid rest line
      have start : Place.skipSpace ⟨',' :: (blanks ++ head :: rest), line⟩ =
          ⟨',' :: (blanks ++ head :: rest), line⟩ :=
        Place.skipSpace_solid (by decide) _ _
      have next : Place.next ⟨',' :: (blanks ++ head :: rest), line⟩ =
          ⟨blanks ++ head :: rest, line⟩ := rfl
      exact ⟨reached, by simp [nextItem, start, next, skipped, other, comma.symm]⟩

theorem value_blanks {blanks : List Char}
    (blank : ∀ char ∈ blanks, Place.isSpace char = true) {first : Char}
    (solid : Place.isSpace first = false) (fuel : Nat) (rest : List Char) (line : Nat) :
    ∃ reached, value (fuel + 1) ⟨blanks ++ first :: rest, line⟩ =
      value (fuel + 1) ⟨first :: rest, reached⟩ := by
  obtain ⟨reached, skipped⟩ := Place.skipSpace_blanks blank solid rest line
  refine ⟨reached, ?_⟩
  simp only [value, skipped, Place.skipSpace_solid solid]

theorem value_of_simple {first : Char} (solid : Place.isSpace first = false) {rest : List Char}
    {line : Nat} {scanned : Scanned Node} (found : simple? ⟨first :: rest, line⟩ = some scanned)
    (fuel : Nat) : value (fuel + 1) ⟨first :: rest, line⟩ = scanned := by
  simp only [value, Place.skipSpace_solid solid, found]

theorem simple?_number {text : List Char} {token : NumberToken} {first : Nat} {after : Place}
    (found : NumberToken.read ⟨text, first⟩ = .ok (token, after)) (line : Nat) {rest : List Char}
    (same : NumberToken.read ⟨text ++ rest, line⟩ = .ok (token, ⟨rest, line⟩)) :
    simple? ⟨text ++ rest, line⟩ = some (.number token line, some ⟨rest, line⟩) := by
  have ahead := NumberToken.isAhead_of_read found rest line
  obtain ⟨head, others, rfl, begins⟩ := NumberToken.begins_of_read found
  unfold simple?
  split
  · rename_i none
    cases none
  · rename_i word
    exact absurd (List.cons.inj word).1 (NumberToken.ne_of_begins begins (by decide))
  · rename_i word
    exact absurd (List.cons.inj word).1 (NumberToken.ne_of_begins begins (by decide))
  · rename_i word
    exact absurd (List.cons.inj word).1 (NumberToken.ne_of_begins begins (by decide))
  · rename_i word
    exact absurd (List.cons.inj word).1 (NumberToken.ne_of_begins begins (by decide))
  · simp only [ahead, if_true, same]

end Document

namespace Layout

/-- A part of a document begins with no blank and no closing mark. -/
def Begins (text : List Char) : Prop :=
  ∃ first others, text = first :: others ∧ Place.isSpace first = false ∧ first ≠ ']' ∧
    first ≠ '\x7d'

theorem begins_of_read {text : List Char} {line : Nat} {token : NumberToken} {after : Place}
    (found : NumberToken.read ⟨text, line⟩ = .ok (token, after)) : Begins text := by
  obtain ⟨first, others, rfl, begins⟩ := NumberToken.begins_of_read found
  have other {char : Char} (plain : (char == '-' || NumberToken.isDigit char) = false) :
      first ≠ char := NumberToken.ne_of_begins begins plain
  refine ⟨first, others, rfl, ?_, other (by decide), other (by decide)⟩
  simp only [Place.isSpace, Bool.or_eq_false_iff, beq_eq_false_iff_ne]
  exact ⟨⟨⟨other (by decide), other (by decide)⟩, other (by decide)⟩, other (by decide)⟩

theorem begins_chars (layout : Layout) (depth : Nat) {json : Json} (sound : json.Sound) :
    Begins (layout.chars depth json) := by
  cases json with
  | null => exact ⟨_, _, rfl, by decide⟩
  | bool value => cases value <;> exact ⟨_, _, rfl, by decide⟩
  | int value => exact begins_of_read (NumberToken.read_toString sound.1 sound.2 1)
  | float value => exact begins_of_read sound
  | text value => exact ⟨_, _, rfl, by decide⟩
  | list items => exact ⟨_, _, rfl, by decide⟩
  | record members => exact ⟨_, _, rfl, by decide⟩

theorem named_eq (layout : Layout) (name : String) (value : List Char) :
    layout.named name value =
      '"' :: (Json.quoted name ++ '"' :: ':' :: (layout.gap ++ value)) := rfl

/-- The name of a member is read, up to its colon. -/
theorem read_named (layout : Layout) (name : String) (value after : List Char) (line : Nat) :
    Place.next ⟨layout.named name value ++ after, line⟩ =
      ⟨Json.quoted name ++ '"' :: ':' :: (layout.gap ++ (value ++ after)), line⟩ ∧
    Quotation.read ⟨Json.quoted name ++ '"' :: ':' :: (layout.gap ++ (value ++ after)), line⟩ =
      (.sound name, some ⟨':' :: (layout.gap ++ (value ++ after)), line⟩) := by
  refine ⟨?_, Quotation.read_quoted name _ line⟩
  simp [named, Place.next, Place.lineAfter]

theorem ends_enclosed (layout : Layout) (depth : Nat) {closing : Char}
    (plain : NumberToken.isDigit closing = false)
    (other : closing ≠ '.' ∧ closing ≠ 'e' ∧ closing ≠ 'E') (parts : List (List Char))
    (rest : List Char) :
    NumberToken.Ends (layout.enclosed depth closing false parts ++ rest) := by
  cases parts with
  | nil =>
      rw [enclosed, if_neg (by decide), List.append_assoc]
      exact NumberToken.ends_blanks (layout.indent_blank depth)
        (NumberToken.ends_cons rest plain other)
  | cons part others =>
      exact NumberToken.ends_cons _ (by decide) (by decide)

end Layout

namespace Document

def Scans (json : Json) (text : List Char) : Prop :=
  ∀ ⦃rest : List Char⦄ ⦃fuel : Nat⦄ (line : Nat), NumberToken.Ends rest →
    2 * (text ++ rest).length ≤ fuel →
      ∃ node reached, value fuel ⟨text ++ rest, line⟩ = (node, some ⟨rest, reached⟩) ∧
        json.Shows node

theorem scans_of_simple {json : Json} {first : Char} {others : List Char}
    (solid : Place.isSpace first = false)
    (simple : ∀ rest line, NumberToken.Ends rest → ∃ node reached,
      simple? ⟨first :: others ++ rest, line⟩ = some (node, some ⟨rest, reached⟩) ∧
        json.Shows node) : Scans json (first :: others) := by
  intro rest fuel line ends enough
  obtain ⟨node, reached, found, shows⟩ := simple rest line ends
  cases fuel with
  | zero => simp at enough
  | succ fuel => exact ⟨node, reached, value_of_simple solid found fuel, shows⟩

theorem scans_number {json : Json} {text : List Char} {token : NumberToken}
    (found : NumberToken.read ⟨text, 1⟩ = .ok (token, ⟨[], 1⟩))
    (shows : ∀ line, json.Shows (.number token line)) : Scans json text := by
  obtain ⟨first, others, rfl, solid, -⟩ := Layout.begins_of_read found
  refine scans_of_simple solid ?_
  intro rest line ends
  exact ⟨_, line, simple?_number found line (NumberToken.read_local ends found), shows line⟩

/-- A part of a list or a record is found where it begins. -/
theorem nextItem_enclosed (layout : Layout) (depth : Nat) {closing : Char}
    (comma : closing ≠ ',') {part : List Char} {head : Char} {others : List Char}
    (begins : part = head :: others) (solid : Place.isSpace head = false)
    (other : head ≠ closing) (parts : List (List Char)) (first : Bool) (rest : List Char)
    (line : Nat) :
    ∃ reached, nextItem closing first
        ⟨layout.enclosed depth closing first (part :: parts) ++ rest, line⟩ =
      .ok (some ⟨part ++ (layout.enclosed depth closing false parts ++ rest), reached⟩) := by
  subst begins
  obtain ⟨reached, next⟩ := nextItem_part (layout.indent_blank (depth + 1)) comma solid other
    first (others ++ (layout.enclosed depth closing false parts ++ rest)) line
  refine ⟨reached, ?_⟩
  rw [List.cons_append, ← next]
  simp [Layout.enclosed]

/-- The closing mark of a list or a record is found behind its blanks. -/
theorem nextItem_enclosed_nil (layout : Layout) (depth : Nat) {closing : Char}
    (solid : Place.isSpace closing = false) (first : Bool) (rest : List Char) (line : Nat) :
    ∃ reached, nextItem closing first ⟨layout.enclosed depth closing first [] ++ rest, line⟩ =
        .ok none ∧
      (Place.skipSpace ⟨layout.enclosed depth closing first [] ++ rest, line⟩).next =
        ⟨rest, reached⟩ := by
  have blank : ∀ char ∈ (if first then [] else layout.indent depth),
      Place.isSpace char = true := by
    cases first with
    | true => simp
    | false => exact layout.indent_blank depth
  obtain ⟨reached, skipped⟩ := Place.skipSpace_blanks blank solid rest line
  rw [Layout.enclosed, List.append_assoc, List.singleton_append, skipped]
  exact ⟨_, nextItem_closing blank solid first rest line, rfl⟩

theorem enough_enclosed (layout : Layout) (depth : Nat) (closing : Char) {part : List Char}
    {head : Char} {others : List Char} (begins : part = head :: others)
    (parts : List (List Char)) {first : Bool} {rest : List Char} {fuel : Nat}
    (enough : 2 * (layout.enclosed depth closing first (part :: parts) ++ rest).length + 1 ≤
      fuel + 1) :
    2 * (part ++ (layout.enclosed depth closing false parts ++ rest)).length ≤ fuel ∧
      2 * (layout.enclosed depth closing false parts ++ rest).length + 1 ≤ fuel := by
  subst begins
  simp only [Layout.enclosed, List.length_append, List.length_cons] at enough ⊢
  omega

theorem items_enclosed (layout : Layout) (depth : Nat) {items : List Json}
    (sound : Json.SoundAll items)
    (scans : ∀ item ∈ items, Scans item (layout.chars (depth + 1) item)) {rest : List Char}
    {first : Bool} {fuel : Nat} (line : Nat) (enough :
      2 * (layout.enclosed depth ']' first (layout.charsAll (depth + 1) items) ++
        rest).length + 1 ≤ fuel) :
    ∃ nodes reached, Document.items fuel first
        ⟨layout.enclosed depth ']' first (layout.charsAll (depth + 1) items) ++ rest, line⟩ =
      (nodes, some ⟨rest, reached⟩) ∧ Json.ShowsAll items nodes := by
  induction items generalizing first fuel line with
  | nil =>
      obtain ⟨fuel, rfl⟩ : ∃ less, fuel = less + 1 := ⟨fuel - 1, by omega⟩
      obtain ⟨reached, closes, next⟩ :=
        nextItem_enclosed_nil layout depth (by decide : Place.isSpace ']' = false) first rest line
      refine ⟨[], reached, ?_, .nil⟩
      simp only [Document.items, Layout.charsAll, closes, next]
  | cons item others induction =>
      obtain ⟨fuel, rfl⟩ : ∃ less, fuel = less + 1 := ⟨fuel - 1, by omega⟩
      obtain ⟨soundItem, soundOthers⟩ := sound
      obtain ⟨scansItem, scansOthers⟩ := List.forall_mem_cons.1 scans
      obtain ⟨head, tail, begins, solid, other, -⟩ := layout.begins_chars (depth + 1) soundItem
      obtain ⟨enoughItem, enoughOthers⟩ := enough_enclosed layout depth ']' begins _ enough
      obtain ⟨start, next⟩ := nextItem_enclosed layout depth (by decide : ']' ≠ ',') begins
        solid other (layout.charsAll (depth + 1) others) first rest line
      obtain ⟨node, middle, found, shows⟩ := scansItem start
        (layout.ends_enclosed depth (by decide) (by decide) _ rest) enoughItem
      obtain ⟨nodes, reached, later, showsAll⟩ :=
        induction soundOthers scansOthers middle enoughOthers
      refine ⟨node :: nodes, reached, ?_, .cons shows showsAll⟩
      simp only [Document.items, Layout.charsAll, next, found, later]

/-- The value of a member, behind the blanks after its colon. -/
theorem value_gap (layout : Layout) (depth : Nat) {json : Json} (sound : json.Sound)
    (scans : Scans json (layout.chars depth json)) {rest : List Char} {fuel : Nat} (line : Nat)
    (ends : NumberToken.Ends rest) (enough : 2 * (layout.chars depth json ++ rest).length ≤ fuel) :
    ∃ node reached, value fuel ⟨layout.gap ++ (layout.chars depth json ++ rest), line⟩ =
      (node, some ⟨rest, reached⟩) ∧ json.Shows node := by
  obtain ⟨head, tail, begins, solid, -⟩ := layout.begins_chars depth sound
  have positive : (layout.chars depth json ++ rest).length > 0 := by simp [begins]
  obtain ⟨fuel, rfl⟩ : ∃ less, fuel = less + 1 := ⟨fuel - 1, by omega⟩
  rw [begins] at scans enough ⊢
  obtain ⟨start, same⟩ := value_blanks layout.gap_blank solid fuel (tail ++ rest) line
  obtain ⟨node, reached, found, shows⟩ := scans start ends enough
  exact ⟨node, reached, same.trans found, shows⟩

/-- One member is read by its name and its value, and the others after them. -/
theorem members_named (layout : Layout) (name : String) {part after : List Char} {first : Bool}
    {fuel start : Nat} {place behind : Place} {node : Node}
    (next : nextItem '\x7d' first place = .ok (some ⟨layout.named name part ++ after, start⟩))
    (found : value fuel ⟨layout.gap ++ (part ++ after), start⟩ = (node, some behind)) :
    Document.members (fuel + 1) first place =
      (.entry ⟨Json.quoted name ++ '"' :: ':' :: (layout.gap ++ (part ++ after)), start⟩
          (.sound name) node :: (Document.members fuel false behind).1,
        (Document.members fuel false behind).2) := by
  obtain ⟨opens, reads⟩ := layout.read_named name part after start
  have quote : (layout.named name part ++ after).head? = some '"' := rfl
  have colon (text : List Char) : Place.next ⟨':' :: text, start⟩ = ⟨text, start⟩ := rfl
  have solid (text : List Char) : Place.skipSpace ⟨':' :: text, start⟩ = ⟨':' :: text, start⟩ :=
    Place.skipSpace_solid (by decide) text start
  simp only [Document.members, next, quote, if_true, opens, reads, solid, List.head?_cons, colon,
    found]

theorem members_enclosed (layout : Layout) (depth : Nat) {members : List (String × Json)}
    (sound : Json.SoundMembers members)
    (scans : ∀ member ∈ members, Scans member.2 (layout.chars (depth + 1) member.2))
    {rest : List Char} {first : Bool} {fuel : Nat} (line : Nat) (enough :
      2 * (layout.enclosed depth '\x7d' first (layout.charsMembers (depth + 1) members) ++
        rest).length + 1 ≤ fuel) :
    ∃ entries reached, Document.members fuel first
        ⟨layout.enclosed depth '\x7d' first (layout.charsMembers (depth + 1) members) ++ rest,
          line⟩ =
      (entries, some ⟨rest, reached⟩) ∧ Json.ShowsMembers members entries := by
  induction members generalizing first fuel line with
  | nil =>
      obtain ⟨fuel, rfl⟩ : ∃ less, fuel = less + 1 := ⟨fuel - 1, by omega⟩
      obtain ⟨reached, closes, next⟩ := nextItem_enclosed_nil layout depth
        (by decide : Place.isSpace '\x7d' = false) first rest line
      refine ⟨[], reached, ?_, .nil⟩
      simp only [Document.members, Layout.charsMembers, closes, next]
  | cons member others induction =>
      obtain ⟨name, value⟩ := member
      obtain ⟨fuel, rfl⟩ : ∃ less, fuel = less + 1 := ⟨fuel - 1, by omega⟩
      obtain ⟨soundValue, soundOthers⟩ := sound
      obtain ⟨scansValue, scansOthers⟩ := List.forall_mem_cons.1 scans
      obtain ⟨enoughMember, enoughOthers⟩ := enough_enclosed layout depth '\x7d' rfl _ enough
      have begins := layout.named_eq name (layout.chars (depth + 1) value)
      obtain ⟨start, next⟩ := nextItem_enclosed layout depth (by decide : '\x7d' ≠ ',') begins
        (by decide) (by decide) (layout.charsMembers (depth + 1) others) first rest line
      have ends := layout.ends_enclosed depth (by decide : NumberToken.isDigit '\x7d' = false)
        (by decide) (layout.charsMembers (depth + 1) others) rest
      have enoughValue : 2 * (layout.chars (depth + 1) value ++
          (layout.enclosed depth '\x7d' false (layout.charsMembers (depth + 1) others) ++
            rest)).length ≤ fuel := by
        simp only [List.length_append, List.length_cons] at enoughMember ⊢
        omega
      obtain ⟨node, middle, found, shows⟩ :=
        value_gap layout (depth + 1) soundValue scansValue start ends enoughValue
      obtain ⟨entries, reached, later, showsOthers⟩ :=
        induction soundOthers scansOthers middle enoughOthers
      have whole := members_named layout name next found
      rw [later] at whole
      exact ⟨_, reached, whole, .cons name shows showsOthers _ start⟩

theorem scans_list (layout : Layout) (depth : Nat) {items : List Json}
    (sound : Json.SoundAll items)
    (scans : ∀ item ∈ items, Scans item (layout.chars (depth + 1) item)) :
    Scans (.list items) (layout.chars depth (.list items)) := by
  intro rest fuel line ends enough
  simp only [Layout.chars, List.cons_append, List.length_cons] at enough ⊢
  obtain ⟨fuel, rfl⟩ : ∃ less, fuel = less + 1 := ⟨fuel - 1, by omega⟩
  have enoughItems : 2 * (layout.enclosed depth ']' true
      (layout.charsAll (depth + 1) items) ++ rest).length + 1 ≤ fuel := by omega
  obtain ⟨nodes, reached, found, shows⟩ :=
    items_enclosed layout depth sound scans line enoughItems
  have solid (text : List Char) : Place.skipSpace ⟨'[' :: text, line⟩ = ⟨'[' :: text, line⟩ :=
    Place.skipSpace_solid (by decide) text line
  have opening (text : List Char) : simple? ⟨'[' :: text, line⟩ = none := rfl
  have next (text : List Char) : Place.next ⟨'[' :: text, line⟩ = ⟨text, line⟩ := rfl
  refine ⟨.list line nodes, reached, ?_, .list line shows⟩
  simp only [value, solid, opening, next, found]

theorem scans_record (layout : Layout) (depth : Nat) {members : List (String × Json)}
    (sound : Json.SoundMembers members)
    (scans : ∀ member ∈ members, Scans member.2 (layout.chars (depth + 1) member.2)) :
    Scans (.record members) (layout.chars depth (.record members)) := by
  intro rest fuel line ends enough
  simp only [Layout.chars, List.cons_append, List.length_cons] at enough ⊢
  obtain ⟨fuel, rfl⟩ : ∃ less, fuel = less + 1 := ⟨fuel - 1, by omega⟩
  have enoughMembers : 2 * (layout.enclosed depth '\x7d' true
      (layout.charsMembers (depth + 1) members) ++ rest).length + 1 ≤ fuel := by omega
  obtain ⟨entries, reached, found, shows⟩ :=
    members_enclosed layout depth sound scans line enoughMembers
  have solid (text : List Char) :
      Place.skipSpace ⟨'\x7b' :: text, line⟩ = ⟨'\x7b' :: text, line⟩ :=
    Place.skipSpace_solid (by decide) text line
  have opening (text : List Char) : simple? ⟨'\x7b' :: text, line⟩ = none := rfl
  have next (text : List Char) : Place.next ⟨'\x7b' :: text, line⟩ = ⟨text, line⟩ := rfl
  refine ⟨.record line entries, reached, ?_, .record line shows⟩
  simp only [value, solid, opening, next, found]

theorem scans_text (value : String) : Scans (.text value) ('"' :: Json.quoted value ++ ['"']) := by
  rw [List.cons_append]
  refine scans_of_simple (by decide) fun rest line _ => ⟨_, line, ?_, .text value⟩
  have next (text : List Char) : Place.next ⟨'"' :: text, line⟩ = ⟨text, line⟩ := rfl
  have read : Quotation.read ⟨Json.quoted value ++ '"' :: rest, line⟩ =
      (.sound value, some ⟨rest, line⟩) := Quotation.read_quoted value rest line
  rw [List.cons_append, List.append_assoc, List.singleton_append]
  simp only [simple?, next, read]

mutual

theorem scans_chars (layout : Layout) (depth : Nat) : (json : Json) → json.Sound →
    Scans json (layout.chars depth json)
  | .null, _ =>
      scans_of_simple (by decide) fun rest line _ => ⟨.null, line, rfl, .null⟩
  | .bool true, _ =>
      scans_of_simple (by decide) fun rest line _ => ⟨.bool true, line, rfl, .bool true⟩
  | .bool false, _ =>
      scans_of_simple (by decide) fun rest line _ => ⟨.bool false, line, rfl, .bool false⟩
  | .int value, sound =>
      scans_number (NumberToken.read_toString sound.1 sound.2 1) fun line => .int value line
  | .float value, sound => scans_number sound fun line => .float value line
  | .text value, _ => scans_text value
  | .list items, sound =>
      scans_list layout depth sound (scans_charsAll layout (depth + 1) items sound)
  | .record members, sound =>
      scans_record layout depth sound (scans_charsMembers layout (depth + 1) members sound)

theorem scans_charsAll (layout : Layout) (depth : Nat) : (items : List Json) →
    Json.SoundAll items → ∀ item ∈ items, Scans item (layout.chars depth item)
  | [], _ => by simp
  | item :: rest, sound => List.forall_mem_cons.2
      ⟨scans_chars layout depth item sound.1, scans_charsAll layout depth rest sound.2⟩

theorem scans_charsMembers (layout : Layout) (depth : Nat) : (members : List (String × Json)) →
    Json.SoundMembers members → ∀ member ∈ members, Scans member.2 (layout.chars depth member.2)
  | [], _ => by simp
  | (_, value) :: rest, sound => List.forall_mem_cons.2
      ⟨scans_chars layout depth value sound.1, scans_charsMembers layout depth rest sound.2⟩

end

/-- A document that is written in a layout shows its value, and nothing follows it. -/
theorem scan_chars (layout : Layout) {json : Json} (sound : json.Sound) {text : String}
    (written : text.toList = layout.chars 0 json) :
    ∃ node reached, scan text = (node, some ⟨[], reached⟩) ∧ json.Shows node := by
  have scans := scans_chars layout 0 json sound
  rw [← written] at scans
  obtain ⟨node, reached, found, shows⟩ := scans 1 NumberToken.ends_nil
    (by simp : 2 * (text.toList ++ []).length ≤ 2 * text.toList.length + 2)
  rw [List.append_nil] at found
  exact ⟨node, reached, found, shows⟩

end Document

end ObjectQuery
