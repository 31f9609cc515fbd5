import Mathlib.Data.List.TakeWhile
import ObjectQuery.Lexical.Quoted
import ObjectQuery.Proofs.Step

namespace ObjectQuery

/-!
Texts without comments and without names in double quotes. What stands in single
quotes is no part of either.
-/

/-- The character is no blank and begins none. -/
def isSolid (char : Char) : Bool :=
  !isWhiteSpace char && char != '-' && char != '/'

theorem isSolid_iff {char : Char} :
    isSolid char = true ↔ isWhiteSpace char = false ∧ char ≠ '-' ∧ char ≠ '/' := by
  simp [isSolid, and_assoc]

theorem blankLength_solid {char : Char} (solid : isSolid char = true) (rest : List Char) :
    blankLength (char :: rest) = .ok 0 := by
  obtain ⟨solid, minus, slash⟩ := isSolid_iff.1 solid
  rw [blankLength.eq_def]
  split <;> simp_all

theorem blankLength_space {rest : List Char} (solid : blankLength rest = .ok 0) :
    blankLength (' ' :: rest) = .ok 1 := by
  have blank : isWhiteSpace ' ' = true := by decide
  rw [blankLength.eq_def]
  simp [blank, solid, Blank.shift]

namespace Plain

def opensComment (chars : List Char) : Bool :=
  "--".toList.isPrefixOf chars || "/*".toList.isPrefixOf chars

/-- Whether a text that begins inside or outside of single quotes is plain. -/
def isPlainFrom : Bool → List Char → Bool
  | _, [] => true
  | true, '\\' :: _ :: rest => isPlainFrom true rest
  | true, char :: rest => isPlainFrom (char != '\'') rest
  | false, char :: rest =>
      char != '"' && !opensComment (char :: rest) && isPlainFrom (char == '\'') rest

end Plain

/-- Whether a text holds neither a comment nor a double quote outside of single quotes. -/
def isPlain (chars : List Char) : Bool :=
  Plain.isPlainFrom false chars

namespace Plain

variable {char : Char} {text rest : List Char}

theorem isPlain_cons (plain : isPlain (char :: rest) = true) :
    char ≠ '"' ∧ opensComment (char :: rest) = false ∧
      isPlainFrom (char == '\'') rest = true := by
  simpa [isPlain, isPlainFrom, and_assoc] using plain

theorem isPlain_of_cons (plain : isPlain (char :: rest) = true) (unquoted : char ≠ '\'') :
    isPlain rest = true := by
  have later := (isPlain_cons plain).2.2
  rwa [beq_eq_false_iff_ne.2 unquoted] at later

theorem isPlain_of_append (plain : isPlain (text ++ rest) = true) (unquoted : '\'' ∉ text) :
    isPlain rest = true := by
  induction text with
  | nil => exact plain
  | cons char others induction =>
      obtain ⟨first, later⟩ := not_or.1 (mt List.mem_cons.2 unquoted)
      exact induction (isPlain_of_cons plain (Ne.symm first)) later

theorem isPlain_drop {count : Nat} (plain : isPlain text = true)
    (unquoted : '\'' ∉ text.take count) : isPlain (text.drop count) = true := by
  rw [← List.take_append_drop count text] at plain
  exact isPlain_of_append plain unquoted

theorem quote_not_mem {text : List Char} {test : Char → Bool} (holds : ∀ char ∈ text, test char)
    (excludes : test '\'' = false) : '\'' ∉ text :=
  fun member => by simp [holds _ member] at excludes

theorem quote_not_mem_take_add {first second : Nat} (before : '\'' ∉ text.take first)
    (after : '\'' ∉ (text.drop first).take second) : '\'' ∉ text.take (first + second) := by
  rw [List.take_add, List.mem_append, not_or]
  exact ⟨before, after⟩

theorem quote_not_mem_take_takeWhile {test : Char → Bool} (excludes : test '\'' = false)
    (text : List Char) : '\'' ∉ text.take (text.takeWhile test).length := by
  rw [← List.prefix_iff_eq_take.1 (List.takeWhile_prefix _)]
  exact quote_not_mem (fun _ => List.mem_takeWhile_imp) excludes

/-- Without comments, blanks are white space. -/
theorem exists_blanks {count : Nat} (plain : isPlain text = true)
    (blank : blankLength text = .ok count) :
    ∃ blanks rest, text = blanks ++ rest ∧ blanks.length = count ∧
      (∀ char ∈ blanks, isWhiteSpace char = true) ∧ isPlain rest = true := by
  induction text generalizing count with
  | nil =>
      rw [blankLength.eq_def] at blank
      cases blank
      exact ⟨[], [], rfl, rfl, by simp, plain⟩
  | cons char rest induction =>
      have bare := (isPlain_cons plain).2.1
      rw [blankLength.eq_def] at blank
      split at blank
      · contradiction
      · simp_all [opensComment]
      · simp_all [opensComment]
      · rename_i first others _ _ same
        obtain ⟨rfl, rfl⟩ := List.cons.inj same
        split at blank
        · rename_i white
          cases counted : blankLength rest with
          | error start => simp [counted, Blank.shift] at blank
          | ok length =>
              have unquoted : char ≠ '\'' := by
                rintro rfl
                exact absurd white (by decide)
              obtain ⟨blanks, after, rfl, rfl, whites, plain⟩ :=
                induction (isPlain_of_cons plain unquoted) counted
              rw [counted] at blank
              cases blank
              refine ⟨char :: blanks, after, rfl, ?_, ?_, plain⟩
              · rw [List.length_cons, Nat.add_comm]
              · exact List.forall_mem_cons.2 ⟨white, whites⟩
        · cases blank
          exact ⟨[], char :: rest, rfl, rfl, by simp, plain⟩

end Plain

namespace Quoted

open Plain

/-- The characters go on with a text in single quotes. -/
def GoesOn (chars : List Char) : Prop :=
  ∀ char ∈ chars, char ≠ '\'' ∧ char ≠ '\\'

theorem isPlainFrom_append {text rest : List Char} (goesOn : GoesOn text) :
    isPlainFrom true (text ++ rest) = isPlainFrom true rest := by
  induction text with
  | nil => rfl
  | cons char others induction =>
      obtain ⟨⟨quote, backslash⟩, later⟩ := List.forall_mem_cons.1 goesOn
      rw [← induction later, List.cons_append, isPlainFrom.eq_def]
      simp [backslash, bne_iff_ne.2 quote]

theorem goesOn_of_isOf {base : Nat} {digits : List Char}
    (spelled : ∀ char ∈ digits, Digit.isOf base char = true) : GoesOn digits := by
  have quote : Digit.value? '\'' = none := by decide
  have backslash : Digit.value? '\\' = none := by decide
  intro char member
  have digit := spelled char member
  constructor
  · rintro rfl
    simp [Digit.isOf, quote] at digit
  · rintro rfl
    simp [Digit.isOf, backslash] at digit

theorem exists_of_codePoint {least most base length : Nat} {chars : List Char} {value : Char}
    (found : codePoint least most base chars = .ok (value, length)) :
    ∃ digits rest, chars = digits ++ rest ∧ digits.length = length ∧ GoesOn digits ∧
      least ≤ length := by
  simp only [codePoint] at found
  split at found
  · cases found
  · rename_i enough
    split at found
    · cases found
      have prefixed := (List.takeWhile_prefix (Digit.isOf base)).trans (List.take_prefix most chars)
      obtain ⟨rest, split⟩ := prefixed
      exact ⟨_, rest, split.symm, rfl, goesOn_of_isOf fun char => List.mem_takeWhile_imp,
        Nat.le_of_not_lt enough⟩
    · cases found

theorem exists_of_bracedEscape {chars value : List Char} {length : Nat}
    (found : bracedEscape chars = .ok (value, length)) :
    ∃ more after, chars = more ++ after ∧ more.length = length ∧ GoesOn more := by
  unfold bracedEscape at found
  split at found
  · rename_i char count code
    obtain ⟨digits, rest, rfl, rfl, goesOn, _⟩ := exists_of_codePoint code
    rw [List.drop_left] at found
    split at found
    · rename_i closed
      cases found
      obtain ⟨after, rfl⟩ := List.head?_eq_some_iff.1 closed
      refine ⟨digits ++ ['\x7d'], after, by simp, by simp, ?_⟩
      exact List.forall_mem_append.2 ⟨goesOn, by simp⟩
    · cases found
  · cases found

theorem exists_of_fixedEscape {count base length : Nat} {chars value : List Char}
    (found : fixedEscape count base chars = .ok (value, length)) :
    ∃ more after, chars = more ++ after ∧ more.length = length ∧ GoesOn more ∧
      count ≤ length := by
  obtain ⟨⟨char, taken⟩, code, same⟩ := Except.map_eq_ok_iff.1 found
  cases same
  exact exists_of_codePoint code

theorem exists_of_shift {reading : Reading (List Char)} {count length : Nat} {value : List Char}
    (found : reading.shift count = .ok (value, length)) :
    ∃ taken, reading = .ok (value, taken) ∧ length = count + taken := by
  cases reading with
  | error fault => cases found
  | ok result =>
      cases found
      exact ⟨_, rfl, rfl⟩

/-- What an escape reads after its first character goes on with the text. -/
theorem exists_of_escape {char : Char} {rest value : List Char} {length : Nat}
    (found : escape (char :: rest) = .ok (value, length)) :
    ∃ more after, rest = more ++ after ∧ length = more.length + 1 ∧ GoesOn more := by
  simp only [escape] at found
  split at found
  · cases found
    exact ⟨[], rest, rfl, rfl, fun _ member => absurd member List.not_mem_nil⟩
  · split at found
    · split at found
      · obtain ⟨taken, read, rfl⟩ := exists_of_shift found
        obtain ⟨more, after, rfl, rfl, goesOn⟩ := exists_of_bracedEscape read
        refine ⟨'\x7b' :: more, after, rfl, ?_, List.forall_mem_cons.2 ⟨by simp, goesOn⟩⟩
        rw [List.length_cons]
        omega
      · obtain ⟨taken, read, rfl⟩ := exists_of_shift found
        obtain ⟨more, after, rfl, rfl, goesOn, _⟩ := exists_of_fixedEscape read
        exact ⟨more, after, rfl, Nat.add_comm _ _, goesOn⟩
    · split at found
      · obtain ⟨taken, read, rfl⟩ := exists_of_shift found
        obtain ⟨more, after, rfl, rfl, goesOn, _⟩ := exists_of_fixedEscape read
        exact ⟨more, after, rfl, Nat.add_comm _ _, goesOn⟩
      · split at found
        · obtain ⟨digits, after, same, rfl, goesOn, enough⟩ := exists_of_fixedEscape found
          cases digits with
          | nil => cases enough
          | cons first more =>
              obtain ⟨rfl, rfl⟩ := List.cons.inj same
              exact ⟨more, after, rfl, rfl, (List.forall_mem_cons.1 goesOn).2⟩
        · cases found

theorem exists_of_prepend {unit value : List Char} {count length : Nat}
    {reading : Reading (List Char)} (found : prepend unit count reading = .ok (value, length)) :
    ∃ others taken, reading = .ok (others, taken) ∧ length = count + taken ∧
      value = unit ++ others := by
  cases reading with
  | error fault => cases found
  | ok result =>
      cases found
      exact ⟨_, _, rfl, rfl, rfl⟩

/-- What follows a text in single quotes is plain where the text is. -/
theorem isPlain_drop_body {chars value : List Char} {length : Nat}
    (found : body .value chars = .ok (value, length)) (plain : isPlainFrom true chars = true) :
    isPlain (chars.drop length) = true := by
  induction size : chars.length using Nat.strongRecOn generalizing chars value length with
  | ind bound induction =>
      subst size
      cases chars with
      | nil =>
          rw [List.drop_nil]
          rfl
      | cons char rest =>
          rw [body] at found
          split at found
          · rename_i quote
            have quote : char = '\'' := quote
            subst quote
            cases found
            exact plain
          · rename_i unclosed
            have inside : char ≠ '\'' := unclosed
            split at found
            · rename_i backslash
              subst backslash
              split at found
              · rename_i unit taken escaped
                obtain ⟨others, later, read, rfl, _⟩ := exists_of_prepend found
                cases rest with
                | nil => cases escaped
                | cons first rest =>
                    obtain ⟨more, after, rfl, rfl, goesOn⟩ := exists_of_escape escaped
                    rw [isPlainFrom, isPlainFrom_append goesOn] at plain
                    have dropped : (first :: (more ++ after)).drop (more.length + 1) = after := by
                      rw [List.drop_succ_cons, List.drop_left]
                    rw [dropped] at read
                    have kept := induction after.length (by simp; omega) read plain rfl
                    have shape : ('\\' :: first :: (more ++ after)).drop
                        (more.length + 1 + 1 + later) = after.drop later := by
                      rw [← List.drop_drop, List.drop_succ_cons, dropped]
                    rwa [shape]
              · cases found
            · rename_i plainly
              rw [if_neg (by simp [Style.value])] at found
              obtain ⟨others, later, read, rfl, _⟩ := exists_of_prepend found
              have goesOn : isPlainFrom true rest = true := by
                have goesOn : GoesOn [char] := by simpa [GoesOn] using ⟨inside, plainly⟩
                rw [← isPlainFrom_append goesOn]
                exact plain
              rw [Nat.add_comm 1, List.drop_succ_cons]
              exact induction rest.length (by simp) read goesOn rfl

end Quoted

/-- What follows a value in single quotes is plain where it is. -/
theorem isPlain_drop_quoted {chars : List Char} {text : String} {length : Nat}
    (found : quoted .value chars = .found text length) (plain : isPlain chars = true) :
    isPlain (chars.drop length) = true := by
  unfold quoted at found
  split at found
  · cases found
  · split at found
    · rename_i char rest quote
      have quote : char = '\'' := quote
      subst quote
      split at found
      · rename_i value count read
        cases found
        rw [List.drop_succ_cons]
        exact Quoted.isPlain_drop_body read (Plain.isPlain_cons plain).2.2
      · cases found
    · cases found

end ObjectQuery
