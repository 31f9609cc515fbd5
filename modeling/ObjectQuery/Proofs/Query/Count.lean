import Mathlib.Data.List.Basic
import ObjectQuery.Resolution.Grouping
import ObjectQuery.Text.LowerCase

namespace ObjectQuery

/-!
Lower case of texts of ASCII, and of the names of the functions that count. No
other letter turns into one of theirs.
-/

def isAscii (char : Char) : Bool :=
  char.toNat < 128

/-- What holds of every character of ASCII is decided on its codes. -/
theorem forall_ascii (test : Char → Bool) (all : (List.range 128).all (test ∘ Char.ofNat))
    {char : Char} (ascii : isAscii char = true) : test char = true := by
  have checked := List.all_eq_true.1 all char.toNat (List.mem_range.2 (of_decide_eq_true ascii))
  simpa [Char.ofNat_toNat] using checked

theorem toLower_toLower {char : Char} (ascii : isAscii char = true) :
    char.toLower.toLower = char.toLower :=
  eq_of_beq (forall_ascii (fun char => char.toLower.toLower == char.toLower) (by decide +kernel) ascii)

theorem toLower_of_beyond {char : Char} (beyond : isAscii char = false) : char.toLower = char := by
  unfold Char.toLower
  split
  · rename_i capital
    simp [isAscii, UInt32.le_iff_toNat_le] at beyond capital
    have code : char.val.toNat = char.toNat := rfl
    omega
  · rfl

/-- Beyond ASCII, a letter turns into others there, or it is the sign for kelvin. -/
theorem beyond_lowerRuns : ∀ run ∈ LetterCase.lowerRuns,
    (128 : Int) ≤ run.first + run.shift ∨ run.last ≤ run.first ∧ run.first + run.shift = 0x6B := by
  decide +kernel

theorem exists_mem_image {code : Nat} (beyond : 128 ≤ code) :
    ∃ other ∈ LetterCase.image LetterCase.lowerRuns LetterCase.lowerExpansions code,
      128 ≤ other ∨ other = 0x6B := by
  unfold LetterCase.image
  split
  · rename_i codes found
    simp only [LetterCase.lowerExpansions, List.lookup_cons, List.lookup_nil] at found
    split at found
    · cases found
      exact ⟨0x307, by decide⟩
    · cases found
  · refine ⟨_, List.mem_singleton_self _, ?_⟩
    cases found : LetterCase.lowerRuns.findSome? (·.image? code) with
    | none => exact .inl beyond
    | some image =>
        obtain ⟨run, member, runs⟩ := List.exists_of_findSome?_eq_some found
        have moved := beyond_lowerRuns run member
        unfold CaseRun.image? at runs
        split at runs
        · rename_i inside
          cases runs
          simp only [Bool.and_eq_true, decide_eq_true_eq] at inside
          simp only [Option.getD_some]
          omega
        · cases runs

/-- The letters of the names of functions that count. -/
def countLetters : List Char :=
  "count_distinct".toList

theorem ascii_of_mem_countLetters {char : Char} (member : char ∈ countLetters) :
    isAscii char = true :=
  List.all_eq_true.1 (by decide : countLetters.all isAscii = true) char member

theorem toLower_ofNat_not_mem {code : Nat} (beyond : 128 ≤ code ∨ code = 0x6B) :
    (Char.ofNat code).toLower ∉ countLetters := by
  rcases beyond with beyond | rfl
  · by_cases valid : code.isValidChar
    · have same : (Char.ofNat code).toNat = code := by
        rw [Char.ofNat, dif_pos valid]
        rfl
      have other : isAscii (Char.ofNat code) = false := by simpa [isAscii, same] using beyond
      rw [toLower_of_beyond other]
      intro member
      rw [ascii_of_mem_countLetters member] at other
      cases other
    · rw [Char.ofNat, dif_neg valid]
      decide
  · decide

theorem exists_mem_lowerChar {char : Char} (beyond : isAscii char = false) :
    ∃ other ∈ lowerChar char, other.toLower ∉ countLetters := by
  have code : 128 ≤ char.toNat := by simpa [isAscii] using beyond
  obtain ⟨other, member, strange⟩ := exists_mem_image code
  rw [lowerChar, if_neg (by omega)]
  exact ⟨_, List.mem_map_of_mem member, toLower_ofNat_not_mem strange⟩

theorem ascii_of_lowered (before : List Char) {chars : List Char}
    (spelled : ∀ char ∈ lowerCharsAfter before chars, char.toLower ∈ countLetters) :
    ∀ char ∈ chars, isAscii char = true := by
  induction chars generalizing before with
  | nil => simp
  | cons char rest induction =>
      rw [lowerCharsAfter, List.forall_mem_append] at spelled
      refine List.forall_mem_cons.2 ⟨?_, induction _ spelled.2⟩
      by_contra beyond
      obtain ⟨other, member, strange⟩ := exists_mem_lowerChar (Bool.eq_false_iff.2 beyond)
      have first := spelled.1
      split at first
      · split at first
        · exact absurd (first 'ς' (by simp)) (by decide)
        · exact absurd (first 'σ' (by simp)) (by decide)
      · exact strange (first other member)

theorem lowerCharsAfter_of_ascii {chars : List Char} (before : List Char)
    (ascii : ∀ char ∈ chars, isAscii char = true) :
    lowerCharsAfter before chars = chars.map Char.toLower := by
  induction chars generalizing before with
  | nil => rfl
  | cons char rest induction =>
      obtain ⟨first, later⟩ := List.forall_mem_cons.1 ascii
      have noSigma : (char == 'Σ') = false := by
        refine beq_false_of_ne fun same => ?_
        rw [same] at first
        exact absurd first (by decide)
      rw [lowerCharsAfter, induction _ later, noSigma, if_neg Bool.false_ne_true, lowerChar,
        if_pos (of_decide_eq_true first)]
      rfl

theorem toLower_lowerText_eq_iff (word : String)
    (spelled : word.toList.all countLetters.contains = true) (name : String) :
    (lowerText name).toLower = word ↔ name.toLower = word := by
  have letters : ∀ char ∈ word.toList, char ∈ countLetters := by simpa using spelled
  have lowered (text : String) : text.toLower = word ↔ text.toList.map Char.toLower = word.toList := by
    rw [← String.toList_inj]
    change (text.map Char.toLower).toList = word.toList ↔ _
    rw [String.toList_map]
  have ofAscii (ascii : ∀ char ∈ name.toList, isAscii char = true) :
      (lowerText name).toList.map Char.toLower = name.toList.map Char.toLower := by
    rw [lowerText, String.toList_ofList, lowerCharsAfter_of_ascii [] ascii, List.map_map]
    exact List.map_congr_left fun char member => toLower_toLower (ascii char member)
  rw [lowered, lowered]
  constructor
  · intro same
    have ascii := ascii_of_lowered [] fun char (member : char ∈ lowerCharsAfter [] name.toList) => by
      refine letters _ (same ▸ List.mem_map_of_mem ?_)
      rwa [lowerText, String.toList_ofList]
    rw [← same, ofAscii ascii]
  · intro same
    rw [ofAscii fun char member => ?_, same]
    have small := ascii_of_mem_countLetters
      (letters _ (same ▸ List.mem_map_of_mem member : char.toLower ∈ word.toList))
    by_contra beyond
    rw [toLower_of_beyond (Bool.eq_false_iff.2 beyond)] at small
    exact beyond small

namespace Grouping

/-- Whether a function counts does not depend on the letter case of its name. -/
theorem isCount_lowerText (name : String) : isCount (lowerText name) = isCount name := by
  have count := toLower_lowerText_eq_iff "count" (by decide) name
  have countDistinct := toLower_lowerText_eq_iff "count_distinct" (by decide) name
  rw [Bool.eq_iff_iff]
  simp only [isCount, Bool.or_eq_true, beq_iff_eq, count, countDistinct]

end Grouping

end ObjectQuery
