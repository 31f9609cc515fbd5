import Mathlib.Data.List.Nodup
import Mathlib.Data.List.Perm.Subperm
import ObjectQuery.Proofs.Lexical.Digit
import ObjectQuery.Proofs.Numbering.Column
import ObjectQuery.Proofs.Resolution.Alias

namespace ObjectQuery

/-!
Aliases of numbered fields. Calls without one are given a name that no other field
has, and so are columns with the number of an earlier column without one.
-/

theorem lowerCharsAfter_eq_self {chars : List Char}
    (lower : ∀ char ∈ chars, char.toNat < 0x80 ∧ char.toLower = char) (before : List Char) :
    lowerCharsAfter before chars = chars := by
  induction chars generalizing before with
  | nil => rfl
  | cons char rest induction =>
      obtain ⟨⟨small, same⟩, later⟩ := List.forall_mem_cons.1 lower
      have plain : (char == 'Σ') = false := by
        refine beq_eq_false_iff_ne.2 ?_
        rintro rfl
        exact absurd small (by decide)
      simp [lowerCharsAfter, plain, lowerChar, small, same, induction later]

theorem toLower_of_isOf_ten {char : Char} (digit : Digit.isOf 10 char = true) :
    char.toNat < 0x80 ∧ char.toLower = char := by
  obtain ⟨_, most⟩ := (Digit.isOf_ten_iff char).1 digit
  refine ⟨by omega, ?_⟩
  unfold Char.toLower
  split
  · rename_i capital
    have least : 65 ≤ char.toNat := capital.1
    omega
  · rfl

/-- A name that is given to fields without one. -/
def exprName (number : Nat) : String :=
  "expr" ++ toString number

theorem toList_exprName (number : Nat) :
    (exprName number).toList = ['e', 'x', 'p', 'r'] ++ Nat.toDigits 10 number := by
  rw [exprName, String.toList_append]
  exact congrArg _ (by simp)

theorem exprName_injective {number other : Nat} (same : exprName number = exprName other) :
    number = other := by
  have chars := congrArg String.toList same
  rw [toList_exprName, toList_exprName] at chars
  have digits := congrArg (Digit.number 10) (List.append_cancel_left chars)
  rwa [Digit.number_toDigits, Digit.number_toDigits] at digits

theorem lowerText_exprName (number : Nat) : lowerText (exprName number) = exprName number := by
  have lower : ∀ char ∈ (exprName number).toList, char.toNat < 0x80 ∧ char.toLower = char := by
    rw [toList_exprName, List.forall_mem_append]
    refine ⟨?_, fun char member => ?_⟩
    · simp only [List.forall_mem_cons, List.not_mem_nil, false_implies, implies_true, and_true]
      decide
    · exact toLower_of_isOf_ten (List.all_eq_true.1 (Digit.all_toDigits number) char member)
  rw [lowerText, lowerCharsAfter_eq_self lower, String.ofList_toList]

namespace Field

variable {Q : Type} {taken : List String} {fields : List (Field Q)}

/-- The first name is fresh, or there are no fresh names among those that are tried. -/
theorem freshAlias_eq (taken : List String) (attempts counter : Nat) :
    ∃ number, counter ≤ number ∧
      freshAlias taken attempts counter = (exprName number, number + 1) ∧
      (exprName number ∉ taken ∨ number = counter + attempts ∧
        ∀ earlier, counter ≤ earlier → earlier < number → exprName earlier ∈ taken) := by
  induction attempts generalizing counter with
  | zero => exact ⟨counter, le_rfl, rfl, .inr ⟨rfl, fun _ _ _ => by omega⟩⟩
  | succ attempts induction =>
      by_cases used : exprName counter ∈ taken
      · obtain ⟨number, least, given, fresh⟩ := induction (counter + 1)
        refine ⟨number, by omega, ?_, fresh.imp_right fun ⟨last, all⟩ => ⟨by omega, ?_⟩⟩
        · rw [← given, freshAlias]
          exact if_pos (List.contains_iff_mem.2 used)
        · intro earlier first before
          rcases Nat.eq_or_lt_of_le first with rfl | later
          · exact used
          · exact all earlier later before
      · refine ⟨counter, le_rfl, ?_, .inl used⟩
        rw [freshAlias]
        exact if_neg (mt List.contains_iff_mem.1 used)

/-- One more name than are taken cannot all be taken. -/
theorem exists_freshAlias (taken : List String) (counter : Nat) :
    ∃ number, counter ≤ number ∧
      freshAlias taken taken.length counter = (exprName number, number + 1) ∧
      exprName number ∉ taken := by
  obtain ⟨number, least, given, fresh | ⟨last, all⟩⟩ := freshAlias_eq taken taken.length counter
  · exact ⟨number, least, given, fresh⟩
  refine ⟨number, least, given, fun used => ?_⟩
  have names : (List.range' counter (taken.length + 1)).map exprName ⊆ taken := by
    intro name member
    obtain ⟨other, inside, rfl⟩ := List.mem_map.1 member
    obtain ⟨first, before⟩ := List.mem_range'_1.1 inside
    rcases Nat.lt_or_ge other number with earlier | least
    · exact all other first earlier
    · obtain rfl : other = number := by omega
      exact used
  have distinct : ((List.range' counter (taken.length + 1)).map exprName).Nodup :=
    List.Nodup.map (fun _ _ => exprName_injective) (List.nodup_range' ..)
  have count := (distinct.subperm names).length_le
  rw [List.length_map, List.length_range'] at count
  omega

theorem forall₂_nameAll (taken : List String) (named : List (Option Nat)) (counter : Nat)
    (fields : List (Field Q)) :
    List.Forall₂ (fun field given => ∃ aliasName, given = { field with aliasName }) fields
      (nameAll taken named counter fields) := by
  induction fields generalizing named counter with
  | nil => exact .nil
  | cons field rest induction =>
      unfold nameAll
      dsimp only
      split
      · exact .cons ⟨_, rfl⟩ (induction ..)
      · exact .cons ⟨field.aliasName, by cases field; rfl⟩ (induction ..)

theorem aliasKeys_cons_none {field : Field Q} (unnamed : field.aliasName = none) :
    aliasKeys (field :: fields) = aliasKeys fields := by
  simp [aliasKeys, unnamed]

theorem aliasKeys_cons_some {field : Field Q} {name : String}
    (named : field.aliasName = some name) :
    aliasKeys (field :: fields) = lowerText name :: aliasKeys fields := by
  simp [aliasKeys, named]

/-- The names that are given differ from each other and from those that are taken. -/
theorem aliasKeys_nameAll (named : List (Option Nat)) (counter : Nat)
    (known : ∀ key ∈ aliasKeys fields, key ∈ taken) (distinct : (aliasKeys fields).Nodup) :
    (aliasKeys (nameAll taken named counter fields)).Nodup ∧
      ∀ key ∈ aliasKeys (nameAll taken named counter fields), key ∈ aliasKeys fields ∨
        ∃ number, counter ≤ number ∧ key = exprName number ∧ key ∉ taken := by
  induction fields generalizing named counter with
  | nil => exact ⟨by simp [nameAll, aliasKeys], by simp [nameAll, aliasKeys]⟩
  | cons field rest induction =>
      unfold nameAll
      dsimp only
      split
      · rename_i needs
        have unnamed : field.aliasName = none := by simp_all
        obtain ⟨number, least, given, fresh⟩ := exists_freshAlias taken counter
        rw [given]
        rw [aliasKeys_cons_none unnamed] at known distinct ⊢
        obtain ⟨apart, origins⟩ := induction _ (number + 1) known distinct
        rw [aliasKeys_cons_some rfl, lowerText_exprName, List.nodup_cons, List.forall_mem_cons]
        refine ⟨⟨fun member => ?_, apart⟩, .inr ⟨number, least, rfl, fresh⟩, fun key member => ?_⟩
        · rcases origins _ member with own | ⟨other, later, same, _⟩
          · exact fresh (known _ own)
          · have := exprName_injective same
            omega
        · refine (origins key member).imp_right ?_
          rintro ⟨other, later, rest⟩
          exact ⟨other, by omega, rest⟩
      · cases own : field.aliasName with
        | none =>
            rw [aliasKeys_cons_none own] at known distinct ⊢
            rw [aliasKeys_cons_none own]
            exact induction _ counter known distinct
        | some name =>
            rw [aliasKeys_cons_some own] at known distinct ⊢
            rw [aliasKeys_cons_some own]
            obtain ⟨first, later⟩ := List.forall_mem_cons.1 known
            obtain ⟨new, distinct⟩ := List.nodup_cons.1 distinct
            obtain ⟨apart, origins⟩ := induction _ counter later distinct
            rw [List.nodup_cons, List.forall_mem_cons]
            refine ⟨⟨fun member => ?_, apart⟩, .inl List.mem_cons_self, fun key member =>
              (origins key member).imp_left (List.mem_cons_of_mem _)⟩
            rcases origins _ member with twice | ⟨_, _, _, fresh⟩
            · exact new twice
            · exact fresh first

/-- Every call has a name. -/
theorem isSome_of_mem_nameAll {field : Field Q} {named : List (Option Nat)} {counter : Nat}
    (member : field ∈ nameAll taken named counter fields) (call : field.kind.isCall = true) :
    field.aliasName.isSome = true := by
  induction fields generalizing named counter with
  | nil => cases member
  | cons first rest induction =>
      unfold nameAll at member
      dsimp only at member
      split at member
      · rcases List.mem_cons.1 member with rfl | later
        · rfl
        · exact induction later
      · rename_i unneeded
        rcases List.mem_cons.1 member with rfl | later
        · simpa [call, Option.isSome_iff_ne_none] using unneeded
        · exact induction later

/-- The numbers of the columns without aliases. -/
def unnamedIds (fields : List (Field Q)) : List (Option Nat) :=
  (fields.filter fun field => field.kind.isColumn && field.aliasName.isNone).map (·.columnId)

theorem unnamedIds_cons (field : Field Q) (fields : List (Field Q)) :
    unnamedIds (field :: fields) =
      if field.aliasName.isNone && field.kind.isColumn then field.columnId :: unnamedIds fields
      else unnamedIds fields := by
  rw [unnamedIds, List.filter_cons, Bool.and_comm]
  split <;> rfl

/-- Of the columns with a number, only the first goes without a name. -/
theorem unnamedIds_nameAll (taken : List String) (named : List (Option Nat)) (counter : Nat)
    (fields : List (Field Q)) :
    (unnamedIds (nameAll taken named counter fields)).Nodup ∧
      ∀ id ∈ unnamedIds (nameAll taken named counter fields), id ∉ named := by
  induction fields generalizing named counter with
  | nil => simp [nameAll, unnamedIds]
  | cons field rest induction =>
      unfold nameAll
      by_cases column : (field.aliasName.isNone && field.kind.isColumn) = true
      · simp only [column, if_true]
        obtain ⟨unnamed, isColumn⟩ := Bool.and_eq_true_iff.1 column
        have unseen (counter : Nat) {id : Option Nat}
            (member : id ∈ unnamedIds (nameAll taken (field.columnId :: named) counter rest)) :
            id ≠ field.columnId ∧ id ∉ named :=
          not_or.1 (mt List.mem_cons.2 ((induction (field.columnId :: named) counter).2 id member))
        split
        · rw [unnamedIds_cons, if_neg (by simp)]
          exact ⟨(induction ..).1, fun id member => (unseen _ member).2⟩
        · rename_i unneeded
          have new : field.columnId ∉ named := by
            simp only [unnamed, isColumn, Bool.true_and, Bool.or_eq_true, not_or] at unneeded
            simpa using unneeded.2
          rw [unnamedIds_cons, if_pos column, List.nodup_cons, List.forall_mem_cons]
          exact ⟨⟨fun member => (unseen _ member).1 rfl, (induction ..).1⟩, new,
            fun id member => (unseen _ member).2⟩
      · simp only [column]
        split
        · rw [unnamedIds_cons, if_neg (by simp)]
          exact induction ..
        · rw [unnamedIds_cons, if_neg column]
          exact induction ..

theorem nameAll_eq_self {named : List (Option Nat)} {counter : Nat}
    (columns : ∀ field ∈ fields, field.kind.isColumn = true)
    (distinct : (fields.map (·.columnId)).Nodup)
    (unseen : ∀ field ∈ fields, field.columnId ∉ named) :
    nameAll taken named counter fields = fields := by
  induction fields generalizing named with
  | nil => rfl
  | cons field rest induction =>
      obtain ⟨isColumn, columns⟩ := List.forall_mem_cons.1 columns
      obtain ⟨new, unseen⟩ := List.forall_mem_cons.1 unseen
      rw [List.map_cons, List.nodup_cons, List.mem_map] at distinct
      have noCall : field.kind.isCall = false := by
        obtain ⟨path, kind⟩ := exists_eq_column isColumn
        rw [kind]
        rfl
      unfold nameAll
      dsimp only
      rw [if_neg (by simp [noCall, new]), induction columns distinct.2 fun other member seen => ?_]
      split at seen
      · rcases List.mem_cons.1 seen with same | seen
        · exact distinct.1 ⟨other, member, same⟩
        · exact unseen other member seen
      · exact unseen other member seen

/-- Columns at the end stay without names where their numbers are new. -/
theorem nameAll_append {left right : List (Field Q)} {named : List (Option Nat)} {counter : Nat}
    (columns : ∀ field ∈ right, field.kind.isColumn = true)
    (distinct : (right.map (·.columnId)).Nodup)
    (unseen : ∀ field ∈ right, field.columnId ∉ named)
    (apart : ∀ field ∈ right, ∀ other ∈ left, other.kind.isColumn = true →
      other.columnId ≠ field.columnId) :
    nameAll taken named counter (left ++ right) = nameAll taken named counter left ++ right := by
  induction left generalizing named counter with
  | nil => exact nameAll_eq_self columns distinct unseen
  | cons field rest induction =>
      have unseenToo : ∀ other ∈ right, other.columnId ∉
          if field.aliasName.isNone && field.kind.isColumn then field.columnId :: named
          else named := by
        intro other member seen
        split at seen
        · rename_i column
          rcases List.mem_cons.1 seen with same | seen
          · exact apart other member field List.mem_cons_self (Bool.and_eq_true_iff.1 column).2
              same.symm
          · exact unseen other member seen
        · exact unseen other member seen
      have others : ∀ other ∈ right, ∀ earlier ∈ rest, earlier.kind.isColumn = true →
          earlier.columnId ≠ other.columnId :=
        fun other member earlier given => apart other member earlier (List.mem_cons_of_mem _ given)
      rw [List.cons_append]
      unfold nameAll
      dsimp only
      split
      · rw [induction unseenToo others, List.cons_append]
      · rw [induction unseenToo others, List.cons_append]

/-- The paths and aliases of the columns that the field reads. -/
def labels (field : Field Q) : List (Option Path × Option String) :=
  field.columns.map fun column => (column.kind.path?, column.aliasName)

theorem quiet_iff_labels {field : Field Q} {length : Nat} :
    field.Quiet length ↔ ∀ label ∈ field.labels, ∀ path, label.1 = some path →
      path.length ≤ length → label.2 = none := by
  simp only [labels, List.forall_mem_map]
  have path? {column : Field Q} (reads : column ∈ field.columns) (path : Path) :
      column.kind.path? = some path ↔ column.kind = .column path := by
    obtain ⟨own, kind⟩ := exists_eq_column (isColumn_of_mem_columns field column reads)
    simp [kind, FieldKind.path?]
  constructor
  · exact fun quiet column reads path kind => quiet column reads path ((path? reads path).1 kind)
  · exact fun quiet column reads path kind => quiet column reads path ((path? reads path).2 kind)

theorem labels_of_isColumn {field : Field Q} (isColumn : field.kind.isColumn = true) :
    field.labels = [(field.kind.path?, field.aliasName)] := by
  rw [labels, columns_of_isColumn isColumn, List.map_singleton]

theorem labels_of_call {field : Field Q} {name : String} {arguments : List (Field Q)}
    (kind : field.kind = .call name arguments) : field.labels = arguments.flatMap labels := by
  have columns : field.columns = allColumns arguments := by rw [columns_eq, kind, kindColumns]
  rw [labels, columns, allColumns_eq_flatMap, List.map_flatMap]
  rfl

mutual

theorem assignId_labels (pass : CallPass) (isArgument : Bool) : (field : Field Q) →
    Session.Numbers Session.uncounted (field.assignId pass isArgument) fun assigned =>
      assigned.labels = field.labels
  | ⟨kind, _, _, _, _, _, _⟩ => by
      unfold assignId
      refine (numbered_numbers pass isArgument _).bind ?_
      rintro _ ⟨id, rfl⟩
      exact (assignKind_labels pass kind).bind fun assigned same => .pure (same _ _ rfl rfl rfl)

theorem assignKind_labels (pass : CallPass) : (kind : FieldKind Q) →
    Session.Numbers Session.uncounted (assignKind pass kind) fun assigned =>
      ∀ before after : Field Q, before.kind = kind → after.kind = assigned →
        after.aliasName = before.aliasName → after.labels = before.labels
  | .call name arguments => by
      unfold assignKind
      refine (assignAll_labels pass true arguments).bind fun assigned same => .pure ?_
      intro before after kind assignedKind _
      rw [labels_of_call kind, labels_of_call assignedKind, List.flatMap_def, List.flatMap_def,
        same]
  | .column path => .pure fun before after kind assignedKind aliasName => by
      rw [labels_of_isColumn (by rw [assignedKind]; rfl), labels_of_isColumn (by rw [kind]; rfl),
        kind, assignedKind, aliasName]
  | .fieldSet _ | .subquery _ | .literal _ | .parameter _ | .relativeDate _ =>
      .pure fun before after kind assignedKind _ => by
        simp [labels, columns_eq, kind, assignedKind, kindColumns]

theorem assignAll_labels (pass : CallPass) (isArgument : Bool) : (fields : List (Field Q)) →
    Session.Numbers Session.uncounted (assignAll pass isArgument fields) fun assigned =>
      assigned.map labels = fields.map labels
  | [] => .pure rfl
  | field :: rest => by
      unfold assignAll
      refine (assignId_labels pass isArgument field).bind fun first same => ?_
      refine (assignAll_labels pass isArgument rest).bind fun others alike => .pure ?_
      rw [List.map_cons, List.map_cons, same, alike]

end

theorem assignConditions_labels (pass : CallPass) (conditions : List (Condition (Field Q))) :
    Session.Numbers Session.uncounted (assignConditions pass conditions) fun assigned =>
      assigned.map (Condition.map labels) = conditions.map (Condition.map labels) := by
  refine .mapM _ _ fun entry member => ?_
  cases entry with
  | operand field =>
      exact (assignId_labels pass false field).bind fun assigned same =>
        .pure (congrArg Condition.operand same)
  | noop | unknown | operator op => exact .pure rfl

/-- A name makes no difference to a field other than a column with a short path. -/
theorem Quiet.named {length : Nat} {field : Field Q} (quiet : field.Quiet length)
    (longer : ∀ path, field.kind = .column path → length < path.length)
    (aliasName : Option String) : ({ field with aliasName } : Field Q).Quiet length := by
  obtain ⟨kind, own, notSelected, aggregated, key, columnId, columnIndex⟩ := field
  cases kind with
  | column path =>
      intro column reads other kind short
      rw [columns_of_isColumn rfl, List.mem_singleton] at reads
      subst reads
      exact absurd short (Nat.not_le.2 (longer other kind))
  | _ =>
      rw [Quiet, columns_eq] at quiet ⊢
      exact quiet

theorem aliasKeys_eq_filterMap (fields : List (Field Q)) :
    aliasKeys fields = (fields.map (·.aliasName)).filterMap (·.map lowerText) := by
  rw [List.filterMap_map]
  rfl

theorem Arranged.of_map {length : Nat} {selected added selectedToo addedToo : List (Field Q)}
    (arranged : Arranged length selected added)
    (first : selectedToo.map (fun field => (field.bare, field.aliasName)) =
      selected.map fun field => (field.bare, field.aliasName))
    (second : addedToo.map (fun field => (field.bare, field.aliasName)) =
      added.map fun field => (field.bare, field.aliasName)) :
    Arranged length selectedToo addedToo where
  longer := by
    intro field member path kind
    obtain ⟨other, given, same⟩ := exists_mem_of_map_eq first member
    exact arranged.longer other given path
      (kind_eq_column_of_bare (congrArg Prod.fst same).symm kind)
  unnamed := by
    intro field member
    obtain ⟨other, given, same⟩ := exists_mem_of_map_eq second member
    obtain ⟨isColumn, unnamed⟩ := arranged.unnamed other given
    have kinds := congrArg (fun shown => shown.1.kind.isColumn) same
    simp only [kind_bare, isColumn_bare] at kinds
    exact ⟨kinds ▸ isColumn, (congrArg Prod.snd same).symm.trans unnamed⟩
  distinct := by
    have keys := congrArg (List.map fun shown => shown.1.key) second
    simp only [List.map_map, Function.comp_def, key_bare] at keys
    rw [keys]
    exact arranged.distinct
  apart := by
    intro field member seen
    obtain ⟨earlier, givenToo, isColumn, key⟩ := mem_columnKeys.1 seen
    obtain ⟨other, given, same⟩ := exists_mem_of_map_eq second member
    obtain ⟨otherEarlier, given', sameToo⟩ := exists_mem_of_map_eq first givenToo
    have keys := congrArg (fun shown => shown.1.key) same
    have keysToo := congrArg (fun shown => shown.1.key) sameToo
    have kinds := congrArg (fun shown => shown.1.kind.isColumn) sameToo
    simp only [kind_bare, isColumn_bare, key_bare] at keys keysToo kinds
    exact arranged.apart other given (mem_columnKeys.2
      ⟨otherEarlier, given', kinds.trans isColumn, keysToo.trans (key.trans keys.symm)⟩)

end Field

namespace Statement

open Session

variable {Q : Type} {statement numbered : Statement Q} {length : Nat}

theorem assignColumnIds_labels (statement : Statement Q) :
    Numbers uncounted statement.assignColumnIds fun numbered =>
      numbered.everyField.map Field.labels = statement.everyField.map Field.labels ∧
        numbered.fields.map (·.aliasName) = statement.fields.map (·.aliasName) := by
  refine ((Field.assignAll_labels .outermost false statement.fields).and
    (Field.assignAll_keeps_aliases .outermost false statement.fields)).bind fun fields first => ?_
  have orderBy : Numbers uncounted (statement.orderBy.mapM fun order => do
      return { order with field := ← order.field.assignId .outermost false })
      fun assigned => assigned.map (·.field.labels) = statement.orderBy.map (·.field.labels) :=
    .mapM _ _ fun order _ =>
      (Field.assignId_labels .outermost false order.field).bind fun _ same => .pure same
  refine orderBy.bind fun orderBy orders => ?_
  refine (Field.assignAll_labels .outermost false statement.groupBy).bind fun groupBy keys => ?_
  refine (Field.assignConditions_labels .outermost statement.filter).bind
    fun filter filtered => ?_
  refine (Field.assignConditions_labels .aggregated statement.having).bind
    fun calls aggregated => ?_
  refine (Field.assignConditions_labels .outermost calls).bind fun having grouped => ?_
  have again : Numbers uncounted (fields.mapM fun field =>
      if field.kind.isCall then field.assignId .aggregated false else pure field)
      fun assigned => assigned.map (fun field => (field.labels, field.aliasName)) =
        fields.map fun field => (field.labels, field.aliasName) := by
    refine .mapM _ _ fun field _ => ?_
    split
    · exact ((Field.assignId_labels .aggregated false field).and
        (Field.assignId_keeps_alias .aggregated false field)).mono fun _ same =>
          Prod.ext same.1 same.2
    · exact .pure rfl
  refine again.bind fun fields second => .pure ?_
  have labels := congrArg (List.map Prod.fst) second
  have aliases := congrArg (List.map Prod.snd) second
  simp only [List.map_map, Function.comp_def] at labels aliases
  refine ⟨?_, aliases.trans first.2⟩
  simp only [everyField, List.map_append, List.map_map, Function.comp_def, labels, first.1, orders,
    keys, Condition.map_operands filtered, Condition.map_operands (grouped.trans aggregated)]

theorem AliasesKnown.of_alike (known : statement.AliasesKnown length)
    (alike : statement.Alike numbered)
    (labels : numbered.everyField.map Field.labels = statement.everyField.map Field.labels)
    (aliases : numbered.fields.map (·.aliasName) = statement.fields.map (·.aliasName)) :
    numbered.AliasesKnown length where
  distinct := by
    rw [Field.aliasKeys_eq_filterMap, aliases, ← Field.aliasKeys_eq_filterMap]
    exact known.distinct
  quiet := by
    intro field member
    obtain ⟨other, given, same⟩ := exists_mem_of_map_eq labels member
    rw [Field.quiet_iff_labels, ← same, ← Field.quiet_iff_labels]
    exact known.quiet other given
  arranged := by
    obtain ⟨selected, added, fields, arranged⟩ := known.arranged
    have both := congrArg₂ List.zip alike.fields aliases
    rw [List.zip_map', List.zip_map', fields, List.map_append] at both
    obtain ⟨selectedToo, addedToo, split, first, second⟩ := List.map_eq_append_iff.1 both
    exact ⟨selectedToo, addedToo, split, arranged.of_map first second⟩

/-- What is known of aliases when the fields of a statement are numbered and have names. -/
structure AliasesGiven (length : Nat) (statement : Statement Q) : Prop where
  distinct : (Field.aliasKeys statement.fields).Nodup
  calls : ∀ field ∈ statement.fields, field.kind.isCall = true → field.aliasName.isSome = true
  columns : (Field.unnamedIds statement.fields).Nodup
  quiet : ∀ field ∈ statement.everyField, field.Quiet length

theorem nameFields_aliases (known : statement.AliasesKnown length) {taken : List String}
    (listed : ∀ key ∈ Field.aliasKeys statement.fields, key ∈ taken) {ledger : Ledger}
    (sound : ledger.Sound) (consistent : ledger.Consistent statement.marks) :
    (statement.nameFields taken).AliasesGiven length := by
  obtain ⟨selected, added, fields, arranged⟩ := known.arranged
  have marked {field : Field Q} (member : field ∈ selected ++ added) :
      field.mark ∈ statement.marks := by
    rw [marks, Field.allMarks_eq_flatMap]
    refine List.mem_flatMap.2 ⟨field, mem_everyField_iff.2 (.inl ?_), field.mark_mem⟩
    rwa [fields]
  have columns : ∀ field ∈ added, field.kind.isColumn = true :=
    fun field member => (arranged.unnamed field member).1
  have distinct : (added.map (·.columnId)).Nodup := by
    refine List.pairwise_map.2 ((List.pairwise_map.1 arranged.distinct).imp_of_mem ?_)
    intro field other member memberToo keys ids
    exact keys ((sound.id_eq_iff consistent consistent (marked (List.mem_append_right _ member))
      (marked (List.mem_append_right _ memberToo)) (columns field member)
      (columns other memberToo)).1 ids)
  have apart : ∀ field ∈ added, ∀ other ∈ selected, other.kind.isColumn = true →
      other.columnId ≠ field.columnId := by
    intro field member other given isColumn ids
    refine arranged.apart field member (Field.mem_columnKeys.2 ⟨other, given, isColumn, ?_⟩)
    exact (sound.id_eq_iff consistent consistent (marked (List.mem_append_left _ given))
      (marked (List.mem_append_right _ member)) isColumn (columns field member)).1 ids
  have names : (statement.nameFields taken).fields = Field.nameAll taken [] 0 selected ++ added :=
    (congrArg (Field.nameAll taken [] 0) fields).trans
      (Field.nameAll_append columns distinct (by simp) apart)
  refine ⟨(Field.aliasKeys_nameAll [] 0 listed known.distinct).1, ?_,
    (Field.unnamedIds_nameAll taken [] 0 statement.fields).1, ?_⟩
  · exact fun field member call => Field.isSome_of_mem_nameAll member call
  · obtain ⟨inFields, others⟩ := forall_everyField_iff.1 known.quiet
    rw [fields, List.forall_mem_append] at inFields
    refine forall_everyField_iff.2 ⟨?_, others⟩
    rw [names, List.forall_mem_append]
    refine ⟨fun field member => ?_, inFields.2⟩
    obtain ⟨before, given, aliasName, rfl⟩ :=
      Step.exists_of_forall₂ (Field.forall₂_nameAll taken [] 0 selected) member
    exact (inFields.1 before given).named (arranged.longer before given) aliasName

/-- Aliases, once names are resolved, are those that numbering adds names to. -/
theorem assignIds_aliases (depth : Nat) {selected : SelectAliases Query}
    {statement : Statement Query} (known : statement.AliasesKnown length)
    (listed : ∀ key ∈ Field.aliasKeys statement.fields, key ∈ selected.keys)
    (unnumbered : statement.Unnumbered) (before : Session) (sound : before.columns.Sound) :
    Step.Meets (statement.assignIds depth selected) before
      fun numbered _ => numbered.AliasesGiven length := by
  have views : Step.Meets (Compilation.ofState (statement.assignViewIds depth)) before
      fun viewed after => (∃ objects, viewed = { statement with objects }) ∧
        after.columns = before.columns :=
    assignViewIds_leads depth statement before
  refine views.bind ?_
  rintro _ middle ⟨⟨objects, rfl⟩, kept⟩
  have numbers : Step.Meets
      (Compilation.ofState (assignColumnIds { statement with objects })) middle
      fun numbered after => Ledger.Marked middle.columns after.columns numbered.marks ∧
        Mark.Complete numbered.marks :=
    assignColumnIds_marked unnumbered (kept ▸ sound)
  have keeps := (assignColumnIds_numbers { statement with objects }).and
    (assignColumnIds_labels { statement with objects })
  refine (numbers.and (keeps.meets middle)).bind ?_
  rintro numbered after ⟨⟨marked, complete⟩, ⟨⟨alike, _⟩, labels, aliases⟩, _⟩
  have viewed : AliasesKnown length { statement with objects } :=
    ⟨known.distinct, known.quiet, known.arranged⟩
  have still : numbered.AliasesKnown length := viewed.of_alike alike labels aliases
  have listed : ∀ key ∈ Field.aliasKeys numbered.fields, key ∈ selected.keys := by
    rw [Field.aliasKeys_eq_filterMap, aliases, ← Field.aliasKeys_eq_filterMap]
    exact listed
  dsimp only
  split
  · exact .throw trivial
  · exact .pure (nameFields_aliases still listed marked.grows.sound (marked.consistent complete))

end Statement

end ObjectQuery
