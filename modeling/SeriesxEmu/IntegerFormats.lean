import Mathlib.Data.Nat.Digits.Lemmas
import Mathlib.Tactic.IntervalCases

/-!
# Formatted integers

An integer conversion of the C library has flags, a minimum width, a precision and length
modifiers. The text of a value consists of its sign or prefix, of its digits filled up to the
precision, and of padding. It determines the value, even when it is cut off behind some thirty
characters, because the places of the digits are known from the precision.
-/

namespace SeriesxEmu

/-- The integer conversions, by their letters. -/
inductive Conversion where
  | d
  | i
  | u
  | x
  | X
  | o
deriving DecidableEq, Repr

namespace Conversion

/-- The letter of a conversion in a format. -/
def letter : Conversion → Char
  | d => 'd'
  | i => 'i'
  | u => 'u'
  | x => 'x'
  | X => 'X'
  | o => 'o'

/-- Whether it takes an `int`. -/
def signed : Conversion → Bool
  | d | i => true
  | u | x | X | o => false

/-- The base in which it prints. -/
def base : Conversion → Nat
  | d | i | u => 10
  | x | X => 16
  | o => 8

/-- A digit of that base. -/
def digit (conversion : Conversion) (value : Nat) : Char :=
  if value < 10 then Char.ofNat (48 + value)
  else if conversion = X then Char.ofNat (55 + value) else Char.ofNat (87 + value)

/-- The value of a character that is a digit. -/
def value (conversion : Conversion) (character : Char) : Option Nat :=
  (List.range conversion.base).find? (fun value => conversion.digit value == character)

/-- The conversion of a letter. -/
def ofLetter (character : Char) : Option Conversion :=
  [d, i, u, x, X, o].find? (fun conversion => conversion.letter == character)

/-- Every conversion is that of its letter. -/
theorem ofLetter_letter (conversion : Conversion) : ofLetter conversion.letter = some conversion := by
  cases conversion <;> rfl

/-- Every base has the digits up to seven. -/
theorem base_large (conversion : Conversion) : 8 ≤ conversion.base := by
  cases conversion <;> decide

/-- A digit is read as its value. -/
theorem value_digit (conversion : Conversion) {value : Nat} (small : value < conversion.base) :
    conversion.value (conversion.digit value) = some value := by
  cases conversion <;> simp only [base] at small <;> interval_cases value <;> rfl

/-- Signs, spaces and the letters of the prefixes are no digits. -/
theorem value_mark (conversion : Conversion) {mark : Char} (isMark : mark ∈ [' ', '+', '-', 'x', 'X']) :
    conversion.value mark = none := by
  simp only [List.mem_cons, List.not_mem_nil, or_false] at isMark
  rcases isMark with rfl | rfl | rfl | rfl | rfl <;> cases conversion <;> rfl

/-- Zero is a digit of every base. -/
theorem value_zero (conversion : Conversion) : conversion.value '0' = some 0 := by
  cases conversion <;> rfl

end Conversion

/-- A conversion directive, without its percent sign. -/
structure Directive where
  flags : List Char
  width : List Char
  precision : Option (List Char)
  modifiers : List Char
  conversion : Conversion
deriving DecidableEq, Repr

/-- A flag of a directive. -/
def isFlag (character : Char) : Bool := ['-', '+', ' ', '#', '0'].contains character

/-- A length modifier, `l` or `h`. -/
def isModifier (character : Char) : Bool := character == 'l' || character == 'h'

/-- The value of decimal digits. -/
def decimal (digits : List Char) : Nat := digits.foldl (fun value digit => 10 * value + (digit.toNat - 48)) 0

namespace Directive

/-- The text of a directive up to its letter. -/
def marks (directive : Directive) : List Char :=
  directive.flags ++ directive.width ++ match directive.precision with
    | none => []
    | some digits => '.' :: digits

/-- A directive as it is written. -/
def render (directive : Directive) : List Char :=
  directive.marks ++ directive.modifiers ++ [directive.conversion.letter]

/-- Flags, digits and modifiers are what they should be, and the alternative form is asked for only
where there is one. -/
structure WellFormed (directive : Directive) : Prop where
  flags : ∀ flag ∈ directive.flags, isFlag flag = true
  width : ∀ digit ∈ directive.width, digit.isDigit = true
  widthStart : directive.width.head? ≠ some '0'
  precision : ∀ digits, directive.precision = some digits → ∀ digit ∈ digits, digit.isDigit = true
  modifiers : ∀ modifier ∈ directive.modifiers, isModifier modifier = true
  alternative : '#' ∈ directive.flags → directive.conversion.base ≠ 10

/-- A precision, if there is one, and what follows it. -/
def parsePrecision : List Char → Option (List Char) × List Char
  | '.' :: rest => (some (rest.takeWhile Char.isDigit), rest.dropWhile Char.isDigit)
  | rest => (none, rest)

/-- How `snprintf` takes a directive apart. -/
def parse (text : List Char) : Option Directive :=
  let behindFlags := text.dropWhile isFlag
  let behindWidth := parsePrecision (behindFlags.dropWhile Char.isDigit)
  match behindWidth.2.dropWhile isModifier with
  | [letter] => (Conversion.ofLetter letter).map (fun conversion =>
    { flags := text.takeWhile isFlag, width := behindFlags.takeWhile Char.isDigit, precision := behindWidth.1
      modifiers := behindWidth.2.takeWhile isModifier, conversion })
  | _ => none

/-! ## The text of a value -/

/-- The width that a directive asks for. -/
def widthValue (directive : Directive) : Nat := decimal directive.width

/-- The least number of digits, one without a precision. -/
def leastDigits (directive : Directive) : Nat := match directive.precision with
  | none => 1
  | some digits => decimal digits

/-- The sign, or the prefix of the alternative form. -/
def lead (directive : Directive) (value : Int) : List Char :=
  if directive.conversion.signed then
    if value < 0 then ['-']
    else if '+' ∈ directive.flags then ['+']
    else if ' ' ∈ directive.flags then [' ']
    else []
  else if '#' ∈ directive.flags ∧ directive.conversion.base = 16 ∧ value ≠ 0 then ['0', directive.conversion.letter]
  else []

/-- The digits, filled up with zeros. The alternative form of an octal number starts with a zero. -/
def body (directive : Directive) (value : Int) : List Char :=
  let digits := (directive.conversion.base.digits value.natAbs).reverse.map directive.conversion.digit
  let filled := List.replicate (directive.leastDigits - digits.length) '0' ++ digits
  if '#' ∈ directive.flags ∧ directive.conversion = .o ∧ filled.head? ≠ some '0' then '0' :: filled else filled

/-- The complete text. -/
def format (directive : Directive) (value : Int) : List Char :=
  let lead := directive.lead value
  let body := directive.body value
  let room := directive.widthValue - (lead.length + body.length)
  if '-' ∈ directive.flags then lead ++ body ++ List.replicate room ' '
  else if '0' ∈ directive.flags ∧ directive.precision = none then lead ++ List.replicate room '0' ++ body
  else List.replicate room ' ' ++ lead ++ body

variable {directive : Directive} {value : Int}

/-- A text is as long as the width asks for, or as its lead and digits are. -/
theorem format_length (directive : Directive) (value : Int) : (directive.format value).length =
    max directive.widthValue ((directive.lead value).length + (directive.body value).length) := by
  unfold format
  simp only
  split
  · simp only [List.length_append, List.length_replicate]
    omega
  · split <;> simp only [List.length_append, List.length_replicate] <;> omega

/-- Text that is longer than the field is not padded. -/
theorem format_long (long : directive.widthValue < (directive.format value).length) :
    directive.format value = directive.lead value ++ directive.body value := by
  rw [format_length] at long
  have room : directive.widthValue - ((directive.lead value).length + (directive.body value).length) = 0 := by omega
  unfold format
  simp only [room, List.replicate_zero, List.append_nil, List.nil_append, ite_self]

/-- The body has the digits that the precision asks for, and not many more. -/
theorem body_length (directive : Directive) {value : Int} (word : value.natAbs < 2 ^ 64) :
    directive.leastDigits ≤ (directive.body value).length ∧
      (directive.body value).length ≤ max directive.leastDigits 23 := by
  have count : (directive.conversion.base.digits value.natAbs).length ≤ 22 := by
    have large := directive.conversion.base_large
    rw [Nat.digits_length_le_iff (by omega)]
    calc value.natAbs < 2 ^ 64 := word
      _ ≤ 8 ^ 22 := by decide
      _ ≤ directive.conversion.base ^ 22 := Nat.pow_le_pow_left large 22
  unfold body
  simp only
  split
  · rename_i forced
    simp only [List.length_cons, List.length_append, List.length_replicate, List.length_map, List.length_reverse]
    have enough : directive.leastDigits ≤ (directive.conversion.base.digits value.natAbs).length := by
      by_contra short
      obtain ⟨_, _, start⟩ := forced
      simp only [List.length_map, List.length_reverse] at start
      obtain ⟨rest, isSucc⟩ : ∃ rest, directive.leastDigits -
          (directive.conversion.base.digits value.natAbs).length = rest + 1 := ⟨_, (Nat.succ_pred (by omega)).symm⟩
      rw [isSucc] at start
      exact start rfl
    omega
  · simp only [List.length_append, List.length_replicate, List.length_map, List.length_reverse]
    omega

/-! ## The value of a text -/

/-- The value of the digits of a text. -/
def reading (conversion : Conversion) (text : List Char) : Nat :=
  Nat.ofDigits conversion.base (text.filterMap conversion.value).reverse

/-- Zeros are read as zeros. -/
theorem filterMap_replicate_zero (conversion : Conversion) (count : Nat) :
    (List.replicate count '0').filterMap conversion.value = List.replicate count 0 := by
  rw [List.filterMap_replicate, conversion.value_zero]

/-- Spaces are no digits. -/
theorem filterMap_replicate_space (conversion : Conversion) (count : Nat) :
    (List.replicate count ' ').filterMap conversion.value = [] := by
  rw [List.filterMap_replicate, conversion.value_mark (by decide)]

/-- The digits of the body are those of the value behind zeros. -/
theorem filterMap_body (directive : Directive) (value : Int) : ∃ zeros,
    (directive.body value).filterMap directive.conversion.value =
      List.replicate zeros 0 ++ (directive.conversion.base.digits value.natAbs).reverse := by
  have digits : ((directive.conversion.base.digits value.natAbs).reverse.map directive.conversion.digit).filterMap
      directive.conversion.value = (directive.conversion.base.digits value.natAbs).reverse := by
    rw [List.filterMap_map]
    refine (List.filterMap_congr (fun digit member => ?_)).trans (List.filterMap_some)
    have large := directive.conversion.base_large
    exact directive.conversion.value_digit (Nat.digits_lt_base (by omega) (List.mem_reverse.mp member))
  unfold body
  simp only
  split
  · refine ⟨directive.leastDigits - (List.map directive.conversion.digit
      (directive.conversion.base.digits value.natAbs).reverse).length + 1, ?_⟩
    rw [List.filterMap_cons, directive.conversion.value_zero]
    simp only [List.filterMap_append, filterMap_replicate_zero, digits, List.replicate_succ, List.cons_append]
  · refine ⟨directive.leastDigits - (List.map directive.conversion.digit
      (directive.conversion.base.digits value.natAbs).reverse).length, ?_⟩
    rw [List.filterMap_append, filterMap_replicate_zero, digits]

/-- A lead is read as zeros at most. -/
theorem filterMap_lead (directive : Directive) (value : Int) : ∃ zeros,
    (directive.lead value).filterMap directive.conversion.value = List.replicate zeros 0 := by
  have signs : ∀ mark, mark ∈ [' ', '+', '-', 'x', 'X'] → directive.conversion.value mark = none := fun mark isMark =>
    directive.conversion.value_mark isMark
  unfold lead
  split
  · refine ⟨0, ?_⟩
    split
    · rw [List.filterMap_cons, signs '-' (by decide)]
      rfl
    · split
      · rw [List.filterMap_cons, signs '+' (by decide)]
        rfl
      · split
        · rw [List.filterMap_cons, signs ' ' (by decide)]
          rfl
        · rfl
  · split
    · rename_i prefixed
      refine ⟨1, ?_⟩
      rw [List.filterMap_cons, directive.conversion.value_zero, List.filterMap_cons, signs _ ?_]
      · rfl
      · have hex := prefixed.2.1
        cases letter : directive.conversion <;> rw [letter] at hex <;> first | decide | cases hex
    · exact ⟨0, rfl⟩

/-- A text has the digits of its value behind zeros. -/
theorem reading_format (directive : Directive) (value : Int) :
    reading directive.conversion (directive.format value) = value.natAbs := by
  obtain ⟨first, lead⟩ := directive.filterMap_lead value
  obtain ⟨second, body⟩ := directive.filterMap_body value
  have padded : ∃ zeros, (directive.format value).filterMap directive.conversion.value =
      List.replicate zeros 0 ++ (directive.conversion.base.digits value.natAbs).reverse := by
    unfold format
    simp only
    split
    · refine ⟨first + second, ?_⟩
      rw [List.filterMap_append, List.filterMap_append, lead, body, filterMap_replicate_space, List.append_nil,
        ← List.append_assoc, List.replicate_append_replicate]
    · split
      · refine ⟨first + (directive.widthValue - ((directive.lead value).length + (directive.body value).length)) +
          second, ?_⟩
        rw [List.filterMap_append, List.filterMap_append, lead, body, filterMap_replicate_zero,
          List.replicate_append_replicate, ← List.append_assoc, List.replicate_append_replicate]
      · refine ⟨first + second, ?_⟩
        rw [List.filterMap_append, List.filterMap_append, lead, body, filterMap_replicate_space, List.nil_append,
          ← List.append_assoc, List.replicate_append_replicate]
  obtain ⟨zeros, digits⟩ := padded
  rw [reading, digits, List.reverse_append, List.reverse_reverse, List.reverse_replicate,
    Nat.ofDigits_append_replicate_zero, Nat.ofDigits_digits]

/-! ## The sign of a text -/

/-- Letters and signs of a text come from its lead. -/
theorem mem_format {mark : Char} (isMark : mark ∈ ['-', 'x', 'X']) :
    mark ∈ directive.format value ↔ mark ∈ directive.lead value := by
  have noDigit : directive.conversion.value mark = none := directive.conversion.value_mark (by
    simp only [List.mem_cons, List.not_mem_nil, or_false] at isMark ⊢
    tauto)
  have noZero : mark ≠ '0' := by
    rintro rfl
    rw [directive.conversion.value_zero] at noDigit
    cases noDigit
  have noSpace : mark ≠ ' ' := by
    rintro rfl
    revert isMark
    decide
  have outside : mark ∉ directive.body value := by
    have digits : mark ∉ (directive.conversion.base.digits value.natAbs).reverse.map directive.conversion.digit := by
      intro member
      obtain ⟨digit, isDigit, rfl⟩ := List.mem_map.mp member
      have large := directive.conversion.base_large
      rw [directive.conversion.value_digit (Nat.digits_lt_base (by omega) (List.mem_reverse.mp isDigit))] at noDigit
      cases noDigit
    unfold body
    simp only
    split <;> simp only [List.mem_cons, List.mem_append, List.mem_replicate, noZero, and_false, false_or, digits,
      not_false_eq_true]
  unfold format
  simp only
  split
  · simp only [List.mem_append, List.mem_replicate, outside, noSpace, and_false, or_false]
  · split <;> simp only [List.mem_append, List.mem_replicate, outside, noSpace, noZero, and_false, or_false, false_or]

/-- A minus sign shows a negative value. -/
theorem mem_minus (unsigned : directive.conversion.signed = false → 0 ≤ value) :
    '-' ∈ directive.format value ↔ value < 0 := by
  rw [mem_format (by decide)]
  unfold lead
  cases signed : directive.conversion.signed with
  | true =>
    by_cases negative : value < 0
    · simp [negative]
    · simp only [↓reduceIte, negative, iff_false]
      split
      · decide
      · split <;> decide
  | false =>
    have nonnegative := unsigned signed
    simp only [Bool.false_eq_true, ↓reduceIte, nonnegative.not_gt, iff_false]
    split
    · cases directive.conversion <;> decide
    · decide

/-- The text determines the value. -/
theorem format_injective {first second : Int}
    (unsigned : directive.conversion.signed = false → 0 ≤ first ∧ 0 ≤ second)
    (same : directive.format first = directive.format second) : first = second := by
  have magnitude : first.natAbs = second.natAbs := by
    rw [← directive.reading_format first, same, directive.reading_format]
  have sign : first < 0 ↔ second < 0 := by
    rw [← mem_minus (fun no => (unsigned no).1), same, mem_minus (fun no => (unsigned no).2)]
  omega

/-- A lead is a sign or the mark of a base. -/
theorem lead_length (directive : Directive) (value : Int) : (directive.lead value).length ≤ 2 := by
  unfold lead
  split
  · split
    · decide
    · split
      · decide
      · split <;> decide
  · split
    · exact Nat.le_refl _
    · decide

/-- The sign or the prefix of a value is not longer than that of another one whose text starts like
its text. -/
theorem lead_le {first second : Int} {limit : Nat} (room : 2 ≤ limit)
    (unsigned : directive.conversion.signed = false → 0 ≤ first ∧ 0 ≤ second)
    (start : directive.format first = directive.lead first ++ directive.body first)
    (same : (directive.format first).take limit = directive.format second) :
    (directive.lead first).length ≤ (directive.lead second).length := by
  have inside : ∀ mark ∈ directive.lead first, mark ∈ directive.format second := by
    intro mark member
    rw [← same, start, List.take_append, List.take_of_length_le (Nat.le_trans (directive.lead_length first) room)]
    exact List.mem_append_left _ member
  cases signed : directive.conversion.signed with
  | true =>
    by_cases negative : first < 0
    · have minus : '-' ∈ directive.lead first := by
        rw [lead, if_pos signed, if_pos negative]
        exact List.mem_singleton_self _
      have other := (mem_minus (fun no => (unsigned no).2)).mp (inside _ minus)
      rw [lead, lead, if_pos signed, if_pos signed, if_pos negative, if_pos other]
    · rw [lead, lead, if_pos signed, if_pos signed, if_neg negative]
      by_cases plus : '+' ∈ directive.flags
      · rw [if_pos plus]
        split <;> exact Nat.le_refl _
      · by_cases space : ' ' ∈ directive.flags
        · rw [if_neg plus, if_pos space]
          split <;> exact Nat.le_refl _
        · rw [if_neg plus, if_neg space]
          exact Nat.zero_le _
  | false =>
    by_cases prefixed : '#' ∈ directive.flags ∧ directive.conversion.base = 16 ∧ first ≠ 0
    · have isMark : directive.conversion.letter ∈ ['-', 'x', 'X'] := by
        have hex := prefixed.2.1
        cases letter : directive.conversion <;> rw [letter] at hex <;> first | decide | cases hex
      have letter : directive.conversion.letter ∈ directive.lead first := by
        rw [lead, signed, if_neg Bool.false_ne_true, if_pos prefixed]
        exact List.mem_cons_of_mem _ (List.mem_singleton_self _)
      have other := (mem_format isMark).mp (inside _ letter)
      rw [lead, signed, if_neg Bool.false_ne_true, if_pos prefixed]
      rw [lead, signed, if_neg Bool.false_ne_true] at other ⊢
      by_cases both : '#' ∈ directive.flags ∧ directive.conversion.base = 16 ∧ second ≠ 0
      · rw [if_pos both]
      · rw [if_neg both] at other
        cases other
    · rw [lead, signed, if_neg Bool.false_ne_true, if_neg prefixed]
      exact Nat.zero_le _

/-- A text that is cut off determines the value, too, unless it is cut off early. -/
theorem format_take_injective {first second : Int} {limit : Nat} (enough : 25 ≤ limit) (word : first.natAbs < 2 ^ 64)
    (otherWord : second.natAbs < 2 ^ 64) (unsigned : directive.conversion.signed = false → 0 ≤ first ∧ 0 ≤ second)
    (same : (directive.format first).take limit = directive.format second) : first = second := by
  by_cases short : (directive.format first).length ≤ limit
  · rw [List.take_of_length_le short] at same
    exact format_injective unsigned same
  · exfalso
    have lengths := congrArg List.length same
    rw [List.length_take, Nat.min_eq_left (by omega), format_length] at lengths
    have start : directive.format first = directive.lead first ++ directive.body first := format_long (by omega)
    have leads := lead_le (by omega) unsigned start same
    have lead := directive.lead_length first
    obtain ⟨_, most⟩ := directive.body_length word
    obtain ⟨least, _⟩ := directive.body_length otherWord
    rw [start, List.length_append] at short
    omega

/-! ## Reading a directive -/

/-- The front of a list up to the first item that does not hold. -/
theorem takeWhile_stop {α : Type} {holds : α → Bool} {front : List α} (back : List α)
    (all : ∀ item ∈ front, holds item = true)
    (stop : ∀ item, back.head? = some item → holds item = false) :
    (front ++ back).takeWhile holds = front ∧ (front ++ back).dropWhile holds = back := by
  rw [List.takeWhile_append_of_pos all, List.dropWhile_append_of_pos all]
  cases back with
  | nil => simp
  | cons item rest => simp [stop item rfl]

/-- What follows the precision starts with a modifier or the letter. -/
theorem tail_head (wellFormed : directive.WellFormed) {character : Char}
    (first : (directive.modifiers ++ [directive.conversion.letter]).head? = some character) :
    character ∈ ['l', 'h', 'd', 'i', 'u', 'x', 'X', 'o'] := by
  cases modifiers : directive.modifiers with
  | nil =>
    rw [modifiers] at first
    cases first
    cases directive.conversion <;> decide
  | cons modifier rest =>
    rw [modifiers] at first
    cases first
    have known := wellFormed.modifiers character (by rw [modifiers]; exact List.mem_cons_self)
    simp only [isModifier, Bool.or_eq_true, beq_iff_eq] at known
    rcases known with rfl | rfl <;> decide

/-- The only flag among the digits is zero. -/
theorem isDigit_not_flag {digit : Char} (isDigit : digit.isDigit = true) (nonzero : digit ≠ '0') :
    isFlag digit = false := by
  rw [Bool.eq_false_iff]
  intro flag
  simp only [isFlag, List.contains_iff_mem, List.mem_cons, List.not_mem_nil, or_false] at flag
  rcases flag with rfl | rfl | rfl | rfl | rfl
  · exact absurd isDigit (by decide)
  · exact absurd isDigit (by decide)
  · exact absurd isDigit (by decide)
  · exact absurd isDigit (by decide)
  · exact nonzero rfl

/-- `snprintf` reads a directive as it is written. -/
theorem parse_render (wellFormed : directive.WellFormed) : parse directive.render = some directive := by
  have tailHead := fun character => @tail_head directive wellFormed character
  obtain ⟨flags, width, precision, modifiers, conversion⟩ := directive
  obtain ⟨flagsOk, widthOk, widthStart, precisionOk, modifiersOk, _⟩ := wellFormed
  simp only at *
  obtain ⟨tail, tailIs⟩ : ∃ tail, tail = modifiers ++ [conversion.letter] := ⟨_, rfl⟩
  rw [← tailIs] at tailHead
  have noDigit : ∀ character ∈ ['l', 'h', 'd', 'i', 'u', 'x', 'X', 'o'], character.isDigit = false :=
    List.forall_iff_forall_mem.mp ⟨rfl, rfl, rfl, rfl, rfl, rfl, rfl, rfl⟩
  have noFlag : ∀ character ∈ ['l', 'h', 'd', 'i', 'u', 'x', 'X', 'o'], isFlag character = false :=
    List.forall_iff_forall_mem.mp ⟨rfl, rfl, rfl, rfl, rfl, rfl, rfl, rfl⟩
  have ending := takeWhile_stop [conversion.letter] modifiersOk (fun character first => by
    cases first
    cases conversion <;> decide)
  have middle : ∀ digits, (∀ digit ∈ digits, digit.isDigit = true) →
      (digits ++ tail).takeWhile Char.isDigit = digits ∧ (digits ++ tail).dropWhile Char.isDigit = tail :=
    fun digits all => takeWhile_stop tail all (fun character first => noDigit character (tailHead character first))
  have flagsStop : ∀ rest, (∀ character, rest.head? = some character → isFlag character = false) →
      (flags ++ (width ++ rest)).takeWhile isFlag = flags ∧
        (flags ++ (width ++ rest)).dropWhile isFlag = width ++ rest := by
    intro rest stop
    refine takeWhile_stop (width ++ rest) flagsOk (fun character first => ?_)
    cases width with
    | nil => exact stop character first
    | cons digit others =>
      cases first
      exact isDigit_not_flag (widthOk _ List.mem_cons_self) (fun zero => widthStart (congrArg some zero))
  unfold render marks parse
  simp only [List.append_assoc, ← tailIs]
  cases precision with
  | none =>
    obtain ⟨taken, dropped⟩ := flagsStop tail (fun character first => noFlag character (tailHead character first))
    obtain ⟨wide, rest⟩ := middle width widthOk
    have noPoint : parsePrecision tail = (none, tail) := by
      unfold parsePrecision
      split
      · exact absurd (tailHead '.' rfl) (by decide)
      · rfl
    simp only [List.nil_append, taken, dropped, wide, rest, noPoint]
    rw [tailIs, ending.1, ending.2]
    simp only [Conversion.ofLetter_letter, Option.map_some]
  | some digits =>
    obtain ⟨taken, dropped⟩ := flagsStop ('.' :: (digits ++ tail)) (fun character first => by cases first; rfl)
    obtain ⟨wide, rest⟩ := takeWhile_stop ('.' :: (digits ++ tail)) widthOk
      (fun character first => by cases first; rfl)
    obtain ⟨exact', rest'⟩ := middle digits (precisionOk digits rfl)
    simp only [List.cons_append, taken, dropped, wide, rest, parsePrecision, exact', rest']
    rw [tailIs, ending.1, ending.2]
    simp only [Conversion.ofLetter_letter, Option.map_some]

end Directive

end SeriesxEmu
