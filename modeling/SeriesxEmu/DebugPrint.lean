import SeriesxEmu.IntegerFormats
import SeriesxEmu.XbeRam

/-!
# DbgPrint

`DbgPrint` reads a format string from guest memory and appends the text of one directive after the
other to a line. Integer conversions go through the `snprintf` of the host, into a buffer of 48
characters and with the length modifiers left in. A directive that is not wider than the clamp thus
has its complete text exactly when that has at most 47 characters and the modifiers do not matter.
Guest characters are bytes, written as the characters with these codes.
-/

namespace SeriesxEmu

/-- The loop of `read_cstr`, with the characters it may still take. -/
def XbeRam.readCstrFrom (ram : XbeRam) : Nat → Nat → List Char
  | 0, _ => []
  | room + 1, va =>
    match ram.readBytes va 1 with
    | some [byte] => if byte = 0 then [] else Char.ofNat byte.toNat :: ram.readCstrFrom room ((va + 1) % 2 ^ 32)
    | _ => []

/-- `read_cstr`. -/
def XbeRam.readCstr (ram : XbeRam) (va : Nat) : List Char := ram.readCstrFrom 4096 va

/-! ## The host -/

/-- A word read as a number of some bits. -/
def inBits (signed : Bool) (bits word : Nat) : Int :=
  if signed ∧ 2 ^ (bits - 1) ≤ word % 2 ^ bits then (word % 2 ^ bits : Nat) - 2 ^ bits else (word % 2 ^ bits : Nat)

/-- What the C standard leaves open: the high half of the place in which a 64-bit argument is looked
for when a 32-bit one was passed, and the text of a directive that is not defined. -/
structure Host where
  high : List Char → Nat → Nat
  unspecified : List Char → Nat → List Char

/-- The argument of a directive, in the type that its length modifiers ask for. -/
def Host.argument (host : Host) (directive : Directive) (text : List Char) (word : Nat) : Option Int :=
  match directive.modifiers with
  | [] => some (inBits directive.conversion.signed 32 word)
  | ['h'] => some (inBits directive.conversion.signed 16 word)
  | ['h', 'h'] => some (inBits directive.conversion.signed 8 word)
  | ['l'] | ['l', 'l'] => some (inBits directive.conversion.signed 64 (word % 2 ^ 32 + 2 ^ 32 * host.high text word))
  | _ => none

/-- The text of one directive for one argument of 32 bits. -/
def Host.text (host : Host) (text : List Char) (word : Nat) : List Char :=
  match text with
  | '%' :: spec =>
    match Directive.parse spec with
    | some directive =>
      if '#' ∈ directive.flags ∧ directive.conversion.base = 10 then host.unspecified text word
      else
        match host.argument directive text word with
        | some value => directive.format value
        | none => host.unspecified text word
    | none => host.unspecified text word
  | _ => host.unspecified text word

/-- `snprintf` into a buffer, of which the last character is the terminator. -/
def Host.snprintf (host : Host) (size : Nat) (text : List Char) (word : Nat) : List Char :=
  (host.text text word).take (size - 1)

/-! ## The kernel call -/

/-- The scan of `clamp_printf_spec`, with the digits of the run it is in. -/
def clampRun (run : List Char) : List Char → List Char
  | [] => if 64 < decimal run then ['6', '4'] else run
  | character :: rest =>
    if character.isDigit then clampRun (run ++ [character]) rest
    else (if 64 < decimal run then ['6', '4'] else run) ++ character :: clampRun [] rest

/-- `clamp_printf_spec`. -/
def clampPrintfSpec (raw : List Char) : List Char := clampRun [] raw

/-- The characters between the percent sign and the length modifiers. -/
def isMark (character : Char) : Bool := ['-', '+', ' ', '#', '0', '.'].contains character || character.isDigit

/-- The text of `%p`. -/
def pointerText (word : Nat) : List Char :=
  let directive : Directive :=
    { flags := ['0'], width := ['8'], precision := none, modifiers := [], conversion := .x }
  ('0' :: 'x' :: directive.format (inBits false 32 word)).take 15

/-- The switch of `DbgPrint`: what a conversion appends, and the arguments it leaves. -/
def dbgConversion (host : Host) (ram : XbeRam) (marks modifiers : List Char) (conv : Char) (args : List Nat) :
    List Char × List Nat :=
  let spec := clampPrintfSpec ('%' :: marks ++ modifiers)
  let v := args.headD 0
  if conv = 's' ∨ conv = 'S' then (if v ≠ 0 then ram.readCstr v else "(null)".toList, args.tail)
  else if conv = 'c' then ([Char.ofNat (v % 256)], args.tail)
  else if conv ∈ ['d', 'i', 'u', 'x', 'X', 'o'] then (host.snprintf 48 (spec ++ [conv]) v, args.tail)
  else if conv = 'p' then (pointerText v, args.tail)
  else ('%' :: marks ++ modifiers ++ [conv], args)

/-- What the loop of `DbgPrint` appends to the line, turn by turn. The arguments are those not yet taken. -/
def dbgChunks (host : Host) (ram : XbeRam) : Nat → List Char → List Nat → List (List Char)
  | 0, _, _ => []
  | _, [], _ => []
  | room + 1, first :: fmt, args =>
    if first ≠ '%' then [first] :: dbgChunks host ram room fmt args
    else if fmt.head? = some '%' then ['%'] :: dbgChunks host ram room fmt.tail args
    else
      let marks := fmt.takeWhile isMark
      let modifiers := (fmt.dropWhile isMark).takeWhile isModifier
      match (fmt.dropWhile isMark).dropWhile isModifier with
      | [] => ['%' :: fmt]
      | conv :: rest =>
        let (chunk, others) := dbgConversion host ram marks modifiers conv args
        chunk :: dbgChunks host ram room rest others

/-- `DbgPrint`: the line that is recorded, and the value returned. There is no result without a format. -/
def dbgPrint (host : Host) (ram : XbeRam) : List Nat → Option (List Char × Nat)
  | [] => none
  | format :: args =>
    let fmt := ram.readCstr format
    let out := (dbgChunks host ram fmt.length fmt args).flatten
    some (out, out.length % 2 ^ 32)

/-! ## Formats -/

/-- What a format is made of. -/
inductive Piece where
  | literal (plain : Char)
  | percent
  | string
  | character
  | pointer
  | number (directive : Directive)
deriving DecidableEq, Repr

namespace Piece

/-- A piece as it is written in a format. -/
def render : Piece → List Char
  | literal plain => [plain]
  | percent => ['%', '%']
  | string => ['%', 's']
  | character => ['%', 'c']
  | pointer => ['%', 'p']
  | number directive => '%' :: directive.render

/-- A piece that is written so that it is read as such. -/
def WellFormed : Piece → Prop
  | literal plain => plain ≠ '%'
  | number directive => directive.WellFormed
  | percent | string | character | pointer => True

/-- The piece is a conversion, which takes an argument. -/
def converts : Piece → Bool
  | literal _ | percent => false
  | string | character | pointer | number _ => true

end Piece

/-- The arguments go to the conversions in order, and zeros when there are none left. -/
def assigned : List Piece → List Nat → List (Piece × Nat)
  | [], _ => []
  | piece :: pieces, args =>
    if piece.converts then (piece, args.headD 0) :: assigned pieces args.tail else (piece, 0) :: assigned pieces args

namespace Directive

/-- Neither the width nor the precision is above the clamp. -/
def WithinLimits (directive : Directive) : Prop := directive.widthValue ≤ 64 ∧ directive.leastDigits ≤ 64

/-- The complete text of a 32-bit argument. -/
def complete (directive : Directive) (word : Nat) : List Char :=
  directive.format (inBits directive.conversion.signed 32 word)

/-- The complete text fits the buffer, and the argument is the same in the type of the length modifiers. -/
structure Prints (directive : Directive) (word : Nat) : Prop where
  room : max directive.widthValue ((directive.lead (inBits directive.conversion.signed 32 word)).length +
    (directive.body (inBits directive.conversion.signed 32 word)).length) ≤ 47
  type : directive.modifiers = [] ∨
    (directive.modifiers = ['h'] ∧
      inBits directive.conversion.signed 16 word = inBits directive.conversion.signed 32 word) ∨
    (directive.modifiers = ['h', 'h'] ∧
      inBits directive.conversion.signed 8 word = inBits directive.conversion.signed 32 word)

end Directive

/-- What a piece has to contribute to the line. -/
def Contributes (ram : XbeRam) : Piece → Nat → List Char → Prop
  | .literal plain, _, chunk => chunk = [plain]
  | .percent, _, chunk => chunk = ['%']
  | .string, word, chunk => chunk = if word ≠ 0 then ram.readCstr word else "(null)".toList
  | .character, word, chunk => chunk = [Char.ofNat (word % 256)]
  | .pointer, word, chunk => chunk = pointerText word
  | .number directive, word, chunk => directive.WithinLimits → chunk = directive.complete word

/-- The line is made of the contributions of all pieces with their arguments, and its length is returned. -/
structure Formats (host : Host) (ram : XbeRam) (format : Nat) (args : List Nat) (pieces : List Piece) : Prop where
  contributions : List.Forall₂ (fun assignment chunk => Contributes ram assignment.1 assignment.2 chunk)
    (assigned pieces args) (dbgChunks host ram (ram.readCstr format).length (ram.readCstr format) args)
  returns : dbgPrint host ram (format :: args) =
    some ((dbgChunks host ram (ram.readCstr format).length (ram.readCstr format) args).flatten,
      (dbgChunks host ram (ram.readCstr format).length (ram.readCstr format) args).flatten.length)

/-! ## One directive -/

/-- A value of so many bits is bounded. -/
theorem inBits_bounds (signed : Bool) {bits : Nat} (few : 0 < bits ∧ bits ≤ 64) (word : Nat) :
    (inBits signed bits word).natAbs < 2 ^ 64 ∧ (signed = false → 0 ≤ inBits signed bits word) := by
  have small : word % 2 ^ bits < 2 ^ bits := Nat.mod_lt _ (Nat.two_pow_pos bits)
  have most : 2 ^ bits ≤ 2 ^ 64 := Nat.pow_le_pow_right (by decide) few.2
  unfold inBits
  split
  · rename_i negative
    rw [negative.1]
    refine ⟨?_, by simp⟩
    have double : 2 ^ bits = 2 * 2 ^ (bits - 1) := by
      rw [← Nat.pow_succ', Nat.succ_eq_add_one, Nat.sub_add_cancel few.1]
    have push : ((2 : Int) ^ bits) = ((2 ^ bits : Nat) : Int) := by
      push_cast
      rfl
    omega
  · exact ⟨by omega, fun _ => Int.natCast_nonneg _⟩

/-- A run within the clamp is kept. -/
theorem clampRun_digits {digits : List Char} (all : ∀ digit ∈ digits, digit.isDigit = true) (run rest : List Char) :
    clampRun run (digits ++ rest) = clampRun (run ++ digits) rest := by
  induction digits generalizing run with
  | nil => rw [List.nil_append, List.append_nil]
  | cons digit digits inductionHypothesis =>
    rw [List.cons_append, clampRun, if_pos (all digit List.mem_cons_self),
      inductionHypothesis (fun other member => all other (List.mem_cons_of_mem _ member)), List.append_assoc,
      List.singleton_append]

/-- A run of digits that stays small is kept. -/
theorem clampRun_end {run : List Char} (small : decimal run ≤ 64) {rest : List Char}
    (others : ∀ character ∈ rest, character.isDigit = false) : clampRun run rest = run ++ rest := by
  induction rest generalizing run with
  | nil => rw [clampRun, if_neg (by omega), List.append_nil]
  | cons character rest inductionHypothesis =>
    rw [clampRun, if_neg (by rw [others character List.mem_cons_self]; decide), if_neg (by omega),
      inductionHypothesis (by decide) (fun other member => others other (List.mem_cons_of_mem _ member)),
      List.nil_append]

/-- Leading zeros do not count. -/
theorem decimal_append_zeros {zeros : List Char} (all : ∀ digit ∈ zeros, digit = '0') (digits : List Char) :
    decimal (zeros ++ digits) = decimal digits := by
  have start : zeros.foldl (fun value digit => 10 * value + (digit.toNat - 48)) 0 = 0 := by
    induction zeros with
    | nil => rfl
    | cons zero zeros inductionHypothesis =>
      obtain rfl := all zero List.mem_cons_self
      exact inductionHypothesis (fun digit member => all digit (List.mem_cons_of_mem _ member))
  rw [decimal, List.foldl_append, start, decimal]

/-- The scan keeps the flags, of which zeros may stay in its run. -/
theorem clampRun_flags {flags : List Char} (all : ∀ flag ∈ flags, isFlag flag = true) {run : List Char}
    (zeros : ∀ digit ∈ run, digit = '0') : ∃ done last, (∀ digit ∈ last, digit = '0') ∧ run ++ flags = done ++ last ∧
      ∀ rest, clampRun run (flags ++ rest) = done ++ clampRun last rest := by
  induction flags generalizing run with
  | nil => exact ⟨[], run, zeros, by rw [List.append_nil, List.nil_append], fun rest => rfl⟩
  | cons flag flags inductionHypothesis =>
    have others := fun other member => all other (List.mem_cons_of_mem flag member)
    by_cases zero : flag = '0'
    · have longer : ∀ digit ∈ run ++ [flag], digit = '0' := by
        intro digit member
        rcases List.mem_append.mp member with earlier | now
        · exact zeros digit earlier
        · exact (List.mem_singleton.mp now).trans zero
      obtain ⟨done, last, lastZeros, same, scan⟩ := inductionHypothesis others longer
      refine ⟨done, last, lastZeros, by rw [← same]; simp, fun rest => ?_⟩
      rw [List.cons_append, clampRun, if_pos (by rw [zero]; rfl), scan]
    · obtain ⟨done, last, lastZeros, same, scan⟩ :=
        inductionHypothesis others (fun digit member => absurd member List.not_mem_nil)
      have notDigit : flag.isDigit = false := by
        have known := all flag List.mem_cons_self
        simp only [isFlag, List.contains_iff_mem, List.mem_cons, List.not_mem_nil, or_false, zero] at known
        rcases known with rfl | rfl | rfl | rfl <;> rfl
      have small : decimal run = 0 := by
        have whole := decimal_append_zeros zeros []
        rwa [List.append_nil] at whole
      refine ⟨run ++ flag :: done, last, lastZeros, ?_, fun rest => ?_⟩
      · rw [List.append_assoc, List.cons_append, ← same, List.nil_append]
      · rw [List.cons_append, clampRun, if_neg (by rw [notDigit]; decide), if_neg (by omega), scan, List.append_assoc,
          List.cons_append]

namespace Directive

variable {directive : Directive} {word : Nat}

/-- A directive within the limits passes the clamp unchanged. -/
theorem clamp_eq (wellFormed : directive.WellFormed) (limits : directive.WithinLimits) :
    clampPrintfSpec ('%' :: directive.marks ++ directive.modifiers) =
      '%' :: directive.marks ++ directive.modifiers := by
  obtain ⟨wide, precise⟩ := limits
  obtain ⟨done, zeros, allZeros, same, scan⟩ := clampRun_flags wellFormed.flags
    (fun digit member => absurd member List.not_mem_nil : ∀ digit ∈ ([] : List Char), digit = '0')
  rw [List.nil_append] at same
  have modifiers : ∀ character ∈ directive.modifiers, character.isDigit = false := by
    intro character member
    have known := wellFormed.modifiers character member
    simp only [isModifier, Bool.or_eq_true, beq_iff_eq] at known
    rcases known with rfl | rfl <;> rfl
  have width : decimal (zeros ++ directive.width) ≤ 64 := by
    rw [decimal_append_zeros allZeros]
    exact wide
  have percent : clampPrintfSpec ('%' :: directive.marks ++ directive.modifiers) =
      '%' :: clampRun [] (directive.marks ++ directive.modifiers) := rfl
  rw [percent, List.cons_append, marks, same, List.cons_inj_right]
  cases precision : directive.precision with
  | none =>
    simp only [List.append_assoc, List.append_nil]
    rw [← List.append_assoc done, ← same, scan, clampRun_digits wellFormed.width, clampRun_end width modifiers, same]
    simp only [List.append_assoc]
  | some digits =>
    have fraction : decimal digits ≤ 64 := by
      simpa only [leastDigits, precision] using precise
    simp only [List.append_assoc, List.cons_append]
    rw [← List.append_assoc done, ← same, scan, clampRun_digits wellFormed.width, clampRun, if_neg (by decide),
      if_neg (by omega), clampRun_digits (wellFormed.precision digits precision), List.nil_append,
      clampRun_end fraction modifiers, same]
    simp only [List.append_assoc]

/-- What the host prints for a directive. -/
theorem text_eq (wellFormed : directive.WellFormed) (host : Host) (word : Nat) :
    host.text ('%' :: directive.render) word = match host.argument directive ('%' :: directive.render) word with
      | some value => directive.format value
      | none => host.unspecified ('%' :: directive.render) word := by
  have defined : ¬ ('#' ∈ directive.flags ∧ directive.conversion.base = 10) :=
    fun ⟨alternative, decimal⟩ => wellFormed.alternative alternative decimal
  simp only [Host.text, parse_render wellFormed, defined, ↓reduceIte]

/-- A text that is cut to the buffer and is complete is that of the same value. -/
theorem format_cut {first second : Int} (same : (directive.format first).take 47 = directive.format second)
    (firstBounds : first.natAbs < 2 ^ 64 ∧ (directive.conversion.signed = false → 0 ≤ first))
    (secondBounds : second.natAbs < 2 ^ 64 ∧ (directive.conversion.signed = false → 0 ≤ second)) : first = second :=
  format_take_injective (by decide) firstBounds.1 secondBounds.1
    (fun unsigned => ⟨firstBounds.2 unsigned, secondBounds.2 unsigned⟩) same

/-- With a half that is not zero, the wider argument is another number. -/
theorem wider_differs (signed : Bool) (word : Nat) :
    inBits signed 64 (word % 2 ^ 32 + 2 ^ 32 * 1) ≠ inBits signed 32 word := by
  have small : word % 2 ^ 32 < 2 ^ 32 := Nat.mod_lt _ (by decide)
  unfold inBits
  split <;> split <;> omega

/-- The buffer has the complete text, whatever the host, if and only if the text fits and the modifiers do
not change the argument. -/
theorem snprintf_complete_iff (wellFormed : directive.WellFormed) (word : Nat) :
    (∀ host : Host, host.snprintf 48 ('%' :: directive.render) word = directive.complete word) ↔
      directive.Prints word := by
  have bounds := fun bits few => @inBits_bounds directive.conversion.signed bits few word
  constructor
  · intro complete
    have cut : ∀ (host : Host) value, host.argument directive ('%' :: directive.render) word = some value →
        value.natAbs < 2 ^ 64 ∧ (directive.conversion.signed = false → 0 ≤ value) →
          value = inBits directive.conversion.signed 32 word := by
      intro host value argument small
      have same := complete host
      rw [Host.snprintf, text_eq wellFormed, argument] at same
      exact format_cut same small (bounds 32 (by decide))
    refine ⟨?_, ?_⟩
    · have short := congrArg List.length (complete { high := fun _ _ => 0, unspecified := fun _ _ => [] })
      rw [Host.snprintf, List.length_take, Directive.complete, format_length] at short
      omega
    · by_cases plain : directive.modifiers = []
      · exact Or.inl plain
      by_cases short : directive.modifiers = ['h']
      · exact Or.inr (Or.inl ⟨short, cut { high := fun _ _ => 0, unspecified := fun _ _ => [] } _
          (by simp only [Host.argument, short]) (bounds 16 (by decide))⟩)
      by_cases byte : directive.modifiers = ['h', 'h']
      · exact Or.inr (Or.inr ⟨byte, cut { high := fun _ _ => 0, unspecified := fun _ _ => [] } _
          (by simp only [Host.argument, byte]) (bounds 8 (by decide))⟩)
      exfalso
      by_cases wide : directive.modifiers = ['l'] ∨ directive.modifiers = ['l', 'l']
      · refine wider_differs directive.conversion.signed word
          (cut { high := fun _ _ => 1, unspecified := fun _ _ => [] } _ ?_ (inBits_bounds _ (by decide) _))
        rcases wide with long | long <;> simp only [Host.argument, long]
      · -- Two hosts may print different texts for a directive that is not defined.
        have undefined : ∀ host : Host, host.argument directive ('%' :: directive.render) word = none := by
          intro host
          unfold Host.argument
          split
          · exact absurd ‹_› plain
          · exact absurd ‹_› short
          · exact absurd ‹_› byte
          · exact absurd (Or.inl ‹_›) wide
          · exact absurd (Or.inr ‹_›) wide
          · rfl
        have first := complete { high := fun _ _ => 0, unspecified := fun _ _ => [] }
        have second := complete { high := fun _ _ => 0, unspecified := fun _ _ => ['?'] }
        rw [Host.snprintf, text_eq wellFormed, undefined] at first second
        exact List.cons_ne_nil _ _ (second.trans first.symm)
  · rintro ⟨room, type⟩ host
    have argument : host.argument directive ('%' :: directive.render) word =
        some (inBits directive.conversion.signed 32 word) := by
      rcases type with plain | ⟨short, same⟩ | ⟨byte, same⟩
      · simp only [Host.argument, plain]
      · simp only [Host.argument, short, same]
      · simp only [Host.argument, byte, same]
    rw [Host.snprintf, text_eq wellFormed, argument]
    exact List.take_of_length_le (by rw [format_length]; exact room)

end Directive

/-! ## The whole line -/

/-- What the loop appends for a piece. -/
def Piece.chunk (host : Host) (ram : XbeRam) : Piece → Nat → List Char
  | literal plain, _ => [plain]
  | percent, _ => ['%']
  | string, word => if word ≠ 0 then ram.readCstr word else "(null)".toList
  | character, word => [Char.ofNat (word % 256)]
  | pointer, word => pointerText word
  | number directive, word => host.snprintf 48
      (clampPrintfSpec ('%' :: directive.marks ++ directive.modifiers) ++ [directive.conversion.letter]) word

/-- The marks of a directive are those of a specification. -/
theorem marks_isMark {directive : Directive} (wellFormed : directive.WellFormed) :
    ∀ mark ∈ directive.marks, isMark mark = true := by
  have digits : ∀ digit : Char, digit.isDigit = true → isMark digit = true := by
    intro digit isDigit
    rw [isMark, isDigit, Bool.or_true]
  intro mark member
  rw [Directive.marks, List.append_assoc, List.mem_append, List.mem_append] at member
  rcases member with flag | width | precision
  · have known := wellFormed.flags mark flag
    simp only [isFlag, List.contains_iff_mem, List.mem_cons, List.not_mem_nil, or_false] at known
    rcases known with rfl | rfl | rfl | rfl | rfl <;> rfl
  · exact digits mark (wellFormed.width mark width)
  · cases some : directive.precision with
    | none =>
      rw [some] at precision
      cases precision
    | some fraction =>
      rw [some] at precision
      rcases List.mem_cons.mp precision with rfl | inside
      · rfl
      · exact digits mark (wellFormed.precision fraction some mark inside)

/-- The scan of a turn finds the marks, the modifiers and the letter of a directive. -/
theorem scan_directive {directive : Directive} (wellFormed : directive.WellFormed) (rest : List Char) :
    (directive.render ++ rest).takeWhile isMark = directive.marks ∧
      ((directive.render ++ rest).dropWhile isMark).takeWhile isModifier = directive.modifiers ∧
      ((directive.render ++ rest).dropWhile isMark).dropWhile isModifier = directive.conversion.letter :: rest := by
  have whole : directive.render ++ rest =
      directive.marks ++ (directive.modifiers ++ directive.conversion.letter :: rest) := by
    simp only [Directive.render, List.append_assoc, List.singleton_append]
  have marks := Directive.takeWhile_stop (directive.modifiers ++ directive.conversion.letter :: rest)
    (marks_isMark wellFormed) (fun character first => by
      have inTail : (directive.modifiers ++ [directive.conversion.letter]).head? = some character := by
        rw [← first]
        cases directive.modifiers <;> rfl
      have noMark : ∀ character ∈ ['l', 'h', 'd', 'i', 'u', 'x', 'X', 'o'], isMark character = false :=
        List.forall_iff_forall_mem.mp ⟨rfl, rfl, rfl, rfl, rfl, rfl, rfl, rfl⟩
      exact noMark character (Directive.tail_head wellFormed inTail))
  have modifiers := Directive.takeWhile_stop (directive.conversion.letter :: rest) wellFormed.modifiers
    (fun character first => by
      cases first
      cases directive.conversion <;> decide)
  rw [whole, marks.1, marks.2]
  exact ⟨rfl, modifiers⟩

/-- A turn for a conversion goes by what the scan finds. -/
theorem dbgChunks_conversion (host : Host) (ram : XbeRam) (room : Nat) {fmt marks modifiers rest : List Char}
    {conv : Char} (args : List Nat) (start : fmt.head? ≠ some '%') (scan : fmt.takeWhile isMark = marks ∧
      (fmt.dropWhile isMark).takeWhile isModifier = modifiers ∧
        (fmt.dropWhile isMark).dropWhile isModifier = conv :: rest) :
    dbgChunks host ram (room + 1) ('%' :: fmt) args =
      (dbgConversion host ram marks modifiers conv args).1 ::
        dbgChunks host ram room rest (dbgConversion host ram marks modifiers conv args).2 := by
  obtain ⟨rfl, rfl, behind⟩ := scan
  simp only [dbgChunks, ne_eq, not_true_eq_false, ↓reduceIte, start, behind]

/-- The loop appends one chunk for each piece, with the argument that is assigned to it. -/
theorem dbgChunks_render (host : Host) (ram : XbeRam) {pieces : List Piece}
    (wellFormed : ∀ piece ∈ pieces, piece.WellFormed) (args : List Nat) {room : Nat}
    (enough : (pieces.flatMap Piece.render).length ≤ room) :
    dbgChunks host ram room (pieces.flatMap Piece.render) args =
      (assigned pieces args).map (fun assignment => assignment.1.chunk host ram assignment.2) := by
  induction pieces generalizing args room with
  | nil => cases room <;> rfl
  | cons piece pieces inductionHypothesis =>
    have first := wellFormed piece List.mem_cons_self
    have others := fun other member => wellFormed other (List.mem_cons_of_mem piece member)
    have positive : 0 < piece.render.length := by
      cases piece <;> simp [Piece.render]
    rw [List.flatMap_cons, List.length_append] at enough
    obtain ⟨less, rfl⟩ : ∃ less, room = less + 1 := ⟨room - 1, by omega⟩
    have next := fun args => @inductionHypothesis others args less (by omega)
    rw [List.flatMap_cons]
    cases piece with
    | literal plain =>
      have notPercent : plain ≠ '%' := first
      simp only [Piece.render, List.singleton_append, dbgChunks, notPercent, ne_eq, not_false_eq_true, ↓reduceIte, next,
        assigned, Piece.converts, Bool.false_eq_true, List.map_cons, Piece.chunk]
    | percent =>
      simp only [Piece.render, List.cons_append, List.nil_append, dbgChunks, ne_eq, not_true_eq_false, ↓reduceIte,
        List.head?_cons, List.tail_cons, next, assigned, Piece.converts, Bool.false_eq_true, List.map_cons, Piece.chunk]
    | number directive =>
      obtain ⟨marks, modifiers, behind⟩ := scan_directive first (pieces.flatMap Piece.render)
      have notPercent : (directive.render ++ pieces.flatMap Piece.render).head? ≠ some '%' := by
        intro percent
        obtain ⟨tail, start⟩ : ∃ tail, directive.render ++ pieces.flatMap Piece.render = '%' :: tail := by
          cases text : directive.render ++ pieces.flatMap Piece.render with
          | nil =>
            rw [text] at percent
            cases percent
          | cons head tail =>
            rw [text] at percent
            cases percent
            exact ⟨tail, rfl⟩
        rw [start] at behind
        have letter := (List.cons.inj behind).1
        cases conversion : directive.conversion <;> rw [conversion] at letter <;> revert letter <;> decide
      have others : directive.conversion.letter ≠ 's' ∧ directive.conversion.letter ≠ 'S' ∧
          directive.conversion.letter ≠ 'c' ∧ directive.conversion.letter ∈ ['d', 'i', 'u', 'x', 'X', 'o'] := by
        cases directive.conversion <;> decide
      rw [Piece.render, List.cons_append, dbgChunks_conversion host ram less args notPercent ⟨marks, modifiers, behind⟩,
        next]
      simp only [dbgConversion, others, or_self, ↓reduceIte, assigned, Piece.converts, List.map_cons, Piece.chunk]
    | string | character | pointer =>
      refine (dbgChunks_conversion host ram less args (fun percent => ?_) ⟨rfl, rfl, rfl⟩).trans ?_
      · exact absurd (Option.some.inj percent) (by decide)
      · exact congrArg (List.cons _) (next args.tail)

/-- A string is no longer than there is room. -/
theorem readCstrFrom_length (ram : XbeRam) (room va : Nat) : (ram.readCstrFrom room va).length ≤ room := by
  induction room generalizing va with
  | zero => exact Nat.le_refl _
  | succ room inductionHypothesis =>
    unfold XbeRam.readCstrFrom
    split
    · split
      · exact Nat.zero_le _
      · exact Nat.succ_le_succ (inductionHypothesis _)
    · exact Nat.zero_le _

/-- A piece prints at most 4096 characters. -/
theorem chunk_length (host : Host) (ram : XbeRam) (piece : Piece) (word : Nat) :
    (piece.chunk host ram word).length ≤ 4096 := by
  cases piece with
  | literal | percent | character => exact Nat.le_trans (Nat.le_of_eq rfl) (by decide : 1 ≤ 4096)
  | string =>
    simp only [Piece.chunk]
    split
    · exact readCstrFrom_length ram 4096 word
    · decide
  | pointer => exact Nat.le_trans (List.length_take_le 15 _) (by decide)
  | number directive => exact Nat.le_trans (List.length_take_le 47 _) (by decide)

/-- Every piece is given a word. -/
theorem assigned_length (pieces : List Piece) (args : List Nat) : (assigned pieces args).length = pieces.length := by
  induction pieces generalizing args with
  | nil => rfl
  | cons piece pieces inductionHypothesis =>
    unfold assigned
    split <;> rw [List.length_cons, List.length_cons, inductionHypothesis]

/-- Only pieces of the format are. -/
theorem mem_assigned {pieces : List Piece} {args : List Nat} {assignment : Piece × Nat}
    (inside : assignment ∈ assigned pieces args) : assignment.1 ∈ pieces := by
  induction pieces generalizing args with
  | nil => cases inside
  | cons piece pieces inductionHypothesis =>
    unfold assigned at inside
    split at inside <;> rcases List.mem_cons.mp inside with rfl | later
    · exact List.mem_cons_self
    · exact List.mem_cons_of_mem _ (inductionHypothesis later)
    · exact List.mem_cons_self
    · exact List.mem_cons_of_mem _ (inductionHypothesis later)

/-- A format is at least as long as it has pieces. -/
theorem pieces_length (pieces : List Piece) : pieces.length ≤ (pieces.flatMap Piece.render).length := by
  induction pieces with
  | nil => exact Nat.le_refl _
  | cons piece pieces inductionHypothesis =>
    have positive : 0 < piece.render.length := by
      cases piece <;> simp [Piece.render]
    rw [List.flatMap_cons, List.length_append, List.length_cons]
    omega

/-- The line is far shorter than 2^32 characters. -/
theorem line_length (host : Host) (ram : XbeRam) (assignments : List (Piece × Nat)) (few : assignments.length ≤ 4096) :
    (assignments.map (fun assignment => assignment.1.chunk host ram assignment.2)).flatten.length < 2 ^ 32 := by
  have bound : (assignments.map (fun assignment => assignment.1.chunk host ram assignment.2)).flatten.length ≤
      assignments.length * 4096 := by
    clear few
    induction assignments with
    | nil => exact Nat.le_refl _
    | cons assignment assignments inductionHypothesis =>
      have one := chunk_length host ram assignment.1 assignment.2
      rw [List.map_cons, List.flatten_cons, List.length_append, List.length_cons]
      omega
  have most := Nat.mul_le_mul_right 4096 few
  omega

/-- Every piece but a conversion of an integer contributes what it should, and such a conversion does if it
is within the limits and `snprintf` gives its complete text. -/
theorem contributes_chunk {host : Host} {ram : XbeRam} {piece : Piece} (wellFormed : piece.WellFormed) (word : Nat) :
    Contributes ram piece word (piece.chunk host ram word) ↔ ∀ directive, piece = .number directive →
      directive.WithinLimits → host.snprintf 48 ('%' :: directive.render) word = directive.complete word := by
  cases piece with
  | number directive =>
    have clamped : ∀ limits : directive.WithinLimits, Piece.chunk host ram (.number directive) word =
        host.snprintf 48 ('%' :: directive.render) word := fun limits => by
      rw [Piece.chunk, Directive.clamp_eq wellFormed limits]
      rfl
    constructor
    · intro contributes other same limits
      obtain rfl := Piece.number.inj same
      rw [← clamped limits]
      exact contributes limits
    · intro prints limits
      rw [clamped limits]
      exact prints directive rfl limits
  | literal | percent | string | character | pointer =>
    exact iff_of_true rfl (fun directive same => by cases same)

/-- **DbgPrint.** Whatever the host does where the C standard leaves it a choice, the line is made of the
contributions of all pieces, if and only if every integer conversion within the limits fits the buffer with
its complete text and has no length modifiers that change its argument.

Proof: the chunks of the line are the contributions of its directives. A number contributes what it
asks for exactly when the buffer holds its complete text and its modifiers change nothing. -/
theorem formats_iff (ram : XbeRam) (format : Nat) (args : List Nat) (pieces : List Piece)
    (wellFormed : ∀ piece ∈ pieces, piece.WellFormed) (read : ram.readCstr format = pieces.flatMap Piece.render) :
    (∀ host : Host, Formats host ram format args pieces) ↔
      ∀ directive word, (Piece.number directive, word) ∈ assigned pieces args → directive.WithinLimits →
        directive.Prints word := by
  have few : (assigned pieces args).length ≤ 4096 := by
    have short := readCstrFrom_length ram 4096 format
    have each := pieces_length pieces
    rw [assigned_length]
    rw [← read] at each
    exact Nat.le_trans each short
  have chunks := fun host => dbgChunks_render host ram wellFormed args (Nat.le_refl _)
  have member : ∀ assignment ∈ assigned pieces args, assignment.1.WellFormed := fun assignment inside =>
    wellFormed assignment.1 (mem_assigned inside)
  have each : (∀ host : Host, Formats host ram format args pieces) ↔ ∀ host : Host,
      ∀ assignment ∈ assigned pieces args, ∀ directive, assignment.1 = .number directive → directive.WithinLimits →
        host.snprintf 48 ('%' :: directive.render) assignment.2 = directive.complete assignment.2 := by
    refine forall_congr' (fun host => ?_)
    have contributions : List.Forall₂ (fun assignment chunk => Contributes ram assignment.1 assignment.2 chunk)
        (assigned pieces args) ((assigned pieces args).map (fun assignment =>
          assignment.1.chunk host ram assignment.2)) ↔ ∀ assignment ∈ assigned pieces args, ∀ directive,
            assignment.1 = .number directive → directive.WithinLimits →
              host.snprintf 48 ('%' :: directive.render) assignment.2 = directive.complete assignment.2 := by
      rw [List.forall₂_map_right_iff, List.forall₂_same]
      exact forall₂_congr (fun assignment inside => contributes_chunk (member assignment inside) assignment.2)
    rw [← contributions]
    have returns := line_length host ram (assigned pieces args) few
    have lines := chunks host
    rw [← read] at lines
    constructor
    · rintro ⟨contributes, _⟩
      rwa [lines] at contributes
    · intro contributes
      refine ⟨by rwa [lines], ?_⟩
      rw [dbgPrint, lines]
      simp only [Nat.mod_eq_of_lt returns]
  rw [each]
  constructor
  · intro complete directive word inside limits
    exact (Directive.snprintf_complete_iff (member _ inside) word).mp
      (fun host => complete host _ inside directive rfl limits)
  · rintro prints host ⟨_, word⟩ inside directive rfl limits
    exact (Directive.snprintf_complete_iff (member _ inside) word).mpr (prints directive word inside limits) host

/-- A window that holds a format from its start on. -/
def formatWindow (text : List Char) : XbeRam :=
  { committed := fun _ => true, bytes := fun address => (text.getD address (Char.ofNat 0)).toNat.toUInt8 }

/-- `%5d` or the like, with any width of decimal digits that starts with a digit other than zero. -/
def decimalField (width : List Char) : Directive :=
  { flags := [], width, precision := none, modifiers := [], conversion := .d }

/-- A decimal conversion with a width is well formed. -/
theorem decimalField_wellFormed {width : List Char} (digits : ∀ digit ∈ width, digit.isDigit = true)
    (start : width.head? ≠ some '0') : (decimalField width).WellFormed where
  flags _ member := absurd member List.not_mem_nil
  width := digits
  widthStart := start
  precision _ none := by cases none
  modifiers _ member := absurd member List.not_mem_nil
  alternative member := absurd member List.not_mem_nil

/-- With a field of five characters the line is formatted as asked. -/
theorem narrowField_formats :
    (∀ host : Host, Formats host (formatWindow ['%', '5', 'd', '!']) 0 [7]
      [.number (decimalField ['5']), .literal '!']) ↔
      ∀ directive word, (Piece.number directive, word) ∈
        assigned [.number (decimalField ['5']), .literal '!'] [7] → directive.WithinLimits → directive.Prints word := by
  refine formats_iff (formatWindow ['%', '5', 'd', '!']) 0 [7] [.number (decimalField ['5']), .literal '!'] ?_
    (by decide +kernel)
  intro piece member
  simp only [List.mem_cons, List.not_mem_nil, or_false] at member
  rcases member with rfl | rfl
  · exact decimalField_wellFormed (List.forall_mem_singleton.mpr rfl) (by decide)
  · exact (by decide : '!' ≠ '%')

/-- Of a field of sixty characters the buffer holds 47, without the digit. -/
theorem wideField_cut : ¬ ∀ (ram : XbeRam) (format : Nat) (args : List Nat) (pieces : List Piece),
    (∀ piece ∈ pieces, piece.WellFormed) → ram.readCstr format = pieces.flatMap Piece.render →
      ∀ host : Host, Formats host ram format args pieces := by
  intro always
  have wellFormed : ∀ piece ∈ [Piece.number (decimalField ['6', '0'])], piece.WellFormed := by
    intro piece member
    obtain rfl := List.mem_singleton.mp member
    exact decimalField_wellFormed (List.forall_iff_forall_mem.mp ⟨rfl, rfl⟩) (by decide)
  have formats := always (formatWindow ['%', '6', '0', 'd']) 0 [5] [.number (decimalField ['6', '0'])] wellFormed
    (by decide +kernel) { high := fun _ _ => 0, unspecified := fun _ _ => [] }
  have chunks : dbgChunks { high := fun _ _ => 0, unspecified := fun _ _ => [] } (formatWindow ['%', '6', '0', 'd'])
      ((formatWindow ['%', '6', '0', 'd']).readCstr 0).length ((formatWindow ['%', '6', '0', 'd']).readCstr 0) [5] =
        [List.replicate 47 ' '] := by
    decide +kernel
  have contributions := formats.contributions
  rw [chunks] at contributions
  cases contributions with
  | cons first _ =>
    have whole : List.replicate 47 ' ' = (decimalField ['6', '0']).complete 5 := first ⟨by decide, by decide⟩
    exact absurd (congrArg List.length whole) (by decide +kernel)

end SeriesxEmu
