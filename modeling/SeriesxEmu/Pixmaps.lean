import Mathlib.Data.List.Basic

/-!
# Binary pixmaps

The binary format of portable pixmaps: the letters P6, the width, the height and the largest value
in decimal, each after blanks, one blank, and three bytes for every pixel, row by row. The reader
accepts every header of that form; the writer is read back.
-/

namespace SeriesxEmu.Pixmaps

/-! ## Rows of equal length -/

section rows
variable {α β : Type} {width : Nat} {row : α → List β}

/-- Rows of equal length fill a rectangle. -/
theorem rows_length (items : List α) (even : ∀ item ∈ items, (row item).length = width) :
    (items.flatMap row).length = items.length * width := by
  induction items with
  | nil => simp
  | cons first rest hypothesis =>
    have others := hypothesis fun item member => even item (List.mem_cons_of_mem _ member)
    rw [List.flatMap_cons, List.length_append, others, even first List.mem_cons_self, List.length_cons, Nat.succ_mul,
      Nat.add_comm]

/-- A part of a row is found behind the rows before it. -/
theorem rows_part (items : List α) (even : ∀ item ∈ items, (row item).length = width) {index : Nat}
    (inside : index < items.length) {start count : Nat} (part : start + count ≤ width) :
    ((items.flatMap row).drop (index * width + start)).take count = ((row items[index]).drop start).take count := by
  induction items generalizing index with
  | nil => cases inside
  | cons first rest hypothesis =>
    have long : (row first).length = width := even first List.mem_cons_self
    cases index with
    | zero =>
      rw [List.flatMap_cons, Nat.zero_mul, Nat.zero_add, List.drop_append_of_le_length (by omega),
        List.take_append_of_le_length (by rw [List.length_drop]; omega), List.getElem_cons_zero]
    | succ index =>
      have past : (index + 1) * width + start = (row first).length + (index * width + start) := by
        rw [long, Nat.succ_mul]
        omega
      rw [List.flatMap_cons, past, List.drop_length_add_append, List.getElem_cons_succ]
      exact hypothesis (fun item member => even item (List.mem_cons_of_mem _ member)) (Nat.lt_of_succ_lt_succ inside)

end rows

/-! ## Decimal numbers -/

/-- The bytes of a text. -/
def ascii (text : List Char) : List UInt8 := text.map (fun character => UInt8.ofNat character.toNat)

/-- A byte is a decimal digit. -/
def isDigit (byte : UInt8) : Bool := 48 ≤ byte.toNat && byte.toNat ≤ 57

/-- Blank, tab, newline, vertical tab, form feed and carriage return. -/
def isBlank (byte : UInt8) : Bool := byte.toNat == 32 || 9 ≤ byte.toNat && byte.toNat ≤ 13

/-- The number in front, and what follows its digits. -/
def number (bytes : List UInt8) : Option (Nat × List UInt8) :=
  if (bytes.takeWhile isDigit).isEmpty then none
  else some ((bytes.takeWhile isDigit).foldl (fun value digit => 10 * value + (digit.toNat - 48)) 0,
    bytes.dropWhile isDigit)

/-- At least one blank, and then a number. -/
def field (bytes : List UInt8) : Option (Nat × List UInt8) :=
  if (bytes.takeWhile isBlank).isEmpty then none else number (bytes.dropWhile isBlank)

/-- The decimal digits of a number. -/
def decimal (value : Nat) : List UInt8 := ascii (Nat.toDigits 10 value)

/-- A digit's character and its byte have the same code. -/
theorem toNat_of_digit {digit : Char} (decimal : digit.isDigit = true) :
    (UInt8.ofNat digit.toNat).toNat = digit.toNat ∧ 48 ≤ digit.toNat ∧ digit.toNat ≤ 57 := by
  rw [Char.isDigit, Bool.and_eq_true, decide_eq_true_eq, decide_eq_true_eq] at decimal
  have low : 48 ≤ digit.toNat := UInt32.le_iff_toNat_le.mp decimal.1
  have high : digit.toNat ≤ 57 := UInt32.le_iff_toNat_le.mp decimal.2
  exact ⟨UInt8.toNat_ofNat_of_lt' (by omega : digit.toNat < 256), low, high⟩

/-- Digits become bytes that are digits, and the number read from them is the same. -/
theorem ascii_digits {digits : List Char} (decimal : ∀ digit ∈ digits, digit.isDigit = true) :
    (∀ byte ∈ ascii digits, isDigit byte = true) ∧ ∀ value,
      (ascii digits).foldl (fun value digit => 10 * value + (digit.toNat - 48)) value =
        Nat.ofDigitChars 10 digits value := by
  induction digits with
  | nil => exact ⟨by simp [ascii], fun value => by simp [ascii]⟩
  | cons digit rest hypothesis =>
    obtain ⟨others, folded⟩ := hypothesis fun other member => decimal other (List.mem_cons_of_mem _ member)
    obtain ⟨same, low, high⟩ := toNat_of_digit (decimal digit List.mem_cons_self)
    have first : isDigit (UInt8.ofNat digit.toNat) = true := by
      rw [isDigit, same, Bool.and_eq_true, decide_eq_true_eq, decide_eq_true_eq]
      exact ⟨low, high⟩
    constructor
    · intro byte member
      rcases List.mem_cons.mp member with rfl | later
      · exact first
      · exact others byte later
    · intro value
      have step := folded (10 * value + (digit.toNat - 48))
      simp only [ascii, List.map_cons, List.foldl_cons, same, Nat.ofDigitChars_cons] at step ⊢
      exact step

/-- The decimal text of a number has digits only. -/
theorem digits_decimal (value : Nat) : ∀ digit ∈ Nat.toDigits 10 value, digit.isDigit = true := fun _ member =>
  Nat.isDigit_of_mem_toDigits (by decide) (by decide) member

/-- A decimal text is read back, whatever follows that is no digit. -/
theorem number_decimal (value : Nat) {rest : List UInt8} (ends : ∀ byte ∈ rest.head?, isDigit byte = false) :
    number (decimal value ++ rest) = some (value, rest) := by
  obtain ⟨digits, folded⟩ := ascii_digits (digits_decimal value)
  have rest_ : rest.takeWhile isDigit = [] ∧ rest.dropWhile isDigit = rest := by
    cases rest with
    | nil => exact ⟨rfl, rfl⟩
    | cons next others =>
      have stop : isDigit next = false := ends next rfl
      exact ⟨List.takeWhile_cons_of_neg (by simp [stop]), List.dropWhile_cons_of_neg (by simp [stop])⟩
  have taken : (decimal value ++ rest).takeWhile isDigit = decimal value := by
    rw [decimal, List.takeWhile_append_of_pos digits, rest_.1, List.append_nil]
  have left : (decimal value ++ rest).dropWhile isDigit = rest := by
    rw [decimal, List.dropWhile_append_of_pos digits, rest_.2]
  have nonEmpty : (decimal value).isEmpty = false := by
    rw [decimal, ascii, List.isEmpty_map, List.isEmpty_eq_false_iff]
    exact Nat.toDigits_ne_nil
  rw [number, taken, left, nonEmpty, if_neg Bool.false_ne_true, decimal, folded, Nat.ofDigitChars_ten_toDigits]

/-- A digit is no blank. -/
theorem not_blank {byte : UInt8} (digit : isDigit byte = true) : isBlank byte = false := by
  rw [isDigit, Bool.and_eq_true, decide_eq_true_eq, decide_eq_true_eq] at digit
  simp only [isBlank, Bool.or_eq_false_iff, beq_eq_false_iff_ne, Bool.and_eq_false_iff, decide_eq_false_iff_not]
  omega

/-- A number behind a blank is read back, up to the first byte that is no digit. -/
theorem field_decimal (value : Nat) {blank : UInt8} {rest : List UInt8} (separates : isBlank blank = true)
    (ends : ∀ byte ∈ rest.head?, isDigit byte = false) :
    field (blank :: (decimal value ++ rest)) = some (value, rest) := by
  have digits := (ascii_digits (digits_decimal value)).1
  have whole : (decimal value ++ rest).dropWhile isBlank = decimal value ++ rest := by
    cases text : decimal value with
    | nil =>
      rw [decimal, ascii, List.map_eq_nil_iff] at text
      exact absurd text Nat.toDigits_ne_nil
    | cons first others =>
      have member : first ∈ decimal value := text ▸ List.mem_cons_self
      have plain : isBlank first = false := not_blank (digits first member)
      rw [List.cons_append, List.dropWhile_cons_of_neg (by simp [plain])]
  rw [field, List.takeWhile_cons_of_pos separates, List.dropWhile_cons_of_pos separates, whole, List.isEmpty_cons,
    if_neg Bool.false_ne_true, number_decimal value ends]

/-! ## Files -/

/-- A pixmap, as a binary file holds it. -/
structure Pixmap where
  width : Nat
  height : Nat
  maximum : Nat
  raster : List UInt8
deriving DecidableEq, Repr

namespace Pixmap

/-- As many bytes as the dimensions say. -/
def Whole (pixmap : Pixmap) : Prop := pixmap.raster.length = 3 * pixmap.width * pixmap.height

instance (pixmap : Pixmap) : Decidable pixmap.Whole := inferInstanceAs (Decidable (_ = _))

/-- Red, green and blue of a pixel. -/
def pixel (pixmap : Pixmap) (x y : Nat) : List UInt8 := (pixmap.raster.drop (y * (3 * pixmap.width) + 3 * x)).take 3

/-- The file of a pixmap: the header and the raster. -/
def write (pixmap : Pixmap) : List UInt8 :=
  ascii ['P', '6', '\n'] ++ decimal pixmap.width ++ ascii [' '] ++ decimal pixmap.height ++ ascii ['\n'] ++
    decimal pixmap.maximum ++ ascii ['\n'] ++ pixmap.raster

/-- The raster after its blank. -/
def body (width height maximum : Nat) : List UInt8 → Option Pixmap
  | [] => none
  | blank :: raster =>
    if isBlank blank && decide (Whole { width, height, maximum, raster }) then
      some { width, height, maximum, raster }
    else none

/-- The pixmap that a file holds. -/
def read : List UInt8 → Option Pixmap
  | 80 :: 54 :: bytes =>
    (field bytes).bind fun width => (field width.2).bind fun height => (field height.2).bind fun maximum =>
      body width.1 height.1 maximum.1 maximum.2
  | _ => none

/-- **Round trip.** -/
theorem read_write {pixmap : Pixmap} (whole : pixmap.Whole) : read pixmap.write = some pixmap := by
  have file : pixmap.write = 80 :: 54 :: (10 :: (decimal pixmap.width ++ (32 :: (decimal pixmap.height ++
      (10 :: (decimal pixmap.maximum ++ (10 :: pixmap.raster))))))) := by
    simp only [write, List.append_assoc]
    rfl
  have next (byte : UInt8) (bytes : List UInt8) (other : isDigit byte = false) :
      ∀ first ∈ (byte :: bytes).head?, isDigit first = false := by
    intro first same
    rw [← Option.some.inj same]
    exact other
  rw [file, read, field_decimal pixmap.width (by decide) (next _ _ (by decide)), Option.bind_some,
    field_decimal pixmap.height (by decide) (next _ _ (by decide)), Option.bind_some,
    field_decimal pixmap.maximum (by decide) (next _ _ (by decide)), Option.bind_some, body]
  rw [if_pos (by rw [decide_eq_true whole]; decide)]

end Pixmap

end SeriesxEmu.Pixmaps
