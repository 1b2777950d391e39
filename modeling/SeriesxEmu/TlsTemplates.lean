import SeriesxEmu.ParseGuarantees

/-!
# The TLS template

`tls_template` sizes its vector by a 32-bit sum of two values that the parser checks, and of the
zero fill, which it does not. The copy behind it takes its length from the first two alone. Where
the sum wraps the vector is too short, and the copy runs past its end.
-/

namespace SeriesxEmu

namespace TlsDirectory

/-- `raw_size`. -/
def rawSize (tls : TlsDirectory) : Nat := (tls.dataEnd + 2 ^ 32 - tls.dataStart) % 2 ^ 32

end TlsDirectory

/-- A vector, and how many bytes `memcpy` has written from its start. The vector shows those that
lie inside it. -/
structure Template where
  bytes : List UInt8
  copied : Nat
deriving DecidableEq, Repr

namespace LoadedXbe

open XbeImage

/-- `tls_template`. -/
def tlsTemplate (loaded : LoadedXbe) : Template :=
  if !loaded.image.tlsPresent then { bytes := [], copied := 0 }
  else
    let t := loaded.image.tls
    let out := List.replicate ((t.rawSize + t.zeroFill) % 2 ^ 32) (0 : UInt8)
    if 0 < t.rawSize then
      match loaded.ram.readBytes t.dataStart t.rawSize with
      | none => { bytes := [], copied := 0 }
      | some source =>
        { bytes := source.take out.length ++ out.drop source.length, copied := source.length }
    else { bytes := out, copied := 0 }

/-- The length of the template without its fill. -/
def templateSize (loaded : LoadedXbe) : Nat := loaded.image.tls.dataEnd - loaded.image.tls.dataStart

/-- The template range can be read. -/
def TemplateReadable (loaded : LoadedXbe) : Prop :=
  loaded.ram.readable loaded.image.tls.dataStart loaded.templateSize = true

/-- The vector is the whole template. -/
structure Exact (loaded : LoadedXbe) (bytes : List UInt8) : Prop where
  length : bytes.length = loaded.templateSize + loaded.image.tls.zeroFill
  template : ∀ index < loaded.templateSize,
    bytes[index]? = some (loaded.ram.bytes (loaded.image.tls.dataStart + index))
  fill : ∀ index, loaded.templateSize ≤ index → index < bytes.length → bytes[index]? = some 0

/-- What `tls_template` promises: the whole template, or nothing when there are bytes that cannot
be read, and no byte written behind the vector. -/
structure TemplateOk (loaded : LoadedXbe) : Prop where
  returned : (loaded.tlsTemplate.bytes = [] ∧ 0 < loaded.templateSize ∧ ¬ loaded.TemplateReadable) ∨
    loaded.Exact loaded.tlsTemplate.bytes
  inside : loaded.tlsTemplate.copied ≤ loaded.tlsTemplate.bytes.length

/-- Without template bytes the vector is the fill. -/
theorem tlsTemplate_empty (loaded : LoadedXbe) (present : loaded.image.tlsPresent = true)
    (empty : loaded.image.tls.rawSize = 0) : loaded.tlsTemplate =
      { bytes := List.replicate (loaded.image.tls.zeroFill % 2 ^ 32) 0, copied := 0 } := by
  simp [tlsTemplate, present, empty]

/-- A template that cannot be read is given out without its bytes. -/
theorem tlsTemplate_unreadable (loaded : LoadedXbe) (present : loaded.image.tlsPresent = true)
    (nonEmpty : 0 < loaded.image.tls.rawSize)
    (closed : loaded.ram.readable loaded.image.tls.dataStart loaded.image.tls.rawSize = false) :
    loaded.tlsTemplate = { bytes := [], copied := 0 } := by
  have unread : loaded.ram.readBytes loaded.image.tls.dataStart loaded.image.tls.rawSize = none := by
    simp [XbeRam.readBytes, closed]
  simp [tlsTemplate, present, nonEmpty, unread]

/-- The bytes of a template that can be read, in a vector of the given length. -/
theorem tlsTemplate_readable (loaded : LoadedXbe) (present : loaded.image.tlsPresent = true)
    (nonEmpty : 0 < loaded.image.tls.rawSize)
    (readable : loaded.ram.readable loaded.image.tls.dataStart loaded.image.tls.rawSize = true) :
    loaded.tlsTemplate.copied = loaded.image.tls.rawSize ∧
      loaded.tlsTemplate.bytes =
        ((List.range loaded.image.tls.rawSize).map (fun offset =>
          loaded.ram.bytes (loaded.image.tls.dataStart + offset))).take
            ((loaded.image.tls.rawSize + loaded.image.tls.zeroFill) % 2 ^ 32) ++
        List.replicate ((loaded.image.tls.rawSize + loaded.image.tls.zeroFill) % 2 ^ 32 -
          loaded.image.tls.rawSize) 0 := by
  simp [tlsTemplate, present, nonEmpty, XbeRam.readBytes, readable]

/-- **TLS template.** With a TLS directory the promise is kept if and only if the template cannot
be read or its size with the fill is below 2^32.

Proof: an empty template and an unreadable one keep the promise. A readable one has its size and its
fill, which are reduced to a word and so fit or are lost. -/
theorem tls_template_iff (file : ByteVector) (loaded : LoadedXbe)
    (accepted : (parse file).outcome = .ok loaded.image) (present : loaded.image.tlsPresent = true) :
    loaded.TemplateOk ↔
      (loaded.TemplateReadable → loaded.templateSize + loaded.image.tls.zeroFill < 2 ^ 32) := by
  obtain ⟨parsed, guaranteed⟩ := (ensures_guarantees file).2 loaded.image accepted
  have tls := guaranteed.tls present
  have space := parsed.extent.space
  have below := tls.below
  have ordered := tls.ordered
  have fill := tls.fill
  have size : loaded.image.tls.rawSize = loaded.templateSize := by
    unfold TlsDirectory.rawSize templateSize
    omega
  have word : loaded.templateSize < 2 ^ 32 := by
    unfold templateSize
    omega
  rcases Nat.eq_zero_or_pos loaded.templateSize with empty | some
  · have shape := loaded.tlsTemplate_empty present (size.trans empty)
    rw [Nat.mod_eq_of_lt fill] at shape
    refine iff_of_true ⟨Or.inr ⟨?_, fun index inside => ?_, fun index _ inside => ?_⟩, ?_⟩ (fun _ => by omega)
    · simp [shape, empty]
    · omega
    · rw [shape, List.length_replicate] at inside
      rw [shape, List.getElem?_replicate, if_pos inside]
    · simp [shape]
  · rw [← size] at some
    by_cases readable : loaded.TemplateReadable
    · obtain ⟨copied, bytes⟩ := loaded.tlsTemplate_readable present some (size ▸ readable)
      rw [size] at copied bytes
      have length : loaded.tlsTemplate.bytes.length =
          (loaded.templateSize + loaded.image.tls.zeroFill) % 2 ^ 32 := by
        rw [bytes]
        simp
        omega
      constructor
      · rintro ⟨⟨_, _, closed⟩ | exact, _⟩
        · exact absurd readable closed
        · have whole := exact.length
          omega
      · intro small
        have fits := small readable
        rw [Nat.mod_eq_of_lt fits] at bytes length
        rw [List.take_of_length_le (by simp), Nat.add_sub_cancel_left] at bytes
        refine ⟨Or.inr ⟨length, fun index inside => ?_, fun index behind inside => ?_⟩, by omega⟩
        · rw [bytes, List.getElem?_append_left (by simpa using inside)]
          simp [inside]
        · rw [length] at inside
          have rest : index - loaded.templateSize < loaded.image.tls.zeroFill := by omega
          rw [bytes, List.getElem?_append_right (by simpa using behind), List.length_map, List.length_range,
            List.getElem?_replicate, if_pos rest]
    · have shape := loaded.tlsTemplate_unreadable present some (by
        rw [size]
        exact Bool.eq_false_iff.mpr readable)
      refine iff_of_true ⟨Or.inl ⟨by rw [shape], size ▸ some, readable⟩, by rw [shape]; exact Nat.zero_le _⟩
        (fun forbidden => absurd forbidden readable)

/-- An image whose TLS directory lies behind the section table, with a template of sixteen bytes
and the given fill. -/
def withTls (zeroFill : Nat) : ByteVector := ofWords 0x3A4 (headerWords 0x3A0 0x2000 1 ++
  [(0x12C, 0x10380), (0x348, kSectionWriteable), (0x34C, 0x11000), (0x350, 0x20), (0x354, 0x3A0), (0x358, 4),
    (0x380, 0x11000), (0x384, 0x11010), (0x388, 0x11010), (0x390, zeroFill), (0x3A0, 0xAABB)])

/-- The image with a template of sixteen bytes gives it out. -/
theorem withTls_template : ∃ loaded, (load (withTls 16)).outcome = .ok loaded ∧
    (loaded.TemplateOk ↔
      (loaded.TemplateReadable → loaded.templateSize + loaded.image.tls.zeroFill < 2 ^ 32)) := by
  have marked : (load (withTls 16)).outcome.toOption.any (fun loaded => loaded.image.tlsPresent) = true := by
    decide +kernel
  cases outcome : (load (withTls 16)).outcome with
  | ok loaded =>
    rw [outcome] at marked
    exact ⟨loaded, rfl, tls_template_iff _ loaded (load_mapped outcome).1 marked⟩
  | error failure =>
    rw [outcome] at marked
    cases marked

/-- With a fill of 2^32 - 8 the vector has eight bytes, and sixteen are written. -/
theorem withTls_overruns : ¬ ∀ (file : ByteVector) (loaded : LoadedXbe), (load file).outcome = .ok loaded →
    loaded.image.tlsPresent = true → loaded.TemplateOk := by
  intro always
  have overrun : (load (withTls 0xFFFFFFF8)).outcome.toOption.any (fun loaded =>
      loaded.image.tlsPresent && decide (loaded.tlsTemplate.bytes.length < loaded.tlsTemplate.copied)) = true := by
    decide +kernel
  cases outcome : (load (withTls 0xFFFFFFF8)).outcome with
  | ok loaded =>
    rw [outcome] at overrun
    obtain ⟨marked, short⟩ := Bool.and_eq_true_iff.mp overrun
    exact Nat.not_lt.mpr (always _ loaded outcome marked).inside (of_decide_eq_true short)
  | error failure =>
    rw [outcome] at overrun
    cases overrun

end LoadedXbe

end SeriesxEmu
