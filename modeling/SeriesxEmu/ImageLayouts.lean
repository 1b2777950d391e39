import SeriesxEmu.ImageContents

/-!
# Which well-laid-out images load

The overlap guard of `map` compares bytes, and protection goes by pages. A section is copied and
cleared after the sections before it have been protected, so of an image whose sections are in
order and apart exactly those are refused in which a section starts on a page that an earlier one
has made read-only.
-/

namespace SeriesxEmu

open Load Traced

namespace XbeImage

variable {image : XbeImage}

/-- The headers are in the file, everything ends in the window, and the nonempty sections are
listed in ascending order, apart from each other and from the headers. -/
structure WellLaidOut (image : XbeImage) : Prop where
  headers : 0 < image.header.sizeofHeaders ∧ image.header.sizeofHeaders ≤ image.file.size
  headersEnd : image.header.baseAddr + image.header.sizeofHeaders ≤ 64 * 1024 * 1024
  ends : ∀ sh ∈ image.sections, 0 < sh.virtualSize → sh.virtualAddr + sh.virtualSize ≤ 64 * 1024 * 1024
  ascending : image.sections.Pairwise (fun left right => 0 < left.virtualSize → 0 < right.virtualSize →
    left.virtualAddr + left.virtualSize ≤ right.virtualAddr)
  apart : ∀ sh ∈ image.sections, 0 < sh.virtualSize → sh.virtualAddr + sh.virtualSize ≤ image.header.baseAddr ∨
    image.header.baseAddr + image.header.sizeofHeaders ≤ sh.virtualAddr

instance (image : XbeImage) : Decidable image.WellLaidOut :=
  decidable_of_iff (_ ∧ _ ∧ _ ∧ _ ∧ _)
    ⟨fun ⟨headers, headersEnd, ends, ascending, apart⟩ => ⟨headers, headersEnd, ends, ascending, apart⟩,
      fun laid => ⟨laid.headers, laid.headersEnd, laid.ends, laid.ascending, laid.apart⟩⟩

/-- A nonempty section starts on a page that an earlier one has made read-only. -/
def StartsShielded (image : XbeImage) : Prop :=
  ∃ before sh rest, image.sections = before ++ sh :: rest ∧ 0 < sh.virtualSize ∧ SectionHeader.Blocked before sh

/-- All sections pass when each of them passes behind those before it. -/
theorem passAll_iff (done sections : List SectionHeader) : PassAll done sections ↔
    ∀ before sh rest, sections = before ++ sh :: rest → Passes (done ++ before) sh := by
  induction sections generalizing done with
  | nil => simp [PassAll]
  | cons first others inductionHypothesis =>
    rw [PassAll, inductionHypothesis]
    constructor
    · rintro ⟨passes, later⟩ before sh rest split
      cases before with
      | nil =>
        obtain ⟨rfl, rfl⟩ := List.cons.inj split
        simpa using passes
      | cons head before =>
        obtain ⟨rfl, tail⟩ := List.cons.inj split
        simpa using later before sh rest tail
    · intro each
      refine ⟨by simpa using each [] first others rfl, fun before sh rest split => ?_⟩
      simpa using each (first :: before) sh rest (by rw [split]; rfl)

/-- The last of some sections that all end before an address ends before it. -/
theorem lastEnd_le {sections : List SectionHeader} {bound : Nat}
    (ends : ∀ sh ∈ sections, 0 < sh.virtualSize → sh.virtualAddr + sh.virtualSize ≤ bound) :
    lastEnd sections ≤ bound := by
  induction sections using List.reverseRecOn with
  | nil => exact Nat.zero_le _
  | append_singleton sections sh inductionHypothesis =>
    rw [lastEnd_snoc]
    split
    · exact inductionHypothesis (fun other member => ends other (List.mem_append_left _ member))
    · exact ends sh (by simp) (by omega)

/-- The sections of a well-laid-out image pass, unless one starts on a protected page. -/
theorem WellLaidOut.passAll (laid : image.WellLaidOut) : PassAll [] image.sections ↔ ¬ image.StartsShielded := by
  rw [passAll_iff]
  constructor
  · rintro passes ⟨before, sh, rest, split, nonempty, blocked⟩
    rcases passes before sh rest split with empty | ⟨_, _, clear⟩
    · omega
    · exact clear blocked
  · intro free before sh rest split
    by_cases empty : sh.virtualSize = 0
    · exact Or.inl empty
    · have nonempty : 0 < sh.virtualSize := Nat.pos_of_ne_zero empty
      have ascending := laid.ascending
      rw [split, List.pairwise_append] at ascending
      refine Or.inr ⟨lastEnd_le (fun earlier member positive => ?_), laid.ends sh (by rw [split]; simp) nonempty,
        fun blocked => free ⟨before, sh, rest, split, nonempty, blocked⟩⟩
      exact ascending.2.2 earlier member sh List.mem_cons_self positive nonempty

end XbeImage

namespace LoadedXbe

open XbeImage

/-- An accepted file loads exactly when its headers fit the window and its sections pass. -/
theorem load_ok_iff {file : ByteVector} {image : XbeImage} (accepted : (parse file).outcome = .ok image) :
    (∃ loaded, (load file).outcome = .ok loaded) ↔ image.HeaderFits ∧ PassAll [] image.sections := by
  have parsed := (ensures_parse file).2 image accepted
  have started : (∃ loaded, (load file).outcome = .ok loaded) ↔ ∃ ram, image.map.outcome = .ok ram := by
    constructor
    · rintro ⟨loaded, outcome⟩
      obtain ⟨other, same, mapping⟩ := outcome_bind.mp outcome
      cases accepted.symm.trans same
      obtain ⟨ram, mapped, _⟩ := outcome_bind.mp mapping
      exact ⟨ram, mapped⟩
    · rintro ⟨ram, mapped⟩
      exact ⟨{ image, ram }, outcome_bind.mpr ⟨image, accepted, outcome_bind.mpr ⟨ram, mapped, rfl⟩⟩⟩
  rw [started]
  by_cases fits : image.HeaderFits
  · obtain ⟨opened, copied, _, _, start, mapEq⟩ := map_started parsed.nonempty fits
    have looped := (start.loop image.sections parsed.raws).2
    rw [mapEq, ← looped]
    constructor
    · rintro ⟨ram, mapped⟩
      obtain ⟨first, same, mapped⟩ := outcome_bind.mp mapped
      cases same
      obtain ⟨state, reached, _⟩ := outcome_bind.mp mapped
      exact ⟨fits, state, reached⟩
    · rintro ⟨_, state, reached⟩
      exact ⟨state.1, outcome_bind.mpr ⟨copied, rfl, outcome_bind.mpr ⟨state, reached, rfl⟩⟩⟩
  · rw [map_refused fits]
    exact iff_of_false (by rintro ⟨ram, same⟩; cases same) (fun both => fits both.1)

/-- **Well-laid-out images.** Such a file loads if and only if none of its sections starts on a
page that an earlier one has made read-only.

Proof: a well-laid-out image passes all sections, so it fails to load only where one starts on a
page that an earlier one has closed. -/
theorem layouts_load_iff (file : ByteVector) (image : XbeImage) (accepted : (parse file).outcome = .ok image)
    (laid : image.WellLaidOut) :
    (∃ loaded, (load file).outcome = .ok loaded) ↔ ¬ image.StartsShielded := by
  rw [load_ok_iff accepted, laid.passAll]
  exact and_iff_right laid.headersEnd

/-- The image with one section loads: no section starts on a shielded page. -/
theorem oneSection_layout : ∃ image, (parse oneSection).outcome = .ok image ∧
    ((∃ loaded, (load oneSection).outcome = .ok loaded) ↔ ¬ image.StartsShielded) := by
  have laid : (parse oneSection).outcome.toOption.any (fun image => decide image.WellLaidOut) = true := by
    decide +kernel
  cases accepted : (parse oneSection).outcome with
  | ok image =>
    rw [accepted] at laid
    exact ⟨image, rfl, layouts_load_iff _ image accepted (of_decide_eq_true laid)⟩
  | error failure =>
    rw [accepted] at laid
    cases laid

/-- A section that is not writeable, and a writeable one right behind it on the same page. -/
def neighbours : ByteVector := ofWords 0x3C0 (headerWords 0x3B8 0x2000 2 ++
  [(0x34C, 0x11000), (0x350, 0x10), (0x354, 0x3B8), (0x358, 4), (0x380, kSectionWriteable), (0x384, 0x11010),
    (0x388, 0x10), (0x38C, 0x3BC), (0x390, 4)])

/-- The raw bytes of the second section are refused. -/
theorem neighbours_refused : ¬ ∀ (file : ByteVector) (image : XbeImage), (parse file).outcome = .ok image →
    image.WellLaidOut → ∃ loaded, (load file).outcome = .ok loaded := by
  intro always
  have laid : (parse neighbours).outcome.toOption.any (fun image => decide image.WellLaidOut) = true := by
    decide +kernel
  have refused : (load neighbours).outcome.isOk = false := by decide +kernel
  cases accepted : (parse neighbours).outcome with
  | ok image =>
    rw [accepted] at laid
    obtain ⟨loaded, outcome⟩ := always neighbours image accepted (of_decide_eq_true laid)
    rw [outcome] at refused
    cases refused
  | error failure =>
    rw [accepted] at laid
    cases laid

end LoadedXbe

end SeriesxEmu
