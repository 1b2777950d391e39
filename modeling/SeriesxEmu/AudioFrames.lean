import SeriesxEmu.XboxAudio
import Mathlib.Algebra.Order.BigOperators.Group.List
import Mathlib.Data.List.Nodup

/-!
# Conservation of audio frames

The voice is a queue of frames: the frames of the buffers, without those of the front buffer
that the offset has passed. Accepting a buffer appends its frames, and consuming takes frames
from the front, across as many buffers as it needs. What was accepted is therefore, in order,
what was consumed followed by what is queued.
-/

namespace SeriesxEmu.XboxAudio

/-! ## Numbered frames -/

/-- The frames of a range. -/
theorem length_span (buffer first count : Nat) : (span buffer first count).length = count := by simp [span]

/-- They are those of its buffer between its ends. -/
theorem mem_span {buffer first count : Nat} {frame : Frame} : frame ∈ span buffer first count ↔
    frame.buffer = buffer ∧ first ≤ frame.place ∧ frame.place < first + count := by
  obtain ⟨number, place⟩ := frame
  simp only [span, List.mem_map, List.mem_range'_1, Frame.mk.injEq]
  constructor
  · rintro ⟨other, inside, rfl, rfl⟩
    exact ⟨rfl, inside⟩
  · rintro ⟨rfl, inside⟩
    exact ⟨place, inside, rfl, rfl⟩

/-- Each is there once. -/
theorem nodup_span (buffer first count : Nat) : (span buffer first count).Nodup := by
  refine List.Nodup.map (fun left right same => ?_) List.nodup_range'
  simpa using same

/-- Consecutive frames fall into those before a place and those from it on. -/
theorem span_append (buffer first left right : Nat) :
    span buffer first left ++ span buffer (first + left) right = span buffer first (left + right) := by
  rw [span, span, span, ← List.map_append, List.range'_append_1]

/-- All buffers together have as many frames as their sizes add up to. -/
theorem length_numbered (first : Nat) (sizes : List Nat) : (numbered first sizes).length = sizes.sum := by
  induction sizes generalizing first with
  | nil => rfl
  | cons size rest inductionHypothesis =>
    rw [numbered, List.length_append, length_span, inductionHypothesis, List.sum_cons]

/-- More buffers come behind. -/
theorem numbered_append (first : Nat) (sizes others : List Nat) :
    numbered first (sizes ++ others) = numbered first sizes ++ numbered (first + sizes.length) others := by
  induction sizes generalizing first with
  | nil => rfl
  | cons size rest inductionHypothesis =>
    have number : first + 1 + rest.length = first + (rest.length + 1) := by omega
    rw [List.cons_append, numbered, numbered, inductionHypothesis, List.length_cons, List.append_assoc, number]

/-- Buffers are numbered from the first. -/
theorem buffer_of_numbered {first : Nat} {sizes : List Nat} {frame : Frame} (member : frame ∈ numbered first sizes) :
    first ≤ frame.buffer := by
  induction sizes generalizing first with
  | nil => cases member
  | cons size rest inductionHypothesis =>
    rcases List.mem_append.mp member with front | later
    · exact (mem_span.mp front).1.ge
    · exact Nat.le_of_succ_le (inductionHypothesis later)

/-- No frame is numbered twice. -/
theorem nodup_numbered (first : Nat) (sizes : List Nat) : (numbered first sizes).Nodup := by
  induction sizes generalizing first with
  | nil => exact List.nodup_nil
  | cons size rest inductionHypothesis =>
    refine List.nodup_append.mpr ⟨nodup_span _ _ _, inductionHypothesis _, ?_⟩
    rintro frame front other later rfl
    have number := (mem_span.mp front).1
    have behind := buffer_of_numbered later
    omega

/-! ## The queue -/

/-- The frames of the queue, when the front buffer has the given number. -/
def pending (audio : XboxAudio) (first : Nat) : List Frame :=
  (numbered first (audio.buffers.map frames)).drop audio.frontOffsetFrames

/-- `front_offset_frames_` lies in the front buffer. -/
def OffsetInside (audio : XboxAudio) : Prop :=
  match audio.buffers with
  | [] => audio.frontOffsetFrames = 0
  | front :: _ => audio.frontOffsetFrames < frames front

/-- What holds between two calls. -/
structure Sound (audio : XboxAudio) : Prop where
  sizes : ∀ buffer ∈ audio.buffers, 0 < frames buffer ∧ frames buffer ≤ kMaxQueuedFrames
  offset : audio.OffsetInside
  word : audio.playedFrames < 2 ^ 64

variable {audio : XboxAudio} {mix : Mix} {front : List Int16} {rest : List (List Int16)} {first : Nat}

/-- Without buffers no frame is pending. -/
theorem pending_nil (empty : audio.buffers = []) : audio.pending first = [] := by simp [pending, empty, numbered]

/-- The frames left of the front buffer come before those of the other buffers. -/
theorem pending_cons (first : Nat) (here : audio.buffers = front :: rest)
    (inside : audio.frontOffsetFrames ≤ frames front) :
    audio.pending first = span first audio.frontOffsetFrames (frames front - audio.frontOffsetFrames) ++
      numbered (first + 1) (rest.map frames) := by
  have split := span_append first 0 audio.frontOffsetFrames (frames front - audio.frontOffsetFrames)
  rw [Nat.zero_add, Nat.add_sub_of_le inside] at split
  rw [pending, here, List.map_cons, numbered, ← split, List.append_assoc]
  exact List.drop_left' (length_span _ _ _)

/-- A difference that is not negative is one. -/
theorem minus_of_le {left right : Nat} (word : left < 2 ^ 64) (below : right ≤ left) :
    minus left right = left - right := by
  unfold minus
  omega

/-- The offset lies inside the first buffer. -/
theorem Sound.inside (sound : audio.Sound) (here : audio.buffers = front :: rest) :
    audio.frontOffsetFrames < frames front ∧ frames front < 2 ^ 64 := by
  have inside := sound.offset
  simp only [OffsetInside, here] at inside
  have limit := (sound.sizes front (here ▸ List.mem_cons_self)).2
  have small : kMaxQueuedFrames < 2 ^ 64 := by decide
  exact ⟨inside, Nat.lt_of_le_of_lt limit small⟩

/-- The counting loop comes to the number of queued frames. -/
theorem Sound.queued_eq (sound : audio.Sound) (first : Nat) (limit : (audio.pending first).length < 2 ^ 64) :
    audio.queuedFrames = (audio.pending first).length := by
  have counted : ∀ (buffers : List (List Int16)) (index start : Nat), 0 < index →
      start + ((buffers.map frames).sum) < 2 ^ 64 →
      (buffers.zipIdx index).foldl audio.addQueued start = start + (buffers.map frames).sum := by
    intro buffers
    induction buffers with
    | nil => exact fun _ _ _ _ => rfl
    | cons buffer others inductionHypothesis =>
      intro index start later word
      rw [List.map_cons, List.sum_cons] at word ⊢
      rw [List.zipIdx_cons, List.foldl_cons, addQueued]
      dsimp only
      rw [if_neg (by omega), Nat.mod_eq_of_lt (by omega), inductionHypothesis _ _ (by omega) (by omega), Nat.add_assoc]
  cases here : audio.buffers with
  | nil =>
    rw [pending_nil here]
    simp [XboxAudio.queuedFrames, here]
  | cons front rest =>
    obtain ⟨inside, word⟩ := sound.inside here
    rw [pending_cons first here (Nat.le_of_lt inside), List.length_append, length_span, length_numbered] at limit ⊢
    rw [XboxAudio.queuedFrames, here, List.zipIdx_cons, List.foldl_cons, addQueued]
    dsimp only
    rw [if_pos rfl, minus_of_le word (Nat.le_of_lt inside), Nat.zero_add, Nat.mod_eq_of_lt (by omega),
      counted rest 1 _ (by omega) limit]

/-! ## The loop of `consume_frames` -/

namespace Mix

/-- A turn takes what is wanted or what is left of the first buffer. -/
theorem taken_eq (sound : mix.audio.Sound) (here : mix.audio.buffers = front :: rest) :
    mix.taken front = min mix.want (frames front - mix.audio.frontOffsetFrames) := by
  obtain ⟨inside, word⟩ := sound.inside here
  rw [taken, minus_of_le word (Nat.le_of_lt inside)]

/-- The request ends inside the front buffer. -/
theorem turn_stays (sound : mix.audio.Sound) (here : mix.audio.buffers = front :: rest)
    (ends : mix.want < frames front - mix.audio.frontOffsetFrames) :
    mix.turn front rest =
      { audio := { mix.audio with
          frontOffsetFrames := mix.audio.frontOffsetFrames + mix.want
          playedFrames := (mix.audio.playedFrames + mix.want) % 2 ^ 64 }
        want := 0
        got := (mix.got + mix.want) % 2 ^ 64 } := by
  obtain ⟨inside, word⟩ := sound.inside here
  have take : mix.taken front = mix.want := by rw [taken_eq sound here, Nat.min_eq_left (Nat.le_of_lt ends)]
  have offset : (mix.audio.frontOffsetFrames + mix.want) % 2 ^ 64 = mix.audio.frontOffsetFrames + mix.want :=
    Nat.mod_eq_of_lt (by omega)
  have unfinished : ¬ mix.audio.frontOffsetFrames + mix.want = frames front := by omega
  simp only [turn, take, offset, if_neg unfinished, Nat.sub_self]

/-- The front buffer is consumed to its end and leaves the queue. -/
theorem turn_leaves (sound : mix.audio.Sound) (here : mix.audio.buffers = front :: rest)
    (crosses : frames front - mix.audio.frontOffsetFrames ≤ mix.want) :
    mix.turn front rest =
      { audio := { mix.audio with
          buffers := rest
          frontOffsetFrames := 0
          playedFrames := (mix.audio.playedFrames + (frames front - mix.audio.frontOffsetFrames)) % 2 ^ 64 }
        want := mix.want - (frames front - mix.audio.frontOffsetFrames)
        got := (mix.got + (frames front - mix.audio.frontOffsetFrames)) % 2 ^ 64 } := by
  obtain ⟨inside, word⟩ := sound.inside here
  have take : mix.taken front = frames front - mix.audio.frontOffsetFrames := by
    rw [taken_eq sound here, Nat.min_eq_right crosses]
  have offset : (mix.audio.frontOffsetFrames + (frames front - mix.audio.frontOffsetFrames)) % 2 ^ 64 =
      frames front := by
    rw [Nat.add_sub_of_le (Nat.le_of_lt inside), Nat.mod_eq_of_lt word]
  simp only [turn, take, offset, ↓reduceIte]

/-- The given number of frames has been taken from the front of the queue. -/
structure Moved (first : Nat) (mix next : Mix) (count : Nat) : Prop where
  sound : next.audio.Sound
  fewer : next.audio.buffers.length ≤ mix.audio.buffers.length
  inside : count ≤ (mix.audio.pending first).length
  within : count ≤ mix.want
  pending : next.audio.pending (first + (mix.audio.buffers.length - next.audio.buffers.length)) =
    (mix.audio.pending first).drop count
  want : next.want = mix.want - count
  played : next.audio.playedFrames = (mix.audio.playedFrames + count) % 2 ^ 64
  underrun : next.audio.underrunFrames = mix.audio.underrunFrames

/-- Nothing has been moved yet. -/
theorem Moved.refl (first : Nat) (sound : mix.audio.Sound) : Moved first mix mix 0 := by
  constructor
  · exact sound
  · exact Nat.le_refl _
  · exact Nat.zero_le _
  · exact Nat.zero_le _
  · rw [Nat.sub_self, Nat.add_zero, List.drop_zero]
  · rw [Nat.sub_zero]
  · rw [Nat.add_zero, Nat.mod_eq_of_lt sound.word]
  · rfl

/-- What two parts of the loop have moved is moved by both. -/
theorem Moved.trans {middle next : Mix} {left right : Nat} (early : Moved first mix middle left)
    (late : Moved (first + (mix.audio.buffers.length - middle.audio.buffers.length)) middle next right) :
    Moved first mix next (left + right) := by
  have remaining : (middle.audio.pending (first + (mix.audio.buffers.length - middle.audio.buffers.length))).length =
      (mix.audio.pending first).length - left := by rw [early.pending, List.length_drop]
  have inside := late.inside
  have within := late.within
  rw [remaining] at inside
  rw [early.want] at within
  have early_inside := early.inside
  have early_within := early.within
  constructor
  · exact late.sound
  · exact Nat.le_trans late.fewer early.fewer
  · omega
  · omega
  · have left_queue : first + (mix.audio.buffers.length - middle.audio.buffers.length) +
        (middle.audio.buffers.length - next.audio.buffers.length) =
        first + (mix.audio.buffers.length - next.audio.buffers.length) := by
      have earlier := early.fewer
      have later := late.fewer
      omega
    rw [← left_queue, late.pending, early.pending, List.drop_drop]
  · rw [late.want, early.want, Nat.sub_sub]
  · rw [late.played, early.played, Nat.mod_add_mod, Nat.add_assoc]
  · exact late.underrun.trans early.underrun

/-- One turn takes frames of the front buffer, and the buffer leaves when none is left. -/
theorem turn_moved (first : Nat) (sound : mix.audio.Sound) (here : mix.audio.buffers = front :: rest) :
    Moved first mix (mix.turn front rest) (mix.taken front) ∧
      ((mix.turn front rest).want = 0 ∨ (mix.turn front rest).audio.buffers = rest) := by
  obtain ⟨inside, word⟩ := sound.inside here
  have queue := pending_cons first here (Nat.le_of_lt inside)
  have size : (mix.audio.pending first).length =
      frames front - mix.audio.frontOffsetFrames + (rest.map frames).sum := by
    rw [queue, List.length_append, length_span, length_numbered]
  have taken := taken_eq sound here
  rcases Nat.lt_or_ge mix.want (frames front - mix.audio.frontOffsetFrames) with ends | crosses
  · have turned := turn_stays sound here ends
    have all : mix.taken front = mix.want := by rw [taken, Nat.min_eq_left (Nat.le_of_lt ends)]
    have further : mix.audio.frontOffsetFrames + mix.want < frames front := by omega
    rw [turned, all]
    refine ⟨?_, Or.inl rfl⟩
    constructor
    · refine ⟨sound.sizes, ?_, Nat.mod_lt _ (by decide)⟩
      simp only [OffsetInside, here]
      exact further
    · exact Nat.le_refl _
    · omega
    · exact Nat.le_refl _
    · rw [Nat.sub_self, Nat.add_zero]
      exact (List.drop_drop ..).symm
    · exact (Nat.sub_self _).symm
    · rfl
    · rfl
  · have turned := turn_leaves sound here crosses
    have all : mix.taken front = frames front - mix.audio.frontOffsetFrames := by
      rw [taken, Nat.min_eq_right crosses]
    rw [turned, all]
    refine ⟨?_, Or.inr rfl⟩
    constructor
    · refine ⟨fun buffer member => sound.sizes buffer (here ▸ List.mem_cons_of_mem _ member), ?_,
        Nat.mod_lt _ (by decide)⟩
      cases rest with
      | nil => rfl
      | cons next others => exact (sound.sizes next (by simp [here])).1
    · simp [here]
    · omega
    · exact crosses
    · have number : first + (mix.audio.buffers.length - rest.length) = first + 1 := by
        rw [here, List.length_cons]
        omega
      rw [number, queue, List.drop_left' (length_span _ _ _)]
      rfl
    · rfl
    · rfl
    · rfl

/-- A turn leaves the buffers, or drops the first. -/
theorem turn_buffers (mix : Mix) (front : List Int16) (rest : List (List Int16)) :
    (mix.turn front rest).audio.buffers = mix.audio.buffers ∨ (mix.turn front rest).audio.buffers = rest := by
  simp only [turn]
  split
  · exact Or.inr rfl
  · exact Or.inl rfl

/-- The frames that a turn moves over are the first ones of the queue. -/
theorem span_taken (first : Nat) (sound : mix.audio.Sound) (here : mix.audio.buffers = front :: rest) :
    span first mix.audio.frontOffsetFrames (mix.taken front) =
      (mix.audio.pending first).take (mix.taken front) := by
  obtain ⟨inside, word⟩ := sound.inside here
  have left : mix.taken front ≤ frames front - mix.audio.frontOffsetFrames := by
    rw [taken_eq sound here]
    exact Nat.min_le_right _ _
  have split := span_append first mix.audio.frontOffsetFrames (mix.taken front)
    (frames front - mix.audio.frontOffsetFrames - mix.taken front)
  rw [Nat.add_sub_of_le left] at split
  rw [pending_cons first here (Nat.le_of_lt inside), ← split, List.append_assoc]
  exact (List.take_left' (length_span _ _ _)).symm

/-- A request that is satisfied takes no further turn. -/
theorem satisfied_stops (satisfied : mix.want = 0) (turns first : Nat) :
    loop (turns + 1) mix = some mix ∧ passed (turns + 1) first mix = [] := by
  simp only [loop, passed, satisfied, Nat.lt_irrefl, ↓reduceIte]
  cases mix.audio.buffers with
  | nil => exact ⟨rfl, rfl⟩
  | cons front rest => exact ⟨rfl, rfl⟩

/-- The loop ends, when the request is satisfied or the queue empty. -/
theorem loop_ends (mix : Mix) (buffers : List (List Int16)) (sound : mix.audio.Sound) (here : mix.audio.buffers = buffers)
    (first : Nat) : ∃ last count, loop (buffers.length + 1) mix = some last ∧ Moved first mix last count ∧
      passed (buffers.length + 1) first mix = (mix.audio.pending first).take count ∧
      (last.want = 0 ∨ last.audio.buffers = []) := by
  induction buffers generalizing mix first with
  | nil =>
    refine ⟨mix, 0, ?_, .refl first sound, ?_, Or.inr here⟩
    · simp only [loop, here]
    · simp only [passed, here, List.take_zero]
  | cons front rest inductionHypothesis =>
    rcases Nat.eq_zero_or_pos mix.want with satisfied | asks
    · obtain ⟨ended, passes⟩ := satisfied_stops satisfied (front :: rest).length first
      exact ⟨mix, 0, ended, .refl first sound, passes, Or.inl satisfied⟩
    · obtain ⟨moved, stopped⟩ := turn_moved first sound here
      have taken := span_taken first sound here
      by_cases left : (mix.turn front rest).audio.buffers = rest
      · obtain ⟨last, count, ended, later, passes, stops⟩ := inductionHypothesis _ moved.sound left (first + 1)
        have number : first + (mix.audio.buffers.length - (mix.turn front rest).audio.buffers.length) =
            first + 1 := by
          rw [here, left, List.length_cons]
          omega
        refine ⟨last, mix.taken front + count, ?_, moved.trans (number ▸ later), ?_, stops⟩
        · rw [List.length_cons, loop]
          simp only [here, asks, ↓reduceIte]
          exact ended
        · have queue := moved.pending
          rw [number] at queue
          rw [List.length_cons, passed]
          simp only [here, asks, ↓reduceIte, left]
          rw [passes, taken, queue, ← List.take_add]
      · have satisfied := stopped.resolve_right left
        obtain ⟨ended, passes⟩ := satisfied_stops satisfied rest.length first
        have stays : ¬ (mix.turn front rest).audio.buffers.length = rest.length := by
          intro same
          have kept := turn_buffers mix front rest
          rcases kept with kept | gone
          · rw [kept, here, List.length_cons] at same
            exact absurd same (Nat.succ_ne_self _)
          · exact left gone
        refine ⟨mix.turn front rest, mix.taken front, ?_, moved, ?_, Or.inl satisfied⟩
        · rw [List.length_cons, loop]
          simp only [here, asks, ↓reduceIte]
          exact ended
        · rw [List.length_cons, passed]
          simp only [here, asks, ↓reduceIte, stays]
          rw [passes, taken, List.append_nil]

end Mix

/-! ## The calls -/

/-- A request takes as many frames as there are, and what is missing counts as underrun. -/
structure Consumes (audio next : XboxAudio) (first frames : Nat) : Prop where
  sound : next.Sound
  fewer : next.buffers.length ≤ audio.buffers.length
  pending : next.pending (first + (audio.buffers.length - next.buffers.length)) = (audio.pending first).drop frames
  consumed : audio.consumed first frames = (audio.pending first).take frames
  played : next.playedFrames = (audio.playedFrames + min frames (audio.pending first).length) % 2 ^ 64
  underrun : next.underrunFrames = (audio.underrunFrames + (frames - (audio.pending first).length)) % 2 ^ 64

/-- A consumption comes to an end, with the frames from the front.

Proof: the loop, with the frames moved so far as its invariant. -/
theorem Sound.consume (sound : audio.Sound) (first frames : Nat) :
    ∃ next got, audio.consumeFrames frames = some (next, got) ∧ Consumes audio next first frames := by
  obtain ⟨last, count, ended, moved, passes, stops⟩ :=
    Mix.loop_ends { audio, want := frames, got := 0 } audio.buffers sound rfl first
  have inside : count ≤ (audio.pending first).length := moved.inside
  have within : count ≤ frames := moved.within
  have want : last.want = frames - count := moved.want
  have queue : last.audio.pending (first + (audio.buffers.length - last.audio.buffers.length)) =
      (audio.pending first).drop count := moved.pending
  -- The loop has stopped because the request is satisfied or because nothing is left.
  have exhausted : count = frames ∨ count = (audio.pending first).length := by
    rcases stops with satisfied | empty
    · exact Or.inl (by omega)
    · rw [pending_nil empty] at queue
      have shorter := congrArg List.length queue
      rw [List.length_nil, List.length_drop] at shorter
      exact Or.inr (by omega)
  have drops : (audio.pending first).drop count = (audio.pending first).drop frames := by
    rcases exhausted with rfl | all
    · rfl
    · rw [all, List.drop_length, List.drop_of_length_le (by omega)]
  have takes : (audio.pending first).take count = (audio.pending first).take frames := by
    rcases exhausted with rfl | all
    · rfl
    · rw [all, List.take_length, List.take_of_length_le (by omega)]
  refine ⟨_, _, congrArg (Option.map _) ended, ?_⟩
  constructor
  · exact ⟨moved.sound.sizes, moved.sound.offset, moved.sound.word⟩
  · exact moved.fewer
  · exact queue.trans drops
  · exact passes.trans takes
  · have least : count = min frames (audio.pending first).length := by omega
    exact least ▸ moved.played
  · have missing : last.want = frames - (audio.pending first).length := by omega
    have same : last.audio.underrunFrames = audio.underrunFrames := moved.underrun
    rw [← missing, ← same]

/-- A buffer that is rejected changes nothing. -/
theorem submit_rejected {interleavedStereo : PcmVector}
    (rejected : (audio.submitBuffer interleavedStereo).2 = false) :
    (audio.submitBuffer interleavedStereo).1 = audio := by
  unfold submitBuffer submitFrames at rejected ⊢
  dsimp only at rejected ⊢
  split_ifs at rejected ⊢ <;> rfl

/-- An accepted buffer goes to the end of the queue, which has room for it. -/
structure Accepts (audio next : XboxAudio) (first : Nat) (samples : List Int16) : Prop where
  next : next = { audio with
    buffers := audio.buffers ++ [samples], submittedBuffers := (audio.submittedBuffers + 1) % 2 ^ 64 }
  nonEmpty : 0 < frames samples
  room : audio.buffers.length < kMaxQueuedBuffers
  fits : (audio.pending first).length + frames samples ≤ kMaxQueuedFrames

/-- One that is accepted is the last. -/
theorem Sound.submit (sound : audio.Sound) (limit : (audio.pending first).length ≤ kMaxQueuedFrames)
    {interleavedStereo : PcmVector} (accepted : (audio.submitBuffer interleavedStereo).2 = true) :
    Accepts audio (audio.submitBuffer interleavedStereo).1 first interleavedStereo.samples := by
  have small : kMaxQueuedFrames < 2 ^ 63 := by decide
  have queued := sound.queued_eq first (by omega)
  obtain ⟨samples, bounded⟩ := interleavedStereo
  unfold submitBuffer submitFrames at accepted ⊢
  dsimp only at accepted ⊢
  split_ifs at accepted ⊢ with shape silent full exceeds
  have even : samples.length / kChannels * kChannels = samples.length := by
    have paired : samples.length % kChannels = 0 := by
      simp only [Bool.or_eq_true, bne_iff_ne, not_or, not_not] at shape
      exact shape.2
    exact Nat.div_mul_cancel (Nat.dvd_of_mod_eq_zero paired)
  have half : samples.length / kChannels < 2 ^ 63 := Nat.div_lt_of_lt_mul bounded
  have fits : (audio.pending first).length + samples.length / kChannels ≤ kMaxQueuedFrames := by
    rw [queued, Nat.mod_eq_of_lt (by omega)] at exceeds
    exact Nat.le_of_not_lt exceeds
  constructor
  · rw [even, List.take_length]
  · exact Nat.pos_of_ne_zero silent
  · exact Nat.lt_of_not_le full
  · exact fits

/-- The frames of the new buffer come behind those of the queue. -/
theorem Accepts.queue {next : XboxAudio} {samples : List Int16} (sound : audio.Sound)
    (accepts : Accepts audio next first samples) : next.Sound ∧
      next.pending first =
        audio.pending first ++ span (first + audio.buffers.length) 0 (frames samples) := by
  obtain ⟨rfl, nonEmpty, -, fits⟩ := accepts
  constructor
  · refine ⟨fun buffer member => ?_, ?_, sound.word⟩
    · rcases List.mem_append.mp member with old | new
      · exact sound.sizes buffer old
      · rw [List.mem_singleton.mp new]
        exact ⟨nonEmpty, Nat.le_trans (Nat.le_add_left _ _) fits⟩
    · have inside := sound.offset
      unfold OffsetInside at inside ⊢
      cases here : audio.buffers with
      | nil =>
        simp only [here] at inside
        simp only [List.nil_append, inside]
        exact nonEmpty
      | cons front rest =>
        simp only [here] at inside
        exact inside
  · have reach : audio.frontOffsetFrames ≤ (numbered first (audio.buffers.map frames)).length := by
      rw [length_numbered]
      cases here : audio.buffers with
      | nil =>
        have inside := sound.offset
        simp only [OffsetInside, here] at inside
        omega
      | cons front rest =>
        have inside := (sound.inside here).1
        rw [List.map_cons, List.sum_cons]
        omega
    simp only [pending, List.map_append, List.map_cons, List.map_nil, numbered_append, List.length_map, numbered,
      List.append_nil]
    exact List.drop_append_of_le_length reach

/-! ## Whole runs -/

/-- What holds of a voice and its history. The two counters are the numbers of frames, in 64 bits. -/
structure Accounted (audio : XboxAudio) (history : History) : Prop where
  sound : audio.Sound
  buffers : audio.buffers.length ≤ kMaxQueuedBuffers
  fewer : audio.buffers.length ≤ history.accepted.length
  limit : (audio.pending (history.front audio)).length ≤ kMaxQueuedFrames
  order : history.consumed ++ audio.pending (history.front audio) = numbered 0 history.accepted
  within : history.consumed.length ≤ history.requests.sum
  played : audio.playedFrames = history.consumed.length % 2 ^ 64
  underrun : audio.underrunFrames = (history.requests.sum - history.consumed.length) % 2 ^ 64

variable {history : History}

/-- A submission keeps the account. -/
theorem Accounted.submit (accounted : Accounted audio history) (interleavedStereo : PcmVector) :
    Accounted (audio.submitBuffer interleavedStereo).1
      (record audio (.submitBuffer interleavedStereo) (audio.submitBuffer interleavedStereo).1 history) := by
  cases accepted : (audio.submitBuffer interleavedStereo).2 with
  | false =>
    rw [submit_rejected accepted]
    simpa [record, accepted] using accounted
  | true =>
    have accepts := accounted.sound.submit accounted.limit accepted
    obtain ⟨sound, queue⟩ := accepts.queue accounted.sound
    have fewer := accounted.fewer
    have order := accounted.order
    have length : (audio.submitBuffer interleavedStereo).1.buffers.length = audio.buffers.length + 1 := by
      rw [accepts.next]
      exact List.length_append
    simp only [record, accepted, ↓reduceIte]
    have front : History.front
        { history with accepted := history.accepted ++ [frames interleavedStereo.samples] }
        (audio.submitBuffer interleavedStereo).1 = history.front audio := by
      simp only [History.front, length, List.length_append, List.length_singleton]
      omega
    have number : history.front audio + audio.buffers.length = history.accepted.length := by
      unfold History.front
      omega
    constructor
    · exact sound
    · rw [length]
      exact accepts.room
    · rw [length, List.length_append]
      exact Nat.succ_le_succ fewer
    · rw [front, queue, List.length_append, length_span]
      exact accepts.fits
    · rw [front, queue, ← List.append_assoc, order, number, numbered_append, Nat.zero_add, numbered, numbered,
        List.append_nil]
    · exact accounted.within
    · rw [accepts.next]
      exact accounted.played
    · rw [accepts.next]
      exact accounted.underrun

/-- So does a consumption. -/
theorem Accounted.consume (accounted : Accounted audio history) (frames : Nat) :
    ∃ next got, audio.consumeFrames frames = some (next, got) ∧
      Accounted next (record audio (.consumeFrames frames) next history) := by
  obtain ⟨next, got, called, consumes⟩ := accounted.sound.consume (history.front audio) frames
  refine ⟨next, got, called, ?_⟩
  have fewer := accounted.fewer
  have shorter := consumes.fewer
  have within := accounted.within
  have front : History.front (record audio (.consumeFrames frames) next history) next =
      history.front audio + (audio.buffers.length - next.buffers.length) := by
    simp only [History.front, record]
    omega
  have taken : (audio.consumed (history.front audio) frames).length =
      min frames (audio.pending (history.front audio)).length := by
    rw [consumes.consumed, List.length_take]
  constructor
  · exact consumes.sound
  · exact Nat.le_trans shorter accounted.buffers
  · exact Nat.le_trans shorter fewer
  · rw [front, consumes.pending, List.length_drop]
    exact Nat.le_trans (Nat.sub_le _ _) accounted.limit
  · rw [front, consumes.pending]
    simp only [record]
    rw [← accounted.order, consumes.consumed, List.append_assoc, List.take_append_drop]
  · simp only [record, List.length_append, List.sum_append, List.sum_singleton, taken]
    omega
  · simp only [record, List.length_append, taken]
    rw [consumes.played, accounted.played, Nat.mod_add_mod]
  · simp only [record, List.length_append, List.sum_append, List.sum_singleton, taken]
    rw [consumes.underrun, accounted.underrun, Nat.mod_add_mod]
    congr 1
    omega

/-- A voice that is new or has just been reset. -/
def Fresh (audio : XboxAudio) : Prop := audio = {} ∨ ∃ before : XboxAudio, audio = before.reset

/-- A new queue has nothing to account for. -/
theorem Fresh.accounted (fresh : audio.Fresh) : Accounted audio {} := by
  have empty : audio = {} := by
    rcases fresh with new | ⟨before, rfl⟩
    · exact new
    · rfl
  rw [empty]
  constructor
  · exact ⟨by simp, rfl, by decide⟩
  all_goals decide

/-- Every call returns, and keeps the account. -/
theorem Accounted.run (accounted : Accounted audio history) (ops : List Op) :
    ∃ last events, Runs.run (Runs.watch step record) (audio, history) ops = some (last, events) ∧
      Accounted last events := by
  induction ops generalizing audio history with
  | nil => exact ⟨audio, history, rfl, accounted⟩
  | cons op rest inductionHypothesis =>
    obtain ⟨next, stepped, later⟩ : ∃ next, step audio op = some next ∧
        Accounted next (record audio op next history) := by
      cases op with
      | submitBuffer interleavedStereo => exact ⟨_, rfl, accounted.submit interleavedStereo⟩
      | consumeFrames frames =>
        obtain ⟨next, got, called, later⟩ := accounted.consume frames
        exact ⟨next, congrArg (Option.map Prod.fst) called, later⟩
    obtain ⟨last, events, ran, kept⟩ := inductionHypothesis later
    refine ⟨last, events, (Runs.run_cons _ _ op rest).mpr ⟨_, ?_, ran⟩, kept⟩
    rw [Runs.watch, stepped, Option.map_some]

/-- The account of a voice: frames are consumed in the order of submission, each at most once. -/
structure Conserved (audio : XboxAudio) (history : History) : Prop where
  frames : history.accepted.sum = audio.playedFrames + audio.queuedFrames
  requests : history.requests.sum = audio.playedFrames + audio.underrunFrames
  order : history.consumed = (numbered 0 history.accepted).take audio.playedFrames
  once : history.consumed.Nodup
  offset : audio.OffsetInside
  buffers : audio.buffers.length ≤ kMaxQueuedBuffers
  queued : audio.queuedFrames ≤ kMaxQueuedFrames

/-- The account is that every frame is pending or has been consumed, once and in order. -/
theorem Accounted.conserved (accounted : Accounted audio history) (total : history.requests.sum < 2 ^ 64) :
    audio.Conserved history := by
  have within := accounted.within
  have played : audio.playedFrames = history.consumed.length := by
    rw [accounted.played, Nat.mod_eq_of_lt (Nat.lt_of_le_of_lt within total)]
  have underrun : audio.underrunFrames = history.requests.sum - history.consumed.length := by
    rw [accounted.underrun, Nat.mod_eq_of_lt (by omega)]
  have small : kMaxQueuedFrames < 2 ^ 64 := by decide
  have queued := accounted.sound.queued_eq _ (Nat.lt_of_le_of_lt accounted.limit small)
  have accepted : history.accepted.sum =
      history.consumed.length + (audio.pending (history.front audio)).length := by
    rw [← length_numbered 0, ← accounted.order, List.length_append]
  have consumed : history.consumed = (numbered 0 history.accepted).take audio.playedFrames := by
    rw [← accounted.order, played, List.take_left]
  constructor
  · rw [accepted, played, queued]
  · omega
  · exact consumed
  · rw [consumed]
    exact (List.take_sublist _ _).nodup (nodup_numbered 0 _)
  · exact accounted.sound.offset
  · exact accounted.buffers
  · rw [queued]
    exact accounted.limit

/-- **Audio frames.** From a new or reset voice every sequence of calls returns. As long as the
requests come to less than 2^64 its frames are conserved, a rejected buffer changes nothing, and
every further request returns.

Proof: frames are numbered as they are accepted. The pending ones follow the consumed ones in
that order, and every call keeps it so. A request ends, since each round of its loop takes a
frame or leaves the queue empty. -/
theorem audio_conserved (start : XboxAudio) (fresh : start.Fresh) (ops : List Op) :
    ∃ audio history, Runs.run (Runs.watch step record) (start, {}) ops = some (audio, history) ∧
      (history.requests.sum < 2 ^ 64 → audio.Conserved history) ∧
      (∀ interleavedStereo, (audio.submitBuffer interleavedStereo).2 = false →
        (audio.submitBuffer interleavedStereo).1 = audio) ∧
      ∀ frames, (audio.consumeFrames frames).isSome = true := by
  obtain ⟨audio, history, ran, accounted⟩ := fresh.accounted.run ops
  refine ⟨audio, history, ran, accounted.conserved, fun _ => submit_rejected, fun frames => ?_⟩
  obtain ⟨next, got, called, -⟩ := accounted.consume frames
  rw [called, Option.isSome_some]

/-- A voice of three frames in two buffers: the second request takes the rest of the first buffer
and all of the second, and misses a frame. -/
def crossing : List Op :=
  [.submitBuffer ⟨[1, 2, 3, 4], by decide⟩, .submitBuffer ⟨[5, 6], by decide⟩, .consumeFrames 1, .consumeFrames 3]

/-- One consumption crosses two buffers and runs out. -/
theorem crossing_conserved : ∃ audio history,
    Runs.run (Runs.watch step record) ({}, {}) crossing = some (audio, history) ∧ audio.playedFrames = 3 ∧
      audio.underrunFrames = 1 ∧ audio.Conserved history := by
  obtain ⟨audio, history, ran, conserved, -⟩ := audio_conserved {} (Or.inl rfl) crossing
  have counts : some (3, 1, [1, 3]) = some (audio.playedFrames, audio.underrunFrames, history.requests) :=
    congrArg (Option.map (fun watched : XboxAudio × History =>
      (watched.1.playedFrames, watched.1.underrunFrames, watched.2.requests))) ran
  obtain ⟨played, missed, requests⟩ :
      3 = audio.playedFrames ∧ 1 = audio.underrunFrames ∧ [1, 3] = history.requests := by
    simpa using counts
  refine ⟨audio, history, ran, played.symm, missed.symm, conserved ?_⟩
  rw [← requests]
  decide

end SeriesxEmu.XboxAudio
