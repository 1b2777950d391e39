import SeriesxEmu.Runs
import Mathlib.Data.List.Basic

/-!
# The audio voice

`XboxAudio` queues stereo buffers and consumes frames from the front of the queue, one mix
tick after the other. The counters and the differences keep their 64-bit arithmetic. The
volume, the format and the sine helper take no part in the accounting and are left out.
-/

namespace SeriesxEmu

/-- `std::vector<int16_t>`, whose size is a `size_t`. -/
structure PcmVector where
  samples : List Int16
  bounded : samples.length < 2 ^ 64

/-- `front_offset_frames_` counts the consumed frames of the front buffer. -/
structure XboxAudio where
  buffers : List (List Int16) := []
  frontOffsetFrames : Nat := 0
  playedFrames : Nat := 0
  underrunFrames : Nat := 0
  submittedBuffers : Nat := 0
deriving DecidableEq

namespace XboxAudio

/-- Frames are stereo. -/
def kChannels : Nat := 2

/-- How many buffers may be queued. -/
def kMaxQueuedBuffers : Nat := 16

/-- How many frames may be queued. -/
def kMaxQueuedFrames : Nat := 96000

/-- The frames of a buffer, `size() / kChannels`. -/
def frames (buffer : List Int16) : Nat := buffer.length / kChannels

/-- The difference of two values of type `size_t`. -/
def minus (left right : Nat) : Nat := (left + 2 ^ 64 - right) % 2 ^ 64

/-- `queued_frames`: a turn of the loop over the buffers and their positions. -/
def addQueued (audio : XboxAudio) (n : Nat) (buffer : List Int16 × Nat) : Nat :=
  (n + if buffer.2 = 0 then minus (frames buffer.1) audio.frontOffsetFrames else frames buffer.1) % 2 ^ 64

/-- `queued_frames`. -/
def queuedFrames (audio : XboxAudio) : Nat := audio.buffers.zipIdx.foldl audio.addQueued 0

/-- `submit_buffer` with a pointer to the samples. -/
def submitFrames (audio : XboxAudio) (pcm : Option (List Int16)) (frames : Nat) : XboxAudio × Bool :=
  match pcm with
  | none => (audio, false)
  | some samples =>
    if frames = 0 then (audio, false)
    else if kMaxQueuedBuffers ≤ audio.buffers.length then (audio, false)
    else if kMaxQueuedFrames < (audio.queuedFrames + frames) % 2 ^ 64 then (audio, false)
    else
      ({ audio with
          buffers := audio.buffers ++ [samples.take (frames * kChannels)]
          submittedBuffers := (audio.submittedBuffers + 1) % 2 ^ 64 }, true)

/-- `submit_buffer` of a vector. -/
def submitBuffer (audio : XboxAudio) (interleavedStereo : PcmVector) : XboxAudio × Bool :=
  let samples := interleavedStereo.samples
  if samples.isEmpty || samples.length % kChannels != 0 then (audio, false)
  else audio.submitFrames (some samples) (samples.length / kChannels)

/-- The voice and the local variables of `consume_frames`. -/
structure Mix where
  audio : XboxAudio
  want : Nat
  got : Nat

namespace Mix

/-- What a turn of the loop takes from the front buffer. -/
def taken (mix : Mix) (front : List Int16) : Nat :=
  min mix.want (minus (frames front) mix.audio.frontOffsetFrames)

/-- One turn of the loop. A buffer that is consumed to its end leaves the queue. -/
def turn (mix : Mix) (front : List Int16) (rest : List (List Int16)) : Mix :=
  let take := mix.taken front
  let moved := { mix.audio with
    frontOffsetFrames := (mix.audio.frontOffsetFrames + take) % 2 ^ 64
    playedFrames := (mix.audio.playedFrames + take) % 2 ^ 64 }
  { audio :=
      if moved.frontOffsetFrames = frames front then { moved with buffers := rest, frontOffsetFrames := 0 }
      else moved
    want := mix.want - take
    got := (mix.got + take) % 2 ^ 64 }

/-- The loop of `consume_frames`. There is no result when it takes more turns than given. -/
def loop : Nat → Mix → Option Mix
  | 0, _ => none
  | turns + 1, mix =>
    match mix.audio.buffers with
    | [] => some mix
    | front :: rest => if 0 < mix.want then loop turns (mix.turn front rest) else some mix

end Mix

/-- `consume_frames`. Each buffer takes one turn, and one more finds nothing left to do. -/
def consumeFrames (audio : XboxAudio) (frames : Nat) : Option (XboxAudio × Nat) :=
  (Mix.loop (audio.buffers.length + 1) { audio, want := frames, got := 0 }).map (fun mix =>
    ({ mix.audio with underrunFrames := (mix.audio.underrunFrames + mix.want) % 2 ^ 64 }, mix.got))

/-- `reset`. -/
def reset (audio : XboxAudio) : XboxAudio :=
  { audio with buffers := [], frontOffsetFrames := 0, playedFrames := 0, underrunFrames := 0, submittedBuffers := 0 }

/-- The calls between two resets. -/
inductive Op where
  | submitBuffer (interleavedStereo : PcmVector)
  | consumeFrames (frames : Nat)

/-- One call. -/
def step (audio : XboxAudio) : Op → Option XboxAudio
  | .submitBuffer interleavedStereo => some (audio.submitBuffer interleavedStereo).1
  | .consumeFrames frames => (audio.consumeFrames frames).map Prod.fst

/-! ## Which frames are consumed -/

/-- A frame, by the number of its buffer among the accepted ones and its place in the buffer. -/
structure Frame where
  buffer : Nat
  place : Nat
deriving DecidableEq, Repr

/-- Consecutive frames of one buffer. -/
def span (buffer first count : Nat) : List Frame := (List.range' first count).map (fun place => ⟨buffer, place⟩)

/-- The frames of buffers of the given sizes, numbered from the first. -/
def numbered (first : Nat) : List Nat → List Frame
  | [] => []
  | size :: rest => span first 0 size ++ numbered (first + 1) rest

/-- The frames that the loop moves the offset over, when the front buffer has the given number. -/
def Mix.passed : Nat → Nat → Mix → List Frame
  | 0, _, _ => []
  | turns + 1, first, mix =>
    match mix.audio.buffers with
    | [] => []
    | front :: rest =>
      if 0 < mix.want then
        let next := mix.turn front rest
        span first mix.audio.frontOffsetFrames (mix.taken front) ++
          passed turns (if next.audio.buffers.length = rest.length then first + 1 else first) next
      else []

/-- The frames that a call consumes. -/
def consumed (audio : XboxAudio) (first frames : Nat) : List Frame :=
  Mix.passed (audio.buffers.length + 1) first { audio, want := frames, got := 0 }

/-- The sizes of the accepted buffers, the requests and the frames consumed, all in order. -/
structure History where
  accepted : List Nat := []
  requests : List Nat := []
  consumed : List Frame := []

/-- The number of the buffer at the front of the queue. -/
def History.front (history : History) (audio : XboxAudio) : Nat := history.accepted.length - audio.buffers.length

/-- A history with what the call added. -/
def record (audio : XboxAudio) (op : Op) (_ : XboxAudio) (history : History) : History :=
  match op with
  | .submitBuffer interleavedStereo =>
    if (audio.submitBuffer interleavedStereo).2 then
      { history with accepted := history.accepted ++ [frames interleavedStereo.samples] }
    else history
  | .consumeFrames frames =>
    { history with
      requests := history.requests ++ [frames]
      consumed := history.consumed ++ audio.consumed (history.front audio) frames }

end XboxAudio

end SeriesxEmu
