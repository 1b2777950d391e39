import SeriesxEmu.Transcripts
import SeriesxEmu.XboxInput
import Mathlib.Algebra.Order.Group.Unbundled.Int
import Mathlib.Tactic.Linarith
import Mathlib.Tactic.SplitIfs

/-!
# What a title sees of the gamepads

The packet number counts the samples of a user that differ from the one before, so a title that reads
the same number twice has missed nothing. The response of a stick is flat inside its deadzone, rises
with the reading and is the same to both sides.
-/

namespace SeriesxEmu

namespace XboxInput

open Transcripts

/-! ## The response of a stick -/

/-- The response to a reading of this magnitude, before it is clamped. -/
def response (deadzone mag : Int) : Int :=
  if mag < deadzone then 0 else (mag - deadzone) * 32767 / (32767 - deadzone)

section response
variable {deadzone mag : Int}

/-- A response is zero up to the dead zone, and only there. -/
theorem response_zero (low : 0 ≤ deadzone) (high : deadzone < 32767) : response deadzone mag = 0 ↔ mag ≤ deadzone := by
  rw [response]
  split_ifs with inside
  · exact iff_of_true rfl (by omega)
  · constructor
    · intro zero
      by_contra outside
      have span : 32767 - deadzone ≤ (mag - deadzone) * 32767 := by omega
      have one := Int.ediv_le_ediv (by omega : 0 < 32767 - deadzone) span
      rw [Int.ediv_self (by omega)] at one
      omega
    · intro edge
      obtain rfl : mag = deadzone := by omega
      rw [Int.sub_self, Int.zero_mul, Int.zero_ediv]

/-- A stick that is moved further responds no less. -/
theorem response_mono (low : 0 ≤ deadzone) (high : deadzone < 32767) {less more : Int} (grows : less ≤ more) :
    response deadzone less ≤ response deadzone more := by
  rw [response, response]
  split_ifs with first second
  · exact le_refl 0
  · exact Int.ediv_nonneg (by omega) (by omega)
  · omega
  · exact Int.ediv_le_ediv (by omega) (by omega)

/-- A stick at its end responds with the full value. -/
theorem response_full (high : deadzone < 32767) : response deadzone 32767 = 32767 := by
  rw [response, if_neg (by omega), Int.mul_comm, Int.mul_ediv_cancel _ (by omega)]

/-- One beyond, as the negative end is, responds with at least that. -/
theorem response_beyond (low : 0 ≤ deadzone) (high : deadzone < 32767) : 32768 ≤ response deadzone 32768 := by
  rw [response, if_neg (by omega)]
  exact (Int.le_ediv_iff_mul_le (by omega)).mpr (by omega)

/-- All others respond with something between. -/
theorem response_bounds (low : 0 ≤ deadzone) (high : deadzone < 32767) (below : mag ≤ 32767) :
    0 ≤ response deadzone mag ∧ response deadzone mag ≤ 32767 := by
  constructor
  · rw [response]
    split_ifs with inside
    · exact le_refl 0
    · exact Int.ediv_nonneg (by omega) (by omega)
  · exact (response_mono low high below).trans (response_full high).le

end response

/-- What the code computes is the response of the magnitude with the sign, and the clamp is for the
negative end alone. -/
theorem toInt_applyDeadzone {deadzone : Int} (low : 0 ≤ deadzone) (high : deadzone < 32767) (v : Int16) :
    (applyDeadzone v deadzone).toInt =
      if v.toInt < 0 then max (-32768) (-response deadzone (-v.toInt)) else response deadzone v.toInt := by
  have least := v.le_toInt
  have most := v.toInt_lt
  have scaled {mag : Int} (outside : ¬ mag < deadzone) :
      ((mag - deadzone) * 32767).tdiv (32767 - deadzone) = response deadzone mag := by
    rw [response, if_neg outside, Int.tdiv_eq_ediv_of_nonneg (by omega)]
  by_cases negative : v.toInt < 0
  · simp only [applyDeadzone, negative, if_true]
    by_cases inside : -v.toInt < deadzone
    · rw [if_pos inside, response, if_pos inside]
      decide
    · rw [if_neg inside, scaled inside]
      have nonNegative : 0 ≤ response deadzone (-v.toInt) := by
        rw [response, if_neg inside]
        exact Int.ediv_nonneg (by omega) (by omega)
      split_ifs with above beneath
      · omega
      · rw [max_eq_left (by omega)]
        decide
      · rw [max_eq_right (by omega), Int16.toInt_ofInt_of_le (by omega) (by omega)]
  · simp only [applyDeadzone, negative, if_false]
    by_cases inside : v.toInt < deadzone
    · rw [if_pos inside, response, if_pos inside]
      decide
    · obtain ⟨nonNegative, within⟩ := response_bounds low high (by omega : v.toInt ≤ 32767)
      rw [if_neg inside, scaled inside, if_neg (by omega), if_neg (by omega),
        Int16.toInt_ofInt_of_le (by omega) (by omega)]

/-- **Sticks.** A stick reads as centred exactly inside its deadzone, never moves against the hand,
responds alike to both sides, and reaches both ends of its range.

Proof: the value of a stick is a response to its magnitude, with the sign put back. The response is
zero up to the deadzone, grows from there and is full at the end of the range. -/
theorem deadzone_response (deadzone : Int) (low : 0 ≤ deadzone) (high : deadzone < 32767) :
    (∀ v, applyDeadzone v deadzone = 0 ↔ |v.toInt| ≤ deadzone) ∧
      (∀ v w : Int16, v.toInt ≤ w.toInt → (applyDeadzone v deadzone).toInt ≤ (applyDeadzone w deadzone).toInt) ∧
      (∀ v w : Int16, v.toInt = -w.toInt → (applyDeadzone v deadzone).toInt = -(applyDeadzone w deadzone).toInt) ∧
      applyDeadzone 32767 deadzone = 32767 ∧ applyDeadzone (-32768) deadzone = -32768 := by
  have value := toInt_applyDeadzone low high
  have mono {less more : Int} (grows : less ≤ more) := response_mono low high grows
  have flat {mag : Int} := @response_zero deadzone mag low high
  have bounds {mag : Int} (below : mag ≤ 32767) := response_bounds low high below
  have range (v : Int16) : -32768 ≤ v.toInt ∧ v.toInt ≤ 32767 := ⟨v.le_toInt, Int.le_of_lt_add_one v.toInt_lt⟩
  constructor
  · intro v
    rw [← Int16.toInt_inj, value v]
    rcases lt_or_ge v.toInt 0 with negative | positive
    · rw [if_pos negative, abs_of_neg negative, ← flat]
      have nonNegative : 0 ≤ response deadzone (-v.toInt) := (flat.mpr low).symm.le.trans (mono (by omega))
      constructor
      · intro zero
        have centred : max (-32768) (-response deadzone (-v.toInt)) = 0 := zero
        omega
      · intro zero
        rw [zero]
        decide
    · rw [if_neg (by omega), abs_of_nonneg positive, ← flat]
      rfl
  constructor
  · intro v w grows
    rw [value v, value w]
    have left := bounds (range v).2
    have right := bounds (range w).2
    split_ifs with first second
    · have falls := mono (by omega : -w.toInt ≤ -v.toInt)
      omega
    · have nonNegative : 0 ≤ response deadzone (-v.toInt) := (flat.mpr low).symm.le.trans (mono (by omega))
      omega
    · omega
    · exact mono grows
  constructor
  · intro v w opposite
    rw [value v, value w, opposite]
    have left := range v
    have right := range w
    split_ifs with first second
    · omega
    · have bounded := bounds (right.2)
      rw [Int.neg_neg]
      omega
    · have bounded := bounds (by omega : -w.toInt ≤ 32767)
      omega
    · have zero : w.toInt = 0 := by omega
      rw [zero, Int.neg_zero, flat.mpr low]
      rfl
  constructor
  · rw [← Int16.toInt_inj, value]
    exact response_full high
  · rw [← Int16.toInt_inj, value]
    exact max_eq_left (Int.neg_le_neg (response_beyond low high))

/-- Both sticks. -/
theorem sticks_response :
    applyDeadzone 7849 kXboxDeadzoneLeft = 0 ∧ applyDeadzone (-8690) kXboxDeadzoneRight ≠ 0 := by
  obtain ⟨left, -⟩ := deadzone_response kXboxDeadzoneLeft (by decide) (by decide)
  obtain ⟨right, -⟩ := deadzone_response kXboxDeadzoneRight (by decide) (by decide)
  exact ⟨(left 7849).mpr (by decide), fun centred => absurd ((right (-8690)).mp centred) (by decide)⟩

/-! ## Samples -/

/-- The samples of a connected user since they came, and their last rumble. -/
structure Pad where
  samples : List XboxGamepad := []
  rumble : XboxRumble := {}

/-- How many samples differ from the one before. -/
def changes : XboxGamepad → List XboxGamepad → Nat
  | _, [] => 0
  | before, sample :: rest => (changed before sample).toNat + changes sample rest

/-- The packet number that is put in is there. -/
@[simp] theorem withPacket_packet (pad : XboxGamepad) (packet : UInt32) : (pad.withPacket packet).packet = packet :=
  rfl

/-- The last number that is put in counts. -/
@[simp] theorem withPacket_withPacket (pad : XboxGamepad) (first second : UInt32) :
    (pad.withPacket first).withPacket second = pad.withPacket second := rfl

/-- Its own number changes nothing. -/
@[simp] theorem withPacket_self (pad : XboxGamepad) : pad.withPacket pad.packet = pad := rfl

/-- The packet number does not take part in the comparison. -/
@[simp] theorem changed_withPacket (pad raw : XboxGamepad) (packet : UInt32) :
    changed (pad.withPacket packet) raw = changed pad raw := rfl

/-- A sample is unchanged if it differs in the packet number only. -/
theorem changed_iff {cur raw : XboxGamepad} : changed cur raw = false ↔ raw = cur.withPacket raw.packet := by
  obtain ⟨buttons, left, right, lx, ly, rx, ry, packet⟩ := cur
  obtain ⟨buttons', left', right', lx', ly', rx', ry', packet'⟩ := raw
  simp only [changed, XboxGamepad.withPacket, Bool.or_eq_false_iff, bne_eq_false_iff_eq, XboxGamepad.mk.injEq, and_true]
  constructor
  · rintro ⟨⟨⟨⟨⟨⟨rfl, rfl⟩, rfl⟩, rfl⟩, rfl⟩, rfl⟩, rfl⟩
    exact ⟨rfl, rfl, rfl, rfl, rfl, rfl, rfl⟩
  · rintro ⟨rfl, rfl, rfl, rfl, rfl, rfl, rfl⟩
    exact ⟨⟨⟨⟨⟨⟨rfl, rfl⟩, rfl⟩, rfl⟩, rfl⟩, rfl⟩, rfl⟩

/-- Changes do not depend on the packet number. -/
@[simp] theorem changes_withPacket (pad : XboxGamepad) (packet : UInt32) (samples : List XboxGamepad) :
    changes (pad.withPacket packet) samples = changes pad samples := by
  cases samples with
  | nil => rfl
  | cons sample rest => rfl

/-- The last sample is compared with the one before. -/
theorem changes_snoc (before : XboxGamepad) (samples : List XboxGamepad) (raw : XboxGamepad) :
    changes before (samples ++ [raw]) =
      changes before samples + (changed (samples.getLast?.getD before) raw).toNat := by
  induction samples generalizing before with
  | nil => exact Nat.add_comm _ _
  | cons sample rest inductionHypothesis =>
    rw [List.cons_append, changes, changes, inductionHypothesis, Nat.add_assoc, List.getLast?_cons, Option.getD_some]

namespace Pad

/-- The sample that is current. -/
def last (pad : Pad) : XboxGamepad := pad.samples.getLast?.getD {}

/-- The packet number counts the changes since the user came. -/
def state (pad : Pad) : XboxGamepad := pad.last.withPacket (UInt32.ofNat (changes {} pad.samples))

/-- What the title reads. -/
def read (pad : Pad) : XboxGamepad := cooked pad.state

/-- One more sample. -/
def push (pad : Pad) (raw : XboxGamepad) : Pad := { pad with samples := pad.samples ++ [raw] }

/-- A sample is stored with the next number if it is a change. -/
theorem push_state (pad : Pad) (raw : XboxGamepad) : (pad.push raw).state =
    raw.withPacket (if changed pad.state raw then pad.state.packet + 1 else pad.state.packet) := by
  have same : changed pad.state raw = changed pad.last raw := rfl
  have last : (pad.push raw).last = raw := by simp [push, Pad.last]
  have count : changes {} (pad.push raw).samples = changes {} pad.samples + (changed pad.last raw).toNat :=
    changes_snoc {} pad.samples raw
  rw [Pad.state, last, count, same]
  cases changed pad.last raw with
  | true => simp [Pad.state, withPacket_packet]
  | false => rfl

end Pad

/-! ## Users -/

/-- The users that are connected, with what they have sent. -/
abbrev Users := Nat → Option Pad

namespace Users

/-- The answer of the table to a request. -/
def serve (users : Users) : Request → Users × Answer
  | .connected user => (users, .flag (users user).isSome)
  | .setConnected user on =>
    if kMaxUsers ≤ user then (users, .flag false)
    else (Function.update users user (if on then some ((users user).getD {}) else none), .flag true)
  | .setState user raw =>
    match users user with
    | none => (users, .flag false)
    | some pad => (Function.update users user (some (pad.push raw)), .flag true)
  | .getState user => (users, .pad ((users user).map Pad.read))
  | .setRumble user rumble =>
    match users user with
    | none => (users, .flag false)
    | some pad => (Function.update users user (some { pad with rumble }), .flag true)
  | .getRumble user => (users, .rumble ((users user).map Pad.rumble))
  | .connectedCount => (users, .count ((List.range kMaxUsers).filter (fun user => (users user).isSome)).length)

/-- Before the first request the first user is there. -/
def initial : Users := fun user => if user = 0 then some {} else none

end Users

/-- The entries of the arrays for a user. A user who is away has blank ones. -/
structure Holds (connected : Bool) (state : XboxGamepad) (rumble : XboxRumble) (pad : Option Pad) : Prop where
  connected : connected = pad.isSome
  state : state = (pad.getD {}).state
  rumble : rumble = (pad.getD {}).rumble

/-- The controller holds what the table says of each of the four users, and there are no others. -/
structure Represents (input : XboxInput) (users : Users) : Prop where
  holds : ∀ user < kMaxUsers, Holds (input.connected user) (input.state user) (input.rumble user) (users user)
  outside : ∀ user, kMaxUsers ≤ user → users user = none

namespace Represents

variable {input next : XboxInput} {users : Users} {user : Nat}

/-- Who is connected, by the table. -/
theorem connected (represents : input.Represents users) (user : Nat) :
    input.isConnected user = (users user).isSome := by
  rw [isConnected]
  rcases Nat.lt_or_ge user kMaxUsers with inside | outside
  · rw [decide_eq_true inside, Bool.true_and]
    exact (represents.holds user inside).connected
  · rw [decide_eq_false (Nat.not_lt.mpr outside), Bool.false_and, represents.outside user outside]
    rfl

/-- A user that the table knows is one of the four. -/
theorem inside (represents : input.Represents users) {pad : Pad} (bound : users user = some pad) :
    user < kMaxUsers := by
  by_contra outside
  rw [represents.outside user (Nat.le_of_not_lt outside)] at bound
  cases bound

/-- A change to the entries of one user. -/
theorem update (represents : input.Represents users) (inside : user < kMaxUsers) {pad : Option Pad}
    (here : Holds (next.connected user) (next.state user) (next.rumble user) pad)
    (others : ∀ other, other ≠ user → next.connected other = input.connected other ∧
      next.state other = input.state other ∧ next.rumble other = input.rumble other) :
    next.Represents (Function.update users user pad) := by
  constructor
  · intro other within
    by_cases same : other = user
    · subst same
      rwa [Function.update_self]
    · obtain ⟨connected, state, rumble⟩ := others other same
      rw [Function.update_of_ne same, connected, state, rumble]
      exact represents.holds other within
  · intro other outside
    have apart : other ≠ user := fun same => absurd inside (Nat.not_lt.mpr (same ▸ outside))
    rw [Function.update_of_ne apart]
    exact represents.outside other outside

/-- Connecting and disconnecting follows the table. -/
theorem setConnected (represents : input.Represents users) (user : Nat) (on : Bool) :
    (input.serve (.setConnected user on)).1.Represents (users.serve (.setConnected user on)).1 ∧
      (input.serve (.setConnected user on)).2 = (users.serve (.setConnected user on)).2 := by
  by_cases outside : kMaxUsers ≤ user
  · simp only [XboxInput.serve, XboxInput.setConnected, Users.serve, outside, if_true, and_true]
    exact represents
  · have inside : user < kMaxUsers := Nat.lt_of_not_le outside
    simp only [XboxInput.serve, XboxInput.setConnected, Users.serve, outside, if_false]
    cases on with
    | true =>
      simp only [if_true, and_true]
      obtain ⟨_, state, rumble⟩ := represents.holds user inside
      apply represents.update inside
      · exact ⟨if_pos rfl, state, rumble⟩
      · intro other apart
        exact ⟨if_neg apart, rfl, rfl⟩
    | false =>
      simp only [Bool.false_eq_true, if_false, and_true]
      apply represents.update inside
      · exact ⟨if_pos rfl, if_pos rfl, if_pos rfl⟩
      · intro other apart
        exact ⟨if_neg apart, if_neg apart, if_neg apart⟩

/-- Sending a sample does, too. -/
theorem setState (represents : input.Represents users) (user : Nat) (raw : XboxGamepad) :
    (input.serve (.setState user raw)).1.Represents (users.serve (.setState user raw)).1 ∧
      (input.serve (.setState user raw)).2 = (users.serve (.setState user raw)).2 := by
  have connected := represents.connected user
  simp only [XboxInput.serve, XboxInput.setState, Users.serve]
  cases bound : users user with
  | none =>
    rw [bound, Option.isSome_none] at connected
    simp only [connected, Bool.false_eq_true, if_false, and_true]
    exact represents
  | some pad =>
    have inside := represents.inside bound
    rw [bound, Option.isSome_some] at connected
    simp only [connected, if_true, and_true]
    obtain ⟨there, state, rumble⟩ := represents.holds user inside
    rw [bound] at there state rumble
    apply represents.update inside
    · constructor
      · exact there
      · simp only [assign, if_true, state, Option.getD_some, Pad.push_state]
      · exact rumble
    · intro other apart
      exact ⟨rfl, if_neg apart, rfl⟩

/-- So does a rumble. -/
theorem setRumble (represents : input.Represents users) (user : Nat) (rumble : XboxRumble) :
    (input.serve (.setRumble user rumble)).1.Represents (users.serve (.setRumble user rumble)).1 ∧
      (input.serve (.setRumble user rumble)).2 = (users.serve (.setRumble user rumble)).2 := by
  have connected := represents.connected user
  simp only [XboxInput.serve, XboxInput.setRumble, Users.serve]
  cases bound : users user with
  | none =>
    rw [bound, Option.isSome_none] at connected
    simp only [connected, Bool.false_eq_true, if_false, and_true]
    exact represents
  | some pad =>
    have inside := represents.inside bound
    rw [bound, Option.isSome_some] at connected
    simp only [connected, if_true, and_true]
    obtain ⟨there, state, -⟩ := represents.holds user inside
    rw [bound] at there state
    apply represents.update inside
    · exact ⟨there, state, if_pos rfl⟩
    · intro other apart
      exact ⟨rfl, rfl, if_neg apart⟩

/-- The readers. -/
theorem reads (represents : input.Represents users) (user : Nat) :
    input.getState user = (users user).map Pad.read ∧ input.getRumble user = (users user).map Pad.rumble := by
  have connected := represents.connected user
  cases bound : users user with
  | none =>
    rw [bound, Option.isSome_none] at connected
    simp only [getState, getRumble, connected, Bool.false_eq_true, if_false, Option.map_none, and_self]
  | some pad =>
    obtain ⟨-, state, rumble⟩ := represents.holds user (represents.inside bound)
    rw [bound] at connected state rumble
    simp only [getState, getRumble, connected, Option.isSome_some, if_true, state, rumble, Option.getD_some,
      Option.map_some, Pad.read, and_self]

/-- And so does the number of users. -/
theorem count (represents : input.Represents users) :
    input.connectedCount = ((List.range kMaxUsers).filter (fun user => (users user).isSome)).length := by
  have same : (List.range kMaxUsers).filter input.connected =
      (List.range kMaxUsers).filter (fun user => (users user).isSome) :=
    List.filter_congr fun user member => (represents.holds user (List.mem_range.mp member)).connected
  rw [connectedCount, same]

/-- Every request does.

Proof: one lemma for each request that changes something; the others read. -/
theorem serve (represents : input.Represents users) (request : Request) :
    (input.serve request).1.Represents (users.serve request).1 ∧
      (input.serve request).2 = (users.serve request).2 := by
  cases request with
  | connected user => exact ⟨represents, congrArg Answer.flag (represents.connected user)⟩
  | setConnected user on => exact represents.setConnected user on
  | setState user raw => exact represents.setState user raw
  | getState user => exact ⟨represents, congrArg Answer.pad (represents.reads user).1⟩
  | setRumble user rumble => exact represents.setRumble user rumble
  | getRumble user => exact ⟨represents, congrArg Answer.rumble (represents.reads user).2⟩
  | connectedCount => exact ⟨represents, congrArg Answer.count represents.count⟩

end Represents

/-- A new controller knows nobody. -/
theorem represents_initial : Represents {} Users.initial := by
  constructor
  · intro user _
    by_cases first : user = 0
    · subst first
      exact ⟨rfl, rfl, rfl⟩
    · have away : Users.initial user = none := if_neg first
      rw [away]
      exact ⟨beq_false_of_ne first, rfl, rfl⟩
  · intro user outside
    exact if_neg (Nat.ne_of_gt (Nat.lt_of_lt_of_le (by decide) outside))

/-- **Gamepads.** Every sequence of requests to a new `XboxInput` is answered from what each
connected user has sent since they came: the title reads the last sample with its sticks cooked, and
the packet number is how many samples differed from the one before.

Proof: the pads represent the users, and every request keeps that and gets the same answer. -/
theorem transcript_users (requests : List Request) :
    transcript XboxInput.serve {} requests = transcript Users.serve Users.initial requests := by
  have each (input : XboxInput) (users : Users) (request : Request) (represents : Represents input users) :=
    represents.serve request
  exact transcript_eq each requests represents_initial

/-! ## Packet numbers -/

/-- The samples of one user among the requests. -/
def samplesOf (user : Nat) : List Request → List XboxGamepad
  | [] => []
  | .setState other raw :: rest => if other = user then raw :: samplesOf user rest else samplesOf user rest
  | _ :: rest => samplesOf user rest

/-- There are at most as many changes as samples. -/
theorem changes_le (before : XboxGamepad) (samples : List XboxGamepad) : changes before samples ≤ samples.length := by
  induction samples generalizing before with
  | nil => exact Nat.zero_le 0
  | cons sample rest inductionHypothesis =>
    have one := Bool.toNat_le (changed before sample)
    have others := inductionHypothesis sample
    rw [changes, List.length_cons]
    omega

/-- There are none if every sample is the current one.

Proof: induction on the samples; the first change is counted and never taken back. -/
theorem changes_zero (before : XboxGamepad) (samples : List XboxGamepad) :
    changes before samples = 0 ↔ ∀ sample ∈ samples, changed before sample = false := by
  induction samples generalizing before with
  | nil => exact iff_of_true rfl (List.forall_mem_nil _)
  | cons sample rest inductionHypothesis =>
    rw [changes, Nat.add_eq_zero_iff, Bool.toNat_eq_zero, List.forall_mem_cons, inductionHypothesis]
    constructor
    · rintro ⟨first, later⟩
      rw [changed_iff.mp first] at later
      exact ⟨first, later⟩
    · rintro ⟨first, later⟩
      refine ⟨first, ?_⟩
      rw [changed_iff.mp first]
      exact later

/-- The samples of a run, one request after the other. -/
theorem samplesOf_cons (user : Nat) (request : Request) (rest : List Request) :
    samplesOf user (request :: rest) = samplesOf user [request] ++ samplesOf user rest := by
  cases request with
  | setState other raw =>
    simp only [samplesOf]
    split
    · rfl
    · rfl
  | connected | setConnected | getState | setRumble | getRumble | connectedCount => rfl

/-- The last of the samples, with the packet number of the one before and what has changed since. -/
def followed (start : XboxGamepad) (samples : List XboxGamepad) : XboxGamepad :=
  (samples.getLast?.getD start).withPacket (start.packet + UInt32.ofNat (changes start samples))

/-- Without samples a pad stays as it is. -/
theorem followed_nil (start : XboxGamepad) : followed start [] = start := by
  simp [followed, changes]

/-- One sample is stored, and counted if it is a change. -/
theorem followed_one (start raw : XboxGamepad) :
    followed start [raw] = raw.withPacket (start.packet + UInt32.ofNat (changed start raw).toNat) := rfl

/-- Samples follow one after the other. -/
theorem followed_cons (start raw : XboxGamepad) (rest : List XboxGamepad) :
    followed (followed start [raw]) rest = followed start (raw :: rest) := by
  have last : (rest.getLast?.getD (followed start [raw])).withPacket = (rest.getLast?.getD raw).withPacket := by
    cases rest.getLast? with
    | none => rfl
    | some last => rfl
  rw [followed, last, followed_one, followed, withPacket_packet, changes_withPacket, changes, UInt32.ofNat_add,
    ← UInt32.add_assoc, List.getLast?_cons, Option.getD_some]

/-- What a request does to a user whom it does not disconnect. -/
theorem serve_user {input : XboxInput} {user : Nat} (connected : input.isConnected user = true) {request : Request}
    (stays : request ≠ .setConnected user false) : (input.serve request).1.isConnected user = true ∧
      (input.serve request).1.state user = followed (input.state user) (samplesOf user [request]) := by
  have whole : (input.state user) = followed (input.state user) [] := (followed_nil _).symm
  obtain ⟨inside, there⟩ := Bool.and_eq_true_iff.mp connected
  cases request with
  | connected | getState | getRumble | connectedCount => exact ⟨connected, whole⟩
  | setConnected other on =>
    simp only [serve, setConnected]
    split
    · exact ⟨connected, whole⟩
    cases on with
    | true =>
      refine ⟨?_, whole⟩
      rw [isConnected, inside, Bool.true_and]
      show assign input.connected other true user = true
      rw [assign]
      split
      · rfl
      · exact there
    | false =>
      have apart : user ≠ other := fun same => stays (same ▸ rfl)
      simp only [Bool.false_eq_true, if_false, isConnected, assign, if_neg apart]
      exact ⟨connected, whole⟩
  | setRumble other rumble =>
    simp only [serve, setRumble]
    split
    · exact ⟨connected, whole⟩
    · exact ⟨connected, whole⟩
  | setState other raw =>
    simp only [serve, setState, samplesOf]
    by_cases same : other = user
    · subst same
      simp only [connected, if_true]
      refine ⟨connected, ?_⟩
      simp only [assign, if_true, followed_one]
      cases changed (input.state other) raw with
      | true => rfl
      | false => simp
    · rw [if_neg same]
      split
      · refine ⟨connected, ?_⟩
        simp only [assign, if_neg (Ne.symm same)]
        exact whole
      · exact ⟨connected, whole⟩

/-- While a user stays connected, the pad follows the samples that are sent for it.

Proof: induction on the requests. Those about other users leave the entries of this one alone. -/
theorem after_user (requests : List Request) {input : XboxInput} {user : Nat}
    (connected : input.isConnected user = true) (stays : .setConnected user false ∉ requests) :
    (after serve input requests).isConnected user = true ∧
      (after serve input requests).state user = followed (input.state user) (samplesOf user requests) := by
  induction requests generalizing input with
  | nil => exact ⟨connected, (followed_nil _).symm⟩
  | cons request rest inductionHypothesis =>
    rw [List.mem_cons, not_or] at stays
    obtain ⟨still, step⟩ := serve_user connected (Ne.symm stays.1)
    obtain ⟨kept, state⟩ := inductionHypothesis still stays.2
    refine ⟨kept, ?_⟩
    rw [samplesOf_cons]
    show (after serve (input.serve request).1 rest).state user = _
    rw [state, step]
    cases request with
    | setState other raw =>
      simp only [samplesOf]
      split
      · exact followed_cons _ raw _
      · rw [followed_nil, List.nil_append]
    | connected | setConnected | getState | setRumble | getRumble | connectedCount =>
      exact congrArg (fun start => followed start (samplesOf user rest)) (followed_nil _)

/-- **Packet numbers.** While a user stays connected and sends fewer than 2^32 samples, whatever
happens to the others, the packet number that a title reads again is the same exactly when every
sample in between was equal, and then it reads the same state.

Proof: the packet number grows by one with each sample that differs from the one before. So few
samples cannot bring it back to where it was. -/
theorem packet_tells (input : XboxInput) (user : Nat) (connected : input.isConnected user = true)
    (requests : List Request) (stays : .setConnected user false ∉ requests)
    (few : (samplesOf user requests).length < 2 ^ 32) :
    ∃ early late, input.getState user = some early ∧ (after serve input requests).getState user = some late ∧
      (late.packet = early.packet ↔ ∀ sample ∈ samplesOf user requests, changed (input.state user) sample = false) ∧
      (late.packet = early.packet → late = early) := by
  obtain ⟨still, state⟩ := after_user requests connected stays
  let start := input.state user
  let samples := samplesOf user requests
  have same : start.packet + UInt32.ofNat (changes start samples) = start.packet ↔
      ∀ sample ∈ samples, changed start sample = false := by
    rw [← changes_zero, UInt32.add_eq_left, ← UInt32.toNat_inj, UInt32.toNat_ofNat']
    have bound : changes start samples < 2 ^ 32 := Nat.lt_of_le_of_lt (changes_le start samples) few
    rw [Nat.mod_eq_of_lt bound]
    rfl
  have unchanged (equal : ∀ sample ∈ samples, changed start sample = false) : followed start samples = start := by
    rw [followed, same.mpr equal]
    cases last : samples.getLast? with
    | none => rfl
    | some sample =>
      have equals := changed_iff.mp (equal sample (List.mem_of_getLast? last))
      rw [Option.getD_some, equals]
      rfl
  refine ⟨cooked start, cooked (followed start samples), if_pos connected, ?_, same, ?_⟩
  · rw [getState, still, if_pos rfl, state]
  · intro packet
    rw [unchanged (same.mp packet)]

/-- The second user comes and goes while the first one holds still. -/
def secondUser : List Request :=
  [.setState 0 {}, .setConnected 1 true, .setState 1 { buttons := 4 }, .setConnected 1 false]

/-- Requests about another user leave the first one as it was. -/
theorem secondUser_quiet : ∃ early late, getState {} 0 = some early ∧
    (after serve {} secondUser).getState 0 = some late ∧ late = early := by
  obtain ⟨early, late, before, now, same, equal⟩ := packet_tells {} 0 (by decide) secondUser (by decide) (by decide)
  exact ⟨early, late, before, now, equal (same.mpr (by decide))⟩

end XboxInput

end SeriesxEmu
