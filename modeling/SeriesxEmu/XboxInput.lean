/-!
# The gamepads

`XboxInput` keeps the raw sample of each of the four users, as the host injects it, and cooks the
sticks when the title reads it. The packet number of a sample is the emulator's own. Indices that are
no user's are refused before the arrays are touched.
-/

namespace SeriesxEmu

/-- The dead zone of the left stick. -/
def kXboxDeadzoneLeft : Int := 7849

/-- The dead zone of the right stick. -/
def kXboxDeadzoneRight : Int := 8689

/-- The state of a pad, with the number of its packet. -/
structure XboxGamepad where
  buttons : UInt16 := 0
  leftTrigger : UInt8 := 0
  rightTrigger : UInt8 := 0
  thumbLx : Int16 := 0
  thumbLy : Int16 := 0
  thumbRx : Int16 := 0
  thumbRy : Int16 := 0
  packet : UInt32 := 0
deriving DecidableEq, Repr

/-- The same input under another packet number. -/
def XboxGamepad.withPacket (pad : XboxGamepad) (packet : UInt32) : XboxGamepad := { pad with packet }

/-- The speeds of a pad's motors. -/
structure XboxRumble where
  leftMotor : UInt16 := 0
  rightMotor : UInt16 := 0
deriving DecidableEq, Repr

/-- The pads of all users. -/
structure XboxInput where
  connected : Nat → Bool := fun user => user == 0
  state : Nat → XboxGamepad := fun _ => {}
  rumble : Nat → XboxRumble := fun _ => {}

namespace XboxInput

/-- How many users there are. -/
def kMaxUsers : Nat := 4

/-! ## Helpers -/

/-- `apply_deadzone`, for a deadzone below the largest reading. The division rounds towards zero. -/
def applyDeadzone (v : Int16) (deadzone : Int) : Int16 :=
  let mag := if v.toInt < 0 then -v.toInt else v.toInt
  if mag < deadzone then 0
  else
    let scaled := ((mag - deadzone) * 32767).tdiv (32767 - deadzone)
    let out := if v.toInt < 0 then -scaled else scaled
    if 32767 < out then Int16.ofInt 32767
    else if out < -32768 then Int16.ofInt (-32768)
    else Int16.ofInt out

/-- The sticks of a sample as the title reads them. -/
def cooked (pad : XboxGamepad) : XboxGamepad :=
  { pad with
      thumbLx := applyDeadzone pad.thumbLx kXboxDeadzoneLeft
      thumbLy := applyDeadzone pad.thumbLy kXboxDeadzoneLeft
      thumbRx := applyDeadzone pad.thumbRx kXboxDeadzoneRight
      thumbRy := applyDeadzone pad.thumbRy kXboxDeadzoneRight }

/-- The comparison of `set_state`: everything but the packet number. -/
def changed (cur raw : XboxGamepad) : Bool :=
  cur.buttons != raw.buttons || cur.leftTrigger != raw.leftTrigger || cur.rightTrigger != raw.rightTrigger ||
    cur.thumbLx != raw.thumbLx || cur.thumbLy != raw.thumbLy || cur.thumbRx != raw.thumbRx ||
    cur.thumbRy != raw.thumbRy

/-! ## Operations -/

/-- `connected`. -/
def isConnected (input : XboxInput) (user : Nat) : Bool := user < kMaxUsers && input.connected user

/-- One entry of an array is assigned. -/
def assign {α : Type} (entries : Nat → α) (user : Nat) (value : α) : Nat → α := fun other =>
  if other = user then value else entries other

/-- `set_connected`: a user who leaves is blank when they come back. -/
def setConnected (input : XboxInput) (user : Nat) (on : Bool) : XboxInput × Bool :=
  if kMaxUsers ≤ user then (input, false)
  else if on then ({ input with connected := assign input.connected user true }, true)
  else
    ({ connected := assign input.connected user false
       state := assign input.state user {}
       rumble := assign input.rumble user {} }, true)

/-- `set_state`: the packet number that comes with the sample is ignored. -/
def setState (input : XboxInput) (user : Nat) (raw : XboxGamepad) : XboxInput × Bool :=
  if input.isConnected user then
    let keep := (input.state user).packet
    let packet := if changed (input.state user) raw then keep + 1 else keep
    ({ input with state := assign input.state user (raw.withPacket packet) }, true)
  else (input, false)

/-- `get_state`. -/
def getState (input : XboxInput) (user : Nat) : Option XboxGamepad :=
  if input.isConnected user then some (cooked (input.state user)) else none

/-- `set_rumble`. -/
def setRumble (input : XboxInput) (user : Nat) (rumble : XboxRumble) : XboxInput × Bool :=
  if input.isConnected user then ({ input with rumble := assign input.rumble user rumble }, true) else (input, false)

/-- `get_rumble`. -/
def getRumble (input : XboxInput) (user : Nat) : Option XboxRumble :=
  if input.isConnected user then some (input.rumble user) else none

/-- `connected_count`. -/
def connectedCount (input : XboxInput) : Nat := ((List.range kMaxUsers).filter input.connected).length

/-- The calls that the input takes. -/
inductive Request where
  | connected (user : Nat)
  | setConnected (user : Nat) (on : Bool)
  | setState (user : Nat) (raw : XboxGamepad)
  | getState (user : Nat)
  | setRumble (user : Nat) (rumble : XboxRumble)
  | getRumble (user : Nat)
  | connectedCount
deriving DecidableEq

/-- What a call gives back. -/
inductive Answer where
  | flag (ok : Bool)
  | pad (pad : Option XboxGamepad)
  | rumble (rumble : Option XboxRumble)
  | count (count : Nat)
deriving DecidableEq

/-- One call. -/
def serve (input : XboxInput) : Request → XboxInput × Answer
  | .connected user => (input, .flag (input.isConnected user))
  | .setConnected user on => ((input.setConnected user on).1, .flag (input.setConnected user on).2)
  | .setState user raw => ((input.setState user raw).1, .flag (input.setState user raw).2)
  | .getState user => (input, .pad (input.getState user))
  | .setRumble user rumble => ((input.setRumble user rumble).1, .flag (input.setRumble user rumble).2)
  | .getRumble user => (input, .rumble (input.getRumble user))
  | .connectedCount => (input, .count input.connectedCount)

end XboxInput

end SeriesxEmu
