import SeriesxEmu.Calls
import SeriesxEmu.Runs

/-!
# The kernel, its fibers and the run loop as one step function

A run is a sequence of actions. The host calls the kernel, spawns fibers and
enters `run_until_complete`; inside the loop each turn either switches a fiber
in, lets virtual time pass, or returns to the host; a fiber that is switched in
first completes the kernel code it was suspended in and then acts until it
blocks or ends. What guest code does between two kernel calls (and what the
kernel calls that only touch memory do) is one action that changes the memory
and the clock in any way, so a theorem about every list of actions is one about
every set of guest programs.

A step has no result where a fiber resumes through a pointer to a destroyed
object, which is undefined in the source. One defined behaviour is left out: once
a stack mapping has failed, `find` is off by one, and `NtYieldExecution` and
`PsTerminateSystemThread` act on another thread than their caller. Results that
this would break name the lookup as a condition.
-/

namespace SeriesxEmu

open Scheduler

inductive Action where
  /-- The host calls `run_until_complete`. -/
  | run
  /-- One turn of the loop in `run_until_complete`. -/
  | turn
  /-- The running code, fiber or host, makes a kernel call. -/
  | call (call : Call)
  /-- The body of the running fiber returns, or a native body calls `exit`. -/
  | finish (code : Int)
  /-- The running code spawns a native fiber. -/
  | spawn (stackTopReserve : Nat) (region : Option Nat)
  /-- The running native fiber calls `sleep_ticks`. -/
  | sleep (ticks : Nat)
  /-- The running native fiber calls `join`. -/
  | join (target : Nat)
  /-- The running code computes: memory and clock change. -/
  | compute (ram : XbeRam) (filetime : Nat)

namespace XboxKrnl

/-- Store the point of the fiber switched in. -/
def setPoint (krnl : XboxKrnl) (point : Point) : XboxKrnl :=
  match krnl.sched.current with
  | none => krnl
  | some index =>
    { krnl with sched := krnl.sched.modifyThread index (fun thread =>
        { thread with ctx := { thread.ctx with point } }) }

/-- Store the body of the fiber switched in. -/
def setBody (krnl : XboxKrnl) (body : Body) : XboxKrnl :=
  match krnl.sched.current with
  | none => krnl
  | some index =>
    { krnl with sched := krnl.sched.modifyThread index (fun thread =>
        { thread with ctx := { thread.ctx with body } }) }

/-- The reply reaches the code that made the call. -/
def deliver (krnl : XboxKrnl) : Option Reply → XboxKrnl
  | none => krnl
  | some reply => krnl.note (.returned krnl.currentHandle reply)

/-- The end of a fiber body: a system thread whose routine has returned finishes
the thread object it captured, which must still be there. -/
def finishBody (krnl : XboxKrnl) (code : Int) : Option XboxKrnl :=
  match krnl.currentFiber with
  | none => none
  | some fiber =>
    match fiber.ctx.body with
    | .native => some (krnl.threadFinish code)
    | .systhread none => some (krnl.threadFinish 0)
    | .systhread (some self) =>
      if krnl.live self then some ((krnl.finishThreadObject self).threadFinish 0) else none

/-- The second half of a system thread body, after the suspension check. -/
def runBody (krnl : XboxKrnl) (self : Option Ptr) : Option XboxKrnl :=
  if krnl.threadRunner then
    let handle := (self.map (fun ptr => (krnl.object ptr).thread.objectHandle)).getD 0
    some (krnl.note (.ran krnl.currentHandle handle (krnl.threadStartInfo handle)))
  else
    match self with
    | none => krnl.finishBody 0
    | some ptr =>
      (krnl.modify ptr (fun o =>
        { o with thread := { o.thread with runnableMissingCore := true } })).finishBody 0

/-- The first dispatch of a fiber. A system thread looks itself up by its fiber
and parks while it is suspended. -/
def enterBody (krnl : XboxKrnl) : Body → Option XboxKrnl
  | .native => some krnl
  | .systhread _ =>
    let self := krnl.findThreadByFiber krnl.currentHandle
    let captured := krnl.setBody (.systhread self)
    match self with
    | some ptr =>
      if 0 < (krnl.object ptr).thread.suspendCount then
        some (captured.blockCurrent (krnl.object ptr).token kNoTimeout .parked)
      else captured.runBody self
    | none => captured.runBody none

/-- A fiber that has just been switched in leaves the point it was suspended at
and runs on from there. -/
def resume (krnl : XboxKrnl) : Option XboxKrnl :=
  match krnl.currentFiber with
  | none => none
  | some fiber =>
    let running := krnl.setPoint .guest
    let woken := !fiber.waitTimedOut
    match fiber.ctx.point with
    | .entry => running.enterBody fiber.ctx.body
    | .guest => some running
    | .returning reply => some (running.deliver (some reply))
    | .waitDispatch ptr ticks =>
      if woken && !running.live ptr then none
      else
        let (resumed, status) := running.resumeDispatch ptr ticks woken
        some (resumed.deliver (status.map waitReply))
    | .waitMultiple ptrs waitAll ticks =>
      if !ptrs.all running.live then none
      else
        let (resumed, status) := running.resumeMultiple ptrs waitAll ticks woken
        some (resumed.deliver (status.map waitReply))
    | .parked =>
      match fiber.ctx.body with
      | .systhread (some self) => if running.live self then running.runBody (some self) else none
      | _ => none
    | .suspended _ out previous reply => some ((running.writeOut out previous).deliver (some reply))
    | .csEnter va =>
      let (resumed, reply) := running.csEnter va
      some (resumed.deliver reply)

/-- Code is running: a fiber is switched in, or control is with the host. -/
def active (krnl : XboxKrnl) : Bool := krnl.sched.current.isSome || !krnl.sched.inLoop

/-- `find` of the caller's own handle finds the caller. -/
def findsItself (krnl : XboxKrnl) : Bool :=
  krnl.sched.find krnl.currentHandle == krnl.sched.current

/-- The calls that look the calling fiber up by its handle. -/
def looksItselfUp : Call → Bool
  | .ntYieldExecution => true
  | .psTerminateSystemThread _ => true
  | _ => false

/-- One action of the whole machine, with its numbers kept whole. The machine with the
words of the source is `wordStep`. -/
def step (krnl : XboxKrnl) : Action → Option XboxKrnl
  | .run =>
    if krnl.sched.current.isNone && !krnl.sched.inLoop then
      some { krnl with sched := { krnl.sched with inLoop := true } }
    else none
  | .turn =>
    if krnl.sched.current.isNone && krnl.sched.inLoop then
      match krnl.sched.loopTurn with
      | (sched, .dispatched _) => { krnl with sched }.resume
      | (sched, _) => some { krnl with sched }
    else none
  | .call call =>
    if krnl.active && (krnl.findsItself || !looksItselfUp call) then
      let (called, reply) := krnl.refreshData.exec call
      some (called.deliver reply)
    else none
  | .finish code => krnl.finishBody code
  | .spawn stackTopReserve region =>
    if krnl.active then
      some { krnl with sched := (krnl.sched.spawnReserved { body := .native, point := .entry }
        stackTopReserve region).1 }
    else none
  | .sleep ticks =>
    krnl.sched.current.map (fun index =>
      { krnl with sched := krnl.sched.threadSleep index ticks (fun ctx => { ctx with point := .guest }) })
  | .join target =>
    krnl.sched.current.map (fun index =>
      { krnl with sched := (krnl.sched.join index target (fun ctx => { ctx with point := .guest })).1 })
  | .compute ram filetime => if krnl.active then some { krnl with ram, filetime } else none

/-- The kernel before any of its calls, on any memory and any host allocator. The kernel data
area, into which every call stores the tick count, is where `install_thunks` has put it, and
zero when that has not been called. -/
def initial (ram : XbeRam) (addresses : Nat → Nat) (threadRunner : Bool) (kernelDataVa : Nat) : XboxKrnl :=
  { ram, addresses, threadRunner, kernelDataVa }

/-- The machine has run the actions from the start. -/
def Reaches (krnl : XboxKrnl) (actions : List Action) : Prop :=
  ∃ ram addresses threadRunner kernelDataVa,
    Runs.run step (initial ram addresses threadRunner kernelDataVa) actions = some krnl

end XboxKrnl

end SeriesxEmu
