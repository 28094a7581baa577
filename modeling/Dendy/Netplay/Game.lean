import Dendy.Word

/-!
# The rollback game

`Game` of `netplay/game.go`. The game keeps the inputs of both players since its checkpoint, plays every frame at
once with the remote player's last known buttons, and when remote inputs arrive it rolls the bus back to the
checkpoint, replays the frames both players have confirmed, saves a new checkpoint there, and replays the rest with
the speculated remote input.

The bus is abstract (`Console`): a deterministic frame step of the state a save captures, given the buttons held on
the two joysticks, and a save-state codec under which loading the bytes of a save brings the saved state back.
`FastForward` and the disassembly switch change neither that state nor the bookkeeping and are not modelled. A Go
panic is `none`.

The law asks that a load restore the whole saved state. The repository's only cartridge, AxROM, leaves its CHR RAM
out of `SaveState` (`Mapper007.loadState_keeps_chr_written_after_save`), so a bus with that cartridge does not satisfy
it: the results on the netplay game hold for consoles whose save is complete.
-/

namespace Dendy

/-- A controller port of the console. -/
inductive Port
  | joy1
  | joy2
  deriving DecidableEq, Repr

def Port.other : Port → Port
  | .joy1 => .joy2
  | .joy2 => .joy1

/-- `console.Bus` as the game drives it: one frame of play from a saved state with the buttons of joystick 1 and
joystick 2, and `SaveState`/`LoadState` (into the live bus), which bring a saved state back. -/
structure Console (S : Type) where
  step : S → UInt8 → UInt8 → S
  saveState : S → List UInt8
  loadState : S → List UInt8 → Option S
  loadState_saveState : ∀ s t, loadState t (saveState s) = some s

/-- A console whose state is the list of joystick bytes played so far, and whose save is that list. The smallest
console the law holds for; the concrete runs below are played on it. -/
def Console.tape : Console (List UInt8) where
  step s j1 j2 := s ++ [j1, j2]
  saveState s := s
  loadState _ t := some t
  loadState_saveState _ _ := rfl

/-- Modelled from the spec: `internal/ringbuf` is not among the sources. A buffer is its entries, oldest first; `At`,
`Set` and `TruncFront` out of range are errors, and the capacity is not modelled. -/
structure RingBuf where
  items : List UInt8

namespace RingBuf

def new : RingBuf := ⟨[]⟩

def len (b : RingBuf) : Nat := b.items.length

def pushBack (b : RingBuf) (v : UInt8) : RingBuf := ⟨b.items ++ [v]⟩

def «at» (b : RingBuf) (i : Nat) : Option UInt8 := b.items[i]?

def set (b : RingBuf) (i : Nat) (v : UInt8) : Option RingBuf :=
  if i < b.len then some ⟨b.items.set i v⟩ else none

def truncFront (b : RingBuf) (n : Nat) : Option RingBuf :=
  if n ≤ b.len then some ⟨b.items.drop n⟩ else none

end RingBuf

structure Checkpoint where
  frame : UInt32
  state : List UInt8

/-- The game's state. `bus` is the state a save captures and `joy1`, `joy2` the buttons set on the bus's joysticks;
`LocalJoy` is one of them and `RemoteJoy` the other. -/
structure Game (S : Type) where
  frame : UInt32
  bus : S
  joy1 : UInt8
  joy2 : UInt8
  cp : Checkpoint
  gen : UInt32
  localInput : RingBuf
  remoteInput : RingBuf
  speculatedInput : RingBuf
  lastRemoteInput : UInt8
  localJoy : Port

namespace Game

variable {S : Type} (M : Console S)

/-- `NewGame` on a bus in state `bus`, with the joystick the session then makes `LocalJoy`. The buffers are made by
`Init`. -/
def newGame (bus : S) (localJoy : Port) : Game S :=
  { frame := 0, bus, joy1 := 0, joy2 := 0, cp := ⟨0, []⟩, gen := 0, localInput := .new, remoteInput := .new,
    speculatedInput := .new, lastRemoteInput := 0, localJoy }

def remoteJoy (g : Game S) : Port := g.localJoy.other

/-- `SetButtons` on the joystick plugged into port `p`. -/
def setButtons (g : Game S) : Port → UInt8 → Game S
  | .joy1, buttons => { g with joy1 := buttons }
  | .joy2, buttons => { g with joy2 := buttons }

def frameNumber (g : Game S) : UInt32 := g.frame

def checkpoint (g : Game S) : Checkpoint := g.cp

def playFrame (g : Game S) : Option (Game S) :=
  let frame := g.frame + 1
  if frame = 0 then none -- panic("frame counter overflow")
  else some { g with bus := M.step g.bus g.joy1 g.joy2, frame }

def save (g : Game S) : Game S := { g with cp := { frame := g.frame, state := M.saveState g.bus } }

def rollback (g : Game S) : Option (Game S) := do
  let bus ← M.loadState g.bus g.cp.state -- panic("failed to restore checkpoint")
  some { g with bus, frame := g.cp.frame }

def init (g : Game S) (cp : Option Checkpoint) : Option (Game S) :=
  let g := { g with frame := 0, gen := g.gen + 1, localInput := .new, remoteInput := .new, speculatedInput := .new }
  match cp with
  | some cp => rollback M { g with cp }
  | none => some (save M g)

def handleLocalInput (g : Game S) (buttons : UInt8) : Game S :=
  let g := (g.setButtons g.localJoy buttons).setButtons g.remoteJoy g.lastRemoteInput
  { g with localInput := g.localInput.pushBack buttons,
           speculatedInput := g.speculatedInput.pushBack g.lastRemoteInput }

def handleRemoteInput (g : Game S) (buttons : UInt8) : Game S :=
  { g with remoteInput := g.remoteInput.pushBack buttons, lastRemoteInput := buttons }

/-! ### The loops of `applyRemoteInput` -/

/-- One pass of the replay of confirmed inputs: both joysticks from the buffers, then a frame. -/
def replayConfirmedStep (g : Game S) (i : Nat) : Option (Game S) := do
  let l ← g.localInput.at i
  let g := g.setButtons g.localJoy l
  let r ← g.remoteInput.at i
  playFrame M (g.setButtons g.remoteJoy r)

/-- One pass of the rebuild of the speculated input from the last confirmed remote input. -/
def rebuildSpeculatedStep (inputSize : Nat) (g : Game S) (i : Nat) : Option (Game S) := do
  let r ← g.remoteInput.at (inputSize - 1)
  let speculatedInput ← g.speculatedInput.set i r
  some { g with speculatedInput }

/-- One pass of the replay of local-only frames: the joysticks are always set, a frame is played only while the
game is behind `endFrame`. -/
def replaySpeculatedStep (endFrame : UInt32) (g : Game S) (i : Nat) : Option (Game S) := do
  let r ← g.speculatedInput.at i
  let g := g.setButtons g.remoteJoy r
  let l ← g.localInput.at i
  let g := g.setButtons g.localJoy l
  if g.frame < endFrame then playFrame M g else some g

/-- The body of `applyRemoteInput` up to its frame check: the rollback, the replay of confirmed inputs, the new
checkpoint, the rebuild of the speculated input and the replay of local-only frames. -/
def replay (g : Game S) (inputSize : Nat) (endFrame : UInt32) : Option (Game S) := do
  let g ← rollback M g
  let g ← (List.range inputSize).foldlM (replayConfirmedStep M) g
  let g := save M g
  let g ← (List.range' inputSize (g.localInput.len - inputSize)).foldlM (rebuildSpeculatedStep inputSize) g
  (List.range' inputSize (g.localInput.len - inputSize)).foldlM (replaySpeculatedStep M endFrame) g

def applyRemoteInput (g : Game S) : Option (Game S) :=
  let inputSize := min g.localInput.len g.remoteInput.len
  if inputSize = 0 then some g
  else do
    let endFrame := g.frame
    let g ← replay M g inputSize endFrame
    if g.frame ≠ endFrame then none -- panic("frame advanced from %d to %d")
    else do
      let localInput ← g.localInput.truncFront inputSize
      let remoteInput ← g.remoteInput.truncFront inputSize
      let speculatedInput ← g.speculatedInput.truncFront inputSize
      some { g with localInput, remoteInput, speculatedInput }

def runFrame (g : Game S) : Option (Game S) := (applyRemoteInput M g).bind (playFrame M)

/-! ### Runs -/

/-- The calls the session makes on the game between two `Init`s. -/
inductive Op
  | handleLocalInput (buttons : UInt8)
  | handleRemoteInput (buttons : UInt8)
  | runFrame

def apply (g : Game S) : Op → Option (Game S)
  | .handleLocalInput buttons => some (g.handleLocalInput buttons)
  | .handleRemoteInput buttons => some (g.handleRemoteInput buttons)
  | .runFrame => runFrame M g

def exec (g : Game S) (ops : List Op) : Option (Game S) := ops.foldlM (apply M) g

@[simp] theorem exec_nil (g : Game S) : exec M g [] = some g := rfl

theorem exec_cons (g : Game S) (o : Op) (ops : List Op) :
    exec M g (o :: ops) = (apply M g o).bind fun g => exec M g ops := rfl

theorem exec_append (g : Game S) (ops ops' : List Op) :
    exec M g (ops ++ ops') = (exec M g ops).bind fun g => exec M g ops' :=
  List.foldlM_append _ _ _ _

/-- The local bitmaps of a run, in the order they were handed to the game. -/
def localsOf : List Op → List UInt8
  | [] => []
  | .handleLocalInput b :: ops => b :: localsOf ops
  | _ :: ops => localsOf ops

/-- The remote bitmaps of a run, in the order they were received. -/
def remotesOf : List Op → List UInt8
  | [] => []
  | .handleRemoteInput b :: ops => b :: remotesOf ops
  | _ :: ops => remotesOf ops

end Game

end Dendy
