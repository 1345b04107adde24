import Cpm80.Image
import Cpm80.Z80.Step

/-!
Contract: a stand-in processor that plays a script.

It has the registers and the memory of a Z80 and executes none of it: every step
moves the program counter by one and then plays the next part of the script.

Owns:
- the actions of a script, port accesses and faults among them;
- the processor that plays them.

Does not own: how scripts are written down.
-/

namespace Cpm80

/-- One action of a script. A port read leaves the reply in A; a fault ends the step. -/
inductive ScriptAction where
  | setRegister (register : Register) (value : UInt8)
  | setPair (pair : RegisterPair) (value : UInt16)
  | setCounter (address : UInt16)
  | poke (address : UInt16) (bytes : List UInt8)
  | load (image : Image)
  | patch
  | portRead (port : UInt16)
  | portWrite (port : UInt16) (value : UInt8)
  | fault (fault : ExecutionFault)
deriving DecidableEq, Repr

/-- A processor that has part of its script still before it. -/
structure Scripted where
  state : Z80
  script : List (List ScriptAction)

namespace Scripted

/-- A processor just powered on, at the start of a script. -/
def ofScript (script : List (List ScriptAction)) : Scripted where
  state := .fresh
  script := script

/-- Plays the actions of one step. An image that does not fit is not loaded. -/
def play (script : List (List ScriptAction)) : List ScriptAction → Z80 → Session Scripted
  | [], state => .finished ⟨state, script⟩ none
  | .setRegister register value :: actions, state =>
    play script actions (state.setRegister register value)
  | .setPair pair value :: actions, state => play script actions (state.setPair pair value)
  | .setCounter address :: actions, state => play script actions (state.goTo address)
  | .poke address bytes :: actions, state =>
    play script actions (Processor.storeAll state address bytes)
  | .load image :: actions, state =>
    match image.load state with
    | .ok loaded => play script actions loaded
    | .error _ => play script actions state
  | .patch :: actions, state => play script actions (Image.patch state)
  | .portRead port :: actions, state =>
    .portRead port ⟨state, script⟩ fun reply =>
      play script actions (state.setRegister .a reply)
  | .portWrite port value :: actions, state =>
    .portWrite port value (play script actions state)
  | .fault fault :: _, state => .finished ⟨state, script⟩ (some fault)

def step : Scripted → Session Scripted
  | ⟨state, []⟩ => .finished ⟨state.skip 1, []⟩ none
  | ⟨state, actions :: script⟩ => play script actions (state.skip 1)

instance : Processor Scripted where
  step := step
  counter cpu := cpu.state.pc
  setCounter cpu address := { cpu with state := cpu.state.goTo address }
  register cpu := cpu.state.register
  pair cpu := cpu.state.pair
  load cpu := cpu.state.load
  store cpu address value := { cpu with state := cpu.state.store address value }

end Scripted

end Cpm80
