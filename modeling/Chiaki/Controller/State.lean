import Mathlib.Logic.Function.Basic
import Chiaki.Common

/-!
# Controller states

`controller.c`. The motion sensors are left out, they are floating point numbers. What their comparison
says is an input where a function makes it.
-/

namespace Chiaki

/-- `ChiakiControllerButton`. -/
inductive ControllerButton where
  | cross | moon | box | pyramid | dpadLeft | dpadRight | dpadUp | dpadDown | l1 | r1 | l3 | r3 | options
  | share | touchpad | ps
  deriving DecidableEq, Repr

def ControllerButton.value : ControllerButton → Nat
  | .cross => 2 ^ 0
  | .moon => 2 ^ 1
  | .box => 2 ^ 2
  | .pyramid => 2 ^ 3
  | .dpadLeft => 2 ^ 4
  | .dpadRight => 2 ^ 5
  | .dpadUp => 2 ^ 6
  | .dpadDown => 2 ^ 7
  | .l1 => 2 ^ 8
  | .r1 => 2 ^ 9
  | .l3 => 2 ^ 10
  | .r3 => 2 ^ 11
  | .options => 2 ^ 12
  | .share => 2 ^ 13
  | .touchpad => 2 ^ 14
  | .ps => 2 ^ 15

def controllerButtonsCount : Nat := 16

/-- `ChiakiControllerAnalogButton`. -/
inductive ControllerAnalogButton where
  | l2 | r2
  deriving DecidableEq, Repr

def ControllerAnalogButton.value : ControllerAnalogButton → Nat
  | .l2 => 2 ^ 16
  | .r2 => 2 ^ 17

/-- `ChiakiControllerTouch`. A negative identifier stands for no touch. -/
structure ControllerTouch where
  x : UInt16
  y : UInt16
  id : Int8
  deriving DecidableEq

abbrev controllerTouchesMax : Nat := 2

structure ControllerState where
  buttons : BitVec 32
  l2State : UInt8
  r2State : UInt8
  leftX : Int16
  leftY : Int16
  rightX : Int16
  rightY : Int16
  touchIdNext : UInt8
  touches : Fin controllerTouchesMax → ControllerTouch
  deriving DecidableEq

namespace ControllerState

/-- `chiaki_controller_state_set_idle`. -/
def idle : ControllerState where
  buttons := 0
  l2State := 0
  r2State := 0
  leftX := 0
  leftY := 0
  rightX := 0
  rightY := 0
  touchIdNext := 0
  touches := fun _ => ⟨0, 0, -1⟩

/-- The first slot that meets the condition. -/
def findSlot (state : ControllerState) (cond : ControllerTouch → Bool) : Option (Fin controllerTouchesMax) :=
  (List.finRange controllerTouchesMax).find? fun i => cond (state.touches i)

def setSlot (state : ControllerState) (i : Fin controllerTouchesMax) (touch : ControllerTouch) : ControllerState :=
  { state with touches := Function.update state.touches i touch }

/-- `chiaki_controller_state_start_touch`. -/
def startTouch (state : ControllerState) (x y : UInt16) : ControllerState × Int8 :=
  match state.findSlot (fun touch => touch.id < 0) with
  | some i =>
      let id := state.touchIdNext.toInt8
      ({ state.setSlot i ⟨x, y, id⟩ with touchIdNext := (state.touchIdNext + 1) &&& 0x7f }, id)
  | none => (state, -1)

/-- `chiaki_controller_state_stop_touch`. The two identifiers are compared as `int`. -/
def stopTouch (state : ControllerState) (id : UInt8) : ControllerState :=
  match state.findSlot (fun touch => touch.id.toInt = id.toNat) with
  | some i => state.setSlot i { state.touches i with id := -1 }
  | none => state

/-- `chiaki_controller_state_set_touch_pos`. -/
def setTouchPos (state : ControllerState) (id : UInt8) (x y : UInt16) : ControllerState :=
  match state.findSlot (fun touch => touch.id.toInt = (id &&& 0x7f).toNat) with
  | some i => state.setSlot i { state.touches i with x := x, y := y }
  | none => state

/-- `chiaki_controller_state_equals`. The comparison of the sensors has the last word. -/
def equals (a b : ControllerState) (motion : Bool) : Bool :=
  a.buttons == b.buttons && a.l2State == b.l2State && a.r2State == b.r2State && a.leftX == b.leftX
    && a.leftY == b.leftY && a.rightX == b.rightX && a.rightY == b.rightY
    && (List.finRange controllerTouchesMax).all (fun i =>
      (a.touches i).id == (b.touches i).id
        && !((a.touches i).id ≥ 0 && ((a.touches i).x != (b.touches i).x || (a.touches i).y != (b.touches i).y)))
    && motion

theorem findSlot_some {state : ControllerState} {cond : ControllerTouch → Bool} {i : Fin controllerTouchesMax}
    (h : state.findSlot cond = some i) : cond (state.touches i) = true :=
  List.find?_some (p := fun i => cond (state.touches i)) h

theorem findSlot_none {state : ControllerState} {cond : ControllerTouch → Bool} (h : state.findSlot cond = none)
    (i : Fin controllerTouchesMax) : cond (state.touches i) = false := by
  have miss := List.find?_eq_none.mp h i (List.mem_finRange i)
  exact Bool.eq_false_iff.mpr miss

@[simp] theorem setSlot_same (state : ControllerState) (i : Fin controllerTouchesMax) (touch : ControllerTouch) :
    (state.setSlot i touch).touches i = touch := by
  simp [setSlot]

theorem setSlot_other {state : ControllerState} {i j : Fin controllerTouchesMax} (touch : ControllerTouch)
    (h : j ≠ i) : (state.setSlot i touch).touches j = state.touches j := by
  simp [setSlot, h]

end ControllerState

end Chiaki
