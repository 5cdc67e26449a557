import BuptCar.Board

/-!
# `dep/speedControl.h`

The encoder's pulse counter and the speed measured from it. The globals are `unsigned long`, 32
bits on this board. `getSpeed` is the composition of its two accesses to the shared counter:
`readCount` (everything up to the quotient) and `clearCount` (the reset), between which
`motorCountInterrupt` may run.
-/

namespace BuptCar

structure SpeedControl where
  lastTime : Nat := 0
  currentTime : Nat := 0
  deltaTime : Nat := 0
  rotateCount : Nat := 0

namespace SpeedControl

/-- `float(rotateCount) / float(deltaTime)`; `none` where the divisor is zero, which gives an
infinity or a NaN. -/
def quotient (s : SpeedControl) : Option ℚ :=
  if s.deltaTime = 0 then none else some ((s.rotateCount : ℚ) / s.deltaTime)

/-- `getSpeed` up to and including the quotient; `millis` is the uptime, which the clock gives
modulo `2 ^ 32`. -/
def readCount (millis : Nat) (s : SpeedControl) : Option ℚ × SpeedControl :=
  let currentTime := millis % 2 ^ 32
  let s := { s with
    currentTime := currentTime
    deltaTime := (currentTime + 2 ^ 32 - s.lastTime) % 2 ^ 32
    lastTime := currentTime }
  (s.quotient, s)

def clearCount (s : SpeedControl) : SpeedControl := { s with rotateCount := 0 }

def getSpeed (millis : Nat) (s : SpeedControl) : Option ℚ × SpeedControl :=
  let r := s.readCount millis
  (r.1, r.2.clearCount)

def motorCountInterrupt (s : SpeedControl) : SpeedControl :=
  { s with rotateCount := (s.rotateCount + 1) % 2 ^ 32 }

section
variable (millis : Nat) (s : SpeedControl)

@[simp] theorem readCount_rotateCount : (s.readCount millis).2.rotateCount = s.rotateCount := rfl

@[simp] theorem clearCount_rotateCount : s.clearCount.rotateCount = 0 := rfl

@[simp] theorem getSpeed_rotateCount : (s.getSpeed millis).2.rotateCount = 0 := rfl

theorem motorCountInterrupt_rotateCount (h : s.rotateCount + 1 < 2 ^ 32) :
    s.motorCountInterrupt.rotateCount = s.rotateCount + 1 := Nat.mod_eq_of_lt h

end

end SpeedControl

end BuptCar
