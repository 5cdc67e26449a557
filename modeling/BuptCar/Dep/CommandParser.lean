import BuptCar.Dep.Motor
import BuptCar.Dep.Servo

/-!
# `dep/allCommands.h` and `dep/commandParser.h`

`COMMAND_START_LISTEN`, `COMMAND_STOP_LISTEN` and the `INACTIVE` codes are used by no function.
-/

namespace BuptCar

def COMMAND_BOOST : Int := 2
def COMMAND_BOOST_CANCEL : Int := 3

def BIAS_POWER_LEVEL_START : Int := 4
def COMMAND_POWER_LEVEL_0_ACTIVE : Int := 0
def COMMAND_POWER_LEVEL_1_ACTIVE : Int := 2
def COMMAND_POWER_LEVEL_2_ACTIVE : Int := 4
def BIAS_POWER_LEVEL_END : Int := 9
def BIAS_TURNING_START : Int := 76

def cServoSensitivity : ℚ := 22 / 10
def cDefaultThrottle : ℚ := 30000

/-- The wheel angle of a steering command. -/
def steeringAngle (command : Int) : ℚ :=
  let commandParsed := command - BIAS_TURNING_START
  let commandParsed := commandParsed - 90
  let commandParsed := customRound ((commandParsed : ℚ) * cServoSensitivity)
  let commandParsed := clamp commandParsed (-90) 90
  Arduino.map commandParsed (-90) 90 (toInt (-cAngleLimit)) (toInt cAngleLimit)

namespace Chassis

def parseCommands (command : Int) (c : Chassis) : Chassis :=
  if command = -1 then c
  else
    let c := if command = COMMAND_BOOST then { c with boost := true }
      else if command = COMMAND_BOOST_CANCEL then { c with boost := false }
      else c
    -- no `return` behind the switch: a boost code reaches the range tests too
    if BIAS_POWER_LEVEL_START ≤ command ∧ command ≤ BIAS_POWER_LEVEL_END then
      let commandParsed := command - BIAS_POWER_LEVEL_START
      if commandParsed.tmod 2 = 0 then
        let throttle := if c.boost then cDefaultThrottle * 2 else cDefaultThrottle
        if commandParsed = COMMAND_POWER_LEVEL_0_ACTIVE then
          c.motorControl false false throttle throttle
        else if commandParsed = COMMAND_POWER_LEVEL_1_ACTIVE then c.motorBrake
        else if commandParsed = COMMAND_POWER_LEVEL_2_ACTIVE then
          c.motorControl true true throttle throttle
        else c
      else c.motorIdle
    else if BIAS_TURNING_START ≤ command then
      { c with ledc := servoWriteAngle (steeringAngle command) c.ledc }
    else c

/-- The chassis after `initServo` and `initMotor`. -/
def setup : Chassis := { boot with ledc := initServo boot.ledc }.initMotor

end Chassis

end BuptCar
