import NuedcFirmware.Common.Pid
import NuedcFirmware.Modules.LineSensor

/-! The line tracker `line_tracker.c`: a turn value from the sensor frame. -/

namespace NuedcFirmware.Control

open NuedcFirmware.Lib NuedcFirmware.Platform NuedcFirmware.Common NuedcFirmware.Modules

variable {F : Type*} [CFloat F]

/-- `TRACK_LOST_DIFF`. -/
def trackLostDiff : F := 0.18

/-- `Control_LineTracker_Init`, on the sensor it takes hold of. -/
def controlLineTrackerInit (sensor : DevLineSensor F) : DevLineSensor F :=
  devLineSensorReset sensor

def controlLineTrackerUpdate (pid : PID F) (sensor : DevLineSensor F) (b : Board) :
    F × PID F × DevLineSensor F :=
  let sensor := devLineSensorUpdate sensor b
  let info := sensor.frame
  if !info.onLine then
    let hold := info.lastBias
    if hold > 0.0 then (trackLostDiff, pid, sensor)
    else if hold < 0.0 then (-trackLostDiff, pid, sensor)
    else (0.0, pid, sensor)
  else
    let (turn, pid) := pidUpdate pid 0.0 info.bias
    (turn, pid, sensor)

/-- The turn of a lost line, from the last bias. -/
def seekTurn (hold : F) : F :=
  if hold > 0.0 then trackLostDiff else if hold < 0.0 then -trackLostDiff else 0.0

section Update

variable {pid : PID F} {sensor : DevLineSensor F} {b : Board}

/-- On the line the turn is the output of the PID for the bias. -/
theorem controlLineTrackerUpdate_of_onLine
    (h : (devLineSensorUpdate sensor b).frame.onLine = true) :
    controlLineTrackerUpdate pid sensor b =
      ((pidUpdate pid 0.0 (devLineSensorUpdate sensor b).frame.bias).1,
        (pidUpdate pid 0.0 (devLineSensorUpdate sensor b).frame.bias).2,
        devLineSensorUpdate sensor b) := by
  rw [controlLineTrackerUpdate, h]
  rfl

/-- Off the line the turn comes from the last bias, and the PID rests. -/
theorem controlLineTrackerUpdate_of_lost
    (h : (devLineSensorUpdate sensor b).frame.onLine = false) :
    controlLineTrackerUpdate pid sensor b =
      (seekTurn (devLineSensorUpdate sensor b).frame.lastBias, pid,
        devLineSensorUpdate sensor b) := by
  rw [controlLineTrackerUpdate, h, Bool.not_false, if_pos rfl, seekTurn]
  dsimp only
  split_ifs
  · rfl
  · rfl
  · rfl

@[simp] theorem sensor_controlLineTrackerUpdate :
    (controlLineTrackerUpdate pid sensor b).2.2 = devLineSensorUpdate sensor b := by
  cases h : (devLineSensorUpdate sensor b).frame.onLine with
  | true => rw [controlLineTrackerUpdate_of_onLine h]
  | false => rw [controlLineTrackerUpdate_of_lost h]

end Update

end NuedcFirmware.Control
