import RobotConsole.Binary.Numeral
import RobotConsole.Robot.Message
import RobotConsole.Status.LossTracker
import RobotConsole.Table.Box
import RobotConsole.Time

/-!
The latest status of a robot.  The board keeps a status only where its sequence number is not
dropped as old, and shows the robot as online while that status is fresh.
-/

namespace RobotConsole

/-- A status, when it came, and the share of statuses lost at that time. -/
structure StatusEntry where
  status : RobotStatus
  receivedAt : Instant
  lossRate : Single

def disconnectAfter : Duration := .ofSeconds 1

/-- The robot has reported recently; a report from the future counts as just now. -/
def StatusEntry.isFresh (e : StatusEntry) (now : Instant) : Bool :=
  now - e.receivedAt < disconnectAfter

structure StatusBoard where
  latest : Option StatusEntry
  tracker : LossTracker

namespace StatusBoard

def empty : StatusBoard := ⟨none, .new⟩

/-- Takes in a status, unless it is not newer than the current one. -/
def record (b : StatusBoard) (status : RobotStatus) (receivedAt : Instant) : StatusBoard :=
  match b.tracker.observe status.sequenceNumber with
  | (.ignored, tracker) => { b with tracker := tracker }
  | (_, tracker) => ⟨some ⟨status, receivedAt, tracker.lossRate⟩, tracker⟩

end StatusBoard

namespace Battery

def cellsPerPack : Nat := 3

def packsInSeries : Nat := 2

def cells : Single := .ofNat (cellsPerPack * packsInSeries)

/-- The lowest safe voltage of a cell, with headroom. -/
def minCellVoltage : Single := 3.5 + 0.1

def maxCellVoltage : Single := 4.2

def minVoltage : Single := minCellVoltage * cells

def maxVoltage : Single := maxCellVoltage * cells

/-- Below this voltage the battery is to be swapped. -/
def warningVoltage : Single := minVoltage + 1

end Battery

def statsTable (latest : Option StatusEntry) (now : Instant) : BoxTable :=
  let table := BoxTable.new
    ["Robot ID", "Battery (V)", "Packet Loss (%)", "Status Loss (%)", "Status", "Lifetime (s)",
      "Battery"]
  match latest with
  | some e =>
    let s := e.status
    table.addRow
      [toString s.robotId.toNat, s.batteryVoltage.fixed 2, toString s.primitiveLoss.toNat,
        (e.lossRate * 100).fixed 1,
        if s.runningPrimitive && e.isFresh now then "ONLINE" else "OFFLINE",
        toString s.timestamp.toNat,
        if s.batteryVoltage < Battery.warningVoltage then "LOW" else "OK"]
  | none =>
    table.addRow
      [BoxTable.blank, BoxTable.blank, BoxTable.blank, BoxTable.blank, "OFFLINE", BoxTable.blank,
        BoxTable.blank]

end RobotConsole
