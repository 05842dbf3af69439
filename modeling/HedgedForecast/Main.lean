import HedgedForecast.Cli.Run
import Std.Time.DateTime.Timestamp

/-! # The program

Gathers what surrounds the command, runs it, and carries out what it leaves behind. No transport is
linked in: every exchange with a server counts as refused.
-/

namespace HedgedForecast

/-- What stands at a path of the disk. -/
def nodeAt? (path : Path) : IO (Option DiskNode) := do
  try
    return some (.file (← IO.FS.readBinFile path.text))
  catch _ =>
    try
      let _ ← IO.FS.realPath path.text
      return some .directory
    catch _ =>
      return none

/-- The disk as far as one path and those above it are concerned. -/
def diskAround (path : Path) : IO Disk := do
  let mut disk : Disk := ⟨fun _ => none⟩
  for place in Disk.downTo path do
    match ← nodeAt? place with
    | some node => disk := disk.set place node
    | none => pure ()
  return disk

/-- Writes a file that the command made or changed. -/
def keep (before after : Disk) (path : Path) : IO Unit := do
  match after.node? path with
  | some (.file contents) =>
    if before.node? path != some (.file contents) then
      if path.dropLast.any (· != "") then IO.FS.createDirAll (Path.text path.dropLast)
      IO.FS.writeBinFile path.text contents
  | _ => pure ()

/-- The directory for settings. -/
def settingsDirectory : IO (Option Path) := do
  match ← IO.getEnv "XDG_CONFIG_HOME" with
  | some directory =>
    if directory.startsWith "/" then return some (Path.ofText directory)
  | none => pure ()
  return (← IO.getEnv "HOME").map fun home => Path.ofText home ++ [".config"]

/-- The present moment. -/
def presentMoment : IO Moment := do
  let timestamp ← Std.Time.Timestamp.now
  return Moment.epoch.later timestamp.toNanosecondsSinceUnixEpoch.toInt.toNat

/-- The settings file that a command line leads to. -/
def settingsPath (directory : Option Path) (arguments : List String) : Option Path :=
  match Cli.readArguments arguments with
  | .ok (.lookup { config := some file, .. }) => some (Path.ofText file)
  | _ => directory.map Settings.defaultPath

end HedgedForecast

open HedgedForecast in
/-- Runs the command on the given arguments. -/
def main (arguments : List String) : IO UInt32 := do
  let directory ← settingsDirectory
  let path := settingsPath directory arguments
  let disk ← diskAround (path.getD [])
  let world : Cli.World := {
    environment := {
      weatherApiKey := ← IO.getEnv "SKYCAST_WEATHERAPI_KEY"
      primaryMaxDuration := ← IO.getEnv "SKYCAST_PRIMARY_MAX_DURATION_MS" }
    disk
    directory
    transport := fun _ => .refused
    moment := ← presentMoment }
  let done := Cli.run world arguments
  keep disk done.disk (path.getD [])
  IO.print done.output
  IO.eprint done.complaint
  return UInt32.ofNat done.code
