import Barrage.Fight.Fingerprint
import Barrage.Fight.Session
import Barrage.Number.Fixed
import Barrage.Runner.Demo

/-!
# The command line

`barrage [directory] [frames]` plays a fight without a display. A scripted player holds the keys,
its input is recorded, and the recording is played again; both runs have to end in the same state.

`Runner.run` says what a run reports, as a function of its arguments and of the directory that the
first one names. Reading that directory and writing the lines is left to `Barrage.Main`.
-/

namespace Barrage.Runner

/-- What a run reports. -/
structure Report where
  /-- The lines of its log. -/
  log : List String
  /-- The line that says why it failed, if it failed and says so. -/
  error : Option String
  exitCode : Nat
  deriving DecidableEq, Repr

/-- A run that succeeds. -/
def Report.success (log : List String) : Report := ⟨log, none, 0⟩

/-- A run that fails and says why. -/
def Report.failed (log : List String) (reason : String) : Report :=
  ⟨log, some ("Error: " ++ reason), 1⟩

/-- A run that stops in the middle of a frame. -/
def Report.aborted (log : List String) : Report := ⟨log, none, 101⟩

/-- Version of the program. -/
def version : String := "0.1.0"

/-- Frames of a second. -/
def frameRate : Nat := 60

/-- Frames that are played when no number is given. -/
def defaultFrames : Nat := 60 * frameRate

/-- Key of the settings among the assets. -/
def settingsKey : String := "fight_config"

/-- A number of frames below `counterCapacity`: decimal digits, with a plus sign in front or without
one. -/
def frames? (text : String) : Option Nat :=
  let digits := match text.toList with
    | '+' :: rest => rest
    | cs => cs
  if digits ≠ [] ∧ digits.all Char.isDigit ∧ digitsValue digits < counterCapacity then
    some (digitsValue digits)
  else none

/-- A number in hexadecimal digits. -/
def hex (n : Nat) : String := "0x" ++ String.ofList (Nat.toDigits 16 n)

/-- The keys that the scripted player holds on a frame: fire always; left and right in turn, for a
second and a half each, every fourth time slowly; the special with up every five seconds; and the
pause key once. -/
def scriptedKeys (t : Nat) : ActionSet :=
  let leg := t / 90
  .ofList <|
    [.fire, if leg % 2 = 0 then .left else .right] ++
    (if leg % 4 = 3 then [.slow] else []) ++
    (if t % 300 = 299 then [.special, .up] else []) ++
    (if t = 600 then [.pause] else [])

/-- A character in the log. Those that a terminal takes as commands, or as the start of one, are
written as escapes. -/
def shownChar (c : Char) : List Char :=
  let digits := Nat.toDigits 16 c.toNat
  if c ∈ ['\x07', '\x08', '\x0c', '\x1b', '\x7f'] then
    ['\\', 'x'] ++ List.replicate (2 - digits.length) '0' ++ digits
  else if '\u0080' ≤ c ∧ c ≤ '\u009f' then ['\\', 'u', '\x7b'] ++ digits ++ ['\x7d']
  else [c]

/-- A text in the log. -/
def shown (text : String) : String := .ofList (text.toList.flatMap shownChar)

/-- The line about an event, if there is one. -/
def eventLine? (e : Event) : Option String :=
  let frame := "Frame " ++ toString e.frame ++ ": "
  match e.data with
  | .playerHit livesLeft => some (frame ++ "player hit, " ++ toString livesLeft ++ " lives left")
  | .routineChanged _ routine => some (frame ++ "enemy switched to '" ++ shown routine ++ "'")
  | .specialExecuted name => some (frame ++ "special '" ++ shown name ++ "'")
  | _ => none

/-- A part of a whole as a percentage without decimal places. -/
def percent (fraction : Binary64) : String := Fixed.text 0 (fraction * Scalar.whole 100) ++ "%"

/-- The line about the state of a fight. -/
def stateLine (f : Fight Binary64) : String :=
  let (ours, theirs) := f.bulletCounts
  "Frame " ++ toString f.frame ++ ": " ++ toString f.enemies.length ++ " enemies, " ++
    toString ours ++ "/" ++ toString theirs ++ " bullets, energy " ++
    percent f.status.energyFraction

/-- The lines about one input frame. -/
def frameLines (t : Nat) (f : Fight Binary64) (report : TickReport) : List String :=
  (if report.pauseRequested then
    ["Pause requested at input frame " ++ toString t ++ ", resuming"] else []) ++
  report.events.filterMap eventLine? ++
  (if t % (10 * frameRate) = 0 then [stateLine f] else []) ++
  (if report.ended then ["Fight over at input frame " ++ toString t] else [])

/-- How far a run has come. -/
structure Progress where
  session : Session Binary64
  events : Nat
  /-- The lines so far, the last one in front. -/
  lines : List String

/-- Plays up to `count` frames more, and stops when the fight is over. A frame that fails leaves the
lines so far. -/
def playFrames (p : Progress) : (count : Nat) → Except (List String) Progress
  | 0 => .ok p
  | count + 1 =>
    let t := p.session.next
    match p.session.step (scriptedKeys t) with
    | .error _ => .error p.lines
    | .ok (session, report) =>
      let p : Progress :=
        { session
          events := p.events + report.events.length
          lines := (frameLines t session.fight report).reverse ++ p.lines }
      if report.ended then .ok p else playFrames p count

/-- The lines about the end of a fight. -/
def resultLines (p : Progress) (hash : String) : List String :=
  let fight := p.session.fight
  let recording := p.session.recording
  ["=== Fight Results ===", "Frames simulated: " ++ toString fight.frame,
    "Lives left: " ++ toString fight.status.lives] ++
  (fight.bossHealth.map fun health => "Boss health: " ++ percent health).toList ++
  ["Total events: " ++ toString p.events,
    "Recorded " ++ toString recording.count ++ " input changes (~" ++
      toString recording.size ++ " bytes)",
    "Final State Hash: " ++ hash, "=== Verifying Determinism ==="]

/-- Plays a fight and then its recording. -/
def runFight (log : List String) (assets : Assets Binary64) (settings : Settings Binary64)
    (frames : Nat) : Report :=
  let log := log ++ ["=== Starting Fight ===", "RNG Seed: " ++ hex settings.seed]
  match Session.start assets settings with
  | .error _ => .failed log "Failed to set up the fight"
  | .ok session =>
    match playFrames { session, events := 0, lines := [] } frames with
    | .error lines => .aborted (log ++ lines.reverse)
    | .ok p =>
      let hash := p.session.fight.fingerprint
      let log := log ++ p.lines.reverse ++ resultLines p (hexText hash)
      match Fight.replay assets settings p.session.recording with
      | .error (.asset _) => .failed log "Failed to set up the replay"
      | .error (.failure _) => .aborted log
      | .ok replayed =>
        let again := replayed.fingerprint
        let log := log ++ ["Replay State Hash: " ++ hexText again]
        if again = hash then .success (log ++ ["DETERMINISM VERIFIED: Hashes match!"])
        else .failed log "Determinism failure: hashes differ"

/-- A run with its arguments. `directory` holds the files of the directory that the first one
names, if it exists. -/
def run (arguments : List String) (directory : Option (List FileEntry)) : Report :=
  let log := ["Bullet Hell v" ++ version]
  let (log, assets?) : List String × Except AssetError (Assets Binary64) :=
    match arguments with
    | [] => (log ++ ["No content directory given, using the demo fight"], .ok Demo.assets)
    | path :: _ => (log, Assets.ofDirectory path directory)
  match assets? with
  | .error _ => .failed log ("Failed to load content from " ++ arguments.headD "")
  | .ok assets =>
    let count? := match arguments with
      | _ :: text :: _ => frames? text
      | _ => some defaultFrames
    match count? with
    | none => .failed log ("Invalid frame count '" ++ arguments.getD 1 "" ++ "'")
    | some count =>
      if assets.contains settingsKey then
        match assets.settings settingsKey with
        | .error _ => .failed log "Invalid fight config"
        | .ok settings => runFight log assets settings count
      else runFight log assets .standard count

end Barrage.Runner
