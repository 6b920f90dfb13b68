import Barrage.Fight.Basic
import Barrage.Input.Recording

/-!
# Playing, recording and playing again

A session plays a fight and records what is held. Its frames are input frames: a frame on which the
fight asks for a pause counts as well, although nothing is simulated on it, and so does a frame
after the end of the fight. `Fight.replay` plays a recording from the start of a fight, frame by
frame as the session did, so that it should come to the same fight.
-/

namespace Barrage

variable {K : Type} [Scalar K]

namespace Fight

/-- One frame that goes on at once when it asks for a pause. -/
def playFrame (f : Fight K) (raw : ActionSet) : Except Fault (Fight K × TickReport) :=
  (f.tick raw).map fun (f, report) => (if report.pauseRequested then f.resume else f, report)

/-- A fault, with the fight as it was before the frame that failed. -/
structure Failure (K : Type) where
  /-- The fight before the frame. -/
  fight : Fight K
  fault : Fault

/-- Plays frames in order. -/
def play (f : Fight K) : List ActionSet → Except (Failure K) (Fight K)
  | [] => .ok f
  | raw :: rest =>
    match f.playFrame raw with
    | .error fault => .error ⟨f, fault⟩
    | .ok (f, _) => f.play rest

/-- Why a recording cannot be played. -/
inductive ReplayError (K : Type) where
  | asset (error : AssetError)
  | failure (failure : Failure K)

/-- Plays a recording from the start of a fight, with the seed of the recording. -/
def replay (assets : Assets K) (settings : Settings K) (recording : Recording) :
    Except (ReplayError K) (Fight K) :=
  match start assets { settings with seed := recording.seed } with
  | .error error => .error (.asset error)
  | .ok f =>
    match f.play (recording.frames.map (·.2)) with
    | .error failure => .error (.failure failure)
    | .ok f => .ok f

end Fight

/-- A fight that is being played and recorded. -/
structure Session (K : Type) where
  fight : Fight K
  /-- What was held on each frame so far. -/
  recording : Recording
  /-- Number of the next input frame. -/
  next : Nat

namespace Session

/-- A session before its first frame. -/
def start (assets : Assets K) (settings : Settings K) : Except AssetError (Session K) :=
  (Fight.start assets settings).map fun fight =>
    { fight, recording := .new settings.seed, next := 0 }

/-- One frame: what is held is recorded and given to the fight. -/
def step (s : Session K) (raw : ActionSet) : Except Fault (Session K × TickReport) :=
  (s.fight.playFrame raw).map fun (fight, report) =>
    ({ fight, recording := s.recording.record s.next raw, next := s.next + 1 }, report)

/-- Several frames in order, all of them or those up to the one with which the fight is over. -/
def play (s : Session K) (untilOver : Bool) : List ActionSet → Except Fault (Session K)
  | [] => .ok s
  | raw :: rest => do
    let (s, report) ← s.step raw
    if untilOver && report.ended then return s else s.play untilOver rest

end Session

end Barrage
