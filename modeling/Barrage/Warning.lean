/-!
# Warnings

What the simulation leaves out or does not understand, without failing. Each warning knows its text.
-/

namespace Barrage

/-- Why an asset cannot be used. -/
inductive AssetError where
  /-- Nothing is stored under the key. -/
  | missing (key : String)
  /-- What is stored under the key has another shape. -/
  | malformed (key : String)
  /-- A file or a directory cannot be read. -/
  | unreadable (path : String)
  deriving DecidableEq, Repr

/-- The text that reports an asset. -/
def AssetError.message : AssetError → String
  | .missing key => "missing content asset '" ++ key ++ "'"
  | .malformed key => "malformed content asset '" ++ key ++ "'"
  | .unreadable path => "failed to read content file " ++ path

/-- Something that was left out. -/
inductive Warning where
  | unknownMove (routine : String)
  | unknownPattern (routine : String)
  /-- A pattern without the lists it draws from. -/
  | incomplete (routine pattern needs : String)
  /-- A continuous pattern whose firings are no frames apart. -/
  | zeroInterval (routine pattern : String)
  /-- A continuous sweep that would start again on its first frame. -/
  | zeroCycle (routine : String)
  | unknownEvent (subject kind : String)
  /-- A special that has no effect. -/
  | unknownSpecial (name : String)
  | spawnFailed (enemy : String) (error : AssetError)
  deriving DecidableEq, Repr

/-- The text of a warning. -/
def Warning.message : Warning → String
  | .unknownMove routine =>
    "Routine '" ++ routine ++ "': ignoring move descriptor of unknown type"
  | .unknownPattern routine =>
    "Routine '" ++ routine ++ "': ignoring shot pattern of unknown type"
  | .incomplete routine pattern needs =>
    "Routine '" ++ routine ++ "': " ++ pattern ++ " needs " ++ needs
  | .zeroInterval routine pattern =>
    "Routine '" ++ routine ++ "': " ++ pattern ++ " has a zero interval, firing once"
  | .zeroCycle routine =>
    "Routine '" ++ routine ++ "': ShotTwister cycle length is zero, firing once"
  | .unknownEvent subject kind =>
    "Ignoring level event '" ++ subject ++ "' of unknown type '" ++ kind ++ "'"
  | .unknownSpecial name =>
    "Unknown special '" ++ name ++ "', spending energy anyway"
  | .spawnFailed enemy error =>
    "Enemy '" ++ enemy ++ "' could not spawn: " ++ error.message

end Barrage
