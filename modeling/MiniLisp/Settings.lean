import MiniLisp.Text.Blank
import MiniLisp.Text.Decimal
import MiniLisp.Text.SlashPath
import MiniLisp.Text.Uppercase

/-!
Settings: what the surroundings of a program may choose. Each setting is a text that may be absent;
one that is absent, blank or out of bounds gives way to a default.
-/

namespace MiniLisp

structure Settings where
  maxDepth : Nat
  logLevel : String
  historyPath : String
deriving DecidableEq

namespace Settings

def defaultMaxDepth : Nat := 1000

def defaultLogLevel : String := "WARNING"

def defaultHistoryPath : String := ".flow_history"

/-- A positive integer, or else the default depth. -/
def readMaxDepth [Host] (raw : Option String) : Nat :=
  match raw.bind fun s => Text.readInteger? (Text.trim s) with
  | some n => if 0 < n then n.toNat else defaultMaxDepth
  | none => defaultMaxDepth

/-- What a setting holds besides blanks, if anything. -/
def content? (raw : Option String) : Option String :=
  (raw.map Text.trim).filter (· ≠ "")

def readLogLevel (raw : Option String) : String :=
  ((content? raw).map Text.uppercase).getD defaultLogLevel

def readHistoryPath (raw : Option String) : String :=
  ((content? raw).map Text.simplestPath).getD defaultHistoryPath

def ofRaw [Host] (maxDepth logLevel historyPath : Option String) : Settings where
  maxDepth := readMaxDepth maxDepth
  logLevel := readLogLevel logLevel
  historyPath := readHistoryPath historyPath

end Settings

end MiniLisp
