import MiniLisp.Session

/-!
The line loop: a session that takes its inputs from the lines of a text and answers each with what
it prints, then its value or its error. It answers the errors of the language; one of the host's
ends it. The host is assumed to have the stack that rendering a value takes.
-/

namespace MiniLisp.LineLoop

def prompt : String := "> "

/-- The lines of a text. Each ends with a newline, save perhaps the last. -/
def lines (text : String) : List String :=
  let pieces := text.toList.splitOn '\n'
  (if pieces.getLast? = some [] then pieces.dropLast else pieces).map String.ofList

/-- What is shown of the result of an input. The unit value is not worth showing, and an error that
is none of the language's is not answered. -/
def echo : Except Error Value → String
  | .ok .unit => ""
  | .ok v => v.render ++ "\n"
  | .error e => if e.isForeign then "" else "Error: " ++ e.message ++ "\n"

/-- The error of an input that is not answered. It ends the loop. -/
def escaping? : Except Error Value → Option Error
  | .ok _ => none
  | .error e => if e.isForeign then some e else none

/-- What is shown, and the error, if any, that has ended the loop. -/
structure Answer where
  shown : String
  escaped : Option Error

variable [Host]

/-- The session after a line, and the answer to the line. A line of blanks is passed over. -/
def respond (s : Session) (line : String) : Session × Answer :=
  if Text.trim line = "" then (s, ⟨"", none⟩)
  else
    let (s, run) := s.eval line
    (s, ⟨run.printed ++ echo run.result, escaping? run.result⟩)

/-- The session after some lines, and all that is shown. A prompt comes before every line, and
before the end of the input, where only a newline follows. -/
def converse (s : Session) : List String → Session × Answer
  | [] => (s, ⟨prompt ++ "\n", none⟩)
  | line :: rest =>
    let (s, answer) := respond s line
    match answer.escaped with
    | some e => (s, ⟨prompt ++ answer.shown, some e⟩)
    | none =>
      let (s, answers) := converse s rest
      (s, ⟨prompt ++ answer.shown ++ answers.shown, answers.escaped⟩)

/-- The answer to all of a fresh session's input. -/
def answerAll (limit : Nat) (input : String) : Answer :=
  (converse { limit := limit } (lines input)).2

/-- All that is shown to a fresh session's input. -/
def transcript (limit : Nat) (input : String) : String := (answerAll limit input).shown

end MiniLisp.LineLoop
