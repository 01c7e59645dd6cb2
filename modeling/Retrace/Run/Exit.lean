import Retrace.Run.Failure
import Retrace.Text.Search
/-!
How a process came to its end, and what an end that is no success says about the program.
-/
namespace Retrace

open Text

/-- The end of a process. -/
inductive Exit where
  | code (n : Nat)
  | signal (n : Nat) (dumped : Bool)
  | other (status : Nat)
  deriving DecidableEq, Repr

namespace Exit

/-- The end that a status word describes. -/
def ofStatus (status : Nat) : Exit :=
  let low := status % 128
  if low = 0 then code (status / 256 % 256)
  else if low = 127 then other status
  else signal low (status / 128 % 2 = 1)

def isSuccess : Exit → Bool
  | code 0 => true
  | _ => false

/-- The names of the signals, from the first one on. -/
def signalNames : List String :=
  ["HUP", "INT", "QUIT", "ILL", "TRAP", "ABRT", "BUS", "FPE", "KILL", "USR1", "SEGV", "USR2",
    "PIPE", "ALRM", "TERM", "STKFLT", "CHLD", "CONT", "STOP", "TSTP", "TTIN", "TTOU", "URG", "XCPU",
    "XFSZ", "VTALRM", "PROF", "WINCH", "IO", "PWR", "SYS"]

/-- A signal with its name, if it has one. -/
def signalText (n : Nat) : String :=
  toString n ++
    match if n = 0 then none else signalNames[n - 1]? with
    | some name => " (SIG" ++ name ++ ")"
    | none => ""

def message : Exit → String
  | code n => "exit status: " ++ toString n
  | signal n dumped => "signal: " ++ signalText n ++ (if dumped then " (core dumped)" else "")
  | other status =>
    if status = 0xFFFF then "continued (WIFCONTINUED)"
    else if status % 256 = 127 then
      "stopped (not terminated) by signal: " ++ signalText (status / 256 % 256)
    else "unrecognised wait status: " ++ toString status ++ " 0x" ++
      String.ofList (Nat.toDigits 16 status)

end Exit

/-! ### Panics -/

/-- What stands before the place of a panic. -/
def panicMark : List Char := " panicked at ".toList

/-- Whether a line ends the message of a panic. -/
def endsPanic (line : List Char) : Bool :=
  "note:".toList.isPrefixOf line || "stack backtrace:".toList.isPrefixOf line

/-- The message of a panic: it may stand in quotes after the mark, or else on the lines after it. -/
def panicText (rest : List Char) (more : List (List Char)) : List Char :=
  match rest with
  | '\'' :: quoted =>
    match splitLast "', ".toList quoted with
    | some (message, _) => message
    | none => quoted
  | rest =>
    let message := trim (join ['\n'] (more.takeWhile fun l => !endsPanic l))
    if message.isEmpty then "panicked at ".toList ++ dropEndWhile (· == ':') rest else message

/-- The message of the first panic that some lines report. -/
def firstPanic : List (List Char) → Option (List Char)
  | [] => none
  | line :: more =>
    match splitOnce panicMark line with
    | some (_, rest) => some (panicText rest more)
    | none => firstPanic more

/-- The message of the first panic that a text reports. -/
def panicMessage (stderr : List Char) : Option String :=
  (firstPanic (lines stderr)).map String.ofList

/-! ### Failures -/

/-- The exit code of a program that cannot write its events. -/
def lostTraceCode : Nat := 97

/-- What stands before the reason why a program cannot write its events. -/
def lostTraceMark : List Char := "btviz_trace: ".toList

/-- The reason why a program cannot write its events: the last one that it gives. -/
def lostTraceReason (stderr : List Char) : String :=
  match (lines stderr).reverse.findSome? (stripPrefix? lostTraceMark) with
  | some reason => String.ofList reason
  | none => "event file could not be written"

/-- The failure of a program that did not succeed. -/
def RunFailure.ofExit (exit : Exit) (stderr : List Char) : RunFailure :=
  let stack := String.ofList stderr
  match panicMessage stderr, exit with
  | some message, _ => ⟨.panic, message, stack⟩
  | none, .code n =>
    if n = lostTraceCode then ⟨.protocol, "trace lost: " ++ lostTraceReason stderr, stack⟩
    else ⟨.exit, "process exited with status " ++ toString n, stack⟩
  | none, .signal n _ => ⟨.signal, "process terminated by signal " ++ toString n, stack⟩
  | none, .other _ => ⟨.signal, "process terminated: " ++ exit.message, stack⟩

/-- The failure of a program that was stopped because it took too long. -/
def RunFailure.timeout (milliseconds : Nat) (stderr : List Char) : RunFailure :=
  ⟨.timeout, "run exceeded " ++ toString milliseconds ++ " ms and was killed",
    String.ofList stderr⟩

end Retrace
