/-!
# Exit statuses and signals

A process ends by itself, with a code, or by a signal. To the one who waits for it a signal looks
like a code past 128; only the system that started the process can tell them apart.
-/

namespace CommandSuite

/-- A signal as the system knows it. -/
structure Signal where
  number : Nat
  name : String
  description : String
  deriving Repr, DecidableEq

namespace Signal

/-- The signals by number. -/
def all : List Signal :=
  [⟨1, "HUP", "Hangup"⟩, ⟨2, "INT", "Interrupt"⟩, ⟨3, "QUIT", "Quit"⟩,
   ⟨4, "ILL", "Illegal instruction"⟩, ⟨5, "TRAP", "Trace/breakpoint trap"⟩,
   ⟨6, "ABRT", "Aborted"⟩, ⟨7, "BUS", "Bus error"⟩, ⟨8, "FPE", "Floating point exception"⟩,
   ⟨9, "KILL", "Killed"⟩, ⟨10, "USR1", "User defined signal 1"⟩,
   ⟨11, "SEGV", "Segmentation fault"⟩, ⟨12, "USR2", "User defined signal 2"⟩,
   ⟨13, "PIPE", "Broken pipe"⟩, ⟨14, "ALRM", "Alarm clock"⟩, ⟨15, "TERM", "Terminated"⟩,
   ⟨16, "STKFLT", "Stack fault"⟩, ⟨17, "CHLD", "Child exited"⟩, ⟨18, "CONT", "Continued"⟩,
   ⟨19, "STOP", "Stopped (signal)"⟩, ⟨20, "TSTP", "Stopped"⟩, ⟨21, "TTIN", "Stopped (tty input)"⟩,
   ⟨22, "TTOU", "Stopped (tty output)"⟩, ⟨23, "URG", "Urgent I/O condition"⟩,
   ⟨24, "XCPU", "CPU time limit exceeded"⟩, ⟨25, "XFSZ", "File size limit exceeded"⟩,
   ⟨26, "VTALRM", "Virtual timer expired"⟩, ⟨27, "PROF", "Profiling timer expired"⟩,
   ⟨28, "WINCH", "Window changed"⟩, ⟨29, "POLL", "I/O possible"⟩, ⟨30, "PWR", "Power failure"⟩,
   ⟨31, "SYS", "Bad system call"⟩]

/-- The signal of a number. -/
def ofNumber? (number : Nat) : Option Signal := all.find? (·.number = number)

/-- The signal of a name, in capitals. -/
def ofName? (name : String) : Option Signal := all.find? (·.name = name)

/-- Whether the signal leaves a process as it is that says nothing about it. -/
def isHarmless (signal : Signal) : Bool := ["CHLD", "CONT", "URG", "WINCH"].contains signal.name

end Signal

/-- How a process ends. -/
inductive ExitStatus where
  | code (n : Nat)
  | signal (number : Nat)
  deriving Repr, DecidableEq

namespace ExitStatus

/-- The end with a code, of which the system keeps eight bits. -/
def ofNat (n : Nat) : ExitStatus := code (n % 256)

/-- What the one who waits for the process sees. -/
def number : ExitStatus → Nat
  | code n => n
  | signal n => 128 + n

/-- The exit code, if the process ended by itself. -/
def code? : ExitStatus → Option Int
  | code n => some n
  | signal _ => none

/-- What a shell says of a process that it has waited for. An interrupt and a broken pipe are no
news. -/
def notice? : ExitStatus → Option String
  | code _ => none
  | signal n =>
    if n = 2 || n = 13 then none
    else some (((Signal.ofNumber? n).map Signal.description).getD
      ("Unknown signal " ++ toString n))

end ExitStatus

end CommandSuite
