/-!
# Signals

The signals that processes send each other, by their numbers: their names, what is said about a
process that a signal has ended, and what a signal does to a process that is not prepared for it.
-/

namespace CompositionGen.Signal

/-- The names of the signals from number one on, without their common beginning, and what is said
about a process that one has ended. -/
def table : List (String × String) := [
  ("HUP", "Hangup"), ("INT", "Interrupt"), ("QUIT", "Quit"), ("ILL", "Illegal instruction"),
  ("TRAP", "Trace/breakpoint trap"), ("ABRT", "Aborted"), ("BUS", "Bus error"),
  ("FPE", "Floating point exception"), ("KILL", "Killed"), ("USR1", "User defined signal 1"),
  ("SEGV", "Segmentation fault"), ("USR2", "User defined signal 2"), ("PIPE", "Broken pipe"),
  ("ALRM", "Alarm clock"), ("TERM", "Terminated"), ("STKFLT", "Stack fault"),
  ("CHLD", "Child exited"), ("CONT", "Continued"), ("STOP", "Stopped (signal)"),
  ("TSTP", "Stopped"), ("TTIN", "Stopped (tty input)"), ("TTOU", "Stopped (tty output)"),
  ("URG", "Urgent I/O condition"), ("XCPU", "CPU time limit exceeded"),
  ("XFSZ", "File size limit exceeded"), ("VTALRM", "Virtual timer expired"),
  ("PROF", "Profiling timer expired"), ("WINCH", "Window changed"), ("IO", "I/O possible"),
  ("PWR", "Power failure"), ("SYS", "Bad system call")]

/-- The first signal for use by programs. -/
def firstRealTime : Nat := 34

def last : Nat := 64

/-- The name and the description of a signal. -/
def known? (n : Nat) : Option (String × String) :=
  match n with
  | 0 => none
  | k + 1 => table[k]?

def name? (n : Nat) : Option String := (known? n).map fun (name, _) => "SIG" ++ name

def description (n : Nat) : String :=
  match known? n with
  | some (_, text) => text
  | none =>
    if firstRealTime ≤ n && n ≤ last then s!"Real-time signal {n - firstRealTime}"
    else s!"Unknown signal {n}"

/-- What a signal does to a process that is not prepared for it. -/
inductive Action where
  | terminate
  | ignore
  | stop
  | resume
  deriving DecidableEq, Repr

def resume : Nat := 18

def kill : Nat := 9

/-- The signal that a process gets when one has ended that it has made. -/
def child : Nat := 17

def pipe : Nat := 13

/-- The signals that no process can prepare for. -/
def unstoppable : List Nat := [9, 19]

/-- What a signal does to a process that is not prepared for it. Those of a terminal stop nothing
where there is none. -/
def action (n : Nat) : Action :=
  if [17, 20, 21, 22, 23, 28].contains n then .ignore
  else if n = 18 then .resume
  else if n = 19 then .stop
  else .terminate

end CompositionGen.Signal
