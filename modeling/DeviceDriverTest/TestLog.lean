import DeviceDriverTest.ProcessLogic
import Mathlib.Data.List.Basic
import Mathlib.Logic.Function.Basic

/-! The logging library of the framebuffer tests: the records it writes to the
attached files, and the counters that decide its verdict. -/

namespace DeviceDriverTest

namespace TestLog

abbrev Text := List Char

inductive MsgType
  | ERRORL
  | INFO
  | PASS
  | FAIL
  | WARN
  | START
  | END
  | CASE_START
  | SYSINFO
  deriving DecidableEq

def ERROR : Int := 0
def WARNING : Int := 1
def INFORMATION : Int := 2
def VERBOSE : Int := 3

def DLIMITOR : Char := '|'
def STRSIZE : Nat := 256
def LOG_BUFF_SIZE : Nat := 512

structure LFile where
  fd : Nat
  loglevel : Int

structure Call where
  type : MsgType
  msg : Text
  dlevel : Int
  deriving DecidableEq

section Records

abbrev Outputs := Nat → Text

/-- Writes come through completely. -/
def mywrite (out : Outputs) (fd : Nat) (str : Text) : Outputs := Function.update out fd (out fd ++ str)

def snprintf (size : Nat) (str : Text) : Text := str.take (size - 1)

def MsgType.code : MsgType → Int
  | .ERRORL => 0
  | .INFO => 1
  | .PASS => 2
  | .FAIL => 3
  | .WARN => 4
  | .START => 5
  | .END => 6
  | .CASE_START => 7
  | .SYSINFO => 8

def MsgType.text : MsgType → Text
  | .ERRORL => "ERROR".toList
  | .INFO => "INFO".toList
  | .PASS => "PASS".toList
  | .FAIL => "FAIL".toList
  | .WARN => "WARN".toList
  | .START => "START".toList
  | .END => "END".toList
  | .CASE_START => "CASE_START".toList
  | .SYSINFO => "SYSINFO".toList

def msgtypes : List MsgType := [.ERRORL, .INFO, .PASS, .FAIL, .WARN, .START, .END, .CASE_START, .SYSINFO]

/-- The case of the switch, for the number that was passed. -/
def typeText (type : Int) : Option Text := (msgtypes.find? fun t => t.code == type).map MsgType.text

/-- The end of a record goes through the scratch buffer. -/
def tail (msg : Text) : Text := snprintf STRSIZE (DLIMITOR :: msg ++ ['\n'])

def writeRecord (time text msg : Text) (fd : Nat) (out : Outputs) : Outputs :=
  mywrite (mywrite (mywrite (mywrite out fd time) fd (snprintf STRSIZE [DLIMITOR])) fd text) fd (tail msg)

def walk (time text msg : Text) (dlevel : Int) : List LFile → Outputs → Outputs
  | [], out => out
  | lfp :: rest, out =>
    walk time text msg dlevel rest (if dlevel ≤ lfp.loglevel then writeRecord time text msg lfp.fd out else out)

/-- The walk for a number that is no type. The nested call leaves the cursor of the
list at its end, so no file comes after the first that takes the message. -/
def walkIncorrect (loglist : List LFile) (clock : Nat → Text) (type : Int) (msg : Text) (dlevel : Int) :
    List LFile → Outputs → Outputs
  | [], out => out
  | lfp :: rest, out =>
    if dlevel ≤ lfp.loglevel then
      let begun := mywrite (mywrite out lfp.fd (clock 0)) lfp.fd (snprintf STRSIZE [DLIMITOR])
      let warning := snprintf STRSIZE ("incorrect message type ".toList ++ (toString type).toList)
      mywrite (walk (clock 1) MsgType.WARN.text warning WARNING loglist begun) lfp.fd (tail msg)
    else walkIncorrect loglist clock type msg dlevel rest out

/-- What a call to `log` writes; `clock` gives the times it reads. -/
def log (loglist : List LFile) (clock : Nat → Text) (type : Int) (msg : Text) (dlevel : Int) (out : Outputs) :
    Outputs :=
  match typeText type with
  | some text => walk (clock 0) text msg dlevel loglist out
  | none => walkIncorrect loglist clock type msg dlevel loglist out

end Records

section Verdict

structure Log where
  passes : Int32
  failures : Int32
  errors : Int32
  logging : Bool
  case_start : Bool
  calls : List Call

/-- A test runs, has been stopped by an assertion, or has exited with a status. -/
abbrev Process := ProcessLogic.Process Log (Log × Nat)

def test_create : Log := ⟨0, 0, 0, false, false, []⟩

/-- `log` asserts that logging has begun. -/
def Log.log (l : Log) (type : MsgType) (msg : Text) (dlevel : Int) : Process :=
  if l.logging then .running { l with calls := l.calls ++ [⟨type, msg, dlevel⟩] } else .aborted

def test_sysinfo (l : Log) (msg : Text) : Process := l.log .SYSINFO msg ERROR

def test_warn (l : Log) (msg : Text) : Process := l.log .WARN msg WARNING

def test_info (l : Log) (msg : Text) : Process := l.log .INFO msg INFORMATION

def test_error (l : Log) (msg : Text) : Process := { l with errors := l.errors + 1 }.log .ERRORL msg ERROR

def case_start (l : Log) (name : Text) : Process := { l with case_start := true }.log .CASE_START name ERROR

def case_pass (l : Log) (msg : Text) : Process :=
  if l.case_start then { l with passes := l.passes + 1, case_start := false }.log .PASS msg INFORMATION
  else .aborted

def case_fail (l : Log) (msg : Text) : Process :=
  if l.case_start then { l with case_start := false, failures := l.failures + 1 }.log .FAIL msg ERROR
  else .aborted

structure Utsname where
  sysname : Text
  nodename : Text
  release : Text
  version : Text

/-- `uname` tells whether the call succeeds; the last line prints the version again. -/
def test_init (l : Log) (name : Text) (uname : Bool) (udata : Utsname) : Process :=
  let buff (format : String) (str : Text) := snprintf LOG_BUFF_SIZE (format.toList ++ str)
  ((((((({ l with logging := true }.log .START name INFORMATION).andThen fun l =>
    if uname then .running l else test_error l "uname call failed".toList).andThen fun l =>
    test_sysinfo l (buff "system name: " udata.sysname)).andThen fun l =>
    test_sysinfo l (buff "node name: " udata.nodename)).andThen fun l =>
    test_sysinfo l (buff "release: " udata.release)).andThen fun l =>
    test_sysinfo l (buff "version: " udata.version)).andThen fun l =>
    test_sysinfo l (buff "machine: " udata.version))

def verdict (l : Log) : Call :=
  if 0 < l.failures.toInt ∨ 0 < l.errors.toInt then ⟨.FAIL, "TESTFAILED".toList, ERROR⟩
  else ⟨.PASS, "TESTPASSED".toList, ERROR⟩

/-- The caller gets what is left of the sum modulo 256. -/
def exit (l : Log) : Process := .exited (l, ((l.failures + l.errors).toInt % 256).toNat)

def test_exit (l : Log) (msg : Text) : Process :=
  let lmsg (format : String) (n : Int32) := snprintf (STRSIZE - 1) (format.toList ++ (toString n.toInt).toList)
  (((((l.log .INFO (lmsg "CASES PASSED : " l.passes) ERROR).andThen fun l =>
    l.log .INFO (lmsg "CASES FAILED : " l.failures) ERROR).andThen fun l =>
    l.log .INFO (lmsg "ERRORS : " l.errors) ERROR).andThen fun l =>
    l.log (verdict l).type (verdict l).msg (verdict l).dlevel).andThen fun l =>
    l.log .END msg INFORMATION).andThen exit

def test_fail (l : Log) (msg : Text) : Process :=
  (if l.case_start then case_fail l msg else .running l).andThen fun l => test_exit l msg

def test_error_exit (l : Log) (msg : Text) : Process :=
  (test_error l msg).andThen fun l => test_exit l msg

end Verdict

end TestLog

end DeviceDriverTest
