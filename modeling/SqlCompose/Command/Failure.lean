import SqlCompose.Error
import SqlCompose.Profile.Saved
import SqlCompose.Text.Search

/-!
# Failures of commands

A failure has a message and the causes behind it. Its report puts the causes below the message,
indented, and numbers them if there are several.

The layout of a report is that of release 1 of `anyhow`.
-/

namespace SqlCompose

/-- Why a command fails. -/
structure Failure where
  /-- What has failed. -/
  message : String
  /-- The causes behind it, from the nearest one on. -/
  causes : List String := []
deriving DecidableEq, Repr

namespace Failure

/-- The failure that an error is. -/
def ofError (e : QueryError) : Failure := ⟨e.message, e.causes⟩

/-- The failure of something of which another failure is the cause. -/
def within (context : String) (f : Failure) : Failure := ⟨context, f.message :: f.causes⟩

/-- The failure to give a profile. -/
def ofProfileFault (fault : ProfileFault) : Failure := ⟨fault.message, []⟩

/-- A text whose first line has a mark in front and whose other lines have as many blanks. -/
def indent (mark text : String) : String :=
  let blanks := List.replicate mark.length ' '
  mark ++ String.ofList (Text.replaceAll ['\n'] ('\n' :: blanks) text.toList)

/-- The mark of a numbered cause. -/
def numberMark (n : Nat) : String :=
  let digits := Text.decimal n
  String.ofList (List.replicate (5 - digits.length) ' ' ++ digits) ++ ": "

/-- The causes of a failure as lines, numbered from a number on. -/
def numbered : Nat → List String → List String
  | _, [] => []
  | n, cause :: causes => indent (numberMark n) cause :: numbered (n + 1) causes

/-- The causes of a failure as lines. -/
def causeLines : List String → List String
  | [cause] => [indent "    " cause]
  | causes => numbered 0 causes

/-- The report of a failure. -/
def report (f : Failure) : String :=
  let head := "Error: " ++ f.message
  if f.causes.isEmpty then head
  else "\n".intercalate ((head ++ "\n\nCaused by:") :: causeLines f.causes)

end Failure

end SqlCompose
