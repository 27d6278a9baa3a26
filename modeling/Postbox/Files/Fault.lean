/-!
# Faults of file operations

The causes for which an operation on files can fail, and what is said of each.
-/

namespace Postbox

/-- Why an operation on files failed. -/
inductive Fault where
  | notPermitted
  | notFound
  | inputOutput
  | accessDenied
  | alreadyExists
  | notDirectory
  | isDirectory
  | invalidArgument
  | noSpace
  | nameTooLong
  | directoryNotEmpty
  /-- The content is not the UTF-8 encoding of a text. -/
  | notText
  /-- The path holds a zero byte, which no file name can. -/
  | zeroByte
  /-- A cause known only by what is said of it. -/
  | other (description : String)
deriving DecidableEq, Repr

namespace Fault

/-- What a fault is called. -/
def description : Fault → String
  | notPermitted => "Operation not permitted"
  | notFound => "No such file or directory"
  | inputOutput => "Input/output error"
  | accessDenied => "Permission denied"
  | alreadyExists => "File exists"
  | notDirectory => "Not a directory"
  | isDirectory => "Is a directory"
  | invalidArgument => "Invalid argument"
  | noSpace => "No space left on device"
  | nameTooLong => "File name too long"
  | directoryNotEmpty => "Directory not empty"
  | notText => "stream did not contain valid UTF-8"
  | zeroByte => "file name contained an unexpected NUL byte"
  | other description => description

/-- The faults that the operating system numbers, with their numbers. -/
def numbered : List (Nat × Fault) :=
  [(1, notPermitted), (2, notFound), (5, inputOutput), (13, accessDenied), (17, alreadyExists),
   (20, notDirectory), (21, isDirectory), (22, invalidArgument), (28, noSpace), (36, nameTooLong),
   (39, directoryNotEmpty)]

/-- The number that the operating system gives a fault, if it is one of its own. -/
def number? (fault : Fault) : Option Nat :=
  (numbered.find? (·.2 == fault)).map (·.1)

/-- The fault that the operating system gives a number. -/
def ofNumber? (number : Nat) : Option Fault :=
  numbered.lookup number

/-- What is said of a fault. -/
def message (fault : Fault) : String :=
  match fault.number? with
  | some number => fault.description ++ " (os error " ++ toString number ++ ")"
  | none => fault.description

theorem ofNumber?_of_number? {fault : Fault} {number : Nat} (h : fault.number? = some number) :
    ofNumber? number = some fault := by
  cases fault <;> cases h <;> rfl

end Fault

end Postbox
