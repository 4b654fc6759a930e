import CoreSplice.Text.Decimal

/-!
# Errors of the operating system

An operation on a file that fails does so with a number, which has a text; or, where a file is
served by something else, with a text alone.

* `SystemError` — the two forms.
* `SystemError.reason` — the text alone, as most messages give it.
* `SystemError.full` — the text with its number, as messages about positions give it.
-/

namespace CoreSplice

/-- Why an operation on a file failed. -/
inductive SystemError where
  | numbered (number : Nat)
  | described (text : String)
  deriving DecidableEq, Repr

namespace SystemError

/-- Nothing stands under the name. -/
def notFound : SystemError := numbered 2
/-- A file stands where the name goes on as if it were a directory. -/
def notDirectory : SystemError := numbered 20
/-- A directory cannot be read or written like a file. -/
def isDirectory : SystemError := numbered 21
/-- The argument is out of the range of the operation. -/
def invalidArgument : SystemError := numbered 22
/-- There is no room for what is written. -/
def noSpace : SystemError := numbered 28
/-- A part of the name, or the name as a whole, is too long. -/
def nameTooLong : SystemError := numbered 36

/-- The text of an error number. -/
def textOf : Nat → String
  | 0 => "Success"
  | 1 => "Operation not permitted"
  | 2 => "No such file or directory"
  | 3 => "No such process"
  | 4 => "Interrupted system call"
  | 5 => "Input/output error"
  | 6 => "No such device or address"
  | 7 => "Argument list too long"
  | 8 => "Exec format error"
  | 9 => "Bad file descriptor"
  | 10 => "No child processes"
  | 11 => "Resource temporarily unavailable"
  | 12 => "Cannot allocate memory"
  | 13 => "Permission denied"
  | 14 => "Bad address"
  | 15 => "Block device required"
  | 16 => "Device or resource busy"
  | 17 => "File exists"
  | 18 => "Invalid cross-device link"
  | 19 => "No such device"
  | 20 => "Not a directory"
  | 21 => "Is a directory"
  | 22 => "Invalid argument"
  | 23 => "Too many open files in system"
  | 24 => "Too many open files"
  | 25 => "Inappropriate ioctl for device"
  | 26 => "Text file busy"
  | 27 => "File too large"
  | 28 => "No space left on device"
  | 29 => "Illegal seek"
  | 30 => "Read-only file system"
  | 31 => "Too many links"
  | 32 => "Broken pipe"
  | 36 => "File name too long"
  | 40 => "Too many levels of symbolic links"
  | 116 => "Stale file handle"
  | 122 => "Disk quota exceeded"
  | number => "Unknown error " ++ Text.Decimal.write number

/-- The text of the error alone. -/
def reason : SystemError → String
  | numbered number => textOf number
  | described text => text

/-- The text of the error, with its number if it has one. -/
def full : SystemError → String
  | numbered number => "[Errno " ++ Text.Decimal.write number ++ "] " ++ textOf number
  | described text => text

end SystemError

end CoreSplice
