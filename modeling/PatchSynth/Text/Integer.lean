/-!
This module contains the reading of a whole text as an integer within bounds: digits, with a plus
before them or, where negative numbers are meant, a minus.
-/

namespace PatchSynth

inductive IntegerError where
  | empty
  | invalidDigit
  | tooLarge
  deriving DecidableEq

def IntegerError.message : IntegerError → String
  | .empty => "cannot parse integer from empty string"
  | .invalidDigit => "invalid digit found in string"
  | .tooLarge => "number too large to fit in target type"

/--
Read digits behind a value. The first character that is no digit, or that takes the value beyond the
bound, decides.
-/
def readDigits (bound value : Nat) : List Char → Except IntegerError Nat
  | [] => .ok value
  | c :: rest =>
    let next := 10 * value + (c.toNat - '0'.toNat)
    if !c.isDigit then
      .error .invalidDigit
    else if bound < next then
      .error .tooLarge
    else
      readDigits bound next rest

def readNat (bound : Nat) (text : List Char) : Except IntegerError Nat :=
  match text with
  | [] => .error .empty
  | ['+'] => .error .invalidDigit
  | '+' :: digits => readDigits bound 0 digits
  | digits => readDigits bound 0 digits

def readInt (bound : Nat) (text : List Char) : Except IntegerError Int :=
  match text with
  | ['-'] => .error .invalidDigit
  | '-' :: digits => (readDigits (bound + 1) 0 digits).map fun n => -(n : Int)
  | digits => (readNat bound digits).map Int.ofNat

end PatchSynth
