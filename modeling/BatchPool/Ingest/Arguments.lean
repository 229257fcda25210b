/-!
# Arguments of an ingest run

* `Arguments`: what a command line asks for.
* `CommandLine`: a run, the help, the version, or nothing that can be done.
* `CommandLine.read`: what a list of words means. A flag stands before its value, as a word of its own
  or with `=` between them; no flag may be given twice, and there are no other words.
* `Arguments.fault?`: why a command line that can be read is refused nevertheless.
-/

namespace BatchPool

namespace Ingest

/-- What a command line asks for. -/
structure Arguments where
  input : String
  output : Option String := none
  config : Option String := none
  workers : Option Nat := none
  queueCapacity : Option Nat := none
  batchSize : Option Nat := none
  deriving Repr, DecidableEq

/-- What a command line means. -/
inductive CommandLine where
  | run (a : Arguments)
  | help
  | version
  | unusable
  deriving Repr, DecidableEq

/-- A flag that takes a value. -/
inductive Flag where
  | input
  | output
  | config
  | workers
  | queueCapacity
  | batchSize
  deriving Repr, DecidableEq

namespace Flag

/-- The flag with a name. -/
def ofName? : String → Option Flag
  | "input" => some .input
  | "output" => some .output
  | "config" => some .config
  | "workers" => some .workers
  | "queue-capacity" => some .queueCapacity
  | "batch-size" => some .batchSize
  | _ => none

/-- The value of decimal digits. -/
def digits? (n : Nat) : List Char → Option Nat
  | [] => some n
  | c :: rest => if c.isDigit then digits? (n * 10 + (c.toNat - '0'.toNat)) rest else none

/-- The number that a word stands for: digits, with a plus sign before them at most, below 2⁶⁴. -/
def number? (word : String) : Option Nat :=
  let digits := match word.toList with
    | '+' :: rest => rest
    | cs => cs
  if digits.isEmpty then none
  else (digits? 0 digits).filter fun n => n < Nat.pow 2 64

/-- The flag can have this value: a path must not be empty, a number must be one. -/
def accepts : Flag → String → Bool
  | .input, word | .output, word | .config, word => word ≠ ""
  | .workers, word | .queueCapacity, word | .batchSize, word => (number? word).isSome

end Flag

namespace CommandLine

/-- A word can be the value of the flag before it: it does not look like a flag. -/
def isValue (word : String) : Bool := word = "-" || !word.startsWith "-"

/-- A word that is a flag: its name, and the value that is attached to it. -/
def flag? (word : String) : Option (String × Option String) :=
  match word.toList with
  | '-' :: '-' :: rest =>
    let name := rest.takeWhile (· ≠ '=')
    match rest.drop name.length with
    | [] => some (String.ofList name, none)
    | _ :: value => some (String.ofList name, some (String.ofList value))
  | _ => none

/-- What stops the reading of a command line. -/
inductive Stop where
  | help
  | version
  | unusable
  deriving Repr, DecidableEq

/-- Gives a flag its value, unless it has one or cannot have this one. -/
def give (given : List (Flag × String)) (flag : Flag) (value : String) :
    Except Stop (List (Flag × String)) :=
  if (given.lookup flag).isSome || !flag.accepts value then .error .unusable
  else .ok ((flag, value) :: given)

/-- Reads the flags of a command line with their values, given those before them. -/
def flags (given : List (Flag × String)) : List String → Except Stop (List (Flag × String))
  | [] => .ok given
  | word :: rest =>
    if word = "--help" || word.startsWith "-h" then .error .help
    else if word = "--version" || word.startsWith "-V" then .error .version
    else if word = "--" then if rest.isEmpty then .ok given else .error .unusable
    else
      match flag? word with
      | none => .error .unusable
      | some (name, attached) =>
        match Flag.ofName? name, attached with
        | none, _ => .error .unusable
        | some flag, some value =>
          match give given flag value with
          | .error s => .error s
          | .ok given => flags given rest
        | some flag, none =>
          match rest with
          | [] => .error .unusable
          | value :: rest =>
            if isValue value then
              match give given flag value with
              | .error s => .error s
              | .ok given => flags given rest
            else .error .unusable

/-- What a list of words means. -/
def read (words : List String) : CommandLine :=
  match flags [] words with
  | .error .help => .help
  | .error .version => .version
  | .error .unusable => .unusable
  | .ok given =>
    let number (flag : Flag) : Option Nat := (given.lookup flag).bind Flag.number?
    match given.lookup .input with
    | none => .unusable
    | some input => .run {
        input := input
        output := given.lookup .output
        config := given.lookup .config
        workers := number .workers
        queueCapacity := number .queueCapacity
        batchSize := number .batchSize }

end CommandLine

namespace Arguments

/-- Why a command line is refused. -/
def fault? (a : Arguments) : Option String :=
  if a.workers = some 0 then some "--workers must be at least 1"
  else if a.queueCapacity = some 0 then some "--queue-capacity must be at least 1"
  else none

end Arguments

end Ingest

end BatchPool
