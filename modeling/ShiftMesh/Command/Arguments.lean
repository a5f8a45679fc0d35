/-!
# ShiftMesh.Command.Arguments — reading the command line

`tinshift` takes options, a subcommand, and the subcommand's own options and arguments.

* `Request`: what a command line asks for.
* `isPlainNumber`: the arguments that look like an option and are a negative number: digits with at
  most one point and at most one exponent.
* `step`: what one argument does to the reading so far; a value is awaited after an option that
  takes one.
* `Request.ofArguments?`: the request of a command line, nothing if its use is wrong.
-/

namespace ShiftMesh.Command

/-- What a command line asks for. -/
inductive Request where
  | help
  | version
  /-- Show the metadata of a mesh. -/
  | info (network : Bool) (mesh : String)
  /-- Transform coordinates by a mesh. -/
  | transform (network : Bool) (mesh : String) (inverse : Bool) (coordinates : List String)
  deriving Repr, BEq, DecidableEq, Inhabited

namespace Request

/-- The mesh that a request opens. -/
def mesh? : Request → Option String
  | info _ mesh | transform _ mesh _ _ => some mesh
  | _ => none

/-- Whether a request takes its coordinates from the input text. -/
def readsInput : Request → Bool
  | transform _ _ _ coordinates => coordinates.isEmpty
  | _ => false

end Request

/-- Where on the command line an argument stands. -/
inductive Level where
  | top
  | info
  | transform
  deriving Repr, BEq, DecidableEq, Inhabited

/-- What has been read on one level. -/
structure Reading where
  /-- Whether the log level has been given. -/
  logLevel : Bool := false
  network : Bool := false
  inverse : Bool := false
  /-- Whether the next argument is the value of the log level. -/
  awaitsValue : Bool := false
  /-- Whether every further argument is positional. -/
  trailing : Bool := false
  /-- The positional arguments, the last one first. -/
  positional : List String := []
  deriving Repr, BEq, DecidableEq, Inhabited

/-- What an argument leads to. -/
inductive Reaction where
  | continue (reading : Reading)
  /-- A subcommand begins. -/
  | enter (level : Level)
  /-- What follows names the subcommand to be explained. -/
  | explain
  /-- The request is settled. -/
  | settled (request : Request)
  /-- The use is wrong. -/
  | wrong
  deriving Repr, BEq, DecidableEq, Inhabited

/-- Whether the text after a minus sign is a plain number.  A point may not come first or after the
exponent, and something must follow the exponent's letter. -/
def isPlainNumber (cs : List Char) : Bool :=
  go true false false cs
where
  /-- The rest of a plain number. -/
  go (first seenPoint seenExponent : Bool) : List Char → Bool
    | [] => true
    | c :: rest =>
      if c.isDigit then go false seenPoint seenExponent rest
      else if c = '.' && !seenPoint && !seenExponent && !first then go false true seenExponent rest
      else if (c = 'e' || c = 'E') && !seenExponent && !first then
        !rest.isEmpty && go false seenPoint true rest
      else false

namespace Reading

/-- The value of the log level is read; it may be given once on a level. -/
def giveLogLevel (r : Reading) : Reaction :=
  if r.logLevel then .wrong else .continue { r with logLevel := true, awaitsValue := false }

/-- The network is allowed; once on a level. -/
def giveNetwork (r : Reading) : Reaction :=
  if r.network then .wrong else .continue { r with network := true }

/-- The direction is inverted; once. -/
def giveInverse (r : Reading) : Reaction :=
  if r.inverse then .wrong else .continue { r with inverse := true }

/-- A positional argument of a level: a subcommand, one mesh, or a mesh and coordinates. -/
def givePositional (level : Level) (r : Reading) (arg : String) : Reaction :=
  match level with
  | .top =>
    if r.trailing then .wrong
    else if arg = "info" then .enter .info
    else if arg = "transform" then .enter .transform
    else if arg = "help" then .explain
    else .wrong
  | .info => if r.positional.isEmpty then .continue { r with positional := [arg] } else .wrong
  | .transform => .continue { r with positional := arg :: r.positional }

/-- Whether the next positional argument may be a negative number. -/
def admitsNegative (level : Level) (r : Reading) : Bool :=
  level = .transform && !r.positional.isEmpty

/-- An option by its long name, with the value that follows an equals sign. -/
def giveLong (level : Level) (r : Reading) (name : String) (value : Option String) : Reaction :=
  if name = "log-level" then
    match value with
    | some _ => r.giveLogLevel
    | none => .continue { r with awaitsValue := true }
  else if value.isSome then .wrong
  else if name = "network" then r.giveNetwork
  else if name = "inverse" && level = .transform then r.giveInverse
  else if name = "help" then .settled .help
  else if name = "version" && level = .top then .settled .version
  else .wrong

/-- Options by their letters; what follows the letter of the log level is its value. -/
def giveShort (level : Level) (r : Reading) : List Char → Reaction
  | [] => .continue r
  | 'l' :: rest => if rest.isEmpty then .continue { r with awaitsValue := true } else r.giveLogLevel
  | 'i' :: rest =>
    if level = .transform then
      match r.giveInverse with
      | .continue next => giveShort level next rest
      | other => other
    else .wrong
  | 'h' :: _ => .settled .help
  | 'V' :: _ => if level = .top then .settled .version else .wrong
  | _ => .wrong

/-- What one argument does to a reading. -/
def step (level : Level) (r : Reading) (arg : String) : Reaction :=
  if r.trailing then r.givePositional level arg
  else
    match arg.toList with
    | ['-', '-'] => if r.awaitsValue then .wrong else .continue { r with trailing := true }
    | '-' :: '-' :: long =>
      if r.awaitsValue then .wrong
      else
        let name := String.ofList (long.takeWhile (· != '='))
        let value := match long.dropWhile (· != '=') with
          | [] => none
          | _ :: rest => some (String.ofList rest)
        r.giveLong level name value
    | ['-'] => if r.awaitsValue then r.giveLogLevel else r.givePositional level arg
    | '-' :: short =>
      if r.admitsNegative level && isPlainNumber short then
        if r.awaitsValue then r.giveLogLevel else r.givePositional level arg
      else if r.awaitsValue then .wrong
      else r.giveShort level short
    | _ => if r.awaitsValue then r.giveLogLevel else r.givePositional level arg

/-- What a level asks for at the end of the command line; `network` tells whether an outer level
allows the network. -/
def finish (level : Level) (network : Bool) (r : Reading) : Option Request :=
  if r.awaitsValue then none
  else
    match level, r.positional.reverse with
    | .info, [mesh] => some (.info (network || r.network) mesh)
    | .transform, mesh :: coordinates =>
      some (.transform (network || r.network) mesh r.inverse coordinates)
    | _, _ => none

end Reading

/-- The names of the subcommands. -/
def subcommands : List String := ["info", "transform", "help"]

/-- The request for an explanation of the program or of one subcommand. -/
def helpRequest : List String → Option Request
  | [] => some .help
  | [name] => if subcommands.contains name then some .help else none
  | _ => none

/-- Reads the arguments of a level; nothing if the use is wrong. -/
def readArguments (level : Level) (network : Bool) (r : Reading) : List String → Option Request
  | [] => r.finish level network
  | arg :: rest =>
    match r.step level arg with
    | .continue next => readArguments level network next rest
    | .enter inner => readArguments inner (network || r.network) {} rest
    | .explain => helpRequest rest
    | .settled request => some request
    | .wrong => none

/-- The request of a command line; nothing if its use is wrong. -/
def Request.ofArguments? (args : List String) : Option Request := readArguments .top false {} args

end ShiftMesh.Command
