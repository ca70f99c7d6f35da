/-
  DiskScope/CommandLine.lean --- what a command line asks for.

  WHAT THIS FILE IS FOR.  A command line names one command and some options.  Flags that
  hold for every command may stand before the command's name or after it; options
  with a value belong to one command and follow its name.  After the word `--` every
  word stands for itself.

  ONCE ONLY.  Each flag but the one that raises verbosity, and each option, is given at
  most once on either side of the command's name.  A line that breaks a rule makes
  no request, and nothing is said here about why.
-/
import DiskScope.Traced

set_option autoImplicit false

namespace DiskScope

/-! ## Commands -/

/-- What the program is asked to do. -/
inductive Command where
  /-- List the partition table. -/
  | partitions (image : String)
  /-- Show the superblock. -/
  | info (image : String)
  /-- Show a group. -/
  | group (image : String) (agno : Nat)
  /-- Show a block or a sector of it, as the structure it begins with or as the one named. -/
  | block (image : String) (block : Nat) (sector : Option Nat) (kind : Option String)
  /-- Show an inode. -/
  | inode (image : String) (ino : Nat)
  /-- Look for structures on the whole device. -/
  | scan (image : String) (stride : Option Nat)
  /-- Write the used blocks to a sparse image. -/
  | writeUsed (image destination : String)
  /-- List the structures that are known. -/
  | types
  deriving DecidableEq, Repr, Inhabited

namespace Command

/-- The file that a command reads. -/
def source? : Command → Option String
  | partitions image => image
  | info image => image
  | group image _ => image
  | block image _ _ _ => image
  | inode image _ => image
  | scan image _ => image
  | writeUsed image _ => image
  | types => none

/-- The file that a command writes. -/
def destination? : Command → Option String
  | writeUsed _ destination => destination
  | _ => none

end Command

/-- A command and how it is to be carried out. -/
structure Request where
  command : Command
  mode : Mode
  /-- Whether to report in JSON where the command can. -/
  json : Bool
  /-- The least urgent events to tell about. -/
  threshold : Level
  deriving DecidableEq, Repr, Inhabited

/-! ## Words -/

/-- One word of a command line. -/
inductive Word where
  /-- An option by its name, perhaps with a value behind an equals sign. -/
  | option (name : String) (value : Option String)
  /-- Flags by their letters. -/
  | letters (letters : List Char)
  /-- The mark after which words stand for themselves. -/
  | mark
  /-- A word that stands for itself. -/
  | plain (text : String)
  deriving DecidableEq, Repr, Inhabited

namespace Word

/-- The kind of word that a text is; a lone dash stands for itself. -/
def ofString (text : String) : Word :=
  match text.toList with
  | ['-', '-'] => .mark
  | '-' :: '-' :: rest =>
    .option (String.ofList (rest.takeWhile (· != '=')))
      ((rest.dropWhile (· != '=')).tail?.map String.ofList)
  | '-' :: first :: rest => .letters (first :: rest)
  | _ => .plain text

end Word

/-! ## Flags -/

/-- The flags given on one side of the command's name. -/
structure Flags where
  force : Bool
  json : Bool
  verbosity : Nat
  deriving DecidableEq, Repr, Inhabited

namespace Flags

/-- No flags. -/
def none : Flags := ⟨false, false, 0⟩

/-- Adds the flag of this name, if it can be added. -/
def add (name : String) (flags : Flags) : Option Flags :=
  if name = "force" && !flags.force then some { flags with force := true }
  else if name = "json" && !flags.json then some { flags with json := true }
  else if name = "verbose" then some { flags with verbosity := flags.verbosity + 1 }
  else .none

/-- The name of the flag with this letter. -/
def nameOf? : Char → Option String
  | 'f' => "force"
  | 'v' => "verbose"
  | _ => .none

/-- Adds the flags with these letters. -/
def addLetters : List Char → Flags → Option Flags
  | [], flags => some flags
  | letter :: rest, flags => do
    let name ← nameOf? letter
    let more ← flags.add name
    addLetters rest more

/-- The flags of both sides; verbosity is the inner side's where that gives any. -/
def within (outer inner : Flags) : Flags :=
  { force := outer.force || inner.force
    json := outer.json || inner.json
    verbosity := if inner.verbosity = 0 then outer.verbosity else inner.verbosity }

/-- The least urgent events that are told about. -/
def threshold (flags : Flags) : Level :=
  match flags.verbosity with
  | 0 => .warn
  | 1 => .info
  | _ => .debug

end Flags

/-! ## Numbers -/

namespace Numeral

/-- The number that decimal digits spell; there must be one at least. -/
def digits? (text : List Char) : Option Nat :=
  if text.isEmpty || text.any (fun c => !c.isDigit) then none
  else some (text.foldl (fun n c => 10 * n + (c.toNat - '0'.toNat)) 0)

/-- The number that digits spell, perhaps behind a plus sign. -/
def natural? : List Char → Option Nat
  | '+' :: text => digits? text
  | text => digits? text

/-- A number of at most 64 bits. -/
def long? (text : String) : Option Nat :=
  (natural? text.toList).filter (· < 1 <<< 64)

/-- A number of at most 32 bits; it is read with a sign, so that zero may have either. -/
def short? (text : String) : Option Nat :=
  match text.toList with
  | '-' :: digits => (digits? digits).filter (· = 0)
  | digits => (natural? digits).filter (· < 1 <<< 32)

end Numeral

/-! ## Command lines -/

/-- The words behind a command's name, sorted. -/
structure Words where
  flags : Flags
  /-- The options with their values. -/
  values : List (String × String)
  /-- The words that stand for themselves. -/
  plain : List String
  deriving DecidableEq, Repr, Inhabited

namespace Words

/-- No words. -/
def none : Words := ⟨.none, [], []⟩

/-- The options that a command has. -/
def optionsOf : String → List String
  | "xfs-block" => ["sector", "as"]
  | "xfs-scan" => ["stride"]
  | _ => []

/-- The value of an option, if it is given. -/
def value? (words : Words) (name : String) : Option String := words.values.lookup name

/-- Adds the value of an option that is one of `options` and has none yet. -/
def addValue (options : List String) (name value : String) (words : Words) : Option Words :=
  if options.contains name && (words.value? name).isNone then
    some { words with values := words.values ++ [(name, value)] }
  else .none

/-- Adds a word that needs no other. -/
def addWord (options : List String) (word : Word) (words : Words) : Option Words :=
  match word with
  | .plain text => some { words with plain := words.plain ++ [text] }
  | .letters letters => (words.flags.addLetters letters).map fun flags => { words with flags }
  | .option name (some value) => words.addValue options name value
  | .option name .none => (words.flags.add name).map fun flags => { words with flags }
  | .mark => .none

/-- Sorts the words of a command with these options. -/
def sort (options : List String) : List String → Words → Option Words
  | [], words => some words
  | [text], words =>
    if Word.ofString text = .mark then some words else words.addWord options (.ofString text)
  | text :: next :: rest, words =>
    match Word.ofString text with
    | .mark => some { words with plain := words.plain ++ next :: rest }
    | .option name .none =>
      if options.contains name then
        match Word.ofString next with
        | .plain value => (words.addValue options name value).bind (sort options rest)
        | _ => .none
      else (words.addWord options (.option name .none)).bind (sort options (next :: rest))
    | word => (words.addWord options word).bind (sort options (next :: rest))

/-- A word that names a file, which no empty word does. -/
def file? (text : String) : Option String := if text = "" then .none else some text

/-- The number that an option's value spells, if the option is given. -/
def optional? (words : Words) (name : String) : Option (Option Nat) :=
  match words.value? name with
  | .none => some .none
  | some text => (Numeral.short? text).map some

/-- The command with this name that the words complete. -/
def command? (words : Words) (name : String) : Option Command :=
  match name, words.plain with
  | "mbr", [image] => (file? image).map .partitions
  | "xfs-info", [image] => (file? image).map .info
  | "xfs-ag", [image, agno] => do some (.group (← file? image) (← Numeral.short? agno))
  | "xfs-block", [image, block] => do
    some (.block (← file? image) (← Numeral.long? block) (← words.optional? "sector")
      (words.value? "as"))
  | "xfs-inode", [image, ino] => do some (.inode (← file? image) (← Numeral.long? ino))
  | "xfs-scan", [image] => do some (.scan (← file? image) (← words.optional? "stride"))
  | "xfs-export", [image, destination] => do
    some (.writeUsed (← file? image) (← file? destination))
  | "xfs-types", [] => some .types
  | _, _ => .none

end Words

namespace Request

/-- The flags before the command's name, that name, and what follows it. -/
def split? : List String → Flags → Option (Flags × String × List String)
  | [], _ => none
  | text :: rest, flags =>
    match Word.ofString text with
    | .plain name => some (flags, name, rest)
    | .letters letters => (flags.addLetters letters).bind (split? rest)
    | .option name none => (flags.add name).bind (split? rest)
    | _ => none

/-- The request that a command line makes, if it is well formed. -/
def ofArguments? (arguments : List String) : Option Request := do
  let (outer, name, rest) ← split? arguments .none
  let words ← Words.sort (Words.optionsOf name) rest .none
  let command ← words.command? name
  let flags := outer.within words.flags
  some
    { command
      mode := if flags.force then .bestEffort else .strict
      json := flags.json
      threshold := flags.threshold }

end Request

end DiskScope
